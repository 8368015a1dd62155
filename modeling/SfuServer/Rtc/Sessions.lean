import SfuServer.Authenticity

/-!
The sessions of a stream and their data channels over runs: `publish_data_channel` and
`subscribe_data_channel`, and the callbacks for closed connections with `remove_publish` and
`remove_subscribe`, of `src/forward/rtc/internal.rs` and `src/forward/rtc/mod.rs`.

A session is a connection; a user can have several of them.  The map of the senders is keyed by
the user, and so are the events that announce who closed.

* `RtcSystem`, `RtcAction`, `rtcMachine`: the data channels of a stream with the sessions they
  belong to, and what can happen to them;
* `Isolated`: a session that has registered a data channel and not closed finds its user in the
  map, under a session that has not closed, and no close event for the user after its
  registration;
* `sessions_isolated_iff`: this holds exactly in runs where the sessions of a user do not
  overlap when one of them ends.
-/

open Std (ExtTreeMap)

namespace SfuServer

open Endian

/-- The connection of a session publishes or subscribes. -/
inductive SessionRole where
  | publisher
  | subscriber
  deriving DecidableEq, Repr

/-- How far the callback for a closed connection is: it broadcasts the close event, gives up
the slot or the place in the group, and removes the user from the map. -/
inductive CloseStage where
  | idle
  | noticed
  | left
  | done
  deriving DecidableEq, Repr

/-- A connection of a user.  `registered` is the number of frames on the group's channel when
its first data channel was registered. -/
structure RtcSession where
  id : UInt32
  role : SessionRole
  closed : Bool
  registered : Option ℕ
  stage : CloseStage
  deriving DecidableEq

/-- A stream with its sessions: the session in the publish slot, those in the group of the
subscribers, and the session that each data channel belongs to. -/
structure RtcSystem where
  channels : DataChannelSystem
  sessions : List RtcSession
  publish : Option ℕ
  subscribeGroup : List ℕ
  owners : List ℕ

/-- What can happen: a session is set up, a publisher comes into the slot, a data channel of a
session is registered, a connection closes, its callback takes its next step, and the loops of
the data channels take theirs. -/
inductive RtcAction where
  | join (id : UInt32) (role : SessionRole)
  | setPublish (k : ℕ)
  | register (k : ℕ)
  | close (k : ℕ)
  | notice (k : ℕ)
  | leave (k : ℕ)
  | remove (k : ℕ)
  | channel (a : DataChannelAction)

namespace RtcSystem

/-- A stream without sessions. -/
def new : RtcSystem where
  channels := .new
  sessions := []
  publish := none
  subscribeGroup := []
  owners := []

/-- A change of a session. -/
def setSession (s : RtcSystem) (k : ℕ) (c : RtcSession) : RtcSystem :=
  { s with sessions := s.sessions.set k c }

/-- A connection is set up; that of a subscriber is entered into the group. -/
def joinStep (s : RtcSystem) (id : UInt32) (role : SessionRole) : RtcSystem :=
  { s with
    sessions := s.sessions ++ [⟨id, role, false, none, .idle⟩]
    subscribeGroup := match role with
      | .publisher => s.subscribeGroup
      | .subscriber => s.subscribeGroup ++ [s.sessions.length] }

/-- `PeerForwardInternal::set_publish`: a publisher comes into the slot if it is empty. -/
def setPublishStep (s : RtcSystem) (k : ℕ) : Option RtcSystem :=
  s.sessions[k]?.bind fun c =>
    if c.role = .publisher ∧ s.publish = none then some { s with publish := some k } else none

/-- The task of `publish_data_channel` or `subscribe_data_channel`, which runs at any time
after the data channel was announced. -/
def registerStep (s : RtcSystem) (k : ℕ) : Option RtcSystem :=
  s.sessions[k]?.map fun c =>
    { s with
      channels := s.channels.registerStep c.id
      owners := s.owners ++ [k] }.setSession k { c with
        registered := some (c.registered.getD s.channels.dataChannelForward.log.length) }

/-- A connection closes. -/
def closeStep (s : RtcSystem) (k : ℕ) : Option RtcSystem :=
  s.sessions[k]?.bind fun c =>
    if c.closed = false then some (s.setSession k { c with closed := true }) else none

/-- The callback for a closed connection tells the group. -/
def noticeStep (s : RtcSystem) (k : ℕ) : Option RtcSystem :=
  s.sessions[k]?.bind fun c =>
    if c.closed = true ∧ c.stage = .idle then some ({ s with
      channels := s.channels.noticeStep c.id }.setSession k { c with stage := .noticed })
    else none

/-- The first section of `remove_publish` and `remove_subscribe`: both stop here where the
session is not the one in the slot, or not in the group. -/
def leaveStep (s : RtcSystem) (k : ℕ) : Option RtcSystem :=
  s.sessions[k]?.bind fun c =>
    if c.stage = .noticed then some <|
      match c.role with
      | .publisher =>
          if s.publish = some k then
            { s with publish := none }.setSession k { c with stage := .left }
          else s.setSession k { c with stage := .done }
      | .subscriber =>
          if k ∈ s.subscribeGroup then
            { s with subscribeGroup := s.subscribeGroup.erase k }.setSession k
              { c with stage := .left }
          else s.setSession k { c with stage := .done }
    else none

/-- The last section of `remove_publish` and `remove_subscribe`: the user is removed from the
map of the senders. -/
def removeStep (s : RtcSystem) (k : ℕ) : Option RtcSystem :=
  s.sessions[k]?.bind fun c =>
    if c.stage = .left then some ({ s with
      channels := s.channels.removeStep c.id }.setSession k { c with stage := .done })
    else none

/-- A step of the loops of the data channels; what the sessions do is in the other steps. -/
def channelStep (s : RtcSystem) (a : DataChannelAction) : Option RtcSystem :=
  match a with
  | .register _ | .notice _ | .remove _ => none
  | .opened _ | .spawnWrite _ | .spawnPipe _ | .announce _ | .read .. | .readErr _ | .write ..
  | .pipe _ => (s.channels.step a).map fun channels => { s with channels := channels }

/-- One step of the stream. -/
def step (s : RtcSystem) : RtcAction → Option RtcSystem
  | .join id role => some (s.joinStep id role)
  | .setPublish k => s.setPublishStep k
  | .register k => s.registerStep k
  | .close k => s.closeStep k
  | .notice k => s.noticeStep k
  | .leave k => s.leaveStep k
  | .remove k => s.removeStep k
  | .channel a => s.channelStep a

end RtcSystem

/-- The machine of a stream with its sessions. -/
def rtcMachine : Machine RtcSystem RtcAction where
  init s := s = .new
  step := RtcSystem.step

namespace RtcSystem

variable {s t : RtcSystem} {a : RtcAction} {j k : ℕ} {id : UInt32}

/-! ### Isolation of sessions -/

/-- The session `j` is one of the user's, has registered a data channel and not closed. -/
def Attends (s : RtcSystem) (id : UInt32) (j : ℕ) : Prop :=
  ∃ c, s.sessions[j]? = some c ∧ c.id = id ∧ c.closed = false ∧ c.registered.isSome

/-- The map has a sender of the user, which belongs to the session `j` of the user. -/
def OwnedBy (s : RtcSystem) (id : UInt32) (j : ℕ) : Prop :=
  ∃ channel c, s.channels.userSenderMap[id]? = some channel ∧ s.owners[channel]? = some j ∧
    s.sessions[j]? = some c ∧ c.id = id

/-- No close event for the user was broadcast after the first `n` frames. -/
def NotClosedSince (s : RtcSystem) (id : UInt32) (n : ℕ) : Prop :=
  networkEvent id false ∉ s.channels.dataChannelForward.log.drop n

/-- As long as a session has registered a data channel and not closed, the map has a sender
of its user, which belongs to a session of the user that has not closed, and no close event
for the user has been broadcast since its registration. -/
def Isolated (s : RtcSystem) : Prop :=
  ∀ (j : ℕ) (c : RtcSession) (n : ℕ), s.sessions[j]? = some c → c.closed = false →
    c.registered = some n →
    (∃ i d, s.OwnedBy c.id i ∧ s.sessions[i]? = some d ∧ d.closed = false) ∧
      s.NotClosedSince c.id n

/-- A session that closes while the map has it as its user's is the last of the user; and a
session that has closed tells the group, removes its user from the map, and registers a data
channel, only after all sessions of the user have closed. -/
def EndsAlone (s : RtcSystem) : RtcAction → Prop
  | .close k => ∀ c, s.sessions[k]? = some c → s.OwnedBy c.id k → ∀ j, s.Attends c.id j → j = k
  | .notice k | .remove k => ∀ c, s.sessions[k]? = some c → ∀ j, ¬ s.Attends c.id j
  | .register k => ∀ c, s.sessions[k]? = some c → c.closed = true → ∀ j, ¬ s.Attends c.id j
  | .join .. | .setPublish _ | .leave _ | .channel _ => True

instance (s : RtcSystem) (id : UInt32) (j : ℕ) : Decidable (s.Attends id j) :=
  decidable_of_iff
    ((s.sessions[j]?.any fun c => c.id == id && !c.closed && c.registered.isSome) = true)
    (by simp [Attends, Option.any_eq_true, and_assoc])

instance (s : RtcSystem) (id : UInt32) (j : ℕ) : Decidable (s.OwnedBy id j) :=
  decidable_of_iff ((s.channels.userSenderMap[id]?.any fun channel =>
      s.owners[channel]? == some j) = true ∧ (s.sessions[j]?.any fun c => c.id == id) = true)
    (by
      simp only [OwnedBy, Option.any_eq_true, beq_iff_eq]
      constructor
      · rintro ⟨⟨channel, hchannel, howner⟩, c, hc, hid⟩
        exact ⟨channel, c, hchannel, howner, hc, hid⟩
      · rintro ⟨channel, c, hchannel, howner, hc, hid⟩
        exact ⟨⟨channel, hchannel, howner⟩, c, hc, hid⟩)

/-- Only the sessions of a stream attend. -/
lemma Attends.lt (h : s.Attends id j) : j < s.sessions.length := by
  obtain ⟨c, hc, -⟩ := h
  exact (List.getElem?_eq_some_iff.mp hc).1

instance (s : RtcSystem) (a : RtcAction) : Decidable (s.EndsAlone a) :=
  match a with
  | .close k => decidable_of_iff (∀ c ∈ s.sessions[k]?, s.OwnedBy c.id k →
      ∀ j < s.sessions.length, s.Attends c.id j → j = k)
      ⟨fun h c hc hown j hj => h c hc hown j hj.lt hj, fun h c hc hown j _ => h c hc hown j⟩
  | .notice k | .remove k => decidable_of_iff (∀ c ∈ s.sessions[k]?,
      ∀ j < s.sessions.length, ¬ s.Attends c.id j)
      ⟨fun h c hc j hj => h c hc j hj.lt hj, fun h c hc j _ => h c hc j⟩
  | .register k => decidable_of_iff (∀ c ∈ s.sessions[k]?, c.closed = true →
      ∀ j < s.sessions.length, ¬ s.Attends c.id j)
      ⟨fun h c hc hclosed j hj => h c hc hclosed j hj.lt hj,
        fun h c hc hclosed j _ => h c hc hclosed j⟩
  | .join .. | .setPublish _ | .leave _ | .channel _ => isTrue trivial

/-! ### What the steps do -/

/-- What belongs together: every data channel has an owner, the stream keeps its receiver on
the group's channel, and what was counted on it stays there. -/
structure Wf (s : RtcSystem) : Prop where
  owners : s.owners.length = s.channels.sessions.length
  live : s.channels.dataChannelForward.Live 0
  counted : ∀ (j : ℕ) (c : RtcSession) (n : ℕ), s.sessions[j]? = some c → c.registered = some n →
    n ≤ s.channels.dataChannelForward.log.length

/-- Two states have the same sessions but for the stages of their callbacks, and the same
owners of the data channels. -/
structure SameSessions (s t : RtcSystem) : Prop where
  owners : t.owners = s.owners
  of_right : ∀ (j : ℕ) (d : RtcSession), t.sessions[j]? = some d →
    ∃ c, s.sessions[j]? = some c ∧ c.id = d.id ∧ c.closed = d.closed ∧
      c.registered = d.registered
  of_left : ∀ (j : ℕ) (c : RtcSession), s.sessions[j]? = some c →
    ∃ d, t.sessions[j]? = some d ∧ d.id = c.id ∧ d.closed = c.closed ∧
      d.registered = c.registered

/-- A step of the callback of a session moves the stage of that session only. -/
lemma sameSessions_set {c : RtcSession} (hc : s.sessions[k]? = some c) (stage : CloseStage)
    (howners : t.owners = s.owners)
    (hsessions : t.sessions = s.sessions.set k { c with stage := stage }) :
    s.SameSessions t := by
  have hlt := (List.getElem?_eq_some_iff.mp hc).1
  refine ⟨howners, fun j d hd => ?_, fun j d hd => ?_⟩
  · rw [hsessions] at hd
    by_cases hj : j = k
    · subst hj
      rw [List.getElem?_set_self hlt, Option.some.injEq] at hd
      exact ⟨c, hc, by rw [← hd], by rw [← hd], by rw [← hd]⟩
    · rw [List.getElem?_set_ne (Ne.symm hj)] at hd
      exact ⟨d, hd, rfl, rfl, rfl⟩
  · rw [hsessions]
    by_cases hj : j = k
    · subst hj
      obtain rfl := Option.some.inj (hc.symm.trans hd)
      exact ⟨_, List.getElem?_set_self hlt, rfl, rfl, rfl⟩
    · exact ⟨d, by rw [List.getElem?_set_ne (Ne.symm hj)]; exact hd, rfl, rfl, rfl⟩

lemma SameSessions.attends (h : s.SameSessions t) (hj : s.Attends id j) : t.Attends id j := by
  obtain ⟨c, hc, hid, hclosed, hreg⟩ := hj
  obtain ⟨d, hd, hid', hclosed', hreg'⟩ := h.of_left j c hc
  exact ⟨d, hd, hid'.trans hid, hclosed'.trans hclosed, hreg' ▸ hreg⟩

/-- A user whose entry in the map stays is owned by a session that has not closed, as
before. -/
lemma SameSessions.owned (h : s.SameSessions t)
    (hmap : t.channels.userSenderMap[id]? = s.channels.userSenderMap[id]?)
    (hs : ∃ i d, s.OwnedBy id i ∧ s.sessions[i]? = some d ∧ d.closed = false) :
    ∃ i d, t.OwnedBy id i ∧ t.sessions[i]? = some d ∧ d.closed = false := by
  obtain ⟨i, d, ⟨channel, c, hchannel, howner, hc, hid⟩, hd, hclosed⟩ := hs
  obtain rfl := Option.some.inj (hc.symm.trans hd)
  obtain ⟨d, hd, hid', hclosed', -⟩ := h.of_left i c hc
  exact ⟨i, d, ⟨channel, d, hmap ▸ hchannel, h.owners ▸ howner, hd, hid'.trans hid⟩, hd,
    hclosed'.trans hclosed⟩

/-- A session attends as long as it has a registration and is not closed. -/
lemma attends_of_registered {c : RtcSession} {n : ℕ} (hc : s.sessions[j]? = some c)
    (hclosed : c.closed = false) (hreg : c.registered = some n) : s.Attends c.id j :=
  ⟨c, hc, rfl, hclosed, by rw [hreg]; rfl⟩

/-- What a session that is open and registered was promised before a step of a callback. -/
lemma SameSessions.isolated (h : s.SameSessions t) (hs : s.Isolated) {d : RtcSession} {n : ℕ}
    (hd : t.sessions[j]? = some d) (hclosed : d.closed = false) (hreg : d.registered = some n) :
    s.Attends d.id j ∧ (∃ i e, s.OwnedBy d.id i ∧ s.sessions[i]? = some e ∧ e.closed = false) ∧
      s.NotClosedSince d.id n := by
  obtain ⟨e, he, hid, hclosed', hreg'⟩ := h.of_right j d hd
  have hopen := hclosed'.trans hclosed
  have hregistered := hreg'.trans hreg
  rw [← hid]
  exact ⟨attends_of_registered he hopen hregistered, hs j e n he hopen hregistered⟩

/-- A frame that follows on the channel is a close event for the user, or leaves it as it
was. -/
lemma notClosedSince_append {f : Bytes} {n : ℕ}
    (hlog : t.channels.dataChannelForward.log = s.channels.dataChannelForward.log ++ [f])
    (hn : n ≤ s.channels.dataChannelForward.log.length) :
    t.NotClosedSince id n ↔ s.NotClosedSince id n ∧ networkEvent id false ≠ f := by
  rw [NotClosedSince, hlog, List.drop_append_of_le_length hn, List.mem_append,
    List.mem_singleton, not_or]
  rfl

lemma networkEvent_injective (isOpen : Bool) :
    Function.Injective fun id => networkEvent id isOpen := by
  intro id id' h
  have hdrop := congrArg (List.drop 5) h
  simp only [networkEvent, List.drop_left' (header_length _ _)] at hdrop
  exact leBytes_inj.mp hdrop

/-- What the loops of the data channels put on the group's channel is no close event. -/
lemma networkEvent_ne_of_puts {r : DataChannelSystem} {b : DataChannelAction} {f : Bytes}
    (hb : ∀ id, b ≠ .notice id) (hf : r.Puts b f) (id : UInt32) : networkEvent id false ≠ f := by
  cases b with
  | notice id' => exact absurd rfl (hb id')
  | announce i =>
      obtain ⟨c, -, rfl⟩ := hf
      intro h
      exact absurd (List.cons.inj h).1 (by decide)
  | read i m =>
      obtain ⟨c, -, rest, rfl⟩ := hf
      intro h
      exact absurd (List.cons.inj h).1 (by decide)
  | _ => exact hf.elim

/-! ### What keeps the sessions isolated -/

lemma isolated_leave (hs : s.Isolated) (hst : s.step (.leave k) = some t) : t.Isolated := by
  simp only [step, leaveStep, Option.bind_eq_some_iff, Option.ite_none_right_eq_some,
    Option.some.injEq] at hst
  obtain ⟨c, hc, -, rfl⟩ := hst
  have hkeep : ∀ (u : RtcSystem) (stage : CloseStage), u.channels = s.channels →
      u.owners = s.owners → u.sessions = s.sessions.set k { c with stage := stage } →
      u.Isolated := by
    intro u stage hchannels howners hsessions j d n hd hclosed hreg
    have hsame := sameSessions_set hc stage howners hsessions
    obtain ⟨-, howned, hsince⟩ := hsame.isolated hs hd hclosed hreg
    rw [NotClosedSince, hchannels]
    exact ⟨hsame.owned (by rw [hchannels]) howned, hsince⟩
  split
  · split_ifs <;> exact hkeep _ _ rfl rfl rfl
  · split_ifs <;> exact hkeep _ _ rfl rfl rfl

lemma isolated_notice_iff (hw : s.Wf) (hs : s.Isolated) (hst : s.step (.notice k) = some t) :
    t.Isolated ↔ s.EndsAlone (.notice k) := by
  simp only [step, noticeStep, Option.bind_eq_some_iff, Option.ite_none_right_eq_some,
    Option.some.injEq] at hst
  obtain ⟨c, hc, -, rfl⟩ := hst
  set t := ({ s with channels := s.channels.noticeStep c.id } : RtcSystem).setSession k
    { c with stage := .noticed } with ht
  have hsame : s.SameSessions t := sameSessions_set hc .noticed rfl rfl
  have hlog : t.channels.dataChannelForward.log =
      s.channels.dataChannelForward.log ++ [networkEvent c.id false] := by
    have hsend := (Broadcast.send_eq_some_iff s.channels.dataChannelForward
      (networkEvent c.id false)).mpr ⟨⟨0, hw.live⟩, rfl⟩
    rw [ht, setSession, DataChannelSystem.noticeStep, Broadcast.sendIgnore, hsend]
    rfl
  constructor
  · intro h c' hc' j hj
    obtain rfl := Option.some.inj (hc.symm.trans hc')
    obtain ⟨d, hd, hid, hclosed, hreg⟩ := hsame.attends hj
    obtain ⟨n, hn⟩ := Option.isSome_iff_exists.mp hreg
    obtain ⟨e, he, -, -, hreg'⟩ := hsame.of_right j d hd
    have hle := hw.counted j e n he (hreg'.trans hn)
    rw [← hid] at hlog
    exact ((notClosedSince_append hlog hle).mp (h j d n hd hclosed hn).2).2 rfl
  · intro hok j d n hd hclosed hreg
    obtain ⟨e, he, -, -, hreg'⟩ := hsame.of_right j d hd
    have hle := hw.counted j e n he (hreg'.trans hreg)
    obtain ⟨hattends, howned, hsince⟩ := hsame.isolated hs hd hclosed hreg
    have hne : networkEvent d.id false ≠ networkEvent c.id false := fun h =>
      hok c hc j (networkEvent_injective false h ▸ hattends)
    exact ⟨hsame.owned rfl howned, (notClosedSince_append hlog hle).mpr ⟨hsince, hne⟩⟩

lemma isolated_remove_iff (hs : s.Isolated) (hst : s.step (.remove k) = some t) :
    t.Isolated ↔ s.EndsAlone (.remove k) := by
  simp only [step, removeStep, Option.bind_eq_some_iff, Option.ite_none_right_eq_some,
    Option.some.injEq] at hst
  obtain ⟨c, hc, -, rfl⟩ := hst
  set t := ({ s with channels := s.channels.removeStep c.id } : RtcSystem).setSession k
    { c with stage := .done }
  have hsame : s.SameSessions t := sameSessions_set hc .done rfl rfl
  have hmap : ∀ id, t.channels.userSenderMap[id]? =
      if c.id = id then none else s.channels.userSenderMap[id]? := by
    intro id
    change (s.channels.userSenderMap.erase c.id)[id]? = _
    simp only [ExtTreeMap.getElem?_erase, Std.LawfulEqCmp.compare_eq_iff_eq]
  constructor
  · intro h c' hc' j hj
    obtain rfl := Option.some.inj (hc.symm.trans hc')
    obtain ⟨d, hd, hid, hclosed, hreg⟩ := hsame.attends hj
    obtain ⟨n, hn⟩ := Option.isSome_iff_exists.mp hreg
    obtain ⟨⟨i, -, ⟨channel, -, hchannel, -⟩, -⟩, -⟩ := h j d n hd hclosed hn
    rw [hmap, if_pos hid.symm] at hchannel
    cases hchannel
  · intro hok j d n hd hclosed hreg
    obtain ⟨hattends, howned, hsince⟩ := hsame.isolated hs hd hclosed hreg
    have hne : c.id ≠ d.id := fun h => hok c hc j (h ▸ hattends)
    exact ⟨hsame.owned (by rw [hmap, if_neg hne]) howned, hsince⟩

/-- The session that the map has as a user's is one of the user's. -/
lemma OwnedBy.id_eq {c : RtcSession} (hj : s.OwnedBy id j) (hc : s.sessions[j]? = some c) :
    c.id = id := by
  obtain ⟨-, d, -, -, hd, hid⟩ := hj
  rw [Option.some.inj (hc.symm.trans hd)]
  exact hid

/-- The map has one session as a user's. -/
lemma OwnedBy.unique (hj : s.OwnedBy id j) (hk : s.OwnedBy id k) : j = k := by
  obtain ⟨channel, -, hchannel, howner, -⟩ := hj
  obtain ⟨channel', -, hchannel', howner', -⟩ := hk
  obtain rfl := Option.some.inj (hchannel.symm.trans hchannel')
  exact Option.some.inj (howner.symm.trans howner')

lemma isolated_close_iff (hs : s.Isolated) (hst : s.step (.close k) = some t) :
    t.Isolated ↔ s.EndsAlone (.close k) := by
  simp only [step, closeStep, Option.bind_eq_some_iff, Option.ite_none_right_eq_some,
    Option.some.injEq] at hst
  obtain ⟨c, hc, -, rfl⟩ := hst
  have hself : (s.setSession k { c with closed := true }).sessions[k]? =
      some { c with closed := true } :=
    List.getElem?_set_self (List.getElem?_eq_some_iff.mp hc).1
  have hother : ∀ i ≠ k, (s.setSession k { c with closed := true }).sessions[i]? =
      s.sessions[i]? := fun i hi => List.getElem?_set_ne (Ne.symm hi)
  constructor
  · intro h c' hc' hown j hj
    obtain rfl := Option.some.inj (hc.symm.trans hc')
    by_contra hjk
    obtain ⟨d, hd, hid, hclosed, hreg⟩ := hj
    obtain ⟨n, hn⟩ := Option.isSome_iff_exists.mp hreg
    obtain ⟨⟨i, e, howned, he, hopen⟩, -⟩ := h j d n ((hother j hjk).trans hd) hclosed hn
    -- the session that the map has is the one that closes
    have hown' : (s.setSession k { c with closed := true }).OwnedBy d.id k := by
      obtain ⟨channel, -, hchannel, howner, -⟩ := hown
      exact ⟨channel, _, hid ▸ hchannel, howner, hself, hid.symm⟩
    have hik : i = k := howned.unique hown'
    rw [hik, hself, Option.some.injEq] at he
    rw [← he] at hopen
    cases hopen
  · intro hok j d n hd hclosed hreg
    have hjk : j ≠ k := by
      rintro rfl
      rw [hself, Option.some.injEq] at hd
      rw [← hd] at hclosed
      cases hclosed
    rw [hother j hjk] at hd
    obtain ⟨⟨i, e, howned, he, hopen⟩, hsince⟩ := hs j d n hd hclosed hreg
    have hik : i ≠ k := by
      rintro rfl
      obtain rfl := Option.some.inj (hc.symm.trans he)
      have hattends := attends_of_registered hd hclosed hreg
      rw [← howned.id_eq hc] at hattends howned
      exact hjk (hok c hc howned j hattends)
    obtain ⟨channel, d', hchannel, howner, hd', hid⟩ := howned
    exact ⟨⟨i, e, ⟨channel, d', hchannel, howner, (hother i hik).trans hd', hid⟩,
      (hother i hik).trans he, hopen⟩, hsince⟩

/-- After a registration the map has the session as its user's, and the entries of the others
stay. -/
structure Registers (s : RtcSystem) (k : ℕ) (c : RtcSession) (t : RtcSystem) : Prop where
  before : s.sessions[k]? = some c
  after : t.sessions[k]? = some { c with
    registered := some (c.registered.getD s.channels.dataChannelForward.log.length) }
  others : ∀ i ≠ k, t.sessions[i]? = s.sessions[i]?
  owned : t.OwnedBy c.id k
  kept : ∀ id ≠ c.id, ∀ i, s.OwnedBy id i → t.OwnedBy id i
  log : t.channels.dataChannelForward.log = s.channels.dataChannelForward.log

lemma registers_of_step (hw : s.Wf) (hst : s.step (.register k) = some t) :
    ∃ c, s.Registers k c t := by
  obtain ⟨c, hc, rfl⟩ := Option.map_eq_some_iff.mp hst
  set c' : RtcSession := { c with
    registered := some (c.registered.getD s.channels.dataChannelForward.log.length) }
  set t := ({ s with
    channels := s.channels.registerStep c.id, owners := s.owners ++ [k] } : RtcSystem).setSession
      k c' with ht
  have hself : t.sessions[k]? = some c' :=
    List.getElem?_set_self (List.getElem?_eq_some_iff.mp hc).1
  have hother : ∀ i ≠ k, t.sessions[i]? = s.sessions[i]? :=
    fun i hi => List.getElem?_set_ne (Ne.symm hi)
  have hmap : ∀ id, t.channels.userSenderMap[id]? =
      if c.id = id then some s.channels.sessions.length
      else s.channels.userSenderMap[id]? := by
    intro id
    change (s.channels.userSenderMap.insert c.id s.channels.sessions.length)[id]? = _
    simp only [ExtTreeMap.getElem?_insert, Std.LawfulEqCmp.compare_eq_iff_eq]
  refine ⟨c, hc, hself, hother, ?_, fun id hid i howned => ?_, rfl⟩
  · refine ⟨_, c', by rw [hmap, if_pos rfl], ?_, hself, rfl⟩
    rw [ht, setSession, ← hw.owners]
    exact List.getElem?_concat_length
  · have hik : i ≠ k := by
      rintro rfl
      exact hid (howned.id_eq hc).symm
    obtain ⟨channel, e, hchannel, howner, he, hide⟩ := howned
    refine ⟨channel, e, ?_, ?_, (hother i hik).trans he, hide⟩
    · rw [hmap, if_neg (Ne.symm hid)]
      exact hchannel
    · have hlt := (List.getElem?_eq_some_iff.mp howner).1
      exact (List.getElem?_append_left hlt).trans howner

/-- The sessions of the other users are isolated as before. -/
lemma Registers.isolated_of_ne {c d : RtcSession} {n : ℕ} (h : s.Registers k c t)
    (hs : s.Isolated) (hd : t.sessions[j]? = some d) (hclosed : d.closed = false)
    (hreg : d.registered = some n) (hid : d.id ≠ c.id) :
    (∃ i e, t.OwnedBy d.id i ∧ t.sessions[i]? = some e ∧ e.closed = false) ∧
      t.NotClosedSince d.id n := by
  have hjk : j ≠ k := by
    rintro rfl
    obtain rfl := Option.some.inj (h.after.symm.trans hd)
    exact hid rfl
  obtain ⟨⟨i, e, howned, he, hopen⟩, hsince⟩ :=
    hs j d n ((h.others j hjk).symm.trans hd) hclosed hreg
  have hik : i ≠ k := by
    rintro rfl
    exact hid (howned.id_eq h.before).symm
  refine ⟨⟨i, e, h.kept d.id hid i howned, (h.others i hik).trans he, hopen⟩, ?_⟩
  rw [NotClosedSince, h.log]
  exact hsince

/-- An open session registers. -/
lemma Registers.isolated {c : RtcSession} (h : s.Registers k c t) (hs : s.Isolated)
    (hopen : c.closed = false) : t.Isolated := by
  intro j d n hd hclosed hreg
  by_cases hid : d.id = c.id
  · refine ⟨⟨k, _, hid ▸ h.owned, h.after, hopen⟩, ?_⟩
    rw [NotClosedSince, h.log]
    by_cases hjk : j = k
    · subst hjk
      obtain rfl := Option.some.inj (h.after.symm.trans hd)
      cases hold : c.registered with
      | none =>
          -- nothing has been broadcast since the first registration
          rw [hold, Option.getD_none, Option.some.injEq] at hreg
          rw [← hreg, List.drop_length]
          exact List.not_mem_nil
      | some n₀ =>
          rw [hold, Option.getD_some, Option.some.injEq] at hreg
          exact hreg ▸ (hs j c n₀ h.before hopen hold).2
    · exact (hs j d n ((h.others j hjk).symm.trans hd) hclosed hreg).2
  · exact h.isolated_of_ne hs hd hclosed hreg hid

/-- A session that has closed registers: the map has it as its user's. -/
lemma Registers.isolated_iff_of_closed {c : RtcSession} (h : s.Registers k c t) (hs : s.Isolated)
    (hend : c.closed = true) : t.Isolated ↔ ∀ j, ¬ s.Attends c.id j := by
  have hne : ∀ (i : ℕ) (r : RtcSystem) (d : RtcSession), r.sessions[k]? = some d →
      d.closed = c.closed → ∀ e, r.sessions[i]? = some e → e.closed = false → i ≠ k := by
    rintro i r d hd heq e he hopen rfl
    obtain rfl := Option.some.inj (hd.symm.trans he)
    rw [heq, hend] at hopen
    cases hopen
  constructor
  · rintro hiso j ⟨d, hd, hid, hopen, hreg⟩
    obtain ⟨n, hn⟩ := Option.isSome_iff_exists.mp hreg
    have hjk := hne j s c h.before rfl d hd hopen
    obtain ⟨⟨i, e, howned, he, hopen'⟩, -⟩ := hiso j d n ((h.others j hjk).trans hd) hopen hn
    exact hne i t _ h.after rfl e he hopen' ((hid ▸ howned).unique h.owned)
  · intro hok j d n hd hopen hreg
    refine h.isolated_of_ne hs hd hopen hreg fun hid => ?_
    have hjk := hne j t _ h.after rfl d hd hopen
    have hattends := attends_of_registered ((h.others j hjk).symm.trans hd) hopen hreg
    exact hok j (hid ▸ hattends)

lemma isolated_register_iff (hw : s.Wf) (hs : s.Isolated)
    (hst : s.step (.register k) = some t) : t.Isolated ↔ s.EndsAlone (.register k) := by
  obtain ⟨c, h⟩ := registers_of_step hw hst
  have hc : ∀ c', s.sessions[k]? = some c' → c' = c := fun c' hc' =>
    Option.some.inj (hc'.symm.trans h.before)
  cases hclosed : c.closed with
  | false =>
      refine iff_of_true (h.isolated hs hclosed) fun c' hc' hclosed' => ?_
      rw [hc c' hc', hclosed] at hclosed'
      cases hclosed'
  | true =>
      rw [h.isolated_iff_of_closed hs hclosed]
      exact ⟨fun hno c' hc' _ => hc c' hc' ▸ hno, fun hok => hok c h.before hclosed⟩

/-- A session that has registered a data channel was there before a new one came. -/
lemma old_of_joinStep {role : SessionRole} {d : RtcSession} {n : ℕ}
    (hd : (s.joinStep id role).sessions[j]? = some d) (hreg : d.registered = some n) :
    s.sessions[j]? = some d := by
  change (s.sessions ++ [_])[j]? = some d at hd
  by_cases hlt : j < s.sessions.length
  · rwa [List.getElem?_append_left hlt] at hd
  · rw [List.getElem?_append_right (not_lt.mp hlt)] at hd
    rw [List.mem_singleton.mp (List.mem_of_getElem? hd)] at hreg
    cases hreg

lemma isolated_join {role : SessionRole} (hs : s.Isolated) :
    (s.joinStep id role).Isolated := by
  have hkept : ∀ (i : ℕ) (d : RtcSession), s.sessions[i]? = some d →
      (s.joinStep id role).sessions[i]? = some d := fun i d hd =>
    (List.getElem?_append_left (List.getElem?_eq_some_iff.mp hd).1).trans hd
  intro j d n hd hclosed hreg
  have hold := old_of_joinStep hd hreg
  obtain ⟨⟨i, e, ⟨channel, e', hchannel, howner, he', hid⟩, he, hopen⟩, hsince⟩ :=
    hs j d n hold hclosed hreg
  exact ⟨⟨i, e, ⟨channel, e', hchannel, howner, hkept i e' he', hid⟩, hkept i e he, hopen⟩,
    hsince⟩

/-- A step of the loops of the data channels, which is none of what the sessions do. -/
lemma exists_of_channelStep {b : DataChannelAction} (hst : s.channelStep b = some t) :
    (∀ id, b ≠ .register id) ∧ (∀ id, b ≠ .remove id) ∧ (∀ id, b ≠ .notice id) ∧
      ∃ channels, s.channels.step b = some channels ∧ { s with channels := channels } = t := by
  cases b with
  | register id => cases hst
  | notice id => cases hst
  | remove id => cases hst
  | _ => exact ⟨by simp, by simp, by simp, Option.map_eq_some_iff.mp hst⟩

lemma isolated_channel {b : DataChannelAction} (hw : s.Wf) (hs : s.Isolated)
    (hst : s.step (.channel b) = some t) : t.Isolated := by
  obtain ⟨hregister, hremove, hnotice, channels, hchannels, rfl⟩ := exists_of_channelStep hst
  have hmap := (DataChannelSystem.userSenderMap_step hregister hremove hchannels).1
  intro j d n hd hclosed hreg
  obtain ⟨⟨i, e, ⟨channel, e', hchannel, howner, he', hid⟩, he, hopen⟩, hsince⟩ :=
    hs j d n hd hclosed hreg
  refine ⟨⟨i, e, ⟨channel, e', hmap ▸ hchannel, howner, he', hid⟩, he, hopen⟩, ?_⟩
  rcases DataChannelSystem.log_step hchannels with hlog | ⟨f, hf, hlog⟩
  · rw [NotClosedSince, hlog]
    exact hsince
  · exact (notClosedSince_append hlog (hw.counted j d n hd hreg)).mpr
      ⟨hsince, networkEvent_ne_of_puts hnotice hf d.id⟩

/-- A step leaves the sessions isolated, exactly if the session that ends in it, if any, is
alone. -/
lemma isolated_step_iff (hw : s.Wf) (hs : s.Isolated) (hst : s.step a = some t) :
    t.Isolated ↔ s.EndsAlone a := by
  cases a with
  | join id role =>
      cases hst
      exact iff_of_true (isolated_join hs) trivial
  | setPublish k =>
      simp only [step, setPublishStep, Option.bind_eq_some_iff, Option.ite_none_right_eq_some,
        Option.some.injEq] at hst
      obtain ⟨c, -, -, rfl⟩ := hst
      exact iff_of_true hs trivial
  | register k => exact isolated_register_iff hw hs hst
  | close k => exact isolated_close_iff hs hst
  | notice k => exact isolated_notice_iff hw hs hst
  | leave k => exact iff_of_true (isolated_leave hs hst) trivial
  | remove k => exact isolated_remove_iff hs hst
  | channel b => exact iff_of_true (isolated_channel hw hs hst) trivial

/-! ### Well-formed states -/

/-- A step of the data channels leaves the receiver of the stream and the frames so far. -/
lemma wf_of_channels (hw : s.Wf) {b : DataChannelAction}
    (hb : s.channels.step b = some t.channels)
    (howners : t.owners.length = t.channels.sessions.length)
    (hcounted : ∀ (j : ℕ) (d : RtcSession) (n : ℕ), t.sessions[j]? = some d →
      d.registered = some n → n ≤ s.channels.dataChannelForward.log.length) : t.Wf where
  owners := howners
  live := DataChannelSystem.live_receiver_step hw.live hb
  counted j d n hd hreg := by
    have hle := hcounted j d n hd hreg
    rcases DataChannelSystem.log_step hb with hlog | ⟨f, -, hlog⟩
    · rwa [hlog]
    · rw [hlog, List.length_append]
      omega

/-- A step that moves one session, which does not register. -/
lemma counted_set (hw : s.Wf) {c c' : RtcSession} (hc : s.sessions[k]? = some c)
    (hreg : c'.registered = c.registered) : ∀ (j : ℕ) (d : RtcSession) (n : ℕ),
      (s.setSession k c').sessions[j]? = some d → d.registered = some n →
      n ≤ s.channels.dataChannelForward.log.length := by
  intro j d n hd hn
  by_cases hjk : j = k
  · subst hjk
    rw [setSession, List.getElem?_set_self (List.getElem?_eq_some_iff.mp hc).1,
      Option.some.injEq] at hd
    exact hw.counted j c n hc (by rw [← hreg, hd, hn])
  · rw [setSession, List.getElem?_set_ne (Ne.symm hjk)] at hd
    exact hw.counted j d n hd hn

lemma wf_step (hw : s.Wf) (hst : s.step a = some t) : t.Wf := by
  cases a with
  | join id role =>
      cases hst
      exact ⟨hw.owners, hw.live, fun j d n hd hreg => hw.counted j d n (old_of_joinStep hd hreg)
        hreg⟩
  | setPublish k =>
      simp only [step, setPublishStep, Option.bind_eq_some_iff, Option.ite_none_right_eq_some,
        Option.some.injEq] at hst
      obtain ⟨c, -, -, rfl⟩ := hst
      exact ⟨hw.owners, hw.live, hw.counted⟩
  | register k =>
      obtain ⟨c, hc, rfl⟩ := Option.map_eq_some_iff.mp hst
      have howners : (s.owners ++ [k]).length = (s.channels.registerStep c.id).sessions.length := by
        simp [DataChannelSystem.registerStep, hw.owners]
      refine wf_of_channels hw (b := .register c.id) rfl howners fun j d n hd hreg => ?_
      by_cases hjk : j = k
      · subst hjk
        rw [setSession, List.getElem?_set_self (List.getElem?_eq_some_iff.mp hc).1,
          Option.some.injEq] at hd
        rw [← hd, Option.some.injEq] at hreg
        cases hold : c.registered with
        | none =>
            rw [hold, Option.getD_none] at hreg
            exact hreg.ge
        | some n₀ =>
            rw [hold, Option.getD_some] at hreg
            exact hreg ▸ hw.counted j c n₀ hc hold
      · rw [setSession, List.getElem?_set_ne (Ne.symm hjk)] at hd
        exact hw.counted j d n hd hreg
  | close k =>
      simp only [step, closeStep, Option.bind_eq_some_iff, Option.ite_none_right_eq_some,
        Option.some.injEq] at hst
      obtain ⟨c, hc, -, rfl⟩ := hst
      exact ⟨hw.owners, hw.live, counted_set hw hc rfl⟩
  | notice k =>
      simp only [step, noticeStep, Option.bind_eq_some_iff, Option.ite_none_right_eq_some,
        Option.some.injEq] at hst
      obtain ⟨c, hc, -, rfl⟩ := hst
      exact wf_of_channels hw (b := .notice c.id) rfl hw.owners (counted_set hw hc rfl)
  | leave k =>
      simp only [step, leaveStep, Option.bind_eq_some_iff, Option.ite_none_right_eq_some,
        Option.some.injEq] at hst
      obtain ⟨c, hc, -, rfl⟩ := hst
      split
      · split_ifs <;> exact ⟨hw.owners, hw.live, counted_set hw hc rfl⟩
      · split_ifs <;> exact ⟨hw.owners, hw.live, counted_set hw hc rfl⟩
  | remove k =>
      simp only [step, removeStep, Option.bind_eq_some_iff, Option.ite_none_right_eq_some,
        Option.some.injEq] at hst
      obtain ⟨c, hc, -, rfl⟩ := hst
      exact wf_of_channels hw (b := .remove c.id) rfl hw.owners (counted_set hw hc rfl)
  | channel b =>
      obtain ⟨hregister, hremove, -, channels, hchannels, rfl⟩ := exists_of_channelStep hst
      have hlen := (DataChannelSystem.userSenderMap_step hregister hremove hchannels).2
      exact wf_of_channels hw hchannels (hw.owners.trans hlen.symm) hw.counted

/-- **When sessions are isolated**: in every state of a run, as long as a session of a user has
registered a data channel and not closed, the map has a sender of the user under a session
that has not closed, and no close event for the user has been broadcast since the
registration; if and only if a session that the map has closes as the last of its user, and
close events, removals from the map and registrations of a closed session come only when all
sessions of its user have closed. -/
theorem sessions_isolated_iff {s : RtcSystem} {as : List RtcAction} (h0 : rtcMachine.init s) :
    rtcMachine.Always Isolated s as ↔ rtcMachine.Guarded EndsAlone s as := by
  obtain rfl : s = .new := h0
  have hw : new.Wf := ⟨rfl, by simp [new, DataChannelSystem.new], by simp [new]⟩
  have hs : new.Isolated := by simp [Isolated, new]
  refine Machine.always_iff_guarded (I := fun s : RtcSystem => s.Wf ∧ s.Isolated)
    (fun r a t hr hst => ?_) ⟨hw, hs⟩ hs
  have hiff := isolated_step_iff hr.1 hr.2 hst
  exact ⟨hiff, fun hok => ⟨wf_step hr.1 hst, hiff.mpr hok⟩⟩

/-- A user subscribes, leaves and comes back as a publisher, beside another user. -/
def comesBack : List RtcAction :=
  [.join 1 .subscriber, .register 0, .join 2 .subscriber, .register 1, .close 0, .notice 0,
    .leave 0, .remove 0, .join 1 .publisher, .setPublish 2, .register 2]

/-- The first session of the user is gone when the second one comes. -/
theorem isolated_comesBack : rtcMachine.Always Isolated .new comesBack :=
  (sessions_isolated_iff rfl).mpr (by decide)

/-- A user that publishes and subscribes: when the subscription ends, the group is told that
the user closed, and the user is removed from the map, while it still publishes. -/
theorem not_isolated_both :
    ¬ ∀ (s : RtcSystem) (as : List RtcAction), rtcMachine.init s →
      rtcMachine.Always Isolated s as := by
  intro h
  have hend := (h .new [.join 1 .publisher, .setPublish 0, .register 0, .join 1 .subscriber,
    .close 1, .notice 1, .leave 1, .remove 1] rfl).of_exec rfl
  obtain ⟨⟨i, d, ⟨channel, -, hchannel, -⟩, -⟩, -⟩ := hend 0 _ _ rfl rfl rfl
  cases hchannel

end RtcSystem

end SfuServer
