import SfuServer.Lib.Relay
import SfuServer.Ws.Privacy

/-!
The order in which the frames of the WebSocket relay arrive, over all runs of `wsMachine`.

A frame for everybody goes over the channel of the group, and a pipe passes it on to the channel of
every member; a message for one user is put on that user's channel at once.  So it can overtake
frames for everybody that were sent before it, the presence of its sender among them.

* `Group.Lined`: the frames on the channels of a group come from actions, in the order that two
  channels in line keep;
* `Lined.move`, `lined_step`: every step keeps this;
* `Source`, `source_step`: what a connection has taken is a part of the channel of its user, without
  gaps;
* `frames_in_order`: the frames that a connection takes come from actions of the run, none twice,
  in the order of these actions, but for messages to one user that overtake what the pipe had still
  to pass on.
-/

open Std (ExtTreeMap)

namespace SfuServer

open Relay

/-! ### The channels of a group -/

namespace Group

-- what was sent to the group; what was passed on to, and what was sent to, the channel of a user
-- under its handle
variable {srcT : ℕ → Bytes → Prop} {passes srcB : UInt32 → ℕ → ℕ → Bytes → Prop}
  {now now' : ℕ} {g g' : Group}

/-- The frames on the channel of the group and on those of its members come from messages that
were sent to the group or to the member. -/
def Lined (srcT : ℕ → Bytes → Prop) (passes srcB : UInt32 → ℕ → ℕ → Bytes → Prop) (now : ℕ)
    (g : Group) : Prop :=
  ∃ times, Trunk srcT now times g.tx.log ∧
    ∀ (k : ℕ) (t : UserTask), g.tasks[k]? = some t →
      ∃ origins, Branch (Origin.Of srcT (passes t.user k) (srcB t.user k)) now times
        g.tx.cursors[k]? origins t.userSender.log

lemma lined_new (name : String) (capacity : Option ℕ) :
    (Group.new name capacity).Lined srcT passes srcB now :=
  ⟨[], .nil, by simp [Group.new]⟩

namespace Lined

/-- Nothing is sent: channels are added, and pipes pass messages by or end. -/
lemma of_quiet (h : g.Lined srcT passes srcB now) (hnow : now ≤ now')
    (hlog : g'.tx.log = g.tx.log)
    (htasks : ∀ (k : ℕ) (t' : UserTask), g'.tasks[k]? = some t' → t'.userSender.log = [] ∨
      ∃ t, g.tasks[k]? = some t ∧ t'.user = t.user ∧ t'.userSender.log = t.userSender.log ∧
        ∀ j ∈ g'.tx.cursors[k]?, ∃ i ∈ g.tx.cursors[k]?, i ≤ j) :
    g'.Lined srcT passes srcB now' := by
  obtain ⟨times, htrunk, hbranch⟩ := h
  refine ⟨times, hlog ▸ htrunk.mono hnow, fun k t' ht' => ?_⟩
  rcases htasks k t' ht' with hnil | ⟨t, ht, huser, hchannel, hcursor⟩
  · exact ⟨[], hnil ▸ Branch.nil⟩
  · obtain ⟨origins, horigins⟩ := hbranch k t ht
    rw [huser, hchannel]
    exact ⟨origins, (horigins.mono hnow List.prefix_rfl).move hcursor⟩

lemma mono (h : g.Lined srcT passes srcB now) (hnow : now ≤ now') :
    g.Lined srcT passes srcB now' :=
  h.of_quiet hnow rfl fun _ t ht => .inr ⟨t, ht, rfl, rfl, fun j hj => ⟨j, hj, le_rfl⟩⟩

lemma join (h : g.Lined srcT passes srcB now) (user : UInt32) (capacity : Option ℕ) :
    (g.join user capacity).Lined srcT passes srcB now := by
  rcases g.join_cases user capacity with ⟨htasks, htx, -⟩ | ⟨-, htasks, htx, -⟩
  · refine h.of_quiet le_rfl (by rw [htx]) fun k t ht => ?_
    rw [htasks] at ht
    rw [htx]
    exact .inr ⟨t, ht, rfl, rfl, fun j hj => ⟨j, hj, le_rfl⟩⟩
  · refine h.of_quiet le_rfl (by rw [htx]; rfl) fun k t ht => ?_
    rw [htasks] at ht
    rcases Vec.getElem?_concat_cases ht with ⟨-, rfl⟩ | ht
    · exact .inl rfl
    · have hne : g.tasks.length ≠ k := (List.getElem?_eq_some_iff.mp ht).1.ne'
      rw [htx, Broadcast.cursors_subscribe, if_neg hne]
      exact .inr ⟨t, ht, rfl, rfl, fun j hj => ⟨j, hj, le_rfl⟩⟩

/-- The pipes that run on are where they were. -/
lemma cursors_stopPipe (g : Group) (k j : ℕ) (status : TaskStatus) :
    ∀ i ∈ (g.stopPipe k status).tx.cursors[j]?, i ∈ g.tx.cursors[j]? := by
  intro i hi
  rw [Group.stopPipe] at hi
  split at hi
  · exact hi
  · split_ifs at hi
    · by_cases hj : j = k
      · subst hj
        simp [Broadcast.unsubscribe] at hi
      · rwa [g.tx.cursors_unsubscribe_of_ne k j hj] at hi
    · exact hi

/-- A step that keeps the users' channels and what was sent to the group, and starts no pipe. -/
lemma of_channels (h : g.Lined srcT passes srcB now) (hlog : g'.tx.log = g.tx.log)
    (hchannels : g'.channels = g.channels)
    (hcursors : ∀ j : ℕ, ∀ i ∈ g'.tx.cursors[j]?, i ∈ g.tx.cursors[j]?) :
    g'.Lined srcT passes srcB now := by
  refine h.of_quiet le_rfl hlog fun j t' ht' => ?_
  obtain ⟨t, ht, huser, hsender⟩ := exists_task_of_channels hchannels ht'
  exact .inr ⟨t, ht, huser, by rw [hsender], fun i hi => ⟨i, hcursors j i hi, le_rfl⟩⟩

lemma stopPipe (h : g.Lined srcT passes srcB now) (k : ℕ) (status : TaskStatus) :
    (g.stopPipe k status).Lined srcT passes srcB now :=
  h.of_channels (log_stopPipe _ _ _) (channels_stopPipe _ _ _)
    fun j => cursors_stopPipe g k j status

lemma cancelPipe (h : g.Lined srcT passes srcB now) {k : ℕ} (hcancel : g.cancelPipe k = some g') :
    g'.Lined srcT passes srcB now := by
  obtain ⟨t, -, -, rfl⟩ := cancelPipe_eq_some_iff.mp hcancel
  exact h.stopPipe k .aborted

/-- A frame for the group is sent. -/
lemma push (h : g.Lined srcT passes srcB now) {f : Bytes} (hf : srcT now f) :
    ({ g with tx := g.tx.push f } : Group).Lined srcT passes srcB (now + 1) := by
  obtain ⟨times, htrunk, hbranch⟩ := h
  refine ⟨times ++ [now], htrunk.push hf, fun k t ht => ?_⟩
  obtain ⟨origins, horigins⟩ := hbranch k t ht
  exact ⟨origins, horigins.mono (Nat.le_succ now) (List.prefix_append _ _)⟩

lemma send (h : g.Lined srcT passes srcB now) {f : Bytes} {tx : Broadcast Bytes}
    (hf : srcT now f) (htx : g.tx.send f = some tx) :
    ({ g with tx := tx } : Group).Lined srcT passes srcB (now + 1) := by
  obtain ⟨-, rfl⟩ := (g.tx.send_eq_some_iff f).mp htx
  exact h.push hf

/-- A leave tells the group that the user has gone. -/
lemma leave (h : g.Lined srcT passes srcB now) (user : UInt32)
    (hf : srcT now (networkEvent user false)) :
    (g.leave user).Lined srcT passes srcB (now + 1) := by
  rcases g.tx_leave user with htx | htx
  · refine (h.mono (Nat.le_succ now)).of_channels (by rw [htx]) (g.channels_leave user) ?_
    rw [htx]
    exact fun _ _ => id
  · refine (h.push hf).of_channels (by rw [htx]) (g.channels_leave user) ?_
    rw [htx]
    exact fun _ _ => id

/-- A frame is put on the channel of one user. -/
lemma whisper (h : g.Lined srcT passes srcB now) {k : ℕ} {t : UserTask} {f : Bytes}
    (ht : g.tasks[k]? = some t) (hf : srcB t.user k now f) :
    (g.mapChannel k fun _ => t.userSender.push f).Lined srcT passes srcB (now + 1) := by
  obtain ⟨times, htrunk, hbranch⟩ := h
  refine ⟨times, htrunk.mono (Nat.le_succ now), fun j t' ht' => ?_⟩
  rw [tasks_mapChannel] at ht'
  obtain ⟨u, hu, rfl⟩ := Option.map_eq_some_iff.mp ht'
  obtain ⟨origins, horigins⟩ := hbranch j u hu
  split_ifs with hj
  · subst hj
    obtain rfl := Option.some.inj (ht.symm.trans hu)
    exact ⟨_, horigins.send hf⟩
  · exact ⟨origins, horigins.mono (Nat.le_succ now) List.prefix_rfl⟩

/-- Receivers come, go and read on the channel of one user. -/
lemma channel (h : g.Lined srcT passes srcB now) {k : ℕ} {F : Broadcast Bytes → Broadcast Bytes}
    (hF : ∀ t, g.tasks[k]? = some t → (F t.userSender).log = t.userSender.log) :
    (g.mapChannel k F).Lined srcT passes srcB now := by
  refine h.of_quiet le_rfl rfl fun j t' ht' => ?_
  rw [tasks_mapChannel] at ht'
  obtain ⟨t, ht, rfl⟩ := Option.map_eq_some_iff.mp ht'
  refine .inr ⟨t, ht, by split_ifs <;> rfl, ?_, fun i hi => ⟨i, hi, le_rfl⟩⟩
  split_ifs with hj
  · exact hF t (hj ▸ ht)
  · rfl

/-- A pipe reads a frame of the group, which it passes by. -/
lemma recv (h : g.Lined srcT passes srcB now) (k : ℕ) :
    ({ g with tx := (g.tx.recv k).2 } : Group).Lined srcT passes srcB now := by
  refine h.of_quiet le_rfl (Broadcast.recv_log _ _) fun j t ht => .inr ⟨t, ht, rfl, rfl, ?_⟩
  intro i hi
  by_cases hj : j = k
  · subst hj
    obtain ⟨i', hle, hi'⟩ := g.tx.cursor_le_of_recv hi
    exact ⟨i', hi', hle⟩
  · exact ⟨i, (g.tx.cursors_recv_of_ne k j hj) ▸ hi, le_rfl⟩

/-- A pipe reads a frame of the group and passes it on. -/
lemma pass (h : g.Lined srcT passes srcB now) {k : ℕ} {t : UserTask} {f : Bytes}
    (ht : g.tasks[k]? = some t) (hrecv : (g.tx.recv k).1 = .message f)
    (hpassed : passes t.user k now f) :
    (({ g with tx := (g.tx.recv k).2 } : Group).mapChannel k fun _ => t.userSender.push f).Lined
      srcT passes srcB (now + 1) := by
  obtain ⟨times, htrunk, hbranch⟩ := h
  obtain ⟨i, hi, hlog, hnext⟩ := g.tx.cursor_of_recv hrecv
  obtain ⟨time, htime, hf, hbefore⟩ := htrunk.exists_time hlog
  refine ⟨times, by simpa using htrunk.mono (Nat.le_succ now), fun j t' ht' => ?_⟩
  rw [tasks_mapChannel] at ht'
  obtain ⟨u, hu, rfl⟩ := Option.map_eq_some_iff.mp ht'
  obtain ⟨origins, horigins⟩ := hbranch j u hu
  rw [mapChannel_tx]
  by_cases hj : j = k
  · subst hj
    obtain rfl := Option.some.inj (ht.symm.trans hu)
    rw [hi] at horigins
    rw [if_pos rfl, hnext]
    exact ⟨_, horigins.pass htrunk htime ⟨hf, hpassed, hbefore⟩⟩
  · rw [if_neg hj]
    refine ⟨origins, ?_⟩
    dsimp only
    rw [g.tx.cursors_recv_of_ne k j hj]
    exact horigins.mono (Nat.le_succ now) List.prefix_rfl

/-- A turn of a pipe. -/
lemma pipeStep (h : g.Lined srcT passes srcB now) {k : ℕ} (hturn : g.pipeStep k = some g')
    (hpassed : ∀ t t' f, g.tasks[k]? = some t → g'.tasks[k]? = some t' →
      (g.tx.recv k).1 = .message f → t'.userSender.log = t.userSender.log ++ [f] →
      passes t.user k now f) : g'.Lined srcT passes srcB (now + 1) := by
  have hnext := h.mono (Nat.le_succ now)
  rw [Group.pipeStep] at hturn
  split at hturn
  · cases hturn
  · rename_i t ht
    obtain ⟨-, hturn⟩ := Option.ite_none_right_eq_some.mp hturn
    split at hturn
    · cases hturn
    · cases hturn
      exact hnext.stopPipe k .finished
    · rename_i f tx hrecv
      have hmessage : (g.tx.recv k).1 = .message f := by rw [hrecv]
      obtain rfl : (g.tx.recv k).2 = tx := by rw [hrecv]
      split_ifs at hturn
      · cases hturn
        exact hnext.stopPipe k .finished
      · cases hturn
        exact hnext.recv k
      · split at hturn
        · rename_i channel hchannel
          cases hturn
          obtain ⟨-, rfl⟩ := (t.userSender.send_eq_some_iff f).mp hchannel
          have ht' : (({ g with tx := (g.tx.recv k).2 } : Group).mapChannel k
              fun _ => t.userSender.push f).tasks[k]? =
                some { t with userSender := t.userSender.push f } := by
            rw [tasks_mapChannel, ht, Option.map_some, if_pos rfl]
          exact h.pass ht hmessage (hpassed t _ f ht ht' hmessage rfl)
        · cases hturn
          exact (hnext.recv k).stopPipe k .finished

end Lined

end Group

/-! ### The groups of a run -/

namespace WsSystem

variable {fnv : List UInt8 → UInt32} {s₀ s t : WsSystem} {as : List WsAction} {a : WsAction}

/-- At the place `n` of the run, the frame is sent to the group of a stream: a connection opens, or
reads a message for everybody, or the user that the frame is about leaves. -/
def SentToGroup (fnv : List UInt8 → UInt32) (s₀ : WsSystem) (as : List WsAction) (stream : String)
    (n : ℕ) (f : Bytes) : Prop :=
  ∃ r a, (wsMachine fnv).At s₀ as n r a ∧ (r.SendsGroup a stream f ∨
    ∃ user, r.Leaves fnv a stream user ∧ f = networkEvent user false)

/-- At the place `n` of the run, the pipe of the user's channel with handle `k` reads the frame from
the group of the stream and puts it on the channel. -/
def PassedOn (fnv : List UInt8 → UInt32) (s₀ : WsSystem) (as : List WsAction) (stream : String)
    (user : UInt32) (k n : ℕ) (f : Bytes) : Prop :=
  ∃ r g g' t t', (wsMachine fnv).At s₀ as n r (.pipe stream k) ∧
    r.groups.inner[stream]? = some g ∧ g.pipeStep k = some g' ∧
    g.tasks[k]? = some t ∧ g'.tasks[k]? = some t' ∧ t.user = user ∧
    (g.tx.recv k).1 = .message f ∧ t'.userSender.log = t.userSender.log ++ [f]

/-- At the place `n` of the run, the frame is sent to a user in the group of a stream, whose channel
has the handle `k`. -/
def SentToUser (fnv : List UInt8 → UInt32) (s₀ : WsSystem) (as : List WsAction) (stream : String)
    (user : UInt32) (k n : ℕ) (f : Bytes) : Prop :=
  ∃ r a g, (wsMachine fnv).At s₀ as n r a ∧ r.SendsUser a stream user f ∧
    r.groups.inner[stream]? = some g ∧ g.userSenders[user]? = some k

/-- The frames on the channels of the groups come from the first `n` actions of the run. -/
structure Lined (fnv : List UInt8 → UInt32) (s₀ : WsSystem) (as : List WsAction) (n : ℕ)
    (s : WsSystem) : Prop where
  wf : s.groups.Wf
  groups : ∀ (stream : String) (g : Group), s.groups.inner[stream]? = some g →
    g.Lined (SentToGroup fnv s₀ as stream) (PassedOn fnv s₀ as stream)
      (SentToUser fnv s₀ as stream) n

/-- A move keeps the order in a group. -/
lemma GroupMove.lined {n : ℕ} {stream : String} {g g' : Group}
    (hat : (wsMachine fnv).At s₀ as n s a) (hwf : g.Wf)
    (hinner : s.groups.inner[stream]? = some g) (h : s.GroupMove fnv a stream g g')
    (hg : g.Lined (SentToGroup fnv s₀ as stream) (PassedOn fnv s₀ as stream)
      (SentToUser fnv s₀ as stream) n) :
    g'.Lined (SentToGroup fnv s₀ as stream) (PassedOn fnv s₀ as stream)
      (SentToUser fnv s₀ as stream) (n + 1) := by
  have hnext := hg.mono (Nat.le_succ n)
  cases h with
  | kept => exact hnext
  | joined user => exact hnext.join user none
  | left user leaves => exact hg.leave user ⟨s, a, hat, .inr ⟨user, leaves, rfl⟩⟩
  | sent sends taken => exact hg.send ⟨s, a, hat, .inl sends⟩ taken
  | unicast sends registered task =>
      rename_i d k u f
      have huser : u.user = d := by
        have hk := registered
        rw [hwf.senders] at hk
        obtain ⟨u', hu', huser, -⟩ := hwf.task d k hk
        rwa [Option.some.inj (task.symm.trans hu')]
      subst huser
      exact hg.whisper task ⟨s, a, g, hat, sends, hinner, registered⟩
  | channel reads log => exact hnext.channel log
  | piped action turn =>
      subst action
      refine hg.pipeStep turn fun u u' f hu hu' hrecv hlog => ?_
      exact ⟨s, g, g', u, u', hat, hinner, turn, hu, hu', rfl, hrecv, hlog⟩
  | cancelled cancel => exact hnext.cancelPipe cancel

/-- **A step keeps the order in the groups.** -/
theorem lined_step {n : ℕ} (hat : (wsMachine fnv).At s₀ as n s a) (h : s.step fnv a = some t)
    (hs : Lined fnv s₀ as n s) : Lined fnv s₀ as (n + 1) t := by
  have hmoved := moved_of_step hs.wf h
  refine ⟨wf_step hs.wf h, fun stream g' hg' => ?_⟩
  cases hg : s.groups.inner[stream]? with
  | none =>
      obtain ⟨user, rfl⟩ := hmoved.new stream g' hg hg'
      exact (Group.lined_new stream none).join user none
  | some g =>
      obtain ⟨g'', hg'', hmove⟩ := hmoved.old stream g hg
      obtain rfl := Option.some.inj (hg'.symm.trans hg'')
      exact hmove.lined hat (hs.wf.groups stream g hg) hg (hs.groups stream g hg)

/-! ### What a connection takes -/

/-- A later stage of a user's channel. -/
structure Grown (a : WsAction) (u u' : UserTask) : Prop where
  user : u'.user = u.user
  log : u.userSender.log <+: u'.userSender.log
  cursors : ∀ r, a.reader ≠ some r → u'.userSender.cursors[r]? = u.userSender.cursors[r]?

lemma Grown.of_eq {u u' : UserTask} (huser : u'.user = u.user)
    (hchannel : u'.userSender = u.userSender) : Grown a u u' :=
  ⟨huser, hchannel ▸ List.prefix_rfl, fun _ _ => by rw [hchannel]⟩

/-- A move keeps the channels, and what stands on them. -/
lemma GroupMove.grown {stream : String} {g g' : Group} (h : s.GroupMove fnv a stream g g') {k : ℕ}
    {u : UserTask} (hu : g.tasks[k]? = some u) : ∃ u', g'.tasks[k]? = some u' ∧ Grown a u u' := by
  -- the channels are the same, and a channel gets a frame
  have hsame : ∀ g' : Group, g'.channels = g.channels →
      ∃ u', g'.tasks[k]? = some u' ∧ Grown a u u' := by
    intro g' hchannels
    obtain ⟨u', hu', huser, hsender⟩ := Group.exists_task_of_channels hchannels.symm hu
    exact ⟨u', hu', .of_eq huser.symm hsender.symm⟩
  have hpush : ∀ (g : Group) (j : ℕ) (v : UserTask) (f : Bytes), g.tasks[j]? = some v →
      ∀ u, g.tasks[k]? = some u → ∃ u',
        (g.mapChannel j fun _ => v.userSender.push f).tasks[k]? = some u' ∧ Grown a u u' := by
    intro g j v f hv u hu
    rw [Group.tasks_mapChannel, hu]
    refine ⟨_, rfl, ?_⟩
    split_ifs with hk
    · obtain rfl := Option.some.inj (hv.symm.trans (hk ▸ hu))
      exact ⟨rfl, List.prefix_append _ _, fun _ _ => rfl⟩
    · exact .of_eq rfl rfl
  cases h with
  | kept => exact ⟨u, hu, .of_eq rfl rfl⟩
  | joined user =>
      rcases g.join_cases user none with ⟨htasks, -, -⟩ | ⟨-, htasks, -, -⟩
      · exact ⟨u, htasks ▸ hu, .of_eq rfl rfl⟩
      · refine ⟨u, ?_, .of_eq rfl rfl⟩
        rw [htasks, List.getElem?_append_left (List.getElem?_eq_some_iff.mp hu).1, hu]
  | left user => exact hsame _ (g.channels_leave user)
  | sent => exact ⟨u, hu, .of_eq rfl rfl⟩
  | unicast _ _ task => exact hpush g _ _ _ task u hu
  | channel reads log others =>
      rename_i i j F
      rw [Group.tasks_mapChannel, hu]
      refine ⟨_, rfl, ?_⟩
      split_ifs with hk
      · refine ⟨rfl, ?_, fun r hr => ?_⟩
        · rw [log u (hk ▸ hu)]
        · refine others u (hk ▸ hu) r ?_
          rintro rfl
          exact hr reads
      · exact .of_eq rfl rfl
  | cancelled cancel => exact hsame _ (Group.channels_cancelPipe cancel)
  | piped _ turn =>
      rename_i j _
      rw [Group.pipeStep] at turn
      split at turn
      · cases turn
      · rename_i v hv
        obtain ⟨-, turn⟩ := Option.ite_none_right_eq_some.mp turn
        have hended : ∀ tx : Broadcast Bytes, ∃ u',
            (({ g with tx := tx } : Group).stopPipe j .finished).tasks[k]? = some u' ∧
              Grown a u u' :=
          fun tx => hsame _ (Group.channels_stopPipe { g with tx := tx } j .finished)
        split at turn
        · cases turn
        · cases turn
          exact hended g.tx
        · rename_i f tx hrecv
          split_ifs at turn
          · cases turn
            exact hended g.tx
          · cases turn
            exact ⟨u, hu, .of_eq rfl rfl⟩
          · split at turn
            · rename_i channel hchannel
              cases turn
              obtain ⟨-, rfl⟩ := (v.userSender.send_eq_some_iff f).mp hchannel
              exact hpush { g with tx := tx } j v f hv u hu
            · cases turn
              exact hended tx

/-- The frame that a connection takes in an action. -/
def takes (j : ℕ) (s : WsSystem) : WsAction → Option Bytes
  | .deliver i _ => if i = j then s.nextFrame j else none
  | _ => none

/-- The frames that a connection takes in a run, to write them to its socket. -/
def taken (fnv : List UInt8 → UInt32) (s₀ : WsSystem) (as : List WsAction) (j : ℕ) : List Bytes :=
  (wsMachine fnv).outputs (takes j) s₀ as

/-- The frames were taken from the channel of the user, one after the other, up to the place where
the receiver is. -/
def Source (s : WsSystem) (j : ℕ) (c : Session) (out : List Bytes) : Prop :=
  ∃ k g u, s.groups.inner[c.stream]? = some g ∧ g.tasks[k]? = some u ∧ u.user = c.id ∧
    out <:+: u.userSender.log ∧
      ∀ k' ∈ c.receiver, k' = k ∧ ∃ start, u.userSender.Reads j start out

/-- Every connection has taken nothing yet, or frames from the channel of its user. -/
def Sourced (s : WsSystem) (out : ℕ → List Bytes) : Prop :=
  (∀ j, s.sessions[j]? = none → out j = []) ∧
    ∀ (j : ℕ) (c : Session), s.sessions[j]? = some c →
      c.receiver = none ∧ out j = [] ∨ Subscribed c ∧ s.Source j c (out j)

/-- A connection that goes on to read, or has ended, keeps what it has taken. -/
lemma Source.kept {j : ℕ} {c c' : Session} {out : List Bytes} (h : s.Source j c out)
    (hmoved : s.GroupsMoved fnv a t.groups) (hstream : c'.stream = c.stream) (hid : c'.id = c.id)
    (hreceiver : c'.receiver = none ∨ c'.receiver = c.receiver ∧ a.reader ≠ some j) :
    t.Source j c' out := by
  obtain ⟨k, g, u, hg, hu, huser, hout, hreads⟩ := h
  obtain ⟨g', hg', hmove⟩ := hmoved.old c.stream g hg
  obtain ⟨u', hu', hgrown⟩ := hmove.grown hu
  refine ⟨k, g', u', hstream ▸ hg', hu', by rw [hgrown.user, huser, hid],
    hout.trans hgrown.log.isInfix, fun k' hk' => ?_⟩
  rcases hreceiver with hnone | ⟨hsame, hreader⟩
  · rw [hnone] at hk'
    cases hk'
  · obtain ⟨rfl, start, hstart⟩ := hreads k' (hsame ▸ hk')
    exact ⟨rfl, start, hstart.follows ⟨hgrown.log, hgrown.cursors j hreader⟩⟩

/-- A connection that has taken a frame goes on to the next one, or ends. -/
lemma sourced_deliver {j : ℕ} {written : Bool} {c : Session} {out : List Bytes}
    (hc : s.sessions[j]? = some c) (hs : s.Source j c out)
    (h : s.step fnv (.deliver j written) = some t) :
    ∃ c', t.sessions[j]? = some c' ∧ c'.phase = c.phase ∧
      t.Source j c' (out ++ (s.nextFrame j).toList) := by
  obtain ⟨k, g, u, hg, hu, huser, hout, hreads⟩ := hs
  have hlt := (List.getElem?_eq_some_iff.mp hc).1
  simp only [step, deliverStep, Option.bind_eq_some_iff] at h
  obtain ⟨c', hc', k', hk', g', hg', u', hu', h⟩ := h
  obtain rfl := Option.some.inj (hc.symm.trans hc')
  obtain rfl := Option.some.inj (hg.symm.trans hg')
  obtain ⟨rfl, start, hstart⟩ := hreads k' hk'
  obtain rfl := Option.some.inj (hu.symm.trans hu')
  have hnext : s.nextFrame j = (u.userSender.recv j).1.toOption := by
    simp [nextFrame, hc, hk', hg, hu]
  have hgroup : ∀ F : Broadcast Bytes → Broadcast Bytes,
      (s.groups.mapGroup c.stream fun g => g.mapChannel k' F).inner[c.stream]? =
        some (g.mapChannel k' F) ∧
      (g.mapChannel k' F).tasks[k']? = some { u with userSender := F u.userSender } := by
    intro F
    refine ⟨?_, ?_⟩
    · rw [GroupsManager.inner_mapGroup, hg, Option.map_some, if_pos rfl]
    · rw [Group.tasks_mapChannel, hu, Option.map_some, if_pos rfl]
  -- the end of the send task, after it has taken these frames
  have hstopped : ∀ taken, out ++ taken <:+: u.userSender.log →
      ∃ c', (s.stopSend j k' c).sessions[j]? = some c' ∧ c'.phase = c.phase ∧
        (s.stopSend j k' c).Source j c' (out ++ taken) := by
    intro taken htaken
    refine ⟨{ c with receiver := none }, List.getElem?_set_self hlt, rfl, k', _, _,
      (hgroup _).1, (hgroup _).2, huser, htaken, ?_⟩
    simp
  rw [hnext]
  split at h
  · rename_i f channel hrecv
    have hf : (u.userSender.recv j).1 = .message f := by rw [hrecv]
    obtain rfl : (u.userSender.recv j).2 = channel := by rw [hrecv]
    have htaken := hstart.recv hf
    have hpart := htaken.isInfix
    rw [Broadcast.recv_log] at hpart
    rw [hf, Received.toOption, Option.toList_some]
    split_ifs at h
    · cases h
      refine ⟨c, hc, rfl, k', _, _, (hgroup _).1, (hgroup _).2, huser, ?_, ?_⟩
      · dsimp only
        rwa [Broadcast.recv_log]
      · intro k'' hk''
        exact ⟨Option.some.inj (hk''.symm.trans hk'), start, htaken⟩
    · cases h
      exact hstopped [f] hpart
  · rename_i hrecv
    cases h
    have hempty : (u.userSender.recv j).1.toOption = none := by
      rw [hrecv]
      rfl
    rw [hempty, Option.toList_none]
    exact hstopped [] (by simpa using hout)
  · rename_i hrecv
    obtain ⟨-, h⟩ := Option.ite_none_right_eq_some.mp h
    cases h
    have hempty : (u.userSender.recv j).1.toOption = none := by
      rw [hrecv]
      rfl
    rw [hempty, Option.toList_none]
    exact hstopped [] (by simpa using hout)

/-- A connection that subscribes to the channel of its user has taken nothing from it. -/
lemma source_subscribe {j : ℕ} {c c' : Session} (hwf : s.groups.Wf) (hc : s.sessions[j]? = some c)
    (hreceiver : c.receiver = none) (h : s.step fnv (.subscribe j) = some t)
    (hc' : t.sessions[j]? = some c') : c'.receiver = none ∨ Subscribed c' ∧ t.Source j c' [] := by
  simp only [step, subscribeStep, Option.bind_eq_some_iff, Option.ite_none_right_eq_some] at h
  obtain ⟨d, hd, -, h⟩ := h
  obtain rfl := Option.some.inj (hc.symm.trans hd)
  have hlt := (List.getElem?_eq_some_iff.mp hc).1
  split at h
  · rename_i k hk
    cases h
    have hset : { c with phase := .running, receiver := some k } = c' := by
      simpa [setSession, setGroups, List.getElem?_set_self hlt] using hc'
    subst hset
    rw [GroupsManager.getUserSender] at hk
    split at hk
    · cases hk
    · rename_i g hg
      have hgwf := hwf.groups c.stream g hg
      rw [Except.ok.injEq, hgwf.senders] at hk
      obtain ⟨u, hu, huser, -⟩ := hgwf.task c.id k hk
      refine .inr ⟨by simp [Subscribed], k, g.mapChannel k (·.subscribe j),
        { u with userSender := u.userSender.subscribe j }, ?_, ?_, huser, List.nil_infix, ?_⟩
      · show (s.groups.mapGroup c.stream fun g =>
          g.mapChannel k (·.subscribe j)).inner[c.stream]? = _
        rw [GroupsManager.inner_mapGroup, hg, Option.map_some, if_pos rfl]
      · rw [Group.tasks_mapChannel, hu, Option.map_some, if_pos rfl]
      · rintro k' hk'
        exact ⟨(Option.some.inj hk').symm, _, Broadcast.reads_subscribe _ _⟩
  · cases h
    have hset : { c with phase := .closed } = c' := by
      simpa [setSession, List.getElem?_set_self hlt] using hc'
    exact .inl (hset ▸ hreceiver)

/-- A connection whose handler has seen the end of a task reads no more. -/
lemma receiver_of_select {j : ℕ} {c' : Session} (h : s.step fnv (.select j) = some t)
    (hc' : t.sessions[j]? = some c') : c'.receiver = none := by
  simp only [step, selectStep, Option.bind_eq_some_iff, Option.ite_none_right_eq_some] at h
  obtain ⟨c, hc, -, h⟩ := h
  have hlt := (List.getElem?_eq_some_iff.mp hc).1
  have hset : ∀ d : Session, (s.sessions.set j d)[j]? = some c' → d.receiver = none →
      c'.receiver = none := by
    intro d hd hnone
    rw [List.getElem?_set_self hlt, Option.some.injEq] at hd
    exact hd ▸ hnone
  split at h
  · cases h
    exact hset _ hc' rfl
  · rename_i hnone
    cases h
    exact hset _ hc' hnone
  · rename_i hnone _
    cases h
    exact hset _ hc' hnone
  · cases h

/-- Only a connection that reads takes a frame. -/
lemma takes_eq_none {j : ℕ} (h : ∀ c, s.sessions[j]? = some c → c.receiver = none) :
    takes j s a = none := by
  have hnext : s.nextFrame j = none := by
    rw [nextFrame]
    cases hc : s.sessions[j]? with
    | none => rfl
    | some c => rw [Option.bind_some, h c hc, Option.bind_none]
  cases a with
  | deliver i written =>
      rw [takes]
      split_ifs
      · exact hnext
      · rfl
  | _ => rfl

/-- **A step keeps what was taken together.** -/
theorem sourced_step {out : ℕ → List Bytes} (hwf : s.groups.Wf) (h : s.step fnv a = some t)
    (hs : s.Sourced out) : t.Sourced fun j => out j ++ (takes j s a).toList := by
  obtain ⟨hnone, hsome⟩ := hs
  have hmoved := moved_of_step hwf h
  have hkept := kept_of_step h
  refine ⟨fun j hj => ?_, fun j c' hc' => ?_⟩
  · cases hc : s.sessions[j]? with
    | none =>
        dsimp only
        rw [hnone j hc, takes_eq_none (by simp [hc])]
        rfl
    | some c =>
        obtain ⟨c', hc', -⟩ := hkept.old j c hc
        rw [hj] at hc'
        cases hc'
  · cases hc : s.sessions[j]? with
    | none =>
        refine .inl ⟨hkept.new j c' hc hc', ?_⟩
        dsimp only
        rw [hnone j hc, takes_eq_none (by simp [hc])]
        rfl
    | some c =>
        obtain ⟨c'', hc'', hsame⟩ := hkept.old j c hc
        obtain rfl := Option.some.inj (hc'.symm.trans hc'')
        dsimp only
        rcases hsome j c hc with ⟨hreceiver, hout⟩ | ⟨hsubscribed, hsource⟩
        · have htakes : takes j s a = none := takes_eq_none fun d hd =>
            Option.some.inj (hc.symm.trans hd) ▸ hreceiver
          rw [hout, htakes]
          rcases hsame.receiver with hrec | hrec | ⟨rfl, -, -⟩
          · exact .inl ⟨hrec.trans hreceiver, rfl⟩
          · exact .inl ⟨hrec, rfl⟩
          · exact (source_subscribe hwf hc hreceiver h hc').imp_left fun hno => ⟨hno, rfl⟩
        · refine .inr ⟨hsame.subscribed hsubscribed, ?_⟩
          by_cases hreader : a.reader = some j
          · cases a with
            | subscribe i =>
                obtain rfl := Option.some.inj hreader
                simp only [step, subscribeStep, Option.bind_eq_some_iff,
                  Option.ite_none_right_eq_some] at h
                obtain ⟨d, hd, hphase, -⟩ := h
                obtain rfl := Option.some.inj (hc.symm.trans hd)
                exact absurd hphase hsubscribed.2
            | deliver i written =>
                obtain rfl := Option.some.inj hreader
                obtain ⟨d, hd, -, hd'⟩ := sourced_deliver hc hsource h
                obtain rfl := Option.some.inj (hc'.symm.trans hd)
                rwa [takes, if_pos rfl]
            | select i =>
                obtain rfl := Option.some.inj hreader
                have htakes : takes i s (.select i) = none := rfl
                rw [htakes, Option.toList_none, List.append_nil]
                exact hsource.kept hmoved hsame.stream hsame.id
                  (.inl (receiver_of_select h hc'))
            | _ => cases hreader
          · have htakes : takes j s a = none := by
              cases a with
              | deliver i written => exact if_neg fun hi => hreader (congrArg some hi)
              | _ => rfl
            rw [htakes, Option.toList_none, List.append_nil]
            refine hsource.kept hmoved hsame.stream hsame.id ?_
            rcases hsame.receiver with hrec | hrec | ⟨rfl, -, -⟩
            · exact .inr ⟨hrec, hreader⟩
            · exact .inl hrec
            · exact absurd rfl hreader

/-- The frames that have been taken from a channel come from the run. -/
lemma Source.origins {n j : ℕ} {c : Session} {out : List Bytes} (hs : s.Source j c out)
    (hlined : Lined fnv s₀ as n s) :
    ∃ (k : ℕ) (os : List Origin), List.Forall₂ (Origin.Of (SentToGroup fnv s₀ as c.stream)
        (PassedOn fnv s₀ as c.stream c.id k) (SentToUser fnv s₀ as c.stream c.id k)) os out ∧
      os.Pairwise Origin.Before := by
  obtain ⟨k, g, u, hg, hu, huser, hout, -⟩ := hs
  obtain ⟨times, -, hbranch⟩ := hlined.groups c.stream g hg
  obtain ⟨origins, horigins⟩ := hbranch k u hu
  exact ⟨k, huser ▸ horigins.part hout⟩

/-- **Frames in order**: in every run, the frames that a connection takes to write them to its
socket come, one by one, from actions of the run that sent them, to one channel of its user, or to
the group of its stream, from where the pipe of this channel passed them on in a later action.
They stand in the order in which they came to the channel, and in the order in which they were
sent, none twice, but for one thing: a message to the user can overtake frames for the group that
were sent before it and that the pipe had still to pass on. -/
theorem frames_in_order (fnv : List UInt8 → UInt32) {s₀ s : WsSystem} {as : List WsAction}
    (h0 : (wsMachine fnv).init s₀) (h : (wsMachine fnv).exec s₀ as = some s) {j : ℕ} {c : Session}
    (hc : s.sessions[j]? = some c) :
    ∃ (k : ℕ) (os : List Origin), List.Forall₂ (Origin.Of (SentToGroup fnv s₀ as c.stream)
        (PassedOn fnv s₀ as c.stream c.id k) (SentToUser fnv s₀ as c.stream c.id k)) os
          (taken fnv s₀ as j) ∧
      os.Pairwise fun o o' => o.put < o'.put ∧
        (o.time < o'.time ∨ ∃ n n' p, o = .direct n ∧ o' = .piped n' p) := by
  have hboth : Lined fnv s₀ as as.length s ∧ s.Sourced (taken fnv s₀ (as.take as.length)) := by
    refine Machine.exec_indexed (I := fun n r =>
      Lined fnv s₀ as n r ∧ r.Sourced (taken fnv s₀ (as.take n))) ?_ ?_ h
    · obtain ⟨hgroups, hsessions⟩ := groups_of_init h0
      refine ⟨⟨hgroups ▸ GroupsManager.wf_new, fun stream g hg => ?_⟩, fun _ _ => rfl, ?_⟩
      · rw [hgroups] at hg
        simp [GroupsManager.new] at hg
      · rw [hsessions]
        simp
    · rintro n r a u hat hstep ⟨hlined, hsourced⟩
      refine ⟨lined_step hat hstep hlined, ?_⟩
      have htaken : taken fnv s₀ (as.take (n + 1)) =
          fun j => taken fnv s₀ (as.take n) j ++ (takes j r a).toList :=
        funext fun j => hat.outputs_succ
      rw [htaken]
      exact sourced_step hlined.wf hstep hsourced
  obtain ⟨hlined, -, hsourced⟩ := hboth
  rw [List.take_length] at hsourced
  rcases hsourced j c hc with ⟨-, hnone⟩ | ⟨-, hsource⟩
  · exact ⟨0, [], hnone ▸ .nil, .nil⟩
  · exact hsource.origins hlined

/-- The second client connects, the first one sends a byte to everybody and then one to the second
client, which takes the later byte first. -/
def overtaking : List WsAction :=
  connected ++ [.connect "key" 1 8 "stream", .join 1, .subscribe 1, .message 0 [0, 0, 0, 0, 7],
    .message 0 [1, 0, 0, 0, 9], .deliver 1 true, .pipe "stream" 1, .deliver 1 true]

theorem frames_in_order_overtaking : ∃ s, (wsMachine fnv1a).exec small overtaking = some s ∧
    taken fnv1a small overtaking 1 =
      [[0, 0, 0, 0, 0, 1, 0, 0, 0, 9], [0, 0, 0, 0, 0, 0, 0, 0, 0, 7]] ∧
    ∃ (k : ℕ) (os : List Origin), List.Forall₂ (Origin.Of
        (SentToGroup fnv1a small overtaking "stream")
        (PassedOn fnv1a small overtaking "stream" 1 k)
        (SentToUser fnv1a small overtaking "stream" 1 k)) os (taken fnv1a small overtaking 1) ∧
      os.Pairwise fun o o' => o.put < o'.put ∧
        (o.time < o'.time ∨ ∃ n n' p, o = .direct n ∧ o' = .piped n' p) := by
  have hsession : ((wsMachine fnv1a).exec small overtaking).bind (fun s =>
      s.sessions[1]?.map fun c => (c.stream, c.id)) = some ("stream", 1) := by decide
  obtain ⟨s, hs, hc⟩ := Option.bind_eq_some_iff.mp hsession
  obtain ⟨c, hc, hc'⟩ := Option.map_eq_some_iff.mp hc
  obtain ⟨hstream, hid⟩ := Prod.mk.inj hc'
  have horder := frames_in_order fnv1a init_small hs hc
  rw [hstream, hid] at horder
  exact ⟨s, hs, by decide, horder⟩

end WsSystem

end SfuServer
