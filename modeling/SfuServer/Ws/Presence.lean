import SfuServer.Ws.Members

/-!
The presence frames on the channels of the WebSocket groups: the receive task of a connection
announces its user, and `Group::leave` says that the user has gone.

* `Alternates`: opens and closes in turn, from an open on;
* `PresenceSystem`, `presenceMachine`: the connections of a room with the presence frames that were
  sent, and for every connection whether its user stands announced by it;
* `presence_step`, `announced_step`: what a step sends about a user, and who is announced by it;
* `InOrder`: the frames about every user alternate in every group, and end in a close where the
  user is no member and has no handler at work;
* `inOrder_iff`: this holds in all states of a run exactly if the announcements and the leaves come
  in turn.

A frame counts as sent when `send` is called, whether or not somebody receives on the channel.
-/

open Std (ExtTreeMap)

namespace SfuServer

/-! ### Alternation -/

/-- Opens and closes in turn, beginning with an open. -/
def Alternates (opens : List Bool) : Prop :=
  opens.IsChain (· ≠ ·) ∧ ∀ b ∈ opens.head?, b = true

lemma alternates_nil : Alternates [] := ⟨.nil, by simp⟩

/-- One more event keeps the turn if it is a close exactly where the last one was an open. -/
lemma alternates_concat_iff {opens : List Bool} {b : Bool} :
    Alternates (opens ++ [b]) ↔
      Alternates opens ∧ (opens.getLast? = some true ↔ b = false) := by
  rw [Alternates, Alternates, List.isChain_append]
  cases opens with
  | nil => cases b <;> simp
  | cons c opens =>
      have hlast : (c :: opens).getLast? = some ((c :: opens).getLast (by simp)) :=
        List.getLast?_eq_getLast_of_ne_nil _
      rw [hlast]
      cases b <;> cases (c :: opens).getLast (by simp) <;> simp

/-! ### The frames that are sent -/

/-- A presence frame on the channel of a group: an open, of type 1, or a close, of type 2. -/
structure PresenceFrame where
  group : String
  user : UInt32
  opened : Bool
  deriving DecidableEq, Repr

namespace GroupsManager

/-- The frames that leaving the groups one after the other sends: `Group::leave` sends one if the
user is a member. -/
def leaveFrames (user : UInt32) : GroupsManager → List String → List PresenceFrame
  | _, [] => []
  | m, name :: names =>
      (if user ∈ m.users name then [⟨name, user, false⟩] else []) ++
        leaveFrames user (m.leaveOrWarn user name) names

/-- The frames that `end_user` sends. -/
def endFrames (m : GroupsManager) (user : UInt32) : List PresenceFrame :=
  match m.usersGroup[user]? with
  | some names => leaveFrames user { m with usersGroup := m.usersGroup.erase user } names
  | none => []

end GroupsManager

/-- The opens and closes about a user in a group. -/
def presence (frames : List PresenceFrame) (name : String) (user : UInt32) : List Bool :=
  (frames.filter fun f => f.group = name ∧ f.user = user).map (·.opened)

/-- The connections of a room with the presence frames sent so far; `announced` says of a
connection that its receive task has announced its user, who has not left the group since.  The
program keeps neither. -/
structure PresenceSystem where
  ws : WsSystem
  frames : List PresenceFrame
  announced : ℕ → Bool

namespace PresenceSystem

open WsSystem

variable (fnv : List UInt8 → UInt32)

/-- The user leaves the group in the step. -/
def leaves (s : PresenceSystem) (a : WsAction) (name : String) (user : UInt32) : Bool :=
  match a with
  | .teardown i => s.ws.sessions[i]?.any fun c =>
      c.stream = name ∧ c.id = user ∧ user ∈ s.ws.groups.users name
  | .request (.exit r) => s.ws.room.authSharedKey fnv r.sharedKey && r.userId.toUInt32 == user &&
      decide (user ∈ s.ws.groups.users name)
  | _ => false

/-- The frames that a step sends. -/
def framesOf (s : PresenceSystem) : WsAction → List PresenceFrame
  | .opened i =>
      match s.ws.sessions[i]? with
      | some c => [⟨c.stream, c.id, true⟩]
      | none => []
  | .teardown i =>
      match s.ws.sessions[i]? with
      | some c => GroupsManager.leaveFrames c.id s.ws.groups [c.stream]
      | none => []
  | .request (.exit r) =>
      if s.ws.room.authSharedKey fnv r.sharedKey = true then
        s.ws.groups.endFrames r.userId.toUInt32
      else []
  | _ => []

/-- The announcements that stand after a step. -/
def announcedAfter (s : PresenceSystem) (a : WsAction) (j : ℕ) : Bool :=
  match a with
  | .opened i => decide (j = i) || s.announced j
  | a => s.announced j && !s.ws.sessions[j]?.any fun d => s.leaves fnv a d.stream d.id

/-- One step of the system. -/
def step (s : PresenceSystem) (a : WsAction) : Option PresenceSystem :=
  (s.ws.step fnv a).map fun ws => ⟨ws, s.frames ++ s.framesOf fnv a, s.announcedAfter fnv a⟩

end PresenceSystem

/-- The machine of the connections of a room and their presence frames. -/
def presenceMachine (fnv : List UInt8 → UInt32) : Machine PresenceSystem WsAction where
  init s := (wsMachine fnv).init s.ws ∧ s.frames = [] ∧ s.announced = fun _ => false
  step := PresenceSystem.step fnv

namespace PresenceSystem

open WsSystem

variable {fnv : List UInt8 → UInt32} {s t : PresenceSystem} {a : WsAction}

/-- A handler of the user is at work on the group. -/
def AtWork (s : PresenceSystem) (name : String) (user : UInt32) : Prop :=
  ∃ (i : ℕ) (c : Session), s.ws.sessions[i]? = some c ∧ c.Live ∧ c.stream = name ∧ c.id = user

/-- The user stands announced in the group. -/
def Announced (s : PresenceSystem) (name : String) (user : UInt32) : Prop :=
  ∃ (i : ℕ) (c : Session), s.ws.sessions[i]? = some c ∧ s.announced i = true ∧
    c.stream = name ∧ c.id = user

/-- The frames about a user in a group alternate, beginning with an open, and the last one is a
close where the user is no member and no handler of it is at work. -/
structure InOrder (s : PresenceSystem) : Prop where
  alternates : ∀ (name : String) (user : UInt32), Alternates (presence s.frames name user)
  closed : ∀ (name : String) (user : UInt32), user ∉ s.ws.groups.users name →
    ¬ s.AtWork name user → ∀ b ∈ (presence s.frames name user).getLast?, b = false

/-- Another handler of the same user is at work on the same group. -/
def AnotherAtWork (s : PresenceSystem) (i : ℕ) (c : Session) : Prop :=
  ∃ (j : ℕ) (d : Session), s.ws.sessions[j]? = some d ∧ j ≠ i ∧ d.Live ∧ d.stream = c.stream ∧
    d.id = c.id

/-- A receive task announces its user while no other connection has the user announced; a member
that leaves, by a teardown or by an exit, stands announced; and the last handler of a user who is
no member ends while the user does not. -/
def InTurn (fnv : List UInt8 → UInt32) (s : PresenceSystem) : WsAction → Prop
  | .opened i => ∀ c ∈ s.ws.sessions[i]?, ¬ s.Announced c.stream c.id
  | .teardown i => ∀ c ∈ s.ws.sessions[i]?,
      if c.id ∈ s.ws.groups.users c.stream then s.Announced c.stream c.id
      else s.Announced c.stream c.id → s.AnotherAtWork i c
  | .request (.exit r) => s.ws.room.authSharedKey fnv r.sharedKey = true →
      ∀ name, r.userId.toUInt32 ∈ s.ws.groups.users name → s.Announced name r.userId.toUInt32
  | _ => True

instance (s : PresenceSystem) (name : String) (user : UInt32) :
    Decidable (s.Announced name user) :=
  decidable_of_iff (∃ i < s.ws.sessions.length, s.ws.sessions[i]?.any (fun c =>
      s.announced i = true ∧ c.stream = name ∧ c.id = user) = true) (by
    constructor
    · rintro ⟨i, -, h⟩
      obtain ⟨c, hc, h⟩ := (Option.any_eq_true _ _).mp h
      exact ⟨i, c, hc, of_decide_eq_true h⟩
    · rintro ⟨i, c, hc, h⟩
      exact ⟨i, (List.getElem?_eq_some_iff.mp hc).1,
        (Option.any_eq_true _ _).mpr ⟨c, hc, decide_eq_true h⟩⟩)

instance (s : PresenceSystem) (i : ℕ) (c : Session) : Decidable (s.AnotherAtWork i c) :=
  decidable_of_iff (∃ j < s.ws.sessions.length, s.ws.sessions[j]?.any (fun d =>
      j ≠ i ∧ d.Live ∧ d.stream = c.stream ∧ d.id = c.id) = true) (by
    constructor
    · rintro ⟨j, -, h⟩
      obtain ⟨d, hd, h⟩ := (Option.any_eq_true _ _).mp h
      exact ⟨j, d, hd, of_decide_eq_true h⟩
    · rintro ⟨j, d, hd, h⟩
      exact ⟨j, (List.getElem?_eq_some_iff.mp hd).1,
        (Option.any_eq_true _ _).mpr ⟨d, hd, decide_eq_true h⟩⟩)

/-- Who is a member of a group is a member of one that is there. -/
lemma mem_keys_of_mem_users {m : GroupsManager} {name : String} {user : UInt32}
    (h : user ∈ m.users name) : name ∈ m.inner.keys := by
  rw [ExtTreeMap.mem_keys, ExtTreeMap.mem_iff_isSome_getElem?]
  rw [GroupsManager.users] at h
  cases hg : m.inner[name]? with
  | none => simp [hg] at h
  | some g => rfl

instance (fnv : List UInt8 → UInt32) (s : PresenceSystem) (a : WsAction) :
    Decidable (s.InTurn fnv a) :=
  match a with
  | .opened i =>
      inferInstanceAs (Decidable (∀ c ∈ s.ws.sessions[i]?, ¬ s.Announced c.stream c.id))
  | .teardown i => inferInstanceAs (Decidable (∀ c ∈ s.ws.sessions[i]?,
      if c.id ∈ s.ws.groups.users c.stream then s.Announced c.stream c.id
      else s.Announced c.stream c.id → s.AnotherAtWork i c))
  | .request (.exit r) =>
      decidable_of_iff (s.ws.room.authSharedKey fnv r.sharedKey = true →
        ∀ name ∈ s.ws.groups.inner.keys, r.userId.toUInt32 ∈ s.ws.groups.users name →
          s.Announced name r.userId.toUInt32)
        (forall_congr' fun _ => ⟨fun h name hmem => h name (mem_keys_of_mem_users hmem) hmem,
          fun h name _ => h name⟩)
  | .request (.join ..) | .request (.create _) | .request (.destroy _) | .request (.whip ..)
  | .request (.depart ..) | .request (.tick ..) | .connect .. | .join _ | .subscribe _
  | .message .. | .hangup _ | .deliver .. | .select _ | .pipe .. | .cancel .. => isTrue trivial

/-! ### What a step sends -/

lemma presence_append (frames frames' : List PresenceFrame) (name : String) (user : UInt32) :
    presence (frames ++ frames') name user =
      presence frames name user ++ presence frames' name user := by
  rw [presence, presence, presence, List.filter_append, List.map_append]

/-- Leaving groups sends a close in each of them that the user is a member of. -/
lemma presence_leaveFrames {m : GroupsManager} (hm : m.ForallGroups Group.Wf) (user : UInt32)
    (names : List String) (name : String) (v : UInt32) :
    presence (GroupsManager.leaveFrames user m names) name v =
      if v = user ∧ name ∈ names ∧ user ∈ m.users name then [false] else [] := by
  induction names generalizing m with
  | nil => simp [GroupsManager.leaveFrames, presence]
  | cons n names ih =>
      have hleft : (m.leaveOrWarn user n).ForallGroups Group.Wf :=
        hm.leaveOrWarn fun g hg => hg.leave user
      rw [GroupsManager.leaveFrames, presence_append, ih hleft]
      simp only [GroupsManager.mem_users_leaveOrWarn hm]
      by_cases hn : name = n
      · -- after the first leave the user is no member any more
        subst hn
        by_cases hv : v = user
        · subst hv
          by_cases hmem : v ∈ m.users name <;> simp [hmem, presence]
        · by_cases hmem : user ∈ m.users name <;> simp [hmem, hv, Ne.symm hv, presence]
      · by_cases hmem : user ∈ m.users n <;> simp [hmem, hn, Ne.symm hn, presence]

/-- Ending a user sends a close in each of its groups. -/
lemma presence_endFrames {m : GroupsManager} (hm : m.Wf) (user : UInt32) (name : String)
    (v : UInt32) : presence (m.endFrames user) name v =
      if v = user ∧ user ∈ m.users name then [false] else [] := by
  have hindex := hm.index name user
  rw [GroupsManager.endFrames]
  cases hu : m.usersGroup[user]? with
  | none => simp [hindex, hu, presence]
  | some names =>
      have hleave := presence_leaveFrames (m := { m with usersGroup := m.usersGroup.erase user })
        hm.groups user names name v
      rw [hu, Option.getD_some] at hindex
      refine hleave.trans (if_congr (and_congr_right fun _ => ?_) rfl rfl)
      exact ⟨And.right, fun h => ⟨hindex.mp h, h⟩⟩

/-- The event about the user in the group that a step brings. -/
def event (fnv : List UInt8 → UInt32) (s : PresenceSystem) (a : WsAction) (name : String)
    (user : UInt32) : Option Bool :=
  match a with
  | .opened i =>
      if s.ws.sessions[i]?.any fun c => c.stream = name ∧ c.id = user then some true else none
  | a => if s.leaves fnv a name user then some false else none

/-- **The frames of a step**: those about a user in a group are its event. -/
lemma presence_framesOf (hs : s.ws.groups.Wf) (a : WsAction) (name : String) (user : UInt32) :
    presence (s.framesOf fnv a) name user = (s.event fnv a name user).toList := by
  cases a with
  | opened i =>
      rw [framesOf, event]
      cases hc : s.ws.sessions[i]? with
      | none => rfl
      | some c =>
          by_cases hkey : c.stream = name ∧ c.id = user
          · simp [presence, hkey]
          · simp [presence, hkey]
  | teardown i =>
      change presence (s.framesOf fnv (.teardown i)) name user =
        (if s.leaves fnv (.teardown i) name user then some false else none).toList
      rw [framesOf, leaves]
      cases hc : s.ws.sessions[i]? with
      | none => rfl
      | some c =>
          dsimp only
          rw [presence_leaveFrames hs.groups]
          by_cases hkey : c.stream = name ∧ c.id = user
          · obtain ⟨rfl, rfl⟩ := hkey
            by_cases hmem : c.id ∈ s.ws.groups.users c.stream <;> simp [hmem]
          · rw [if_neg fun h => hkey ⟨(List.mem_singleton.mp h.2.1).symm, h.1.symm⟩]
            simp [← and_assoc, hkey]
  | request request =>
      cases request with
      | exit r =>
          change presence (s.framesOf fnv (.request (.exit r))) name user =
            (if s.leaves fnv (.request (.exit r)) name user then some false else none).toList
          rw [framesOf, leaves]
          by_cases hauth : s.ws.room.authSharedKey fnv r.sharedKey = true
          · rw [if_pos hauth, presence_endFrames hs]
            by_cases hid : user = r.userId.toUInt32
            · subst hid
              by_cases hmem : r.userId.toUInt32 ∈ s.ws.groups.users name <;> simp [hauth, hmem]
            · simp [hid, Ne.symm hid]
          · rw [if_neg hauth]
            simp [hauth, presence]
      | _ => rfl
  | _ => rfl

/-! ### Who stands announced -/

/-- The sessions stay those of their users on their groups. -/
lemma kept_step {ws ws' : WsSystem} (hwf : ws.groups.Wf) (hlocked : ws.Locked)
    (h : ws.step fnv a = some ws') {j : ℕ} {c : Session} (hc : ws.sessions[j]? = some c) :
    ∃ d, ws'.sessions[j]? = some d ∧ d.stream = c.stream ∧ d.id = c.id := by
  have hturn : TaskTurn a → ∃ d, ws'.sessions[j]? = some d ∧ d.stream = c.stream ∧ d.id = c.id := by
    intro ha
    obtain ⟨d, hd, hcont⟩ := (turned_of_step hwf hlocked ha h).exists_session hc
    exact ⟨d, hd, hcont.stream, hcont.id⟩
  have hset : ∀ (i : ℕ) (c₀ d : Session), ws.sessions[i]? = some c₀ →
      d.stream = c₀.stream ∧ d.id = c₀.id → ws'.sessions = ws.sessions.set i d →
      ∃ d, ws'.sessions[j]? = some d ∧ d.stream = c.stream ∧ d.id = c.id := by
    intro i c₀ d hc₀ hd hsessions
    by_cases hj : i = j
    · subst hj
      obtain rfl := Option.some.inj (hc₀.symm.trans hc)
      exact ⟨d, by rw [hsessions, List.getElem?_set_self (List.getElem?_eq_some_iff.mp hc).1], hd⟩
    · exact ⟨c, by rw [hsessions, List.getElem?_set_ne hj, hc], rfl, rfl⟩
  cases a with
  | request request =>
      by_cases hexit : ∃ r, request = .exit r
      · obtain ⟨r, rfl⟩ := hexit
        obtain ⟨-, -, -, hsessions, -⟩ := exit_cases hwf h
        refine ⟨_, by rw [hsessions, List.getElem?_map, hc]; rfl, ?_⟩
        dsimp only
        split_ifs
        · exact ⟨rfl, rfl⟩
        · exact ⟨rfl, rfl⟩
      · push Not at hexit
        obtain ⟨-, hsessions, -, -⟩ := request_cases hexit h
        exact ⟨c, hsessions ▸ hc, rfl, rfl⟩
  | connect sharedKey userId token stream =>
      rw [connect_cases h]
      exact ⟨c, List.getElem?_append_left (List.getElem?_eq_some_iff.mp hc).1 ▸ hc, rfl, rfl⟩
  | join i =>
      obtain ⟨c₀, hc₀, -, -, -, -, hsessions, -⟩ := join_cases h
      exact hset i c₀ { c₀ with phase := .joined } hc₀ ⟨rfl, rfl⟩ hsessions
  | teardown i =>
      obtain ⟨c₀, hc₀, -, -, -, -, hsessions, -⟩ := teardown_cases hwf h
      exact hset i c₀ { c₀ with phase := .closed } hc₀ ⟨rfl, rfl⟩ hsessions
  | _ => exact hturn trivial

/-- Who stands announced is announced by a connection, and the last frame about it is an open. -/
structure Tracked (s : PresenceSystem) : Prop where
  wf : s.ws.groups.Wf
  locked : s.ws.Locked
  range : ∀ j, s.announced j = true → j < s.ws.sessions.length
  announced : ∀ (name : String) (user : UInt32),
    (presence s.frames name user).getLast? = some true ↔ s.Announced name user

/-- The announcements that stand after a step that keeps the sessions. -/
lemma announced_iff_of_kept {ws' : WsSystem} {frames : List PresenceFrame} {after : ℕ → Bool}
    (hrange : ∀ j, after j = true → j < s.ws.sessions.length)
    (hkept : ∀ (j : ℕ) (c : Session), s.ws.sessions[j]? = some c →
      ∃ d, ws'.sessions[j]? = some d ∧ d.stream = c.stream ∧ d.id = c.id)
    (name : String) (user : UInt32) :
    Announced ⟨ws', frames, after⟩ name user ↔
      ∃ (j : ℕ) (c : Session), s.ws.sessions[j]? = some c ∧ after j = true ∧ c.stream = name ∧
        c.id = user := by
  constructor
  · rintro ⟨j, d, hd, hafter, rfl, rfl⟩
    obtain ⟨d', hd', hstream, hid⟩ := hkept j _ (List.getElem?_eq_getElem (hrange j hafter))
    obtain rfl := Option.some.inj (hd.symm.trans hd')
    exact ⟨j, _, List.getElem?_eq_getElem (hrange j hafter), hafter, hstream.symm, hid.symm⟩
  · rintro ⟨j, c, hc, hafter, rfl, rfl⟩
    obtain ⟨d, hd, hstream, hid⟩ := hkept j c hc
    exact ⟨j, d, hd, hafter, hstream, hid⟩

/-- A step only takes announcements that stand, but for the one that it makes. -/
lemma range_step (hs : s.Tracked) (h : s.step fnv a = some t) {j : ℕ}
    (hj : s.announcedAfter fnv a j = true) : j < s.ws.sessions.length := by
  obtain ⟨ws, hws, rfl⟩ := Option.map_eq_some_iff.mp h
  have hother : (s.announced j && !s.ws.sessions[j]?.any fun d =>
      s.leaves fnv a d.stream d.id) = true → j < s.ws.sessions.length := fun hj =>
    hs.range j (Bool.and_elim_left hj)
  cases a with
  | opened i =>
      rcases (Bool.or_eq_true ..).mp hj with hji | hj
      · obtain rfl := of_decide_eq_true hji
        simp only [WsSystem.step, openedStep, Option.bind_eq_some_iff] at hws
        obtain ⟨c, hc, -⟩ := hws
        exact (List.getElem?_eq_some_iff.mp hc).1
      · exact hs.range j hj
  | _ => exact hother hj

/-- **Who stands announced after a step**: the event about the user decides, if there is one. -/
lemma announced_step (hs : s.Tracked) (h : s.step fnv a = some t) (name : String)
    (user : UInt32) : t.Announced name user ↔
      (s.event fnv a name user).elim (s.Announced name user) (· = true) := by
  have hrange : ∀ j, s.announcedAfter fnv a j = true → j < s.ws.sessions.length := fun j =>
    range_step hs h
  obtain ⟨ws, hws, rfl⟩ := Option.map_eq_some_iff.mp h
  rw [announced_iff_of_kept hrange fun j c hc => kept_step hs.wf hs.locked hws hc]
  have hother : (∃ (j : ℕ) (c : Session), s.ws.sessions[j]? = some c ∧
      (s.announced j && !s.ws.sessions[j]?.any fun d => s.leaves fnv a d.stream d.id) = true ∧
        c.stream = name ∧ c.id = user) ↔
      (if s.leaves fnv a name user then some false else none).elim (s.Announced name user)
        (· = true) := by
    by_cases hleaves : s.leaves fnv a name user = true
    · rw [if_pos hleaves]
      refine iff_of_false ?_ (by simp)
      rintro ⟨j, c, hc, hafter, rfl, rfl⟩
      simp [hc, hleaves] at hafter
    · rw [if_neg hleaves]
      refine exists₂_congr fun j c => and_congr_right fun hc => ?_
      refine ⟨fun ⟨hafter, hkey⟩ => ⟨Bool.and_elim_left hafter, hkey⟩, ?_⟩
      rintro ⟨hannounced, rfl, rfl⟩
      exact ⟨by simp [hc, hannounced, hleaves], rfl, rfl⟩
  cases a with
  | opened i =>
      rw [event]
      by_cases hkey : (s.ws.sessions[i]?.any fun c => c.stream = name ∧ c.id = user) = true
      · rw [if_pos hkey]
        obtain ⟨c, hc, hc'⟩ := (Option.any_eq_true _ _).mp hkey
        obtain ⟨hstream, hid⟩ := of_decide_eq_true hc'
        exact iff_of_true ⟨i, c, hc, by simp [announcedAfter], hstream, hid⟩ rfl
      · rw [if_neg hkey]
        refine exists₂_congr fun j c => and_congr_right fun hc => and_congr_left fun hcid => ?_
        rw [announcedAfter, Bool.or_eq_true, decide_eq_true_eq]
        refine or_iff_right ?_
        rintro rfl
        exact hkey (by simp [hc, hcid])
  | _ => exact hother

/-- A step keeps the connection between the frames and the announcements. -/
lemma tracked_step (hs : s.Tracked) (h : s.step fnv a = some t) : t.Tracked := by
  have hannounced := announced_step hs h
  have hrange : ∀ j, s.announcedAfter fnv a j = true → j < s.ws.sessions.length := fun j =>
    range_step hs h
  obtain ⟨ws, hws, rfl⟩ := Option.map_eq_some_iff.mp h
  refine ⟨wf_step hs.wf hws, locked_step hs.wf hs.locked hws, fun j hj => ?_,
    fun name user => ?_⟩
  · obtain ⟨d, hd, -⟩ := kept_step hs.wf hs.locked hws (List.getElem?_eq_getElem (hrange j hj))
    exact (List.getElem?_eq_some_iff.mp hd).1
  · rw [hannounced, presence_append, presence_framesOf hs.wf]
    cases s.event fnv a name user with
    | none => simpa using hs.announced name user
    | some b => simp

/-! ### The exact condition -/

/-- The frames stay in order exactly if the event of the step comes in turn, and nobody stands
announced who is no member and has no handler at work. -/
lemma inOrder_iff_of_step (hs : s.Tracked) (hin : s.InOrder) (h : s.step fnv a = some t) :
    t.InOrder ↔
      (∀ name user b, s.event fnv a name user = some b → (s.Announced name user ↔ b = false)) ∧
      ∀ name user, user ∉ t.ws.groups.users name → ¬ t.AtWork name user →
        ¬ t.Announced name user := by
  have ht := tracked_step hs h
  have hpresence : ∀ name user, presence t.frames name user =
      presence s.frames name user ++ (s.event fnv a name user).toList := by
    intro name user
    obtain ⟨ws, hws, rfl⟩ := Option.map_eq_some_iff.mp h
    rw [presence_append, presence_framesOf hs.wf]
  have hlast : ∀ name user, (∀ b ∈ (presence t.frames name user).getLast?, b = false) ↔
      ¬ t.Announced name user := by
    intro name user
    rw [← ht.announced]
    cases (presence t.frames name user).getLast? with
    | none => simp
    | some b => simp
  constructor
  · refine fun hout => ⟨fun name user b hb => ?_, fun name user hmem hwork => ?_⟩
    · have halt := hout.alternates name user
      rw [hpresence, hb, Option.toList_some, alternates_concat_iff] at halt
      rw [← hs.announced]
      exact halt.2
    · exact (hlast name user).mp (hout.closed name user hmem hwork)
  · rintro ⟨hturn, hclosed⟩
    refine ⟨fun name user => ?_, fun name user hmem hwork => ?_⟩
    · rw [hpresence]
      cases hb : s.event fnv a name user with
      | none => simpa using hin.alternates name user
      | some b =>
          rw [Option.toList_some, alternates_concat_iff, hs.announced]
          exact ⟨hin.alternates name user, hturn name user b hb⟩
    · exact (hlast name user).mpr (hclosed name user hmem hwork)

/-- Where no event is about the user, it stands announced as before. -/
lemma not_announced_of_event (hs : s.Tracked) (hin : s.InOrder) (h : s.step fnv a = some t)
    {name : String} {user : UInt32} (hevent : s.event fnv a name user = none)
    (hmem : user ∉ s.ws.groups.users name) (hwork : ¬ s.AtWork name user) :
    ¬ t.Announced name user := by
  rw [announced_step hs h, hevent]
  intro hannounced
  have hlast := (hs.announced name user).mpr hannounced
  exact Bool.false_ne_true (hin.closed name user hmem hwork true hlast).symm

/-- Handlers stop working only by their teardown. -/
lemma atWork_step (hs : s.Tracked) (h : s.step fnv a = some t) (ha : ∀ i, a ≠ .teardown i)
    {name : String} {user : UInt32} (hwork : s.AtWork name user) : t.AtWork name user := by
  obtain ⟨ws, hws, rfl⟩ := Option.map_eq_some_iff.mp h
  obtain ⟨j, c, hc, hlive, rfl, rfl⟩ := hwork
  have hturn : TaskTurn a → AtWork ⟨ws, s.frames ++ s.framesOf fnv a, s.announcedAfter fnv a⟩
      c.stream c.id := by
    intro ha
    obtain ⟨d, hd, hcont⟩ := (turned_of_step hs.wf hs.locked ha hws).exists_session hc
    exact ⟨j, d, hd, hcont.live.mpr hlive, hcont.stream, hcont.id⟩
  cases a with
  | request request =>
      by_cases hexit : ∃ r, request = .exit r
      · obtain ⟨r, rfl⟩ := hexit
        obtain ⟨-, -, -, hsessions, -⟩ := exit_cases hs.wf hws
        refine ⟨j, _, by rw [hsessions, List.getElem?_map, hc]; rfl, ?_⟩
        dsimp only
        split_ifs
        · exact ⟨hlive, rfl, rfl⟩
        · exact ⟨hlive, rfl, rfl⟩
      · push Not at hexit
        obtain ⟨-, hsessions, -, -⟩ := request_cases hexit hws
        exact ⟨j, c, hsessions.symm ▸ hc, hlive, rfl, rfl⟩
  | connect sharedKey userId token stream =>
      obtain rfl := connect_cases hws
      exact ⟨j, c, List.getElem?_append_left (List.getElem?_eq_some_iff.mp hc).1 ▸ hc, hlive, rfl,
        rfl⟩
  | join i =>
      obtain ⟨c₀, hc₀, hphase, -, -, -, hsessions, -⟩ := join_cases hws
      have hj : i ≠ j := by
        rintro rfl
        obtain rfl := Option.some.inj (hc₀.symm.trans hc)
        rcases hlive with h | h | h <;> rw [hphase] at h <;> cases h
      exact ⟨j, c, by rw [hsessions, List.getElem?_set_ne hj, hc], hlive, rfl, rfl⟩
  | teardown i => exact absurd rfl (ha i)
  | _ => exact hturn trivial

lemma inOrder_opened_iff {i : ℕ} (hs : s.Tracked) (hin : s.InOrder)
    (h : s.step fnv (.opened i) = some t) : t.InOrder ↔ s.InTurn fnv (.opened i) := by
  rw [inOrder_iff_of_step hs hin h]
  have hwork : ∀ name user, s.AtWork name user → t.AtWork name user := fun _ _ =>
    atWork_step hs h (by simp)
  obtain ⟨ws, hws, rfl⟩ := Option.map_eq_some_iff.mp h
  have hturned := turned_of_step hs.wf hs.locked (a := .opened i) trivial hws
  have hopened := hws
  simp only [WsSystem.step, openedStep, Option.bind_eq_some_iff,
    Option.ite_none_right_eq_some] at hopened
  obtain ⟨c, hc, ⟨hphase, -⟩, -⟩ := hopened
  have hkey : ∀ name user, s.event fnv (.opened i) name user =
      if c.stream = name ∧ c.id = user then some true else none := by
    intro name user
    simp [event, hc]
  constructor
  · rintro ⟨hturn, -⟩ c' hc' hannounced
    obtain rfl := Option.some.inj (hc.symm.trans hc')
    have := (hturn c.stream c.id true (by simp [hkey])).mp hannounced
    cases this
  · refine fun hok => ⟨fun name user b hb => ?_, fun name user hmem hno => ?_⟩
    · rw [hkey] at hb
      split_ifs at hb with hcid
      obtain ⟨rfl, rfl⟩ := hcid
      cases hb
      exact iff_of_false (hok c hc) (by simp)
    · by_cases hcid : c.stream = name ∧ c.id = user
      · exact absurd (hwork name user ⟨i, c, hc, .inr (.inl hphase), hcid⟩) hno
      · refine not_announced_of_event hs hin h (by rw [hkey, if_neg hcid]) ?_ fun hw =>
          hno (hwork name user hw)
        rw [← hturned.users]
        exact hmem

lemma inOrder_teardown_iff {i : ℕ} (hs : s.Tracked) (hin : s.InOrder)
    (h : s.step fnv (.teardown i) = some t) : t.InOrder ↔ s.InTurn fnv (.teardown i) := by
  rw [inOrder_iff_of_step hs hin h]
  have hannounced := announced_step hs h
  have hnot : ∀ name user, s.event fnv (.teardown i) name user = none →
      user ∉ s.ws.groups.users name → ¬ s.AtWork name user → ¬ t.Announced name user :=
    fun _ _ => not_announced_of_event hs hin h
  obtain ⟨ws, hws, rfl⟩ := Option.map_eq_some_iff.mp h
  obtain ⟨c, hc, hphase, -, -, -, hsessions, husers⟩ := teardown_cases hs.wf hws
  have hlive : c.Live := .inr (.inr hphase)
  have hkey : ∀ name user, s.event fnv (.teardown i) name user =
      if c.stream = name ∧ c.id = user ∧ user ∈ s.ws.groups.users name then some false
      else none := by
    intro name user
    simp [event, leaves, hc]
  -- the other handlers go on
  have hwork : ∀ name user, AtWork ⟨ws, s.frames ++ s.framesOf fnv (.teardown i),
      s.announcedAfter fnv (.teardown i)⟩ name user ↔
      ∃ (j : ℕ) (d : Session), s.ws.sessions[j]? = some d ∧ j ≠ i ∧ d.Live ∧ d.stream = name ∧
        d.id = user := by
    intro name user
    constructor
    · rintro ⟨j, d, hd, hd', hrest⟩
      change ws.sessions[j]? = some d at hd
      rw [hsessions] at hd
      rcases Vec.getElem?_set_cases hd with ⟨-, rfl⟩ | ⟨hj, hd⟩
      · rcases hd' with h | h | h <;> cases h
      · exact ⟨j, d, hd, hj, hd', hrest⟩
    · rintro ⟨j, d, hd, hj, hrest⟩
      exact ⟨j, d, by rw [hsessions, List.getElem?_set_ne hj.symm, hd], hrest⟩
  constructor
  · rintro ⟨hturn, hclosed⟩ c' hc'
    obtain rfl := Option.some.inj (hc.symm.trans hc')
    split_ifs with hmem
    · exact (hturn c.stream c.id false (by simp [hkey, hmem])).mpr rfl
    · intro hstands
      by_contra hno
      refine hclosed c.stream c.id (fun h => hmem ((husers _ _).mp h).1) ?_ ?_
      · rwa [hwork]
      · rw [hannounced, hkey, if_neg fun h => hmem h.2.2]
        exact hstands
  · refine fun hok => ⟨fun name user b hb => ?_, fun name user hmem hno => ?_⟩
    · rw [hkey] at hb
      split_ifs at hb with hcid
      obtain ⟨rfl, rfl, hmem⟩ := hcid
      cases hb
      have hstands := hok c hc
      rw [if_pos hmem] at hstands
      exact iff_of_true hstands rfl
    · by_cases hcid : c.stream = name ∧ c.id = user
      · obtain ⟨rfl, rfl⟩ := hcid
        rw [hannounced, hkey]
        have hstands := hok c hc
        split_ifs at hstands with hin'
        · rw [if_pos ⟨rfl, rfl, hin'⟩]
          simp
        · rw [if_neg fun h => hin' h.2.2]
          exact fun ha => hno ((hwork _ _).mpr (hstands ha))
      · refine hnot name user (by rw [hkey, if_neg fun h => hcid ⟨h.1, h.2.1⟩]) (fun h =>
          hmem ((husers _ _).mpr ⟨h, fun hk => hcid ⟨hk.1.symm, hk.2.symm⟩⟩)) fun hw => hno ?_
        obtain ⟨j, d, hd, hd', rfl, rfl⟩ := hw
        refine (hwork _ _).mpr ⟨j, d, hd, ?_, hd', rfl, rfl⟩
        rintro rfl
        obtain rfl := Option.some.inj (hc.symm.trans hd)
        exact hcid ⟨rfl, rfl⟩

lemma inOrder_exit_iff {r : ExitRequest} (hs : s.Tracked) (hin : s.InOrder)
    (h : s.step fnv (.request (.exit r)) = some t) :
    t.InOrder ↔ s.InTurn fnv (.request (.exit r)) := by
  rw [inOrder_iff_of_step hs hin h]
  have hannounced := announced_step hs h
  have hwork : ∀ name user, s.AtWork name user → t.AtWork name user := fun _ _ =>
    atWork_step hs h (by simp)
  have hnot : ∀ name user, s.event fnv (.request (.exit r)) name user = none →
      user ∉ s.ws.groups.users name → ¬ s.AtWork name user → ¬ t.Announced name user :=
    fun _ _ => not_announced_of_event hs hin h
  obtain ⟨ws, hws, rfl⟩ := Option.map_eq_some_iff.mp h
  obtain ⟨-, -, -, -, husers⟩ := exit_cases hs.wf hws
  have hkey : ∀ name user, s.event fnv (.request (.exit r)) name user =
      if (s.ws.room.authSharedKey fnv r.sharedKey = true ∧ r.userId.toUInt32 = user) ∧
        user ∈ s.ws.groups.users name then some false else none := by
    intro name user
    simp [event, leaves]
  constructor
  · rintro ⟨hturn, -⟩ hauth name hmem
    exact (hturn name _ false (by simp [hkey, hauth, hmem])).mpr rfl
  · refine fun hok => ⟨fun name user b hb => ?_, fun name user hmem hno => ?_⟩
    · rw [hkey] at hb
      split_ifs at hb with hcid
      obtain ⟨⟨hauth, rfl⟩, hmem⟩ := hcid
      cases hb
      exact iff_of_true (hok hauth name hmem) rfl
    · by_cases hleft : (s.ws.room.authSharedKey fnv r.sharedKey = true ∧
          r.userId.toUInt32 = user) ∧ user ∈ s.ws.groups.users name
      · rw [hannounced, hkey, if_pos hleft]
        simp
      · refine hnot name user (by rw [hkey, if_neg hleft]) (fun hmem' => hmem ?_) fun hw =>
          hno (hwork name user hw)
        exact (husers name user).mpr ⟨hmem', fun ha => hleft ⟨⟨ha.1, ha.2.symm⟩, hmem'⟩⟩

/-- The other steps send nothing about presence, and take nobody out of a group. -/
lemma inOrder_of_event (hs : s.Tracked) (hin : s.InOrder) (h : s.step fnv a = some t)
    (ha : ∀ i, a ≠ .teardown i) (hevent : ∀ name user, s.event fnv a name user = none)
    (husers : ∀ name user, user ∈ s.ws.groups.users name → user ∈ t.ws.groups.users name) :
    t.InOrder := by
  rw [inOrder_iff_of_step hs hin h]
  refine ⟨fun name user b hb => by simp [hevent] at hb, fun name user hmem hno => ?_⟩
  exact not_announced_of_event hs hin h (hevent name user) (fun h => hmem (husers name user h))
    fun hw => hno (atWork_step hs h ha hw)

lemma inOrder_step_iff (hs : s.Tracked) (hin : s.InOrder) (h : s.step fnv a = some t) :
    t.InOrder ↔ s.InTurn fnv a := by
  have hturn : TaskTurn a → (∀ i, a ≠ .opened i) → t.InOrder := by
    intro ha hne
    refine inOrder_of_event hs hin h (fun i => ?_) (fun name user => ?_) fun name user => ?_
    · rintro rfl
      exact ha
    · cases a with
      | opened i => exact absurd rfl (hne i)
      | teardown i => exact ha.elim
      | request request => exact ha.elim
      | _ => rfl
    · obtain ⟨ws, hws, rfl⟩ := Option.map_eq_some_iff.mp h
      rw [(turned_of_step hs.wf hs.locked ha hws).users]
      exact id
  cases a with
  | opened i => exact inOrder_opened_iff hs hin h
  | teardown i => exact inOrder_teardown_iff hs hin h
  | request request =>
      by_cases hexit : ∃ r, request = .exit r
      · obtain ⟨r, rfl⟩ := hexit
        exact inOrder_exit_iff hs hin h
      · push Not at hexit
        refine iff_of_true (inOrder_of_event hs hin h (by simp) (fun name user => ?_)
          fun name user => ?_) ?_
        · cases request with
          | exit r => exact absurd rfl (hexit r)
          | _ => rfl
        · obtain ⟨ws, hws, rfl⟩ := Option.map_eq_some_iff.mp h
          rw [(request_cases hexit hws).2.2.2]
          exact id
        · cases request with
          | exit r => exact absurd rfl (hexit r)
          | _ => trivial
  | connect sharedKey userId token stream =>
      refine iff_of_true (inOrder_of_event hs hin h (by simp) (fun _ _ => rfl)
        fun name user => ?_) trivial
      obtain ⟨ws, hws, rfl⟩ := Option.map_eq_some_iff.mp h
      rw [connect_cases hws]
      exact id
  | join i =>
      refine iff_of_true (inOrder_of_event hs hin h (by simp) (fun _ _ => rfl)
        fun name user hmem => ?_) trivial
      obtain ⟨ws, hws, rfl⟩ := Option.map_eq_some_iff.mp h
      obtain ⟨c, -, -, -, -, -, -, husers⟩ := join_cases hws
      exact (husers name user).mpr (.inr hmem)
  | _ => exact iff_of_true (hturn trivial (by simp)) trivial

/-- The small room without connections. -/
def small : PresenceSystem := ⟨WsSystem.small, [], fun _ => false⟩

lemma init_small : (presenceMachine fnv1a).init small := ⟨WsSystem.init_small, rfl, rfl⟩

/-- The second client comes and goes while the first one stays, and the first one exits. -/
def visits : List WsAction :=
  connected ++ [.connect "key" 1 8 "stream", .join 1, .subscribe 1, .opened 1, .hangup 1,
    .select 1, .teardown 1, .request (.exit ⟨0, 7, "key"⟩), .cancel "stream" 0, .deliver 0 true,
    .select 0, .teardown 0]

end PresenceSystem

end SfuServer
