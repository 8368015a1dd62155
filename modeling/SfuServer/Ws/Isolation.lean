import SfuServer.Ws.Session

/-!
What the WebSocket connections of a room owe each other, over all runs of `wsMachine`.

Each result is an equivalence: a run has the property in all its states exactly if all its
steps meet a condition on the state before the step.

* `pipesServe_iff`: no pipe ends on its own, so that every member with a running connection
  is served, exactly if pipes keep up: none is behind by more than the capacity when its turn
  comes, and none takes another user's frame before its own user has a receiver;
* `isolated_iff`: every joined session keeps its membership until its own teardown or its
  user's exit, exactly if no teardown happens while another such session of the same user and
  group is live, and every exit with the key of the room by a user who has one is answered
  `Ok(true)`;
* `recvTasksRelay_iff`: no receive task ends because a send failed, exactly if every send
  finds a receiver.
-/

open Std (ExtTreeMap)

namespace SfuServer.WsSystem

variable {fnv : List UInt8 → UInt32} {s t : WsSystem}

/-- A new room has no groups and no sessions. -/
lemma groups_of_init (h : (wsMachine fnv).init s) : s.groups = .new ∧ s.sessions = [] := by
  obtain ⟨⟨id, name, needsHost, isPublic, capacity, sharedKey, masterKey, description, timeout,
    hroom⟩, -, hsessions⟩ := h
  exact ⟨by rw [groups, hroom]; rfl, hsessions⟩

/-- A small room without connections. -/
def small : WsSystem := ⟨smallRoom, none, []⟩

lemma init_small : (wsMachine fnv1a).init small := ⟨init_smallRoom, rfl, rfl⟩

/-- Two clients, the first of whom is connected to the group of a stream. -/
def connected : List WsAction :=
  [.request (.join ⟨"first", "key", ""⟩ 7), .request (.join ⟨"second", "key", ""⟩ 8),
    .connect "key" 0 7 "stream", .join 0, .subscribe 0, .opened 0]

/-! ### The pipes -/

/-- No pipe has ended on its own before it was aborted, and every member of a group that has a
running connection there has a running pipe. -/
structure PipesServe (s : WsSystem) : Prop where
  noneFinished : s.groups.ForallGroups Group.NoneFinished
  served : ∀ c ∈ s.sessions, c.phase = .running → ∀ g, s.groups.inner[c.stream]? = some g →
    c.id ∈ g.innerUser → g.HasRunningPipe c.id

/-- A pipe whose turn comes keeps up, unless it was aborted. -/
def PipesKeepUp (s : WsSystem) : WsAction → Prop
  | .pipe group k => ∀ g, s.groups.inner[group]? = some g → g.Aborting k ∨ g.PipeKeepsUp k
  | _ => True

instance (s : WsSystem) (a : WsAction) : Decidable (s.PipesKeepUp a) :=
  match a with
  | .pipe group k =>
      decidable_of_iff (∀ g ∈ s.groups.inner[group]?, g.Aborting k ∨ g.PipeKeepsUp k)
        (by simp [PipesKeepUp])
  | .request _ | .connect .. | .join _ | .subscribe _ | .opened _ | .message .. | .hangup _
  | .deliver .. | .select _ | .teardown _ | .cancel .. => isTrue trivial

/-- In well-formed groups it is enough that no pipe has ended on its own. -/
lemma pipesServe_iff_noneFinished (hs : s.groups.Wf) :
    s.PipesServe ↔ s.groups.ForallGroups Group.NoneFinished := by
  refine ⟨PipesServe.noneFinished, fun hnone => ⟨hnone, fun c _ _ g hg hmem => ?_⟩⟩
  exact (hs.groups c.stream g hg).hasRunningPipe (hnone c.stream g hg) hmem

lemma framesWhole_step {a : WsAction} (hs : s.groups.ForallGroups Group.FramesWhole)
    (h : s.step fnv a = some t) : t.groups.ForallGroups Group.FramesWhole :=
  forallGroups_step hs (fun _ _ hm => by simp [Group.new] at hm)
    (fun _ user hg => hg.join user none) (fun _ user hg => hg.leave user)
    (fun _ _ htraffic hg => htraffic.framesWhole hg)
    (fun _ _ _ _ _ _ hpipe hg => hg.pipeStep hpipe) h

/-- A step ends no pipe exactly if the pipe whose turn it is keeps up. -/
lemma noneFinished_step_iff {a : WsAction} (hframes : s.groups.ForallGroups Group.FramesWhole)
    (hs : s.groups.ForallGroups Group.NoneFinished) (h : s.step fnv a = some t) :
    t.groups.ForallGroups Group.NoneFinished ↔ s.PipesKeepUp a := by
  constructor
  · intro ht
    cases a with
    | pipe group k =>
        obtain ⟨g, g', hg, hg', hm⟩ := groups_step h
        have hg'none : g'.NoneFinished :=
          ht group g' (by rw [hm, GroupsManager.inner_mapGroup, hg]; simp)
        intro g₀ hg₀
        rw [hg, Option.some.injEq] at hg₀
        subst hg₀
        exact ((hframes group g hg).noneFinished_pipeStep_iff (hs group g hg) hg').mp hg'none
    | _ => trivial
  · intro hok
    refine forallGroups_step hs (fun _ k u hu => by simp [Group.new] at hu)
      (fun _ user hg => hg.join user none) (fun _ user hg => hg.leave user)
      (fun _ _ htraffic hg => htraffic.noneFinished hg) ?_ h
    rintro group k g g' rfl hg hg' hnone
    exact ((hframes group g hg).noneFinished_pipeStep_iff hnone hg').mpr (hok g hg)

/-- **When the pipes serve**: in a run, after every step no pipe has ended on its own before it was
aborted and every member with a running connection has a running pipe, if and only if at every
turn of a pipe that was not aborted it is behind by no more than the capacity and a frame of another
user finds a receiver on its user's channel. -/
theorem pipesServe_iff (fnv : List UInt8 → UInt32) {s : WsSystem} {as : List WsAction}
    (h0 : (wsMachine fnv).init s) :
    (wsMachine fnv).Always PipesServe s as ↔ (wsMachine fnv).Guarded PipesKeepUp s as := by
  obtain ⟨hgroups, hsessions⟩ := groups_of_init h0
  refine Machine.always_iff_guarded (I := fun s : WsSystem => s.groups.Wf ∧
    s.groups.ForallGroups Group.FramesWhole ∧ s.groups.ForallGroups Group.NoneFinished) ?_ ?_ ?_
  · rintro r a t ⟨hwf, hframes, hnone⟩ hstep
    have hwf' := wf_step hwf hstep
    have hiff := noneFinished_step_iff hframes hnone hstep
    exact ⟨(pipesServe_iff_noneFinished hwf').trans hiff, fun hok =>
      ⟨hwf', framesWhole_step hframes hstep, hiff.mpr hok⟩⟩
  · rw [hgroups]
    exact ⟨GroupsManager.wf_new, by simp [GroupsManager.ForallGroups, GroupsManager.new],
      by simp [GroupsManager.ForallGroups, GroupsManager.new]⟩
  · exact ⟨by simp [hgroups, GroupsManager.ForallGroups, GroupsManager.new], by simp [hsessions]⟩

/-- The second client connects as well, and both pipes take the frames that are there. -/
theorem pipesServe_small :
    (wsMachine fnv1a).Always PipesServe small
      (connected ++ [.pipe "stream" 0, .connect "key" 1 8 "stream", .join 1, .subscribe 1,
        .message 0 [0, 0, 0, 0, 9], .pipe "stream" 1]) :=
  (pipesServe_iff fnv1a init_small).mpr (by decide)

/-- The first client sends to the group while the second is between its join and its
subscription: the pipe of the second ends, and its connection starts without one. -/
theorem not_pipesServe_small :
    ¬ ∀ (s : WsSystem) (as : List WsAction), (wsMachine fnv1a).init s →
      (wsMachine fnv1a).Always PipesServe s as := by
  intro h
  have hend := (h small (connected ++ [.connect "key" 1 8 "stream", .join 1,
    .message 0 [0, 0, 0, 0, 9], .pipe "stream" 1, .subscribe 1]) init_small).of_exec rfl
  exact hend.noneFinished "stream" _ rfl 1 _ rfl rfl rfl

/-! ### Membership -/

/-- The session holds its membership: it has joined, was not torn down, and its user did not
exit the room since. -/
def Holds (c : Session) : Prop := c.Live ∧ c.evicted = false

instance (c : Session) : Decidable (Holds c) := inferInstanceAs (Decidable (_ ∧ _))

/-- Every session that holds a membership is a member. -/
def Isolated (s : WsSystem) : Prop :=
  ∀ (i : ℕ) (c : Session), s.sessions[i]? = some c → Holds c → c.id ∈ s.groups.users c.stream

/-- A teardown takes the membership of no other session, and an exit with the key of the room that
is not answered `Ok(true)` names no user with a session. -/
def KeepsOthers (fnv : List UInt8 → UInt32) (s : WsSystem) : WsAction → Prop
  | .teardown i => ∀ c, s.sessions[i]? = some c → ∀ (j : ℕ) (d : Session), j ≠ i →
      s.sessions[j]? = some d → Holds d → ¬ (d.stream = c.stream ∧ d.id = c.id)
  | .request (.exit r) => s.room.authSharedKey fnv r.sharedKey = true →
      (s.room.userDelete r.userId r.token true).1 ≠ .ok true →
        ∀ (j : ℕ) (d : Session), s.sessions[j]? = some d → Holds d → d.id ≠ r.userId.toUInt32
  | _ => True

instance (fnv : List UInt8 → UInt32) (s : WsSystem) (a : WsAction) :
    Decidable (s.KeepsOthers fnv a) :=
  match a with
  | .teardown i =>
      decidable_of_iff (∀ c ∈ s.sessions[i]?, ∀ j < s.sessions.length, ∀ d ∈ s.sessions[j]?,
        j ≠ i → Holds d → ¬ (d.stream = c.stream ∧ d.id = c.id)) (by
          refine forall₂_congr fun c _ => ⟨fun h j d hj hd => ?_, fun h j _ d hd hj => h j d hj hd⟩
          exact h j (List.getElem?_eq_some_iff.mp hd).1 d hd hj)
  | .request (.exit r) =>
      decidable_of_iff (s.room.authSharedKey fnv r.sharedKey = true →
        (s.room.userDelete r.userId r.token true).1 ≠ .ok true →
          ∀ d ∈ s.sessions, Holds d → d.id ≠ r.userId.toUInt32) (by
          refine forall₂_congr fun _ _ => ⟨fun h j d hd => h d (List.mem_of_getElem? hd), ?_⟩
          intro h d hd
          obtain ⟨j, hj⟩ := List.mem_iff_getElem?.mp hd
          exact h j d hj)
  | .request (.join ..) | .request (.create _) | .request (.destroy _) | .request (.whip ..)
  | .request (.depart ..) | .request (.tick ..) | .connect .. | .join _ | .subscribe _
  | .opened _ | .message .. | .hangup _ | .deliver .. | .select _ | .pipe .. | .cancel .. =>
      isTrue trivial

/-- A session that moved on holds a membership only if it did before. -/
lemma isolated_of_sessionMoved (hs : s.Isolated) (hsessions : SessionMoved s.sessions t.sessions)
    (husers : ∀ name, t.groups.users name = s.groups.users name) : t.Isolated := by
  intro j d hd hholds
  rw [husers]
  rcases hsessions with hl | ⟨i, c, c', hc, hsame, hl⟩
  · exact hs j d (hl ▸ hd) hholds
  · rw [hl] at hd
    by_cases hj : j = i
    · subst hj
      rw [List.getElem?_set_self (List.getElem?_eq_some_iff.mp hc).1, Option.some.injEq] at hd
      subst hd
      rw [hsame.id, hsame.stream]
      exact hs j c hc ⟨hsame.live hholds.1, hsame.evicted ▸ hholds.2⟩
    · rw [List.getElem?_set_ne (Ne.symm hj)] at hd
      exact hs j d hd hholds

/-- A request other than an exit touches no membership and no session. -/
lemma isolated_request (hs : s.Isolated) {request : RoomRequest}
    (hne : ∀ r, request ≠ .exit r) (h : s.step fnv (.request request) = some t) :
    t.Isolated := by
  have hsessions : t.sessions = s.sessions := by
    have hmap := sessions_step h
    have hnot : ∀ user, exits fnv s.room request user = false := by
      intro user
      cases request with
      | exit r => exact absurd rfl (hne r)
      | _ => rfl
    simpa [SessionsChange, hnot] using hmap
  have husers : ∀ name, t.groups.users name = s.groups.users name := by
    intro name
    have hgroups : t.groups = (s.room.serve fnv request).groupManager := groups_step h
    rw [hgroups]
    rcases groupManager_serve_of_ne_exit fnv s.room hne with hm | ⟨user, hm⟩
    · rw [hm]
      rfl
    · rw [hm, GroupsManager.users_initUser]
      rfl
  exact isolated_of_sessionMoved hs (.inl hsessions) husers

/-- An exit keeps the other sessions isolated exactly if it is answered `Ok(true)`, has another key
than the room, or names no user with a session. -/
lemma isolated_exit_iff (hwf : s.groups.Wf) (hs : s.Isolated) {r : ExitRequest}
    (h : s.step fnv (.request (.exit r)) = some t) :
    t.Isolated ↔ s.KeepsOthers fnv (.request (.exit r)) := by
  have hsessions : t.sessions = s.sessions.map fun c =>
      if c.Live ∧ exits fnv s.room (.exit r) c.id = true then { c with evicted := true } else c :=
    sessions_step h
  have hgroups : t.groups = (s.room.serve fnv (.exit r)).groupManager := groups_step h
  rw [groupManager_serve_exit] at hgroups
  by_cases hauth : s.room.authSharedKey fnv r.sharedKey = true
  swap
  · -- the request is turned away before the deletion
    have hsame : t.sessions = s.sessions := by simpa [exits, hauth] using hsessions
    rw [if_neg hauth] at hgroups
    refine iff_of_true (isolated_of_sessionMoved hs (.inl hsame) fun name => ?_)
      fun hauth' => absurd hauth' hauth
    rw [hgroups]
    rfl
  rw [if_pos hauth] at hgroups
  have husers : ∀ name v, v ∈ t.groups.users name ↔
      v ∈ s.groups.users name ∧ v ≠ r.userId.toUInt32 := by
    intro name v
    rw [hgroups]
    exact GroupsManager.mem_users_endUser hwf _ name v
  by_cases hdone : (s.room.userDelete r.userId r.token true).1 = .ok true
  · -- the sessions of the user no longer hold their memberships
    refine iff_of_true (fun j d hd hholds => ?_) fun _ hnot => absurd hdone hnot
    rw [hsessions, List.getElem?_map] at hd
    obtain ⟨c, hc, hdc⟩ := Option.map_eq_some_iff.mp hd
    split_ifs at hdc with hexit
    · rw [← hdc] at hholds
      cases hholds.2
    · subst hdc
      rw [husers]
      refine ⟨hs j c hc hholds, fun hid => hexit ⟨hholds.1, ?_⟩⟩
      simp [exits, hauth, hdone, hid]
  · have hsame : t.sessions = s.sessions := by simpa [exits, hdone] using hsessions
    constructor
    · intro ht _ _ j d hd hholds
      exact ((husers _ _).mp (ht j d (hsame ▸ hd) hholds)).2
    · intro hok j d hd hholds
      rw [hsame] at hd
      exact (husers _ _).mpr ⟨hs j d hd hholds, hok hauth hdone j d hd hholds⟩

/-- A teardown keeps the other sessions isolated exactly if it takes no other session's
membership. -/
lemma isolated_teardown_iff (hwf : s.groups.Wf) (hs : s.Isolated) {i : ℕ}
    (h : s.step fnv (.teardown i) = some t) :
    t.Isolated ↔ s.KeepsOthers fnv (.teardown i) := by
  obtain ⟨c, hc, hgroups⟩ := groups_step h
  obtain ⟨c', hc', -, hsessions⟩ := sessions_step h
  rw [hc, Option.some.injEq] at hc'
  subst hc'
  have husers : ∀ name v, v ∈ t.groups.users name ↔
      v ∈ s.groups.users name ∧ ¬ (name = c.stream ∧ v = c.id) := by
    intro name v
    rw [hgroups]
    exact GroupsManager.mem_users_leaveOrWarn hwf.groups c.id c.stream name v
  have hself : t.sessions[i]? = some { c with phase := .closed } := by
    rw [hsessions, List.getElem?_set_self (List.getElem?_eq_some_iff.mp hc).1]
  have hother : ∀ j ≠ i, t.sessions[j]? = s.sessions[j]? := by
    intro j hj
    rw [hsessions, List.getElem?_set_ne (Ne.symm hj)]
  constructor
  · intro ht c₀ hc₀ j d hj hd hholds hsame
    rw [hc, Option.some.injEq] at hc₀
    subst hc₀
    exact ((husers _ _).mp (ht j d ((hother j hj).trans hd) hholds)).2 hsame
  · intro hok j d hd hholds
    by_cases hj : j = i
    · -- the session itself is closed
      rw [hj, hself, Option.some.injEq] at hd
      rw [← hd] at hholds
      rcases hholds.1 with h | h | h <;> cases h
    · rw [hother j hj] at hd
      exact (husers _ _).mpr ⟨hs j d hd hholds, hok c hc j d hj hd hholds⟩

/-- A step keeps the sessions isolated exactly if it keeps the memberships of the others. -/
lemma isolated_step_iff {a : WsAction} (hwf : s.groups.Wf) (hs : s.Isolated)
    (h : s.step fnv a = some t) : t.Isolated ↔ s.KeepsOthers fnv a := by
  cases a with
  | request request =>
      by_cases hexit : ∃ r, request = .exit r
      · obtain ⟨r, rfl⟩ := hexit
        exact isolated_exit_iff hwf hs h
      · push Not at hexit
        refine iff_of_true (isolated_request hs hexit h) ?_
        cases request with
        | exit r => exact absurd rfl (hexit r)
        | _ => trivial
  | connect sharedKey userId token stream =>
      refine iff_of_true (fun j d hd hholds => ?_) trivial
      have hsessions := sessions_step h
      change t.sessions = _ at hsessions
      rw [users_of_groupsTraffic (groups_step h)]
      rw [hsessions, List.getElem?_append] at hd
      split_ifs at hd
      · exact hs j d hd hholds
      · -- a session that waits for its upgrade holds nothing yet
        obtain rfl := List.mem_singleton.mp (List.mem_of_getElem? hd)
        rcases hholds.1 with h | h | h <;> cases h
  | join i =>
      refine iff_of_true (fun j d hd hholds => ?_) trivial
      obtain ⟨c, hc, hjoin⟩ := groups_step h
      obtain ⟨c', hc', hsessions⟩ := sessions_step h
      rw [hc, Option.some.injEq] at hc'
      subst hc'
      rw [GroupsManager.mem_users_joinOrCreate hjoin, GroupsManager.users_initUser]
      rw [hsessions] at hd
      by_cases hj : j = i
      · subst hj
        rw [List.getElem?_set_self (List.getElem?_eq_some_iff.mp hc).1, Option.some.injEq] at hd
        subst hd
        exact .inl ⟨rfl, rfl⟩
      · rw [List.getElem?_set_ne (Ne.symm hj)] at hd
        exact .inr (hs j d hd hholds)
  | teardown i => exact isolated_teardown_iff hwf hs h
  | pipe group k =>
      refine iff_of_true (isolated_of_sessionMoved hs (sessions_step h) fun name => ?_) trivial
      obtain ⟨g, g', hg, hg', hm⟩ := groups_step h
      rw [hm]
      refine GroupsManager.users_mapGroup (fun g₀ hg₀ => ?_) name
      rw [hg, Option.some.injEq] at hg₀
      exact hg₀ ▸ innerUser_of_pipeStep hg'
  | subscribe i | opened i | message i binary | hangup i | deliver i written | select i
  | cancel group k =>
      exact iff_of_true (isolated_of_sessionMoved hs (sessions_step h)
        (users_of_groupsTraffic (groups_step h))) trivial

/-- **When the sessions are isolated**: in a run, every session that has joined, was not torn
down and whose user did not exit since is a member of its group in every state, if and only
if no teardown happens while another such session of the same user and group is there, and every
exit with the key of the room by a user who has such a session is answered `Ok(true)`. -/
theorem isolated_iff (fnv : List UInt8 → UInt32) {s : WsSystem} {as : List WsAction}
    (h0 : (wsMachine fnv).init s) :
    (wsMachine fnv).Always Isolated s as ↔ (wsMachine fnv).Guarded (KeepsOthers fnv) s as := by
  obtain ⟨hgroups, hsessions⟩ := groups_of_init h0
  have hs : s.Isolated := by simp [Isolated, hsessions]
  refine Machine.always_iff_guarded (I := fun s : WsSystem => s.groups.Wf ∧ s.Isolated) ?_
    ⟨hgroups ▸ GroupsManager.wf_new, hs⟩ hs
  rintro r a t ⟨hwf, hr⟩ hstep
  have hiff := isolated_step_iff hwf hr hstep
  exact ⟨hiff, fun hok => ⟨wf_step hwf hstep, hiff.mpr hok⟩⟩

/-- The first client closes its connection, and connects again after the teardown. -/
theorem isolated_small :
    (wsMachine fnv1a).Always Isolated small
      (connected ++ [.hangup 0, .select 0, .teardown 0, .connect "key" 0 7 "stream", .join 1,
        .subscribe 1]) :=
  (isolated_iff fnv1a init_small).mpr (by decide)

/-- The first client connects again before the teardown of its first connection. -/
theorem not_isolated_small :
    ¬ ∀ (s : WsSystem) (as : List WsAction), (wsMachine fnv1a).init s →
      (wsMachine fnv1a).Always Isolated s as := by
  intro h
  have hend := (h small (connected ++ [.hangup 0, .select 0, .connect "key" 0 7 "stream",
    .join 1, .subscribe 1, .teardown 0]) init_small).of_exec rfl
  have hmem := hend 1 _ rfl (by decide)
  revert hmem
  decide

/-! ### The receive tasks -/

/-- No receive task has ended because a send failed. -/
def RecvTasksRelay (s : WsSystem) : Prop :=
  ∀ c ∈ s.sessions, c.recvTask ≠ .ended .sendFailed

/-- What a receive task is about to send finds a receiver. -/
def FindsReceiver (g : Group) : Routing ℕ → Prop
  | .broadcast _ => g.tx.HasReceiver
  | .unicast _ k _ => ∀ t, g.tasks[k]? = some t → t.userSender.HasReceiver
  | _ => True

/-- A send by a receive task finds a receiver. -/
def SendsFindReceivers (s : WsSystem) : WsAction → Prop
  | .opened i => ∀ c g, s.sessions[i]? = some c → s.groups.inner[c.stream]? = some g →
      g.tx.HasReceiver
  | .message i binary => ∀ c g, s.sessions[i]? = some c → s.groups.inner[c.stream]? = some g →
      FindsReceiver g (recvStep c.id g.userSenders binary)
  | _ => True

instance (g : Group) (routing : Routing ℕ) : Decidable (FindsReceiver g routing) :=
  match routing with
  | .broadcast _ => inferInstanceAs (Decidable g.tx.HasReceiver)
  | .unicast _ k _ => inferInstanceAs (Decidable (∀ t ∈ g.tasks[k]?, t.userSender.HasReceiver))
  | .unregistered _ | .panic | .stop => isTrue trivial

instance (s : WsSystem) (a : WsAction) : Decidable (s.SendsFindReceivers a) :=
  match a with
  | .opened i =>
      decidable_of_iff (∀ c ∈ s.sessions[i]?, ∀ g ∈ s.groups.inner[c.stream]?, g.tx.HasReceiver)
        ⟨fun h c g hc hg => h c hc g hg, fun h c hc g hg => h c g hc hg⟩
  | .message i binary =>
      decidable_of_iff (∀ c ∈ s.sessions[i]?, ∀ g ∈ s.groups.inner[c.stream]?,
        FindsReceiver g (recvStep c.id g.userSenders binary))
        ⟨fun h c g hc hg => h c hc g hg, fun h c hc g hg => h c g hc hg⟩
  | .request _ | .connect .. | .join _ | .subscribe _ | .hangup _ | .deliver .. | .select _
  | .teardown _ | .pipe .. | .cancel .. => isTrue trivial

lemma recvTasksRelay_set (hs : s.RecvTasksRelay) {i : ℕ} {c : Session}
    (hsessions : t.sessions = s.sessions.set i c) (hc : c.recvTask ≠ .ended .sendFailed) :
    t.RecvTasksRelay := by
  intro d hd
  rw [hsessions] at hd
  rcases List.mem_or_eq_of_mem_set hd with hd | rfl
  · exact hs d hd
  · exact hc

lemma not_recvTasksRelay_set {i : ℕ} {c d : Session} (hd : s.sessions[i]? = some d)
    (hsessions : t.sessions = s.sessions.set i c) (hc : c.recvTask = .ended .sendFailed) :
    ¬ t.RecvTasksRelay := by
  refine fun ht => ht c ?_ hc
  rw [hsessions]
  exact List.mem_set (List.getElem?_eq_some_iff.mp hd).1 c

/-- The announcement of a user ends its receive task exactly if the group has no receiver. -/
lemma recvTasksRelay_opened_iff (hs : s.RecvTasksRelay) {i : ℕ}
    (h : s.step fnv (.opened i) = some t) :
    t.RecvTasksRelay ↔ s.SendsFindReceivers (.opened i) := by
  simp only [step, openedStep, Option.bind_eq_some_iff, Option.ite_none_right_eq_some] at h
  obtain ⟨c, hc, -, g, hg, h⟩ := h
  have hok : s.SendsFindReceivers (.opened i) ↔ g.tx.HasReceiver := by
    refine ⟨fun hok => hok c g hc hg, fun hok c' g' hc' hg' => ?_⟩
    rw [hc, Option.some.injEq] at hc'
    subst hc'
    rw [hg, Option.some.injEq] at hg'
    exact hg' ▸ hok
  rw [hok]
  split at h
  · rename_i tx htx
    cases h
    exact iff_of_true (recvTasksRelay_set hs rfl (by simp))
      ((g.tx.send_eq_some_iff _).mp htx).1
  · rename_i htx
    cases h
    exact iff_of_false (not_recvTasksRelay_set hc rfl rfl) ((g.tx.send_eq_none_iff _).mp htx)

/-- A message ends its receive task by a failed send exactly if the send finds no receiver. -/
lemma recvTasksRelay_message_iff (hs : s.RecvTasksRelay) {i : ℕ} {binary : Bytes}
    (h : s.step fnv (.message i binary) = some t) :
    t.RecvTasksRelay ↔ s.SendsFindReceivers (.message i binary) := by
  simp only [step, messageStep, Option.bind_eq_some_iff, Option.ite_none_right_eq_some] at h
  obtain ⟨c, hc, -, g, hg, h⟩ := h
  have hok : s.SendsFindReceivers (.message i binary) ↔
      FindsReceiver g (recvStep c.id g.userSenders binary) := by
    refine ⟨fun hok => hok c g hc hg, fun hok c' g' hc' hg' => ?_⟩
    rw [hc, Option.some.injEq] at hc'
    subst hc'
    rw [hg, Option.some.injEq] at hg'
    exact hg' ▸ hok
  rw [hok]
  split at h
  · rename_i frame hroute
    rw [hroute]
    split at h
    · rename_i tx htx
      cases h
      exact iff_of_true hs ((g.tx.send_eq_some_iff _).mp htx).1
    · rename_i htx
      cases h
      exact iff_of_false (not_recvTasksRelay_set hc rfl rfl) ((g.tx.send_eq_none_iff _).mp htx)
  · rename_i dest k frame hroute
    rw [hroute]
    obtain ⟨u, hu, h⟩ := Option.bind_eq_some_iff.mp h
    have hfinds : FindsReceiver g (.unicast dest k frame) ↔ u.userSender.HasReceiver := by
      simp [FindsReceiver, hu]
    rw [hfinds]
    split at h
    · rename_i channel hchannel
      cases h
      exact iff_of_true hs ((u.userSender.send_eq_some_iff _).mp hchannel).1
    · rename_i hchannel
      cases h
      exact iff_of_false (not_recvTasksRelay_set hc rfl rfl)
        ((u.userSender.send_eq_none_iff _).mp hchannel)
  · rename_i hroute
    cases h
    rw [hroute]
    exact iff_of_true hs trivial
  · rename_i hroute
    cases h
    rw [hroute]
    exact iff_of_true (recvTasksRelay_set hs rfl (by simp)) trivial
  · cases h

/-- A step ends no receive task by a failed send exactly if its send finds a receiver. -/
lemma recvTasksRelay_step_iff {a : WsAction} (hs : s.RecvTasksRelay)
    (h : s.step fnv a = some t) : t.RecvTasksRelay ↔ s.SendsFindReceivers a := by
  cases a with
  | opened i => exact recvTasksRelay_opened_iff hs h
  | message i binary => exact recvTasksRelay_message_iff hs h
  | request request =>
      refine iff_of_true (fun d hd => ?_) trivial
      have hsessions := sessions_step h
      change t.sessions = _ at hsessions
      rw [hsessions] at hd
      obtain ⟨c, hc, rfl⟩ := List.mem_map.mp hd
      have := hs c hc
      split_ifs
      · exact this
      · exact this
  | connect sharedKey userId token stream =>
      refine iff_of_true (fun d hd => ?_) trivial
      have hsessions := sessions_step h
      change t.sessions = _ at hsessions
      rw [hsessions, List.mem_append, List.mem_singleton] at hd
      rcases hd with hd | rfl
      · exact hs d hd
      · simp
  | join i =>
      obtain ⟨c, hc, hsessions⟩ := sessions_step h
      exact iff_of_true (recvTasksRelay_set hs hsessions (hs c (List.mem_of_getElem? hc))) trivial
  | teardown i =>
      obtain ⟨c, hc, -, hsessions⟩ := sessions_step h
      exact iff_of_true (recvTasksRelay_set hs hsessions (hs c (List.mem_of_getElem? hc))) trivial
  | subscribe i =>
      simp only [step, subscribeStep, Option.bind_eq_some_iff, Option.ite_none_right_eq_some] at h
      obtain ⟨c, hc, -, h⟩ := h
      refine iff_of_true ?_ trivial
      split at h <;> cases h <;> exact recvTasksRelay_set hs rfl (hs c (List.mem_of_getElem? hc))
  | hangup i =>
      simp only [step, hangupStep, Option.bind_eq_some_iff, Option.ite_none_right_eq_some,
        Option.some.injEq] at h
      obtain ⟨c, hc, -, rfl⟩ := h
      exact iff_of_true (recvTasksRelay_set hs rfl (by simp)) trivial
  | deliver i written =>
      simp only [step, deliverStep, Option.bind_eq_some_iff] at h
      obtain ⟨c, hc, k, -, g, -, u, -, h⟩ := h
      refine iff_of_true ?_ trivial
      split at h
      · split_ifs at h
        · cases h
          exact hs
        · cases h
          exact recvTasksRelay_set hs rfl (hs c (List.mem_of_getElem? hc))
      · cases h
        exact recvTasksRelay_set hs rfl (hs c (List.mem_of_getElem? hc))
      · split_ifs at h
        cases h
        exact recvTasksRelay_set hs rfl (hs c (List.mem_of_getElem? hc))
  | select i =>
      simp only [step, selectStep, Option.bind_eq_some_iff, Option.ite_none_right_eq_some] at h
      obtain ⟨c, hc, -, h⟩ := h
      refine iff_of_true ?_ trivial
      split at h
      · cases h
        exact recvTasksRelay_set hs rfl (hs c (List.mem_of_getElem? hc))
      · cases h
        exact recvTasksRelay_set hs rfl (hs c (List.mem_of_getElem? hc))
      · cases h
        exact recvTasksRelay_set hs rfl (by simp)
      · cases h
  | pipe group k =>
      simp only [step, pipeStep, Option.bind_eq_some_iff, Option.some.injEq] at h
      obtain ⟨g, -, g', -, rfl⟩ := h
      exact iff_of_true hs trivial
  | cancel group k =>
      simp only [step, cancelStep, Option.bind_eq_some_iff, Option.some.injEq] at h
      obtain ⟨g, -, g', -, rfl⟩ := h
      exact iff_of_true hs trivial

/-- **When the receive tasks relay**: in a run, no receive task ever ends because a send
failed if and only if every send finds a receiver: a frame for the group some running pipe, a
frame for a registered user a connection of that user. -/
theorem recvTasksRelay_iff (fnv : List UInt8 → UInt32) {s : WsSystem} {as : List WsAction}
    (h0 : (wsMachine fnv).init s) :
    (wsMachine fnv).Always RecvTasksRelay s as ↔
      (wsMachine fnv).Guarded SendsFindReceivers s as := by
  have hs : s.RecvTasksRelay := by simp [RecvTasksRelay, (groups_of_init h0).2]
  refine Machine.always_iff_guarded (I := RecvTasksRelay) ?_ hs hs
  intro r a t hr hstep
  have hiff := recvTasksRelay_step_iff hr hstep
  exact ⟨hiff, hiff.mpr⟩

end SfuServer.WsSystem
