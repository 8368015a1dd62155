import SfuServer.Ws.Session
import SfuServer.Ws.Totality

/-!
The calls of a groups manager, interleaved at its own locks.

`GroupsManager` of `libs/libws/src/lib.rs` has a lock on each of its two tables, `inner` on the
groups and `users_group` on the lists of the users, and its methods take `&self`.  A call goes
through sections: it takes `inner` for all that it does, or it keeps `inner` while it waits for
`users_group`, or it takes `users_group` alone.  `join_or_create` and `end_user` take `inner` more
than once.  A section with `users_group` is never seen half done, so it is one step.

* `ManagerStage`, `ManagerSystem`, `managerMachine`: the manager with its calls, and what can
  happen between two acquisitions of a lock;
* `exec_call`: a call that nobody interrupts does what `GroupsManager.call` says;
* `Turn`, `turn_of_runStep`: what a section does to the two tables;
* `Keeps`, `Exact`: what holds between the sections.  A member that its list does not name is one
  that `end_user` is yet to take out, and a name without a member is one that `leave_group` is yet
  to take out of the list;
* `interleaved_index`: when all calls have returned, the lists name all groups of their users, and
  no others if no group was set up under a name in use.
-/

open Std (ExtTreeMap)

namespace SfuServer

namespace GroupsManager

/-- The first section of `GroupsManager::leave_group`: the user leaves the group. -/
def leaveInner (m : GroupsManager) (name : String) (user : UInt32) : GroupsManager :=
  m.mapGroup name fun g => g.leave user

/-- The second section of `GroupsManager::leave_group`: the name goes from the list of the
user. -/
def unlist (m : GroupsManager) (name : String) (user : UInt32) : GroupsManager :=
  { m with usersGroup := removeName name m.usersGroup user }

/-- The names that the manager lists for a user. -/
def groupsOf (m : GroupsManager) (user : UInt32) : List String := m.usersGroup[user]?.getD []

end GroupsManager

/-- How far a call is.  `joinHeld`, `removeHeld` and `leaveHeld` keep the lock on the groups and
wait for the one on the lists; `rest` are the names that `end_user` has yet to leave, if the leave
is one of its. -/
inductive ManagerStage where
  | begun (c : GroupsCall)
  | creating (user : UInt32) (group : String)
  | joining (name : String) (user : UInt32)
  | joinHeld (name : String) (user : UInt32)
  | removeHeld (group : String)
  | leaveHeld (name : String) (user : UInt32) (rest : Option (List String))
  | ending (user : UInt32) (names : List String)
  | returned (result : Option (Except GroupError Unit))

namespace ManagerStage

/-- The call has the lock on the groups. -/
def Holds : ManagerStage → Prop
  | .joinHeld .. | .removeHeld _ | .leaveHeld .. => True
  | .begun _ | .creating .. | .joining .. | .ending .. | .returned _ => False

/-- The call is an `end_user` that has yet to take the user out of the group. -/
def Owes (name : String) (user : UInt32) : ManagerStage → Prop
  | .ending u names => u = user ∧ name ∈ names
  | .leaveHeld _ u (some names) => u = user ∧ name ∈ names
  | .begun _ | .creating .. | .joining .. | .joinHeld .. | .removeHeld _ | .leaveHeld _ _ none
  | .returned _ => False

/-- The call has taken the user out of the group, and has yet to take the name out of its list. -/
def Unlists (name : String) (user : UInt32) : ManagerStage → Prop
  | .leaveHeld n u _ => n = name ∧ u = user
  | .begun _ | .creating .. | .joining .. | .joinHeld .. | .removeHeld _ | .ending ..
  | .returned _ => False

lemma Unlists.holds {st : ManagerStage} {name : String} {user : UInt32}
    (h : st.Unlists name user) : st.Holds := by
  cases st with
  | leaveHeld => trivial
  | begun | creating | joining | joinHeld | removeHeld | ending | returned => exact h.elim

/-- A stage in which a call holds nothing and is in the middle of no leave. -/
structure Plain (st : ManagerStage) : Prop where
  holds : ¬ st.Holds
  owes : ∀ n u, ¬ st.Owes n u
  unlists : ∀ n u, ¬ st.Unlists n u

/-- What follows a leave, of a call of its own or of `end_user`, which only logs a failure. -/
def afterLeave (user : UInt32) (result : Except GroupError Unit) :
    Option (List String) → ManagerStage
  | none => .returned (some result)
  | some names => .ending user names

end ManagerStage

/-- A groups manager, the call that has the lock on the groups, and all calls so far. -/
structure ManagerSystem where
  manager : GroupsManager
  holder : Option ℕ
  calls : List ManagerStage

/-- What can happen: a call begins, the call `i` goes through its next section, a channel of a
group is used, a pipe takes a turn, or the abort of a pipe takes effect. -/
inductive ManagerAction where
  | start (c : GroupsCall)
  | run (i : ℕ)
  | use (name : String) (use : ChannelUse)
  | pipe (name : String) (k : ℕ)
  | cancel (name : String) (k : ℕ)

namespace ManagerSystem

/-- A manager without groups and without calls. -/
def new : ManagerSystem := ⟨.new, none, []⟩

/-- The next stage of a call. -/
def goOn (s : ManagerSystem) (i : ℕ) (stage : ManagerStage) : ManagerSystem :=
  { s with calls := s.calls.set i stage }

/-- The first section of `GroupsManager::leave_group`; without a group the lock is given up. -/
def leaveStep (s : ManagerSystem) (i : ℕ) (name : String) (user : UInt32)
    (rest : Option (List String)) : Option ManagerSystem :=
  if s.holder = none then
    if s.manager.groupExists name then
      some ({ s with manager := s.manager.leaveInner name user, holder := some i }.goOn i
        (.leaveHeld name user rest))
    else some (s.goOn i (.afterLeave user (.error .groupNotFound) rest))
  else none

/-- The first section of a call: those that take `inner` and nothing else are done with it. -/
def beginStep (sizes : ChannelSizes) (s : ManagerSystem) (i : ℕ) :
    GroupsCall → Option ManagerSystem
  | .joinOrCreate user group =>
      if s.holder = none then
        some (s.goOn i (if s.manager.groupExists group then .joining group user
          else .creating user group))
      else none
  | .joinGroup name user =>
      if s.holder = none then some ({ s with holder := some i }.goOn i (.joinHeld name user))
      else none
  | .removeGroup group =>
      if s.holder = none then some ({ s with holder := some i }.goOn i (.removeHeld group))
      else none
  | .leaveGroup name user => s.leaveStep i name user none
  | .initUser user =>
      some ({ s with manager := s.manager.initUser user }.goOn i (.returned (some (.ok ()))))
  | .endUser user =>
      some ({ s with
        manager := { s.manager with usersGroup := s.manager.usersGroup.erase user } }.goOn i
          (.ending user (s.manager.groupsOf user)))
  | c =>
      if s.holder = none then
        some ({ s with manager := (s.manager.call sizes c).2 }.goOn i
          (.returned (s.manager.call sizes c).1))
      else none

/-- The call `i` goes through its next section. -/
def runStep (sizes : ChannelSizes) (s : ManagerSystem) (i : ℕ) : Option ManagerSystem :=
  s.calls[i]?.bind fun
    | .begun c => s.beginStep sizes i c
    | .creating user group =>
        if s.holder = none then
          some ({ s with manager := s.manager.newGroup group none }.goOn i (.joining group user))
        else none
    | .joining name user =>
        if s.holder = none then some ({ s with holder := some i }.goOn i (.joinHeld name user))
        else none
    | .joinHeld name user =>
        some ({ s with
          manager := s.manager.orElse (s.manager.joinGroup name user), holder := none }.goOn i
            (.returned (some (answered (s.manager.joinGroup name user)))))
    | .removeHeld group =>
        some ({ s with manager := s.manager.removeGroup group, holder := none }.goOn i
          (.returned (some (.ok ()))))
    | .leaveHeld name user rest =>
        some ({ s with manager := s.manager.unlist name user, holder := none }.goOn i
          (.afterLeave user (.ok ()) rest))
    | .ending user (name :: names) => s.leaveStep i name user (some names)
    | .ending _ [] => some (s.goOn i (.returned (some (.ok ()))))
    | .returned _ => none

/-- One step of the system. -/
def step (sizes : ChannelSizes) (s : ManagerSystem) : ManagerAction → Option ManagerSystem
  | .start c => some { s with calls := s.calls ++ [.begun c] }
  | .run i => s.runStep sizes i
  | .use name use => some { s with manager := s.manager.mapGroup name fun g => use.apply g }
  | .pipe name k =>
      s.manager.inner[name]?.bind fun g =>
        (g.pipeStep k).map fun g' => { s with manager := s.manager.mapGroup name fun _ => g' }
  | .cancel name k =>
      s.manager.inner[name]?.bind fun g =>
        (g.cancelPipe k).map fun g' => { s with manager := s.manager.mapGroup name fun _ => g' }

end ManagerSystem

/-- The machine of a groups manager whose calls run concurrently. -/
def managerMachine (sizes : ChannelSizes) : Machine ManagerSystem ManagerAction where
  init s := s = .new
  step := ManagerSystem.step sizes

/-! ### What the sections do to the two tables -/

namespace GroupsManager

variable {m : GroupsManager} {name n : String} {user v : UInt32}

lemma mem_users_newGroup {capacity : Option ℕ} :
    v ∈ (m.newGroup name capacity).users n ↔ n ≠ name ∧ v ∈ m.users n := by
  rw [users, users, newGroup]
  by_cases hn : n = name
  · simp [hn, Group.new]
  · simp [hn, ExtTreeMap.getElem?_insert, Ne.symm hn]

lemma mem_users_leaveInner (hm : m.ForallGroups Group.Wf) :
    v ∈ (m.leaveInner name user).users n ↔ v ∈ m.users n ∧ ¬ (n = name ∧ v = user) := by
  rw [users, users, leaveInner, inner_mapGroup]
  cases hg : m.inner[n]? with
  | none => simp
  | some g =>
      simp only [Option.map_some]
      split_ifs with hn
      · simp [Group.mem_innerUser_leave (hm n g hg).nodup, hn]
      · simp [hn]

@[simp] lemma groupsOf_leaveInner : (m.leaveInner name user).groupsOf v = m.groupsOf v := by
  rw [groupsOf, leaveInner, usersGroup_mapGroup, groupsOf]

@[simp] lemma users_unlist : (m.unlist name user).users n = m.users n := rfl

lemma mem_groupsOf_unlist :
    n ∈ (m.unlist name user).groupsOf v ↔ n ∈ m.groupsOf v ∧ ¬ (n = name ∧ v = user) := by
  rw [groupsOf, unlist, getElem?_removeName, groupsOf]
  cases m.usersGroup[v]? with
  | none => simp
  | some names =>
      simp only [Option.map_some, Option.getD_some]
      by_cases hv : v = user
      · simp [hv]
      · simp [hv]

@[simp] lemma groupsOf_initUser : (m.initUser user).groupsOf v = m.groupsOf v := by
  rw [groupsOf, initUser, groupsOf]
  cases hu : m.usersGroup[user]? with
  | some names => rfl
  | none =>
      by_cases hv : v = user
      · simp [hv, hu]
      · simp [ExtTreeMap.getElem?_insert, Ne.symm hv]

lemma mem_groupsOf_erase :
    n ∈ ({ m with usersGroup := m.usersGroup.erase user } : GroupsManager).groupsOf v ↔
      n ∈ m.groupsOf v ∧ v ≠ user := by
  rw [groupsOf, groupsOf]
  by_cases hv : v = user
  · simp [hv]
  · simp [hv, ExtTreeMap.getElem?_erase, Ne.symm hv]

/-- A leave goes through its two sections if there is the group. -/
lemma leaveGroup_eq (m : GroupsManager) (name : String) (user : UInt32) : m.leaveGroup name user =
    if m.groupExists name then .ok ((m.leaveInner name user).unlist name user)
    else .error .groupNotFound := by
  rw [leaveGroup, groupExists]
  cases hg : m.inner[name]? with
  | none => simp [not_mem_inner_of_getElem? hg]
  | some g =>
      simp only [mem_inner_of_getElem? hg, decide_true, if_true, leaveInner, mapGroup, hg, unlist,
        removeName]

/-- Who is a member, and which groups are listed, after a join of a group that may be missing. -/
lemma join_cases (m : GroupsManager) (name : String) (user : UInt32) :
    m.orElse (m.joinGroup name user) = m ∨
      (∀ n v, v ∈ (m.orElse (m.joinGroup name user)).users n ↔
          n = name ∧ v = user ∨ v ∈ m.users n) ∧
        ∀ n v, n ∈ (m.orElse (m.joinGroup name user)).groupsOf v ↔
          n = name ∧ v = user ∨ n ∈ m.groupsOf v := by
  rcases m.orElse_joinGroup name user with h | h
  · exact .inl h
  · refine .inr ⟨fun n v => mem_users_joinOrCreate h n v, fun n v => ?_⟩
    rw [joinOrCreate_eq, Except.ok.injEq] at h
    rw [← h, groupsOf]
    by_cases hv : v = user
    · simp [hv, mem_addName, groupsOf]
    · simp [hv, ExtTreeMap.getElem?_insert, Ne.symm hv, groupsOf]

lemma mem_groupsOf_removeGroup (hm : m.ForallGroups Group.Wf) :
    n ∈ (m.removeGroup name).groupsOf v ↔
      n ∈ m.groupsOf v ∧ ¬ (n = name ∧ v ∈ m.users name) := by
  rw [groupsOf, groupsOf, removeGroup]
  cases hg : m.inner[name]? with
  | none => simp [users, hg]
  | some g =>
      have hkeys : v ∈ g.userTasks.keys ↔ v ∈ m.users name := by
        rw [ExtTreeMap.mem_keys, ← (hm name g hg).mem_iff, users, hg]
      dsimp only
      rw [getElem?_foldl_removeName]
      cases m.usersGroup[v]? with
      | none => simp
      | some names =>
          simp only [Option.map_some, Option.getD_some, hkeys]
          split_ifs with hv
          · simp [hv]
          · simp [hv]

/-- The calls that take the lock on the groups and no other. -/
def Single : GroupsCall → Prop
  | .joinOrCreate .. | .joinGroup .. | .removeGroup _ | .leaveGroup .. | .initUser _
  | .endUser _ => False
  | .newGroup .. | .groupExists _ | .sendMessageToGroup .. | .sendMessageToUser ..
  | .isGroupEmpty _ | .groupsCount | .getUserReceiver .. | .getUserSender ..
  | .getUserSenderMap _ => True

lemma users_mapGroup_const {g : Group} (hg : m.inner[name]? = some g) {g' : Group}
    (h : g'.innerUser = g.innerUser) (n : String) :
    (m.mapGroup name fun _ => g').users n = m.users n :=
  users_mapGroup (fun g₀ hg₀ => by rw [h, Option.some.inj (hg.symm.trans hg₀)]) n

/-- A call with a single section sets up a group, or changes neither members nor lists. -/
lemma call_of_single (sizes : ChannelSizes) (m : GroupsManager) {c : GroupsCall} (hc : Single c) :
    (∃ name capacity, (m.call sizes c).2 = m.newGroup name capacity ∧ ∃ k, c = .newGroup name k) ∨
      (∀ n, (m.call sizes c).2.users n = m.users n) ∧
        (m.call sizes c).2.usersGroup = m.usersGroup := by
  cases c with
  | newGroup name capacity =>
      rw [call]
      cases sizes.retained (capacity.getD 64) with
      | none => exact .inr ⟨fun _ => rfl, rfl⟩
      | some k => exact .inl ⟨name, some k, rfl, capacity, rfl⟩
  | sendMessageToGroup group data =>
      refine .inr ?_
      rw [call, sendMessageToGroup]
      cases hg : m.inner[group]? with
      | none => exact ⟨fun _ => rfl, rfl⟩
      | some g =>
          dsimp only
          split
          · rename_i k g' hsent
            rw [Group.eq_of_send hsent]
            exact ⟨users_mapGroup_const hg rfl, usersGroup_mapGroup ..⟩
          · exact ⟨fun _ => rfl, rfl⟩
  | sendMessageToUser group user data =>
      refine .inr ?_
      rw [call, sendMessageToUser]
      cases hg : m.inner[group]? with
      | none => exact ⟨fun _ => rfl, rfl⟩
      | some g =>
          dsimp only
          split
          · exact ⟨fun _ => rfl, rfl⟩
          · rename_i k g' hsent
            obtain ⟨j, f, rfl⟩ := Group.exists_of_sendToUser hsent
            exact ⟨users_mapGroup_const hg rfl, usersGroup_mapGroup ..⟩
          · exact ⟨fun _ => rfl, rfl⟩
  | getUserReceiver group user r =>
      refine .inr ?_
      rw [call, getUserReceiver]
      split
      · exact ⟨fun _ => rfl, rfl⟩
      · exact ⟨fun _ => rfl, rfl⟩
      · exact ⟨users_mapGroup fun _ _ => rfl, usersGroup_mapGroup ..⟩
  | getUserSender group user =>
      refine .inr ?_
      rw [call]
      split <;> exact ⟨fun _ => rfl, rfl⟩
  | groupExists name | isGroupEmpty name | groupsCount | getUserSenderMap group =>
      exact .inr ⟨fun _ => rfl, rfl⟩
  | joinOrCreate user group | initUser user | endUser user | joinGroup name user
  | removeGroup group | leaveGroup name user => exact hc.elim

lemma wf_call {sizes : ChannelSizes} {c : GroupsCall} (hm : m.ForallGroups Group.Wf) :
    (m.call sizes c).2.ForallGroups Group.Wf :=
  forallGroups_call hm Group.wf_new (fun _ user hg => hg.join user none)
    (fun _ user hg => hg.leave user) (fun _ _ hg => hg.setTx fun _ => Broadcast.live_sendIgnore ..)
    fun _ k f hg => hg.mapChannel k f

end GroupsManager

namespace ManagerSystem

variable {sizes : ChannelSizes} {s t : ManagerSystem} {a : ManagerAction} {i : ℕ}
  {st st' : ManagerStage} {name : String} {user : UInt32}

/-! ### Turns -/

/-- A section sets up a group of that name. -/
def Creates (s : ManagerSystem) (i : ℕ) (name : String) : Prop :=
  (∃ user, s.calls[i]? = some (.creating user name)) ∨
    ∃ capacity, s.calls[i]? = some (.begun (.newGroup name capacity))

/-- No group is set up under a name in use. -/
def CreatesFresh (s : ManagerSystem) (a : ManagerAction) : Prop :=
  ∀ i name, a = .run i → s.Creates i name → name ∉ s.manager.inner

/-- A turn of the call `i` from the stage `st` to `st'`, with the manager and the holder of the
lock after it: it looks at the groups, sets one up, takes the lock and keeps it, or it is one of
the sections that write the lists. -/
inductive Turn (s : ManagerSystem) (i : ℕ) :
    ManagerStage → ManagerStage → GroupsManager → Option ℕ → Prop
  | looked {st st' : ManagerStage} {m : GroupsManager} (before : st.Plain) (after : st'.Plain)
      (users : ∀ n, m.users n = s.manager.users n) (lists : m.usersGroup = s.manager.usersGroup)
      (wf : s.manager.ForallGroups Group.Wf → m.ForallGroups Group.Wf) :
      Turn s i st st' m s.holder
  | created {st st' : ManagerStage} (name : String) (capacity : Option ℕ) (before : st.Plain)
      (after : st'.Plain) (free : s.holder = none) (creates : s.Creates i name) :
      Turn s i st st' (s.manager.newGroup name capacity) none
  | took {st st' : ManagerStage} (before : st.Plain) (owes : ∀ n u, ¬ st'.Owes n u)
      (unlists : ∀ n u, ¬ st'.Unlists n u) (free : s.holder = none) :
      Turn s i st st' s.manager (some i)
  | initialized {st st' : ManagerStage} (user : UInt32) (before : st.Plain) (after : st'.Plain) :
      Turn s i st st' (s.manager.initUser user) s.holder
  | ended {st : ManagerStage} (user : UInt32) (before : st.Plain) :
      Turn s i st (.ending user (s.manager.groupsOf user))
        { s.manager with usersGroup := s.manager.usersGroup.erase user } s.holder
  | missed (name : String) (user : UInt32) (names : List String) (absent : name ∉ s.manager.inner) :
      Turn s i (.ending user (name :: names)) (.ending user names) s.manager s.holder
  | left {st : ManagerStage} (name : String) (user : UInt32) (rest : Option (List String))
      (holds : ¬ st.Holds) (unlists : ∀ n u, ¬ st.Unlists n u)
      (owes : ∀ n u, st.Owes n u → u = user ∧ (n = name ∨ ∃ names ∈ rest, n ∈ names))
      (free : s.holder = none) :
      Turn s i st (.leaveHeld name user rest) (s.manager.leaveInner name user) (some i)
  | unlisted (name : String) (user : UInt32) (rest : Option (List String)) :
      Turn s i (.leaveHeld name user rest) (.afterLeave user (.ok ()) rest)
        (s.manager.unlist name user) none
  | joined (name : String) (user : UInt32) {st' : ManagerStage} (after : st'.Plain) :
      Turn s i (.joinHeld name user) st' (s.manager.orElse (s.manager.joinGroup name user)) none
  | removed (group : String) {st' : ManagerStage} (after : st'.Plain) :
      Turn s i (.removeHeld group) st' (s.manager.removeGroup group) none

lemma turn_of_leaveStep {rest : Option (List String)} (hc : s.calls[i]? = some st)
    (hholds : ¬ st.Holds) (hunlists : ∀ n u, ¬ st.Unlists n u)
    (howes : ∀ n u, st.Owes n u → u = user ∧ (n = name ∨ ∃ names ∈ rest, n ∈ names))
    (hmiss : name ∉ s.manager.inner → ∀ result,
      Turn s i st (.afterLeave user result rest) s.manager s.holder)
    (h : s.leaveStep i name user rest = some t) :
    ∃ st st', s.calls[i]? = some st ∧ t.calls = s.calls.set i st' ∧
      Turn s i st st' t.manager t.holder := by
  obtain ⟨hfree, h⟩ := Option.ite_none_right_eq_some.mp h
  split_ifs at h with hexists
  · cases h
    exact ⟨st, _, hc, rfl, .left name user rest hholds hunlists howes hfree⟩
  · cases h
    exact ⟨st, _, hc, rfl, hmiss (by simpa [GroupsManager.groupExists] using hexists) _⟩

/-- **What a section does**: a turn of the call. -/
theorem turn_of_runStep (h : s.runStep sizes i = some t) :
    ∃ st st', s.calls[i]? = some st ∧ t.calls = s.calls.set i st' ∧
      Turn s i st st' t.manager t.holder := by
  obtain ⟨st, hc, h⟩ := Option.bind_eq_some_iff.mp h
  have hplain : ∀ c, (ManagerStage.begun c).Plain := fun c => ⟨id, fun _ _ => id, fun _ _ => id⟩
  have hreturned : ∀ r, (ManagerStage.returned r).Plain :=
    fun r => ⟨id, fun _ _ => id, fun _ _ => id⟩
  have hjoining : ∀ n u, (ManagerStage.joining n u).Plain :=
    fun n u => ⟨id, fun _ _ => id, fun _ _ => id⟩
  have hcreating : ∀ u n, (ManagerStage.creating u n).Plain :=
    fun n u => ⟨id, fun _ _ => id, fun _ _ => id⟩
  cases st with
  | begun c =>
      have hsingle : GroupsManager.Single c → (if s.holder = none then
          some ({ s with manager := (s.manager.call sizes c).2 }.goOn i
            (.returned (s.manager.call sizes c).1)) else none) = some t →
          ∃ st st', s.calls[i]? = some st ∧ t.calls = s.calls.set i st' ∧
            Turn s i st st' t.manager t.holder := by
        intro hc' h
        obtain ⟨hfree, h⟩ := Option.ite_none_right_eq_some.mp h
        cases h
        refine ⟨_, _, hc, rfl, ?_⟩
        rcases GroupsManager.call_of_single sizes s.manager hc' with
          ⟨name, capacity, hm, k, hnew⟩ | ⟨husers, hlists⟩
        · change Turn s i _ _ (s.manager.call sizes c).2 s.holder
          rw [hm, hfree]
          exact .created name capacity (hplain _) (hreturned _) hfree (.inr ⟨k, hnew ▸ hc⟩)
        · refine .looked (hplain _) (hreturned _) husers hlists fun hwf => ?_
          exact GroupsManager.wf_call hwf
      cases c with
      | joinOrCreate user group =>
          obtain ⟨hfree, h⟩ := Option.ite_none_right_eq_some.mp h
          cases h
          refine ⟨_, _, hc, rfl, .looked (hplain _) ?_ (fun _ => rfl) rfl id⟩
          split_ifs
          · exact hjoining ..
          · exact hcreating ..
      | joinGroup name user =>
          obtain ⟨hfree, h⟩ := Option.ite_none_right_eq_some.mp h
          cases h
          exact ⟨_, _, hc, rfl, .took (hplain _) (fun _ _ => id) (fun _ _ => id) hfree⟩
      | removeGroup group =>
          obtain ⟨hfree, h⟩ := Option.ite_none_right_eq_some.mp h
          cases h
          exact ⟨_, _, hc, rfl, .took (hplain _) (fun _ _ => id) (fun _ _ => id) hfree⟩
      | leaveGroup name user =>
          refine turn_of_leaveStep hc id (fun _ _ => id) (fun _ _ h => h.elim) ?_ h
          exact fun _ result => .looked (hplain _) (hreturned _) (fun _ => rfl) rfl id
      | initUser user =>
          cases h
          exact ⟨_, _, hc, rfl, .initialized user (hplain _) (hreturned _)⟩
      | endUser user =>
          cases h
          exact ⟨_, _, hc, rfl, .ended user (hplain _)⟩
      | newGroup name capacity => exact hsingle trivial h
      | groupExists name => exact hsingle trivial h
      | sendMessageToGroup group data => exact hsingle trivial h
      | sendMessageToUser group user data => exact hsingle trivial h
      | isGroupEmpty name => exact hsingle trivial h
      | groupsCount => exact hsingle trivial h
      | getUserReceiver group user r => exact hsingle trivial h
      | getUserSender group user => exact hsingle trivial h
      | getUserSenderMap group => exact hsingle trivial h
  | creating user group =>
      obtain ⟨hfree, h⟩ := Option.ite_none_right_eq_some.mp h
      cases h
      refine ⟨_, _, hc, rfl, ?_⟩
      change Turn s i _ _ _ s.holder
      rw [hfree]
      exact .created group none (hcreating ..) (hjoining ..) hfree (.inl ⟨user, hc⟩)
  | joining name user =>
      obtain ⟨hfree, h⟩ := Option.ite_none_right_eq_some.mp h
      cases h
      exact ⟨_, _, hc, rfl, .took (hjoining ..) (fun _ _ => id) (fun _ _ => id) hfree⟩
  | joinHeld name user =>
      cases h
      exact ⟨_, _, hc, rfl, .joined name user (hreturned _)⟩
  | removeHeld group =>
      cases h
      exact ⟨_, _, hc, rfl, .removed group (hreturned _)⟩
  | leaveHeld name user rest =>
      cases h
      exact ⟨_, _, hc, rfl, .unlisted name user rest⟩
  | ending user names =>
      cases names with
      | nil =>
          cases h
          exact ⟨_, _, hc, rfl, .looked ⟨id, fun _ _ h => List.not_mem_nil h.2, fun _ _ => id⟩
            (hreturned _) (fun _ => rfl) rfl id⟩
      | cons name names =>
          refine turn_of_leaveStep hc id (fun _ _ => id) ?_
            (fun habsent _ => .missed _ _ _ habsent) h
          rintro n u ⟨rfl, hn⟩
          refine ⟨rfl, (List.mem_cons.mp hn).imp_right fun hn => ⟨names, rfl, hn⟩⟩
  | returned result => cases h

/-! ### What holds between the sections -/

/-- Some `end_user` has yet to take the user out of the group. -/
def Owing (s : ManagerSystem) (name : String) (user : UInt32) : Prop :=
  ∃ st ∈ s.calls, st.Owes name user

/-- Some leave has taken the user out of the group, and not yet the name out of its list. -/
def Unlisting (s : ManagerSystem) (name : String) (user : UInt32) : Prop :=
  ∃ st ∈ s.calls, st.Unlists name user

/-- What every section keeps: a call that keeps the lock on the groups is its holder; who was taken
out of a group is not a member; and the list of a member names the group, or some `end_user` is
going to take the member out. -/
structure Keeps (s : ManagerSystem) : Prop where
  wf : s.manager.ForallGroups Group.Wf
  nodup : s.manager.NamesNodup
  held : ∀ (i : ℕ) (st : ManagerStage), s.calls[i]? = some st → st.Holds → s.holder = some i
  left : ∀ n u, s.Unlisting n u → u ∉ s.manager.users n
  listed : ∀ n u, u ∈ s.manager.users n → n ∈ s.manager.groupsOf u ∨ s.Owing n u

/-- A list names only groups of its user, or a leave is going to take the name out. -/
def Exact (s : ManagerSystem) : Prop :=
  ∀ n u, n ∈ s.manager.groupsOf u → u ∈ s.manager.users n ∨ s.Unlisting n u

/-- What a stage says of the calls is kept when another call goes on. -/
lemma exists_set_of_exists {P : ManagerStage → Prop} (hc : s.calls[i]? = some st)
    (ht : t.calls = s.calls.set i st') (h : ∃ x ∈ s.calls, P x) : P st ∨ ∃ x ∈ t.calls, P x := by
  obtain ⟨x, hx, hP⟩ := h
  by_cases hxst : x = st
  · exact .inl (hxst ▸ hP)
  · exact .inr ⟨x, ht ▸ Vec.mem_set_of_ne hc hx hxst, hP⟩

lemma exists_of_exists_set {P : ManagerStage → Prop} (ht : t.calls = s.calls.set i st')
    (h : ∃ x ∈ t.calls, P x) : P st' ∨ ∃ x ∈ s.calls, P x := by
  obtain ⟨x, hx, hP⟩ := h
  rcases List.mem_or_eq_of_mem_set (ht ▸ hx) with hx | rfl
  · exact .inr ⟨x, hx, hP⟩
  · exact .inl hP

lemma mem_calls_set (hc : s.calls[i]? = some st) (ht : t.calls = s.calls.set i st') :
    st' ∈ t.calls :=
  ht ▸ List.mem_set (List.getElem?_eq_some_iff.mp hc).1 st'

namespace Keeps

variable (hs : s.Keeps)
include hs

/-- While nobody keeps the lock, no leave is in the middle. -/
lemma not_unlisting_of_free (hfree : s.holder = none) : ¬ s.Unlisting name user := by
  rintro ⟨x, hx, hunlists⟩
  obtain ⟨j, hj⟩ := List.mem_iff_getElem?.mp hx
  exact absurd (hfree.symm.trans (hs.held j x hj hunlists.holds)) (by simp)

/-- While a call keeps the lock, no other one is in the middle of a leave. -/
lemma not_unlisting_of_holds (hc : s.calls[i]? = some st) (hst : st.Holds)
    (hno : ¬ st.Unlists name user) : ¬ s.Unlisting name user := by
  rintro ⟨x, hx, hunlists⟩
  obtain ⟨j, hj⟩ := List.mem_iff_getElem?.mp hx
  obtain rfl : i = j := by simpa [hs.held i st hc hst] using hs.held j x hj hunlists.holds
  exact hno (Option.some.inj (hc.symm.trans hj) ▸ hunlists)

end Keeps

variable {m : GroupsManager} {holder : Option ℕ}

lemma wf_turn (hwf : s.manager.ForallGroups Group.Wf) (h : Turn s i st st' m holder) :
    m.ForallGroups Group.Wf := by
  cases h with
  | looked _ _ _ _ wf => exact wf hwf
  | created name capacity =>
      intro n g hg
      rw [GroupsManager.newGroup, ExtTreeMap.getElem?_insert] at hg
      split_ifs at hg
      · exact Option.some.inj hg ▸ Group.wf_new name capacity
      · exact hwf n g hg
  | took | ended | missed | unlisted => exact hwf
  | initialized user => exact fun n g hg => hwf n g (by rwa [GroupsManager.inner_initUser] at hg)
  | left name user => exact hwf.mapGroup fun _ _ hg => hg.leave user
  | joined name user =>
      rcases s.manager.orElse_joinGroup name user with h | h
      · rwa [h]
      · exact hwf.joinOrCreate (Group.wf_new name none) (fun _ hg => hg.join user none) h
  | removed group =>
      intro n g hg
      rw [GroupsManager.removeGroup] at hg
      split at hg
      · exact hwf n g hg
      · rw [ExtTreeMap.getElem?_erase] at hg
        split_ifs at hg
        exact hwf n g hg

lemma nodup_turn (hnd : s.manager.NamesNodup) (h : Turn s i st st' m holder) : m.NamesNodup := by
  cases h with
  | looked _ _ _ lists => exact fun u names hu => hnd u names (by rwa [lists] at hu)
  | created | took | missed => exact hnd
  | left name user =>
      intro u names hu
      rw [GroupsManager.leaveInner, GroupsManager.usersGroup_mapGroup] at hu
      exact hnd u names hu
  | initialized user =>
      have hst : s.manager.step (.initUser user) = some (s.manager.initUser user) := rfl
      exact GroupsManager.nodup_step hnd hst
  | ended user =>
      intro u names hu
      rw [ExtTreeMap.getElem?_erase] at hu
      split_ifs at hu
      exact hnd u names hu
  | unlisted name user rest =>
      intro u names hu
      rw [GroupsManager.unlist, GroupsManager.getElem?_removeName] at hu
      obtain ⟨names₀, hu₀, rfl⟩ := Option.map_eq_some_iff.mp hu
      have hnd₀ := hnd u names₀ hu₀
      split_ifs
      · exact hnd₀.filter _
      · exact hnd₀
  | joined name user =>
      have hst : s.manager.step (.joinGroup name user) = some _ := rfl
      exact GroupsManager.nodup_step hnd hst
  | removed group =>
      have hst : s.manager.step (.removeGroup group) = some _ := rfl
      exact GroupsManager.nodup_step hnd hst

lemma not_holds_afterLeave (user : UInt32) (result : Except GroupError Unit)
    (rest : Option (List String)) : ¬ (ManagerStage.afterLeave user result rest).Holds := by
  cases rest <;> exact id

/-- The holder of the lock after a turn. -/
lemma held_turn (hs : s.Keeps) (hc : s.calls[i]? = some st) (h : Turn s i st st' m holder) (j : ℕ)
    (x : ManagerStage) (hx : (s.calls.set i st')[j]? = some x) (hholds : x.Holds) :
    holder = some j := by
  rcases Vec.getElem?_set_cases hx with ⟨rfl, rfl⟩ | ⟨hji, hx⟩
  · -- the call itself keeps the lock only if it has just taken it
    cases h with
    | took | left => rfl
    | looked _ after | created _ _ _ after | initialized _ _ after | joined _ _ after
    | removed _ after => exact absurd hholds after.holds
    | ended | missed => exact hholds.elim
    | unlisted name user rest => exact absurd hholds (not_holds_afterLeave _ _ rest)
  · have hj := hs.held j x hx hholds
    cases h with
    | looked | initialized | ended | missed => exact hj
    | created _ _ _ _ free | took _ _ _ free | left _ _ _ _ _ _ free =>
        exact absurd (free.symm.trans hj) (by simp)
    | unlisted | joined | removed =>
        have hi := hs.held i _ hc trivial
        exact absurd (Option.some.inj (hj.symm.trans hi)) hji

/-- Who has been taken out of a group is not a member. -/
lemma left_turn (hs : s.Keeps) (hc : s.calls[i]? = some st) (ht : t.calls = s.calls.set i st')
    (h : Turn s i st st' m holder) (n : String) (u : UInt32) (hu : t.Unlisting n u) :
    u ∉ m.users n := by
  have hcases := exists_of_exists_set ht hu
  cases h with
  | looked _ after users =>
      rw [users]
      exact hs.left n u (hcases.resolve_left (after.unlists n u))
  | created _ _ _ after free =>
      exact absurd (hcases.resolve_left (after.unlists n u)) (hs.not_unlisting_of_free free)
  | took _ _ unlists free =>
      exact absurd (hcases.resolve_left (unlists n u)) (hs.not_unlisting_of_free free)
  | initialized user _ after =>
      rw [GroupsManager.users_initUser]
      exact hs.left n u (hcases.resolve_left (after.unlists n u))
  | ended | missed => exact hs.left n u (hcases.resolve_left id)
  | left name user rest _ _ _ free =>
      rcases hcases with ⟨rfl, rfl⟩ | hold
      · rw [GroupsManager.mem_users_leaveInner hs.wf]
        simp
      · exact absurd hold (hs.not_unlisting_of_free free)
  | unlisted name user rest =>
      refine hs.left n u (hcases.resolve_left ?_)
      exact fun hunlists => not_holds_afterLeave _ _ rest hunlists.holds
  | joined name user after =>
      exact absurd (hcases.resolve_left (after.unlists n u))
        (hs.not_unlisting_of_holds hc trivial id)
  | removed group after =>
      exact absurd (hcases.resolve_left (after.unlists n u))
        (hs.not_unlisting_of_holds hc trivial id)

/-- The list of a member names the group, or the member is going to be taken out. -/
lemma listed_turn (hs : s.Keeps) (hc : s.calls[i]? = some st) (ht : t.calls = s.calls.set i st')
    (h : Turn s i st st' m holder) (n : String) (u : UInt32) (hu : u ∈ m.users n) :
    n ∈ m.groupsOf u ∨ t.Owing n u := by
  have howing : s.Owing n u → st.Owes n u ∨ t.Owing n u := exists_set_of_exists hc ht
  have hafter : st'.Owes n u → t.Owing n u := fun howes => ⟨st', mem_calls_set hc ht, howes⟩
  have hplain : st.Plain → s.Owing n u → t.Owing n u :=
    fun hst h => (howing h).resolve_left (hst.owes n u)
  cases h with
  | looked before _ users lists =>
      rw [users] at hu
      rw [GroupsManager.groupsOf, lists]
      exact (hs.listed n u hu).imp_right (hplain before)
  | created name capacity before =>
      rw [GroupsManager.mem_users_newGroup] at hu
      exact (hs.listed n u hu.2).imp_right (hplain before)
  | took before => exact (hs.listed n u hu).imp_right (hplain before)
  | initialized user before =>
      rw [GroupsManager.users_initUser] at hu
      rw [GroupsManager.groupsOf_initUser]
      exact (hs.listed n u hu).imp_right (hplain before)
  | ended user before =>
      rcases hs.listed n u hu with hlist | howe
      · by_cases huser : u = user
        · exact .inr (hafter ⟨huser.symm, huser ▸ hlist⟩)
        · exact .inl (GroupsManager.mem_groupsOf_erase.mpr ⟨hlist, huser⟩)
      · exact .inr (hplain before howe)
  | missed name user names absent =>
      refine (hs.listed n u hu).imp_right fun howe => ?_
      rcases howing howe with ⟨rfl, hn⟩ | ht
      · rcases List.mem_cons.mp hn with rfl | hn
        · simp [GroupsManager.users, ExtTreeMap.getElem?_eq_none absent] at hu
        · exact hafter ⟨rfl, hn⟩
      · exact ht
  | left name user rest _ _ owes =>
      rw [GroupsManager.mem_users_leaveInner hs.wf] at hu
      rw [GroupsManager.groupsOf_leaveInner]
      refine (hs.listed n u hu.1).imp_right fun howe => ?_
      rcases howing howe with hst | ht
      · obtain ⟨rfl, rfl | ⟨names, hrest, hn⟩⟩ := owes n u hst
        · exact absurd ⟨rfl, rfl⟩ hu.2
        · obtain rfl := Option.mem_def.mp hrest
          exact hafter ⟨rfl, hn⟩
      · exact ht
  | unlisted name user rest =>
      rw [GroupsManager.users_unlist] at hu
      have hgone : user ∉ s.manager.users name :=
        hs.left name user ⟨_, List.mem_of_getElem? hc, rfl, rfl⟩
      rcases hs.listed n u hu with hlist | howe
      · refine .inl (GroupsManager.mem_groupsOf_unlist.mpr ⟨hlist, ?_⟩)
        rintro ⟨rfl, rfl⟩
        exact hgone hu
      · rcases howing howe with hst | ht
        · cases rest with
          | none => exact hst.elim
          | some names => exact .inr (hafter hst)
        · exact .inr ht
  | joined name user =>
      have hst : s.Owing n u → t.Owing n u := fun h => (howing h).resolve_left id
      rcases s.manager.join_cases name user with hm | ⟨husers, hlists⟩
      · rw [hm] at hu ⊢
        exact (hs.listed n u hu).imp_right hst
      · rw [hlists]
        rcases (husers n u).mp hu with hnew | hu
        · exact .inl (.inl hnew)
        · exact (hs.listed n u hu).imp .inr hst
  | removed group =>
      rw [GroupsManager.users_removeGroup] at hu
      split_ifs at hu with hn
      · exact absurd hu List.not_mem_nil
      · rw [GroupsManager.mem_groupsOf_removeGroup hs.wf]
        exact (hs.listed n u hu).imp (fun h => ⟨h, fun hg => hn hg.1⟩)
          fun h => (howing h).resolve_left id

/-- The lists name no other groups, as long as no group is set up under a name in use. -/
lemma exact_turn (hs : s.Keeps) (he : s.Exact) (hc : s.calls[i]? = some st)
    (ht : t.calls = s.calls.set i st') (h : Turn s i st st' m holder)
    (hfresh : ∀ name, s.Creates i name → name ∉ s.manager.inner)
    (n : String) (u : UInt32) (hn : n ∈ m.groupsOf u) : u ∈ m.users n ∨ t.Unlisting n u := by
  have hunlisting : s.Unlisting n u → st.Unlists n u ∨ t.Unlisting n u :=
    exists_set_of_exists hc ht
  cases h with
  | looked before _ users lists =>
      rw [GroupsManager.groupsOf, lists] at hn
      rw [users]
      exact (he n u hn).imp_right fun h => (hunlisting h).resolve_left (before.unlists n u)
  | created name capacity _ _ free creates =>
      have hmem := (he n u hn).resolve_right (hs.not_unlisting_of_free free)
      refine .inl (GroupsManager.mem_users_newGroup.mpr ⟨?_, hmem⟩)
      rintro rfl
      simp [GroupsManager.users, ExtTreeMap.getElem?_eq_none (hfresh n creates)] at hmem
  | took _ _ _ free => exact .inl ((he n u hn).resolve_right (hs.not_unlisting_of_free free))
  | initialized user before =>
      rw [GroupsManager.groupsOf_initUser] at hn
      rw [GroupsManager.users_initUser]
      exact (he n u hn).imp_right fun h => (hunlisting h).resolve_left (before.unlists n u)
  | ended user before =>
      rw [GroupsManager.mem_groupsOf_erase] at hn
      exact (he n u hn.1).imp_right fun h => (hunlisting h).resolve_left (before.unlists n u)
  | missed name user names absent =>
      exact (he n u hn).imp_right fun h => (hunlisting h).resolve_left id
  | left name user rest _ _ _ free =>
      rw [GroupsManager.groupsOf_leaveInner] at hn
      have hmem := (he n u hn).resolve_right (hs.not_unlisting_of_free free)
      by_cases hboth : n = name ∧ u = user
      · exact .inr ⟨_, mem_calls_set hc ht, hboth.1.symm, hboth.2.symm⟩
      · exact .inl ((GroupsManager.mem_users_leaveInner hs.wf).mpr ⟨hmem, hboth⟩)
  | unlisted name user rest =>
      rw [GroupsManager.mem_groupsOf_unlist] at hn
      refine (he n u hn.1).imp_right fun h => (hunlisting h).resolve_left ?_
      exact fun hst => hn.2 ⟨hst.1.symm, hst.2.symm⟩
  | joined name user =>
      have hno : ¬ s.Unlisting n u := hs.not_unlisting_of_holds hc trivial id
      refine .inl ?_
      rcases s.manager.join_cases name user with hm | ⟨husers, hlists⟩
      · rw [hm] at hn ⊢
        exact (he n u hn).resolve_right hno
      · rw [husers]
        exact ((hlists n u).mp hn).imp_right fun h => (he n u h).resolve_right hno
  | removed group =>
      rw [GroupsManager.mem_groupsOf_removeGroup hs.wf] at hn
      have hno : ¬ s.Unlisting n u := hs.not_unlisting_of_holds hc trivial id
      have hmem := (he n u hn.1).resolve_right hno
      rw [GroupsManager.users_removeGroup, if_neg fun hg => hn.2 ⟨hg, hg ▸ hmem⟩]
      exact .inl hmem

/-! ### All interleavings -/

lemma new_keeps : ManagerSystem.new.Keeps where
  wf := fun n g hg => by simp [new, GroupsManager.new] at hg
  nodup := fun u names hu => by simp [new, GroupsManager.new] at hu
  held := fun i st hst => by simp [new] at hst
  left := fun n u hu => by simp [Unlisting, new] at hu
  listed := fun n u hu => by simp [new, GroupsManager.users, GroupsManager.new] at hu

/-- What a channel or a pipe does leaves members, lists and calls as they are. -/
lemma mapGroup_of_other (hst : s.step sizes a = some t)
    (ha : (∃ name use, a = .use name use) ∨ ∃ name k, a = .pipe name k ∨ a = .cancel name k) :
    t.calls = s.calls ∧ t.holder = s.holder ∧ (∀ n, t.manager.users n = s.manager.users n) ∧
      t.manager.usersGroup = s.manager.usersGroup ∧
        (s.manager.ForallGroups Group.Wf → t.manager.ForallGroups Group.Wf) := by
  rcases ha with ⟨name, use, rfl⟩ | ⟨name, k, rfl | rfl⟩
  · cases hst
    refine ⟨rfl, rfl, GroupsManager.users_mapGroup fun g _ => ?_,
      GroupsManager.usersGroup_mapGroup .., fun hwf => hwf.mapGroup fun _ _ hg => ?_⟩
    · cases use <;> rfl
    · exact GroupsManager.apply_use use hg
        (fun _ _ hg => hg.setTx fun _ => Broadcast.live_sendIgnore ..)
        fun _ k f hg => hg.mapChannel k f
  · obtain ⟨g, hg, hpipe⟩ := Option.bind_eq_some_iff.mp hst
    obtain ⟨g', hg', rfl⟩ := Option.map_eq_some_iff.mp hpipe
    refine ⟨rfl, rfl, GroupsManager.users_mapGroup_const hg
      (WsSystem.innerUser_of_pipeStep hg'),
      GroupsManager.usersGroup_mapGroup .., fun hwf => hwf.mapGroup fun _ _ _ => ?_⟩
    exact (hwf name g hg).pipeStep hg'
  · obtain ⟨g, hg, hcancel⟩ := Option.bind_eq_some_iff.mp hst
    obtain ⟨g', hg', rfl⟩ := Option.map_eq_some_iff.mp hcancel
    have htraffic := Group.Traffic.cancelPipe hg'
    exact ⟨rfl, rfl, GroupsManager.users_mapGroup_const hg htraffic.innerUser,
      GroupsManager.usersGroup_mapGroup .., fun hwf => hwf.mapGroup fun _ _ _ =>
        htraffic.wf (hwf name g hg)⟩

/-- What holds between the sections is about the members, the lists and the calls. -/
lemma Keeps.of_eq (hs : s.Keeps) (hcalls : t.calls = s.calls) (hholder : t.holder = s.holder)
    (husers : ∀ n, t.manager.users n = s.manager.users n)
    (hlists : t.manager.usersGroup = s.manager.usersGroup)
    (hwf : s.manager.ForallGroups Group.Wf → t.manager.ForallGroups Group.Wf) : t.Keeps where
  wf := hwf hs.wf
  nodup := fun u names hu => hs.nodup u names (hlists ▸ hu)
  held := fun i st hi hholds => hholder ▸ hs.held i st (hcalls ▸ hi) hholds
  left := fun n u hu => by
    rw [Unlisting, hcalls] at hu
    exact husers n ▸ hs.left n u hu
  listed := fun n u hu => by
    rw [GroupsManager.groupsOf, hlists, Owing, hcalls]
    exact hs.listed n u (husers n ▸ hu)

/-- **Every step** keeps what holds between the sections. -/
theorem keeps_step (hs : s.Keeps) (hst : s.step sizes a = some t) : t.Keeps := by
  cases a with
  | start c =>
      cases hst
      refine ⟨hs.wf, hs.nodup, fun i st hi hholds => ?_, fun n u hu => ?_, fun n u hu => ?_⟩
      · rcases Vec.getElem?_concat_cases hi with ⟨-, rfl⟩ | hi
        · exact hholds.elim
        · exact hs.held i st hi hholds
      · exact hs.left n u ((Vec.exists_mem_concat_iff id).mp hu)
      · exact (hs.listed n u hu).imp_right (Vec.exists_mem_concat_iff id).mpr
  | run i =>
      obtain ⟨st, st', hc, ht, hturn⟩ := turn_of_runStep hst
      exact ⟨wf_turn hs.wf hturn, nodup_turn hs.nodup hturn,
        fun j x hx => held_turn hs hc hturn j x (ht ▸ hx), left_turn hs hc ht hturn,
        listed_turn hs hc ht hturn⟩
  | use name use =>
      obtain ⟨hcalls, hholder, husers, hlists, hwf⟩ :=
        mapGroup_of_other hst (.inl ⟨name, use, rfl⟩)
      exact hs.of_eq hcalls hholder husers hlists hwf
  | pipe name k =>
      obtain ⟨hcalls, hholder, husers, hlists, hwf⟩ :=
        mapGroup_of_other hst (.inr ⟨name, k, .inl rfl⟩)
      exact hs.of_eq hcalls hholder husers hlists hwf
  | cancel name k =>
      obtain ⟨hcalls, hholder, husers, hlists, hwf⟩ :=
        mapGroup_of_other hst (.inr ⟨name, k, .inr rfl⟩)
      exact hs.of_eq hcalls hholder husers hlists hwf

lemma new_exact : ManagerSystem.new.Exact := fun n u hn => by
  simp [GroupsManager.groupsOf, new, GroupsManager.new] at hn

lemma Exact.of_eq (he : s.Exact) (hcalls : t.calls = s.calls)
    (husers : ∀ n, t.manager.users n = s.manager.users n)
    (hlists : t.manager.usersGroup = s.manager.usersGroup) : t.Exact := by
  intro n u hn
  rw [GroupsManager.groupsOf, hlists] at hn
  rw [husers, Unlisting, hcalls]
  exact he n u hn

/-- The lists stay exact as long as no group is set up under a name in use. -/
lemma exact_step (hs : s.Keeps) (he : s.Exact) (hfresh : s.CreatesFresh a)
    (hst : s.step sizes a = some t) : t.Exact := by
  cases a with
  | start c =>
      cases hst
      exact fun n u hn => (he n u hn).imp_right (Vec.exists_mem_concat_iff id).mpr
  | run i =>
      obtain ⟨st, st', hc, ht, hturn⟩ := turn_of_runStep hst
      exact exact_turn hs he hc ht hturn fun name => hfresh i name rfl
  | use name use =>
      obtain ⟨hcalls, -, husers, hlists, -⟩ := mapGroup_of_other hst (.inl ⟨name, use, rfl⟩)
      exact he.of_eq hcalls husers hlists
  | pipe name k =>
      obtain ⟨hcalls, -, husers, hlists, -⟩ := mapGroup_of_other hst (.inr ⟨name, k, .inl rfl⟩)
      exact he.of_eq hcalls husers hlists
  | cancel name k =>
      obtain ⟨hcalls, -, husers, hlists, -⟩ := mapGroup_of_other hst (.inr ⟨name, k, .inr rfl⟩)
      exact he.of_eq hcalls husers hlists

/-- All calls have returned. -/
def Quiet (s : ManagerSystem) : Prop := ∀ st ∈ s.calls, ∃ result, st = .returned result

lemma Quiet.not_owing (hq : s.Quiet) : ¬ s.Owing name user := by
  rintro ⟨st, hst, howes⟩
  obtain ⟨result, rfl⟩ := hq st hst
  exact howes

lemma Quiet.not_unlisting (hq : s.Quiet) : ¬ s.Unlisting name user := by
  rintro ⟨st, hst, hunlists⟩
  obtain ⟨result, rfl⟩ := hq st hst
  exact hunlists

/-! ### Calls that nobody interrupts -/

/-- The last call alone goes on, from the stage `st` until it has returned. -/
def RunsTo (sizes : ChannelSizes) (calls : List ManagerStage) (m : GroupsManager)
    (holder : Option ℕ) (st : ManagerStage) (m' : GroupsManager)
    (result : Option (Except GroupError Unit)) : Prop :=
  ∃ k, (managerMachine sizes).exec ⟨m, holder, calls ++ [st]⟩
    (List.replicate k (.run calls.length)) = some ⟨m', none, calls ++ [.returned result]⟩

section RunsTo

variable {calls : List ManagerStage} {m m' : GroupsManager} {holder : Option ℕ}
  {st st₁ : ManagerStage} {result : Option (Except GroupError Unit)}

lemma runsTo_returned : RunsTo sizes calls m' none (.returned result) m' result := ⟨0, rfl⟩

lemma RunsTo.step (m₁ : GroupsManager) (holder₁ : Option ℕ) (st₁ : ManagerStage)
    (hst : runStep sizes ⟨m, holder, calls ++ [st]⟩ calls.length =
      some ⟨m₁, holder₁, calls ++ [st₁]⟩)
    (h : RunsTo sizes calls m₁ holder₁ st₁ m' result) :
    RunsTo sizes calls m holder st m' result := by
  obtain ⟨k, hk⟩ := h
  exact ⟨k + 1, Machine.exec_step hst hk⟩

lemma goOn_last : goOn ⟨m, holder, calls ++ [st]⟩ calls.length st₁ =
    ⟨m, holder, calls ++ [st₁]⟩ := by
  simp [goOn]

lemma runsTo_joining (m : GroupsManager) (name : String) (user : UInt32) :
    RunsTo sizes calls m none (.joining name user) (m.orElse (m.joinGroup name user))
      (some (answered (m.joinGroup name user))) := by
  refine .step m (some calls.length) (.joinHeld name user) ?_ ?_
  · simp [runStep, goOn_last]
  · exact .step _ _ _ (by simp [runStep, goOn_last]) runsTo_returned

/-- A leave goes through one section if there is no group, and through two if there is. -/
lemma runsTo_leave {name : String} {user : UInt32} {rest : Option (List String)}
    (hst : runStep sizes ⟨m, none, calls ++ [st]⟩ calls.length =
      leaveStep ⟨m, none, calls ++ [st]⟩ calls.length name user rest)
    (h : RunsTo sizes calls (m.leaveOrWarn user name) none
      (.afterLeave user (answered (m.leaveGroup name user)) rest) m' result) :
    RunsTo sizes calls m none st m' result := by
  rw [GroupsManager.leaveOrWarn, GroupsManager.leaveGroup_eq] at h
  by_cases hexists : m.groupExists name = true
  · rw [if_pos hexists] at h
    refine .step (m.leaveInner name user) (some calls.length) (.leaveHeld name user rest) ?_
      (.step _ _ _ ?_ h)
    · simp [hst, leaveStep, hexists, goOn_last]
    · simp [runStep, goOn_last, answered]
  · rw [if_neg hexists] at h
    refine .step _ _ _ ?_ h
    simp [hst, leaveStep, hexists, goOn_last, answered]

lemma runsTo_ending (user : UInt32) (names : List String) (m : GroupsManager) :
    RunsTo sizes calls m none (.ending user names) (names.foldl (.leaveOrWarn user) m)
      (some (.ok ())) := by
  induction names generalizing m with
  | nil => exact .step _ _ _ (by simp [runStep, goOn_last]) runsTo_returned
  | cons name names ih => exact runsTo_leave (by simp [runStep]; rfl) (ih (m.leaveOrWarn user name))

lemma endUser_eq (m : GroupsManager) (user : UInt32) : m.endUser user =
    (m.groupsOf user).foldl (.leaveOrWarn user)
      { m with usersGroup := m.usersGroup.erase user } := by
  rw [GroupsManager.endUser, GroupsManager.groupsOf]
  cases hu : m.usersGroup[user]? with
  | none =>
      have herase : m.usersGroup.erase user = m.usersGroup := by
        ext v names
        rw [ExtTreeMap.getElem?_erase]
        split_ifs with hv
        · obtain rfl : user = v := by simpa using hv
          simp [hu]
        · rfl
      rw [herase]
      rfl
  | some names => rfl

/-- **A call that nobody interrupts** does what the call does at once. -/
theorem exec_call (sizes : ChannelSizes) (calls : List ManagerStage) (m : GroupsManager)
    (c : GroupsCall) :
    RunsTo sizes calls m none (.begun c) (m.call sizes c).2 (m.call sizes c).1 := by
  have hsingle : (∀ s : ManagerSystem, ∀ i, s.beginStep sizes i c = if s.holder = none then
      some ({ s with manager := (s.manager.call sizes c).2 }.goOn i
        (.returned (s.manager.call sizes c).1)) else none) →
      RunsTo sizes calls m none (.begun c) (m.call sizes c).2 (m.call sizes c).1 :=
    fun h => .step _ _ _ (by simp [runStep, h, goOn_last]) runsTo_returned
  cases c with
  | joinOrCreate user group =>
      rw [GroupsManager.call, GroupsManager.joinOrCreate]
      by_cases hexists : m.groupExists group = true
      · rw [if_pos hexists]
        exact .step _ _ _ (by simp [runStep, beginStep, goOn_last, hexists])
          (runsTo_joining m group user)
      · rw [if_neg hexists]
        obtain ⟨m', hm'⟩ : ∃ m', (m.newGroup group none).joinGroup group user = .ok m' :=
          ⟨_, by simp only [GroupsManager.joinGroup, GroupsManager.newGroup,
            ExtTreeMap.getElem?_insert_self]; rfl⟩
        have hjoin : RunsTo sizes calls _ none _ _ _ :=
          runsTo_joining (m.newGroup group none) group user
        rw [hm'] at hjoin ⊢
        refine .step m none (.creating user group) ?_ (.step _ _ _ ?_ hjoin)
        · simp [runStep, beginStep, goOn_last, hexists]
        · simp [runStep, goOn_last]
  | joinGroup name user =>
      refine .step m (some calls.length) (.joinHeld name user) ?_ ?_
      · simp [runStep, beginStep, goOn_last]
      · exact .step _ _ _ (by simp [runStep, goOn_last, GroupsManager.call]) runsTo_returned
  | removeGroup group =>
      refine .step m (some calls.length) (.removeHeld group) ?_ ?_
      · simp [runStep, beginStep, goOn_last]
      · exact .step _ _ _ (by simp [runStep, goOn_last, GroupsManager.call]) runsTo_returned
  | leaveGroup name user =>
      refine runsTo_leave (by simp [runStep, beginStep]; rfl) ?_
      rw [GroupsManager.call, GroupsManager.orElse_leaveGroup]
      exact runsTo_returned
  | initUser user =>
      exact .step _ _ _ (by simp [runStep, beginStep, goOn_last, GroupsManager.call])
        runsTo_returned
  | endUser user =>
      refine .step { m with usersGroup := m.usersGroup.erase user } none
        (.ending user (m.groupsOf user)) (by simp [runStep, beginStep, goOn_last]) ?_
      rw [GroupsManager.call, endUser_eq]
      exact runsTo_ending user (m.groupsOf user) _
  | newGroup | groupExists | sendMessageToGroup | sendMessageToUser | isGroupEmpty | groupsCount
  | getUserReceiver | getUserSender | getUserSenderMap => exact hsingle fun _ _ => rfl

end RunsTo

/-! ### The tables -/

/-- Ending a user whose list names all groups of the user. -/
lemma not_mem_users_endUser {m : GroupsManager} (hm : m.ForallGroups Group.Wf)
    (hlisted : user ∈ m.users name → name ∈ m.groupsOf user) :
    user ∉ (m.endUser user).users name := by
  rw [endUser_eq]
  intro hmem
  rw [GroupsManager.mem_users_foldl_leaveOrWarn
    (m := { m with usersGroup := m.usersGroup.erase user }) hm] at hmem
  exact hmem.2 ⟨hlisted hmem.1, rfl⟩

/-- **The index under all interleavings**: between the sections a member whose list does not name
the group is one that some `end_user` has yet to take out, and, if no group was set up under a name
in use, a name in a list without its member is one that some leave has yet to take out.  When all
calls have returned, every group of a user is in its list, so that ending the user takes it out of
all groups, and if no group was set up under a name in use the two tables agree. -/
theorem interleaved_index {as : List ManagerAction}
    (h : (managerMachine sizes).exec .new as = some s) :
    (∀ n u, u ∈ s.manager.users n → n ∈ s.manager.groupsOf u ∨ s.Owing n u) ∧
      ((managerMachine sizes).Guarded CreatesFresh .new as →
        ∀ n u, n ∈ s.manager.groupsOf u → u ∈ s.manager.users n ∨ s.Unlisting n u) ∧
      (s.Quiet →
        (∀ n u, u ∈ s.manager.users n → n ∈ s.manager.groupsOf u) ∧
        (∀ n u, u ∉ (s.manager.endUser u).users n) ∧
        ((managerMachine sizes).Guarded CreatesFresh .new as → s.manager.Indexed)) := by
  have hs : s.Keeps := Machine.invariant_exec (fun _ _ _ => keeps_step) new_keeps h
  have hexact : (managerMachine sizes).Guarded CreatesFresh .new as → s.Exact := by
    intro hfresh
    refine Machine.Always.of_exec (P := fun s => s.Exact) ⟨new_exact, ?_⟩ h
    refine Machine.along_of_guarded (I := fun s => s.Keeps ∧ s.Exact) ?_ ⟨new_keeps, new_exact⟩
      hfresh
    intro s a t hs hok hst
    have ht := exact_step hs.1 hs.2 hok hst
    exact ⟨⟨keeps_step hs.1 hst, ht⟩, ht⟩
  refine ⟨hs.listed, hexact, fun hq => ?_⟩
  have hlisted : ∀ n u, u ∈ s.manager.users n → n ∈ s.manager.groupsOf u :=
    fun n u hu => (hs.listed n u hu).resolve_right hq.not_owing
  refine ⟨hlisted, fun n u => not_mem_users_endUser hs.wf (hlisted n u), fun hfresh => ?_⟩
  refine GroupsManager.Wf.indexed ⟨hs.wf, fun n u => ⟨hlisted n u, fun hn => ?_⟩⟩ hs.nodup
  exact (hexact hfresh n u hn).resolve_right hq.not_unlisting

/-- A user is ended while another one joins its group. -/
def crossing : List ManagerAction :=
  [.start (.joinOrCreate 1 "a"), .run 0, .run 0, .run 0, .run 0,
    .start (.endUser 1), .start (.joinGroup "a" 2), .run 1, .run 2, .run 2, .run 1, .run 1, .run 1]

/-- The calls have returned, only user 2 is in the group, and ending that user takes it out. -/
theorem interleaved_index_crossing :
    ∃ s, (managerMachine ⟨some, rfl⟩).exec .new crossing = some s ∧ s.Quiet ∧
      s.manager.users "a" = [2] ∧ ∀ n, 2 ∉ (s.manager.endUser 2).users n := by
  obtain ⟨s, hs, husers, hcalls⟩ : ∃ s, (managerMachine ⟨some, rfl⟩).exec .new crossing = some s ∧
      s.manager.users "a" = [2] ∧
      s.calls = List.replicate 3 (.returned (some (.ok ()))) := ⟨_, rfl, rfl, rfl⟩
  have hq : s.Quiet := by
    intro st hst
    exact ⟨_, List.eq_of_mem_replicate (hcalls ▸ hst)⟩
  exact ⟨s, hs, hq, husers, fun n => ((interleaved_index hs).2.2 hq).2.1 n 2⟩

end ManagerSystem

end SfuServer
