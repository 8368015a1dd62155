import SfuServer.Lib.Machine
import SfuServer.Ws.GroupsManager

/-!
The two tables of a groups manager, over all sequences of its operations.

The manager keeps the members of each group and, for each user, the names of its groups:
one relation, recorded from both sides.  Every operation runs to its end under the lock on
the manager, so a history is a sequence of operations.

* `GroupsAction`, `groupsMachine`: the operations, where a group is only set up under a name
  that is not in use;
* `Indexed`: the two tables agree, and the lists of the users name each group once;
* `index_consistent`: after any history the tables agree, an operation changes only the
  memberships it is about, and a user that was ended is in no group.
-/

open Std (ExtTreeMap)

namespace SfuServer

/-- The operations of a groups manager. -/
inductive GroupsAction where
  | initUser (user : UInt32)
  | joinGroup (name : String) (user : UInt32)
  | joinOrCreate (user : UInt32) (group : String)
  | leaveGroup (name : String) (user : UInt32)
  | removeGroup (group : String)
  | endUser (user : UInt32)
  | newGroup (name : String) (capacity : Option ℕ)
  deriving DecidableEq, Repr

namespace GroupsManager

/-- The manager after an operation that can fail. -/
def orElse (m : GroupsManager) : Except GroupError GroupsManager → GroupsManager
  | .ok m => m
  | .error _ => m

/-- One operation; a group is not set up under a name in use. -/
def step (m : GroupsManager) : GroupsAction → Option GroupsManager
  | .initUser user => some (m.initUser user)
  | .joinGroup name user => some (m.orElse (m.joinGroup name user))
  | .joinOrCreate user group => some (m.orElse (m.joinOrCreate user group))
  | .leaveGroup name user => some (m.orElse (m.leaveGroup name user))
  | .removeGroup group => some (m.removeGroup group)
  | .endUser user => some (m.endUser user)
  | .newGroup name capacity =>
      if m.groupExists name then none else some (m.newGroup name capacity)

end GroupsManager

/-- The machine of a groups manager. -/
def groupsMachine : Machine GroupsManager GroupsAction where
  init m := m = .new
  step := GroupsManager.step

namespace GroupsManager

variable {m m' : GroupsManager} {a : GroupsAction} {name : String} {user : UInt32}

/-- The two tables agree: a user is a member of a group exactly if its list names the group,
and the lists name each group once and only groups that exist. -/
structure Indexed (m : GroupsManager) : Prop where
  index : ∀ (n : String) (u : UInt32), u ∈ m.users n ↔ n ∈ m.usersGroup[u]?.getD []
  nodup : ∀ (u : UInt32) (names : List String), m.usersGroup[u]? = some names → names.Nodup
  listed : ∀ (u : UInt32) (names : List String), m.usersGroup[u]? = some names →
    ∀ n ∈ names, n ∈ m.inner

/-- The memberships that an operation is about. -/
def Concerns : GroupsAction → String → UInt32 → Prop
  | .initUser _, _, _ => False
  | .joinGroup name user, n, v => n = name ∧ v = user
  | .joinOrCreate user group, n, v => n = group ∧ v = user
  | .leaveGroup name user, n, v => n = name ∧ v = user
  | .removeGroup group, n, _ => n = group
  | .endUser user, _, v => v = user
  | .newGroup .., _, _ => False

/-! ### Groups that are joined, removed and set up -/

lemma joinGroup_of_mem (h : name ∈ m.inner) : m.joinGroup name user = m.joinOrCreate user name := by
  rw [joinOrCreate, groupExists, decide_eq_true h, if_pos rfl]

/-- Joining a group by its name is joining one that exists, or fails. -/
lemma orElse_joinGroup (m : GroupsManager) (name : String) (user : UInt32) :
    m.orElse (m.joinGroup name user) = m ∨
      m.joinOrCreate user name = .ok (m.orElse (m.joinGroup name user)) := by
  by_cases h : name ∈ m.inner
  · rw [joinGroup_of_mem h, joinOrCreate_eq]
    exact .inr rfl
  · refine .inl ?_
    rw [joinGroup, ExtTreeMap.getElem?_eq_none h]
    rfl

lemma joinOrCreate_orElse (m : GroupsManager) (user : UInt32) (name : String) :
    m.joinOrCreate user name = .ok (m.orElse (m.joinOrCreate user name)) := by
  rw [joinOrCreate_eq]
  rfl

lemma orElse_leaveGroup (m : GroupsManager) (name : String) (user : UInt32) :
    m.orElse (m.leaveGroup name user) = m.leaveOrWarn user name := by
  rw [leaveOrWarn]
  cases m.leaveGroup name user <;> rfl

lemma getElem?_removeName (usersGroup : ExtTreeMap UInt32 (List String)) (name : String)
    (user v : UInt32) :
    (removeName name usersGroup user)[v]? = usersGroup[v]?.map fun names =>
      if v = user then names.filter (· != name) else names := by
  rw [removeName]
  by_cases hv : v = user
  · subst hv
    cases hu : usersGroup[v]? with
    | none => simp [hu]
    | some names => simp
  · cases usersGroup[user]? with
    | none => simp [hv]
    | some names => simp [ExtTreeMap.getElem?_insert, Ne.symm hv, hv]

/-- A name taken out of the lists of several users. -/
lemma getElem?_foldl_removeName (users : List UInt32)
    (usersGroup : ExtTreeMap UInt32 (List String)) (name : String) (v : UInt32) :
    (users.foldl (removeName name) usersGroup)[v]? = usersGroup[v]?.map fun names =>
      if v ∈ users then names.filter (· != name) else names := by
  induction users generalizing usersGroup with
  | nil => simp
  | cons u users ih =>
      rw [List.foldl_cons, ih, getElem?_removeName, Option.map_map]
      congr 1
      funext names
      by_cases hv : v = u
      · by_cases hmem : v ∈ users <;> simp [hv, Function.comp]
      · simp [hv, Function.comp]

lemma users_removeGroup (m : GroupsManager) (group n : String) :
    (m.removeGroup group).users n = if n = group then [] else m.users n := by
  rw [removeGroup]
  by_cases hn : n = group
  · subst hn
    cases hg : m.inner[n]? with
    | none => simp [users, hg]
    | some g => simp [users]
  · cases hg : m.inner[group]? with
    | none => simp [hn]
    | some g => simp [users, hn, ExtTreeMap.getElem?_erase, Ne.symm hn]

lemma users_newGroup (hn : name ∉ m.inner) (capacity : Option ℕ) (n : String) :
    (m.newGroup name capacity).users n = m.users n := by
  rw [users, users, newGroup]
  by_cases h : n = name
  · subst h
    simp [ExtTreeMap.getElem?_eq_none hn, Group.new]
  · simp [ExtTreeMap.getElem?_insert, Ne.symm h]

/-- A group that is removed leaves no trace in the lists of its members. -/
lemma Wf.removeGroup (hm : m.Wf) (group : String) : (m.removeGroup group).Wf where
  groups := by
    intro n g hg
    rw [GroupsManager.removeGroup] at hg
    split at hg
    · exact hm.groups n g hg
    · rw [ExtTreeMap.getElem?_erase] at hg
      split_ifs at hg
      exact hm.groups n g hg
  index := by
    intro n v
    rw [users_removeGroup]
    cases hg : m.inner[group]? with
    | none =>
        have hgroup : m.users group = [] := by rw [users, hg]
        have hindex := hm.index n v
        rw [GroupsManager.removeGroup, hg]
        split_ifs with hn
        · rw [← hindex, hn, hgroup]
        · exact hindex
    | some g =>
        have hlist : v ∈ g.userTasks.keys ↔ group ∈ m.usersGroup[v]?.getD [] := by
          rw [ExtTreeMap.mem_keys, ← (hm.groups group g hg).mem_iff, ← hm.index, users, hg]
        rw [GroupsManager.removeGroup, hg]
        dsimp only
        rw [getElem?_foldl_removeName]
        have hindex := hm.index n v
        cases hv : m.usersGroup[v]? with
        | none =>
            rw [hv] at hindex
            by_cases hn : n = group <;> simp_all
        | some names =>
            simp only [hv, Option.getD_some] at hindex hlist
            simp only [Option.map_some, Option.getD_some]
            by_cases hn : n = group
            · subst hn
              by_cases hmem : v ∈ g.userTasks.keys
              · simp [hmem]
              · simp [hmem, ← hlist]
            · rw [if_neg hn, hindex]
              by_cases hmem : v ∈ g.userTasks.keys <;> simp [hmem, hn]

lemma Wf.newGroup (hm : m.Wf) (hn : name ∉ m.inner) (capacity : Option ℕ) :
    (m.newGroup name capacity).Wf where
  groups := by
    intro n g hg
    rw [GroupsManager.newGroup, ExtTreeMap.getElem?_insert] at hg
    split_ifs at hg
    · obtain rfl := Option.some.inj hg
      exact Group.wf_new name capacity
    · exact hm.groups n g hg
  index := by
    intro n v
    rw [users_newGroup hn]
    exact hm.index n v

/-! ### What an operation keeps -/

/-- Every operation keeps the manager well formed. -/
lemma wf_step (hm : m.Wf) (hst : m.step a = some m') : m'.Wf := by
  cases a with
  | initUser user =>
      cases hst
      exact hm.initUser user
  | joinGroup name user =>
      cases hst
      rcases m.orElse_joinGroup name user with h | h
      · rwa [h]
      · exact hm.joinOrCreate user h
  | joinOrCreate user group =>
      cases hst
      exact hm.joinOrCreate user (m.joinOrCreate_orElse user group)
  | leaveGroup name user =>
      cases hst
      rw [orElse_leaveGroup]
      exact hm.leaveOrWarn user
  | removeGroup group =>
      cases hst
      exact hm.removeGroup group
  | endUser user =>
      cases hst
      exact hm.endUser user
  | newGroup name capacity =>
      simp only [step, groupExists, decide_eq_true_eq, Option.ite_none_left_eq_some] at hst
      obtain ⟨hn, hst⟩ := hst
      cases hst
      exact hm.newGroup hn capacity

/-- The lists of the users name no group twice. -/
def NamesNodup (m : GroupsManager) : Prop :=
  ∀ (u : UInt32) (names : List String), m.usersGroup[u]? = some names → names.Nodup

lemma nodup_addName {names : List String} (h : names.Nodup) (name : String) :
    (addName names name).Nodup := by
  rw [addName]
  split_ifs with hn
  · exact h
  · rw [List.nodup_append]
    exact ⟨h, List.nodup_singleton name, fun a ha b hb hab =>
      hn (List.mem_singleton.mp hb ▸ hab ▸ ha)⟩

lemma NamesNodup.joinOrCreate (hm : m.NamesNodup) (h : m.joinOrCreate user name = .ok m') :
    m'.NamesNodup := by
  rw [joinOrCreate_eq, Except.ok.injEq] at h
  subst h
  intro v names hv
  rw [ExtTreeMap.getElem?_insert] at hv
  split_ifs at hv
  · obtain rfl := Option.some.inj hv
    refine nodup_addName ?_ name
    cases hu : m.usersGroup[user]? with
    | none => exact List.nodup_nil
    | some names => exact hm user names hu
  · exact hm v names hv

/-- Names are only taken out of the lists by a leave. -/
lemma NamesNodup.leaveOrWarn (hm : m.NamesNodup) : (m.leaveOrWarn user name).NamesNodup := by
  intro v names hv
  rw [usersGroup_leaveOrWarn] at hv
  obtain ⟨names₀, hv₀, rfl⟩ := Option.map_eq_some_iff.mp hv
  have hnd := hm v names₀ hv₀
  split_ifs
  · exact hnd.filter _
  · exact hnd

lemma nodup_step (hm : m.NamesNodup) (hst : m.step a = some m') : m'.NamesNodup := by
  cases a with
  | initUser user =>
      cases hst
      intro v names hv
      rw [initUser] at hv
      split at hv
      · exact hm v names hv
      · rw [ExtTreeMap.getElem?_insert] at hv
        split_ifs at hv
        · obtain rfl := Option.some.inj hv
          exact List.nodup_nil
        · exact hm v names hv
  | joinGroup name user =>
      cases hst
      rcases m.orElse_joinGroup name user with h | h
      · rwa [h]
      · exact hm.joinOrCreate h
  | joinOrCreate user group =>
      cases hst
      exact hm.joinOrCreate (m.joinOrCreate_orElse user group)
  | leaveGroup name user =>
      cases hst
      rw [orElse_leaveGroup]
      exact hm.leaveOrWarn
  | removeGroup group =>
      cases hst
      intro v names hv
      rw [removeGroup] at hv
      split at hv
      · exact hm v names hv
      · rw [getElem?_foldl_removeName] at hv
        obtain ⟨names₀, hv₀, rfl⟩ := Option.map_eq_some_iff.mp hv
        have hnd := hm v names₀ hv₀
        split_ifs
        · exact hnd.filter _
        · exact hnd
  | endUser user =>
      cases hst
      intro v names hv
      rw [usersGroup_endUser, ExtTreeMap.getElem?_erase] at hv
      split_ifs at hv
      exact hm v names hv
  | newGroup name capacity =>
      simp only [step, Option.ite_none_left_eq_some] at hst
      obtain ⟨-, hst⟩ := hst
      cases hst
      exact hm

/-- An operation changes only the memberships it is about. -/
lemma mem_users_step (hm : m.Wf) (hst : m.step a = some m') {n : String} {v : UInt32}
    (hnot : ¬ Concerns a n v) : v ∈ m'.users n ↔ v ∈ m.users n := by
  cases a with
  | initUser user =>
      cases hst
      rw [users_initUser]
  | joinGroup name user =>
      cases hst
      rcases m.orElse_joinGroup name user with h | h
      · rw [h]
      · rw [mem_users_joinOrCreate h]
        exact or_iff_right hnot
  | joinOrCreate user group =>
      cases hst
      rw [mem_users_joinOrCreate (m.joinOrCreate_orElse user group)]
      exact or_iff_right hnot
  | leaveGroup name user =>
      cases hst
      rw [orElse_leaveGroup, mem_users_leaveOrWarn hm.groups]
      exact and_iff_left hnot
  | removeGroup group =>
      cases hst
      rw [users_removeGroup, if_neg (show ¬ n = group from hnot)]
  | endUser user =>
      cases hst
      rw [mem_users_endUser hm]
      exact and_iff_left hnot
  | newGroup name capacity =>
      simp only [step, groupExists, decide_eq_true_eq, Option.ite_none_left_eq_some] at hst
      obtain ⟨hn, hst⟩ := hst
      cases hst
      rw [users_newGroup hn]

/-! ### All histories -/

lemma Wf.indexed (hm : m.Wf) (hnd : m.NamesNodup) : m.Indexed where
  index := hm.index
  nodup := hnd
  listed := by
    intro u names hu n hn
    have hmem : u ∈ m.users n := (hm.index n u).mpr (by rwa [hu])
    cases hg : m.inner[n]? with
    | none => simp [users, hg] at hmem
    | some g => exact mem_inner_of_getElem? hg

lemma wf_of_reachable (hr : groupsMachine.Reachable m) : m.Wf ∧ m.NamesNodup := by
  refine hr.invariant (I := fun m => m.Wf ∧ m.NamesNodup) ?_ ?_
  · rintro s rfl
    exact ⟨wf_new, by simp [NamesNodup, new]⟩
  · exact fun s a t hs hst => ⟨wf_step hs.1 hst, nodup_step hs.2 hst⟩

/-- **The index of a groups manager**: after any history of operations the two tables agree,
the next operation changes only the memberships it is about, and no group has a user that
was ended. -/
theorem index_consistent (hr : groupsMachine.Reachable m) :
    m.Indexed ∧
      (∀ (a : GroupsAction) (m' : GroupsManager), groupsMachine.step m a = some m' →
        ∀ (n : String) (v : UInt32), ¬ Concerns a n v → (v ∈ m'.users n ↔ v ∈ m.users n)) ∧
      ∀ (user : UInt32) (n : String), user ∉ (m.endUser user).users n := by
  obtain ⟨hm, hnd⟩ := wf_of_reachable hr
  refine ⟨hm.indexed hnd, fun a m' hst n v hnot => mem_users_step hm hst hnot, fun user n h => ?_⟩
  exact ((mem_users_endUser hm user n user).mp h).2 rfl

/-- A history in which a user joins two groups, leaves one, and the other one is removed. -/
def comings : List GroupsAction :=
  [.initUser 1, .joinOrCreate 1 "a", .joinOrCreate 1 "b", .joinOrCreate 2 "b",
    .leaveGroup "a" 1, .removeGroup "b"]

/-- The tables after this history. -/
theorem index_consistent_comings :
    ∃ m, groupsMachine.exec .new comings = some m ∧ m.Indexed :=
  ⟨_, rfl, (index_consistent ⟨.new, comings, rfl, rfl⟩).1⟩

end GroupsManager

end SfuServer
