import SfuServer.Ws.Group

/-!
The groups of a room, `GroupsManager` of `libs/libws/src/lib.rs`.

The manager has two tables: the groups by name, and for each user the names of the groups it
joined.

* `joinGroup`, `joinOrCreate`, `leaveGroup`, `initUser`, `endUser`: the operations on the two;
* `mapGroup`: what happens on a group outside the manager, by those who hold its channels;
* `users`: who is a member of the group of a name;
* `Wf`: every group is well formed, and the table of the users lists exactly the groups that
  each one is a member of.  Every operation keeps it (`Wf.joinOrCreate`, `Wf.leaveOrWarn`,
  `Wf.initUser`, `Wf.endUser`, `Wf.mapGroup`);
* `mem_users_joinOrCreate`, `mem_users_leaveOrWarn`, `mem_users_endUser`: what the operations
  do to membership.
-/

open Std (ExtTreeMap)

namespace SfuServer

/-- `GroupError` of `libws`. -/
inductive GroupError where
  | groupNotFound
  | messageSendFail
  | notInitiated
  deriving DecidableEq, Repr

/-- The text that a client is sent for an error. -/
def GroupError.text : GroupError → String
  | .groupNotFound => "target group not found"
  | .messageSendFail => "failed to send message to the group"
  | .notInitiated => "user is not initiated"

/-- `GroupsManager` of `libws`. -/
structure GroupsManager where
  inner : ExtTreeMap String Group
  usersGroup : ExtTreeMap UInt32 (List String)

namespace GroupsManager

/-- `GroupsManager::new`. -/
def new : GroupsManager := ⟨∅, ∅⟩

/-- `GroupsManager::new_group`: a group of that name is replaced. -/
def newGroup (m : GroupsManager) (name : String) (capacity : Option ℕ) : GroupsManager :=
  { m with inner := m.inner.insert name (Group.new name capacity) }

/-- `GroupsManager::group_exists`. -/
def groupExists (m : GroupsManager) (name : String) : Bool := name ∈ m.inner

/-- `GroupsManager::init_user`. -/
def initUser (m : GroupsManager) (user : UInt32) : GroupsManager :=
  match m.usersGroup[user]? with
  | some _ => m
  | none => { m with usersGroup := m.usersGroup.insert user [] }

/-- A name added to a list that does not have it. -/
def addName (names : List String) (name : String) : List String :=
  if name ∈ names then names else names ++ [name]

lemma mem_addName {names : List String} {name n : String} :
    n ∈ addName names name ↔ n = name ∨ n ∈ names := by
  rw [addName]
  split_ifs with h
  · exact ⟨.inr, fun hn => hn.elim (fun e => e ▸ h) id⟩
  · simp [or_comm]

/-- `GroupsManager::join_group`. -/
def joinGroup (m : GroupsManager) (name : String) (user : UInt32) :
    Except GroupError GroupsManager :=
  match m.inner[name]? with
  | none => .error .groupNotFound
  | some g =>
      .ok {
        inner := m.inner.insert name (g.join user none)
        usersGroup := m.usersGroup.insert user (addName (m.usersGroup[user]?.getD []) name) }

/-- `GroupsManager::join_or_create`. -/
def joinOrCreate (m : GroupsManager) (user : UInt32) (group : String) :
    Except GroupError GroupsManager :=
  if m.groupExists group then m.joinGroup group user
  else (m.newGroup group none).joinGroup group user

/-- `GroupsManager::leave_group`. -/
def leaveGroup (m : GroupsManager) (name : String) (user : UInt32) :
    Except GroupError GroupsManager :=
  match m.inner[name]? with
  | none => .error .groupNotFound
  | some g =>
      .ok {
        inner := m.inner.insert name (g.leave user)
        usersGroup :=
          match m.usersGroup[user]? with
          | some names => m.usersGroup.insert user (names.filter (· != name))
          | none => m.usersGroup }

/-- A leave whose failure is only logged. -/
def leaveOrWarn (user : UInt32) (m : GroupsManager) (name : String) : GroupsManager :=
  match m.leaveGroup name user with
  | .ok m => m
  | .error _ => m

/-- `GroupsManager::end_user`: the entry of the user goes first. -/
def endUser (m : GroupsManager) (user : UInt32) : GroupsManager :=
  match m.usersGroup[user]? with
  | some groupNames =>
      groupNames.foldl (leaveOrWarn user) { m with usersGroup := m.usersGroup.erase user }
  | none => m

/-- A name taken out of the list of a user, if the user has one. -/
def removeName (name : String) (usersGroup : ExtTreeMap UInt32 (List String)) (user : UInt32) :
    ExtTreeMap UInt32 (List String) :=
  match usersGroup[user]? with
  | some names => usersGroup.insert user (names.filter (· != name))
  | none => usersGroup

/-- `GroupsManager::remove_group`: the name goes from the lists of all users who have a task
in the group. -/
def removeGroup (m : GroupsManager) (group : String) : GroupsManager :=
  match m.inner[group]? with
  | none => m
  | some g =>
      { inner := m.inner.erase group
        usersGroup := g.userTasks.keys.foldl (removeName group) m.usersGroup }

/-- `GroupsManager::get_user_sender`: the handle of the user's channel in the group.  The
inner `none` is the panic on a user that the group has no sender for. -/
def getUserSender (m : GroupsManager) (group : String) (user : UInt32) :
    Except GroupError (Option ℕ) :=
  match m.inner[group]? with
  | none => .error .groupNotFound
  | some g => .ok g.userSenders[user]?

/-- A group replaced by its image under `f`. -/
def mapGroup (m : GroupsManager) (name : String) (f : Group → Group) : GroupsManager :=
  match m.inner[name]? with
  | some g => { m with inner := m.inner.insert name (f g) }
  | none => m

/-- The members of the group of that name. -/
def users (m : GroupsManager) (name : String) : List UInt32 :=
  match m.inner[name]? with
  | some g => g.innerUser
  | none => []

/-- Well-formed managers: the groups are well formed, and the table of the users says which
groups each one is a member of. -/
structure Wf (m : GroupsManager) : Prop where
  groups : ∀ (name : String) (g : Group), m.inner[name]? = some g → g.Wf
  index : ∀ (name : String) (u : UInt32),
    u ∈ m.users name ↔ name ∈ m.usersGroup[u]?.getD []

/-- A property that every group has. -/
def ForallGroups (P : Group → Prop) (m : GroupsManager) : Prop :=
  ∀ (name : String) (g : Group), m.inner[name]? = some g → P g

lemma users_congr {m m' : GroupsManager} {name : String} (h : m.inner[name]? = m'.inner[name]?) :
    m.users name = m'.users name := by
  rw [users, users, h]

/-! ### What the operations do to the groups -/

section Groups

variable {m m' : GroupsManager} {name : String} {user : UInt32}

lemma mem_inner_of_getElem? {g : Group} (h : m.inner[name]? = some g) : name ∈ m.inner := by
  rw [ExtTreeMap.mem_iff_isSome_getElem?, h]
  rfl

lemma not_mem_inner_of_getElem? (h : m.inner[name]? = none) : name ∉ m.inner := by
  rw [ExtTreeMap.mem_iff_isSome_getElem?, h]
  simp

lemma inner_leaveOrWarn (m : GroupsManager) (user : UInt32) (name n : String) :
    (m.leaveOrWarn user name).inner[n]? =
      m.inner[n]?.map fun g => if n = name then g.leave user else g := by
  rw [leaveOrWarn, leaveGroup]
  by_cases hn : n = name
  · subst hn
    cases hg : m.inner[n]? with
    | none => simp [hg]
    | some g => simp
  · cases hg : m.inner[name]? with
    | none => simp [hn]
    | some g => simp [ExtTreeMap.getElem?_insert, Ne.symm hn, hn]

lemma joinOrCreate_eq (m : GroupsManager) (user : UInt32) (name : String) :
    m.joinOrCreate user name = .ok {
      inner := m.inner.insert name ((m.inner[name]?.getD (Group.new name none)).join user none)
      usersGroup := m.usersGroup.insert user (addName (m.usersGroup[user]?.getD []) name) } := by
  have htwice : ∀ g₁ g₂ : Group, (m.inner.insert name g₁).insert name g₂ =
      m.inner.insert name g₂ := by
    intro g₁ g₂
    ext n g
    simp only [ExtTreeMap.getElem?_insert]
    split_ifs <;> rfl
  rw [joinOrCreate, groupExists]
  cases hg : m.inner[name]? with
  | none => simp [not_mem_inner_of_getElem? hg, joinGroup, newGroup, htwice]
  | some g => simp only [mem_inner_of_getElem? hg, joinGroup, hg, decide_true, if_true,
      Option.getD_some]

lemma usersGroup_leaveOrWarn (m : GroupsManager) (user : UInt32) (name : String) (v : UInt32) :
    (m.leaveOrWarn user name).usersGroup[v]? = m.usersGroup[v]?.map fun names =>
      if v = user ∧ name ∈ m.inner then names.filter (· != name) else names := by
  rw [leaveOrWarn, leaveGroup]
  cases hg : m.inner[name]? with
  | none => simp [not_mem_inner_of_getElem? hg]
  | some g =>
      simp only [mem_inner_of_getElem? hg, and_true]
      by_cases hv : v = user
      · subst hv
        cases hu : m.usersGroup[v]? with
        | none => simp [hu]
        | some names => simp
      · cases m.usersGroup[user]? with
        | none => simp [hv]
        | some names => simp [ExtTreeMap.getElem?_insert, Ne.symm hv, hv]

/-- What the leaves of a list of groups do to the groups. -/
lemma ForallGroups.foldl_leaveOrWarn {P : Group → Prop} (hP : ∀ g, P g → P (g.leave user))
    (names : List String) (hm : ForallGroups P m) :
    ForallGroups P (names.foldl (leaveOrWarn user) m) := by
  induction names generalizing m with
  | nil => exact hm
  | cons n names ih =>
      refine ih fun k g hk => ?_
      rw [inner_leaveOrWarn] at hk
      obtain ⟨g₀, hg₀, rfl⟩ := Option.map_eq_some_iff.mp hk
      have := hm k g₀ hg₀
      split_ifs
      · exact hP g₀ this
      · exact this

/-- A user leaves the groups of a list, each of them once. -/
lemma inner_foldl_leaveOrWarn (hm : ForallGroups Group.Wf m) (user : UInt32)
    (names : List String) (n : String) :
    (names.foldl (leaveOrWarn user) m).inner[n]? =
      m.inner[n]?.map fun g => if n ∈ names then g.leave user else g := by
  induction names generalizing m with
  | nil => simp
  | cons k names ih =>
      have hk : ForallGroups Group.Wf (m.leaveOrWarn user k) :=
        ForallGroups.foldl_leaveOrWarn (fun g hg => hg.leave user) [k] hm
      rw [List.foldl_cons, ih hk, inner_leaveOrWarn]
      cases hg : m.inner[n]? with
      | none => rfl
      | some g =>
          have hleave := Group.leave_leave (hm n g hg).nodup user
          by_cases hn : n = k <;> by_cases hnames : n ∈ names <;> simp [hn, hnames, hleave]

/-- Leaves of a user without an entry do not change the table of the users. -/
lemma usersGroup_foldl_leaveOrWarn (names : List String) (hu : m.usersGroup[user]? = none) :
    (names.foldl (leaveOrWarn user) m).usersGroup = m.usersGroup := by
  induction names generalizing m with
  | nil => rfl
  | cons n names ih =>
      have hstep : (m.leaveOrWarn user n).usersGroup = m.usersGroup := by
        ext v ns
        rw [usersGroup_leaveOrWarn]
        by_cases hv : v = user
        · simp [hv, hu]
        · simp [hv]
      rw [List.foldl_cons, ih (by rw [hstep, hu]), hstep]

/-- Ending a user removes its entry in the table of the users, and no other. -/
lemma usersGroup_endUser (m : GroupsManager) (user : UInt32) :
    (m.endUser user).usersGroup = m.usersGroup.erase user := by
  rw [endUser]
  cases hu : m.usersGroup[user]? with
  | none =>
      ext v ns
      rw [ExtTreeMap.getElem?_erase]
      split_ifs with hv
      · simp [← Std.LawfulEqCmp.compare_eq_iff_eq.mp hv, hu]
      · rfl
  | some names => exact usersGroup_foldl_leaveOrWarn names (by simp)

lemma ForallGroups.endUser {P : Group → Prop} (hP : ∀ g, P g → P (g.leave user))
    (hm : ForallGroups P m) : ForallGroups P (m.endUser user) := by
  rw [GroupsManager.endUser]
  split
  · exact ForallGroups.foldl_leaveOrWarn hP _ hm
  · exact hm

lemma ForallGroups.leaveOrWarn {P : Group → Prop} (hP : ∀ g, P g → P (g.leave user))
    (hm : ForallGroups P m) : ForallGroups P (m.leaveOrWarn user name) :=
  ForallGroups.foldl_leaveOrWarn hP [name] hm

lemma ForallGroups.joinOrCreate {P : Group → Prop} (hnew : P (Group.new name none))
    (hP : ∀ g, P g → P (g.join user none)) (hm : ForallGroups P m)
    (h : m.joinOrCreate user name = .ok m') : ForallGroups P m' := by
  rw [joinOrCreate_eq, Except.ok.injEq] at h
  subst h
  intro n g hg
  rw [ExtTreeMap.getElem?_insert] at hg
  split_ifs at hg with hn
  · rw [Option.some.injEq] at hg
    subst hg
    cases hg₀ : m.inner[name]? with
    | none => exact hP _ hnew
    | some g₀ => exact hP _ (hm name g₀ hg₀)
  · exact hm n g hg

lemma inner_mapGroup (m : GroupsManager) (name : String) (f : Group → Group) (n : String) :
    (m.mapGroup name f).inner[n]? =
      m.inner[n]?.map fun g => if n = name then f g else g := by
  rw [mapGroup]
  by_cases hn : n = name
  · subst hn
    cases hg : m.inner[n]? with
    | none => simp [hg]
    | some g => simp
  · cases hg : m.inner[name]? with
    | none => simp [hn]
    | some g => simp [ExtTreeMap.getElem?_insert, Ne.symm hn, hn]

@[simp] lemma usersGroup_mapGroup (m : GroupsManager) (name : String) (f : Group → Group) :
    (m.mapGroup name f).usersGroup = m.usersGroup := by
  rw [mapGroup]
  split <;> rfl

lemma ForallGroups.mapGroup {P : Group → Prop} {f : Group → Group}
    (hP : ∀ g, m.inner[name]? = some g → P g → P (f g)) (hm : ForallGroups P m) :
    ForallGroups P (m.mapGroup name f) := by
  intro n g hg
  rw [inner_mapGroup] at hg
  obtain ⟨g₀, hg₀, rfl⟩ := Option.map_eq_some_iff.mp hg
  have := hm n g₀ hg₀
  split_ifs with hn
  · exact hP g₀ (hn ▸ hg₀) this
  · exact this

@[simp] lemma inner_initUser (m : GroupsManager) (user : UInt32) :
    (m.initUser user).inner = m.inner := by
  rw [initUser]
  split <;> rfl

end Groups

/-! ### Membership -/

section Membership

variable {m m' : GroupsManager} {name : String} {user : UInt32}

@[simp] lemma users_initUser (m : GroupsManager) (user : UInt32) (name : String) :
    (m.initUser user).users name = m.users name :=
  users_congr (by rw [inner_initUser])

/-- What happens outside the manager changes no membership. -/
lemma users_mapGroup {f : Group → Group}
    (hf : ∀ g, m.inner[name]? = some g → (f g).innerUser = g.innerUser) (n : String) :
    (m.mapGroup name f).users n = m.users n := by
  rw [users, users, inner_mapGroup]
  cases hg : m.inner[n]? with
  | none => rfl
  | some g =>
      simp only [Option.map_some]
      split_ifs with hn
      · exact hf g (hn ▸ hg)
      · rfl

/-- Who is a member after a join. -/
lemma mem_users_joinOrCreate (h : m.joinOrCreate user name = .ok m') (n : String) (v : UInt32) :
    v ∈ m'.users n ↔ n = name ∧ v = user ∨ v ∈ m.users n := by
  rw [joinOrCreate_eq, Except.ok.injEq] at h
  subst h
  by_cases hn : n = name
  · subst hn
    cases hg : m.inner[n]? with
    | none => simp [users, hg, Group.new]
    | some g => simp [users, hg]
  · simp [users, hn, ExtTreeMap.getElem?_insert, Ne.symm hn]

/-- Who is a member after a leave. -/
lemma mem_users_leaveOrWarn (hm : ForallGroups Group.Wf m) (user : UInt32) (name n : String)
    (v : UInt32) :
    v ∈ (m.leaveOrWarn user name).users n ↔ v ∈ m.users n ∧ ¬ (n = name ∧ v = user) := by
  rw [users, users, inner_leaveOrWarn]
  cases hg : m.inner[n]? with
  | none => simp
  | some g =>
      simp only [Option.map_some]
      split_ifs with hn
      · simp [Group.mem_innerUser_leave (hm n g hg).nodup, hn]
      · simp [hn]

lemma mem_users_foldl_leaveOrWarn (hm : ForallGroups Group.Wf m) (user : UInt32)
    (names : List String) (n : String) (v : UInt32) :
    v ∈ (names.foldl (leaveOrWarn user) m).users n ↔
      v ∈ m.users n ∧ ¬ (n ∈ names ∧ v = user) := by
  induction names generalizing m with
  | nil => simp
  | cons k names ih =>
      have hk : ForallGroups Group.Wf (m.leaveOrWarn user k) :=
        hm.leaveOrWarn fun g hg => hg.leave user
      rw [List.foldl_cons, ih hk, mem_users_leaveOrWarn hm, List.mem_cons]
      tauto

/-- Who is a member after a user was ended, in a well-formed manager. -/
lemma mem_users_endUser (hm : m.Wf) (user : UInt32) (n : String) (v : UInt32) :
    v ∈ (m.endUser user).users n ↔ v ∈ m.users n ∧ v ≠ user := by
  have hindex := hm.index n v
  rw [endUser]
  cases hu : m.usersGroup[user]? with
  | none =>
      refine ⟨fun h => ⟨h, ?_⟩, And.left⟩
      rintro rfl
      simp [hu, h] at hindex
  | some names =>
      have hmem :=
        mem_users_foldl_leaveOrWarn (m := { m with usersGroup := m.usersGroup.erase user })
          hm.groups user names n v
      refine hmem.trans (and_congr_right fun hv => ?_)
      change v ∈ m.users n at hv
      refine ⟨?_, fun hne h => hne h.2⟩
      rintro hnot rfl
      simp only [hu, Option.getD_some, hv, true_iff] at hindex
      exact hnot ⟨hindex, rfl⟩

end Membership

/-! ### Well-formed managers -/

lemma wf_new : new.Wf where
  groups := by simp [new]
  index := by simp [new, users]

namespace Wf

variable {m m' : GroupsManager} {name : String} (hm : m.Wf) (user : UInt32)
include hm

lemma initUser : (m.initUser user).Wf where
  groups := by simpa using hm.groups
  index := by
    intro n v
    rw [users_initUser, hm.index, GroupsManager.initUser]
    cases hu : m.usersGroup[user]? with
    | some names => rfl
    | none =>
        by_cases hv : v = user
        · simp [hv, hu]
        · simp [ExtTreeMap.getElem?_insert, Ne.symm hv]

omit user in
lemma mapGroup {f : Group → Group}
    (hf : ∀ g, m.inner[name]? = some g → (f g).Wf ∧ (f g).innerUser = g.innerUser) :
    (m.mapGroup name f).Wf where
  groups := ForallGroups.mapGroup (fun g hg _ => (hf g hg).1) hm.groups
  index := by
    intro n v
    rw [users_mapGroup (fun g hg => (hf g hg).2), usersGroup_mapGroup, hm.index]

lemma joinOrCreate (h : m.joinOrCreate user name = .ok m') : m'.Wf where
  groups := ForallGroups.joinOrCreate (Group.wf_new name none) (fun _ hg => hg.join user none)
    hm.groups h
  index := by
    intro n v
    rw [mem_users_joinOrCreate h, hm.index]
    rw [joinOrCreate_eq, Except.ok.injEq] at h
    subst h
    by_cases hv : v = user
    · simp [hv, mem_addName]
    · simp [hv, ExtTreeMap.getElem?_insert, Ne.symm hv]

lemma leaveOrWarn : (m.leaveOrWarn user name).Wf where
  groups := ForallGroups.leaveOrWarn (fun _ hg => hg.leave user) hm.groups
  index := by
    intro n v
    rw [mem_users_leaveOrWarn hm.groups, hm.index, usersGroup_leaveOrWarn]
    cases hu : m.usersGroup[v]? with
    | none => simp
    | some names =>
        simp only [Option.getD_some, Option.map_some]
        split_ifs with hv
        · simp [hv.1]
        · refine and_iff_left_of_imp fun hn => ?_
          rintro ⟨rfl, rfl⟩
          have hmem : v ∈ m.users n := (hm.index n v).mpr (by simpa [hu] using hn)
          refine hv ⟨rfl, ?_⟩
          rw [ExtTreeMap.mem_iff_isSome_getElem?]
          cases hg : m.inner[n]? with
          | none => simp [users, hg] at hmem
          | some g => rfl

lemma endUser : (m.endUser user).Wf where
  groups := ForallGroups.endUser (fun _ hg => hg.leave user) hm.groups
  index := by
    intro n v
    rw [mem_users_endUser hm, hm.index, usersGroup_endUser]
    by_cases hv : v = user
    · simp [hv]
    · simp [hv, ExtTreeMap.getElem?_erase, Ne.symm hv]

/-- The channel of a member can be looked up. -/
lemma exists_getUserSender (hu : user ∈ m.users name) :
    ∃ k, m.getUserSender name user = .ok (some k) := by
  rw [users] at hu
  rw [getUserSender]
  cases hg : m.inner[name]? with
  | none => simp [hg] at hu
  | some g =>
      rw [hg] at hu
      have hwf := hm.groups name g hg
      have htask := (hwf.mem_iff user).mp hu
      rw [ExtTreeMap.mem_iff_isSome_getElem?, ← hwf.senders] at htask
      obtain ⟨k, hk⟩ := Option.isSome_iff_exists.mp htask
      exact ⟨k, congrArg _ hk⟩

end Wf

end GroupsManager

end SfuServer
