import SfuServer.Lib.Machine
import SfuServer.Ws.GroupsManager

/-!
Concurrent calls of `GroupsManager::join_or_create` for one group.

The manager locks its table inside of each method, so a call that runs by itself takes the
lock up to three times: to look the group up, to create it, which replaces a group of the
name, and to join it.

* `JoinSystem`, `JoinAction`, `joinMachine`: the manager with the calls, and what can happen
  between two acquisitions of the lock;
* `exec_joinOrCreate`: a call that nobody interrupts is `joinOrCreate`;
* `joined_iff`: when all calls have returned, everybody is a member of the group that is stored
  and has its sender, exactly if no call created the group after another one had joined.
-/

open Std (ExtTreeMap)

namespace SfuServer

/-- How far a call of `join_or_create` is: it is about to look the group up, to create it, or
to join it, or it has returned an error or the handle of a sender. -/
inductive JoinStage where
  | checking
  | creating
  | joining
  | returned (result : Except GroupError ℕ)
  deriving DecidableEq

/-- A call of `join_or_create`. -/
structure JoinCall where
  user : UInt32
  stage : JoinStage
  deriving DecidableEq

/-- The call has returned `Ok`. -/
def JoinCall.Returned (c : JoinCall) : Prop := ∃ k, c.stage = .returned (.ok k)

instance (c : JoinCall) : Decidable c.Returned :=
  match h : c.stage with
  | .returned (.ok k) => isTrue ⟨k, h⟩
  | .returned (.error _) | .checking | .creating | .joining =>
      isFalse (by simp [JoinCall.Returned, h])

/-- A groups manager and the calls for one of its groups.  `sender` is the handle of the channel
of the group that is stored under the name; a group that is created comes with a new one. -/
structure JoinSystem where
  group : String
  manager : GroupsManager
  sender : ℕ
  calls : List JoinCall

/-- A call takes the lock: for `group_exists`, for `new_group` or for `join_group`. -/
inductive JoinAction where
  | check (i : ℕ)
  | create (i : ℕ)
  | join (i : ℕ)
  deriving DecidableEq

namespace JoinSystem

/-- The next stage of a call. -/
def setStage (s : JoinSystem) (i : ℕ) (c : JoinCall) (stage : JoinStage) : JoinSystem :=
  { s with calls := s.calls.set i { c with stage := stage } }

/-- `GroupsManager::group_exists`, in `join_or_create`. -/
def checkStep (s : JoinSystem) (i : ℕ) : Option JoinSystem :=
  s.calls[i]?.bind fun c =>
    if c.stage = .checking then
      some (s.setStage i c (if s.manager.groupExists s.group then .joining else .creating))
    else none

/-- `GroupsManager::new_group`, in `join_or_create`. -/
def createStep (s : JoinSystem) (i : ℕ) : Option JoinSystem :=
  s.calls[i]?.bind fun c =>
    if c.stage = .creating then
      some ({ s with
        manager := s.manager.newGroup s.group none
        sender := s.sender + 1 }.setStage i c .joining)
    else none

/-- `GroupsManager::join_group`, in `join_or_create`. -/
def joinStep (s : JoinSystem) (i : ℕ) : Option JoinSystem :=
  s.calls[i]?.bind fun c =>
    if c.stage = .joining then
      match s.manager.joinGroup s.group c.user with
      | .error e => some (s.setStage i c (.returned (.error e)))
      | .ok m => some ({ s with manager := m }.setStage i c (.returned (.ok s.sender)))
    else none

/-- One step of the system. -/
def step (s : JoinSystem) : JoinAction → Option JoinSystem
  | .check i => s.checkStep i
  | .create i => s.createStep i
  | .join i => s.joinStep i

end JoinSystem

/-- The machine of the calls: they begin, with any manager. -/
def joinMachine : Machine JoinSystem JoinAction where
  init s := ∀ c ∈ s.calls, c.stage = .checking
  step := JoinSystem.step

namespace JoinSystem

variable {s t : JoinSystem} {a : JoinAction} {i : ℕ} {c : JoinCall}

/-- All calls have returned `Ok`. -/
def AllReturned (s : JoinSystem) : Prop := ∀ c ∈ s.calls, c.Returned

instance (s : JoinSystem) : Decidable s.AllReturned :=
  inferInstanceAs (Decidable (∀ c ∈ s.calls, c.Returned))

/-- Every user is a member of the group that is stored, and has its sender. -/
def Joined (s : JoinSystem) : Prop :=
  ∀ c ∈ s.calls, c.user ∈ s.manager.users s.group ∧ c.stage = .returned (.ok s.sender)

instance (s : JoinSystem) : Decidable s.Joined :=
  inferInstanceAs (Decidable (∀ c ∈ s.calls, _ ∧ _))

/-- The calls that have returned a sender have the one of the group that is stored. -/
def Kept (s : JoinSystem) : Prop :=
  ∀ c ∈ s.calls, ∀ k, c.stage = .returned (.ok k) → k = s.sender

/-- A group is created only before anybody has joined. -/
def CreatesFirst (s : JoinSystem) : JoinAction → Prop
  | .create _ => ∀ c ∈ s.calls, ¬ c.Returned
  | .check _ | .join _ => True

instance (s : JoinSystem) (a : JoinAction) : Decidable (s.CreatesFirst a) :=
  match a with
  | .create _ => inferInstanceAs (Decidable (∀ c ∈ s.calls, ¬ c.Returned))
  | .check _ | .join _ => isTrue trivial

/-! ### What the steps do -/

/-- What a step does: a call moves on, and the group is left alone, is created, or gets a new
member. -/
inductive Effect (s : JoinSystem) (t : JoinSystem) : JoinAction → Prop
  | moved {a : JoinAction} {i : ℕ} {c : JoinCall} {stage : JoinStage}
      (create : ∀ j, a ≠ .create j) (call : s.calls[i]? = some c)
      (before : ∀ k, c.stage ≠ .returned (.ok k)) (after : ∀ k, stage ≠ .returned (.ok k))
      (eq : t = s.setStage i c stage) : Effect s t a
  | created {i : ℕ} {c : JoinCall} (call : s.calls[i]? = some c)
      (before : ∀ k, c.stage ≠ .returned (.ok k))
      (eq : t = { s with
        manager := s.manager.newGroup s.group none
        sender := s.sender + 1 }.setStage i c .joining) : Effect s t (.create i)
  | joined {i : ℕ} {c : JoinCall} {m : GroupsManager} (call : s.calls[i]? = some c)
      (before : ∀ k, c.stage ≠ .returned (.ok k))
      (manager : s.manager.joinGroup s.group c.user = .ok m)
      (eq : t = { s with manager := m }.setStage i c (.returned (.ok s.sender))) :
      Effect s t (.join i)

lemma effect_of_step (h : s.step a = some t) : Effect s t a := by
  cases a with
  | check i =>
      simp only [step, checkStep, Option.bind_eq_some_iff, Option.ite_none_right_eq_some,
        Option.some.injEq] at h
      obtain ⟨c, hc, hstage, rfl⟩ := h
      refine .moved (by simp) hc (by simp [hstage]) (fun k => ?_) rfl
      split_ifs <;> simp
  | create i =>
      simp only [step, createStep, Option.bind_eq_some_iff, Option.ite_none_right_eq_some,
        Option.some.injEq] at h
      obtain ⟨c, hc, hstage, rfl⟩ := h
      exact .created hc (by simp [hstage]) rfl
  | join i =>
      simp only [step, joinStep, Option.bind_eq_some_iff, Option.ite_none_right_eq_some] at h
      obtain ⟨c, hc, hstage, h⟩ := h
      split at h
      · cases h
        exact .moved (by simp) hc (by simp [hstage]) (by simp) rfl
      · rename_i m hm
        cases h
        exact .joined hc (by simp [hstage]) hm rfl

/-- The calls after one of them moved on. -/
lemma mem_calls_setStage {stage : JoinStage} {d : JoinCall}
    (hd : d ∈ (s.setStage i c stage).calls) : d = { c with stage := stage } ∨ d ∈ s.calls :=
  (List.mem_or_eq_of_mem_set hd).symm

@[simp] lemma setStage_manager (stage : JoinStage) :
    (s.setStage i c stage).manager = s.manager := rfl

@[simp] lemma setStage_group (stage : JoinStage) : (s.setStage i c stage).group = s.group := rfl

@[simp] lemma setStage_sender (stage : JoinStage) :
    (s.setStage i c stage).sender = s.sender := rfl

/-- A call that has returned a sender stays as it is. -/
lemma returned_step (h : s.step a = some t) {d : JoinCall} {k : ℕ} (hd : d ∈ s.calls)
    (hk : d.stage = .returned (.ok k)) : d ∈ t.calls := by
  have hne : ∀ c : JoinCall, (∀ k, c.stage ≠ .returned (.ok k)) → d ≠ c := by
    rintro c hbefore rfl
    exact hbefore k hk
  cases effect_of_step h with
  | moved _ hc hbefore _ ht => exact ht ▸ Vec.mem_set_of_ne hc hd (hne _ hbefore)
  | created hc hbefore ht =>
      exact ht ▸ Vec.mem_set_of_ne hc hd (hne _ hbefore)
  | joined hc hbefore _ ht =>
      exact ht ▸ Vec.mem_set_of_ne hc hd (hne _ hbefore)

/-! ### Who is lost -/

/-- A sender that was returned is that of the group that is stored, whose member the user then
is, or of one that was stored before. -/
def Recorded (s : JoinSystem) : Prop :=
  ∀ c ∈ s.calls, ∀ k, c.stage = .returned (.ok k) →
    k ≤ s.sender ∧ (k = s.sender → c.user ∈ s.manager.users s.group)

lemma recorded_of_init (h : joinMachine.init s) : s.Recorded := by
  intro c hc k hk
  rw [h c hc] at hk
  cases hk

/-- Who has joined is a member of the group, and nobody else leaves it. -/
lemma mem_users_joinGroup {m m' : GroupsManager} {name : String} {user v : UInt32}
    (h : m.joinGroup name user = .ok m') :
    v ∈ m'.users name ↔ v = user ∨ v ∈ m.users name := by
  rw [GroupsManager.joinGroup] at h
  cases hg : m.inner[name]? with
  | none => simp [hg] at h
  | some g =>
      simp only [hg, Except.ok.injEq] at h
      subst h
      simp [GroupsManager.users, hg]

lemma recorded_step (hs : s.Recorded) (h : s.step a = some t) : t.Recorded := by
  intro d hd k hk
  cases effect_of_step h with
  | moved _ _ _ hafter ht =>
      subst ht
      rcases mem_calls_setStage hd with rfl | hd
      · exact absurd hk (hafter k)
      · exact hs d hd k hk
  | created _ _ ht =>
      subst ht
      rcases mem_calls_setStage hd with rfl | hd
      · cases hk
      · have hle : k ≤ s.sender := (hs d hd k hk).1
        refine ⟨Nat.le_succ_of_le hle, fun heq => ?_⟩
        have heq : k = s.sender + 1 := heq
        omega
  | joined _ _ hm ht =>
      subst ht
      rcases mem_calls_setStage hd with rfl | hd
      · obtain rfl : s.sender = k := by simpa using hk
        exact ⟨le_rfl, fun _ => (mem_users_joinGroup hm).mpr (.inl rfl)⟩
      · obtain ⟨hle, hmem⟩ := hs d hd k hk
        exact ⟨hle, fun heq => (mem_users_joinGroup hm).mpr (.inr (hmem heq))⟩

/-- A group is replaced at most once in a step, by its creation. -/
lemma sender_step (h : s.step a = some t) :
    t.sender = s.sender ∧ (∀ j, a ≠ .create j) ∨ t.sender = s.sender + 1 ∧ ∃ j, a = .create j := by
  cases effect_of_step h with
  | moved hcreate _ _ _ ht => exact .inl ⟨by rw [ht, setStage_sender], hcreate⟩
  | created _ _ ht => exact .inr ⟨by rw [ht, setStage_sender], _, rfl⟩
  | joined _ _ _ ht => exact .inl ⟨by rw [ht, setStage_sender], by simp⟩

/-- A sender that is no longer that of the group never is again. -/
lemma kept_of_step (hs : s.Recorded) (h : s.step a = some t) (ht : t.Kept) : s.Kept := by
  intro c hc k hk
  have hle : k ≤ s.sender := (hs c hc k hk).1
  have heq : k = t.sender := ht c (returned_step h hc hk) k hk
  rcases sender_step h with ⟨hsender, -⟩ | ⟨hsender, -⟩
  · rw [heq, hsender]
  · omega

/-- A step keeps the senders that were returned exactly if it creates no group after one of
them was. -/
lemma kept_step_iff (hs : s.Recorded) (hkept : s.Kept) (h : s.step a = some t) :
    t.Kept ↔ s.CreatesFirst a := by
  constructor
  · intro ht
    cases a with
    | check i => trivial
    | join i => trivial
    | create i =>
        rintro c hc ⟨k, hk⟩
        have hle : k ≤ s.sender := (hs c hc k hk).1
        have heq : k = t.sender := ht c (returned_step h hc hk) k hk
        rcases sender_step h with ⟨-, hne⟩ | ⟨hsender, -⟩
        · exact hne i rfl
        · omega
  · intro hok d hd k hk
    cases effect_of_step h with
    | moved _ _ _ hafter ht =>
        subst ht
        rcases mem_calls_setStage hd with rfl | hd
        · exact absurd hk (hafter k)
        · exact hkept d hd k hk
    | created _ _ ht =>
        subst ht
        rcases mem_calls_setStage hd with rfl | hd
        · cases hk
        · exact absurd ⟨k, hk⟩ (hok d hd)
    | joined _ _ _ ht =>
        subst ht
        rcases mem_calls_setStage hd with rfl | hd
        · simpa using hk.symm
        · exact hkept d hd k hk

/-- When all calls have returned, the senders are right exactly if everybody is a member. -/
lemma joined_iff_kept (hs : s.Recorded) (hall : s.AllReturned) : s.Joined ↔ s.Kept := by
  constructor
  · intro hj c hc k hk
    have hstage := (hj c hc).2.symm.trans hk
    simpa using hstage.symm
  · intro hkept c hc
    obtain ⟨k, hk⟩ := hall c hc
    obtain rfl := hkept c hc k hk
    exact ⟨(hs c hc _ hk).2 rfl, hk⟩

/-- **Calls by themselves**: a call that nobody interrupts does what `joinOrCreate` says. -/
lemma exec_joinOrCreate (hc : s.calls[i]? = some c) (hstage : c.stage = .checking)
    {m : GroupsManager} (hm : s.manager.joinOrCreate c.user s.group = .ok m) :
    ∃ as t, joinMachine.exec s as = some t ∧ t.manager = m ∧
      t.calls = s.calls.set i { c with stage := .returned (.ok t.sender) } := by
  obtain ⟨hlt, rfl⟩ := List.getElem?_eq_some_iff.mp hc
  rw [GroupsManager.joinOrCreate] at hm
  by_cases hexists : s.manager.groupExists s.group = true
  · rw [if_pos hexists] at hm
    refine ⟨[.check i, .join i], { s with
      manager := m
      calls := s.calls.set i { s.calls[i] with stage := .returned (.ok s.sender) } },
      ?_, rfl, rfl⟩
    simp [joinMachine, step, checkStep, joinStep, setStage, hstage, hexists, hlt, hm]
  · rw [if_neg hexists] at hm
    refine ⟨[.check i, .create i, .join i], { s with
      manager := m
      sender := s.sender + 1
      calls := s.calls.set i { s.calls[i] with stage := .returned (.ok (s.sender + 1)) } },
      ?_, rfl, rfl⟩
    simp [joinMachine, step, checkStep, createStep, joinStep, setStage, hstage, hexists, hlt, hm]

end JoinSystem

open JoinSystem in
/-- **Lost joins**: when all calls for a group have returned `Ok`, every user is a member of the
group that is stored under the name and every sender that was returned is the one of this group,
if and only if no call created the group after another one had joined. -/
theorem joined_iff {s t : JoinSystem} {as : List JoinAction} (h0 : joinMachine.init s)
    (h : joinMachine.exec s as = some t) (hall : t.AllReturned) :
    t.Joined ↔ joinMachine.Guarded CreatesFirst s as := by
  have hs : s.Recorded := recorded_of_init h0
  have hkept : s.Kept := by
    intro c hc k hk
    rw [h0 c hc] at hk
    cases hk
  have hrecorded : ∀ s a t, Recorded s → joinMachine.step s a = some t → t.Recorded :=
    fun _ _ _ hs h => recorded_step hs h
  have hend : joinMachine.Always Kept s as ↔ t.Kept :=
    Machine.always_iff_of_exec (P := Kept) hrecorded (fun _ _ _ hs h => kept_of_step hs h) hs h
  calc t.Joined
      ↔ t.Kept := joined_iff_kept (Machine.invariant_exec hrecorded hs h) hall
    _ ↔ joinMachine.Always Kept s as := hend.symm
    _ ↔ joinMachine.Guarded CreatesFirst s as :=
        Machine.always_iff_guarded (I := fun s => s.Recorded ∧ s.Kept)
          (fun s a t hs h => ⟨kept_step_iff hs.1 hs.2 h, fun hok =>
            ⟨recorded_step hs.1 h, (kept_step_iff hs.1 hs.2 h).mpr hok⟩⟩) ⟨hs, hkept⟩ hkept

/-- Two calls for a group that does not exist. -/
def twoJoins : JoinSystem where
  group := "stream"
  manager := .new
  sender := 0
  calls := [⟨0, .checking⟩, ⟨1, .checking⟩]

/-- The second call looks the group up after the first one has created it. -/
def lateCheck : List JoinAction := [.check 0, .create 0, .check 1, .join 1, .join 0]

/-- The second call looks the group up before the first one has created it. -/
def earlyCheck : List JoinAction := [.check 0, .check 1, .create 0, .join 0, .create 1, .join 1]

/-- In this order both users end up in the group. -/
theorem joined_lateCheck : ∃ t, joinMachine.exec twoJoins lateCheck = some t ∧ t.Joined := by
  have hend : (joinMachine.exec twoJoins lateCheck).any (fun t => decide t.AllReturned) = true := by
    decide
  obtain ⟨t, h, hall⟩ := (Option.any_eq_true _ _).mp hend
  have hinit : joinMachine.init twoJoins := by simp [joinMachine, twoJoins]
  exact ⟨t, h, (joined_iff hinit h (of_decide_eq_true hall)).mpr (by decide)⟩

/-- In the other order the group of the first user is replaced. -/
theorem not_joined_earlyCheck :
    ¬ ∀ (s t : JoinSystem) (as : List JoinAction), joinMachine.init s →
      (s.calls.map (·.user)).Nodup → joinMachine.exec s as = some t → t.AllReturned →
        t.Joined := by
  intro hclaim
  have hend : (joinMachine.exec twoJoins earlyCheck).any
      (fun t => decide (t.AllReturned ∧ ¬ t.Joined)) = true := by decide
  obtain ⟨t, h, ht⟩ := (Option.any_eq_true _ _).mp hend
  have hinit : joinMachine.init twoJoins := by simp [joinMachine, twoJoins]
  obtain ⟨hall, hnot⟩ := of_decide_eq_true ht
  exact hnot (hclaim twoJoins t earlyCheck hinit (by decide) h hall)

end SfuServer
