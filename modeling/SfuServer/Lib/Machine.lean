import Mathlib.Tactic

/-!
Machines with labelled steps, and what holds along their runs.

A machine is a set of initial states and a partial step function, so that a run is a list
of actions and can be evaluated.  The nondeterminism of a concurrent program (which task is
scheduled next, what the network answers) sits in the choice of the actions.

* `exec`, `Reachable`: the state a list of actions leads to, and the states some run reaches;
* `Along`: a property of every step of a run, given the state before it, the action and the
  state after it; `Guarded` is the case of a condition on the state before the step, and
  `Always` the case of a property of the states passed through;
* `Reachable.invariant`: the induction over runs, packaged once;
* `along_of_guarded`: if every guarded step keeps an invariant and has a property, then every
  step of a guarded run has the property;
* `along_of_invariant`: the case in which no step needs a guard;
* `along_iff_guarded`: if in states of the invariant a step has the property exactly when it
  is guarded, then a run has the property exactly when all its steps are guarded;
  `always_iff_guarded` is the case of a property of the states;
* `Since`: some step of a run has set something, and no later step has cleared it;
  `since_iff` turns what a step does to a property of the states into this property of the run;
* `At`, `exec_indexed`: the same induction where the actions of a run are counted;
* `outputs`: what comes out of the steps of a run; `Yields` is its relational form.
-/

/-- A machine: its initial states, and a partial step function; `step s a = none` says that
the action `a` is not enabled in `s`. -/
structure Machine (S A : Type*) where
  init : S → Prop
  step : S → A → Option S

namespace Machine

variable {S A : Type*} (M : Machine S A)

/-- The state that a list of actions leads to, if each of them is enabled in its turn. -/
def exec : S → List A → Option S
  | s, [] => some s
  | s, a :: as => (M.step s a).bind fun t => exec t as

/-- The states that some run from an initial state reaches. -/
def Reachable (t : S) : Prop := ∃ s as, M.init s ∧ M.exec s as = some t

/-- The step property `Q`, of the state before, the action and the state after, at every
step of the run. -/
def Along (Q : S → A → S → Prop) : S → List A → Prop
  | _, [] => True
  | s, a :: as => ∀ t, M.step s a = some t → Q s a t ∧ Along Q t as

/-- A run whose steps all meet a condition on the state before the step. -/
def Guarded (ok : S → A → Prop) (s : S) (as : List A) : Prop :=
  M.Along (fun s a _ => ok s a) s as

/-- A run that passes through states of `P` only. -/
def Always (P : S → Prop) (s : S) (as : List A) : Prop :=
  P s ∧ M.Along (fun _ _ t => P t) s as

variable {M}

/-- A decidable property of the steps of a run can be evaluated. -/
instance decidableAlong {Q : S → A → S → Prop} [∀ s a t, Decidable (Q s a t)] :
    ∀ s as, Decidable (M.Along Q s as)
  | _, [] => isTrue trivial
  | s, a :: as =>
      match h : M.step s a with
      | none => isTrue (by simp [Along, h])
      | some t =>
          have := decidableAlong (Q := Q) t as
          decidable_of_iff (Q s a t ∧ M.Along Q t as) (by simp [Along, h])

instance {ok : S → A → Prop} [∀ s a, Decidable (ok s a)] (s : S) (as : List A) :
    Decidable (M.Guarded ok s as) :=
  inferInstanceAs (Decidable (M.Along (fun s a _ => ok s a) s as))

@[simp] lemma exec_nil (s : S) : M.exec s [] = some s := rfl

@[simp] lemma exec_cons (s : S) (a : A) (as : List A) :
    M.exec s (a :: as) = (M.step s a).bind fun t => M.exec t as := rfl

lemma exec_append (s : S) (as bs : List A) :
    M.exec s (as ++ bs) = (M.exec s as).bind fun t => M.exec t bs := by
  induction as generalizing s with
  | nil => rfl
  | cons a as ih =>
      cases h : M.step s a with
      | none => simp [h]
      | some t => simp [h, ih]

/-- A run that goes on where another one ends. -/
lemma exec_trans {s t u : S} {as bs : List A} (hs : M.exec s as = some t)
    (ht : M.exec t bs = some u) : M.exec s (as ++ bs) = some u := by
  rw [exec_append, hs, Option.bind_some, ht]

/-- A run whose first step is known. -/
lemma exec_step {s t u : S} {a : A} {as : List A} (hs : M.step s a = some t)
    (ht : M.exec t as = some u) : M.exec s (a :: as) = some u := by
  rw [exec_cons, hs, Option.bind_some, ht]

/-- What a run starts with and every step keeps holds at its end. -/
lemma invariant_exec {I : S → Prop} (hstep : ∀ s a t, I s → M.step s a = some t → I t)
    {s t : S} {as : List A} (hs : I s) (h : M.exec s as = some t) : I t := by
  induction as generalizing s with
  | nil =>
      rw [exec_nil, Option.some.injEq] at h
      exact h ▸ hs
  | cons a as ih =>
      obtain ⟨u, hu, h⟩ := Option.bind_eq_some_iff.mp h
      exact ih (hstep s a u hs hu) h

/-- An action that is not enabled where something holds that every step keeps is no part of a run
from there. -/
lemma not_mem_of_exec {I : S → Prop} (hstep : ∀ s a t, I s → M.step s a = some t → I t) {a : A}
    (ha : ∀ s, I s → M.step s a = none) {s t : S} {as : List A} (hs : I s)
    (h : M.exec s as = some t) : a ∉ as := by
  induction as generalizing s with
  | nil => exact List.not_mem_nil
  | cons b as ih =>
      obtain ⟨u, hu, h⟩ := Option.bind_eq_some_iff.mp h
      rw [List.mem_cons, not_or]
      refine ⟨?_, ih (hstep s b u hs hu) h⟩
      rintro rfl
      rw [ha s hs] at hu
      cases hu

/-- The invariant rule for properties of the actions so far and the state that they lead to. -/
lemma exec_history {I : List A → S → Prop} {s t : S} {as : List A} (hnil : I [] s)
    (hstep : ∀ bs r a u, I bs r → M.step r a = some u → I (bs ++ [a]) u)
    (h : M.exec s as = some t) : I as t := by
  induction as using List.reverseRecOn generalizing t with
  | nil =>
      rw [exec_nil, Option.some.injEq] at h
      exact h ▸ hnil
  | append_singleton as a ih =>
      rw [exec_append] at h
      obtain ⟨r, hr, h⟩ := Option.bind_eq_some_iff.mp h
      obtain ⟨u, hu, h⟩ := Option.bind_eq_some_iff.mp h
      rw [exec_nil, Option.some.injEq] at h
      exact h ▸ hstep as r a u (ih hr) hu

/-- **The invariant rule**: what holds initially and is kept by every step holds of every
reachable state. -/
theorem Reachable.invariant {I : S → Prop} (hinit : ∀ s, M.init s → I s)
    (hstep : ∀ s a t, I s → M.step s a = some t → I t) {t : S} (ht : M.Reachable t) : I t := by
  obtain ⟨s, as, h0, h⟩ := ht
  exact invariant_exec hstep (hinit s h0) h

/-- A property of all states passed through holds of the last one. -/
lemma Always.of_exec {P : S → Prop} {s t : S} {as : List A} (hP : M.Always P s as)
    (h : M.exec s as = some t) : P t := by
  induction as generalizing s with
  | nil =>
      rw [exec_nil, Option.some.injEq] at h
      exact h ▸ hP.1
  | cons a as ih =>
      obtain ⟨u, hu, h⟩ := Option.bind_eq_some_iff.mp h
      exact ih ⟨(hP.2 u hu).1, (hP.2 u hu).2⟩ h

/-- A property that is never regained once it is lost holds of all states passed through if
it holds of the last one. -/
lemma always_iff_of_exec {I P : S → Prop} (hI : ∀ s a t, I s → M.step s a = some t → I t)
    (hP : ∀ s a t, I s → M.step s a = some t → P t → P s) {s t : S} {as : List A} (hs : I s)
    (h : M.exec s as = some t) : M.Always P s as ↔ P t := by
  refine ⟨fun halways => halways.of_exec h, fun ht => ?_⟩
  induction as generalizing s with
  | nil =>
      rw [exec_nil, Option.some.injEq] at h
      exact ⟨h ▸ ht, trivial⟩
  | cons a as ih =>
      obtain ⟨u, hu, h⟩ := Option.bind_eq_some_iff.mp h
      have hrest := ih (hI s a u hs hu) h
      refine ⟨hP s a u hs hu hrest.1, fun v hv => ?_⟩
      obtain rfl := Option.some.inj (hu.symm.trans hv)
      exact hrest

/-- A property along an initial part of a run, and along the rest of it. -/
lemma along_append {Q : S → A → S → Prop} {s : S} {as bs : List A} :
    M.Along Q s (as ++ bs) ↔
      M.Along Q s as ∧ ∀ t, M.exec s as = some t → M.Along Q t bs := by
  induction as generalizing s with
  | nil => simp [Along]
  | cons a as ih =>
      simp only [List.cons_append, Along, exec_cons, ih]
      constructor
      · intro h
        refine ⟨fun t ht => ⟨(h t ht).1, (h t ht).2.1⟩, fun u hu => ?_⟩
        obtain ⟨t, ht, hu⟩ := Option.bind_eq_some_iff.mp hu
        exact (h t ht).2.2 u hu
      · intro h t ht
        exact ⟨(h.1 t ht).1, (h.1 t ht).2, fun u hu => h.2 u (by simp [ht, hu])⟩

/-- A property along a run holds of its last step. -/
lemma Along.last {Q : S → A → S → Prop} {s t u : S} {as : List A} {a : A}
    (hQ : M.Along Q s (as ++ [a])) (hs : M.exec s as = some t) (ht : M.step t a = some u) :
    Q t a u :=
  ((along_append.mp hQ).2 t hs u ht).1

/-- **Guarded runs**: if from states of `I` every step that meets the condition stays in `I`
and has the property `Q`, then in a run whose steps all meet the condition every step has
the property. -/
theorem along_of_guarded {I : S → Prop} {ok : S → A → Prop} {Q : S → A → S → Prop}
    (hstep : ∀ s a t, I s → ok s a → M.step s a = some t → I t ∧ Q s a t)
    {s : S} {as : List A} (hs : I s) (hok : M.Guarded ok s as) : M.Along Q s as := by
  induction as generalizing s with
  | nil => trivial
  | cons a as ih =>
      intro t ht
      obtain ⟨hIt, hQ⟩ := hstep s a t hs (hok t ht).1 ht
      exact ⟨hQ, ih hIt (hok t ht).2⟩

/-- A property that every step from a state of the invariant has holds along every run. -/
lemma along_of_invariant {I : S → Prop} {Q : S → A → S → Prop}
    (hstep : ∀ s a t, I s → M.step s a = some t → I t ∧ Q s a t) {s : S} (hs : I s)
    (as : List A) : M.Along Q s as := by
  induction as generalizing s with
  | nil => trivial
  | cons a as ih =>
      intro t ht
      obtain ⟨hIt, hQ⟩ := hstep s a t hs ht
      exact ⟨hQ, ih hIt⟩

/-- The exact condition where the actions of the run are of a certain kind. -/
theorem along_iff_guarded_of_forall {I : S → Prop} {ok : S → A → Prop} {Q : S → A → S → Prop}
    {K : A → Prop}
    (hstep : ∀ s a t, K a → I s → M.step s a = some t → (Q s a t ↔ ok s a) ∧ (ok s a → I t))
    {s : S} {as : List A} (hs : I s) (has : ∀ a ∈ as, K a) :
    M.Along Q s as ↔ M.Guarded ok s as := by
  induction as generalizing s with
  | nil => rfl
  | cons a as ih =>
      obtain ⟨ha, has⟩ := List.forall_mem_cons.mp has
      constructor
      · intro h t ht
        obtain ⟨hiff, hI⟩ := hstep s a t ha hs ht
        have hok := hiff.mp (h t ht).1
        exact ⟨hok, (ih (hI hok) has).mp (h t ht).2⟩
      · intro h t ht
        obtain ⟨hiff, hI⟩ := hstep s a t ha hs ht
        have hok := (h t ht).1
        exact ⟨hiff.mpr hok, (ih (hI hok) has).mpr (h t ht).2⟩

/-- **The exact condition**: if from states of `I` a step has the property `Q` exactly when
it meets the condition, and such a step stays in `I`, then every step of a run has the
property exactly when every step meets the condition. -/
theorem along_iff_guarded {I : S → Prop} {ok : S → A → Prop} {Q : S → A → S → Prop}
    (hstep : ∀ s a t, I s → M.step s a = some t → (Q s a t ↔ ok s a) ∧ (ok s a → I t))
    {s : S} {as : List A} (hs : I s) : M.Along Q s as ↔ M.Guarded ok s as :=
  along_iff_guarded_of_forall (K := fun _ => True) (fun s a t _ => hstep s a t) hs
    fun _ _ => trivial

/-- The exact condition for a property of all states of a run that its first state has. -/
theorem always_iff_guarded_of_forall {I P : S → Prop} {ok : S → A → Prop} {K : A → Prop}
    (hstep : ∀ s a t, K a → I s → M.step s a = some t → (P t ↔ ok s a) ∧ (ok s a → I t))
    {s : S} {as : List A} (hs : I s) (hP : P s) (has : ∀ a ∈ as, K a) :
    M.Always P s as ↔ M.Guarded ok s as := by
  rw [Always, and_iff_right hP]
  exact along_iff_guarded_of_forall (Q := fun _ _ t => P t) hstep hs has

/-- The same for runs of any actions. -/
theorem always_iff_guarded {I P : S → Prop} {ok : S → A → Prop}
    (hstep : ∀ s a t, I s → M.step s a = some t → (P t ↔ ok s a) ∧ (ok s a → I t))
    {s : S} {as : List A} (hs : I s) (hP : P s) : M.Always P s as ↔ M.Guarded ok s as := by
  rw [Always, and_iff_right hP]
  exact along_iff_guarded (Q := fun _ _ t => P t) hstep hs

/-! ### What a run has set and not cleared -/

/-- Some step of the run is one that sets, and none after it is one that clears. -/
def Since (M : Machine S A) (sets clears : S → A → Prop) (s : S) (as : List A) : Prop :=
  ∃ before a after t u, as = before ++ a :: after ∧ M.exec s before = some t ∧ sets t a ∧
    M.step t a = some u ∧ M.Along (fun r b _ => ¬ clears r b) u after

/-- One more step. -/
lemma since_concat_iff {sets clears : S → A → Prop} {s t u : S} {as : List A} {a : A}
    (h : M.exec s as = some t) (ha : M.step t a = some u) :
    M.Since sets clears s (as ++ [a]) ↔ sets t a ∨ M.Since sets clears s as ∧ ¬ clears t a := by
  constructor
  · rintro ⟨before, b, after, r, v, hrun, hr, hsets, hv, hafter⟩
    -- the step that sets is the new one, or the new one comes after it
    rcases List.eq_nil_or_concat after with rfl | ⟨after, c, rfl⟩
    · obtain ⟨rfl, hb⟩ := List.append_inj' hrun rfl
      obtain rfl : a = b := by simpa using hb
      obtain rfl := Option.some.inj (h.symm.trans hr)
      exact .inl hsets
    · rw [List.concat_eq_append] at hrun hafter
      rw [← List.cons_append, ← List.append_assoc] at hrun
      obtain ⟨rfl, hc⟩ := List.append_inj' hrun rfl
      obtain rfl : a = c := by simpa using hc
      obtain ⟨hafter, hlast⟩ := along_append.mp hafter
      have hend : M.exec v after = some t := by
        rwa [exec_append, hr, Option.bind_some, exec_cons, hv, Option.bind_some] at h
      exact .inr ⟨⟨before, b, after, r, v, rfl, hr, hsets, hv, hafter⟩, (hlast t hend u ha).1⟩
  · rintro (hsets | ⟨⟨before, b, after, r, v, rfl, hr, hsets, hv, hafter⟩, hclears⟩)
    · exact ⟨as, a, [], t, u, rfl, h, hsets, ha, trivial⟩
    · refine ⟨before, b, after ++ [a], r, v, by simp, hr, hsets, hv,
        along_append.mpr ⟨hafter, fun t' ht' => ?_⟩⟩
      have hend : M.exec v after = some t := by
        rwa [exec_append, hr, Option.bind_some, exec_cons, hv, Option.bind_some] at h
      obtain rfl := Option.some.inj (hend.symm.trans ht')
      exact fun _ _ => ⟨hclears, trivial⟩

lemma not_since_nil {sets clears : S → A → Prop} {s : S} : ¬ M.Since sets clears s [] := by
  rintro ⟨before, a, after, t, u, h, -⟩
  simp at h

/-- **What holds at the end of a run was set and not cleared**, if this is so for one step. -/
theorem since_iff {P : S → Prop} {sets clears : S → A → Prop}
    (hstep : ∀ s a t, M.step s a = some t → (P t ↔ sets s a ∨ P s ∧ ¬ clears s a))
    {s t : S} {as : List A} (hP : ¬ P s) (h : M.exec s as = some t) :
    P t ↔ M.Since sets clears s as := by
  suffices hinv : M.exec s as = some t ∧ (P t ↔ M.Since sets clears s as) from hinv.2
  refine exec_history (M := M) (I := fun as t => M.exec s as = some t ∧
    (P t ↔ M.Since sets clears s as)) ⟨rfl, iff_of_false hP not_since_nil⟩ ?_ h
  intro as r a u hr hst
  obtain ⟨hrun, hiff⟩ := hr
  refine ⟨exec_trans hrun (exec_step hst rfl), ?_⟩
  rw [hstep r a u hst, hiff, since_concat_iff hrun hst]

/-! ### The places of a run, and what comes out of it -/

/-- After the first `n` actions of the run the state is `t`, and the next action is `a`. -/
def At (M : Machine S A) (s : S) (as : List A) (n : ℕ) (t : S) (a : A) : Prop :=
  M.exec s (as.take n) = some t ∧ as[n]? = some a

/-- The invariant rule for a run whose actions are counted. -/
lemma exec_indexed {I : ℕ → S → Prop} {s t : S} {as : List A} (h0 : I 0 s)
    (hstep : ∀ n r a u, M.At s as n r a → M.step r a = some u → I n r → I (n + 1) u)
    (h : M.exec s as = some t) : I as.length t := by
  have hall : ∀ n ≤ as.length, ∀ r, M.exec s (as.take n) = some r → I n r := by
    intro n
    induction n with
    | zero =>
        intro _ r hr
        rw [List.take_zero, exec_nil, Option.some.injEq] at hr
        exact hr ▸ h0
    | succ n ih =>
        intro hn r hr
        rw [← List.take_append_getElem (Nat.lt_of_succ_le hn), exec_append] at hr
        obtain ⟨q, hq, hr⟩ := Option.bind_eq_some_iff.mp hr
        obtain ⟨u, hu, hr⟩ := Option.bind_eq_some_iff.mp hr
        rw [exec_nil, Option.some.injEq] at hr
        exact hr ▸ hstep n q _ u ⟨hq, List.getElem?_eq_getElem _⟩ hu
          (ih (Nat.le_of_succ_le hn) q hq)
  exact hall as.length le_rfl t (by rwa [List.take_length])

/-- What comes out of the steps of a run, in their order. -/
def outputs {B : Type*} (M : Machine S A) (out : S → A → Option B) : S → List A → List B
  | _, [] => []
  | s, a :: as => (out s a).toList ++
      match M.step s a with
      | some t => outputs M out t as
      | none => []

lemma outputs_concat {B : Type*} (out : S → A → Option B) {s t : S} {as : List A}
    (h : M.exec s as = some t) (a : A) :
    M.outputs out s (as ++ [a]) = M.outputs out s as ++ (out t a).toList := by
  induction as generalizing s with
  | nil =>
      rw [exec_nil, Option.some.injEq] at h
      subst h
      rw [List.nil_append, outputs, outputs]
      cases M.step s a <;> simp [outputs]
  | cons b as ih =>
      obtain ⟨u, hu, h⟩ := Option.bind_eq_some_iff.mp h
      rw [List.cons_append, outputs, outputs, hu]
      dsimp only
      rw [ih h, List.append_assoc]

/-- What comes out of the steps of a run, where each step gives out what `R` allows. -/
inductive Yields {B : Type*} (M : Machine S A) (R : S → A → S → List B → Prop) :
    S → List A → List B → Prop
  | nil (s : S) : Yields M R s [] []
  | cons {s t : S} {a : A} {as : List A} {ms ms' : List B} (step : M.step s a = some t)
      (out : R s a t ms) (rest : Yields M R t as ms') : Yields M R s (a :: as) (ms ++ ms')

lemma Yields.concat {B : Type*} {R : S → A → S → List B → Prop} {s t u : S} {as : List A} {a : A}
    {ms ms' : List B} (h : M.Yields R s as ms) (hs : M.exec s as = some t)
    (ht : M.step t a = some u) (hout : R t a u ms') : M.Yields R s (as ++ [a]) (ms ++ ms') := by
  induction h with
  | nil s =>
      rw [exec_nil, Option.some.injEq] at hs
      subst hs
      simpa using Yields.cons ht hout (.nil u)
  | cons step out rest ih =>
      rw [exec_cons, step, Option.bind_some] at hs
      rw [List.cons_append, List.append_assoc]
      exact .cons step out (ih hs)

/-- What comes out of a run is determined by it, if this is so for every step. -/
lemma Yields.unique {B : Type*} {R : S → A → S → List B → Prop} {s : S} {as : List A}
    {ms ms' : List B} (h : M.Yields R s as ms)
    (hR : ∀ s a t ms ms', R s a t ms → R s a t ms' → ms = ms') (h' : M.Yields R s as ms') :
    ms = ms' := by
  induction h generalizing ms' with
  | nil s =>
      cases h'
      rfl
  | cons step out rest ih =>
      cases h' with
      | cons step' out' rest' =>
          obtain rfl := Option.some.inj (step.symm.trans step')
          rw [hR _ _ _ _ _ out out', ih rest']

/-- One more action of a run that is counted. -/
lemma At.outputs_succ {B : Type*} {out : S → A → Option B} {s t : S} {as : List A} {n : ℕ} {a : A}
    (h : M.At s as n t a) :
    M.outputs out s (as.take (n + 1)) = M.outputs out s (as.take n) ++ (out t a).toList := by
  obtain ⟨hlt, rfl⟩ := List.getElem?_eq_some_iff.mp h.2
  rw [← List.take_append_getElem hlt]
  exact outputs_concat out h.1 _

end Machine
