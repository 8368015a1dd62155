import SfuServer.Lib.RwLock

/-!
Programs that take their locks in scopes, one within the other, and how far they come.

A guard gives its lock up at the end of its scope.  What a program does within a scope, where it
holds the locks of the scopes around it, is told by what it takes beside them.

* `LockProg.withLock`, `LockProg.each`: a scope, and a loop;
* `LockProg.embed`: a program on a part of the locks and of the data;
* `LockProg.Within`: the locks that a program holds at its end, where it takes each of its locks as
  the order `R` says;
* `LockProg.Neutral`: a program that can run where only locks of the set `P` are held, and ends with
  those that it began with; `neutral_bind`, `neutral_withLock`, `neutral_each`, `neutral_embed`;
* `LockProg.Gives`: the same for a program that gives up the lock that it begins with;
* `RwLock.Served`: the first of those who wait could not be let in;
* `exists_step_of_not_deadlock`: where callers do not block each other in a cycle, some call that
  is not at its end can go on.
-/

namespace LockProg

variable {L L' D D' α β : Type}

/-- A scope: the lock is held while the program runs. -/
def withLock (l : L) (m : LockMode) (p : LockProg L D α) : LockProg L D α := do
  lock l m
  let a ← p
  unlock l
  return a

/-- A loop over a list, which stops at the first failure. -/
def each {ε ι : Type} (f : ι → LockProg L D (Except ε Unit)) :
    List ι → LockProg L D (Except ε Unit)
  | [] => return .ok ()
  | i :: is => do
      match ← f i with
      | .error e => return .error e
      | .ok () => each f is

/-- A loop over a list that collects what its turns return. -/
def collect {ι : Type} (f : ι → LockProg L D β) : List ι → LockProg L D (List β)
  | [] => return []
  | i :: is => do
      let b ← f i
      let bs ← collect f is
      return b :: bs

/-- A program on the locks `f l` and on the part of the data that `get` reads and `set` writes. -/
def embed (f : L → L') (get : D' → D) (set : D → D' → D') :
    LockProg L D α → LockProg L' D' α
  | .pure a => .pure a
  | .acquire l m next => .acquire (f l) m (next.embed f get set)
  | .release l next => .release (f l) (next.embed f get set)
  | .get next => .get fun d => (next (get d)).embed f get set
  | .put g next => .put (fun d => set (g (get d)) d) (next.embed f get set)

variable [DecidableEq L] [DecidableEq L'] {R : List L → L → Prop} {P Q : L → Prop}
  {held held' held'' : List L}

/-- The program begins with the locks `held` and ends with `held'`, and takes locks only as the
order `R` says. -/
def Within (R : List L → L → Prop) (held' : List L) : List L → LockProg L D α → Prop
  | held, .pure _ => held = held'
  | held, .acquire l _ next => R held l ∧ l ∉ held ∧ next.Within R held' (l :: held)
  | held, .release l next => l ∈ held ∧ next.Within R held' (held.erase l)
  | held, .get next => ∀ d, (next d).Within R held' held
  | held, .put _ next => next.Within R held' held

lemma within_nil_iff {p : LockProg L D α} : p.Within R [] held ↔ p.Obeys R held := by
  induction p generalizing held with
  | pure a => rfl
  | acquire l m next ih => exact and_congr_right fun _ => and_congr_right fun _ => ih
  | release l next ih => exact and_congr_right fun _ => ih
  | get next ih => exact forall_congr' fun d => ih d
  | put f next ih => exact ih

/-- One program after the other. -/
lemma Within.bind {p : LockProg L D α} {k : α → LockProg L D β} (hp : p.Within R held' held)
    (hk : ∀ a, (k a).Within R held'' held') : (p >>= k).Within R held'' held := by
  induction p generalizing held with
  | pure a => exact hp ▸ hk a
  | acquire l m next ih => exact ⟨hp.1, hp.2.1, ih hp.2.2⟩
  | release l next ih => exact ⟨hp.1, ih hp.2⟩
  | get next ih => exact fun d => ih d (hp d)
  | put f next ih => exact ih hp

/-- The program can run where only locks of `P` are held, and ends with those it began with. -/
def Neutral (R : List L → L → Prop) (P : L → Prop) (p : LockProg L D α) : Prop :=
  ∀ held, (∀ l ∈ held, P l) → p.Within R held held

/-- The program begins where the lock `l` is held beside locks of `P`, and ends without it. -/
def Gives (R : List L → L → Prop) (P : L → Prop) (l : L) (p : LockProg L D α) : Prop :=
  ∀ held, (∀ x ∈ held, P x) → p.Within R held (l :: held)

lemma Neutral.obeys {p : LockProg L D α} (hp : p.Neutral R P) : p.Obeys R [] :=
  within_nil_iff.mp (hp [] fun _ h => absurd h List.not_mem_nil)

/-- What can run where more locks are held can run where less are. -/
lemma Neutral.mono {p : LockProg L D α} (hp : p.Neutral R Q) (h : ∀ l, P l → Q l) :
    p.Neutral R P :=
  fun held hheld => hp held fun l hl => h l (hheld l hl)

lemma neutral_pure (a : α) : (Pure.pure a : LockProg L D α).Neutral R P := fun _ _ => rfl

lemma neutral_read (f : D → α) : (read f : LockProg L D α).Neutral R P := fun _ _ _ => rfl

lemma neutral_modify (f : D → D) : (modify f : LockProg L D Unit).Neutral R P := fun _ _ => rfl

lemma neutral_bind {p : LockProg L D α} {k : α → LockProg L D β} (hp : p.Neutral R P)
    (hk : ∀ a, (k a).Neutral R P) : (p >>= k).Neutral R P :=
  fun held hheld => (hp held hheld).bind fun a => hk a held hheld

/-- A lock is taken that can be taken where locks of `P` are held. -/
lemma neutral_lock_bind {l : L} {m : LockMode} {k : Unit → LockProg L D α}
    (hl : ∀ held, (∀ x ∈ held, P x) → R held l) (hself : ¬ P l) (hk : (k ()).Gives R P l) :
    (lock l m >>= k).Neutral R P :=
  fun held hheld => ⟨hl held hheld, fun hmem => hself (hheld l hmem), hk held hheld⟩

lemma gives_bind {l : L} {p : LockProg L D α} {k : α → LockProg L D β}
    (hp : p.Neutral R fun x => x = l ∨ P x) (hk : ∀ a, (k a).Gives R P l) :
    (p >>= k).Gives R P l := by
  refine fun held hheld => (hp (l :: held) fun x hx => ?_).bind fun a => hk a held hheld
  exact (List.mem_cons.mp hx).imp_right (hheld x)

lemma gives_unlock_bind {l : L} {k : Unit → LockProg L D α} (hk : (k ()).Neutral R P) :
    (unlock l >>= k).Gives R P l := by
  intro held hheld
  refine ⟨List.mem_cons_self, ?_⟩
  rw [List.erase_cons_head]
  exact hk held hheld

/-- Another lock is taken before `l` is given up. -/
lemma gives_handOver {l l' : L} {m : LockMode} {k : Unit → LockProg L D α}
    (hl' : ∀ held, (∀ x ∈ held, x = l ∨ P x) → R held l') (hself : ¬ (l' = l ∨ P l'))
    (hk : (k ()).Gives R P l') : (lock l' m >>= fun _ => unlock l >>= k).Gives R P l := by
  intro held hheld
  have hheld' : ∀ x ∈ l :: held, x = l ∨ P x :=
    fun x hx => (List.mem_cons.mp hx).imp_right (hheld x)
  have herase : (l' :: l :: held).erase l = l' :: held := by
    rw [List.erase_cons_tail (by simpa using fun h => hself (.inl h)), List.erase_cons_head]
  refine ⟨hl' _ hheld', fun hmem => hself (hheld' l' hmem),
    List.mem_cons_of_mem _ List.mem_cons_self, ?_⟩
  rw [herase]
  exact hk held hheld

/-- **A scope**: its lock can be taken where locks of `P` are held, and what runs within it can run
where the lock is held too. -/
lemma neutral_withLock {l : L} {m : LockMode} {p : LockProg L D α}
    (hl : ∀ held, (∀ x ∈ held, P x) → R held l) (hself : ¬ P l)
    (hp : p.Neutral R fun x => x = l ∨ P x) : (withLock l m p).Neutral R P :=
  neutral_lock_bind hl hself
    (gives_bind hp fun a => gives_unlock_bind (neutral_pure a))

lemma neutral_each {ε ι : Type} {f : ι → LockProg L D (Except ε Unit)}
    (hf : ∀ i, (f i).Neutral R P) (is : List ι) : (each f is).Neutral R P := by
  induction is with
  | nil => exact neutral_pure _
  | cons i is ih =>
      refine neutral_bind (hf i) fun r => ?_
      cases r with
      | error e => exact neutral_pure _
      | ok u => exact ih

lemma neutral_collect {ι : Type} {f : ι → LockProg L D β} (hf : ∀ i, (f i).Neutral R P)
    (is : List ι) : (collect f is).Neutral R P := by
  induction is with
  | nil => exact neutral_pure _
  | cons i is ih =>
      exact neutral_bind (hf i) fun b => neutral_bind ih fun bs => neutral_pure _

/-- A program on a part of the locks, where the locks `base` are held beside. -/
lemma within_embed {R' : List L' → L' → Prop} {f : L → L'} {get : D' → D} {set : D → D' → D'}
    {base : List L'} (hf : f.Injective) (hbase : ∀ l, f l ∉ base)
    (hR : ∀ held l, R held l → R' (held.map f ++ base) (f l)) {p : LockProg L D α}
    (hp : p.Obeys R held) : (p.embed f get set).Within R' base (held.map f ++ base) := by
  induction p generalizing held with
  | pure a =>
      obtain rfl : held = [] := hp
      rfl
  | acquire l m next ih =>
      refine ⟨hR held l hp.1, fun hmem => ?_, ih hp.2.2⟩
      rcases List.mem_append.mp hmem with hmem | hmem
      · exact hp.2.1 ((List.mem_map_of_injective hf).mp hmem)
      · exact hbase l hmem
  | release l next ih =>
      have hmem : f l ∈ held.map f := List.mem_map_of_mem hp.1
      refine ⟨List.mem_append_left _ hmem, ?_⟩
      rw [List.erase_append_left _ hmem, ← List.map_erase hf]
      exact ih hp.2
  | get next ih => exact fun d => ih _ (hp _)
  | put g next ih => exact ih hp

/-- **A program on a part of the locks** can run where locks of `P'` are held. -/
lemma neutral_embed {R' : List L' → L' → Prop} {P' : L' → Prop} {f : L → L'} {get : D' → D}
    {set : D → D' → D'} (hf : f.Injective) (hself : ∀ l, ¬ P' (f l))
    (hR : ∀ held l base, R held l → (∀ x ∈ base, P' x) → R' (held.map f ++ base) (f l))
    {p : LockProg L D α} (hp : p.Obeys R []) : (p.embed f get set).Neutral R' P' :=
  fun base hbase => within_embed hf (fun l hl => hself l (hbase _ hl))
    (fun held l hl => hR held l base hl hbase) hp

end LockProg

/-! ### How far calls come -/

namespace RwLock

variable {κ : Type*} {r : RwLock κ} {c : κ} {m : LockMode}

/-- The first of those who wait could not be let in. -/
def Served (r : RwLock κ) : Prop := ∀ w ws, r.queue = w :: ws → ¬ Free r.holders w.2

lemma served_new : (new : RwLock κ).Served := fun _ _ h => by cases h

lemma served_serve (holders queue : List (κ × LockMode)) : (serve holders queue).Served := by
  induction queue generalizing holders with
  | nil => exact fun _ _ h => by cases h
  | cons w ws ih =>
      rw [serve]
      split_ifs with h
      · exact ih _
      · rintro _ _ ⟨⟩
        exact h

lemma Served.request (hr : r.Served) : (r.request c m).Served := by
  rw [RwLock.request]
  split_ifs with h
  · intro w ws hq
    exact absurd (hq.symm.trans h.1) (List.cons_ne_nil _ _)
  · intro w ws hq
    cases hqueue : r.queue with
    | nil =>
        rw [hqueue] at hq
        obtain ⟨rfl, -⟩ := List.cons.inj hq
        exact fun hfree => h ⟨hqueue, hfree⟩
    | cons v vs =>
        rw [hqueue] at hq
        obtain ⟨rfl, -⟩ := List.cons.inj hq
        exact hr v vs hqueue

lemma served_release [DecidableEq κ] : (r.release c).Served :=
  served_serve (r.holders.filter fun h => h.1 ≠ c) r.queue

/-- Where somebody waits, somebody holds the lock. -/
lemma Served.exists_holds (hr : r.Served) (hw : r.Waits c) : ∃ b, r.Holds b := by
  cases hq : r.queue with
  | nil => simp [Waits, waiters, hq] at hw
  | cons w ws =>
      cases hh : r.holders with
      | nil =>
          refine absurd ?_ (hr w ws hq)
          rw [hh]
          cases w.2 with
          | read => exact fun _ h => absurd h List.not_mem_nil
          | write => rfl
      | cons b bs => exact ⟨b.1, by simp [Holds, hh]⟩

end RwLock

namespace LockSystem

variable {L D α C : Type} [DecidableEq L] {R : List L → L → Prop} {s t : LockSystem L D α}
  {a : LockAction C} {k : ℕ}

/-- Every lock lets in whom it can. -/
def Served (s : LockSystem L D α) : Prop := ∀ l, (s.locks l).Served

omit [DecidableEq L] in
lemma served_new (d : D) : (new d : LockSystem L D α).Served := fun _ => RwLock.served_new

lemma served_setLock {l : L} {r : RwLock ℕ} (hs : s.Served) (hr : r.Served) :
    (s.setLock l r).Served := by
  intro l'
  by_cases hl : l' = l
  · rwa [hl, locks_setLock_self]
  · rw [locks_setLock_of_ne hl]
    exact hs l'

lemma served_step [Fintype L] {prog : C → LockProg L D α} (hs : s.Served)
    (hst : s.step prog a = some t) : t.Served := by
  cases a with
  | start c =>
      cases hst
      exact hs
  | run k =>
      obtain ⟨p, -, hst⟩ := Option.bind_eq_some_iff.mp hst
      obtain ⟨-, hst⟩ := Option.ite_none_left_eq_some.mp hst
      cases p with
      | pure x => cases hst
      | acquire l m next =>
          cases hst
          exact served_setLock hs (hs l).request
      | release l next =>
          cases hst
          exact served_setLock hs RwLock.served_release
      | get next =>
          cases hst
          exact hs
      | put f next =>
          cases hst
          exact hs

/-- The call is not at its end. -/
def Unfinished (s : LockSystem L D α) (k : ℕ) : Prop :=
  ∃ p, s.calls[k]? = some p ∧ ∀ a, p ≠ .pure a

omit [DecidableEq L] in
lemma Unfinished.lt (h : s.Unfinished k) : k < s.calls.length := by
  obtain ⟨p, hp, -⟩ := h
  exact (List.getElem?_eq_some_iff.mp hp).1

/-- Who holds a lock is not at its end. -/
lemma Orderly.unfinished_of_holds (ho : s.Orderly R) {l : L} (hholds : (s.locks l).Holds k) :
    s.Unfinished k := by
  have hcaller := RwLock.mem_callers_iff.mpr (.inl hholds)
  have hlt := ho.started l k hcaller
  obtain ⟨held, hk⟩ := ho.stands k _ (List.getElem?_eq_getElem hlt)
  refine ⟨_, List.getElem?_eq_getElem hlt, fun a ha => ?_⟩
  have hobeys := hk.obeys
  rw [ha] at hobeys
  have hmem := (hk.callers l).mp hcaller
  rw [show held = [] from hobeys] at hmem
  exact List.not_mem_nil hmem

/-- A call that does not wait goes on. -/
lemma exists_runStep [Fintype L] (h : s.Unfinished k) (hfree : ¬ s.Waiting k) :
    ∃ t, s.runStep k = some t := by
  obtain ⟨p, hp, hpure⟩ := h
  rw [runStep, hp, Option.bind_some, if_neg hfree]
  cases p with
  | pure a => exact absurd rfl (hpure a)
  | acquire | release | get | put => exact ⟨_, rfl⟩

/-- **Calls go on**: where no callers block each other in a cycle and not all calls are at their
end, some call can take its next step. -/
theorem exists_step_of_not_deadlock [Fintype L] (prog : C → LockProg L D α) (ho : s.Orderly R)
    (hs : s.Served) (hd : ¬ Deadlock s.locks) (hk : s.Unfinished k) :
    ∃ j t, s.step prog (.run j) = some t := by
  by_contra hnone
  have hwaiting : ∀ j, s.Unfinished j → s.Waiting j := by
    intro j hj
    by_contra hfree
    obtain ⟨t, ht⟩ := exists_runStep hj hfree
    exact hnone ⟨j, t, ht⟩
  -- whoever waits is blocked by a holder, which is not at its end and so waits too
  have hblocked : ∀ j, s.Unfinished j → ∃ b, s.Unfinished b ∧ BlockedBy s.locks j b := by
    intro j hj
    obtain ⟨l, hw⟩ := hwaiting j hj
    obtain ⟨b, hb⟩ := (hs l).exists_holds hw
    exact ⟨b, ho.unfinished_of_holds hb, l, hw, .inl hb⟩
  let r : Fin s.calls.length → Fin s.calls.length → Prop :=
    fun b c => Relation.TransGen (BlockedBy s.locks) c b
  have : IsTrans (Fin s.calls.length) r := ⟨fun _ _ _ hab hbc => hbc.trans hab⟩
  have : Std.Irrefl r := ⟨fun c hc => hd ⟨c, hc⟩⟩
  obtain ⟨c, hc, hmin⟩ := (Finite.wellFounded_of_trans_of_irrefl r).has_min
    {c | s.Unfinished c} ⟨⟨k, hk.lt⟩, hk⟩
  obtain ⟨b, hb, hcb⟩ := hblocked c hc
  exact hmin ⟨b, hb.lt⟩ hb (.single hcb)

end LockSystem
