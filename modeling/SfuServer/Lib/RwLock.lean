import Mathlib.Tactic
import SfuServer.Lib.Machine

/-!
Locks for readers and writers that serve those who wait in the order in which they came, and
programs that take several of them.

A reader is let in at once only if nobody waits, so it queues behind a writer that waits for
other readers.  A lock that is given up is given to the first of those who wait, and to those
after it as long as it is free for them.

* `RwLock`, `request`, `release`: a lock, with its holders and its queue;
* `BlockedBy`, `Deadlock`: who waits for whom, and a cycle of callers that wait for each other;
* `not_deadlock_of_rank`: there is none if each caller waits for a lock of a higher rank than
  those that it holds;
* `LockProg`, `Obeys`: programs that take locks and share data, and the order in which they
  take the locks;
* `LockSystem`, `lockMachine`: any number of programs that run concurrently;
* `orderly_step`: whoever waits for a lock holds what the order says;
* `waitsHolding_step`, `waitsHolding_of_asks`: when a caller comes to wait for a lock while it
  holds another;
* `alone`, `exec_alone`: what a program comes to where no other one runs.
-/

/-- What a lock is taken for. -/
inductive LockMode where
  | read
  | write
  deriving DecidableEq, Repr

/-- A lock: the callers that hold it, and those that wait for it in the order in which they
came. -/
structure RwLock (κ : Type*) where
  holders : List (κ × LockMode)
  queue : List (κ × LockMode)
  deriving DecidableEq

namespace RwLock

variable {κ : Type*} {r : RwLock κ} {b c : κ} {m : LockMode}

/-- A lock that nobody has taken. -/
def new : RwLock κ := ⟨[], []⟩

/-- Beside these holders there is room for one more in the given mode. -/
def Free (holders : List (κ × LockMode)) : LockMode → Prop
  | .read => ∀ h ∈ holders, h.2 = .read
  | .write => holders = []

instance (holders : List (κ × LockMode)) : ∀ m, Decidable (Free holders m)
  | .read => inferInstanceAs (Decidable (∀ h ∈ holders, _))
  | .write => decidable_of_iff (holders.isEmpty = true) List.isEmpty_iff

/-- A request is granted at once: nobody waits, and the lock is free. -/
def Grants (r : RwLock κ) (m : LockMode) : Prop := r.queue = [] ∧ Free r.holders m

instance : Decidable (r.Grants m) :=
  decidable_of_iff (r.queue.isEmpty = true ∧ Free r.holders m)
    (by rw [Grants, List.isEmpty_iff])

/-- A caller asks for the lock. -/
def request (r : RwLock κ) (c : κ) (m : LockMode) : RwLock κ :=
  if r.Grants m then { r with holders := r.holders ++ [(c, m)] }
  else { r with queue := r.queue ++ [(c, m)] }

/-- Those who wait are let in one after the other, as long as the lock is free for the next. -/
def serve (holders : List (κ × LockMode)) : List (κ × LockMode) → RwLock κ
  | [] => ⟨holders, []⟩
  | w :: ws => if Free holders w.2 then serve (holders ++ [w]) ws else ⟨holders, w :: ws⟩

/-- A holder gives the lock up. -/
def release [DecidableEq κ] (r : RwLock κ) (c : κ) : RwLock κ :=
  serve (r.holders.filter fun h => h.1 ≠ c) r.queue

/-! ### Holders and waiters -/

/-- The callers that wait, in their order. -/
def waiters (r : RwLock κ) : List κ := r.queue.map Prod.fst

/-- All who have asked for the lock and not given it up. -/
def callers (r : RwLock κ) : List κ := r.holders.map Prod.fst ++ r.waiters

/-- The caller holds the lock. -/
def Holds (r : RwLock κ) (c : κ) : Prop := c ∈ r.holders.map Prod.fst

/-- The caller waits for the lock. -/
def Waits (r : RwLock κ) (c : κ) : Prop := c ∈ r.waiters

/-- The caller `b` waits for the lock ahead of `c`. -/
def Ahead [DecidableEq κ] (r : RwLock κ) (b c : κ) : Prop :=
  r.Waits c ∧ r.waiters.idxOf b < r.waiters.idxOf c

instance [DecidableEq κ] : Decidable (r.Holds c) := inferInstanceAs (Decidable (c ∈ _))

instance [DecidableEq κ] : Decidable (r.Waits c) := inferInstanceAs (Decidable (c ∈ _))

instance [DecidableEq κ] : Decidable (r.Ahead b c) := inferInstanceAs (Decidable (_ ∧ _))

lemma mem_callers_iff : c ∈ r.callers ↔ r.Holds c ∨ r.Waits c := List.mem_append

/-- Where nobody is counted twice, a caller does not wait for a lock that it holds. -/
lemma Waits.not_holds (hw : r.Waits c) (hnodup : r.callers.Nodup) : ¬ r.Holds c :=
  fun hc => List.disjoint_of_nodup_append hnodup hc hw

lemma callers_request : (r.request c m).callers.Perm (c :: r.callers) := by
  rw [request]
  split_ifs with h
  · simp only [callers, waiters, List.map_append, List.map_cons, List.map_nil, h.1, List.append_nil]
    exact List.perm_append_singleton c _
  · simp only [callers, waiters, List.map_append, List.map_cons, List.map_nil, ← List.append_assoc]
    exact List.perm_append_singleton c _

/-- Who asks for a lock is one of its callers from then on. -/
lemma mem_callers_request : b ∈ (r.request c m).callers ↔ b = c ∨ b ∈ r.callers := by
  rw [callers_request.mem_iff, List.mem_cons]

/-- A caller comes to wait by a request that is not granted. -/
lemma waits_request_iff : (r.request c m).Waits b ↔ r.Waits b ∨ b = c ∧ ¬ r.Grants m := by
  rw [request]
  split_ifs with h
  · simp [Waits, waiters, h]
  · simp [Waits, waiters, h]

/-- A request that is not granted changes nothing about who holds the lock. -/
lemma holds_request_of_not (h : ¬ r.Grants m) : (r.request c m).Holds b ↔ r.Holds b := by
  rw [request, if_neg h]
  rfl

/-- To let waiters in changes nothing about who has asked. -/
lemma callers_serve (holders queue : List (κ × LockMode)) :
    (serve holders queue).callers = (⟨holders, queue⟩ : RwLock κ).callers := by
  induction queue generalizing holders with
  | nil => rfl
  | cons w ws ih =>
      rw [serve]
      split_ifs
      · rw [ih]
        simp [callers, waiters]
      · rfl

lemma waits_of_serve {holders queue : List (κ × LockMode)} (h : (serve holders queue).Waits c) :
    c ∈ queue.map Prod.fst := by
  induction queue generalizing holders with
  | nil => exact h
  | cons w ws ih =>
      rw [serve] at h
      split_ifs at h
      · exact List.mem_cons_of_mem _ (ih h)
      · exact h

/-- Who gives a lock up that it holds is no caller any more, and all others are. -/
lemma callers_release [DecidableEq κ] (hc : ¬ r.Waits c) :
    (r.release c).callers = r.callers.filter (· ≠ c) := by
  have hqueue : r.waiters.filter (· ≠ c) = r.waiters :=
    List.filter_eq_self.mpr fun b hb => decide_eq_true fun h => hc (h ▸ hb)
  rw [release, callers_serve, callers, callers, List.filter_append, hqueue, List.filter_map]
  rfl

/-- Nobody comes to wait when a lock is given up. -/
lemma waits_of_release [DecidableEq κ] (h : (r.release c).Waits b) : r.Waits b :=
  waits_of_serve h

/-- Who is ahead of a waiter waits. -/
lemma Ahead.waits [DecidableEq κ] (h : r.Ahead b c) : r.Waits b :=
  List.idxOf_lt_length_iff.mp (h.2.trans_le List.idxOf_le_length)

lemma Ahead.trans [DecidableEq κ] {a : κ} (hab : r.Ahead a b) (hbc : r.Ahead b c) :
    r.Ahead a c :=
  ⟨hbc.1, hab.2.trans hbc.2⟩

lemma not_ahead_self [DecidableEq κ] : ¬ r.Ahead c c := fun h => lt_irrefl _ h.2

end RwLock

/-! ### Deadlock -/

section Deadlock

variable {κ L : Type*} [DecidableEq κ] {locks : L → RwLock κ} {b c : κ}

/-- The caller `c` waits for a lock that `b` holds, or waits for ahead of it. -/
def BlockedBy (locks : L → RwLock κ) (c b : κ) : Prop :=
  ∃ l, (locks l).Waits c ∧ ((locks l).Holds b ∨ (locks l).Ahead b c)

/-- A cycle of callers each of which is blocked by the next. -/
def Deadlock (locks : L → RwLock κ) : Prop := ∃ c, Relation.TransGen (BlockedBy locks) c c

/-- Along a chain of blocked callers the ranks of the locks that they wait for grow, or it stays
at one lock and goes forward in its queue. -/
lemma rank_of_transGen {rank : L → ℕ}
    (hrank : ∀ c l l', (locks l).Waits c → (locks l').Holds c → rank l' < rank l)
    (hone : ∀ c l l', (locks l).Waits c → (locks l').Waits c → l = l')
    (h : Relation.TransGen (BlockedBy locks) c b) {l' : L} (hb : (locks l').Waits b) :
    ∃ l, (locks l).Waits c ∧ (rank l < rank l' ∨ l = l' ∧ (locks l).Ahead b c) := by
  induction h generalizing l' with
  | single hcb =>
      obtain ⟨l, hc, hholds | hahead⟩ := hcb
      · exact ⟨l, hc, .inl (hrank _ _ _ hb hholds)⟩
      · by_cases hl : l = l'
        · exact ⟨l, hc, .inr ⟨hl, hahead⟩⟩
        · exact absurd (hone _ l l' hahead.waits hb) hl
  | tail _ hstep ih =>
      obtain ⟨l₁, hd, hholds | hahead⟩ := hstep
      · obtain ⟨l, hc, hlt | ⟨rfl, -⟩⟩ := ih hd
        · exact ⟨l, hc, .inl (hlt.trans (hrank _ _ _ hb hholds))⟩
        · exact ⟨l, hc, .inl (hrank _ _ _ hb hholds)⟩
      · obtain rfl := hone _ l₁ l' hahead.waits hb
        obtain ⟨l, hc, hlt | ⟨rfl, hahead'⟩⟩ := ih hd
        · exact ⟨l, hc, .inl hlt⟩
        · exact ⟨l, hc, .inr ⟨rfl, hahead.trans hahead'⟩⟩

/-- **Ranks exclude deadlocks**: if each caller waits for one lock at most, which ranks above all
locks that it holds, then no callers block each other in a cycle. -/
theorem not_deadlock_of_rank (rank : L → ℕ)
    (hrank : ∀ c l l', (locks l).Waits c → (locks l').Holds c → rank l' < rank l)
    (hone : ∀ c l l', (locks l).Waits c → (locks l').Waits c → l = l') : ¬ Deadlock locks := by
  rintro ⟨c, hc⟩
  obtain ⟨b, ⟨l', hwaits, -⟩, -⟩ := Relation.TransGen.head'_iff.mp hc
  obtain ⟨l, hl, hlt | ⟨rfl, hahead⟩⟩ := rank_of_transGen hrank hone hc hwaits
  · exact lt_irrefl _ (hone c l l' hl hwaits ▸ hlt)
  · exact RwLock.not_ahead_self hahead

end Deadlock

/-! ### Programs -/

/-- A program that takes locks and reads and writes shared data, one step after the other. -/
inductive LockProg (L D α : Type) where
  | pure (a : α)
  | acquire (l : L) (m : LockMode) (next : LockProg L D α)
  | release (l : L) (next : LockProg L D α)
  | get (next : D → LockProg L D α)
  | put (f : D → D) (next : LockProg L D α)

namespace LockProg

variable {L D α β : Type}

/-- One program after the other. -/
def bind : LockProg L D α → (α → LockProg L D β) → LockProg L D β
  | .pure a, k => k a
  | .acquire l m next, k => .acquire l m (next.bind k)
  | .release l next, k => .release l (next.bind k)
  | .get next, k => .get fun d => (next d).bind k
  | .put f next, k => .put f (next.bind k)

instance : Monad (LockProg L D) where
  pure := .pure
  bind := bind

/-- To take a lock. -/
def lock (l : L) (m : LockMode) : LockProg L D Unit := .acquire l m (.pure ())

/-- To give a lock up. -/
def unlock (l : L) : LockProg L D Unit := .release l (.pure ())

/-- To read from the data. -/
def read (f : D → α) : LockProg L D α := .get fun d => .pure (f d)

/-- To change the data. -/
def modify (f : D → D) : LockProg L D Unit := .put f (.pure ())

/-- The lock that the program asks for next, and what for. -/
def asks : LockProg L D α → Option (L × LockMode)
  | .acquire l m _ => some (l, m)
  | .pure _ | .release .. | .get _ | .put .. => none

/-- The program where no other one runs: its result, and the data that it leaves. -/
def alone : LockProg L D α → D → α × D
  | .pure a, d => (a, d)
  | .acquire _ _ next, d => next.alone d
  | .release _ next, d => next.alone d
  | .get next, d => (next d).alone d
  | .put f next, d => next.alone (f d)

/-- One program after the other, where no third one runs. -/
lemma alone_bind (p : LockProg L D α) (k : α → LockProg L D β) (d : D) :
    (p >>= k).alone d = (k (p.alone d).1).alone (p.alone d).2 := by
  induction p generalizing d with
  | pure a => rfl
  | acquire l m next ih => exact ih d
  | release l next ih => exact ih d
  | get next ih => exact ih d d
  | put f next ih => exact ih (f d)

variable [DecidableEq L] {R : List L → L → Prop} {held : List L}

/-- The program takes locks only as the order `R` says, where `held` are the locks that it holds,
and gives up all of them. -/
def Obeys (R : List L → L → Prop) : List L → LockProg L D α → Prop
  | held, .pure _ => held = []
  | held, .acquire l _ next => R held l ∧ l ∉ held ∧ next.Obeys R (l :: held)
  | held, .release l next => l ∈ held ∧ next.Obeys R (held.erase l)
  | held, .get next => ∀ d, (next d).Obeys R held
  | held, .put _ next => next.Obeys R held

@[simp] lemma obeys_pure {a : α} : (Pure.pure a : LockProg L D α).Obeys R held ↔ held = [] :=
  Iff.rfl

@[simp] lemma obeys_lock_bind {l : L} {m : LockMode} {k : Unit → LockProg L D α} :
    (lock l m >>= k).Obeys R held ↔ R held l ∧ l ∉ held ∧ (k ()).Obeys R (l :: held) := Iff.rfl

@[simp] lemma obeys_unlock_bind {l : L} {k : Unit → LockProg L D α} :
    (unlock l >>= k).Obeys R held ↔ l ∈ held ∧ (k ()).Obeys R (held.erase l) := Iff.rfl

@[simp] lemma obeys_read_bind {f : D → β} {k : β → LockProg L D α} :
    (read f >>= k).Obeys R held ↔ ∀ d, (k (f d)).Obeys R held := Iff.rfl

@[simp] lemma obeys_modify {f : D → D} : (modify f : LockProg L D Unit).Obeys R held ↔ held = [] :=
  Iff.rfl

@[simp] lemma obeys_modify_bind {f : D → D} {k : Unit → LockProg L D α} :
    (modify f >>= k).Obeys R held ↔ (k ()).Obeys R held := Iff.rfl

/-- A program that holds nothing can follow. -/
lemma Obeys.bind {p : LockProg L D α} {k : α → LockProg L D β} (hp : p.Obeys R held)
    (hk : ∀ a, (k a).Obeys R []) : (p >>= k).Obeys R held := by
  induction p generalizing held with
  | pure a => exact hp ▸ hk a
  | acquire l m next ih => exact ⟨hp.1, hp.2.1, ih hp.2.2⟩
  | release l next ih => exact ⟨hp.1, ih hp.2⟩
  | get next ih => exact fun d => ih d (hp d)
  | put f next ih => exact ih hp

end LockProg

/-! ### Concurrent programs -/

/-- Programs that run concurrently, each with its number as a caller of the locks. -/
structure LockSystem (L D α : Type) where
  locks : L → RwLock ℕ
  calls : List (LockProg L D α)
  data : D

/-- A program is started, or one of them takes its next step. -/
inductive LockAction (C : Type) where
  | start (c : C)
  | run (k : ℕ)
  deriving DecidableEq

namespace LockSystem

variable {L D α C : Type} [DecidableEq L]

/-- Nothing is started yet. -/
def new (d : D) : LockSystem L D α := ⟨fun _ => .new, [], d⟩

/-- A call waits for a lock. -/
def Waiting (s : LockSystem L D α) (k : ℕ) : Prop := ∃ l, (s.locks l).Waits k

instance [Fintype L] (s : LockSystem L D α) (k : ℕ) : Decidable (s.Waiting k) :=
  inferInstanceAs (Decidable (∃ l, (s.locks l).Waits k))

/-- A change of a lock. -/
def setLock (s : LockSystem L D α) (l : L) (r : RwLock ℕ) : LockSystem L D α :=
  { s with locks := Function.update s.locks l r }

/-- A call goes on with the rest of its program. -/
def setCall (s : LockSystem L D α) (k : ℕ) (p : LockProg L D α) : LockSystem L D α :=
  { s with calls := s.calls.set k p }

/-- The next step of a program, as the call `k`. -/
def advance (s : LockSystem L D α) (k : ℕ) : LockProg L D α → Option (LockSystem L D α)
  | .pure _ => none
  | .acquire l m next => some ((s.setLock l ((s.locks l).request k m)).setCall k next)
  | .release l next => some ((s.setLock l ((s.locks l).release k)).setCall k next)
  | .get next => some (s.setCall k (next s.data))
  | .put f next => some ({ s with data := f s.data }.setCall k next)

/-- A call that does not wait takes its next step. -/
def runStep [Fintype L] (s : LockSystem L D α) (k : ℕ) : Option (LockSystem L D α) :=
  s.calls[k]?.bind fun p => if s.Waiting k then none else s.advance k p

/-- One step, where `prog` are the programs that can be started. -/
def step [Fintype L] (prog : C → LockProg L D α) (s : LockSystem L D α) :
    LockAction C → Option (LockSystem L D α)
  | .start c => some { s with calls := s.calls ++ [prog c] }
  | .run k => s.runStep k

end LockSystem

/-- The machine of concurrent programs, on data that `init` describes. -/
def lockMachine {L D α C : Type} [Fintype L] [DecidableEq L] (prog : C → LockProg L D α)
    (init : D → Prop) : Machine (LockSystem L D α) (LockAction C) where
  init s := ∃ d, init d ∧ s = .new d
  step := LockSystem.step prog

namespace LockSystem

variable {L D α C : Type} {R : List L → L → Prop} {s t : LockSystem L D α}
  {a : LockAction C} {p : LockProg L D α} {held : List L} {l l' : L} {j k : ℕ}

@[simp] lemma locks_setCall : (s.setCall k p).locks = s.locks := rfl

variable [DecidableEq L]

/-- The call `k` is at the program `p`: it has asked for the locks `held`, the last one first,
and waits for no other than the last one. -/
structure Stands (R : List L → L → Prop) (s : LockSystem L D α) (k : ℕ) (p : LockProg L D α)
    (held : List L) : Prop where
  obeys : p.Obeys R held
  nodup : held.Nodup
  callers : ∀ l, k ∈ (s.locks l).callers ↔ l ∈ held
  waits : ∀ l, (s.locks l).Waits k → ∃ rest, held = l :: rest ∧ R rest l

/-- All calls take their locks in the order, and no lock counts a call twice. -/
structure Orderly (R : List L → L → Prop) (s : LockSystem L D α) : Prop where
  nodup : ∀ l, (s.locks l).callers.Nodup
  started : ∀ l k, k ∈ (s.locks l).callers → k < s.calls.length
  stands : ∀ k p, s.calls[k]? = some p → ∃ held, s.Stands R k p held

lemma orderly_new (d : D) : (new d : LockSystem L D α).Orderly R where
  nodup _ := List.nodup_nil
  started _ _ h := absurd h List.not_mem_nil
  stands _ _ h := by cases h

/-- Who waits for a lock holds the locks that the order lets it take this one after. -/
lemma Orderly.exists_of_waits (ho : s.Orderly R) (hw : (s.locks l).Waits k) :
    ∃ held, R held l ∧ ∀ l', (s.locks l').Holds k ↔ l' ∈ held := by
  have hlt := ho.started l k (RwLock.mem_callers_iff.mpr (.inr hw))
  obtain ⟨held, hk⟩ := ho.stands k _ (List.getElem?_eq_getElem hlt)
  obtain ⟨rest, rfl, hR⟩ := hk.waits l hw
  refine ⟨rest, hR, fun l' => ⟨fun hholds => ?_, fun hmem => ?_⟩⟩
  · rcases List.mem_cons.mp ((hk.callers l').mp (RwLock.mem_callers_iff.mpr (.inl hholds))) with
      rfl | hmem
    · exact absurd hholds (hw.not_holds (ho.nodup _))
    · exact hmem
  · rcases RwLock.mem_callers_iff.mp ((hk.callers l').mpr (List.mem_cons_of_mem _ hmem)) with
      hholds | hw'
    · exact hholds
    · obtain ⟨_, heq, -⟩ := hk.waits l' hw'
      obtain ⟨rfl, -⟩ := List.cons.inj heq
      exact absurd hmem (List.nodup_cons.mp hk.nodup).1

/-- A call waits for one lock at most. -/
lemma Orderly.waits_unique (ho : s.Orderly R) (hw : (s.locks l).Waits k)
    (hw' : (s.locks l').Waits k) : l = l' := by
  have hlt := ho.started l k (RwLock.mem_callers_iff.mpr (.inr hw))
  obtain ⟨held, hk⟩ := ho.stands k _ (List.getElem?_eq_getElem hlt)
  obtain ⟨rest, rfl, -⟩ := hk.waits l hw
  obtain ⟨_, heq, -⟩ := hk.waits l' hw'
  exact (List.cons.inj heq).1

/-! ### What a step does to the locks -/

lemma locks_setLock_self {r : RwLock ℕ} : (s.setLock l r).locks l = r :=
  Function.update_self ..

lemma locks_setLock_of_ne {r : RwLock ℕ} (h : l' ≠ l) : (s.setLock l r).locks l' = s.locks l' :=
  Function.update_of_ne h ..

/-- What a step of the call `k` leaves as it was: the other calls, which have asked for the same
locks as before, and of which none comes to wait. -/
structure Moves (s t : LockSystem L D α) (k : ℕ) : Prop where
  length : t.calls.length = s.calls.length
  calls : ∀ j ≠ k, t.calls[j]? = s.calls[j]?
  callers : ∀ j ≠ k, ∀ l, j ∈ (t.locks l).callers ↔ j ∈ (s.locks l).callers
  waits : ∀ j ≠ k, ∀ l, (t.locks l).Waits j → (s.locks l).Waits j

lemma Moves.stands (h : s.Moves t k) (hj : j ≠ k) (hs : s.Stands R j p held) :
    t.Stands R j p held :=
  ⟨hs.obeys, hs.nodup, fun l => (h.callers j hj l).trans (hs.callers l),
    fun l hw => hs.waits l (h.waits j hj l hw)⟩

/-- A call that changes one lock and goes on. -/
lemma moves_of_lock {r : RwLock ℕ} (p : LockProg L D α)
    (hcallers : ∀ j ≠ k, j ∈ r.callers ↔ j ∈ (s.locks l).callers)
    (hwaits : ∀ j ≠ k, r.Waits j → (s.locks l).Waits j) :
    s.Moves ((s.setLock l r).setCall k p) k where
  length := List.length_set
  calls j hj := List.getElem?_set_ne (Ne.symm hj)
  callers j hj l' := by
    by_cases hl : l' = l
    · subst hl
      rw [locks_setCall, locks_setLock_self]
      exact hcallers j hj
    · rw [locks_setCall, locks_setLock_of_ne hl]
  waits j hj l' hw := by
    by_cases hl : l' = l
    · subst hl
      rw [locks_setCall, locks_setLock_self] at hw
      exact hwaits j hj hw
    · rwa [locks_setCall, locks_setLock_of_ne hl] at hw

/-- A call that asks for a lock. -/
lemma moves_request (m : LockMode) (p : LockProg L D α) :
    s.Moves ((s.setLock l ((s.locks l).request k m)).setCall k p) k :=
  moves_of_lock p (fun _ hj => RwLock.mem_callers_request.trans (or_iff_right hj))
    fun _ hj hw => (RwLock.waits_request_iff.mp hw).resolve_right fun h => hj h.1

/-- A call that gives a lock up. -/
lemma moves_release (p : LockProg L D α) (hfree : ¬ (s.locks l).Waits k) :
    s.Moves ((s.setLock l ((s.locks l).release k)).setCall k p) k :=
  moves_of_lock p (fun _ hj => by simp [RwLock.callers_release hfree, hj])
    fun _ _ hw => RwLock.waits_of_release hw

omit [DecidableEq L] in
/-- A call that changes no lock and goes on. -/
lemma moves_setCall (hlocks : t.locks = s.locks) (hcalls : t.calls = s.calls.set k p) :
    s.Moves t k where
  length := by rw [hcalls, List.length_set]
  calls j hj := by rw [hcalls, List.getElem?_set_ne (Ne.symm hj)]
  callers _ _ _ := by rw [hlocks]
  waits _ _ _ hw := hlocks ▸ hw

/-- What belongs to the step of one call: it is at its place afterwards, and no lock counts a call
twice. -/
lemma Orderly.of_moves (ho : s.Orderly R) (hm : s.Moves t k) (hp : t.calls[k]? = some p)
    (hk : t.Stands R k p held) (hnodup : ∀ l, (t.locks l).callers.Nodup) : t.Orderly R where
  nodup := hnodup
  started l j hj := by
    by_cases hjk : j = k
    · exact hjk ▸ (List.getElem?_eq_some_iff.mp hp).1
    · exact hm.length ▸ ho.started l j ((hm.callers j hjk l).mp hj)
  stands j q hq := by
    by_cases hjk : j = k
    · subst hjk
      exact ⟨held, Option.some.inj (hp.symm.trans hq) ▸ hk⟩
    · obtain ⟨held', hj⟩ := ho.stands j q (hm.calls j hjk ▸ hq)
      exact ⟨held', hm.stands hjk hj⟩

/-- A change of one lock under which that lock counts no call twice. -/
lemma nodup_setLock {r : RwLock ℕ} (h : ∀ l, (s.locks l).callers.Nodup) (hr : r.callers.Nodup)
    (l' : L) : ((s.setLock l r).locks l').callers.Nodup := by
  by_cases hl' : l' = l
  · subst hl'
    rwa [locks_setLock_self]
  · rw [locks_setLock_of_ne hl']
    exact h l'

/-- The place of a call that asks for a lock. -/
lemma stands_request {m : LockMode} {next : LockProg L D α}
    (hk : s.Stands R k (.acquire l m next) held) (hfree : ¬ s.Waiting k) :
    ((s.setLock l ((s.locks l).request k m)).setCall k next).Stands R k next (l :: held) := by
  obtain ⟨hR, hl, hnext⟩ := hk.obeys
  refine ⟨hnext, List.nodup_cons.mpr ⟨hl, hk.nodup⟩, fun l' => ?_, fun l' hw => ?_⟩
  · by_cases hl' : l' = l
    · subst hl'
      rw [locks_setCall, locks_setLock_self]
      exact iff_of_true (RwLock.mem_callers_request.mpr (.inl rfl)) List.mem_cons_self
    · rw [locks_setCall, locks_setLock_of_ne hl', hk.callers, List.mem_cons, or_iff_right hl']
  · by_cases hl' : l' = l
    · exact ⟨held, by rw [hl'], hl' ▸ hR⟩
    · rw [locks_setCall, locks_setLock_of_ne hl'] at hw
      exact absurd ⟨l', hw⟩ hfree

/-- The place of a call that gives a lock up. -/
lemma stands_release {next : LockProg L D α} (hk : s.Stands R k (.release l next) held)
    (hfree : ¬ s.Waiting k) :
    ((s.setLock l ((s.locks l).release k)).setCall k next).Stands R k next (held.erase l) := by
  refine ⟨hk.obeys.2, hk.nodup.erase l, fun l' => ?_, fun l' hw => absurd ?_ hfree⟩
  · by_cases hl' : l' = l
    · subst hl'
      rw [locks_setCall, locks_setLock_self, RwLock.callers_release fun hw => hfree ⟨l', hw⟩]
      exact iff_of_false (by simp) hk.nodup.not_mem_erase
    · rw [locks_setCall, locks_setLock_of_ne hl', hk.callers, List.mem_erase_of_ne hl']
  · by_cases hl' : l' = l
    · subst hl'
      rw [locks_setCall, locks_setLock_self] at hw
      exact ⟨l', RwLock.waits_of_release hw⟩
    · rw [locks_setCall, locks_setLock_of_ne hl'] at hw
      exact ⟨l', hw⟩

/-- A call asks for the next lock. -/
lemma orderly_acquire {m : LockMode} {next : LockProg L D α} (ho : s.Orderly R)
    (hp : s.calls[k]? = some (.acquire l m next)) (hfree : ¬ s.Waiting k) :
    ((s.setLock l ((s.locks l).request k m)).setCall k next).Orderly R := by
  obtain ⟨held, hk⟩ := ho.stands k _ hp
  have hnew : k ∉ (s.locks l).callers := fun h => hk.obeys.2.1 ((hk.callers l).mp h)
  have hnodup : ((s.locks l).request k m).callers.Nodup := by
    rw [RwLock.callers_request.nodup_iff, List.nodup_cons]
    exact ⟨hnew, ho.nodup l⟩
  exact ho.of_moves (moves_request m next)
    (List.getElem?_set_self (List.getElem?_eq_some_iff.mp hp).1) (stands_request hk hfree)
    (nodup_setLock ho.nodup hnodup)

/-- A call gives a lock up. -/
lemma orderly_release {next : LockProg L D α} (ho : s.Orderly R)
    (hp : s.calls[k]? = some (.release l next)) (hfree : ¬ s.Waiting k) :
    ((s.setLock l ((s.locks l).release k)).setCall k next).Orderly R := by
  obtain ⟨held, hk⟩ := ho.stands k _ hp
  have hnot : ¬ (s.locks l).Waits k := fun hw => hfree ⟨l, hw⟩
  have hnodup : ((s.locks l).release k).callers.Nodup := by
    rw [RwLock.callers_release hnot]
    exact (ho.nodup l).filter _
  exact ho.of_moves (moves_release next hnot)
    (List.getElem?_set_self (List.getElem?_eq_some_iff.mp hp).1) (stands_release hk hfree)
    (nodup_setLock ho.nodup hnodup)

/-- The place of a call whose locks stay as they are. -/
lemma Stands.of_locks {q : LockProg L D α} (hk : s.Stands R k p held) (hlocks : t.locks = s.locks)
    (hq : q.Obeys R held) : t.Stands R k q held :=
  ⟨hq, hk.nodup, fun l => hlocks ▸ hk.callers l, fun l hw => hk.waits l (hlocks ▸ hw)⟩

/-- **Locks are taken in the order**: if all programs that can be started take their locks in the
order `R`, then so do all calls after each step. -/
theorem orderly_step [Fintype L] {prog : C → LockProg L D α} (hprog : ∀ c, (prog c).Obeys R [])
    (ho : s.Orderly R) (hst : s.step prog a = some t) : t.Orderly R := by
  cases a with
  | start c =>
      cases hst
      refine ⟨ho.nodup, fun l j hj => ?_, fun j p hp => ?_⟩
      · rw [List.length_append]
        exact Nat.lt_add_right _ (ho.started l j hj)
      · rcases (Nat.lt_trichotomy j s.calls.length) with hlt | rfl | hgt
        · obtain ⟨held, hj⟩ := ho.stands j p ((List.getElem?_append_left hlt).symm.trans hp)
          exact ⟨held, hj.of_locks rfl hj.obeys⟩
        · obtain rfl := Option.some.inj (List.getElem?_concat_length.symm.trans hp)
          have hnone : ∀ l, s.calls.length ∉ (s.locks l).callers :=
            fun l hl => lt_irrefl _ (ho.started l _ hl)
          exact ⟨[], hprog c, List.nodup_nil, fun l => iff_of_false (hnone l) List.not_mem_nil,
            fun l hw => absurd (RwLock.mem_callers_iff.mpr (.inr hw)) (hnone l)⟩
        · rw [List.getElem?_eq_none (by simpa using hgt)] at hp
          cases hp
  | run k =>
      obtain ⟨p, hp, hst⟩ := Option.bind_eq_some_iff.mp hst
      obtain ⟨hfree, hst⟩ := Option.ite_none_left_eq_some.mp hst
      have hlt := (List.getElem?_eq_some_iff.mp hp).1
      cases p with
      | pure x => cases hst
      | acquire l m next =>
          cases hst
          exact orderly_acquire ho hp hfree
      | release l next =>
          cases hst
          exact orderly_release ho hp hfree
      | get next =>
          cases hst
          obtain ⟨held, hk⟩ := ho.stands k _ hp
          exact ho.of_moves (moves_setCall rfl rfl) (List.getElem?_set_self hlt)
            (hk.of_locks rfl (hk.obeys s.data)) ho.nodup
      | put f next =>
          cases hst
          obtain ⟨held, hk⟩ := ho.stands k _ hp
          exact ho.of_moves (moves_setCall rfl rfl) (List.getElem?_set_self hlt)
            (hk.of_locks rfl hk.obeys) ho.nodup

/-! ### Who waits for a lock while it holds another -/

/-- A call waits for the lock `l` while it holds `l'`. -/
def WaitsHolding (s : LockSystem L D α) (l l' : L) : Prop :=
  ∃ k ∈ (s.locks l).waiters, (s.locks l').Holds k

instance (s : LockSystem L D α) : Decidable (s.WaitsHolding l l') :=
  inferInstanceAs (Decidable (∃ k ∈ (s.locks l).waiters, _))

/-- The next step of the call `k`, which holds the lock `l'`, asks for `l`, which is not granted
at once. -/
def Asks (s : LockSystem L D α) : LockAction C → L → L → Prop
  | .start _, _, _ => False
  | .run k, l, l' => ∃ x ∈ s.calls[k]?.bind LockProg.asks,
      x.1 = l ∧ ¬ (s.locks l).Grants x.2 ∧ (s.locks l').Holds k

instance (s : LockSystem L D α) (a : LockAction C) : Decidable (s.Asks a l l') :=
  match a with
  | .start _ => isFalse id
  | .run k => inferInstanceAs (Decidable (∃ x ∈ s.calls[k]?.bind LockProg.asks, _))

omit [DecidableEq L] in
/-- A step asks for one lock at most. -/
lemma Asks.unique {x x' : L} (h : s.Asks a l l') (h' : s.Asks a x x') : l = x := by
  cases a with
  | start c => exact absurd h id
  | run k =>
      obtain ⟨y, hy, rfl, -⟩ := h
      obtain ⟨z, hz, rfl, -⟩ := h'
      rw [Option.some.inj (hy.symm.trans hz)]

/-- The step of a call moves this call only. -/
lemma moves_advance (hfree : ¬ s.Waiting k) (hst : s.advance k p = some t) : s.Moves t k := by
  cases p with
  | pure x => cases hst
  | acquire l m next =>
      cases hst
      exact moves_request m next
  | release l next =>
      cases hst
      exact moves_release next fun hw => hfree ⟨l, hw⟩
  | get next =>
      cases hst
      exact moves_setCall rfl rfl
  | put f next =>
      cases hst
      exact moves_setCall rfl rfl

/-- A call comes to wait by asking for a lock that is not granted. -/
lemma asks_of_waits (hfree : ¬ s.Waiting k) (hst : s.advance k p = some t)
    (hw : (t.locks l).Waits k) :
    ∃ m next, p = .acquire l m next ∧ ¬ (s.locks l).Grants m ∧
      ∀ l' ≠ l, (t.locks l').Holds k → (s.locks l').Holds k := by
  cases p with
  | pure x => cases hst
  | acquire l₁ m next =>
      cases hst
      by_cases hl : l = l₁
      · subst hl
        rw [locks_setCall, locks_setLock_self] at hw
        refine ⟨m, next, rfl, ((RwLock.waits_request_iff.mp hw).resolve_left
          fun h => hfree ⟨l, h⟩).2, fun l' hl' h => ?_⟩
        rwa [locks_setCall, locks_setLock_of_ne hl'] at h
      · rw [locks_setCall, locks_setLock_of_ne hl] at hw
        exact absurd ⟨l, hw⟩ hfree
  | release l₁ next =>
      cases hst
      by_cases hl : l = l₁
      · subst hl
        rw [locks_setCall, locks_setLock_self] at hw
        exact absurd ⟨l, RwLock.waits_of_release hw⟩ hfree
      · rw [locks_setCall, locks_setLock_of_ne hl] at hw
        exact absurd ⟨l, hw⟩ hfree
  | get next =>
      cases hst
      exact absurd ⟨l, hw⟩ hfree
  | put f next =>
      cases hst
      exact absurd ⟨l, hw⟩ hfree

/-- **Who comes to wait**: a call that waits for `l` while it holds `l'` did so before the step, or
the step is its request. -/
theorem waitsHolding_step [Fintype L] {prog : C → LockProg L D α} (ho : s.Orderly R)
    (ht : t.Orderly R) (hst : s.step prog a = some t) (h : t.WaitsHolding l l') :
    s.WaitsHolding l l' ∨ s.Asks a l l' := by
  obtain ⟨j, hw, hholds⟩ := h
  cases a with
  | start c =>
      cases hst
      exact .inl ⟨j, hw, hholds⟩
  | run k =>
      obtain ⟨p, hp, hst⟩ := Option.bind_eq_some_iff.mp hst
      obtain ⟨hfree, hst⟩ := Option.ite_none_left_eq_some.mp hst
      have hne : l' ≠ l := fun heq => RwLock.Waits.not_holds hw (ht.nodup l) (heq ▸ hholds)
      by_cases hjk : j = k
      · subst hjk
        obtain ⟨m, next, rfl, hgrants, hkeep⟩ := asks_of_waits hfree hst hw
        exact .inr ⟨(l, m), Option.bind_eq_some_iff.mpr ⟨_, hp, rfl⟩, rfl, hgrants,
          hkeep l' hne hholds⟩
      · have hm := moves_advance hfree hst
        have hw' := hm.waits j hjk l hw
        have hcaller := (hm.callers j hjk l').mp (RwLock.mem_callers_iff.mpr (.inl hholds))
        rcases RwLock.mem_callers_iff.mp hcaller with hholds' | hwaits
        · exact .inl ⟨j, hw', hholds'⟩
        · exact absurd (ho.waits_unique hwaits hw') hne

/-- A request that is not granted makes its call wait, and all who wait with a lock in their hands
still do. -/
theorem waitsHolding_of_asks [Fintype L] {prog : C → LockProg L D α}
    (hst : s.step prog a = some t) (h : s.Asks a l l') :
    t.WaitsHolding l l' ∧ ∀ x y, s.WaitsHolding x y → t.WaitsHolding x y := by
  cases a with
  | start c => exact absurd h id
  | run k =>
      obtain ⟨x, hx, rfl, hgrants, hholds⟩ := h
      obtain ⟨p, hp, hst⟩ := Option.bind_eq_some_iff.mp hst
      obtain ⟨hfree, hst⟩ := Option.ite_none_left_eq_some.mp hst
      obtain ⟨q, hq, hasks⟩ := Option.bind_eq_some_iff.mp hx
      obtain rfl := Option.some.inj (hp.symm.trans hq)
      cases p with
      | acquire l m next =>
          cases hasks
          cases hst
          have hholds_iff : ∀ y j, (((s.setLock l ((s.locks l).request k m)).setCall k
              next).locks y).Holds j ↔ (s.locks y).Holds j := by
            intro y j
            by_cases hy : y = l
            · subst hy
              rw [locks_setCall, locks_setLock_self, RwLock.holds_request_of_not hgrants]
            · rw [locks_setCall, locks_setLock_of_ne hy]
          refine ⟨⟨k, ?_, (hholds_iff l' k).mpr hholds⟩, fun x y ⟨j, hw, hj⟩ =>
            ⟨j, ?_, (hholds_iff y j).mpr hj⟩⟩
          · rw [locks_setCall, locks_setLock_self]
            exact RwLock.waits_request_iff.mpr (.inr ⟨rfl, hgrants⟩)
          · by_cases hxl : x = l
            · subst hxl
              rw [locks_setCall, locks_setLock_self]
              exact RwLock.waits_request_iff.mpr (.inl hw)
            · rwa [locks_setCall, locks_setLock_of_ne hxl]
      | _ => cases hasks

/-! ### A program that runs alone -/

/-- The call `k` is at the program `p`, and holds the locks `held`; nobody else holds a lock, and
nobody waits. -/
structure Solo (R : List L → L → Prop) (s : LockSystem L D α) (k : ℕ) (p : LockProg L D α)
    (held : List L) : Prop where
  call : s.calls[k]? = some p
  obeys : p.Obeys R held
  nodup : held.Nodup
  locks : ∀ l, ∃ m, s.locks l = ⟨if l ∈ held then [(k, m)] else [], []⟩

lemma Solo.not_waiting (hs : s.Solo R k p held) : ¬ s.Waiting k := by
  rintro ⟨l, hw⟩
  obtain ⟨m, hl⟩ := hs.locks l
  rw [hl] at hw
  exact absurd hw List.not_mem_nil

/-- The step of a call that runs alone. -/
lemma Solo.step [Fintype L] (prog : C → LockProg L D α) (init : D → Prop)
    (hs : s.Solo R k p held) : (lockMachine prog init).step s (.run k) = s.advance k p := by
  simp [lockMachine, LockSystem.step, runStep, hs.call, hs.not_waiting]

lemma Solo.getElem?_setCall {q : LockProg L D α} (hs : s.Solo R k p held) :
    (s.setCall k q).calls[k]? = some q :=
  List.getElem?_set_self (List.getElem?_eq_some_iff.mp hs.call).1

/-- A lock that is taken while nobody holds it is had at once. -/
lemma Solo.acquire {m : LockMode} {next : LockProg L D α}
    (hs : s.Solo R k (.acquire l m next) held) :
    ((s.setLock l ((s.locks l).request k m)).setCall k next).Solo R k next (l :: held) where
  call := hs.getElem?_setCall
  obeys := hs.obeys.2.2
  nodup := List.nodup_cons.mpr ⟨hs.obeys.2.1, hs.nodup⟩
  locks x := by
    obtain ⟨m', hx⟩ := hs.locks x
    by_cases hxl : x = l
    · subst hxl
      rw [if_neg hs.obeys.2.1] at hx
      have hgrants : (s.locks x).Grants m := by
        rw [hx]
        cases m <;> simp [RwLock.Grants, RwLock.Free]
      refine ⟨m, ?_⟩
      rw [locks_setCall, locks_setLock_self, RwLock.request, if_pos hgrants, hx]
      simp
    · exact ⟨m', by simp [locks_setLock_of_ne hxl, hx, hxl]⟩

/-- A lock that is given up is free again. -/
lemma Solo.release {next : LockProg L D α} (hs : s.Solo R k (.release l next) held) :
    ((s.setLock l ((s.locks l).release k)).setCall k next).Solo R k next (held.erase l) where
  call := hs.getElem?_setCall
  obeys := hs.obeys.2
  nodup := hs.nodup.erase l
  locks x := by
    obtain ⟨m, hx⟩ := hs.locks x
    by_cases hxl : x = l
    · subst hxl
      rw [if_pos hs.obeys.1] at hx
      refine ⟨m, ?_⟩
      rw [locks_setCall, locks_setLock_self, RwLock.release, hx, if_neg hs.nodup.not_mem_erase]
      simp [RwLock.serve]
    · exact ⟨m, by simp [locks_setLock_of_ne hxl, hx, List.mem_erase_of_ne hxl]⟩

/-- **A program that runs alone** comes to its end, with the result and the data that `alone` says,
and leaves every lock free. -/
theorem exec_alone [Fintype L] (prog : C → LockProg L D α) (init : D → Prop)
    (hs : s.Solo R k p held) :
    ∃ n t, (lockMachine prog init).exec s (List.replicate n (.run k)) = some t ∧
      t.calls[k]? = some (.pure (p.alone s.data).1) ∧ t.data = (p.alone s.data).2 ∧
        ∀ l, t.locks l = .new := by
  induction p generalizing s held with
  | pure a =>
      refine ⟨0, s, rfl, hs.call, rfl, fun l => ?_⟩
      obtain ⟨m, hl⟩ := hs.locks l
      obtain rfl : held = [] := hs.obeys
      exact hl
  | acquire l m next ih =>
      obtain ⟨n, t, hexec, hcall, hdata, hlocks⟩ := ih hs.acquire
      exact ⟨n + 1, t, Machine.exec_step (hs.step prog init) hexec, hcall, hdata, hlocks⟩
  | release l next ih =>
      obtain ⟨n, t, hexec, hcall, hdata, hlocks⟩ := ih hs.release
      exact ⟨n + 1, t, Machine.exec_step (hs.step prog init) hexec, hcall, hdata, hlocks⟩
  | get next ih =>
      have hnext : (s.setCall k (next s.data)).Solo R k (next s.data) held :=
        ⟨hs.getElem?_setCall, hs.obeys s.data, hs.nodup, hs.locks⟩
      obtain ⟨n, t, hexec, hcall, hdata, hlocks⟩ := ih s.data hnext
      exact ⟨n + 1, t, Machine.exec_step (hs.step prog init) hexec, hcall, hdata, hlocks⟩
  | put f next ih =>
      have hnext : ({ s with data := f s.data }.setCall k next).Solo R k next held :=
        ⟨hs.getElem?_setCall, hs.obeys, hs.nodup, hs.locks⟩
      obtain ⟨n, t, hexec, hcall, hdata, hlocks⟩ := ih hnext
      exact ⟨n + 1, t, Machine.exec_step (hs.step prog init) hexec, hcall, hdata, hlocks⟩

/-- The only call of a system that is started on free locks. -/
lemma solo_start {d : D} (hobeys : p.Obeys R []) :
    Solo R { (new d : LockSystem L D α) with calls := [p] } 0 p [] :=
  ⟨rfl, hobeys, List.nodup_nil, fun _ => ⟨.read, rfl⟩⟩

end LockSystem
