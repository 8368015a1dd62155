import Mathlib.Tactic

/-!
Bounded broadcast channels: any number of senders, and receivers that each see every
message sent after they subscribed.

A channel keeps the log of the messages it accepted and, for each live receiver, the
position of the next message that receiver will read; a receiver is named by a number.
Only the last `capacity` messages are retained, so a receiver that falls further behind is
told once how many messages it missed and resumes at the oldest retained one.

* `send` fails exactly when there is no live receiver (`send_eq_none_iff`);
* `recv` answers `lagged` exactly when more than `capacity` messages are unread
  (`recv_fst_eq_lagged_iff`), and otherwise the next message, if there is one
  (`recv_fst_eq_empty_iff`);
* `unread` counts what a receiver has not read yet;
* `cursor_of_recv` and the like say where a receiver is after an operation;
* `Reads` says that a receiver has taken exactly what was sent from some position on up to its
  own; it is kept by what goes on beside the receiver (`Reads.follows`) and by its receives
  (`Reads.recv`).

The positions never exceed the length of the log; the structure carries this as a field.
-/

open Std (ExtTreeMap)

/-- A bounded broadcast channel: the messages accepted so far, and the position in them of
every live receiver. -/
structure Broadcast (α : Type*) where
  capacity : ℕ
  log : List α
  cursors : ExtTreeMap ℕ ℕ
  le_length : ∀ r i : ℕ, cursors[r]? = some i → i ≤ log.length

/-- The answer to a receive: nothing to read yet, the number of messages missed, or the
next message. -/
inductive Received (α : Type*) where
  | empty
  | lagged (missed : ℕ)
  | message (m : α)
  deriving DecidableEq, Repr

/-- The message that was received, if one was. -/
def Received.toOption {α : Type*} : Received α → Option α
  | .message m => some m
  | _ => none

lemma Received.toOption_eq_some_iff {α : Type*} {x : Received α} {m : α} :
    x.toOption = some m ↔ x = .message m := by
  cases x <;> simp [toOption]

namespace Broadcast

variable {α : Type*}

/-- How many messages a channel retains: the capacity, rounded up to a power of two. -/
def retained (capacity : ℕ) : ℕ :=
  if capacity ≤ 1 then 1 else 2 ^ ((capacity - 1).log2 + 1)

/-- A channel without messages and without receivers. -/
def new (capacity : ℕ) : Broadcast α where
  capacity := retained capacity
  log := []
  cursors := ∅
  le_length := by simp

/-- The receiver `r` is live. -/
def Live (c : Broadcast α) (r : ℕ) : Prop := r ∈ c.cursors

instance (c : Broadcast α) (r : ℕ) : Decidable (c.Live r) :=
  inferInstanceAs (Decidable (r ∈ c.cursors))

/-- Some receiver is live. -/
def HasReceiver (c : Broadcast α) : Prop := ∃ r, c.Live r

lemma isEmpty_cursors_iff (c : Broadcast α) : c.cursors.isEmpty = false ↔ c.HasReceiver := by
  rw [ExtTreeMap.isEmpty_eq_false_iff, ExtTreeMap.eq_empty_iff_forall_not_mem, HasReceiver]
  simp [Live]

instance (c : Broadcast α) : Decidable c.HasReceiver :=
  decidable_of_iff _ c.isEmpty_cursors_iff

/-- A new receiver, which will read what is sent from now on. -/
def subscribe (c : Broadcast α) (r : ℕ) : Broadcast α where
  capacity := c.capacity
  log := c.log
  cursors := c.cursors.insert r c.log.length
  le_length := by
    intro q i h
    have := c.le_length q i
    grind

/-- The receiver `r` is dropped. -/
def unsubscribe (c : Broadcast α) (r : ℕ) : Broadcast α where
  capacity := c.capacity
  log := c.log
  cursors := c.cursors.erase r
  le_length := by
    intro q i h
    have := c.le_length q i
    grind

/-- The channel after the message `m` was accepted. -/
def push (c : Broadcast α) (m : α) : Broadcast α where
  capacity := c.capacity
  log := c.log ++ [m]
  cursors := c.cursors
  le_length := by
    intro q i h
    have := c.le_length q i h
    grind

/-- Sending: it fails when there is no live receiver. -/
def send (c : Broadcast α) (m : α) : Option (Broadcast α) :=
  if c.HasReceiver then some (c.push m) else none

/-- Sending when the caller ignores the failure. -/
def sendIgnore (c : Broadcast α) (m : α) : Broadcast α := (c.send m).getD c

/-- The number of messages that the receiver `r` has not read. -/
def unread (c : Broadcast α) (r : ℕ) : ℕ :=
  match c.cursors[r]? with
  | none => 0
  | some i => c.log.length - i

/-- The receiver `r` moved to position `i`. -/
def seek (c : Broadcast α) (r i : ℕ) (hi : i ≤ c.log.length) : Broadcast α where
  capacity := c.capacity
  log := c.log
  cursors := c.cursors.insert r i
  le_length := by
    intro q j h
    have := c.le_length q j
    grind

/-- Receiving: a receiver that is more than the capacity behind is moved to the oldest
retained message, the others take the next message. -/
def recv (c : Broadcast α) (r : ℕ) : Received α × Broadcast α :=
  match c.cursors[r]? with
  | none => (.empty, c)
  | some i =>
      if c.capacity < c.log.length - i then
        (.lagged (c.log.length - i - c.capacity),
          c.seek r (c.log.length - c.capacity) (Nat.sub_le _ _))
      else if hi : i < c.log.length then (.message c.log[i], c.seek r (i + 1) hi)
      else (.empty, c)

section Lemmas

variable (c : Broadcast α) (r q : ℕ) (m : α)

@[simp] lemma new_log (n : ℕ) : (new n : Broadcast α).log = [] := rfl

@[simp] lemma not_hasReceiver_new (n : ℕ) : ¬ (new n : Broadcast α).HasReceiver := by
  simp [new, HasReceiver, Live]

@[simp] lemma push_log : (c.push m).log = c.log ++ [m] := rfl

@[simp] lemma sendIgnore_capacity : (c.sendIgnore m).capacity = c.capacity := by
  rw [sendIgnore, send]
  split_ifs <;> rfl

@[simp] lemma live_subscribe : (c.subscribe r).Live q ↔ q = r ∨ c.Live q := by
  simp only [Live, subscribe]
  grind

@[simp] lemma live_unsubscribe : (c.unsubscribe r).Live q ↔ q ≠ r ∧ c.Live q := by
  simp only [Live, unsubscribe]
  grind

@[simp] lemma live_push : (c.push m).Live q ↔ c.Live q := Iff.rfl

@[simp] lemma live_sendIgnore : (c.sendIgnore m).Live q ↔ c.Live q := by
  rw [sendIgnore, send]
  split_ifs <;> rfl

lemma log_sendIgnore : (c.sendIgnore m).log = c.log ∨ (c.sendIgnore m).log = c.log ++ [m] := by
  rw [sendIgnore, send]
  split_ifs
  · exact .inr rfl
  · exact .inl rfl

@[simp] lemma live_recv : (c.recv r).2.Live q ↔ c.Live q := by
  simp only [Live, recv]
  split
  · rfl
  · split_ifs <;> simp only [seek] <;> grind

lemma send_eq_none_iff : c.send m = none ↔ ¬ c.HasReceiver := by
  rw [send]
  split_ifs <;> simp_all

lemma send_eq_some_iff {d : Broadcast α} :
    c.send m = some d ↔ c.HasReceiver ∧ d = c.push m := by
  rw [send]
  split_ifs with h
  · simp [h, eq_comm]
  · simp [h]

/-- Several messages were sent one after the other. -/
lemma foldlM_send_eq_some {c d : Broadcast α} {ms : List α}
    (h : ms.foldlM Broadcast.send c = some d) :
    d.log = c.log ++ ms ∧ ∀ r, d.Live r ↔ c.Live r := by
  induction ms generalizing c with
  | nil =>
      cases h
      exact ⟨(List.append_nil _).symm, fun _ => Iff.rfl⟩
  | cons m ms ih =>
      obtain ⟨c', hc', h⟩ := Option.bind_eq_some_iff.mp h
      obtain ⟨-, rfl⟩ := (c.send_eq_some_iff m).mp hc'
      obtain ⟨hlog, hlive⟩ := ih h
      exact ⟨by rw [hlog, push_log, List.append_assoc, List.singleton_append], hlive⟩

/-- Several messages can be sent as long as there is a live receiver. -/
lemma exists_foldlM_send {c : Broadcast α} (hc : c.HasReceiver) (ms : List α) :
    ∃ d, ms.foldlM Broadcast.send c = some d := by
  induction ms generalizing c with
  | nil => exact ⟨c, rfl⟩
  | cons m ms ih =>
      obtain ⟨d, hd⟩ := ih (c := c.push m) hc
      exact ⟨d, by rw [List.foldlM_cons, send, if_pos hc]; exact hd⟩

/-- A receiver is told that it lags exactly when more than the capacity is unread. -/
lemma recv_fst_eq_lagged_iff :
    (∃ n, (c.recv r).1 = .lagged n) ↔ c.capacity < c.unread r := by
  simp only [recv, unread]
  split
  · simp
  · split_ifs <;> simp_all

/-- Who reads a message is not behind what is retained. -/
lemma unread_le_of_recv {r : ℕ} {m : α} (h : (c.recv r).1 = .message m) :
    c.unread r ≤ c.capacity := by
  by_contra hlag
  obtain ⟨n, hn⟩ := (c.recv_fst_eq_lagged_iff r).mpr (not_le.mp hlag)
  rw [h] at hn
  cases hn

/-- A receive finds nothing exactly when nothing is unread. -/
lemma recv_fst_eq_empty_iff : (c.recv r).1 = .empty ↔ c.unread r = 0 := by
  simp only [recv, unread]
  split
  · simp
  · split_ifs with hlag hlt
    · simp only [false_iff]
      omega
    · simp only [false_iff]
      omega
    · simp only [true_iff]
      omega

/-- A message that is read was sent. -/
lemma mem_log_of_recv {r : ℕ} {m : α} (h : (c.recv r).1 = .message m) : m ∈ c.log := by
  revert h
  simp only [recv]
  split
  · simp
  · split_ifs with h₁ h₂
    · simp
    · rintro ⟨⟩
      exact List.getElem_mem h₂
    · simp

@[simp] lemma recv_log : (c.recv r).2.log = c.log := by
  simp only [recv]
  split
  · rfl
  · split_ifs <;> rfl

@[simp] lemma recv_capacity : (c.recv r).2.capacity = c.capacity := by
  simp only [recv]
  split
  · rfl
  · split_ifs <;> rfl

/-! ### Where a receiver is -/

@[simp] lemma sendIgnore_cursors : (c.sendIgnore m).cursors = c.cursors := by
  rw [sendIgnore, send]
  split_ifs <;> rfl

lemma log_prefix_sendIgnore : c.log <+: (c.sendIgnore m).log := by
  rcases c.log_sendIgnore m with h | h
  · rw [h]
  · rw [h]
    exact List.prefix_append _ _

/-- A new receiver is at the end of the log. -/
lemma cursors_subscribe : (c.subscribe r).cursors[q]? =
    if r = q then some c.log.length else c.cursors[q]? := by
  simp only [subscribe, ExtTreeMap.getElem?_insert, Std.LawfulEqCmp.compare_eq_iff_eq]

lemma cursors_unsubscribe_of_ne (h : q ≠ r) : (c.unsubscribe r).cursors[q]? = c.cursors[q]? := by
  simp [unsubscribe, ExtTreeMap.getElem?_erase, Ne.symm h]

/-- A receive moves one receiver only. -/
lemma cursors_recv_of_ne (h : q ≠ r) : (c.recv r).2.cursors[q]? = c.cursors[q]? := by
  simp only [recv]
  split
  · rfl
  · split_ifs <;> simp [seek, ExtTreeMap.getElem?_insert, Ne.symm h]

/-- A message that is read is the one at the position of the receiver, which moves on. -/
lemma cursor_of_recv {r : ℕ} {m : α} (h : (c.recv r).1 = .message m) :
    ∃ i, c.cursors[r]? = some i ∧ c.log[i]? = some m ∧
      (c.recv r).2.cursors[r]? = some (i + 1) := by
  revert h
  simp only [recv]
  split
  · simp
  · rename_i i hi
    split_ifs with h₁ h₂
    · simp
    · rintro ⟨⟩
      exact ⟨i, hi, List.getElem?_eq_getElem h₂, by simp [seek]⟩
    · simp

/-- A receive does not move the receiver back. -/
lemma cursor_le_of_recv {r j : ℕ} (h : (c.recv r).2.cursors[r]? = some j) :
    ∃ i ≤ j, c.cursors[r]? = some i := by
  revert h
  simp only [recv]
  split
  · rename_i hnone
    simp [hnone]
  · rename_i i hi
    split_ifs with hlag hlt
    · intro h
      have hj : c.log.length - c.capacity = j := by simpa [seek] using h
      exact ⟨i, by omega, hi⟩
    · intro h
      have hj : i + 1 = j := by simpa [seek] using h
      exact ⟨i, by omega, hi⟩
    · intro h
      exact ⟨j, le_rfl, h⟩

/-- A receiver that has nothing to read is at the end of the log. -/
lemma eq_length_of_unread {r i : ℕ} (hi : c.cursors[r]? = some i) (h : c.unread r = 0) :
    i = c.log.length := by
  have hle := c.le_length r i hi
  simp only [unread, hi] at h
  omega

/-! ### What a receiver has to read -/

lemma unread_eq {r i : ℕ} (hi : c.cursors[r]? = some i) : c.unread r = c.log.length - i := by
  rw [unread, hi]

/-- A live receiver has something to read after a send. -/
lemma unread_sendIgnore_pos {r : ℕ} (hr : c.Live r) : 0 < (c.sendIgnore m).unread r := by
  obtain ⟨i, hi⟩ := Option.isSome_iff_exists.mp (ExtTreeMap.mem_iff_isSome_getElem?.mp hr)
  have hle := c.le_length r i hi
  rw [sendIgnore, send, if_pos ⟨r, hr⟩, Option.getD_some, (c.push m).unread_eq hi, push_log,
    List.length_append, List.length_singleton]
  omega

/-- A message that is read is one less to read. -/
lemma unread_of_recv {r : ℕ} {m : α} (h : (c.recv r).1 = .message m) :
    c.unread r = (c.recv r).2.unread r + 1 := by
  obtain ⟨i, hi, hm, hi'⟩ := c.cursor_of_recv h
  have hlt : i < c.log.length := (List.getElem?_eq_some_iff.mp hm).1
  rw [c.unread_eq hi, (c.recv r).2.unread_eq hi', recv_log]
  omega

/-- A receiver that was told that it lags has as much to read as the channel retains. -/
lemma unread_of_lagged {r n : ℕ} (h : (c.recv r).1 = .lagged n) :
    (c.recv r).2.unread r = c.capacity := by
  revert h
  simp only [recv]
  split
  · simp
  · rename_i i hi
    split_ifs with hlag hlt
    · intro
      have hseek : (c.seek r (c.log.length - c.capacity) (Nat.sub_le _ _)).unread r =
          c.log.length - (c.log.length - c.capacity) := unread_eq _ (by simp [seek])
      dsimp only
      omega
    · simp
    · simp

lemma unread_recv_of_ne (h : q ≠ r) : (c.recv r).2.unread q = c.unread q := by
  rw [unread, unread, c.cursors_recv_of_ne r q h, recv_log]

lemma unread_unsubscribe_of_ne (h : q ≠ r) : (c.unsubscribe r).unread q = c.unread q := by
  rw [unread, unread, c.cursors_unsubscribe_of_ne r q h]
  rfl

/-- No receiver has more to read when one goes. -/
lemma unread_unsubscribe_le : (c.unsubscribe r).unread q ≤ c.unread q := by
  by_cases h : q = r
  · subst h
    rw [unread, unsubscribe]
    simp
  · exact (c.unread_unsubscribe_of_ne r q h).le

/-- No receiver has more to read when one reads. -/
lemma unread_recv_le : (c.recv r).2.unread q ≤ c.unread q := by
  by_cases h : q = r
  · subst h
    cases hrecv : (c.recv q).1 with
    | empty =>
        have hsame : (c.recv q).2 = c := by
          revert hrecv
          simp only [recv]
          split
          · simp
          · split_ifs <;> simp
        rw [hsame]
    | lagged n =>
        rw [c.unread_of_lagged hrecv]
        exact ((c.recv_fst_eq_lagged_iff q).mp ⟨n, hrecv⟩).le
    | message m => exact Nat.le_of_lt (by rw [c.unread_of_recv hrecv]; exact Nat.lt_succ_self _)
  · exact (c.unread_recv_of_ne r q h).le

end Lemmas

/-! ### What a receiver has taken -/

section Reads

variable {c d : Broadcast α} {r q start : ℕ} {out : List α} {m : α}

/-- The receiver `r`, which began at the position `start`, has taken the messages `out`: those
from there on up to its position. -/
def Reads (c : Broadcast α) (r start : ℕ) (out : List α) : Prop :=
  ∃ i, c.cursors[r]? = some i ∧ start ≤ i ∧ out = (c.log.take i).drop start

/-- For the receiver `r` the channel `d` is the channel `c` with more messages. -/
structure Follows (c d : Broadcast α) (r : ℕ) : Prop where
  log : c.log <+: d.log
  cursor : d.cursors[r]? = c.cursors[r]?

lemma Follows.refl (c : Broadcast α) (r : ℕ) : c.Follows c r := ⟨List.prefix_refl _, rfl⟩

lemma follows_push (c : Broadcast α) (m : α) (r : ℕ) : c.Follows (c.push m) r :=
  ⟨List.prefix_append _ _, rfl⟩

lemma follows_sendIgnore (c : Broadcast α) (m : α) (r : ℕ) : c.Follows (c.sendIgnore m) r :=
  ⟨c.log_prefix_sendIgnore m, by rw [sendIgnore_cursors]⟩

lemma follows_of_send (h : c.send m = some d) (r : ℕ) : c.Follows d r := by
  obtain ⟨-, rfl⟩ := (c.send_eq_some_iff m).mp h
  exact c.follows_push m r

lemma Follows.trans {e : Broadcast α} (h : c.Follows d r) (h' : d.Follows e r) : c.Follows e r :=
  ⟨h.log.trans h'.log, h'.cursor.trans h.cursor⟩

lemma follows_foldlM_send {ms : List α} (h : ms.foldlM Broadcast.send c = some d) (r : ℕ) :
    c.Follows d r := by
  induction ms generalizing c with
  | nil =>
      cases h
      exact .refl _ r
  | cons m ms ih =>
      obtain ⟨c', hc', h⟩ := Option.bind_eq_some_iff.mp h
      exact (follows_of_send hc' r).trans (ih h)

lemma follows_subscribe (h : q ≠ r) : c.Follows (c.subscribe q) r :=
  ⟨List.prefix_refl _, by rw [cursors_subscribe, if_neg h]⟩

lemma follows_unsubscribe (h : q ≠ r) : c.Follows (c.unsubscribe q) r :=
  ⟨List.prefix_refl _, c.cursors_unsubscribe_of_ne q r h.symm⟩

lemma follows_recv (h : q ≠ r) : c.Follows (c.recv q).2 r :=
  ⟨by rw [recv_log], c.cursors_recv_of_ne q r h.symm⟩

/-- Who reads is live. -/
lemma Reads.live (h : c.Reads r start out) : c.Live r := by
  obtain ⟨i, hi, -⟩ := h
  rw [Live, ExtTreeMap.mem_iff_isSome_getElem?, hi]
  rfl

/-- A new receiver has taken nothing. -/
lemma reads_subscribe (c : Broadcast α) (r : ℕ) : (c.subscribe r).Reads r c.log.length [] :=
  ⟨c.log.length, by rw [cursors_subscribe, if_pos rfl], le_rfl, by
    rw [List.drop_eq_nil_of_le (List.length_take_le _ _)]⟩

/-- What goes on beside a receiver leaves what it has taken. -/
lemma Reads.follows (h : c.Reads r start out) (hd : c.Follows d r) : d.Reads r start out := by
  obtain ⟨i, hi, hle, rfl⟩ := h
  obtain ⟨rest, hrest⟩ := hd.log
  refine ⟨i, hd.cursor.trans hi, hle, ?_⟩
  rw [← hrest, List.take_append_of_le_length (c.le_length r i hi)]

/-- A receive takes the next message. -/
lemma Reads.recv (h : c.Reads r start out) (hm : (c.recv r).1 = .message m) :
    (c.recv r).2.Reads r start (out ++ [m]) := by
  obtain ⟨i, hi, hle, rfl⟩ := h
  obtain ⟨j, hj, hlog, hnext⟩ := c.cursor_of_recv hm
  obtain rfl := Option.some.inj (hi.symm.trans hj)
  have hlen : start ≤ (c.log.take i).length := by
    rw [List.length_take]
    exact le_min hle (hle.trans (c.le_length r i hi))
  refine ⟨i + 1, hnext, hle.trans i.le_succ, ?_⟩
  rw [recv_log, List.take_add_one, hlog, Option.toList_some, List.drop_append_of_le_length hlen]

/-- What a receiver has taken is a part of the log, without gaps. -/
lemma Reads.isInfix (h : c.Reads r start out) : out <:+: c.log := by
  obtain ⟨i, -, -, rfl⟩ := h
  exact (List.drop_suffix _ _).isInfix.trans (List.take_prefix _ _).isInfix

end Reads

end Broadcast
