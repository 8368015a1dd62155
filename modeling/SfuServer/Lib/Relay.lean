import Mathlib.Data.List.Forall2
import SfuServer.Lib.Broadcast

/-!
The order of the messages on two channels in line: a trunk and a branch, to which a pipe passes on
what it finds on the trunk.  Messages are sent to the trunk, and to the branch as well.

Every message is known by the time at which it was sent, and one that came over the trunk by the
time at which the pipe passed it on, too.

* `Origin`: how a message came to the branch, and when; `Origin.Before` says how the origins of two
  messages are related that stand one before the other;
* `Trunk`, `Branch`: the messages of both have origins, in this order, and the pipe is past those
  that it has passed on;
* `Trunk.push`, `Branch.send`, `Branch.pass`, `Branch.move`, `Branch.attach`: what can happen to
  them;
* `Branch.part`: what a reader takes from the branch has origins in this order.
-/

namespace SfuServer

namespace Relay

/-- Where a message of a branch comes from: it was sent to the branch, or it was sent to the trunk
and passed on later. -/
inductive Origin where
  | direct (time : ℕ)
  | piped (time passed : ℕ)
  deriving DecidableEq, Repr

namespace Origin

/-- When the message was sent. -/
def time : Origin → ℕ
  | direct t => t
  | piped t _ => t

/-- When the message was put on the branch. -/
def put : Origin → ℕ
  | direct t => t
  | piped _ p => p

/-- The first message stands before the second one: it was put on the branch before, and it was
sent before as well, unless it overtook a message that had still to be passed on. -/
def Before (o o' : Origin) : Prop :=
  o.put < o'.put ∧ (o.time < o'.time ∨ ∃ t t' p, o = direct t ∧ o' = piped t' p)

/-- The message was sent at the time of its origin, to the branch, or to the trunk, and then it was
passed on later. -/
def Of {α : Type*} (trunk passes branch : ℕ → α → Prop) : Origin → α → Prop
  | direct t, m => branch t m
  | piped t p, m => trunk t m ∧ passes p m ∧ t < p

end Origin

variable {α : Type*} {src : Origin → α → Prop} {srcT : ℕ → α → Prop}
  {now now' : ℕ} {times times' : List ℕ} {log tlog : List α} {m : α} {t : ℕ}

/-! ### The trunk -/

/-- The messages of a trunk were sent at these times. -/
structure Trunk (srcT : ℕ → α → Prop) (now : ℕ) (times : List ℕ) (log : List α) : Prop where
  sent : List.Forall₂ srcT times log
  ordered : times.Pairwise (· < ·)
  bound : ∀ t ∈ times, t < now

namespace Trunk

lemma nil : Trunk srcT now [] ([] : List α) := ⟨.nil, .nil, by simp⟩

lemma mono (h : Trunk srcT now times log) (hnow : now ≤ now') :
    Trunk srcT now' times log :=
  ⟨h.sent, h.ordered, fun t ht => (h.bound t ht).trans_le hnow⟩

/-- A message is sent. -/
lemma push (h : Trunk srcT now times log) (hm : srcT now m) :
    Trunk srcT (now + 1) (times ++ [now]) (log ++ [m]) where
  sent := List.rel_append h.sent (.cons hm .nil)
  ordered := by
    refine List.pairwise_append.mpr ⟨h.ordered, List.pairwise_singleton _ _, fun t ht t' ht' => ?_⟩
    obtain rfl := List.mem_singleton.mp ht'
    exact h.bound t ht
  bound t ht := by
    rcases List.mem_append.mp ht with ht | ht
    · exact (h.bound t ht).trans (Nat.lt_succ_self now)
    · exact List.mem_singleton.mp ht ▸ Nat.lt_succ_self now

/-- The time of a message that stands on the trunk. -/
lemma exists_time (h : Trunk srcT now times log) {i : ℕ} (hi : log[i]? = some m) :
    ∃ t, times[i]? = some t ∧ srcT t m ∧ t < now := by
  obtain ⟨hlt, rfl⟩ := List.getElem?_eq_some_iff.mp hi
  have hlen : i < times.length := h.sent.length_eq ▸ hlt
  exact ⟨times[i], List.getElem?_eq_getElem hlen, h.sent.get hlen hlt,
    h.bound _ (List.getElem_mem hlen)⟩

end Trunk

/-! ### A branch -/

/-- The messages of a branch have these origins; those that came over the trunk stood there before
the place where the pipe is. -/
structure Branch (src : Origin → α → Prop) (now : ℕ) (times : List ℕ) (cursor : Option ℕ)
    (origins : List Origin) (log : List α) : Prop where
  sent : List.Forall₂ src origins log
  ordered : origins.Pairwise Origin.Before
  bound : ∀ o ∈ origins, o.time < now ∧ o.put < now
  onTrunk : ∀ t p, .piped t p ∈ origins → t ∈ times
  behind : ∀ t p, .piped t p ∈ origins → ∀ i ∈ cursor, ∃ j < i, times[j]? = some t

namespace Branch

variable {cursor cursor' : Option ℕ} {origins : List Origin}

lemma nil : Branch src now times cursor [] ([] : List α) :=
  ⟨.nil, .nil, by simp, by simp, by simp⟩

lemma mono (h : Branch src now times cursor origins log) (hnow : now ≤ now')
    (htimes : times <+: times') : Branch src now' times' cursor origins log where
  sent := h.sent
  ordered := h.ordered
  bound o ho := (h.bound o ho).imp (·.trans_le hnow) (·.trans_le hnow)
  onTrunk t p ht := htimes.subset (h.onTrunk t p ht)
  behind t p ht i hi := by
    obtain ⟨j, hj, hjt⟩ := h.behind t p ht i hi
    obtain ⟨rest, rfl⟩ := htimes
    exact ⟨j, hj, by rw [List.getElem?_append_left (List.getElem?_eq_some_iff.mp hjt).1, hjt]⟩

/-- The pipe passes messages by, or ends. -/
lemma move (h : Branch src now times cursor origins log)
    (hcursor : ∀ j ∈ cursor', ∃ i ∈ cursor, i ≤ j) :
    Branch src now times cursor' origins log where
  sent := h.sent
  ordered := h.ordered
  bound := h.bound
  onTrunk := h.onTrunk
  behind t p ht j hj := by
    obtain ⟨i, hi, hij⟩ := hcursor j hj
    obtain ⟨k, hk, hkt⟩ := h.behind t p ht i hi
    exact ⟨k, hk.trans_le hij, hkt⟩

/-- A pipe begins at the end of the trunk. -/
lemma attach (h : Branch src now times cursor origins log) :
    Branch src now times (some times.length) origins log where
  sent := h.sent
  ordered := h.ordered
  bound := h.bound
  onTrunk := h.onTrunk
  behind t p ht i hi := by
    obtain rfl := Option.some.inj hi
    obtain ⟨j, hj, hjt⟩ := List.getElem_of_mem (h.onTrunk t p ht)
    exact ⟨j, hj, hjt ▸ List.getElem?_eq_getElem hj⟩

/-- A message is sent to the branch. -/
lemma send (h : Branch src now times cursor origins log) (hm : src (.direct now) m) :
    Branch src (now + 1) times cursor (origins ++ [.direct now]) (log ++ [m]) where
  sent := List.rel_append h.sent (.cons hm .nil)
  ordered := by
    refine List.pairwise_append.mpr ⟨h.ordered, List.pairwise_singleton _ _, fun o ho o' ho' => ?_⟩
    obtain rfl := List.mem_singleton.mp ho'
    obtain ⟨htime, hput⟩ := h.bound o ho
    exact ⟨hput, .inl htime⟩
  bound o ho := by
    rcases List.mem_append.mp ho with ho | ho
    · exact (h.bound o ho).imp Nat.lt_succ_of_lt Nat.lt_succ_of_lt
    · obtain rfl := List.mem_singleton.mp ho
      exact ⟨Nat.lt_succ_self now, Nat.lt_succ_self now⟩
  onTrunk t p ht := h.onTrunk t p (by simpa using ht)
  behind t p ht := h.behind t p (by simpa using ht)

/-- The pipe passes a message on. -/
lemma pass {i : ℕ} (htrunk : Trunk srcT now times tlog)
    (h : Branch src now times (some i) origins log) (hi : times[i]? = some t)
    (hm : src (.piped t now) m) :
    Branch src (now + 1) times (some (i + 1)) (origins ++ [.piped t now]) (log ++ [m]) where
  sent := List.rel_append h.sent (.cons hm .nil)
  ordered := by
    refine List.pairwise_append.mpr ⟨h.ordered, List.pairwise_singleton _ _, fun o ho o' ho' => ?_⟩
    obtain rfl := List.mem_singleton.mp ho'
    refine ⟨(h.bound o ho).2, ?_⟩
    cases o with
    | direct t₀ => exact .inr ⟨t₀, t, now, rfl, rfl⟩
    | piped t₀ p₀ =>
        -- it stood before this one on the trunk
        obtain ⟨j, hj, hjt⟩ := h.behind t₀ p₀ ho i rfl
        obtain ⟨hjlen, rfl⟩ := List.getElem?_eq_some_iff.mp hjt
        obtain ⟨hilen, rfl⟩ := List.getElem?_eq_some_iff.mp hi
        exact .inl (List.pairwise_iff_getElem.mp htrunk.ordered j i hjlen hilen hj)
  bound o ho := by
    rcases List.mem_append.mp ho with ho | ho
    · exact (h.bound o ho).imp Nat.lt_succ_of_lt Nat.lt_succ_of_lt
    · obtain rfl := List.mem_singleton.mp ho
      exact ⟨Nat.lt_succ_of_lt (htrunk.bound t (List.mem_of_getElem? hi)), Nat.lt_succ_self now⟩
  onTrunk t' p' ht' := by
    rcases List.mem_append.mp ht' with ht' | ht'
    · exact h.onTrunk t' p' ht'
    · obtain ⟨rfl, -⟩ := Origin.piped.inj (List.mem_singleton.mp ht')
      exact List.mem_of_getElem? hi
  behind t' p' ht' j hj := by
    obtain rfl := Option.some.inj hj
    rcases List.mem_append.mp ht' with ht' | ht'
    · obtain ⟨k, hk, hkt⟩ := h.behind t' p' ht' i rfl
      exact ⟨k, hk.trans (Nat.lt_succ_self i), hkt⟩
    · obtain ⟨rfl, -⟩ := Origin.piped.inj (List.mem_singleton.mp ht')
      exact ⟨i, Nat.lt_succ_self i, hi⟩

/-- **In order**: what a reader takes from a branch, one message after the other, comes from
messages in the order of their origins. -/
theorem part (h : Branch src now times cursor origins log) {out : List α}
    (hout : out <:+: log) :
    ∃ os : List Origin, List.Forall₂ src os out ∧ os.Pairwise Origin.Before := by
  obtain ⟨before, after, rfl⟩ := hout
  refine ⟨(origins.drop before.length).take out.length, ?_,
    h.ordered.sublist ((List.take_sublist _ _).trans (List.drop_sublist _ _))⟩
  have hpart := List.forall₂_take out.length (List.forall₂_drop before.length h.sent)
  rwa [List.append_assoc, List.drop_left, List.take_left] at hpart

end Branch

end Relay

end SfuServer
