import Mathlib.Tactic

/-!
Hashes that take a list in letter by letter, and the hash of Fowler, Noll and Vo with 32 bits.

Such a hash is not injective on lists of arbitrary length.  It is injective on lists that differ
in two neighbouring places at most, if no step forgets what it has, and two steps tell two letters
apart.

* `Neighbours`: the lists of one length that differ, but in two neighbouring places at most;
* `foldl_ne_of_neighbours`: a hash tells them apart;
* `Fnv.step`, `step_left_injective`, `step_step_inj`: the step of the hash, with its prime.
-/

/-! ### Hashes letter by letter -/

section Absorb

variable {σ α : Type*} {step : σ → α → σ}

/-- Lists of one length that differ, and are the same but for two neighbouring places. -/
def Neighbours (xs ys : List α) : Prop :=
  xs ≠ ys ∧ ∃ front w w' back : List α, w.length = w'.length ∧ w.length ≤ 2 ∧
    xs = front ++ w ++ back ∧ ys = front ++ w' ++ back

/-- What comes after both lists does not matter. -/
lemma Neighbours.append {xs ys : List α} (h : Neighbours xs ys) (zs : List α) :
    Neighbours (xs ++ zs) (ys ++ zs) := by
  obtain ⟨hne, front, w, w', back, hlen, hle, rfl, rfl⟩ := h
  exact ⟨fun heq => hne (List.append_cancel_right heq), front, w, w', back ++ zs, hlen, hle,
    by simp, by simp⟩

/-- A hash whose steps forget nothing forgets nothing. -/
lemma foldl_injective (hstate : ∀ a, Function.Injective (step · a)) (xs : List α) :
    Function.Injective (xs.foldl step) := by
  induction xs with
  | nil => exact Function.injective_id
  | cons a xs ih => exact ih.comp (hstate a)

/-- **Neighbours are told apart**: if no step forgets what it has, and two steps tell two letters
apart, then the hashes of neighbours are different. -/
theorem foldl_ne_of_neighbours (hstate : ∀ a, Function.Injective (step · a))
    (hpair : ∀ s a b a' b', step (step s a) b = step (step s a') b' → a = a' ∧ b = b')
    {xs ys : List α} (h : Neighbours xs ys) (s : σ) : xs.foldl step s ≠ ys.foldl step s := by
  obtain ⟨hne, front, w, w', back, hlen, hle, rfl, rfl⟩ := h
  intro heq
  simp only [List.foldl_append] at heq
  have heq := foldl_injective hstate back heq
  refine hne ?_
  match w, w', hlen, hle, heq with
  | [], [], _, _, _ => rfl
  | [a], [a'], _, _, heq =>
      obtain ⟨rfl, -⟩ := hpair (front.foldl step s) a a a' a (congrArg (step · a) heq)
      rfl
  | [a, b], [a', b'], _, _, heq =>
      obtain ⟨rfl, rfl⟩ := hpair (front.foldl step s) a b a' b' heq
      rfl

end Absorb

/-! ### The hash of Fowler, Noll and Vo -/

namespace Fnv

/-- The prime for 32 bits. -/
def prime : UInt32 := 0x01000193

/-- A step of the hash, in the variant that takes the byte in before it multiplies. -/
def step (h : UInt32) (b : UInt8) : UInt32 := (h ^^^ b.toUInt32) * prime

/-- The prime is odd, so it can be divided by. -/
lemma mul_prime_inj {x y : UInt32} (h : x * prime = y * prime) : x = y := by
  have hinv : prime * 0x359c449b = 1 := by decide
  calc x = x * prime * 0x359c449b := by rw [UInt32.mul_assoc, hinv, UInt32.mul_one]
    _ = y * prime * 0x359c449b := by rw [h]
    _ = y := by rw [UInt32.mul_assoc, hinv, UInt32.mul_one]

lemma xor_left_inj {x y : UInt32} (z : UInt32) (h : x ^^^ z = y ^^^ z) : x = y := by
  have hb := congrArg UInt32.toBitVec h
  exact UInt32.toBitVec_inj.mp ((BitVec.xor_left_inj z.toBitVec).mp hb)

lemma xor_right_inj {x y : UInt32} (z : UInt32) (h : z ^^^ x = z ^^^ y) : x = y := by
  rw [UInt32.xor_comm z, UInt32.xor_comm z] at h
  exact xor_left_inj z h

lemma toUInt32_inj {a b : UInt8} (h : a.toUInt32 = b.toUInt32) : a = b := by
  rw [← UInt8.toNat_inj, ← UInt8.toNat_toUInt32, h, UInt8.toNat_toUInt32]

lemma step_left_injective (b : UInt8) : Function.Injective (step · b) := fun _ _ h =>
  xor_left_inj _ (mul_prime_inj h)

/-- A byte is taken in below the bits from 8 on. -/
lemma toNat_xor_div (h : UInt32) (b : UInt8) : (h ^^^ b.toUInt32).toNat / 256 = h.toNat / 256 := by
  have hb : b.toUInt32.toNat >>> 8 = 0 := by
    rw [UInt8.toNat_toUInt32, Nat.shiftRight_eq_div_pow]
    have := b.toNat_lt
    omega
  calc (h ^^^ b.toUInt32).toNat / 256 = (h.toNat ^^^ b.toUInt32.toNat) >>> 8 := by
        rw [UInt32.toNat_xor, Nat.shiftRight_eq_div_pow]
    _ = h.toNat >>> 8 ^^^ b.toUInt32.toNat >>> 8 := Nat.shiftRight_xor_distrib
    _ = h.toNat / 256 := by rw [hb, Nat.xor_zero, Nat.shiftRight_eq_div_pow]

/-- A small number, multiplied by the prime, is not small again: the prime is 2^24 and little more,
so the product would have to be small without its multiple of 2^24 as well. -/
lemma eq_zero_of_mul_prime {d k r : ℤ} (hd : -255 ≤ d ∧ d ≤ 255) (hr : -255 ≤ r ∧ r ≤ 255)
    (h : 16777619 * d = 4294967296 * k + r) : d = 0 := by
  have hk : 256 * k - d = 0 := by omega
  omega

/-- Numbers that agree from bit 8 on, and whose products with the prime do, are the same. -/
lemma mul_prime_div_inj {x y : UInt32} (hxy : x.toNat / 256 = y.toNat / 256)
    (h : (x * prime).toNat / 256 = (y * prime).toNat / 256) : x = y := by
  rw [UInt32.toNat_mul, UInt32.toNat_mul, show prime.toNat = 16777619 from rfl] at h
  have hdiff : (x.toNat - y.toNat : ℤ) = 0 :=
    eq_zero_of_mul_prime
      (k := ((x.toNat * 16777619 / 2 ^ 32 : ℕ) : ℤ) - (y.toNat * 16777619 / 2 ^ 32 : ℕ))
      (r := ((x.toNat * 16777619 % 2 ^ 32 : ℕ) : ℤ) - (y.toNat * 16777619 % 2 ^ 32 : ℕ))
      (by omega) (by omega) (by omega)
  rw [← UInt32.toNat_inj]
  omega

/-- **Two steps tell two bytes apart.** -/
theorem step_step_inj {h : UInt32} {a b a' b' : UInt8}
    (heq : step (step h a) b = step (step h a') b') : a = a' ∧ b = b' := by
  have hxor := mul_prime_inj heq
  have hdiv : (step h a).toNat / 256 = (step h a').toNat / 256 := by
    rw [← toNat_xor_div (step h a) b, hxor, toNat_xor_div]
  have hfirst : h ^^^ a.toUInt32 = h ^^^ a'.toUInt32 :=
    mul_prime_div_inj (by rw [toNat_xor_div, toNat_xor_div]) hdiv
  obtain rfl := toUInt32_inj (xor_right_inj h hfirst)
  exact ⟨rfl, toUInt32_inj (xor_right_inj (step h a) hxor)⟩

end Fnv
