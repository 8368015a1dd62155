import Mathlib.Tactic

/-!
The bytes of a 32-bit word.

* `leBytes`: the four bytes of a word, least significant first, by shifts and truncation;
* `ofBeBytes`: the word of four bytes, most significant first;
* `ofBeBytes_leBytes` and `leBytes_ofBeBytes`: each undoes the other, once the bytes are
  handed over in reverse, so a word is determined by its bytes (`leBytes_inj`).
-/

namespace Endian

/-- The bytes of a word, least significant first: byte `i` is the word shifted right by `8i`
and truncated. -/
def leBytes (n : UInt32) : List UInt8 :=
  (List.range 4).map fun i => (n >>> UInt32.ofNat (i * 8)).toUInt8

/-- The word with the given bytes, most significant first. -/
def ofBeBytes (b₃ b₂ b₁ b₀ : UInt8) : UInt32 :=
  UInt32.ofNat (b₃.toNat * 2 ^ 24 + b₂.toNat * 2 ^ 16 + b₁.toNat * 2 ^ 8 + b₀.toNat)

lemma leBytes_eq (n : UInt32) :
    leBytes n = [n.toUInt8, (n >>> 8).toUInt8, (n >>> 16).toUInt8, (n >>> 24).toUInt8] := by
  simp [leBytes, List.range_succ]

@[simp] lemma leBytes_length (n : UInt32) : (leBytes n).length = 4 := by
  simp [leBytes]

/-- The word read back from its bytes. -/
lemma ofBeBytes_leBytes (n : UInt32) :
    ofBeBytes (n >>> 24).toUInt8 (n >>> 16).toUInt8 (n >>> 8).toUInt8 n.toUInt8 = n := by
  apply UInt32.toNat_inj.mp
  have hn := n.toNat_lt
  simp only [ofBeBytes, UInt32.toNat_ofNat', UInt32.toNat_toUInt8, UInt32.toNat_shiftRight,
    Nat.shiftRight_eq_div_pow, UInt32.reduceToNat, Nat.reduceMod, Nat.reducePow]
  omega

/-- The bytes read back from the word. -/
lemma leBytes_ofBeBytes (b₃ b₂ b₁ b₀ : UInt8) :
    leBytes (ofBeBytes b₃ b₂ b₁ b₀) = [b₀, b₁, b₂, b₃] := by
  have h₀ := b₀.toNat_lt
  have h₁ := b₁.toNat_lt
  have h₂ := b₂.toNat_lt
  have h₃ := b₃.toNat_lt
  simp only [leBytes_eq, List.cons.injEq, and_true, ← UInt8.toNat_inj, UInt32.toNat_toUInt8,
    UInt32.toNat_shiftRight, Nat.shiftRight_eq_div_pow, ofBeBytes, UInt32.toNat_ofNat',
    UInt32.reduceToNat, Nat.reduceMod, Nat.reducePow]
  omega

/-- A word is determined by its bytes. -/
lemma leBytes_inj {m n : UInt32} : leBytes m = leBytes n ↔ m = n := by
  constructor
  · intro h
    simp only [leBytes_eq, List.cons.injEq, and_true] at h
    obtain ⟨h₀, h₁, h₂, h₃⟩ := h
    rw [← ofBeBytes_leBytes m, h₀, h₁, h₂, h₃, ofBeBytes_leBytes]
  · exact congrArg leBytes

end Endian
