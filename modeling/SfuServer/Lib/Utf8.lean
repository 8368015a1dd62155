import Mathlib.Tactic

/-!
The bytes of a string, in the encoding of Unicode by bytes, and strings of ASCII bytes.

* `bytes`: the encoding, which tells strings apart (`bytes_inj`);
* `ofAscii`: the string of some bytes, read as ASCII; it is a given string exactly if the bytes
  are the ones of that string (`ofAscii_eq_iff`).
-/

namespace Utf8

/-- The bytes of a string. -/
def bytes (s : String) : List UInt8 := s.toList.flatMap String.utf8EncodeChar

/-- **The encoding is injective.** -/
theorem bytes_inj {s t : String} : bytes s = bytes t ↔ s = t := by
  refine ⟨fun h => ?_, fun h => h ▸ rfl⟩
  have hs : (bytes s).toByteArray = s.toByteArray := String.utf8Encode_toList
  have ht : (bytes t).toByteArray = t.toByteArray := String.utf8Encode_toList
  rw [← String.toByteArray_inj, ← hs, ← ht, h]

/-- The string of some bytes, read as ASCII. -/
def ofAscii (bs : List UInt8) : String := String.ofList (bs.map fun b => Char.ofNat b.toNat)

/-- An ASCII character is encoded by itself. -/
lemma utf8EncodeChar_ofNat {b : UInt8} (hb : b < 128) :
    String.utf8EncodeChar (Char.ofNat b.toNat) = [b] := by
  have hlt : b.toNat < 128 := UInt8.lt_iff_toNat_lt.mp hb
  have hval : (Char.ofNat b.toNat).val.toNat = b.toNat := by
    rw [Char.ofNat, dif_pos (.inl (by omega))]
    rfl
  have hsize : (Char.ofNat b.toNat).utf8Size = 1 := by
    rw [Char.utf8Size, if_pos]
    rw [UInt32.le_iff_toNat_le, hval]
    change b.toNat ≤ 127
    omega
  rw [String.utf8EncodeChar_eq_singleton hsize, List.cons.injEq, and_iff_left rfl,
    ← UInt8.toNat_inj, UInt32.toNat_toUInt8, hval]
  omega

lemma bytes_ofAscii {bs : List UInt8} (h : ∀ b ∈ bs, b < 128) : bytes (ofAscii bs) = bs := by
  rw [bytes, ofAscii, String.toList_ofList]
  induction bs with
  | nil => rfl
  | cons b bs ih =>
      rw [List.map_cons, List.flatMap_cons, utf8EncodeChar_ofNat (h b (by simp)),
        ih fun b hb => h b (by simp [hb])]
      rfl

/-- **ASCII strings**: bytes read as ASCII are a string exactly if they are its bytes. -/
theorem ofAscii_eq_iff {bs : List UInt8} (h : ∀ b ∈ bs, b < 128) {s : String} :
    ofAscii bs = s ↔ bs = bytes s := by
  rw [← bytes_inj, bytes_ofAscii h]

end Utf8
