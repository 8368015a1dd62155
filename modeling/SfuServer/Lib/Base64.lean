import Mathlib.Tactic

/-!
Bytes as text in Base64, with the standard alphabet and canonical padding.

* `encode`: three bytes as four digits, where a last group that is not full is padded;
* `decode`: the strict decoder, which takes a padded group only at the end, and only if the bits
  beyond its bytes are zero;
* `decode_eq_some_iff`: the decoder takes exactly the texts that the encoder makes, and gives back
  their bytes;
* `slash_mem_encode_iff`: which ASCII bytes have a text with a slash in it.
-/

namespace Base64

/-! ### Digits -/

/-- The digits, in the order of their values. -/
def alphabet : List Char :=
  "ABCDEFGHIJKLMNOPQRSTUVWXYZabcdefghijklmnopqrstuvwxyz0123456789+/".toList

/-- The digit of a value. -/
def digit (v : ℕ) : Char := alphabet.getD v '='

/-- The value of a digit. -/
def value (c : Char) : Option ℕ := if c ∈ alphabet then some (alphabet.idxOf c) else none

lemma length_alphabet : alphabet.length = 64 := by decide

lemma nodup_alphabet : alphabet.Nodup := by decide

lemma getElem?_alphabet {v : ℕ} (hv : v < 64) : alphabet[v]? = some (digit v) := by
  rw [digit, List.getD_eq_getElem?_getD, List.getElem?_eq_getElem (length_alphabet ▸ hv),
    Option.getD_some]

lemma digit_mem {v : ℕ} (hv : v < 64) : digit v ∈ alphabet :=
  List.mem_iff_getElem?.mpr ⟨v, getElem?_alphabet hv⟩

/-- A character has a value exactly if it is the digit of that value. -/
lemma value_eq_some_iff {c : Char} {v : ℕ} : value c = some v ↔ v < 64 ∧ c = digit v := by
  constructor
  · intro h
    rw [value] at h
    split_ifs at h with hc
    obtain rfl := Option.some.inj h
    have hlt := List.idxOf_lt_length_iff.mpr hc
    rw [length_alphabet] at hlt
    refine ⟨hlt, Option.some.inj ?_⟩
    rw [← getElem?_alphabet hlt, List.getElem?_idxOf hc]
  · rintro ⟨hv, rfl⟩
    have hidx := List.getElem?_idxOf (digit_mem hv)
    rw [value, if_pos (digit_mem hv), Option.some.injEq]
    exact (List.getElem?_inj (List.idxOf_lt_length_iff.mpr (digit_mem hv)) nodup_alphabet).mp
      (hidx.trans (getElem?_alphabet hv).symm)

/-- A digit is read back as its value. -/
lemma value_digit {v : ℕ} (hv : v < 64) : value (digit v) = some v :=
  value_eq_some_iff.mpr ⟨hv, rfl⟩

lemma digit_inj {v w : ℕ} (hv : v < 64) (hw : w < 64) : digit v = digit w ↔ v = w := by
  refine ⟨fun h => ?_, fun h => h ▸ rfl⟩
  have hvalue := value_digit hv
  rw [h, value_digit hw, Option.some.injEq] at hvalue
  exact hvalue.symm

/-! ### Groups of three bytes and of four values -/

/-- The four values of a group of bytes. -/
def first (a : UInt8) : ℕ := a.toNat / 4

def second (a b : UInt8) : ℕ := a.toNat % 4 * 16 + b.toNat / 16

def third (b c : UInt8) : ℕ := b.toNat % 16 * 4 + c.toNat / 64

def fourth (c : UInt8) : ℕ := c.toNat % 64

/-- The three bytes of a group of values. -/
def byteA (w x : ℕ) : UInt8 := UInt8.ofNat (w * 4 + x / 16)

def byteB (x y : ℕ) : UInt8 := UInt8.ofNat (x % 16 * 16 + y / 4)

def byteC (y z : ℕ) : UInt8 := UInt8.ofNat (y % 4 * 64 + z)

section Groups

variable (a b c : UInt8) {w x y z : ℕ}

lemma first_lt : first a < 64 := by
  have := a.toNat_lt
  rw [first]
  omega

lemma second_lt : second a b < 64 := by
  have := b.toNat_lt
  rw [second]
  omega

lemma third_lt : third b c < 64 := by
  have := c.toNat_lt
  rw [third]
  omega

lemma fourth_lt : fourth c < 64 := Nat.mod_lt _ (by omega)

@[simp] lemma byteA_eq : byteA (first a) (second a b) = a := by
  have := b.toNat_lt
  rw [byteA, first, second, show a.toNat / 4 * 4 + (a.toNat % 4 * 16 + b.toNat / 16) / 16 =
    a.toNat by omega, UInt8.ofNat_toNat]

@[simp] lemma byteB_eq : byteB (second a b) (third b c) = b := by
  have := b.toNat_lt
  have := c.toNat_lt
  rw [byteB, second, third, show (a.toNat % 4 * 16 + b.toNat / 16) % 16 * 16 +
    (b.toNat % 16 * 4 + c.toNat / 64) / 4 = b.toNat by omega, UInt8.ofNat_toNat]

@[simp] lemma byteC_eq : byteC (third b c) (fourth c) = c := by
  have := c.toNat_lt
  rw [byteC, third, fourth, show (b.toNat % 16 * 4 + c.toNat / 64) % 4 * 64 + c.toNat % 64 =
    c.toNat by omega, UInt8.ofNat_toNat]

lemma first_byteA (hw : w < 64) (hx : x < 64) : first (byteA w x) = w := by
  rw [first, byteA, UInt8.toNat_ofNat']
  omega

lemma second_byte (hx : x < 64) (hy : y < 64) : second (byteA w x) (byteB x y) = x := by
  rw [second, byteA, byteB, UInt8.toNat_ofNat', UInt8.toNat_ofNat']
  omega

lemma third_byte (hy : y < 64) (hz : z < 64) : third (byteB x y) (byteC y z) = y := by
  rw [third, byteB, byteC, UInt8.toNat_ofNat', UInt8.toNat_ofNat']
  omega

lemma fourth_byteC (hz : z < 64) : fourth (byteC y z) = z := by
  rw [fourth, byteC, UInt8.toNat_ofNat']
  omega

/-- Where a padded group leaves nothing over, the missing bytes are zero. -/
lemma byteB_zero (hx : x % 16 = 0) : byteB x 0 = 0 := by rw [byteB, hx]; rfl

lemma byteC_zero (hy : y % 4 = 0) : byteC y 0 = 0 := by rw [byteC, hy]; rfl

end Groups

/-! ### Texts -/

/-- The text of some bytes. -/
def encode : List UInt8 → List Char
  | [] => []
  | [a] => [digit (first a), digit (second a 0), '=', '=']
  | [a, b] => [digit (first a), digit (second a b), digit (third b 0), '=']
  | a :: b :: c :: bs =>
      digit (first a) :: digit (second a b) :: digit (third b c) :: digit (fourth c) :: encode bs

/-- The bytes of a text, if it is one. -/
def decode : List Char → Option (List UInt8)
  | [] => some []
  | w :: x :: y :: z :: cs =>
      match value w, value x, value y, value z with
      | some w, some x, some y, some z =>
          (decode cs).map fun bs => byteA w x :: byteB x y :: byteC y z :: bs
      | some w, some x, some y, none =>
          if z = '=' ∧ cs = [] ∧ y % 4 = 0 then some [byteA w x, byteB x y] else none
      | some w, some x, none, none =>
          if y = '=' ∧ z = '=' ∧ cs = [] ∧ x % 16 = 0 then some [byteA w x] else none
      | _, _, _, _ => none
  | _ => none

lemma value_pad : value '=' = none := by decide

/-- What was encoded is decoded. -/
theorem decode_encode (bs : List UInt8) : decode (encode bs) = some bs := by
  induction bs using encode.induct with
  | case1 => rfl
  | case2 a =>
      have hrest : second a 0 % 16 = 0 := by simp [second]
      simp [encode, decode, value_digit (first_lt a), value_digit (second_lt a 0), value_pad, hrest]
  | case3 a b =>
      have hrest : third b 0 % 4 = 0 := by simp [third]
      simp [encode, decode, value_digit (first_lt a), value_digit (second_lt a b),
        value_digit (third_lt b 0), value_pad, hrest]
  | case4 a b c bs ih =>
      simp [encode, decode, value_digit (first_lt a), value_digit (second_lt a b),
        value_digit (third_lt b c), value_digit (fourth_lt c), ih]

/-- What is decoded was encoded. -/
lemma encode_of_decode {cs : List Char} {bs : List UInt8} (h : decode cs = some bs) :
    cs = encode bs := by
  induction cs using decode.induct generalizing bs with
  | case1 =>
      rw [decode, Option.some.injEq] at h
      exact h ▸ rfl
  | case2 w x y z cs w' x' y' z' hz hy hx hw ih =>
      simp only [decode, hw, hx, hy, hz, Option.map_eq_some_iff] at h
      obtain ⟨bs', hbs', rfl⟩ := h
      obtain ⟨hw', rfl⟩ := value_eq_some_iff.mp hw
      obtain ⟨hx', rfl⟩ := value_eq_some_iff.mp hx
      obtain ⟨hy', rfl⟩ := value_eq_some_iff.mp hy
      obtain ⟨hz', rfl⟩ := value_eq_some_iff.mp hz
      rw [encode, first_byteA hw' hx', second_byte hx' hy', third_byte hy' hz', fourth_byteC hz',
        ← ih hbs']
  | case3 w x y z cs w' x' y' hz hy hx hw hpad =>
      simp only [decode, hw, hx, hy, hz, if_pos hpad, Option.some.injEq] at h
      obtain ⟨rfl, rfl, hrest⟩ := hpad
      obtain ⟨hw', rfl⟩ := value_eq_some_iff.mp hw
      obtain ⟨hx', rfl⟩ := value_eq_some_iff.mp hx
      obtain ⟨hy', rfl⟩ := value_eq_some_iff.mp hy
      rw [← h, encode, first_byteA hw' hx', second_byte hx' hy', ← byteC_zero hrest,
        third_byte hy' (by omega)]
  | case4 w x y z cs w' x' y' hz hy hx hw hpad =>
      simp only [decode, hw, hx, hy, hz, if_neg hpad] at h
      cases h
  | case5 w x y z cs w' x' hz hy hx hw hpad =>
      simp only [decode, hw, hx, hy, hz, if_pos hpad, Option.some.injEq] at h
      obtain ⟨rfl, rfl, rfl, hrest⟩ := hpad
      obtain ⟨hw', rfl⟩ := value_eq_some_iff.mp hw
      obtain ⟨hx', rfl⟩ := value_eq_some_iff.mp hx
      rw [← h, encode, first_byteA hw' hx', ← byteB_zero hrest, second_byte hx' (by omega)]
  | case6 w x y z cs w' x' hz hy hx hw hpad =>
      simp only [decode, hw, hx, hy, hz, if_neg hpad] at h
      cases h
  | case7 w x y z cs h₁ h₂ h₃ =>
      rw [decode] at h
      split at h
      · rename_i hw hx hy hz
        exact (h₁ _ _ _ _ hw hx hy hz).elim
      · rename_i hw hx hy hz
        exact (h₂ _ _ _ hw hx hy hz).elim
      · rename_i hw hx hy hz
        exact (h₃ _ _ hw hx hy hz).elim
      · cases h
  | case8 cs h₁ h₂ =>
      rw [decode.eq_def] at h
      split at h
      · exact (h₁ rfl).elim
      · exact (h₂ _ _ _ _ _ rfl).elim
      · cases h

/-- **The strict decoder**: it takes exactly the texts that the encoder makes. -/
theorem decode_eq_some_iff {cs : List Char} {bs : List UInt8} :
    decode cs = some bs ↔ cs = encode bs :=
  ⟨encode_of_decode, fun h => h ▸ decode_encode bs⟩

/-! ### The last digit -/

lemma slash_eq_digit {v : ℕ} (hv : v < 64) : '/' = digit v ↔ v = 63 := by
  have hslash : digit 63 = '/' := by decide
  rw [← hslash, digit_inj (by omega) hv, eq_comm]

/-- The text of ASCII bytes has a slash exactly if some third byte is a question mark or the
delete character. -/
theorem slash_mem_encode_iff {bs : List UInt8} (h : ∀ b ∈ bs, b < 128) :
    '/' ∈ encode bs ↔ ∃ i, i % 3 = 2 ∧ (bs[i]? = some 63 ∨ bs[i]? = some 127) := by
  have hfirst : ∀ a : UInt8, a < 128 → first a ≠ 63 := by
    intro a ha
    rw [UInt8.lt_iff_toNat_lt] at ha
    have ha' : a.toNat < 128 := ha
    rw [first]
    omega
  have hsecond : ∀ a b : UInt8, b < 128 → second a b ≠ 63 := by
    intro a b hb
    have hb' : b.toNat < 128 := UInt8.lt_iff_toNat_lt.mp hb
    rw [second]
    omega
  have hthird : ∀ b c : UInt8, c < 128 → third b c ≠ 63 := by
    intro b c hc
    have hc' : c.toNat < 128 := UInt8.lt_iff_toNat_lt.mp hc
    rw [third]
    omega
  have hfourth : ∀ c : UInt8, c < 128 → (fourth c = 63 ↔ c = 63 ∨ c = 127) := by
    intro c hc
    have hc' : c.toNat < 128 := UInt8.lt_iff_toNat_lt.mp hc
    rw [fourth, ← UInt8.toNat_inj, ← UInt8.toNat_inj]
    change c.toNat % 64 = 63 ↔ c.toNat = 63 ∨ c.toNat = 127
    omega
  have hpad : ('/' : Char) ≠ '=' := by decide
  induction bs using encode.induct with
  | case1 => simp [encode]
  | case2 a =>
      have ha : a < 128 := h a (by simp)
      have hnone : ∀ i, i % 3 = 2 → ([a] : List UInt8)[i]? = none := by
        intro i hi
        exact List.getElem?_eq_none (by simp; omega)
      simp only [encode, List.mem_cons, List.not_mem_nil, or_false, slash_eq_digit (first_lt a),
        slash_eq_digit (second_lt a 0), hfirst a ha, hsecond a 0 (by decide), hpad, false_iff]
      rintro ⟨i, hi, hb⟩
      rw [hnone i hi] at hb
      simp at hb
  | case3 a b =>
      have ha : a < 128 := h a (by simp)
      have hb : b < 128 := h b (by simp)
      have hnone : ∀ i, i % 3 = 2 → ([a, b] : List UInt8)[i]? = none := by
        intro i hi
        exact List.getElem?_eq_none (by simp; omega)
      simp only [encode, List.mem_cons, List.not_mem_nil, or_false, slash_eq_digit (first_lt a),
        slash_eq_digit (second_lt a b), slash_eq_digit (third_lt b 0), hfirst a ha,
        hsecond a b hb, hthird b 0 (by decide), hpad, false_iff]
      rintro ⟨i, hi, hc⟩
      rw [hnone i hi] at hc
      simp at hc
  | case4 a b c bs ih =>
      have ha : a < 128 := h a (by simp)
      have hb : b < 128 := h b (by simp)
      have hc : c < 128 := h c (by simp)
      simp only [encode, List.mem_cons, slash_eq_digit (first_lt a),
        slash_eq_digit (second_lt a b), slash_eq_digit (third_lt b c), slash_eq_digit (fourth_lt c),
        hfirst a ha, hsecond a b hb, hthird b c hc, hfourth c hc, false_or,
        ih fun x hx => h x (by simp [hx])]
      constructor
      · rintro ((rfl | rfl) | ⟨i, hi, hx⟩)
        · exact ⟨2, rfl, .inl rfl⟩
        · exact ⟨2, rfl, .inr rfl⟩
        · exact ⟨i + 3, by omega, hx⟩
      · rintro ⟨i, hi, hx⟩
        match i, hi with
        | 2, _ => exact .inl (hx.imp (fun h => Option.some.inj h) fun h => Option.some.inj h)
        | i + 3, hi => exact .inr ⟨i, by omega, hx⟩

end Base64
