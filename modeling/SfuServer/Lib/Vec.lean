import Mathlib.Tactic

/-!
Operations of growable arrays on lists: binary search, removal by swapping, replacement of one
entry, and a loop that may stop before the end.

* `binarySearch`: the search by halving, which compares with the middle element and assumes
  that the list is sorted; it answers an index of the element or nothing
  (`getElem?_of_binarySearch`); a member that is there once is found exactly if it is `InPlace`
  (`exists_binarySearch_iff`), as all members of a strictly sorted list are
  (`exists_binarySearch_of_mem`);
* `swapRemove`: removal of an index by moving the last element there; the result is a
  permutation of the list without that index (`swapRemove_perm`), so for a list without
  duplicates it removes one member and keeps the others (`mem_swapRemove_idxOf`);
* `getElem?_set_cases`, `mem_set_of_ne`, `exists_mem_set_iff`: what is in a list whose entry `i`
  is replaced; `getElem?_concat_cases` is the case of a list with one more entry;
  `bind_getElem?_set` and `bind_getElem?_concat` read a part of an entry, and
  `mem_modify_cases` is about an entry that is changed by a function;
* `exists_mem_concat_iff` passes over an entry that is added;
* `tryForEach`: a fallible call on one element after the other, which changes it; the first
  failure ends the loop, so all elements are called exactly if the call fails for none but the
  last one (`tryForEach_snd_eq_map_iff`).
-/

namespace Vec

variable {α : Type*}

/-! ### Binary search -/

section Search

variable [LinearOrder α]

/-- The halving loop: from the window of `size` indices at `base`, the index that is left
when the window has shrunk to one. -/
def narrow (xs : List α) (x : α) : ℕ → ℕ → ℕ → ℕ
  | 0, base, _ => base
  | fuel + 1, base, size =>
      if size ≤ 1 then base
      else
        narrow xs x fuel (if xs[base + size / 2]?.any (x < ·) then base else base + size / 2)
          (size - size / 2)

/-- Binary search: the index of an element equal to `x`, if the search ends at one. -/
def binarySearch (xs : List α) (x : α) : Option ℕ :=
  let base := narrow xs x xs.length 0 xs.length
  if xs[base]? = some x then some base else none

/-- What the search answers is an index of the element. -/
lemma getElem?_of_binarySearch {xs : List α} {x : α} {i : ℕ} (h : binarySearch xs x = some i) :
    xs[i]? = some x := by
  rw [binarySearch] at h
  split_ifs at h with hx
  · rw [Option.some.injEq] at h
    exact h ▸ hx

/-- In a strictly sorted list the order of two elements is that of their indices. -/
lemma lt_iff_of_getElem? {xs : List α} (hs : xs.Pairwise (· < ·)) {x y : α} {i j : ℕ}
    (hi : xs[i]? = some x) (hj : xs[j]? = some y) : x < y ↔ i < j := by
  obtain ⟨hi', rfl⟩ := List.getElem?_eq_some_iff.mp hi
  obtain ⟨hj', rfl⟩ := List.getElem?_eq_some_iff.mp hj
  have hmono : StrictMono xs.get := List.sortedLT_iff_strictMono_get.mp hs.sortedLT
  simpa using hmono.lt_iff_lt (a := ⟨i, hi'⟩) (b := ⟨j, hj'⟩)

/-- The index that is left lies in the window. -/
lemma narrow_mem (xs : List α) (x : α) (fuel base size : ℕ) (hsize : 0 < size) :
    base ≤ narrow xs x fuel base size ∧ narrow xs x fuel base size < base + size := by
  induction fuel generalizing base size with
  | zero => rw [narrow]; omega
  | succ fuel ih =>
      rw [narrow]
      split_ifs with hone hlt
      · omega
      · have h := ih base (size - size / 2) (by omega)
        omega
      · have h := ih (base + size / 2) (size - size / 2) (by omega)
        omega

/-- The indices at which the halving loop compares on its way to the index `i`. -/
def probes (i : ℕ) : ℕ → ℕ → ℕ → List ℕ
  | 0, _, _ => []
  | fuel + 1, base, size =>
      if size ≤ 1 then []
      else
        (base + size / 2) ::
          probes i fuel (if i < base + size / 2 then base else base + size / 2) (size - size / 2)

/-- The elements that a search for `x` compares with on the way to its index are at most `x`
exactly if they do not stand behind it. -/
def InPlace (xs : List α) (x : α) : Prop :=
  ∀ m ∈ probes (xs.idxOf x) xs.length 0 xs.length, ∀ y ∈ xs[m]?, x < y ↔ xs.idxOf x < m

instance (xs : List α) (x : α) : Decidable (InPlace xs x) :=
  inferInstanceAs (Decidable (∀ m ∈ probes (xs.idxOf x) xs.length 0 xs.length, ∀ y ∈ xs[m]?,
    x < y ↔ xs.idxOf x < m))

/-- The window keeps the index of an element exactly if every comparison points to it: a
window that leaves the index behind never comes back. -/
lemma narrow_eq_iff {xs : List α} {x : α} {i : ℕ} (hi : xs[i]? = some x) (fuel base size : ℕ)
    (hfuel : size ≤ fuel) (hlen : base + size ≤ xs.length) (hlo : base ≤ i)
    (hhi : i < base + size) :
    narrow xs x fuel base size = i ↔
      ∀ m ∈ probes i fuel base size, ∀ y ∈ xs[m]?, x < y ↔ i < m := by
  induction fuel generalizing base size with
  | zero => omega
  | succ fuel ih =>
      rw [narrow, probes]
      by_cases hsize : size ≤ 1
      · simp only [if_pos hsize, List.not_mem_nil, false_implies, implies_true, iff_true]
        omega
      · have hmid : xs[base + size / 2]? = some xs[base + size / 2] := by simp
        simp only [if_neg hsize, hmid, Option.any_some, decide_eq_true_eq, List.forall_mem_cons,
          Option.mem_def, Option.some.injEq, forall_eq']
        by_cases hx : x < xs[base + size / 2] <;> by_cases him : i < base + size / 2
        · -- the comparison and the index both point below the middle
          simp only [hx, him, if_true, true_and]
          exact ih base _ (by omega) (by omega) hlo (by omega)
        · -- the loop goes on below the middle and loses the index, which is not the middle
          have hne : i ≠ base + size / 2 := by
            rintro rfl
            rw [hmid, Option.some.injEq] at hi
            exact absurd hx (hi ▸ lt_irrefl x)
          have hbounds := narrow_mem xs x fuel base (size - size / 2) (by omega)
          rw [if_pos hx]
          exact iff_of_false (by omega) fun h => him (h.1.mp hx)
        · -- the loop goes on from the middle, above the index
          have hbounds := narrow_mem xs x fuel (base + size / 2) (size - size / 2) (by omega)
          rw [if_neg hx]
          exact iff_of_false (by omega) fun h => hx (h.1.mpr him)
        · simp only [hx, him, if_false, true_and]
          exact ih _ _ (by omega) (by omega) (by omega) (by omega)

/-- The first occurrence of a member is found exactly if the member is in place. -/
lemma binarySearch_eq_idxOf_iff {xs : List α} {x : α} (hx : x ∈ xs) :
    binarySearch xs x = some (xs.idxOf x) ↔ InPlace xs x := by
  have hlt : xs.idxOf x < xs.length := List.idxOf_lt_length_of_mem hx
  have hi : xs[xs.idxOf x]? = some x := List.getElem?_idxOf hx
  rw [InPlace, ← narrow_eq_iff hi _ _ _ le_rfl (by omega) (by omega) (by omega), binarySearch]
  constructor
  · intro h
    split_ifs at h with hbase
    exact Option.some.inj h
  · intro h
    rw [h, if_pos hi]

/-- Every member of a strictly sorted list is in place. -/
lemma inPlace_of_sorted {xs : List α} (hs : xs.Pairwise (· < ·)) {x : α} (hx : x ∈ xs) :
    InPlace xs x := fun _ _ _ hy => lt_iff_of_getElem? hs (List.getElem?_idxOf hx) hy

/-- **Binary search on a sorted list**: every member is found. -/
theorem exists_binarySearch_of_mem {xs : List α} (hs : xs.Pairwise (· < ·)) {x : α}
    (hx : x ∈ xs) : ∃ i, binarySearch xs x = some i :=
  ⟨_, (binarySearch_eq_idxOf_iff hx).mpr (inPlace_of_sorted hs hx)⟩

/-- An element that is there once splits the list at every index at which it stands. -/
lemma exists_split_of_count_eq_one {xs : List α} {x : α} (hcount : xs.count x = 1) {i : ℕ}
    (hi : xs[i]? = some x) :
    ∃ as bs, xs = as ++ x :: bs ∧ as.length = i ∧ x ∉ as ∧ x ∉ bs := by
  obtain ⟨hlt, hxi⟩ := List.getElem?_eq_some_iff.mp hi
  have hsplit : xs = xs.take i ++ x :: xs.drop (i + 1) := by
    rw [← hxi, List.getElem_cons_drop, List.take_append_drop]
  have hsum : (xs.take i).count x + ((xs.drop (i + 1)).count x + 1) = 1 := by
    rw [← List.count_cons_self, ← List.count_append, ← hsplit, hcount]
  exact ⟨_, _, hsplit, List.length_take_of_le hlt.le, List.count_eq_zero.mp (by omega),
    List.count_eq_zero.mp (by omega)⟩

/-- **Binary search for an element that is there once**: it is found, at whatever index,
exactly if it is in place. -/
theorem exists_binarySearch_iff {xs : List α} {x : α} (hcount : xs.count x = 1) :
    (∃ i, binarySearch xs x = some i) ↔ InPlace xs x := by
  have hmem : x ∈ xs := List.count_pos_iff.mp (by omega)
  rw [← binarySearch_eq_idxOf_iff hmem]
  refine ⟨fun ⟨i, hi⟩ => ?_, fun h => ⟨_, h⟩⟩
  obtain ⟨as, bs, rfl, rfl, has, -⟩ :=
    exists_split_of_count_eq_one hcount (getElem?_of_binarySearch hi)
  rw [hi, List.idxOf_append_of_notMem has, List.idxOf_cons_self, Nat.add_zero]

/-- Erasing at the index of an element that is there once drops the element. -/
lemma eraseIdx_eq_filter {xs : List α} {x : α} (hcount : xs.count x = 1) {i : ℕ}
    (hi : xs[i]? = some x) : xs.eraseIdx i = xs.filter (· ≠ x) := by
  obtain ⟨as, bs, rfl, rfl, has, hbs⟩ := exists_split_of_count_eq_one hcount hi
  have hfilter : ∀ ys : List α, x ∉ ys → ys.filter (· ≠ x) = ys := fun ys hys =>
    List.filter_eq_self.mpr fun y hy => by simpa using fun h : y = x => hys (h ▸ hy)
  rw [List.eraseIdx_append_of_length_le le_rfl, Nat.sub_self, List.eraseIdx_zero, List.tail_cons,
    List.filter_append, List.filter_cons_of_neg (by simp), hfilter as has, hfilter bs hbs]

/-- In a strictly sorted list, erasing at the index that is found removes the element. -/
lemma eraseIdx_of_binarySearch {xs : List α} (hs : xs.Pairwise (· < ·)) {x : α} {i : ℕ}
    (h : binarySearch xs x = some i) : xs.eraseIdx i = xs.erase x := by
  obtain ⟨hi, rfl⟩ := List.getElem?_eq_some_iff.mp (getElem?_of_binarySearch h)
  exact (List.erase_eq_eraseIdx_of_idxOf (hs.nodup.idxOf_getElem i hi)).symm

end Search

/-! ### Removal by swapping -/

/-- Removal of the index `i` by moving the last element there. -/
def swapRemove (xs : List α) (i : ℕ) : List α :=
  match xs.getLast? with
  | none => []
  | some last => (xs.set i last).dropLast

/-- Up to order, `swapRemove` drops the index. -/
lemma swapRemove_perm {xs : List α} {i : ℕ} (hi : i < xs.length) :
    (swapRemove xs i).Perm (xs.eraseIdx i) := by
  obtain ⟨ys, last, rfl⟩ : ∃ ys last, xs = ys ++ [last] :=
    ⟨xs.dropLast, xs.getLast (by aesop), (List.dropLast_append_getLast _).symm⟩
  simp only [swapRemove, List.getLast?_append, List.getLast?_singleton, Option.some_or]
  by_cases h : i < ys.length
  · rw [List.set_append_left _ _ h, List.dropLast_concat, List.eraseIdx_append_of_lt_length h]
    exact (List.set_perm_cons_eraseIdx h last).trans (List.perm_append_singleton _ _).symm
  · have hlast : i = ys.length := by simp at hi; omega
    subst hlast
    simp [List.eraseIdx_append_of_length_le]

section SwapRemove

variable [DecidableEq α]

/-- In a list without duplicates the removal of a member's index keeps the other members. -/
lemma mem_swapRemove_idxOf {xs : List α} (hnd : xs.Nodup) {u : α} (hu : u ∈ xs) (v : α) :
    v ∈ swapRemove xs (xs.idxOf u) ↔ v ∈ xs ∧ v ≠ u := by
  rw [(swapRemove_perm (List.idxOf_lt_length_iff.mpr hu)).mem_iff,
    ← List.erase_eq_eraseIdx_of_idxOf rfl, hnd.mem_erase_iff, and_comm]

lemma nodup_swapRemove_idxOf {xs : List α} (hnd : xs.Nodup) {u : α} (hu : u ∈ xs) :
    (swapRemove xs (xs.idxOf u)).Nodup := by
  rw [(swapRemove_perm (List.idxOf_lt_length_iff.mpr hu)).nodup_iff]
  exact hnd.sublist (List.eraseIdx_sublist _ _)

end SwapRemove

/-! ### Replacement of an entry -/

section Replace

variable {xs : List α} {i j : ℕ} {x y : α}

/-- An entry after a replacement is the new one, or one of the others. -/
lemma getElem?_set_cases (h : (xs.set i x)[j]? = some y) :
    j = i ∧ y = x ∨ j ≠ i ∧ xs[j]? = some y := by
  by_cases hj : i = j
  · subst hj
    rw [List.getElem?_set_self'] at h
    obtain ⟨_, _, hy⟩ := Option.map_eq_some_iff.mp h
    exact .inl ⟨rfl, hy.symm⟩
  · rw [List.getElem?_set_ne hj] at h
    exact .inr ⟨Ne.symm hj, h⟩

/-- An entry of a list with one more is the new one, or one of the others. -/
lemma getElem?_concat_cases (h : (xs ++ [x])[j]? = some y) :
    j = xs.length ∧ y = x ∨ xs[j]? = some y := by
  rw [List.getElem?_append] at h
  split_ifs at h with hlt
  · exact .inr h
  · have hj := (List.getElem?_eq_some_iff.mp h).1
    rw [List.length_singleton] at hj
    obtain rfl : j = xs.length := by omega
    rw [Nat.sub_self] at h
    exact .inl ⟨rfl, (Option.some.inj h).symm⟩

/-- A part of an entry after an entry is replaced. -/
lemma bind_getElem?_set {β : Type*} {f : α → Option β} (hi : xs[i]? = some x) (j : ℕ) :
    (xs.set i y)[j]?.bind f = if j = i then f y else xs[j]?.bind f := by
  have hlt := (List.getElem?_eq_some_iff.mp hi).1
  split_ifs with hj
  · rw [hj, List.getElem?_set_self hlt, Option.bind_some]
  · rw [List.getElem?_set_ne (Ne.symm hj)]

/-- A part of an entry after an entry is added. -/
lemma bind_getElem?_concat {β : Type*} {f : α → Option β} (j : ℕ) :
    (xs ++ [y])[j]?.bind f = if j = xs.length then f y else xs[j]?.bind f := by
  split_ifs with hj
  · rw [hj, List.getElem?_concat_length, Option.bind_some]
  · rcases lt_or_gt_of_ne hj with hlt | hgt
    · rw [List.getElem?_append_left hlt]
    · rw [List.getElem?_eq_none (by simpa using hgt), List.getElem?_eq_none hgt.le]

/-- An entry that is added does not count where it lacks the property. -/
lemma exists_mem_concat_iff {P : α → Prop} (hy : ¬ P y) :
    (∃ x ∈ xs ++ [y], P x) ↔ ∃ x ∈ xs, P x := by
  constructor
  · rintro ⟨x, hx, hP⟩
    rcases List.mem_append.mp hx with hx | hx
    · exact ⟨x, hx, hP⟩
    · exact absurd (List.mem_singleton.mp hx ▸ hP) hy
  · rintro ⟨x, hx, hP⟩
    exact ⟨x, List.mem_append_left _ hx, hP⟩

/-- An entry after one is changed is one of the others, or the image of that one. -/
lemma mem_modify_cases {f : α → α} (h : y ∈ xs.modify i f) :
    y ∈ xs ∨ ∃ x, xs[i]? = some x ∧ y = f x := by
  obtain ⟨j, hj⟩ := List.mem_iff_getElem?.mp h
  rw [List.getElem?_modify, Option.map_eq_map, Option.map_eq_some_iff] at hj
  obtain ⟨x, hx, hy⟩ := hj
  split_ifs at hy with hij
  · exact .inr ⟨x, hij ▸ hx, hy.symm⟩
  · exact .inl (hy ▸ List.mem_of_getElem? hx)

/-- The entries other than the one that is replaced stay. -/
lemma mem_set_of_ne (hi : xs[i]? = some x) {z : α} (hz : z ∈ xs) (hne : z ≠ x) :
    z ∈ xs.set i y := by
  obtain ⟨j, hj⟩ := List.mem_iff_getElem?.mp hz
  have hij : i ≠ j := by
    rintro rfl
    exact hne (Option.some.inj (hj.symm.trans hi))
  exact List.mem_iff_getElem?.mpr ⟨j, (List.getElem?_set_ne hij).trans hj⟩

/-- Some entry has a property after a replacement that does not lose it. -/
lemma exists_mem_set_iff {P : α → Prop} (hi : xs[i]? = some x) (hP : P x → P y) :
    (∃ z ∈ xs.set i y, P z) ↔ P y ∨ ∃ z ∈ xs, P z := by
  have hlt := (List.getElem?_eq_some_iff.mp hi).1
  constructor
  · rintro ⟨z, hz, hPz⟩
    rcases List.mem_or_eq_of_mem_set hz with hz | rfl
    · exact .inr ⟨z, hz, hPz⟩
    · exact .inl hPz
  · rintro (hy | ⟨z, hz, hPz⟩)
    · exact ⟨y, List.mem_set hlt y, hy⟩
    · by_cases hne : z = x
      · exact ⟨y, List.mem_set hlt y, hP (hne ▸ hPz)⟩
      · exact ⟨z, mem_set_of_ne hi hz hne, hPz⟩

end Replace

/-! ### Loops that stop at the first error -/

section TryForEach

variable {ε : Type*}

/-- The loop that calls one element after the other, up to the first for which `call` fails; `u`
is what a call makes of an element, whether it fails or not. -/
def tryForEach (call : α → Except ε Unit) (u : α → α) : List α → Except ε Unit × List α
  | [] => (.ok (), [])
  | x :: xs =>
      match call x with
      | .error e => (.error e, u x :: xs)
      | .ok () => ((tryForEach call u xs).1, u x :: (tryForEach call u xs).2)

variable (call : α → Except ε Unit) (u : α → α)

/-- The loop returns the first error. -/
lemma tryForEach_fst (xs : List α) : (tryForEach call u xs).1 = xs.forM call := by
  induction xs with
  | nil => rfl
  | cons x xs ih =>
      rw [tryForEach, List.forM]
      cases call x with
      | error e => rfl
      | ok _ => exact ih

/-- **Who is called**: every element exactly if the call fails for none but the last one. -/
theorem tryForEach_snd_eq_map_iff (hu : ∀ x, u x ≠ x) (xs : List α) :
    (tryForEach call u xs).2 = xs.map u ↔ ∀ x ∈ xs.dropLast, call x = .ok () := by
  induction xs with
  | nil => simp [tryForEach]
  | cons x xs ih =>
      cases hx : call x with
      | error e =>
          rw [tryForEach, hx, List.map_cons, List.cons.injEq, and_iff_right rfl]
          cases xs with
          | nil => simp
          | cons y ys =>
              -- the next element was not called
              refine iff_of_false (fun h => hu y (List.cons.inj h).1.symm) fun h => ?_
              have hcall := h x (by simp)
              rw [hx] at hcall
              cases hcall
      | ok _ =>
          rw [tryForEach, hx, List.map_cons, List.cons.injEq, and_iff_right rfl, ih]
          cases xs with
          | nil => simp
          | cons y ys => simp [hx]

end TryForEach

end Vec
