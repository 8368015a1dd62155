import SfuServer.Room.Admission

/-!
`Room::join` as its caller sees it: with the variables of the caller that it writes to, and the
search for a free id as the loop that it is.

* `Room.joinInto`: the function with the caller's variables; `Room.joinInto_eq` says that it
  does what `Room.join` does;
* `Room.searchIds_cases`: the search stops at the smallest free id, and passes over all ids
  exactly if none is free;
* `Room.meetsJoin_iff`: a join returns, admits the user exactly if the place that it asks for is
  available, under the smallest such id, and else changes nothing, exactly if the capacity
  fits the type of the ids or the user comes as a host.
-/

open Std (ExtTreeMap)

namespace SfuServer

/-- The variables of the caller that `Room::join` writes to. -/
structure JoinVars where
  userId : Int32
  token : UInt32
  deriving DecidableEq, Repr

namespace Room

variable {fnv : List UInt8 → UInt32} {room : Room} {userName masterKey : String} {token : UInt32}

/-! ### The function -/

/-- The ids from `lo` on and below the capacity. -/
def ids (room : Room) (lo : ℕ) : List Int32 :=
  (List.range' lo (room.capacity.toNat - lo)).map Int32.ofNat

/-- The loop over the ids, with `is_ok` and the caller's variables. -/
def searchIds (room : Room) (token : UInt32) : List Int32 → Bool × JoinVars → Bool × JoinVars
  | [], vars => vars
  | i :: ids, vars =>
      if i ∈ room.clientMap then room.searchIds token ids vars else (true, ⟨i, token⟩)

/-- The branches of `Room::join` that search from the id `lo` on.  The capacity is converted to
the type of the ids first, and `none` says that the conversion panics. -/
def joinFree (room : Room) (lo : ℕ) (userName : String) (token : UInt32) (vars : JoinVars) :
    Option (Bool × Room × JoinVars) :=
  if room.capacity.toNat < 2 ^ 31 then
    match room.searchIds token (room.ids lo) (false, vars) with
    | (false, vars) => some (false, room, vars)
    | (true, vars) => some (true, room.enter userName vars.userId vars.token, vars)
  else none

/-- `Room::join` with the variables of its caller: what it returns, and the room and the
variables afterwards; `token` is the random number that is drawn. -/
def joinInto (fnv : List UInt8 → UInt32) (room : Room) (userName masterKey : String)
    (token : UInt32) (vars : JoinVars) : Option (Bool × Room × JoinVars) :=
  if room.needsHost then
    if masterKey ≠ "" then
      if ¬ room.authMasterKey fnv masterKey ∨ 0 ∈ room.clientMap then some (false, room, vars)
      else some (true, room.enter userName 0 token, ⟨0, token⟩)
    else room.joinFree 1 userName token vars
  else room.joinFree 0 userName token vars

/-- What the caller sees of an outcome of a join. -/
def JoinResult.seen (vars : JoinVars) : JoinResult × Room → Option (Bool × Room × JoinVars)
  | (.panic, _) => none
  | (.rejected, room) => some (false, room, vars)
  | (.joined userId token, room) => some (true, room, ⟨userId, token⟩)

/-- The loop finds the first id that is free. -/
lemma searchIds_eq (room : Room) (token : UInt32) (ids : List Int32) (vars : JoinVars) :
    room.searchIds token ids (false, vars) =
      match ids.find? fun i => decide (i ∉ room.clientMap) with
      | some i => (true, ⟨i, token⟩)
      | none => (false, vars) := by
  induction ids with
  | nil => rfl
  | cons i ids ih =>
      rw [searchIds, List.find?_cons]
      by_cases hi : i ∈ room.clientMap
      · simpa [hi] using ih
      · simp [hi]

/-- The search for a guest's place, as the caller sees it. -/
lemma joinFree_eq (lo : ℕ) (vars : JoinVars) :
    room.joinFree lo userName token vars = JoinResult.seen vars
      (if 2 ^ 31 ≤ room.capacity.toNat then (.panic, room)
        else
          match room.firstFree lo with
          | some userId => (.joined userId token, room.enter userName userId token)
          | none => (.rejected, room)) := by
  rw [joinFree, firstFree, ← ids, searchIds_eq]
  by_cases hcap : room.capacity.toNat < 2 ^ 31
  · rw [if_pos hcap, if_neg (not_le.mpr hcap)]
    cases (room.ids lo).find? _ <;> rfl
  · rw [if_neg hcap, if_pos (not_lt.mp hcap), JoinResult.seen]

/-- **The caller's view**: the function with the caller's variables does what `Room.join`
does. -/
theorem joinInto_eq (fnv : List UInt8 → UInt32) (room : Room) (userName masterKey : String)
    (token : UInt32) (vars : JoinVars) :
    room.joinInto fnv userName masterKey token vars =
      JoinResult.seen vars (room.join fnv userName masterKey token) := by
  rw [joinInto, join]
  by_cases hneeds : room.needsHost = true
  · by_cases hkey : masterKey = ""
    · simp only [hneeds, hkey, ne_eq, not_true_eq_false, and_false, if_true, if_false]
      exact joinFree_eq 1 vars
    · by_cases hrej : ¬ room.authMasterKey fnv masterKey = true ∨ 0 ∈ room.clientMap
      · simp only [hneeds, hkey, hrej, ne_eq, not_false_eq_true, and_self, if_true,
          JoinResult.seen]
      · simp only [hneeds, hkey, hrej, ne_eq, not_false_eq_true, and_self, if_true, if_false,
          JoinResult.seen]
  · simp only [hneeds]
    exact joinFree_eq 0 vars

/-! ### The search -/

/-- The ids of the search are those from `lo` on and below the capacity. -/
lemma mem_ids_iff {lo : ℕ} (hcap : room.capacity.toNat < 2 ^ 31) {v : Int32} :
    v ∈ room.ids lo ↔ (lo : ℤ) ≤ v.toInt ∧ v.toInt < room.capacity.toNat := by
  rw [ids, List.mem_map]
  constructor
  · rintro ⟨i, hi, rfl⟩
    have hi := List.mem_range'_1.mp hi
    have htoInt : (Int32.ofNat i).toInt = i := Int32.toInt_ofNat_of_lt (by omega)
    omega
  · rintro ⟨hlo, hhi⟩
    refine ⟨v.toInt.toNat, List.mem_range'_1.mpr (by omega), ?_⟩
    rw [← Int32.toInt_inj, Int32.toInt_ofNat_of_lt (by omega)]
    omega

/-- The search goes upwards. -/
lemma pairwise_ids {lo : ℕ} (hcap : room.capacity.toNat < 2 ^ 31) :
    (room.ids lo).Pairwise fun v w => v.toInt < w.toInt := by
  rw [ids, List.pairwise_map]
  refine List.Pairwise.imp_of_mem (fun {i j} hi hj hij => ?_) List.pairwise_lt_range'
  have hi := List.mem_range'_1.mp hi
  have hj := List.mem_range'_1.mp hj
  rw [Int32.toInt_ofNat_of_lt (by omega), Int32.toInt_ofNat_of_lt (by omega)]
  omega

/-- **The search**: it passes over all ids, none being free, and leaves the variables alone; or
it stops at the smallest one that is free. -/
theorem searchIds_cases (room : Room) (token : UInt32) {ids : List Int32} (vars : JoinVars)
    (hids : ids.Pairwise fun v w => v.toInt < w.toInt) :
    (room.searchIds token ids (false, vars) = (false, vars) ∧ ∀ v ∈ ids, v ∈ room.clientMap) ∨
      ∃ i ∈ ids, room.searchIds token ids (false, vars) = (true, ⟨i, token⟩) ∧
        i ∉ room.clientMap ∧ ∀ v ∈ ids, v ∉ room.clientMap → i.toInt ≤ v.toInt := by
  induction ids with
  | nil => exact .inl ⟨rfl, by simp⟩
  | cons i ids ih =>
      obtain ⟨hlt, hids⟩ := List.pairwise_cons.mp hids
      rw [searchIds]
      by_cases hi : i ∈ room.clientMap
      · rw [if_pos hi]
        rcases ih hids with ⟨hsearch, hall⟩ | ⟨j, hj, hsearch, hfree, hleast⟩
        · exact .inl ⟨hsearch, List.forall_mem_cons.mpr ⟨hi, hall⟩⟩
        · exact .inr ⟨j, List.mem_cons_of_mem i hj, hsearch, hfree,
            List.forall_mem_cons.mpr ⟨absurd hi, hleast⟩⟩
      · rw [if_neg hi]
        exact .inr ⟨i, List.mem_cons_self, rfl, hi, List.forall_mem_cons.mpr
          ⟨fun _ => le_rfl, fun v hv _ => (hlt v hv).le⟩⟩

/-! ### What a join is meant to do -/

/-- The places that a join asks for and that nobody has: the first one for a host with the
master key, and one of the others, or of all in an open room, for a guest. -/
def Available (fnv : List UInt8 → UInt32) (room : Room) (masterKey : String) (userId : Int32) :
    Prop :=
  (room.AsHost fnv masterKey userId ∨ room.AsGuest masterKey userId) ∧ userId ∉ room.clientMap

/-- The join returns; it admits the user exactly if a place is available, and then under the
smallest id; and a join that does not admit the user leaves the room and the caller's
variables as they were. -/
def MeetsJoin (fnv : List UInt8 → UInt32) (room : Room) (userName masterKey : String)
    (token : UInt32) (vars : JoinVars) : Prop :=
  ∃ admitted room' vars', room.joinInto fnv userName masterKey token vars =
      some (admitted, room', vars') ∧
    (admitted = true ↔ ∃ userId, room.Available fnv masterKey userId) ∧
    (admitted = true → room.Available fnv masterKey vars'.userId ∧
      (∀ userId, room.Available fnv masterKey userId → vars'.userId.toInt ≤ userId.toInt) ∧
      vars'.token = token ∧ room' = room.enter userName vars'.userId token) ∧
    (admitted = false → room' = room ∧ vars' = vars)

/-- The condition of a host's join. -/
lemma available_host_iff (hneeds : room.needsHost = true) (hkey : masterKey ≠ "") {v : Int32} :
    room.Available fnv masterKey v ↔
      room.authMasterKey fnv masterKey = true ∧ v = 0 ∧ 0 ∉ room.clientMap := by
  simp only [Available, AsHost, AsGuest, hneeds, hkey, ne_eq, not_false_eq_true, and_self,
    not_true_eq_false, false_and, or_false, true_and]
  constructor
  · rintro ⟨⟨hauth, rfl⟩, hv⟩
    exact ⟨hauth, rfl, hv⟩
  · rintro ⟨hauth, rfl, hv⟩
    exact ⟨⟨hauth, rfl⟩, hv⟩

/-- The condition of a guest's join, by the ids that are searched. -/
lemma available_guest_iff (hguest : ¬ (room.needsHost = true ∧ masterKey ≠ ""))
    (hcap : room.capacity.toNat < 2 ^ 31) {v : Int32} :
    room.Available fnv masterKey v ↔
      v ∈ room.ids (if room.needsHost then 1 else 0) ∧ v ∉ room.clientMap := by
  rw [Available, mem_ids_iff hcap, AsGuest]
  have hhost : ¬ room.AsHost fnv masterKey v := fun h => hguest ⟨h.1, h.2.1⟩
  simp only [hhost, hguest, not_false_eq_true, true_and, false_or, Nat.cast_ite, Nat.cast_one,
    Nat.cast_zero]

/-- A guest's join, if the capacity fits the type of the ids. -/
lemma meetsJoin_guest (hguest : ¬ (room.needsHost = true ∧ masterKey ≠ ""))
    (hcap : room.capacity.toNat < 2 ^ 31) (vars : JoinVars) :
    room.MeetsJoin fnv userName masterKey token vars := by
  have hfree : room.joinInto fnv userName masterKey token vars =
      room.joinFree (if room.needsHost then 1 else 0) userName token vars := by
    rw [joinInto]
    by_cases hneeds : room.needsHost = true
    · simp [hneeds, show masterKey = "" by simpa [hneeds] using hguest]
    · simp [hneeds]
  simp only [MeetsJoin, hfree, joinFree, if_pos hcap, available_guest_iff hguest hcap]
  rcases searchIds_cases room token vars (pairwise_ids hcap) with
    ⟨hsearch, hall⟩ | ⟨i, hi, hsearch, hfree, hleast⟩
  · rw [hsearch]
    exact ⟨false, room, vars, rfl, by simpa using hall, by simp, fun _ => ⟨rfl, rfl⟩⟩
  · rw [hsearch]
    exact ⟨true, _, _, rfl, iff_of_true rfl ⟨i, hi, hfree⟩,
      fun _ => ⟨⟨hi, hfree⟩, fun v hv => hleast v hv.1 hv.2, rfl, rfl⟩, by simp⟩

/-- A host's join, whatever the capacity. -/
lemma meetsJoin_host (hneeds : room.needsHost = true) (hkey : masterKey ≠ "") (vars : JoinVars) :
    room.MeetsJoin fnv userName masterKey token vars := by
  simp only [MeetsJoin, joinInto, if_pos hneeds, if_pos hkey, available_host_iff hneeds hkey]
  split_ifs with hrej
  · refine ⟨false, room, vars, rfl, ?_, by simp, fun _ => ⟨rfl, rfl⟩⟩
    simp only [Bool.false_eq_true, false_iff, not_exists]
    rintro _ ⟨hauth, -, hfree⟩
    exact hrej.elim (fun h => h hauth) hfree
  · push Not at hrej
    exact ⟨true, _, _, rfl, iff_of_true rfl ⟨0, hrej.1, rfl, hrej.2⟩,
      fun _ => ⟨⟨hrej.1, rfl, hrej.2⟩, fun v hv => by rw [hv.2.1], rfl, rfl⟩, by simp⟩

/-- **Admission**: for every room, name, key, drawn token and variables of the caller, a join
does what it is meant to do if and only if the capacity of the room is below the bound of
the type of the ids, or the user comes as the host. -/
theorem meetsJoin_iff (fnv : List UInt8 → UInt32) (room : Room) (userName masterKey : String)
    (token : UInt32) (vars : JoinVars) :
    room.MeetsJoin fnv userName masterKey token vars ↔
      room.capacity.toNat < 2 ^ 31 ∨ room.needsHost = true ∧ masterKey ≠ "" := by
  by_cases hhost : room.needsHost = true ∧ masterKey ≠ ""
  · exact iff_of_true (meetsJoin_host hhost.1 hhost.2 vars) (.inr hhost)
  · rw [or_iff_left hhost]
    refine ⟨?_, fun hcap => meetsJoin_guest hhost hcap vars⟩
    rintro ⟨admitted, room', vars', hjoin, -⟩
    by_contra hcap
    -- the conversion of the capacity panics
    have hpanic : room.joinInto fnv userName masterKey token vars = none := by
      rw [joinInto_eq, join, if_neg hhost, if_pos (not_lt.mp hcap), JoinResult.seen]
    rw [hpanic] at hjoin
    cases hjoin

/-- An open room that is created for as many users as an unsigned number can say. -/
def hugeRoom : Room := Room.new fnv1a 1 "room" false true 0xffffffff "key" "master" "" 15000

/-- Nobody can join it: the conversion of its capacity panics. -/
theorem not_meetsJoin_hugeRoom :
    ¬ ∀ (fnv : List UInt8 → UInt32) (room : Room) (userName masterKey : String) (token : UInt32)
        (vars : JoinVars), (roomMachine fnv).Reachable room →
      room.MeetsJoin fnv userName masterKey token vars := by
  intro h
  have hreach : (roomMachine fnv1a).Reachable hugeRoom :=
    ⟨hugeRoom, [], ⟨1, "room", false, true, 0xffffffff, "key", "master", "", 15000, rfl⟩, rfl⟩
  obtain ⟨admitted, room', vars', hjoin, -⟩ := h fnv1a hugeRoom "user" "" 7 ⟨0, 0⟩ hreach
  have hpanic : (hugeRoom.joinInto fnv1a "user" "" 7 ⟨0, 0⟩).isSome = false := by decide
  rw [hjoin] at hpanic
  cases hpanic

end Room

end SfuServer
