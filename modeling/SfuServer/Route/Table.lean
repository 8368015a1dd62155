import SfuServer.Room.Admission

/-!
The table of the rooms, `ROOMS`, under any sequence of requests to create, join, exit and delete
rooms: `create_room`, `room_join`, `room_exit` and `delete_room` of `src/route/room`.

The last three look a room up and work on that one.  A new room is entered under an id that is
drawn at random and not looked up before, so it takes the place of a room that has it.

* `tableMachine`: the machine of the requests, whose draws are part of the actions;
* `Isolated`: a request leaves the other rooms alone, a new room replaces none, and every room is
  found under its own id;
* `tableIsolated_iff`: every request of a run is `Isolated` exactly if every id that is drawn for
  a new room is free.
-/

open Std (ExtTreeMap)

namespace SfuServer

/-- A request to create a room. -/
structure CreateRequest where
  name : String
  capacity : UInt32
  needsHost : Bool
  isPublic : Bool
  sharedKey : String
  masterKey : String
  description : String

/-- `RoomInfoJson`. -/
structure RoomInfoJson where
  id : Int32
  name : String
  capacity : UInt32
  description : String

/-- `Room::info`. -/
def Room.info (room : Room) : RoomInfoJson :=
  ⟨room.id, room.name, room.capacity, room.description⟩

section Handlers

variable (fnv : List UInt8 → UInt32) (timeout : ℕ)

/-- The room that a request creates under an id. -/
def CreateRequest.room (request : CreateRequest) (roomId : Int32) : Room :=
  Room.new fnv roomId request.name request.needsHost request.isPublic request.capacity
    request.sharedKey request.masterKey request.description timeout

/-- `create_room`, where `roomId` is the random number that is drawn. -/
def createRoom (rooms : Rooms) (request : CreateRequest) (roomId : Int32) :
    RoomInfoJson × Rooms :=
  let room := request.room fnv timeout roomId
  (room.info, rooms.insert roomId room)

/-- `room_join`, from the lookup on: the room that is found is changed in its place. -/
def joinRoom (rooms : Rooms) (roomId : Int32) (request : JoinRequest) (token : UInt32) :
    Except Response JoinResult × Rooms :=
  match rooms[roomId]? with
  | none => (.error ⟨BodyUtil.roomIdNotfound, .notAcceptable⟩, rooms)
  | some room =>
      let (result, room) := roomJoin fnv room request token
      (result, rooms.insert roomId room)

/-- `room_exit`, from the lookup on. -/
def exitRoom (rooms : Rooms) (roomId : Int32) (request : ExitRequest) :
    Except AppError Response × Rooms :=
  withRoom rooms roomId fun room => roomExit fnv room request

end Handlers

/-- A request to the table, with the numbers that are drawn for it; a deletion comes with the
order in which the client map lists its keys. -/
inductive TableRequest where
  | create (request : CreateRequest) (roomId : Int32)
  | join (roomId : Int32) (request : JoinRequest) (token : UInt32)
  | exit (roomId : Int32) (request : ExitRequest)
  | delete (request : DeleteRequest) (keys : List Int32)

namespace TableRequest

/-- The room that a request addresses. -/
def addressed : TableRequest → Option Int32
  | .create .. => none
  | .join roomId .. => some roomId
  | .exit roomId _ => some roomId
  | .delete request _ => some request.id

end TableRequest

/-- The machine of the table, which is empty at first. -/
def tableMachine (fnv : List UInt8 → UInt32) (timeout : ℕ) : Machine Rooms TableRequest where
  init rooms := rooms = ∅
  step rooms
    | .create request roomId => some (createRoom fnv timeout rooms request roomId).2
    | .join roomId request token => some (joinRoom fnv rooms roomId request token).2
    | .exit roomId request => some (exitRoom fnv rooms roomId request).2
    | .delete request keys =>
        if rooms[request.id]?.all fun room => keys.isPerm room.clientMap.keys then
          some (deleteRoom fnv rooms request keys).2
        else none

/-! ### Isolation -/

/-- Every room is found under its own id. -/
def Keyed (rooms : Rooms) : Prop :=
  ∀ (roomId : Int32) (room : Room), rooms[roomId]? = some room → room.id = roomId

/-- The rooms that a request may not touch are as they were. -/
def LeavesRooms (rooms : Rooms) (request : TableRequest) (rooms' : Rooms) : Prop :=
  ∀ (roomId : Int32) (room : Room), rooms[roomId]? = some room → request.addressed ≠ some roomId →
    rooms'[roomId]? = some room

/-- One new entry is added. -/
def AddsEntry (rooms rooms' : Rooms) : Prop :=
  ∃ (newId : Int32) (room : Room), newId ∉ rooms ∧
    ∀ roomId : Int32, rooms'[roomId]? = if roomId = newId then some room else rooms[roomId]?

/-- What a request may do to the table: it leaves the rooms that it does not address as they were,
clients, tokens, groups, streams and keys included; a request to create a room adds one new
entry, and the others add none; and every room is found under its own id. -/
structure TableIsolated (rooms : Rooms) (request : TableRequest) (rooms' : Rooms) : Prop where
  leaves : LeavesRooms rooms request rooms'
  adds : request.addressed = none → AddsEntry rooms rooms'
  addsNone : ∀ target, request.addressed = some target → ∀ roomId ∈ rooms', roomId ∈ rooms
  keyed : Keyed rooms'

/-- The id that is drawn for a new room is free. -/
def DrawsFree (rooms : Rooms) : TableRequest → Prop
  | .create _ roomId => roomId ∉ rooms
  | _ => True

instance (rooms : Rooms) (request : TableRequest) : Decidable (DrawsFree rooms request) :=
  match request with
  | .create _ roomId => inferInstanceAs (Decidable (roomId ∉ rooms))
  | .join .. | .exit .. | .delete .. => isTrue trivial

/-- The effect of a request to a room that is there: its entry is gone, or another one with the
same id. -/
lemma tableIsolated_of_eq {rooms rooms' : Rooms} {request : TableRequest} {target : Int32}
    (haddr : request.addressed = some target) (hkeyed : Keyed rooms) (entry : Option Room)
    (heq : ∀ roomId : Int32, rooms'[roomId]? = if roomId = target then entry else rooms[roomId]?)
    (hentry : ∀ room, entry = some room → room.id = target ∧ target ∈ rooms) :
    TableIsolated rooms request rooms' where
  leaves roomId room hroom hne := by
    have hid : roomId ≠ target := by
      rintro rfl
      exact hne haddr
    rw [heq, if_neg hid, hroom]
  adds hnone := absurd (haddr.symm.trans hnone) (by simp)
  addsNone _ _ roomId hmem := by
    rw [ExtTreeMap.mem_iff_isSome_getElem?, heq] at hmem
    split_ifs at hmem with hid
    · obtain ⟨room, hroom⟩ := Option.isSome_iff_exists.mp hmem
      exact hid ▸ (hentry room hroom).2
    · exact ExtTreeMap.mem_iff_isSome_getElem?.mpr hmem
  keyed roomId room hroom := by
    rw [heq] at hroom
    split_ifs at hroom with hid
    · exact hid ▸ (hentry room hroom).1
    · exact hkeyed roomId room hroom

/-- A room that is changed in its place. -/
lemma tableIsolated_insert {rooms : Rooms} {request : TableRequest} {target : Int32}
    (haddr : request.addressed = some target) (hkeyed : Keyed rooms) {room room' : Room}
    (hroom : rooms[target]? = some room) (hid : room'.id = room.id) :
    TableIsolated rooms request (rooms.insert target room') := by
  refine tableIsolated_of_eq haddr hkeyed (some room') (fun roomId => ?_) ?_
  · by_cases h : roomId = target
    · simp [h]
    · simp [h, ExtTreeMap.getElem?_insert, Ne.symm h]
  · rintro _ ⟨⟩
    exact ⟨hid.trans (hkeyed target room hroom),
      ExtTreeMap.mem_iff_isSome_getElem?.mpr (by simp [hroom])⟩

/-- A request to a room that is not there changes nothing. -/
lemma tableIsolated_refl {rooms : Rooms} {request : TableRequest} {target : Int32}
    (haddr : request.addressed = some target) (hkeyed : Keyed rooms)
    (hnone : rooms[target]? = none) : TableIsolated rooms request rooms := by
  refine tableIsolated_of_eq haddr hkeyed none (fun roomId => ?_) (by simp)
  by_cases h : roomId = target
  · simp [h, hnone]
  · simp [h]

/-- A request to delete a room. -/
lemma tableIsolated_delete (fnv : List UInt8 → UInt32) {rooms : Rooms} (hkeyed : Keyed rooms)
    (request : DeleteRequest) (keys : List Int32) :
    TableIsolated rooms (.delete request keys) (deleteRoom fnv rooms request keys).2 := by
  rw [deleteRoom]
  cases hroom : rooms[request.id]? with
  | none => exact tableIsolated_refl rfl hkeyed hroom
  | some room =>
      have hsame : rooms.insert request.id room = rooms := by
        ext roomId r
        by_cases h : roomId = request.id
        · simp [h, hroom]
        · simp [ExtTreeMap.getElem?_insert, Ne.symm h]
      have hid := congrArg RoomSettings.id (room.settings_deleteUsers keys)
      dsimp only
      split_ifs
      · have hinsert : TableIsolated rooms (.delete request keys) (rooms.insert request.id room) :=
          tableIsolated_insert rfl hkeyed hroom rfl
        rwa [hsame] at hinsert
      · rw [Room.allUserDelete]
        split
        · -- the deletion of a user failed, and the room stays with what is left of it
          rename_i hdelete
          rw [hdelete] at hid
          exact tableIsolated_insert rfl hkeyed hroom hid
        · refine tableIsolated_of_eq rfl hkeyed none (fun roomId => ?_) (by simp)
          by_cases h : roomId = request.id
          · simp [h]
          · simp [h, ExtTreeMap.getElem?_erase, Ne.symm h]

/-- A request to create a room is isolated exactly if the id is free. -/
lemma tableIsolated_create_iff (fnv : List UInt8 → UInt32) (timeout : ℕ) {rooms : Rooms}
    (hkeyed : Keyed rooms) (request : CreateRequest) (roomId : Int32) :
    TableIsolated rooms (.create request roomId)
        (createRoom fnv timeout rooms request roomId).2 ↔ roomId ∉ rooms := by
  have heq : ∀ k : Int32, (createRoom fnv timeout rooms request roomId).2[k]? =
      if k = roomId then some (request.room fnv timeout roomId) else rooms[k]? := by
    intro k
    by_cases h : k = roomId
    · simp [createRoom, h]
    · simp [createRoom, h, ExtTreeMap.getElem?_insert, Ne.symm h]
  constructor
  · intro h
    obtain ⟨newId, room, hnew, hadds⟩ := h.adds rfl
    -- the new entry is under the id that was drawn, as all others were there before
    have hentry := (heq newId).symm.trans (hadds newId)
    rw [if_pos rfl, ExtTreeMap.getElem?_eq_none hnew] at hentry
    split_ifs at hentry with hid
    exact hid ▸ hnew
  · intro hfree
    refine ⟨fun k room hroom _ => ?_, fun _ => ⟨roomId, _, hfree, heq⟩, by
      simp [TableRequest.addressed], fun k room hroom => ?_⟩
    · have hne : k ≠ roomId := by
        rintro rfl
        rw [ExtTreeMap.getElem?_eq_none hfree] at hroom
        cases hroom
      rw [heq, if_neg hne, hroom]
    · rw [heq] at hroom
      split_ifs at hroom with hk
      · cases hroom
        exact hk.symm
      · exact hkeyed k room hroom

/-- One request, from a table in which every room is found under its own id. -/
lemma tableIsolated_step_iff (fnv : List UInt8 → UInt32) (timeout : ℕ) {rooms rooms' : Rooms}
    {request : TableRequest} (hkeyed : Keyed rooms)
    (h : (tableMachine fnv timeout).step rooms request = some rooms') :
    TableIsolated rooms request rooms' ↔ DrawsFree rooms request := by
  cases request with
  | create request roomId =>
      obtain rfl := Option.some.inj h
      exact tableIsolated_create_iff fnv timeout hkeyed request roomId
  | join roomId request token =>
      obtain rfl := Option.some.inj h
      refine iff_of_true ?_ trivial
      rw [joinRoom]
      cases hroom : rooms[roomId]? with
      | none => exact tableIsolated_refl rfl hkeyed hroom
      | some room =>
          exact tableIsolated_insert rfl hkeyed hroom
            (congrArg RoomSettings.id (room.settings_roomJoin request token))
  | exit roomId request =>
      obtain rfl := Option.some.inj h
      refine iff_of_true ?_ trivial
      rw [exitRoom, withRoom]
      cases hroom : rooms[roomId]? with
      | none => exact tableIsolated_refl rfl hkeyed hroom
      | some room =>
          exact tableIsolated_insert rfl hkeyed hroom
            (congrArg RoomSettings.id (room.settings_roomExit request))
  | delete request keys =>
      dsimp only [tableMachine] at h
      split_ifs at h
      obtain rfl := Option.some.inj h
      exact iff_of_true (tableIsolated_delete fnv hkeyed request keys) trivial

/-- **Isolation of the rooms**: in every run of requests and draws from the empty table, every
request leaves the rooms that it does not address as they were, and every new room has an
entry of its own, if and only if every id that is drawn for a new room is free when it is
drawn. -/
theorem tableIsolated_iff (fnv : List UInt8 → UInt32) (timeout : ℕ) {rooms : Rooms}
    {requests : List TableRequest} (h0 : (tableMachine fnv timeout).init rooms) :
    (tableMachine fnv timeout).Along TableIsolated rooms requests ↔
      (tableMachine fnv timeout).Guarded DrawsFree rooms requests := by
  refine Machine.along_iff_guarded (I := Keyed) ?_ ?_
  · intro rooms request rooms' hkeyed hstep
    have hiff := tableIsolated_step_iff fnv timeout hkeyed hstep
    exact ⟨hiff, fun hfree => (hiff.mpr hfree).keyed⟩
  · intro roomId room hroom
    rw [show rooms = ∅ from h0] at hroom
    simp at hroom

/-- A request for a room with places for two. -/
def smallRequest : CreateRequest := ⟨"room", 2, false, true, "key", "master", ""⟩

/-- Two rooms are created, a user joins the first and leaves it, and it is deleted. -/
def freeRequests : List TableRequest :=
  [.create smallRequest 1, .create smallRequest 2, .join 1 ⟨"user", "key", ""⟩ 7,
    .exit 1 ⟨0, 7, "key"⟩, .delete ⟨1, "master"⟩ []]

theorem tableIsolated_freeRequests :
    (tableMachine fnv1a 15000).Along TableIsolated ∅ freeRequests :=
  (tableIsolated_iff fnv1a 15000 rfl).mpr (by decide)

/-- The id of a room with a user in it is drawn again: the room is replaced by an empty one. -/
theorem not_tableIsolated_redrawn :
    ¬ ∀ (fnv : List UInt8 → UInt32) (timeout : ℕ) (rooms : Rooms) (requests : List TableRequest),
      (tableMachine fnv timeout).init rooms →
        (tableMachine fnv timeout).Along TableIsolated rooms requests := by
  intro h
  let before : Rooms := (joinRoom fnv1a (createRoom fnv1a 15000 ∅ smallRequest 1).2 1
    ⟨"user", "key", ""⟩ 7).2
  have hleaves := ((h fnv1a 15000 ∅ ([.create smallRequest 1, .join 1 ⟨"user", "key", ""⟩ 7] ++
    [.create smallRequest 1]) rfl).last (t := before) rfl rfl).leaves
  obtain ⟨room, hroom⟩ := Option.isSome_iff_exists.mp
    (by decide : before[(1 : Int32)]?.isSome = true)
  have husers : (before[(1 : Int32)]?.map fun room => room.clientMap.size) = some 1 := by decide
  have hnone : ((createRoom fnv1a 15000 before smallRequest 1).2[(1 : Int32)]?.map
      fun room => room.clientMap.size) = some 0 := by decide
  rw [hroom] at husers
  rw [hleaves 1 room hroom (by simp [TableRequest.addressed]), husers] at hnone
  cases hnone

end SfuServer
