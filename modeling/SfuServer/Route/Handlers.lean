import SfuServer.Room.Room

/-!
The request handlers that change a room: `src/route/room/{join,exit,delete}.rs`,
`src/route/rtc/{stream,whip}.rs` and `auth_user` of `src/route/mod.rs`.

Each handler first looks its room up among `ROOMS` (`withRoom`) and is here a function of the
room it finds; only `deleteRoom` changes the table of the rooms.  An error of type `AppError`
is answered as `AppError.intoResponse` says.

* `authUser`: the check of a user's shared key and token, which changes nothing;
* `roomJoin`, `roomExit`, `create`, `destroy`, `whip`, `deleteRoom`: the handlers.
-/

open Std (ExtTreeMap)

namespace SfuServer

/-- The rooms of the server, `ROOMS`. -/
abbrev Rooms := ExtTreeMap Int32 Room

/-- A request to exit a room, with the id of the room left out. -/
structure ExitRequest where
  userId : Int32
  token : UInt32
  sharedKey : String

/-- A request about a stream, with the id of the room left out. -/
structure StreamRequest where
  userId : Int32
  token : UInt32
  stream : String
  sharedKey : String

/-- A request to join a room, with the id of the room left out. -/
structure JoinRequest where
  name : String
  sharedKey : String
  masterKey : String

/-- A request to delete a room. -/
structure DeleteRequest where
  id : Int32
  masterKey : String

/-- The lookup that the handlers begin with. -/
def withRoom (rooms : Rooms) (id : Int32)
    (handler : Room → Except AppError Response × Room) : Except AppError Response × Rooms :=
  match rooms[id]? with
  | none => (.ok ⟨BodyUtil.roomIdNotfound, .notAcceptable⟩, rooms)
  | some room =>
      let (answer, room) := handler room
      (answer, rooms.insert id room)

section Handlers

variable (fnv : List UInt8 → UInt32)

/-- `auth_user`, once the room is found. -/
def authUser (room : Room) (sharedKey : String) (userId : Int32) (token : UInt32) :
    Except Response Client :=
  if ! room.authSharedKey fnv sharedKey then
    .error ⟨BodyUtil.inviledPassword, .notAcceptable⟩
  else
    match room.clientMap[userId]? with
    | none => .error ⟨BodyUtil.unknownError, .notAcceptable⟩
    | some client =>
        if ! client.checkToken token then .error ⟨BodyUtil.inviledToken, .notAcceptable⟩
        else .ok client

/-- `room_join`: an answer that refuses the user, or what `Room::join` makes of it. -/
def roomJoin (room : Room) (request : JoinRequest) (token : UInt32) :
    Except Response JoinResult × Room :=
  if ! room.authSharedKey fnv request.sharedKey then
    (.error ⟨BodyUtil.inviledPassword, .notAcceptable⟩, room)
  else
    match room.join fnv request.name request.masterKey token with
    | (.rejected, room) => (.error ⟨BodyUtil.rejected, .notAcceptable⟩, room)
    | (result, room) => (.ok result, room)

/-- `room_exit`. -/
def roomExit (room : Room) (request : ExitRequest) : Except AppError Response × Room :=
  if ! room.authSharedKey fnv request.sharedKey then
    (.ok ⟨BodyUtil.inviledPassword, .notAcceptable⟩, room)
  else
    match room.userDelete request.userId request.token true with
    | (.error e, room) => (.error e, room)
    | (.ok true, room) => (.ok ⟨BodyUtil.succeed, .ok⟩, room)
    | (.ok false, room) => (.ok ⟨BodyUtil.rejected, .notAcceptable⟩, room)

/-- `create`: a failure of the forwarder is not answered. -/
def create (room : Room) (request : StreamRequest) : Except AppError Response × Room :=
  match authUser fnv room request.sharedKey request.userId request.token with
  | .error response => (.ok response, room)
  | .ok client =>
      match room.forwarder.streamCreate request.stream with
      | .error _ => (.ok ⟨"", .ok⟩, room)
      | .ok forwarder =>
          let room := { room with forwarder := forwarder }
          match client.addStream request.stream with
          | .error e => (.error e, room)
          | .ok client => (.ok ⟨"", .ok⟩, room.setClient request.userId client)

/-- `destroy`: any user may delete any stream, and a failure of the forwarder is not
answered. -/
def destroy (room : Room) (request : StreamRequest) : Except AppError Response × Room :=
  match authUser fnv room request.sharedKey request.userId request.token with
  | .error response => (.ok response, room)
  | .ok client =>
      match room.forwarder.streamDelete request.stream with
      | .error _ => (.ok ⟨"", .ok⟩, room)
      | .ok forwarder =>
          let room := { room with forwarder := forwarder }
          match client.removeStream request.stream with
          | .error e => (.error e, room)
          | .ok client => (.ok ⟨"", .ok⟩, room.setClient request.userId client)

/-- `whip`, up to the answer of the offer: the handler unwraps the outcome of the publish, so
an error panics; a stream that the client lists already is passed over. -/
def whip (room : Room) (request : StreamRequest) (negotiated : Except AppError Unit) :
    Except Response (Except AppError ℕ) × Room :=
  match authUser fnv room request.sharedKey request.userId request.token with
  | .error response => (.error response, room)
  | .ok client =>
      match room.forwarder.publish request.stream negotiated with
      | (.error e, forwarder) => (.ok (.error e), { room with forwarder := forwarder })
      | (.ok peer, forwarder) =>
          let room := { room with forwarder := forwarder }
          match client.addStream request.stream with
          | .error _ => (.ok (.ok peer), room)
          | .ok client => (.ok (.ok peer), room.setClient request.userId client)

/-- `delete_room`, where `keys` are the keys of the room's client map in the order in which
the map lists them. -/
def deleteRoom (rooms : Rooms) (request : DeleteRequest) (keys : List Int32) :
    Except AppError Response × Rooms :=
  match rooms[request.id]? with
  | none => (.ok ⟨BodyUtil.inviledPassword, .notAcceptable⟩, rooms)
  | some room =>
      if ! room.authMasterKey fnv request.masterKey then
        (.ok ⟨BodyUtil.rejected, .notAcceptable⟩, rooms)
      else
        match room.allUserDelete keys with
        | (.error e, room) => (.error e, rooms.insert request.id room)
        | (.ok _, _) => (.ok ⟨BodyUtil.succeed, .ok⟩, rooms.erase request.id)

/-- Who passes `auth_user`: a client of the room with its own token, by the shared key. -/
lemma authUser_eq_ok_iff {room : Room} {sharedKey : String} {userId : Int32} {token : UInt32}
    {client : Client} : authUser fnv room sharedKey userId token = .ok client ↔
      room.authSharedKey fnv sharedKey = true ∧ room.clientMap[userId]? = some client ∧
        client.checkToken token = true := by
  rw [authUser]
  cases room.authSharedKey fnv sharedKey with
  | false => simp
  | true =>
      cases room.clientMap[userId]? with
      | none => simp
      | some c =>
          by_cases hc : c.checkToken token = true
          · simp only [Bool.not_true, Bool.false_eq_true, if_false, hc, Except.ok.injEq,
              true_and, Option.some.injEq, iff_self_and]
            exact fun h => h ▸ hc
          · simp only [Bool.not_true, Bool.false_eq_true, if_false, hc, Bool.not_false, if_true,
              reduceCtorEq, true_and, Option.some.injEq, false_iff, not_and]
            exact fun h => h ▸ hc

end Handlers

end SfuServer
