import Mathlib.Data.String.Basic
import SfuServer.Lib.Vec
import SfuServer.Ws.GroupsManager
import SfuServer.Rtc.Forwarder

/-!
A room and its clients: `Room` of `src/room.rs` and `Client` of `src/forward/rtc/client.rs`.

A room keeps four things about a user: the client with the list of its streams, its
memberships in the WebSocket groups, and through the streams its part of the forwarder's
table.  `user_delete` takes them apart in a fixed order and gives up half way when one of
its steps fails.

* `Client.addStream`, `Client.removeStream`: the client's list of streams;
* `Room.join`: admission, under the lowest free id;
* `Room.userDelete`, `Room.allUserDelete`: what they return, and the room that they leave,
  which an error does not undo;
* `Room.userDelete_rejected_unchanged_iff`: a rejected deletion leaves the room as it was
  exactly if the user has no entry in the groups manager.

`fnv` stands for the hasher of the package `hash32`, as a function of the bytes written.
-/

open Std (ExtTreeMap)

namespace SfuServer

/-- `hash_from_string` of `libs/utils/src/unique.rs`: the bytes of a string are hashed with an
end mark. -/
def hashFromString (fnv : List UInt8 → UInt32) (obj : String) : UInt32 :=
  fnv (obj.toList.flatMap String.utf8EncodeChar ++ [0xff])

/-! ### Clients -/

/-- `Client`. -/
structure Client where
  name : String
  id : Int32
  token : UInt32
  streamMap : List String
  deriving DecidableEq, Repr

namespace Client

/-- `Client::new`. -/
def new (id : Int32) (token : UInt32) (name : String) : Client := ⟨name, id, token, []⟩

/-- `Client::check_token`. -/
def checkToken (c : Client) (token : UInt32) : Bool := c.token == token

/-- `Client::add_stream`: the list is in the order of the insertions. -/
def addStream (c : Client) (stream : String) : Except AppError Client :=
  if stream ∈ c.streamMap then .error (.streamAlreadyExists stream)
  else .ok { c with streamMap := c.streamMap ++ [stream] }

/-- `Client::remove_stream`: the index is looked up by a binary search. -/
def removeStream (c : Client) (stream : String) : Except AppError Client :=
  if stream ∈ c.streamMap then
    match Vec.binarySearch c.streamMap stream with
    | some index => .ok { c with streamMap := c.streamMap.eraseIdx index }
    | none => .error (.streamNotFound stream)
  else .error (.streamNotFound stream)

/-- `Client::get_streams`. -/
def getStreams (c : Client) : List String := c.streamMap

end Client

/-! ### Rooms -/

/-- `Room`. -/
structure Room where
  id : Int32
  name : String
  needsHost : Bool
  isPublic : Bool
  capacity : UInt32
  clientMap : ExtTreeMap Int32 Client
  sharedKeyHash : UInt32
  masterKeyHash : UInt32
  description : String
  forwarder : Forwarder
  groupManager : GroupsManager

/-- The outcomes of `Room::join`: the conversion of the capacity panics, the user is
rejected, or it is admitted under an id, with a token. -/
inductive JoinResult where
  | panic
  | rejected
  | joined (userId : Int32) (token : UInt32)
  deriving DecidableEq, Repr

namespace Room

variable (fnv : List UInt8 → UInt32)

/-- `Room::new`. -/
def new (id : Int32) (name : String) (needsHost isPublic : Bool) (capacity : UInt32)
    (sharedKey masterKey description : String) (publishLeaveTimeout : ℕ) : Room where
  id := id
  name := name
  needsHost := needsHost
  isPublic := isPublic
  capacity := capacity
  clientMap := ∅
  sharedKeyHash := hashFromString fnv sharedKey
  masterKeyHash := hashFromString fnv masterKey
  description := description
  forwarder := Forwarder.new publishLeaveTimeout
  groupManager := GroupsManager.new

/-- `Room::auth_shared_key`. -/
def authSharedKey (room : Room) (key : String) : Bool :=
  room.sharedKeyHash == hashFromString fnv key

/-- `Room::auth_master_key`. -/
def authMasterKey (room : Room) (key : String) : Bool :=
  room.masterKeyHash == hashFromString fnv key

/-- The first free id from `lo` on and below the capacity. -/
def firstFree (room : Room) (lo : ℕ) : Option Int32 :=
  ((List.range' lo (room.capacity.toNat - lo)).map Int32.ofNat).find? fun i =>
    decide (i ∉ room.clientMap)

/-- The end of `Room::join`: the new client is entered, and known to the groups. -/
def enter (room : Room) (userName : String) (userId : Int32) (token : UInt32) : Room :=
  { room with
    clientMap := room.clientMap.insert userId (Client.new userId token userName)
    groupManager := room.groupManager.initUser userId.toUInt32 }

/-- `Room::join`, where `token` is the random number that is drawn. -/
def join (room : Room) (userName masterKey : String) (token : UInt32) : JoinResult × Room :=
  if room.needsHost ∧ masterKey ≠ "" then
    if ¬ room.authMasterKey fnv masterKey ∨ 0 ∈ room.clientMap then (.rejected, room)
    else (.joined 0 token, room.enter userName 0 token)
  else if 2 ^ 31 ≤ room.capacity.toNat then (.panic, room)
  else
    match room.firstFree (if room.needsHost then 1 else 0) with
    | some userId => (.joined userId token, room.enter userName userId token)
    | none => (.rejected, room)

/-- The client with that id, and every clone of it, after a change of the list it shares. -/
def setClient (room : Room) (userId : Int32) (client : Client) : Room :=
  { room with clientMap := room.clientMap.insert userId client }

/-- The loop of `Room::user_delete` over the streams of the client: each goes from the
forwarder and then from the client's list, and the first failure ends it. -/
def deleteStreams (userId : Int32) (client : Client) (room : Room) :
    List String → Except AppError Unit × Room
  | [] => (.ok (), room)
  | stream :: streams =>
      match room.forwarder.streamDelete stream with
      | .error e => (.error (.internalServerError e), room)
      | .ok forwarder =>
          let room := { room with forwarder := forwarder }
          match client.removeStream stream with
          | .error e => (.error e, room)
          | .ok client => deleteStreams userId client (room.setClient userId client) streams

/-- `Room::user_delete`. -/
def userDelete (room : Room) (userId : Int32) (token : UInt32) (checkToken : Bool) :
    Except AppError Bool × Room :=
  let client := room.clientMap[userId]?
  let room := { room with groupManager := room.groupManager.endUser userId.toUInt32 }
  match client with
  | none => (.ok false, room)
  | some client =>
      if checkToken && ! client.checkToken token then (.ok false, room)
      else
        match deleteStreams userId client room client.getStreams with
        | (.error e, room) => (.error e, room)
        | (.ok (), room) => (.ok true, { room with clientMap := room.clientMap.erase userId })

/-- The loop of `Room::all_user_delete`. -/
def deleteUsers (room : Room) : List Int32 → Except AppError Bool × Room
  | [] => (.ok true, room)
  | userId :: userIds =>
      match room.userDelete userId 0 false with
      | (.error e, room) => (.error e, room)
      | (.ok _, room) => deleteUsers room userIds

/-- `Room::all_user_delete`, where `keys` are the keys of the client map in the order in
which the map lists them. -/
def allUserDelete (room : Room) (keys : List Int32) : Except AppError Bool × Room :=
  room.deleteUsers keys

/-! ### Rejected deletions -/

/-- When a checked deletion is rejected: for an unknown user, and on a wrong token. -/
lemma userDelete_rejected_iff (room : Room) (userId : Int32) (token : UInt32) :
    (room.userDelete userId token true).1 = .ok false ↔
      ∀ client, room.clientMap[userId]? = some client → client.checkToken token = false := by
  rw [userDelete]
  cases hc : room.clientMap[userId]? with
  | none => simp
  | some client =>
      cases htoken : client.checkToken token with
      | false => simp [htoken]
      | true =>
          simp only [Option.some.injEq, forall_eq', htoken, Bool.not_true, Bool.and_false,
            Bool.false_eq_true, if_false, iff_false, reduceCtorEq]
          split <;> simp

/-- A rejected deletion has ended the user in the groups, and done nothing else. -/
lemma userDelete_snd_of_rejected {room : Room} {userId : Int32} {token : UInt32}
    (h : (room.userDelete userId token true).1 = .ok false) :
    (room.userDelete userId token true).2 =
      { room with groupManager := room.groupManager.endUser userId.toUInt32 } := by
  rw [userDelete_rejected_iff] at h
  rw [userDelete]
  cases hc : room.clientMap[userId]? with
  | none => rfl
  | some client => simp [h client hc]

/-- **Rejected deletions and the groups**: a deletion with a checked token leaves the room as
it was whenever it is rejected if and only if it is not rejected, the client being found and
the token its own, or the user has no entry in the groups manager. -/
theorem userDelete_rejected_unchanged_iff (room : Room) (userId : Int32) (token : UInt32) :
    ((room.userDelete userId token true).1 = .ok false →
        (room.userDelete userId token true).2 = room) ↔
      (∃ client, room.clientMap[userId]? = some client ∧ client.checkToken token = true) ∨
        room.groupManager.usersGroup[userId.toUInt32]? = none := by
  by_cases hrej : (room.userDelete userId token true).1 = .ok false
  · have hno : ¬ ∃ client, room.clientMap[userId]? = some client ∧
        client.checkToken token = true := by
      rintro ⟨client, hc, htoken⟩
      rw [(userDelete_rejected_iff room userId token).mp hrej client hc] at htoken
      cases htoken
    rw [userDelete_snd_of_rejected hrej]
    simp only [hrej, forall_const, hno, false_or]
    constructor
    · intro h
      -- the entry of the user is gone afterwards, so it was not there before
      have hgroup := congrArg (fun r : Room => r.groupManager.usersGroup) h
      rw [← hgroup]
      simp [GroupsManager.usersGroup_endUser]
    · intro h
      simp [GroupsManager.endUser, h]
  · refine iff_of_true (fun h => absurd h hrej) (.inl ?_)
    rw [userDelete_rejected_iff] at hrej
    push Not at hrej
    obtain ⟨client, hc, htoken⟩ := hrej
    exact ⟨client, hc, by simpa using htoken⟩

/-- A room with one client, of id 0 and token 7, who is a member of the group of one stream. -/
def occupied : Room :=
  let room := (new (fun _ => 0) 1 "room" false true 4 "" "" "" 15000).enter "client" 0 7
  { room with groupManager := (room.groupManager.joinOrCreate 0 "stream").toOption.getD .new }

/-- An exit request with a wrong token is rejected, and takes the user out of its group. -/
theorem userDelete_rejected_changes :
    ¬ ∀ (room : Room) (userId : Int32) (token : UInt32),
      (room.userDelete userId token true).1 = .ok false →
        (room.userDelete userId token true).2 = room := by
  intro h
  have hroom := h occupied 0 8 (by rw [userDelete_rejected_iff]; decide)
  have husers := congrArg (fun room : Room => room.groupManager.users "stream") hroom
  revert husers
  decide

end Room

end SfuServer
