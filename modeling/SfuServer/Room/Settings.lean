import SfuServer.Room.History

/-!
What a room is created with: the fields of `Room` of `src/room.rs` that no handler writes.

The requests to a room change its clients, its forwarder and its groups.

* `RoomSettings`, `Room.settings`: the other fields;
* `settings_roomJoin`, `settings_userDelete`, `settings_serve`: no request changes them;
* `settings_deleteUsers`: nor does a deletion of all users, however far it comes.
-/

namespace SfuServer

/-- What a room is created with, apart from the time limit of its forwarder. -/
structure RoomSettings where
  id : Int32
  name : String
  needsHost : Bool
  isPublic : Bool
  capacity : UInt32
  sharedKeyHash : UInt32
  masterKeyHash : UInt32
  description : String

namespace Room

/-- What the room was created with. -/
def settings (room : Room) : RoomSettings where
  id := room.id
  name := room.name
  needsHost := room.needsHost
  isPublic := room.isPublic
  capacity := room.capacity
  sharedKeyHash := room.sharedKeyHash
  masterKeyHash := room.masterKeyHash
  description := room.description

variable {fnv : List UInt8 → UInt32} (room : Room)

lemma settings_join (userName masterKey : String) (token : UInt32) :
    (room.join fnv userName masterKey token).2.settings = room.settings := by
  rw [join]
  split_ifs
  · rfl
  · rfl
  · rfl
  all_goals split <;> rfl

lemma settings_roomJoin (request : JoinRequest) (token : UInt32) :
    (roomJoin fnv room request token).2.settings = room.settings := by
  have hset := @settings_join fnv room request.name request.masterKey token
  rw [roomJoin]
  split_ifs
  · rfl
  · split
    all_goals
      rename_i hroom
      rwa [hroom] at hset

lemma settings_deleteStreams (userId : Int32) (client : Client) (streams : List String) :
    (deleteStreams userId client room streams).2.settings = room.settings := by
  induction streams generalizing client room with
  | nil => rfl
  | cons stream streams ih =>
      rw [deleteStreams]
      cases room.forwarder.streamDelete stream with
      | error e => rfl
      | ok f =>
          dsimp only
          cases client.removeStream stream with
          | error e => rfl
          | ok client => exact ih _ client

/-- The deletion of a user leaves the settings of the room. -/
lemma settings_userDelete (userId : Int32) (token : UInt32) (checkToken : Bool) :
    (room.userDelete userId token checkToken).2.settings = room.settings := by
  rw [userDelete]
  cases room.clientMap[userId]? with
  | none => rfl
  | some client =>
      dsimp only
      split_ifs
      · rfl
      · have hset := settings_deleteStreams
          { room with groupManager := room.groupManager.endUser userId.toUInt32 } userId client
          client.getStreams
        split
        · rename_i hroom
          rwa [hroom] at hset
        · rename_i hroom
          rwa [hroom] at hset

lemma settings_roomExit (request : ExitRequest) :
    (roomExit fnv room request).2.settings = room.settings := by
  have hset := room.settings_userDelete request.userId request.token true
  rw [roomExit]
  split_ifs
  · rfl
  · split
    all_goals
      rename_i hroom
      rwa [hroom] at hset

lemma settings_deleteUsers (keys : List Int32) :
    (room.deleteUsers keys).2.settings = room.settings := by
  induction keys generalizing room with
  | nil => rfl
  | cons userId keys ih =>
      have hset := room.settings_userDelete userId 0 false
      rw [deleteUsers]
      split
      · rename_i hroom
        rwa [hroom] at hset
      · rename_i r hroom
        rw [hroom] at hset
        exact (ih r).trans hset

/-- **No request changes the settings of a room.** -/
theorem settings_serve (request : RoomRequest) :
    (room.serve fnv request).settings = room.settings := by
  cases request with
  | join request token => exact room.settings_roomJoin request token
  | exit request => exact room.settings_roomExit request
  | create request =>
      rw [serve, create]
      repeat' split
      all_goals rfl
  | destroy request =>
      rw [serve, destroy]
      repeat' split
      all_goals rfl
  | whip request negotiated =>
      rw [serve, whip]
      repeat' split
      all_goals rfl
  | depart forward peer now => rfl
  | tick scan reap => rfl

end Room

end SfuServer
