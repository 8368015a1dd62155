import SfuServer.Lib.Fnv
import SfuServer.Lib.Utf8
import SfuServer.Room.Admission

/-!
The keys of a room: `Room::auth_shared_key` and `Room::auth_master_key` of `src/room.rs`, over
`hash_from_string` of `libs/utils/src/unique.rs`.

A room does not keep its keys, but a digest of 32 bits of each, which it is created with and which
nothing changes (`settings_undergo`).  So what passes for a key is what has its digest, and there
are strings that share one.

* `roomLife`: the machine of all that can happen to a room from its creation on;
* `KeysSound`: the keys of a room are checked by their digests, strings next to a key do not pass,
  and without the digest nobody joins, exits, is the host or deletes the room;
* `keysSound_always`: it holds in every state of every run;
* `not_keys_exact`: the keys are not checked exactly.
-/

namespace SfuServer

/-! ### The life of a room -/

/-- What can happen to a room: a request; a request to delete it that gives up half way, where
`keys` are the keys of the client map in their order; and a turn of the tasks that have its
forwarder and its groups at hand, after which these may be anything. -/
inductive RoomEvent where
  | request (request : RoomRequest)
  | deleteUsers (keys : List Int32)
  | tasks (forwarder : Forwarder) (groupManager : GroupsManager)

/-- The room after an event. -/
def Room.undergo (fnv : List UInt8 → UInt32) (room : Room) : RoomEvent → Room
  | .request request => room.serve fnv request
  | .deleteUsers keys => (room.allUserDelete keys).2
  | .tasks forwarder groupManager =>
      { room with forwarder := forwarder, groupManager := groupManager }

/-- The machine of all that can happen to a room, from its creation on. -/
def roomLife (fnv : List UInt8 → UInt32) : Machine Room RoomEvent where
  init := (history fnv).init
  step room event := some (room.undergo fnv event)

lemma Room.settings_undergo (fnv : List UInt8 → UInt32) (room : Room) (event : RoomEvent) :
    (room.undergo fnv event).settings = room.settings := by
  cases event with
  | request request => exact room.settings_serve request
  | deleteUsers keys => exact room.settings_deleteUsers keys
  | tasks forwarder groupManager => rfl

/-! ### The digests -/

/-- The digest of a key. -/
def digest (key : String) : UInt32 := hashFromString fnv1a key

/-- The digest is taken in byte by byte, with an end mark. -/
lemma digest_eq (key : String) :
    digest key = (Utf8.bytes key ++ [0xff]).foldl Fnv.step 0x811c9dc5 := rfl

/-- **Keys next to each other have different digests.** -/
theorem digest_ne_of_neighbours {key key' : String}
    (h : Neighbours (Utf8.bytes key) (Utf8.bytes key')) : digest key ≠ digest key' := by
  rw [digest_eq, digest_eq]
  exact foldl_ne_of_neighbours Fnv.step_left_injective (fun _ _ _ _ _ => Fnv.step_step_inj)
    (h.append [0xff]) _

/-! ### What the keys are worth -/

/-- The keys of a room are checked by their digests: what passes for a key is what has its digest,
which no string next to the key has; and without the digest of the shared key nobody joins or
exits, and without the one of the master key nobody becomes the host or deletes the room. -/
structure KeysSound (sharedKey masterKey : String) (room : Room) : Prop where
  shared_iff : ∀ key, room.authSharedKey fnv1a key = true ↔ digest key = digest sharedKey
  master_iff : ∀ key, room.authMasterKey fnv1a key = true ↔ digest key = digest masterKey
  shared_neighbour : ∀ key, Neighbours (Utf8.bytes key) (Utf8.bytes sharedKey) →
    room.authSharedKey fnv1a key = false
  master_neighbour : ∀ key, Neighbours (Utf8.bytes key) (Utf8.bytes masterKey) →
    room.authMasterKey fnv1a key = false
  join_refused : ∀ request token, digest request.sharedKey ≠ digest sharedKey →
    roomJoin fnv1a room request token =
      (.error ⟨BodyUtil.inviledPassword, .notAcceptable⟩, room)
  exit_refused : ∀ request, digest request.sharedKey ≠ digest sharedKey →
    roomExit fnv1a room request = (.ok ⟨BodyUtil.inviledPassword, .notAcceptable⟩, room)
  host_refused : room.needsHost = true → ∀ request token userToken,
    digest request.masterKey ≠ digest masterKey →
      (roomJoin fnv1a room request token).1 ≠ .ok (.joined 0 userToken)
  delete_refused : ∀ (rooms : Rooms) request keys, rooms[request.id]? = some room →
    digest request.masterKey ≠ digest masterKey →
      deleteRoom fnv1a rooms request keys = (.ok ⟨BodyUtil.rejected, .notAcceptable⟩, rooms)

/-- Nobody becomes the host of a room but by the master key. -/
lemma authMasterKey_of_joined_zero {fnv : List UInt8 → UInt32} {room : Room}
    {request : JoinRequest} {token userToken : UInt32} (hneeds : room.needsHost = true)
    (h : (roomJoin fnv room request token).1 = .ok (.joined 0 userToken)) :
    room.authMasterKey fnv request.masterKey = true := by
  rw [roomJoin] at h
  split_ifs at h
  rcases Room.join_cases fnv room request.name request.masterKey token with
    hjoin | hjoin | ⟨userId, -, hplace, hjoin⟩
  · simp [hjoin] at h
  · simp [hjoin] at h
  · simp only [hjoin, Except.ok.injEq, JoinResult.joined.injEq] at h
    rcases hplace with ⟨-, -, hauth, -⟩ | hguest
    · exact hauth
    · exact absurd h.1 (hguest.ne_zero hneeds)

/-- A room with the digests of the keys checks the keys by their digests. -/
lemma keysSound_of_digests {sharedKey masterKey : String} {room : Room}
    (hshared : room.sharedKeyHash = digest sharedKey)
    (hmaster : room.masterKeyHash = digest masterKey) : KeysSound sharedKey masterKey room := by
  have hshared : ∀ key, room.authSharedKey fnv1a key = true ↔ digest key = digest sharedKey :=
    fun key => by
      rw [Room.authSharedKey, beq_iff_eq, hshared, eq_comm]
      exact Iff.rfl
  have hmaster : ∀ key, room.authMasterKey fnv1a key = true ↔ digest key = digest masterKey :=
    fun key => by
      rw [Room.authMasterKey, beq_iff_eq, hmaster, eq_comm]
      exact Iff.rfl
  have hno : ∀ key, digest key ≠ digest sharedKey → room.authSharedKey fnv1a key = false :=
    fun key hkey => Bool.eq_false_iff.mpr (mt (hshared key).mp hkey)
  have hnoMaster : ∀ key, digest key ≠ digest masterKey → room.authMasterKey fnv1a key = false :=
    fun key hkey => Bool.eq_false_iff.mpr (mt (hmaster key).mp hkey)
  exact {
    shared_iff := hshared
    master_iff := hmaster
    shared_neighbour := fun key h => hno key (digest_ne_of_neighbours h)
    master_neighbour := fun key h => hnoMaster key (digest_ne_of_neighbours h)
    join_refused := fun request token hkey => by simp [roomJoin, hno _ hkey]
    exit_refused := fun request hkey => by simp [roomExit, hno _ hkey]
    host_refused := fun hneeds request token userToken hkey h =>
      hkey ((hmaster _).mp (authMasterKey_of_joined_zero hneeds h))
    delete_refused := fun rooms request keys hroom hkey => by
      simp [deleteRoom, hroom, hnoMaster _ hkey] }

/-- **The keys are checked by their digests**: in every state of every run of a room, which is
created with any keys, exactly the strings with the digest of a key pass for it, among them none
that differs from the key in one byte or two neighbouring ones, and no other string gives access
to joining, exiting, hosting or deleting the room. -/
theorem keysSound_always (id : Int32) (name : String) (needsHost isPublic : Bool)
    (capacity : UInt32) (sharedKey masterKey description : String) (timeout : ℕ)
    (events : List RoomEvent) :
    (roomLife fnv1a).Always (KeysSound sharedKey masterKey)
      (Room.new fnv1a id name needsHost isPublic capacity sharedKey masterKey description timeout)
      events := by
  refine ⟨keysSound_of_digests rfl rfl, Machine.along_of_invariant
    (I := fun room => room.settings = (Room.new fnv1a id name needsHost isPublic capacity
      sharedKey masterKey description timeout).settings) ?_ rfl events⟩
  intro room event room' hset hstep
  obtain rfl := Option.some.inj hstep
  have hset' := (room.settings_undergo fnv1a event).trans hset
  exact ⟨hset', keysSound_of_digests (congrArg RoomSettings.sharedKeyHash hset')
    (congrArg RoomSettings.masterKeyHash hset')⟩

/-- A room whose keys are words of a dictionary. -/
def wordRoom : Room :=
  Room.new fnv1a 1 "room" true true 4 "costarring" "declinate" "" 15000

/-- Other words pass for the keys: with these one is admitted, as the host, and the room is
deleted. -/
theorem not_keys_exact :
    ¬ (∀ key, wordRoom.authSharedKey fnv1a key = true ↔ key = "costarring") ∧
      ¬ (∀ key, wordRoom.authMasterKey fnv1a key = true ↔ key = "declinate") ∧
      (roomJoin fnv1a wordRoom ⟨"user", "liquid", "macallums"⟩ 7).1 = .ok (.joined 0 7) ∧
      (deleteRoom fnv1a ((∅ : Rooms).insert 1 wordRoom) ⟨1, "macallums"⟩ []).2 = ∅ := by
  have hshared : wordRoom.authSharedKey fnv1a "liquid" = true := by decide
  have hmaster : wordRoom.authMasterKey fnv1a "macallums" = true := by decide
  refine ⟨fun h => absurd ((h _).mp hshared) (by decide),
    fun h => absurd ((h _).mp hmaster) (by decide), by decide, ?_⟩
  ext roomId room
  simp [deleteRoom, hmaster, Room.allUserDelete, Room.deleteUsers]

end SfuServer
