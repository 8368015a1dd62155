import SfuServer.Route.Table

/-!
What the listings of the rooms say: `room` and `room_specific` of `src/route/room/room.rs`, after
any sequence of requests to the table.

* `room`, `roomSpecific`: the two handlers; the first goes through the table in an order of its
  own;
* `Stands`: a request to create a room stands under an id if the run holds it, and since then no
  room was created under the id and none was deleted there;
* `settings_iff_stands`: the table has a room with the given settings under an id exactly if such a
  request stands there, whatever happened to the users of the room;
* `listings_iff`: the listing has one entry for every standing request for a public room, with its
  words, and a private room is shown to who has its key.
-/

open Std (ExtTreeMap)

namespace SfuServer

/-- The request of `room_specific`. -/
structure SpecificRequest where
  id : Int32
  sharedKey : String

/-- `room`, where `keys` is the order in which the table lists its ids. -/
def room (rooms : Rooms) (keys : List Int32) : List RoomInfoJson :=
  keys.filterMap fun id => rooms[id]?.bind fun room =>
    if room.isPublic then some room.info else none

/-- `room_specific`. -/
def roomSpecific (fnv : List UInt8 → UInt32) (rooms : Rooms) (request : SpecificRequest) :
    Except Response (List RoomInfoJson) :=
  match rooms[request.id]? with
  | none => .error ⟨BodyUtil.roomIdNotfound, .notAcceptable⟩
  | some room =>
      if ! room.authSharedKey fnv request.sharedKey then
        .error ⟨BodyUtil.inviledPassword, .notAcceptable⟩
      else .ok [room.info]

section Runs

variable (fnv : List UInt8 → UInt32) (timeout : ℕ)

/-- A request that ends what stands under an id: a room is created there, or the room is deleted
there and all its users with it. -/
def Ends (id : Int32) (rooms : Rooms) : TableRequest → Prop
  | .create _ roomId => roomId = id
  | .delete request keys =>
      request.id = id ∧ (deleteRoom fnv rooms request keys).1 = .ok ⟨BodyUtil.succeed, .ok⟩
  | .join .. | .exit .. => False

/-- The request to create a room under the id stands after a run from the empty table. -/
def Stands (requests : List TableRequest) (id : Int32) (request : CreateRequest) : Prop :=
  ∃ before after rooms, requests = before ++ .create request id :: after ∧
    (tableMachine fnv timeout).exec ∅ (before ++ [.create request id]) = some rooms ∧
    (tableMachine fnv timeout).Along (fun rooms a _ => ¬ Ends fnv id rooms a) rooms after

variable {fnv timeout}

/-- What a request makes of the settings of the room under an id, when it does not end there. -/
lemma settings_step {rooms rooms' : Rooms} {a : TableRequest} {id : Int32}
    (h : (tableMachine fnv timeout).step rooms a = some rooms') (ha : ¬ Ends fnv id rooms a) :
    rooms'[id]?.map Room.settings = rooms[id]?.map Room.settings := by
  -- a room that is changed in its place
  have hinsert : ∀ (target : Int32) (room room' : Room), rooms[target]? = some room →
      room'.settings = room.settings →
        (rooms.insert target room')[id]?.map Room.settings = rooms[id]?.map Room.settings := by
    intro target room room' hroom hsettings
    by_cases hid : target = id
    · subst hid
      simp [hroom, hsettings]
    · simp [ExtTreeMap.getElem?_insert, hid]
  cases a with
  | create request roomId =>
      obtain rfl := Option.some.inj h
      have hne : ¬ roomId = id := ha
      simp [createRoom, ExtTreeMap.getElem?_insert, hne]
  | join roomId request token =>
      obtain rfl := Option.some.inj h
      rw [joinRoom]
      cases hroom : rooms[roomId]? with
      | none => rfl
      | some room => exact hinsert roomId room _ hroom (room.settings_roomJoin request token)
  | exit roomId request =>
      obtain rfl := Option.some.inj h
      rw [exitRoom, withRoom]
      cases hroom : rooms[roomId]? with
      | none => rfl
      | some room => exact hinsert roomId room _ hroom (room.settings_roomExit request)
  | delete request keys =>
      dsimp only [tableMachine] at h
      split_ifs at h
      obtain rfl := Option.some.inj h
      by_cases hid : request.id = id
      · have hfails : (deleteRoom fnv rooms request keys).1 ≠ .ok ⟨BodyUtil.succeed, .ok⟩ :=
          fun hok => ha ⟨hid, hok⟩
        revert hfails
        rw [deleteRoom]
        cases hroom : rooms[request.id]? with
        | none => exact fun _ => rfl
        | some room =>
            have hdelete := room.settings_deleteUsers keys
            dsimp only
            split_ifs
            · exact fun _ => rfl
            · rw [Room.allUserDelete]
              split
              · rename_i hfail
                rw [hfail] at hdelete
                exact fun _ => hinsert request.id room _ hroom hdelete
              · exact fun hfails => absurd rfl hfails
      · rw [deleteRoom]
        cases hroom : rooms[request.id]? with
        | none => rfl
        | some room =>
            have hdelete := room.settings_deleteUsers keys
            dsimp only
            split_ifs
            · rfl
            · rw [Room.allUserDelete]
              split
              · rename_i hfail
                rw [hfail] at hdelete
                exact hinsert request.id room _ hroom hdelete
              · simp [ExtTreeMap.getElem?_erase, hid]

/-- A request that ends what stands under an id leaves a new room there, or none. -/
lemma settings_of_ends {rooms rooms' : Rooms} {a : TableRequest} {id : Int32}
    (h : (tableMachine fnv timeout).step rooms a = some rooms') (ha : Ends fnv id rooms a) :
    (∃ request, a = .create request id ∧ rooms'[id]? = some (request.room fnv timeout id)) ∨
      (∀ request, a ≠ .create request id) ∧ rooms'[id]? = none := by
  cases a with
  | create request roomId =>
      obtain rfl : roomId = id := ha
      obtain rfl := Option.some.inj h
      exact .inl ⟨request, rfl, by simp [createRoom]⟩
  | join roomId request token => exact ha.elim
  | exit roomId request => exact ha.elim
  | delete request keys =>
      obtain ⟨rfl, hok⟩ := ha
      refine .inr ⟨by simp, ?_⟩
      dsimp only [tableMachine] at h
      split_ifs at h
      obtain rfl := Option.some.inj h
      revert hok
      rw [deleteRoom]
      cases rooms[request.id]? with
      | none => simp [BodyUtil.inviledPassword, BodyUtil.succeed]
      | some room =>
          dsimp only
          split_ifs
          · simp [BodyUtil.rejected, BodyUtil.succeed]
          · split
            · simp
            · simp

/-- A request stands if it was made and nothing has ended it since. -/
lemma exists_stands_iff_since {requests : List TableRequest} {id : Int32}
    {p : CreateRequest → Prop} :
    (∃ request, Stands fnv timeout requests id request ∧ p request) ↔
      (tableMachine fnv timeout).Since (fun _ a => ∃ request, a = .create request id ∧ p request)
        (Ends fnv id) ∅ requests := by
  constructor
  · rintro ⟨request, ⟨before, after, u, rfl, hu, hafter⟩, hp⟩
    rw [Machine.exec_append] at hu
    obtain ⟨t, ht, hu⟩ := Option.bind_eq_some_iff.mp hu
    exact ⟨before, _, after, t, u, rfl, ht, ⟨request, rfl, hp⟩, hu, hafter⟩
  · rintro ⟨before, _, after, t, u, rfl, ht, ⟨request, rfl, hp⟩, hu, hafter⟩
    exact ⟨request, ⟨before, after, u, rfl, Machine.exec_trans ht (Machine.exec_step hu rfl),
      hafter⟩, hp⟩

/-- **The rooms of the table** are those whose requests stand. -/
theorem settings_iff_stands {requests : List TableRequest} {rooms : Rooms}
    (h : (tableMachine fnv timeout).exec ∅ requests = some rooms) (id : Int32) (x : RoomSettings) :
    rooms[id]?.map Room.settings = some x ↔
      ∃ request, Stands fnv timeout requests id request ∧
        x = (request.room fnv timeout id).settings := by
  rw [exists_stands_iff_since]
  refine Machine.since_iff (P := fun rooms : Rooms => rooms[id]?.map Room.settings = some x)
    (fun rooms a rooms' hstep => ?_) (by simp) h
  by_cases hends : Ends fnv id rooms a
  · obtain ⟨request, rfl, hroom⟩ | ⟨hne, hroom⟩ := settings_of_ends hstep hends
    · simp [hroom, hends, eq_comm]
    · simp [hroom, hends, hne]
  · -- a request that does not end what stands is no creation of the room
    have hne : ∀ request, a ≠ .create request id := by
      rintro request rfl
      exact hends rfl
    simp [settings_step hstep hends, hne, hends]

/-- A room of the table, and the request that it was created by. -/
lemma exists_stands {requests : List TableRequest} {rooms : Rooms} {id : Int32} {room : Room}
    (h : (tableMachine fnv timeout).exec ∅ requests = some rooms) (hroom : rooms[id]? = some room) :
    ∃ request, Stands fnv timeout requests id request ∧
      room.settings = (request.room fnv timeout id).settings :=
  (settings_iff_stands h id room.settings).mp (by rw [hroom]; rfl)

/-- The room of a request that stands. -/
lemma Stands.exists_room {requests : List TableRequest} {rooms : Rooms} {id : Int32}
    {request : CreateRequest} (hstands : Stands fnv timeout requests id request)
    (h : (tableMachine fnv timeout).exec ∅ requests = some rooms) :
    ∃ room, rooms[id]? = some room ∧
      room.settings = (request.room fnv timeout id).settings := by
  have hsome := (settings_iff_stands h id _).mpr ⟨request, hstands, rfl⟩
  obtain ⟨room, hroom, hset⟩ := Option.map_eq_some_iff.mp hsome
  exact ⟨room, hroom, hset⟩

/-! ### The listings -/

/-- The words of a room are those of its settings. -/
lemma info_congr {room room' : Room} (h : room.settings = room'.settings) :
    room.info = room'.info := by
  simp only [Room.settings, RoomSettings.mk.injEq] at h
  simp [Room.info, h]

/-- The entries of a listing, in an order of the ids of the table. -/
lemma mem_room {rooms : Rooms} {keys : List Int32} (hkeys : keys.Perm rooms.keys)
    {info : RoomInfoJson} : info ∈ room rooms keys ↔
      ∃ (id : Int32) (r : Room), rooms[id]? = some r ∧ r.isPublic = true ∧ r.info = info := by
  rw [room, List.mem_filterMap]
  constructor
  · rintro ⟨id, -, hinfo⟩
    obtain ⟨r, hr, hinfo⟩ := Option.bind_eq_some_iff.mp hinfo
    split_ifs at hinfo with hpublic
    exact ⟨id, r, hr, hpublic, Option.some.inj hinfo⟩
  · rintro ⟨id, r, hr, hpublic, rfl⟩
    refine ⟨id, ?_, by simp [hr, hpublic]⟩
    rw [hkeys.mem_iff, ExtTreeMap.mem_keys, ExtTreeMap.mem_iff_isSome_getElem?, hr]
    rfl

/-- A listing has one entry for an id. -/
lemma nodup_room {rooms : Rooms} (hkeyed : Keyed rooms) {keys : List Int32} (hkeys : keys.Nodup) :
    ((room rooms keys).map (·.id)).Nodup := by
  rw [room, List.map_filterMap]
  refine hkeys.filterMap fun id id' k hk hk' => ?_
  -- the id of an entry is the key of its room
  have hentry : ∀ {key k : Int32}, k ∈ ((rooms[key]?.bind fun r =>
      if r.isPublic then some r.info else none).map (·.id)) → k = key := by
    intro key k hk
    obtain ⟨info, hinfo, rfl⟩ := Option.map_eq_some_iff.mp hk
    obtain ⟨r, hr, hinfo⟩ := Option.bind_eq_some_iff.mp hinfo
    split_ifs at hinfo
    obtain rfl := Option.some.inj hinfo
    exact hkeyed key r hr
  exact (hentry hk).symm.trans (hentry hk')

/-- Every room of a run is found under its own id. -/
lemma keyed_exec {requests : List TableRequest} {rooms : Rooms}
    (h : (tableMachine fnv timeout).exec ∅ requests = some rooms) : Keyed rooms := by
  intro id r hr
  obtain ⟨request, -, hset⟩ := exists_stands h hr
  exact congrArg RoomSettings.id hset

/-- **The listings of the rooms**: after any run of requests, `room` lists exactly the requests for
public rooms that stand, each id once and with the words of the request, and `room_specific`
shows the room of the request that stands under an id to who gives a key with the hash of
its shared key, be it public or not, and to no one else. -/
theorem listings_iff {requests : List TableRequest} {rooms : Rooms}
    (h : (tableMachine fnv timeout).exec ∅ requests = some rooms) :
    (∀ keys : List Int32, keys.Perm rooms.keys →
      ((room rooms keys).map (·.id)).Nodup ∧
      ∀ info, info ∈ room rooms keys ↔ ∃ id request, Stands fnv timeout requests id request ∧
        request.isPublic = true ∧
        info = ⟨id, request.name, request.capacity, request.description⟩) ∧
    ∀ (request : SpecificRequest),
      (∀ infos, roomSpecific fnv rooms request = .ok infos ↔
        ∃ created, Stands fnv timeout requests request.id created ∧
          hashFromString fnv created.sharedKey = hashFromString fnv request.sharedKey ∧
          infos = [⟨request.id, created.name, created.capacity, created.description⟩]) ∧
      (roomSpecific fnv rooms request = .error ⟨BodyUtil.roomIdNotfound, .notAcceptable⟩ ↔
        ∀ created, ¬ Stands fnv timeout requests request.id created) ∧
      (roomSpecific fnv rooms request = .error ⟨BodyUtil.inviledPassword, .notAcceptable⟩ ↔
        ∃ created, Stands fnv timeout requests request.id created ∧
          hashFromString fnv created.sharedKey ≠ hashFromString fnv request.sharedKey) := by
  refine ⟨fun keys hkeys => ⟨nodup_room (keyed_exec h) (hkeys.nodup_iff.mpr
    ExtTreeMap.nodup_keys), fun info => ?_⟩, fun request => ?_⟩
  · rw [mem_room hkeys]
    constructor
    · rintro ⟨id, r, hr, hpublic, rfl⟩
      obtain ⟨request, hstands, hset⟩ := exists_stands h hr
      exact ⟨id, request, hstands, (congrArg RoomSettings.isPublic hset).symm.trans hpublic,
        info_congr hset⟩
    · rintro ⟨id, request, hstands, hpublic, rfl⟩
      obtain ⟨r, hr, hset⟩ := hstands.exists_room h
      exact ⟨id, r, hr, (congrArg RoomSettings.isPublic hset).trans hpublic, info_congr hset⟩
  · cases hroom : rooms[request.id]? with
    | none =>
        have hnone : ∀ created, ¬ Stands fnv timeout requests request.id created := by
          intro created hstands
          obtain ⟨r, hr, -⟩ := hstands.exists_room h
          rw [hroom] at hr
          cases hr
        have hne : BodyUtil.roomIdNotfound ≠ BodyUtil.inviledPassword := by decide
        simp [roomSpecific, hroom, hnone, hne]
    | some r =>
        obtain ⟨created, hstands, -⟩ := exists_stands h hroom
        -- whatever stands under the id, the room was created with it
        have hset : ∀ {created}, Stands fnv timeout requests request.id created →
            r.settings = (created.room fnv timeout request.id).settings := by
          intro created hstands
          obtain ⟨r', hr', hset⟩ := hstands.exists_room h
          obtain rfl := Option.some.inj (hroom.symm.trans hr')
          exact hset
        have hkey : ∀ {created}, Stands fnv timeout requests request.id created →
            (r.authSharedKey fnv request.sharedKey = true ↔
              hashFromString fnv created.sharedKey = hashFromString fnv request.sharedKey) := by
          intro created hstands
          have hhash : r.sharedKeyHash = hashFromString fnv created.sharedKey :=
            congrArg RoomSettings.sharedKeyHash (hset hstands)
          rw [Room.authSharedKey, hhash, beq_iff_eq]
        have hne : BodyUtil.inviledPassword ≠ BodyUtil.roomIdNotfound := by decide
        refine ⟨fun infos => ?_, iff_of_false ?_ fun hnone => hnone created hstands, ?_⟩
        · constructor
          · intro hok
            rw [roomSpecific, hroom] at hok
            dsimp only at hok
            split_ifs at hok with hauth
            refine ⟨created, hstands, (hkey hstands).mp (by simpa using hauth), ?_⟩
            rw [← Except.ok.inj hok, info_congr (hset hstands)]
            rfl
          · rintro ⟨created, hstands, hauth, rfl⟩
            simp only [roomSpecific, hroom, (hkey hstands).mpr hauth, Bool.not_true,
              Bool.false_eq_true, if_false, info_congr (hset hstands)]
            rfl
        · simp only [roomSpecific, hroom]
          split_ifs
          · simp [hne]
          · simp
        · constructor
          · intro herror
            refine ⟨created, hstands, fun hauth => ?_⟩
            simp [roomSpecific, hroom, (hkey hstands).mpr hauth] at herror
          · rintro ⟨created, hstands, hauth⟩
            have hfalse := (not_congr (hkey hstands)).mpr hauth
            simp [roomSpecific, hroom, hfalse]

/-- A public room and a private one are created, the public one is deleted, and its id is drawn
again. -/
def listedRequests : List TableRequest :=
  [.create smallRequest 1, .create { smallRequest with isPublic := false } 2,
    .delete ⟨1, "master"⟩ [], .create { smallRequest with capacity := 3 } 1]

theorem listings_iff_listed : ∃ rooms,
    (tableMachine fnv1a 15000).exec ∅ listedRequests = some rooms ∧
    (room rooms rooms.keys).map (fun info => (info.id, info.capacity)) = [(1, 3)] ∧
    ∀ info, info ∈ room rooms rooms.keys ↔ ∃ id request,
      Stands fnv1a 15000 listedRequests id request ∧ request.isPublic = true ∧
        info = ⟨id, request.name, request.capacity, request.description⟩ := by
  have hrun : ((tableMachine fnv1a 15000).exec ∅ listedRequests).bind (fun rooms =>
      some ((room rooms rooms.keys).map fun info => (info.id, info.capacity))) =
        some [(1, 3)] := by
    decide
  obtain ⟨rooms, hrooms, hlist⟩ := Option.bind_eq_some_iff.mp hrun
  exact ⟨rooms, hrooms, Option.some.inj hlist,
    ((listings_iff hrooms).1 rooms.keys (List.Perm.refl _)).2⟩

end Runs

end SfuServer
