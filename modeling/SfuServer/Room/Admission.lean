import SfuServer.Room.Settings

/-!
The clients of a room over any sequence of joins and deletions of users.

A join gives away the lowest free id: of all places, of those but the first one in a room that
needs a host, and the first place to a host, who shows the master key.  The requests about
streams may come between.

* `RoomCall`, `roomMachine`: the calls of `Room::join` and `Room::user_delete` that return, and
  the requests about streams;
* `join_cases`, `admission_of_step`: what a call does to the clients;
* `withinCapacity_iff`: all ids lie below the capacity exactly in runs where no host comes into a
  room without places;
* `admissions_safe`: a join takes a free id and leaves the other clients alone, and the first
  place of a room that needs a host is taken by a host.
-/

open Std (ExtTreeMap)

namespace SfuServer

/-- A request about streams, which is neither a join nor an exit. -/
def RoomRequest.OnStreams : RoomRequest → Prop
  | .join .. | .exit _ => False
  | .create _ | .destroy _ | .whip .. | .depart .. | .tick .. => True

instance : ∀ request : RoomRequest, Decidable request.OnStreams
  | .join .. | .exit _ => isFalse id
  | .create _ | .destroy _ | .whip .. | .depart .. | .tick .. => isTrue trivial

/-- A call on a room: `join`, with the random number that is drawn, or `user_delete`; or a
request about streams. -/
inductive RoomCall where
  | join (userName masterKey : String) (token : UInt32)
  | userDelete (userId : Int32) (token : UInt32) (checkToken : Bool)
  | streams (request : RoomRequest)

/-- What a client was admitted with: its name, its id and its token. -/
def Client.credentials (c : Client) : String × Int32 × UInt32 := (c.name, c.id, c.token)

namespace Room

/-- The room after a call, if the call returns: a join can panic. -/
def call (fnv : List UInt8 → UInt32) (room : Room) : RoomCall → Option Room
  | .join userName masterKey token =>
      match room.join fnv userName masterKey token with
      | (.panic, _) => none
      | (_, room) => some room
  | .userDelete userId token checkToken => some (room.userDelete userId token checkToken).2
  | .streams request => if request.OnStreams then some (room.serve fnv request) else none

end Room

/-- The machine of the calls on a room, from its creation on. -/
def roomMachine (fnv : List UInt8 → UInt32) : Machine Room RoomCall where
  init := (history fnv).init
  step := Room.call fnv

namespace Room

variable {fnv : List UInt8 → UInt32} {room room' : Room} {userId : Int32}

/-! ### Joins -/

/-- The id that the host of a room is given. -/
def AsHost (fnv : List UInt8 → UInt32) (room : Room) (masterKey : String) (userId : Int32) :
    Prop :=
  room.needsHost = true ∧ masterKey ≠ "" ∧ room.authMasterKey fnv masterKey = true ∧ userId = 0

/-- The ids that a guest of a room can be given. -/
def AsGuest (room : Room) (masterKey : String) (userId : Int32) : Prop :=
  ¬ (room.needsHost = true ∧ masterKey ≠ "") ∧
    (if room.needsHost then 1 else 0) ≤ userId.toInt ∧ userId.toInt < room.capacity.toNat

/-- An id that is found free is within the places that were searched. -/
lemma bounds_of_firstFree {lo : ℕ} (hcap : room.capacity.toNat < 2 ^ 31)
    (h : room.firstFree lo = some userId) :
    (lo : ℤ) ≤ userId.toInt ∧ userId.toInt < room.capacity.toNat := by
  have hmem := List.mem_of_find?_eq_some h
  obtain ⟨i, hi, rfl⟩ := List.mem_map.mp hmem
  have hi := List.mem_range'_1.mp hi
  have htoInt : (Int32.ofNat i).toInt = i := Int32.toInt_ofNat_of_lt (by omega)
  omega

/-- **The outcomes of a join**: it panics or is rejected, and leaves the room as it was, or the
user is entered under a free id, as the host or as a guest. -/
theorem join_cases (fnv : List UInt8 → UInt32) (room : Room) (userName masterKey : String)
    (token : UInt32) :
    room.join fnv userName masterKey token = (.panic, room) ∨
      room.join fnv userName masterKey token = (.rejected, room) ∨
      ∃ userId, userId ∉ room.clientMap ∧
        (room.AsHost fnv masterKey userId ∨ room.AsGuest masterKey userId) ∧
        room.join fnv userName masterKey token =
          (.joined userId token, room.enter userName userId token) := by
  rw [Room.join]
  split_ifs with hhost hrej hcap
  · exact .inr (.inl rfl)
  · push Not at hrej
    exact .inr (.inr ⟨0, hrej.2, .inl ⟨hhost.1, hhost.2, hrej.1, rfl⟩, rfl⟩)
  · exact .inl rfl
  all_goals
    rename_i hneeds
    cases hfree : room.firstFree _ with
    | none => exact .inr (.inl rfl)
    | some userId =>
        have hbounds := bounds_of_firstFree (not_le.mp hcap) hfree
        refine .inr (.inr ⟨userId, not_mem_of_firstFree hfree, .inr ⟨hhost, ?_⟩, rfl⟩)
        simpa [hneeds] using hbounds

/-! ### What a call does to the clients -/

/-- What a room was created with, as far as joins look at it. -/
structure SameSettings (room room' : Room) : Prop where
  needsHost : room'.needsHost = room.needsHost
  capacity : room'.capacity = room.capacity
  masterKeyHash : room'.masterKeyHash = room.masterKeyHash

lemma SameSettings.refl (room : Room) : room.SameSettings room := ⟨rfl, rfl, rfl⟩

lemma SameSettings.of_settings (h : room'.settings = room.settings) : room.SameSettings room' where
  needsHost := congrArg RoomSettings.needsHost h
  capacity := congrArg RoomSettings.capacity h
  masterKeyHash := congrArg RoomSettings.masterKeyHash h

lemma SameSettings.trans {room₁ room₂ room₃ : Room} (h : room₁.SameSettings room₂)
    (h' : room₂.SameSettings room₃) : room₁.SameSettings room₃ where
  needsHost := h'.needsHost.trans h.needsHost
  capacity := h'.capacity.trans h.capacity
  masterKeyHash := h'.masterKeyHash.trans h.masterKeyHash

/-- What the user was admitted with, if it is a client. -/
def admitted (room : Room) (userId : Int32) : Option (String × Int32 × UInt32) :=
  room.clientMap[userId]?.map Client.credentials

lemma isSome_admitted : (room.admitted userId).isSome ↔ userId ∈ room.clientMap := by
  rw [admitted, Option.isSome_map, ExtTreeMap.mem_iff_isSome_getElem?]

lemma admitted_enter (room : Room) (userName : String) (userId : Int32) (token : UInt32)
    (v : Int32) : (room.enter userName userId token).admitted v =
      if v = userId then some (userName, userId, token) else room.admitted v := by
  by_cases hv : v = userId
  · simp [admitted, enter, hv, Client.credentials, Client.new]
  · simp [admitted, enter, hv, ExtTreeMap.getElem?_insert, Ne.symm hv]

/-- A change of a client's list of streams is no change of its admission. -/
lemma admitted_setClient (room : Room) {client client' : Client}
    (hc : room.clientMap[userId]? = some client)
    (hcred : client'.credentials = client.credentials) (v : Int32) :
    (room.setClient userId client').admitted v = room.admitted v := by
  by_cases hv : v = userId
  · simp [admitted, setClient, hv, hc, hcred]
  · simp [admitted, setClient, ExtTreeMap.getElem?_insert, Ne.symm hv]

lemma credentials_addStream {client client' : Client} {stream : String}
    (h : client.addStream stream = .ok client') : client'.credentials = client.credentials := by
  rw [Client.addStream] at h
  split_ifs at h
  cases h
  rfl

lemma credentials_removeStream {client client' : Client} {stream : String}
    (h : client.removeStream stream = .ok client') :
    client'.credentials = client.credentials := by
  rw [Client.removeStream] at h
  split_ifs at h
  split at h
  · cases h
    rfl
  · cases h

/-- What the loop over the streams of a user keeps: the settings, the other clients, and what
the user was admitted with. -/
structure UserKept (userId : Int32) (room room' : Room) : Prop where
  settings : room.SameSettings room'
  others : ∀ v ≠ userId, room'.clientMap[v]? = room.clientMap[v]?
  admitted : room'.admitted userId = room.admitted userId

lemma UserKept.trans {room₁ room₂ room₃ : Room} (h : UserKept userId room₁ room₂)
    (h' : UserKept userId room₂ room₃) : UserKept userId room₁ room₃ where
  settings := h.settings.trans h'.settings
  others v hv := (h'.others v hv).trans (h.others v hv)
  admitted := h'.admitted.trans h.admitted

lemma userKept_setClient {client client' : Client} (hc : room.clientMap[userId]? = some client)
    (hcred : client'.credentials = client.credentials) :
    UserKept userId room (room.setClient userId client') where
  settings := ⟨rfl, rfl, rfl⟩
  others v hv := by simp [setClient, ExtTreeMap.getElem?_insert, Ne.symm hv]
  admitted := admitted_setClient room hc hcred userId

lemma userKept_deleteStreams (room : Room) (streams : List String) {client : Client}
    (hc : room.clientMap[userId]? = some client) :
    UserKept userId room (deleteStreams userId client room streams).2 := by
  induction streams generalizing client room with
  | nil => exact ⟨.refl room, fun _ _ => rfl, rfl⟩
  | cons stream streams ih =>
      rw [deleteStreams]
      cases room.forwarder.streamDelete stream with
      | error e => exact ⟨.refl room, fun _ _ => rfl, rfl⟩
      | ok f =>
          dsimp only
          cases hremove : client.removeStream stream with
          | error e => exact ⟨⟨rfl, rfl, rfl⟩, fun _ _ => rfl, rfl⟩
          | ok client' =>
              have hset : UserKept userId room
                  ({ room with forwarder := f }.setClient userId client') :=
                ⟨⟨rfl, rfl, rfl⟩, (userKept_setClient hc (credentials_removeStream hremove)).others,
                  admitted_setClient _ hc (credentials_removeStream hremove) userId⟩
              exact hset.trans (ih _ (by simp [setClient]))

/-- **The clients after a deletion**: the others are as they were, and the user is gone if the
deletion succeeded, and else still admitted. -/
theorem userDelete_clients (room : Room) (userId : Int32) (token : UInt32) (checkToken : Bool) :
    room.SameSettings (room.userDelete userId token checkToken).2 ∧
      (∀ v ≠ userId, (room.userDelete userId token checkToken).2.clientMap[v]? =
        room.clientMap[v]?) ∧
      (room.userDelete userId token checkToken).2.admitted userId =
        if (room.userDelete userId token checkToken).1 = .ok true then none
        else room.admitted userId := by
  rw [userDelete]
  cases hc : room.clientMap[userId]? with
  | none => exact ⟨⟨rfl, rfl, rfl⟩, fun _ _ => rfl, by simp [admitted, hc]⟩
  | some client =>
      by_cases hcheck : (checkToken && !client.checkToken token) = true
      · simp only [hcheck, if_true]
        exact ⟨⟨rfl, rfl, rfl⟩, fun _ _ => trivial, by simp [admitted]⟩
      · simp only [hcheck, Bool.false_eq_true, if_false]
        have hkept := userKept_deleteStreams { room with
          groupManager := room.groupManager.endUser userId.toUInt32 } client.getStreams hc
        split
        · rename_i e room' hroom'
          rw [hroom'] at hkept
          exact ⟨⟨hkept.settings.needsHost, hkept.settings.capacity,
            hkept.settings.masterKeyHash⟩, hkept.others, by simpa [admitted] using hkept.admitted⟩
        · rename_i room' hroom'
          rw [hroom'] at hkept
          refine ⟨⟨hkept.settings.needsHost, hkept.settings.capacity,
            hkept.settings.masterKeyHash⟩, fun v hv => ?_, by simp [admitted]⟩
          simpa [ExtTreeMap.getElem?_erase, Ne.symm hv] using hkept.others v hv

/-- A request about streams admits nobody and sends nobody away. -/
lemma serve_clients (fnv : List UInt8 → UInt32) (room : Room) {request : RoomRequest}
    (h : request.OnStreams) :
    room.SameSettings (room.serve fnv request) ∧
      ∀ v, (room.serve fnv request).admitted v = room.admitted v := by
  refine ⟨.of_settings (room.settings_serve request), ?_⟩
  cases request with
  | join request token => exact h.elim
  | exit request => exact h.elim
  | create request =>
      rw [serve, create]
      cases hauth : authUser fnv room request.sharedKey request.userId request.token with
      | error response => exact fun _ => rfl
      | ok client =>
          have hc := ((authUser_eq_ok_iff fnv).mp hauth).2.1
          dsimp only
          cases room.forwarder.streamCreate request.stream with
          | error e => exact fun _ => rfl
          | ok f =>
              dsimp only
              cases hadd : client.addStream request.stream with
              | error e => exact fun _ => rfl
              | ok client' =>
                  exact admitted_setClient { room with forwarder := f } hc
                    (credentials_addStream hadd)
  | destroy request =>
      rw [serve, destroy]
      cases hauth : authUser fnv room request.sharedKey request.userId request.token with
      | error response => exact fun _ => rfl
      | ok client =>
          have hc := ((authUser_eq_ok_iff fnv).mp hauth).2.1
          dsimp only
          cases room.forwarder.streamDelete request.stream with
          | error e => exact fun _ => rfl
          | ok f =>
              dsimp only
              cases hremove : client.removeStream request.stream with
              | error e => exact fun _ => rfl
              | ok client' =>
                  exact admitted_setClient { room with forwarder := f } hc
                    (credentials_removeStream hremove)
  | whip request negotiated =>
      rw [serve, whip]
      cases hauth : authUser fnv room request.sharedKey request.userId request.token with
      | error response => exact fun _ => rfl
      | ok client =>
          have hc := ((authUser_eq_ok_iff fnv).mp hauth).2.1
          dsimp only
          cases room.forwarder.publish request.stream negotiated with
          | mk result f =>
              cases result with
              | error e => exact fun _ => rfl
              | ok peer =>
                  dsimp only
                  cases hadd : client.addStream request.stream with
                  | error e => exact fun _ => rfl
                  | ok client' =>
                      exact admitted_setClient { room with forwarder := f } hc
                        (credentials_addStream hadd)
  | depart forward peer now => exact fun _ => rfl
  | tick scan reap => exact fun _ => rfl

/-- What a call does to the clients: it enters one, deletes at most the one it is about, or
leaves all of them admitted as they were. -/
inductive Admission (fnv : List UInt8 → UInt32) (room : Room) : RoomCall → Room → Prop
  | entered {userName masterKey : String} {token : UInt32} {userId : Int32}
      (free : userId ∉ room.clientMap)
      (place : room.AsHost fnv masterKey userId ∨ room.AsGuest masterKey userId)
      (result : (room.join fnv userName masterKey token).1 = .joined userId token) :
      Admission fnv room (.join userName masterKey token) (room.enter userName userId token)
  | deleted {userId : Int32} {token : UInt32} {checkToken : Bool} {room' : Room}
      (settings : room.SameSettings room')
      (others : ∀ v ≠ userId, room'.clientMap[v]? = room.clientMap[v]?)
      (user : room'.admitted userId = none ∨ room'.admitted userId = room.admitted userId) :
      Admission fnv room (.userDelete userId token checkToken) room'
  | kept {call : RoomCall} {room' : Room} (settings : room.SameSettings room')
      (deletes : ∀ userId token checkToken, call ≠ .userDelete userId token checkToken)
      (result : ∀ userName masterKey token, call = .join userName masterKey token →
        room' = room ∧ (room.join fnv userName masterKey token).1 = .rejected)
      (clients : ∀ v, room'.admitted v = room.admitted v) : Admission fnv room call room'

lemma admission_of_call {call : RoomCall} (h : room.call fnv call = some room') :
    Admission fnv room call room' := by
  cases call with
  | join userName masterKey token =>
      rw [Room.call] at h
      rcases join_cases fnv room userName masterKey token with hjoin | hjoin | ⟨userId, hfree,
        hplace, hjoin⟩
      · simp [hjoin] at h
      · simp only [hjoin, Option.some.injEq] at h
        subst h
        refine .kept (.refl _) (by simp) ?_ (fun _ => rfl)
        rintro _ _ _ ⟨⟩
        exact ⟨rfl, by rw [hjoin]⟩
      · simp only [hjoin, Option.some.injEq] at h
        subst h
        exact .entered hfree hplace (by rw [hjoin])
  | userDelete userId token checkToken =>
      rw [Room.call, Option.some.injEq] at h
      subst h
      obtain ⟨hsettings, hothers, huser⟩ := userDelete_clients room userId token checkToken
      refine .deleted hsettings hothers ?_
      rw [huser]
      split_ifs
      · exact .inl rfl
      · exact .inr rfl
  | streams request =>
      simp only [Room.call, Option.ite_none_right_eq_some, Option.some.injEq] at h
      obtain ⟨hstreams, rfl⟩ := h
      obtain ⟨hsettings, hclients⟩ := serve_clients fnv room hstreams
      exact .kept hsettings (by simp) (by simp) hclients

/-! ### Capacity -/

/-- Every id is one of the places of the room, so there are no more clients than places. -/
structure WithinCapacity (room : Room) : Prop where
  ids : ∀ v : Int32, v ∈ room.clientMap → 0 ≤ v.toInt ∧ v.toInt < room.capacity.toNat
  size : room.clientMap.size ≤ room.capacity.toNat

/-- A call that does not bring a host into a room without places. -/
def Seated (fnv : List UInt8 → UInt32) (room : Room) : RoomCall → Prop
  | .join _ masterKey _ =>
      ¬ (room.needsHost = true ∧ masterKey ≠ "" ∧ room.authMasterKey fnv masterKey = true ∧
        room.capacity = 0)
  | .userDelete .. | .streams _ => True

instance (room : Room) (call : RoomCall) : Decidable (room.Seated fnv call) :=
  match call with
  | .join .. => inferInstanceAs (Decidable (¬ _))
  | .userDelete .. | .streams _ => isTrue trivial

/-- Different ids below a bound are no more than the bound. -/
lemma size_le_of_forall_lt {m : ExtTreeMap Int32 Client} {n : ℕ}
    (h : ∀ v : Int32, v ∈ m → 0 ≤ v.toInt ∧ v.toInt < n) : m.size ≤ n := by
  have hinj : (m.keys.map fun v => v.toInt.toNat).Nodup := by
    refine m.nodup_keys.map_on fun v hv w hw heq => Int32.toInt_inj.mp ?_
    have := h v (ExtTreeMap.mem_keys.mp hv)
    have := h w (ExtTreeMap.mem_keys.mp hw)
    omega
  have hsub : (m.keys.map fun v => v.toInt.toNat).toFinset ⊆ Finset.range n := by
    intro i hi
    obtain ⟨v, hv, rfl⟩ := List.mem_map.mp (List.mem_toFinset.mp hi)
    have := h v (ExtTreeMap.mem_keys.mp hv)
    exact Finset.mem_range.mpr (by omega)
  calc m.size = (m.keys.map fun v => v.toInt.toNat).toFinset.card := by
        rw [List.toFinset_card_of_nodup hinj, List.length_map, ExtTreeMap.length_keys]
    _ ≤ n := by simpa using Finset.card_le_card hsub

lemma withinCapacity_iff_ids : room.WithinCapacity ↔
    ∀ v : Int32, v ∈ room.clientMap → 0 ≤ v.toInt ∧ v.toInt < room.capacity.toNat :=
  ⟨WithinCapacity.ids, fun h => ⟨h, size_le_of_forall_lt h⟩⟩

/-- Who is admitted is a client. -/
lemma mem_clientMap_of_admitted_eq {v : Int32} (h : room'.admitted v = room.admitted v) :
    v ∈ room'.clientMap ↔ v ∈ room.clientMap := by
  rw [← isSome_admitted, h, isSome_admitted]

/-- A call keeps the ids below the capacity exactly if it brings no host into a room without
places. -/
lemma withinCapacity_call_iff {call : RoomCall} (hroom : room.WithinCapacity)
    (h : room.call fnv call = some room') : room'.WithinCapacity ↔ room.Seated fnv call := by
  rw [withinCapacity_iff_ids] at hroom ⊢
  cases admission_of_call h with
  | @entered userName masterKey token userId hfree hplace _ =>
      have hmem : ∀ v, v ∈ (room.enter userName userId token).clientMap ↔
          v = userId ∨ v ∈ room.clientMap := by
        intro v
        simp [Room.enter, @eq_comm _ v]
      have hids : (∀ v : Int32, v ∈ (room.enter userName userId token).clientMap →
          0 ≤ v.toInt ∧ v.toInt < (room.enter userName userId token).capacity.toNat) ↔
            0 ≤ userId.toInt ∧ userId.toInt < room.capacity.toNat := by
        simp only [hmem]
        exact ⟨fun h => h userId (.inl rfl), fun h v hv => hv.elim (fun hv => hv ▸ h) (hroom v)⟩
      rw [hids]
      rcases hplace with ⟨hneeds, hkey, hauth, rfl⟩ | ⟨hguest, hlo, hhi⟩
      · constructor
        · rintro ⟨-, hlt⟩ ⟨-, -, -, hcap⟩
          simp [hcap] at hlt
        · intro hseated
          have hcap : room.capacity ≠ 0 := fun hcap => hseated ⟨hneeds, hkey, hauth, hcap⟩
          have hpos : room.capacity.toNat ≠ 0 := fun h => hcap (UInt32.toNat_inj.mp h)
          have hzero : (0 : Int32).toInt = 0 := rfl
          omega
      · refine iff_of_true ⟨?_, hhi⟩ fun hhost => hguest ⟨hhost.1, hhost.2.1⟩
        split_ifs at hlo <;> omega
  | @deleted userId token checkToken _ hsettings hothers huser =>
      refine iff_of_true (fun v hv => ?_) trivial
      rw [hsettings.capacity]
      refine hroom v ?_
      by_cases hvu : v = userId
      · subst hvu
        rw [← isSome_admitted] at hv ⊢
        rcases huser with huser | huser
        · simp [huser] at hv
        · rwa [← huser]
      · rwa [ExtTreeMap.mem_iff_isSome_getElem?, ← hothers v hvu,
          ← ExtTreeMap.mem_iff_isSome_getElem?]
  | kept hsettings _ hresult hclients =>
      have hkept : ∀ v : Int32, v ∈ room'.clientMap →
          0 ≤ v.toInt ∧ v.toInt < room'.capacity.toNat := by
        intro v hv
        rw [hsettings.capacity]
        exact hroom v ((mem_clientMap_of_admitted_eq (hclients v)).mp hv)
      refine iff_of_true hkept ?_
      cases call with
      | userDelete => trivial
      | streams => trivial
      | join userName masterKey token =>
          -- a host who is rejected found its place taken, so the room has places
          rintro ⟨hneeds, hkey, hauth, hcap⟩
          obtain ⟨-, hrej⟩ := hresult userName masterKey token rfl
          have hzero : 0 ∈ room.clientMap := by
            by_contra hfree
            simp [Room.join, hneeds, hkey, hauth, hfree] at hrej
          have := hroom 0 hzero
          simp [hcap] at this

end Room

/-- A new room has no clients. -/
lemma withinCapacity_of_init {fnv : List UInt8 → UInt32} {room : Room}
    (h : (roomMachine fnv).init room) : room.WithinCapacity := by
  obtain ⟨id, name, needsHost, isPublic, capacity, sharedKey, masterKey, description, timeout,
    rfl⟩ := h
  exact Room.withinCapacity_iff_ids.mpr (by simp [Room.new])

/-- **Capacity**: in a run of calls on a room, all ids lie below the capacity, and there are no
more clients than that, in every state that is passed through, if and only if no host comes into
a room without places. -/
theorem withinCapacity_iff (fnv : List UInt8 → UInt32) {room : Room} {calls : List RoomCall}
    (h0 : (roomMachine fnv).init room) :
    (roomMachine fnv).Always Room.WithinCapacity room calls ↔
      (roomMachine fnv).Guarded (Room.Seated fnv) room calls :=
  have hroom := withinCapacity_of_init h0
  Machine.always_iff_guarded (I := Room.WithinCapacity)
    (fun _ _ _ hs h => ⟨Room.withinCapacity_call_iff hs h,
      (Room.withinCapacity_call_iff hs h).mpr⟩) hroom hroom

/-- A new room that needs a host and has places for two. -/
def hostedRoom : Room := Room.new fnv1a 1 "room" true true 2 "key" "master" "" 15000

lemma init_hostedRoom : (roomMachine fnv1a).init hostedRoom :=
  ⟨1, "room", true, true, 2, "key", "master", "", 15000, rfl⟩

/-- The host and a guest join, a second guest is rejected, and the host leaves. -/
def hostedCalls : List RoomCall :=
  [.join "host" "master" 7, .join "guest" "" 8, .join "guest" "" 9, .userDelete 0 7 true]

theorem withinCapacity_hostedRoom :
    (roomMachine fnv1a).Always Room.WithinCapacity hostedRoom hostedCalls :=
  (withinCapacity_iff fnv1a init_hostedRoom).mpr (by decide)

/-- A host joins a room that was created without places. -/
theorem not_withinCapacity_host :
    ¬ ∀ (fnv : List UInt8 → UInt32) (room : Room) (calls : List RoomCall),
      (roomMachine fnv).init room → (roomMachine fnv).Always Room.WithinCapacity room calls := by
  intro h
  let room := Room.new fnv1a 1 "room" true true 0 "key" "master" "" 15000
  have hend := (h fnv1a room [.join "host" "master" 7]
    ⟨1, "room", true, true, 0, "key", "master", "", 15000, rfl⟩).of_exec rfl
  have hsize := hend.size
  revert hsize
  decide

/-! ### Identities and the place of the host -/

namespace Room

variable {fnv : List UInt8 → UInt32} {room room' : Room} {userId : Int32}

/-- What a call leaves of the other clients: a join that succeeds takes an id that was free, under
which the new client is found with its token, and changes no other client; without the master
key it does not take the place of the host.  A join that is rejected changes nothing.  A deletion
changes no other client, and a request about streams admits nobody and sends nobody away. -/
def LeavesOthers (fnv : List UInt8 → UInt32) (room : Room) : RoomCall → Room → Prop
  | .join userName masterKey token, room' =>
      (∀ userId token', (room.join fnv userName masterKey token).1 = .joined userId token' →
        userId ∉ room.clientMap ∧
        room'.clientMap[userId]? = some (Client.new userId token' userName) ∧
        (∀ v ≠ userId, room'.clientMap[v]? = room.clientMap[v]?) ∧
        (room.needsHost = true → masterKey = "" ∨ room.authMasterKey fnv masterKey = false →
          userId ≠ 0)) ∧
      ((room.join fnv userName masterKey token).1 = .rejected → room' = room)
  | .userDelete userId _ _, room' => ∀ v ≠ userId, room'.clientMap[v]? = room.clientMap[v]?
  | .streams _, room' => ∀ v, room'.admitted v = room.admitted v

/-- Every client has the id that it is found under. -/
def OwnIds (room : Room) : Prop :=
  ∀ (v : Int32) (client : Client), room.clientMap[v]? = some client → client.id = v

/-- The client with id 0 was admitted by one of the calls, a join with a master key that was
checked, and has been a client since. -/
def HostAdmitted (fnv : List UInt8 → UInt32) (room : Room) (calls : List RoomCall) : Prop :=
  ∃ before userName masterKey token after r,
    calls = before ++ .join userName masterKey token :: after ∧
    (roomMachine fnv).exec room before = some r ∧
    (r.join fnv userName masterKey token).1 = .joined 0 token ∧
    masterKey ≠ "" ∧ r.authMasterKey fnv masterKey = true ∧
    (roomMachine fnv).Always (fun u => u.admitted 0 = some (userName, 0, token))
      (r.enter userName 0 token) after

/-- A guest of a room that needs a host does not get the place of the host. -/
lemma AsGuest.ne_zero {masterKey : String} (h : room.AsGuest masterKey userId)
    (hneeds : room.needsHost = true) : userId ≠ 0 := by
  rintro rfl
  have hlo := h.2.1
  have hzero : (0 : Int32).toInt = 0 := rfl
  simp [hneeds, hzero] at hlo

/-- A call leaves the other clients alone. -/
lemma leavesOthers_of_call {call : RoomCall} (h : room.call fnv call = some room') :
    room.LeavesOthers fnv call room' := by
  cases admission_of_call h with
  | @entered userName masterKey token userId hfree hplace hresult =>
      refine ⟨fun v token' hv => ?_, fun hrejected => by rw [hresult] at hrejected; cases hrejected⟩
      rw [hresult, JoinResult.joined.injEq] at hv
      obtain ⟨rfl, rfl⟩ := hv
      refine ⟨hfree, by simp [enter], fun v hv => ?_, fun hneeds hkey => ?_⟩
      · simp [enter, ExtTreeMap.getElem?_insert, Ne.symm hv]
      · rcases hplace with ⟨-, hne, hauth, -⟩ | hguest
        · rcases hkey with hkey | hkey
          · exact absurd hkey hne
          · rw [hauth] at hkey
            cases hkey
        · exact hguest.ne_zero hneeds
  | deleted _ hothers _ => exact hothers
  | kept _ hdeletes hresult hclients =>
      cases call with
      | join userName masterKey token =>
          obtain ⟨hsame, hrejected⟩ := hresult userName masterKey token rfl
          refine ⟨fun v token' hv => ?_, fun _ => hsame⟩
          rw [hrejected] at hv
          cases hv
      | userDelete userId token checkToken => exact absurd rfl (hdeletes userId token checkToken)
      | streams request => exact hclients

/-- Ids are own ids exactly if they are recorded so at the admission. -/
lemma ownIds_iff : room.OwnIds ↔
    ∀ v userName u token, room.admitted v = some (userName, u, token) → u = v := by
  constructor
  · intro h v userName u token hv
    obtain ⟨client, hc, hcred⟩ := Option.map_eq_some_iff.mp hv
    have hid : client.id = u := (Prod.ext_iff.mp (Prod.ext_iff.mp hcred).2).1
    rw [← hid]
    exact h v client hc
  · intro h v client hc
    exact h v client.name client.id client.token (by rw [admitted, hc]; rfl)

lemma ownIds_call {call : RoomCall} (hroom : room.OwnIds) (h : room.call fnv call = some room') :
    room'.OwnIds := by
  rw [ownIds_iff] at hroom ⊢
  intro v userName u token hv
  cases admission_of_call h with
  | entered _ _ _ =>
      rw [admitted_enter] at hv
      split_ifs at hv with hvu
      · cases hv
        exact hvu.symm
      · exact hroom v userName u token hv
  | @deleted userId _ _ _ _ hothers huser =>
      refine hroom v userName u token ?_
      by_cases hvu : v = userId
      · subst hvu
        rcases huser with huser | huser
        · rw [huser] at hv
          cases hv
        · rwa [← huser]
      · rwa [admitted, ← hothers v hvu]
  | kept _ _ _ hclients => exact hroom v userName u token (hclients v ▸ hv)

/-- The settings of a room do not change. -/
lemma sameSettings_of_call {call : RoomCall} (h : room.call fnv call = some room') :
    room.SameSettings room' := by
  cases admission_of_call h with
  | entered _ _ _ => exact ⟨rfl, rfl, rfl⟩
  | deleted hsettings _ _ => exact hsettings
  | kept hsettings _ _ _ => exact hsettings

/-- The client with id 0 after a call: it is a host who was entered by it, or was there before. -/
lemma host_of_call {call : RoomCall} (h : room.call fnv call = some room')
    (hneeds : room.needsHost = true) (hmem : 0 ∈ room'.clientMap) :
    (∃ userName masterKey token, call = .join userName masterKey token ∧
      room' = room.enter userName 0 token ∧
      (room.join fnv userName masterKey token).1 = .joined 0 token ∧ masterKey ≠ "" ∧
      room.authMasterKey fnv masterKey = true) ∨
    room'.admitted 0 = room.admitted 0 := by
  cases admission_of_call h with
  | @entered userName masterKey token userId hfree hplace hresult =>
      rcases hplace with ⟨-, hkey, hauth, rfl⟩ | hguest
      · exact .inl ⟨userName, masterKey, token, rfl, rfl, hresult, hkey, hauth⟩
      · refine .inr ?_
        rw [admitted_enter, if_neg (hguest.ne_zero hneeds).symm]
  | @deleted userId _ _ _ _ hothers huser =>
      refine .inr ?_
      by_cases hu : (0 : Int32) = userId
      · subst hu
        rcases huser with huser | huser
        · rw [← isSome_admitted, huser] at hmem
          cases hmem
        · exact huser
      · rw [admitted, hothers 0 hu, admitted]
  | kept _ _ _ hclients => exact .inr (hclients 0)

/-- The settings of a room at the end of a run are those at its beginning. -/
lemma sameSettings_of_exec {calls : List RoomCall}
    (h : (roomMachine fnv).exec room calls = some room') : room.SameSettings room' :=
  Machine.invariant_exec (M := roomMachine fnv) (I := room.SameSettings)
    (fun _ _ _ hs h => hs.trans (sameSettings_of_call h)) (.refl room) h

/-- The room after a join that succeeds. -/
lemma call_join_of_joined {userName masterKey : String} {token token' : UInt32}
    (h : (room.join fnv userName masterKey token).1 = .joined userId token') :
    room.call fnv (.join userName masterKey token) = some (room.enter userName userId token) := by
  rcases join_cases fnv room userName masterKey token with hjoin | hjoin | ⟨v, -, -, hjoin⟩
  · simp [hjoin] at h
  · simp [hjoin] at h
  · simp only [hjoin, JoinResult.joined.injEq] at h
    simp [call, hjoin, h.1]

/-- The host of a room was admitted as such. -/
lemma hostAdmitted_of_exec {calls : List RoomCall} (h0 : 0 ∉ room.clientMap)
    (h : (roomMachine fnv).exec room calls = some room') (hneeds : room.needsHost = true)
    (hmem : 0 ∈ room'.clientMap) : HostAdmitted fnv room calls := by
  induction calls using List.reverseRecOn generalizing room' with
  | nil =>
      rw [Machine.exec_nil, Option.some.injEq] at h
      exact absurd (h ▸ hmem) h0
  | append_singleton calls call ih =>
      rw [Machine.exec_append] at h
      obtain ⟨r, hr, hcall⟩ := Option.bind_eq_some_iff.mp h
      obtain ⟨r', hstep, hr'⟩ := Option.bind_eq_some_iff.mp hcall
      rw [Machine.exec_nil, Option.some.injEq] at hr'
      subst hr'
      have hr_needs : r.needsHost = true := (sameSettings_of_exec hr).needsHost.trans hneeds
      rcases host_of_call hstep hr_needs hmem with
        ⟨userName, masterKey, token, rfl, rfl, hjoin, hkey, hauth⟩ | hkept
      · -- the last call admitted the host
        refine ⟨calls, userName, masterKey, token, [], r, rfl, hr, hjoin, hkey, hauth, ?_, trivial⟩
        simp [admitted_enter]
      · -- the host was there before the last call
        obtain ⟨before, userName, masterKey, token, after, r₀, rfl, hr₀, hjoin, hkey, hauth,
          halways⟩ := ih hr ((mem_clientMap_of_admitted_eq hkept).mp hmem)
        refine ⟨before, userName, masterKey, token, after ++ [call], r₀, by simp, hr₀, hjoin, hkey,
          hauth, halways.1, ?_⟩
        refine Machine.along_append.mpr ⟨halways.2, fun u hu v hv => ⟨?_, trivial⟩⟩
        have hexec := Machine.exec_trans hr₀ (Machine.exec_step (M := roomMachine fnv)
          (a := .join userName masterKey token) (call_join_of_joined hjoin) hu)
        obtain rfl := Option.some.inj (hexec.symm.trans hr)
        obtain rfl := Option.some.inj (hstep.symm.trans hv)
        exact hkept.trans (halways.of_exec hu)

end Room

/-- **Identities and the place of the host**: in every run of calls on a room, a join that succeeds
takes a free id, with the token that it returns, and leaves the other clients alone, one that is
rejected leaves the room as it is, all clients have the id that they are found under, and in a room
that needs a host the client with id 0 was admitted by a join with a master key that was checked. -/
theorem admissions_safe (fnv : List UInt8 → UInt32) {room room' : Room} {calls : List RoomCall}
    (h0 : (roomMachine fnv).init room) (h : (roomMachine fnv).exec room calls = some room') :
    (roomMachine fnv).Along (Room.LeavesOthers fnv) room calls ∧ room'.OwnIds ∧
      (room'.needsHost = true → 0 ∈ room'.clientMap → room.HostAdmitted fnv calls) := by
  have hempty : ∀ v : Int32, v ∉ room.clientMap := by
    obtain ⟨id, name, needsHost, isPublic, capacity, sharedKey, masterKey, description, timeout,
      rfl⟩ := h0
    simp [Room.new]
  have hown : room.OwnIds := fun v client hc =>
    absurd (ExtTreeMap.mem_iff_isSome_getElem?.mpr (by rw [hc]; rfl)) (hempty v)
  refine ⟨?_, ?_, fun hneeds hmem => ?_⟩
  · exact Machine.along_of_invariant (I := fun _ => True)
      (fun _ _ _ _ hcall => ⟨trivial, Room.leavesOthers_of_call hcall⟩) trivial calls
  · exact Machine.invariant_exec (M := roomMachine fnv)
      (fun _ _ _ hs hcall => Room.ownIds_call hs hcall) hown h
  · exact Room.hostAdmitted_of_exec (hempty 0) h
      ((Room.sameSettings_of_exec h).needsHost.symm.trans hneeds) hmem

/-- The host and the guest of the room. -/
theorem admissions_hostedRoom :
    (roomMachine fnv1a).Along (Room.LeavesOthers fnv1a) hostedRoom (hostedCalls.take 3) ∧
      ∃ room, (roomMachine fnv1a).exec hostedRoom (hostedCalls.take 3) = some room ∧
        room.OwnIds ∧ hostedRoom.HostAdmitted fnv1a (hostedCalls.take 3) := by
  have hend : ((roomMachine fnv1a).exec hostedRoom (hostedCalls.take 3)).any
      (fun room => decide (room.needsHost = true ∧ 0 ∈ room.clientMap)) = true := by decide
  obtain ⟨room, h, hroom⟩ := (Option.any_eq_true _ _).mp hend
  obtain ⟨hneeds, hmem⟩ := of_decide_eq_true hroom
  obtain ⟨hsafe, hown, hhost⟩ := admissions_safe fnv1a init_hostedRoom h
  exact ⟨hsafe, room, h, hown, hhost hneeds hmem⟩

end SfuServer
