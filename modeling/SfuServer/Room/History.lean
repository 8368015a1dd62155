import SfuServer.Lib.Machine
import SfuServer.Route.Handlers

/-!
The history of a room: any sequence of requests, departures of publishers and rounds of the
reaper.

A client's list of streams and the forwarder's table are two records of one fact, which
different requests update.  A deletion of the user gives up at the first disagreement.

* `history`: the machine of one room, whose steps are the handlers;
* `Room.Consistent`: the lists are sorted, disjoint, and hold streams of the table only;
* `Room.userDelete_spec`: in a consistent room the deletion of a client goes through, and
  takes the client and its streams out;
* `Room.UsersDeletable`: every client can be deleted, and so can all of them and the room;
* `usersDeletable_of_orderly`: in every run whose requests are orderly, every state passed
  through is `UsersDeletable`.
-/

open Std (ExtTreeMap)

namespace SfuServer

/-- What can happen to a room. -/
inductive RoomRequest where
  | join (request : JoinRequest) (token : UInt32)
  | exit (request : ExitRequest)
  | create (request : StreamRequest)
  | destroy (request : StreamRequest)
  | whip (request : StreamRequest) (negotiated : Except AppError Unit)
  | depart (forward peer : ℕ) (now : ℤ)
  | tick (scan reap : String → ℤ)

namespace Room

variable (fnv : List UInt8 → UInt32)

/-- The room after a request.  A departure is the callback of the publisher's connection,
which is ignored where the slot is not its own. -/
def serve (room : Room) : RoomRequest → Room
  | .join request token => (roomJoin fnv room request token).2
  | .exit request => (roomExit fnv room request).2
  | .create request => (create fnv room request).2
  | .destroy request => (destroy fnv room request).2
  | .whip request negotiated => (whip fnv room request negotiated).2
  | .depart forward peer now =>
      { room with
        forwarder := (room.forwarder.removePublish forward peer now).toOption.getD room.forwarder }
  | .tick scan reap => { room with forwarder := room.forwarder.publishCheckTick scan reap }

end Room

/-- The machine of one room, from its creation on. -/
def history (fnv : List UInt8 → UInt32) : Machine Room RoomRequest where
  init room := ∃ id name needsHost isPublic capacity sharedKey masterKey description timeout,
    room = Room.new fnv id name needsHost isPublic capacity sharedKey masterKey description timeout
  step room request := some (room.serve fnv request)

namespace Room

variable {fnv : List UInt8 → UInt32} {room : Room}

/-! ### Consistent rooms -/

/-- The streams in the list of the user, if it is a client. -/
def streamsOf (room : Room) (userId : Int32) : List String :=
  match room.clientMap[userId]? with
  | some client => client.streamMap
  | none => []

/-- The lists of the clients are sorted, hold streams of the forwarder's table only, and no
stream is in two of them. -/
structure Consistent (room : Room) : Prop where
  sorted : ∀ u, (room.streamsOf u).Pairwise (· < ·)
  listed : ∀ u, ∀ s ∈ room.streamsOf u, s ∈ room.forwarder.streamMap
  disjoint : ∀ u v, ∀ s ∈ room.streamsOf u, s ∈ room.streamsOf v → u = v

lemma streamsOf_eq {userId : Int32} {client : Client} (h : room.clientMap[userId]? = some client) :
    room.streamsOf userId = client.streamMap := by
  rw [streamsOf, h]

lemma streamsOf_setClient (room : Room) (userId : Int32) (client : Client) (v : Int32) :
    (room.setClient userId client).streamsOf v =
      if v = userId then client.streamMap else room.streamsOf v := by
  by_cases hv : v = userId
  · simp [streamsOf, setClient, hv]
  · simp [streamsOf, setClient, hv, ExtTreeMap.getElem?_insert, Ne.symm hv]

/-- A stream of a sorted list is removed from it. -/
lemma removeStream_of_sorted {client : Client} {stream : String}
    (hs : client.streamMap.Pairwise (· < ·)) (hmem : stream ∈ client.streamMap) :
    client.removeStream stream =
      .ok { client with streamMap := client.streamMap.erase stream } := by
  obtain ⟨i, hi⟩ := Vec.exists_binarySearch_of_mem hs hmem
  rw [Client.removeStream, if_pos hmem, hi]
  dsimp only
  rw [Vec.eraseIdx_of_binarySearch hs hi]

/-! ### Deletions in consistent rooms -/

/-- The loop over the streams of a client goes through, if the list is sorted and its
streams are in the table. -/
lemma deleteStreams_spec (userId : Int32) {streams : List String} (client : Client)
    (room : Room) (hc : client.streamMap = streams) (hs : streams.Pairwise (· < ·))
    (hl : ∀ s ∈ streams, s ∈ room.forwarder.streamMap) :
    ∃ room', deleteStreams userId client room streams = (.ok (), room') ∧
      (∀ v ≠ userId, room'.clientMap[v]? = room.clientMap[v]?) ∧
      ∀ s, s ∈ room'.forwarder.streamMap ↔ s ∈ room.forwarder.streamMap ∧ s ∉ streams := by
  induction streams generalizing client room with
  | nil => exact ⟨room, rfl, fun _ _ => rfl, by simp⟩
  | cons stream streams ih =>
      obtain ⟨f, hf⟩ := Forwarder.exists_streamDelete (hl stream (List.mem_cons_self ..))
      have hmap := Forwarder.streamMap_of_streamDelete hf
      have hmem : stream ∈ client.streamMap := by simp [hc]
      have hremove := removeStream_of_sorted (hc ▸ hs) hmem
      rw [hc, List.erase_cons_head] at hremove
      -- the rest of the list does not contain the stream that went
      have hne : ∀ s ∈ streams, stream ≠ s := fun s hmem =>
        ((List.pairwise_cons.mp hs).1 s hmem).ne
      obtain ⟨room', hroom', hclients, hstreams⟩ := ih
        { client with streamMap := streams }
        ({ room with forwarder := f }.setClient userId { client with streamMap := streams })
        rfl hs.of_cons (fun s hmem => by simp [setClient, hmap, hne s hmem, hl s (by simp [hmem])])
      refine ⟨room', by simp [deleteStreams, hf, hremove, hroom'], fun v hv => ?_, fun s => ?_⟩
      · rw [hclients v hv]
        simp [setClient, ExtTreeMap.getElem?_insert, Ne.symm hv]
      · rw [hstreams]
        simp only [setClient, hmap, ExtTreeMap.mem_erase, List.mem_cons, ne_eq,
          Std.LawfulEqCmp.compare_eq_iff_eq, @eq_comm _ stream]
        tauto

/-- **Deleting a client of a consistent room**: the deletion goes through, the client is
gone, and of the table the streams of its list. -/
theorem userDelete_spec (hr : room.Consistent) {userId : Int32} (token : UInt32)
    (checkToken : Bool) {client : Client} (hc : room.clientMap[userId]? = some client)
    (htoken : checkToken = true → client.checkToken token = true) :
    ∃ room', room.userDelete userId token checkToken = (.ok true, room') ∧
      (∀ v, room'.clientMap[v]? = if v = userId then none else room.clientMap[v]?) ∧
      ∀ s, s ∈ room'.forwarder.streamMap ↔
        s ∈ room.forwarder.streamMap ∧ s ∉ client.streamMap := by
  have hlist := streamsOf_eq hc
  obtain ⟨room', hroom', hclients, hstreams⟩ := deleteStreams_spec userId client
    { room with groupManager := room.groupManager.endUser userId.toUInt32 } rfl
    (hlist ▸ hr.sorted userId) (hlist ▸ hr.listed userId)
  refine ⟨{ room' with clientMap := room'.clientMap.erase userId }, ?_, fun v => ?_, hstreams⟩
  · have hcheck : (checkToken && ! client.checkToken token) = false := by
      cases checkToken with
      | false => rfl
      | true => rw [htoken rfl]; rfl
    simp [userDelete, hc, hcheck, Client.getStreams, hroom']
  · by_cases hv : v = userId
    · simp [hv]
    · simpa [hv, ExtTreeMap.getElem?_erase, Ne.symm hv] using hclients v hv

/-- Where there is no such client, a deletion changes only the groups. -/
lemma userDelete_of_none {userId : Int32} (hc : room.clientMap[userId]? = none) (token : UInt32)
    (checkToken : Bool) : room.userDelete userId token checkToken =
      (.ok false, { room with groupManager := room.groupManager.endUser userId.toUInt32 }) := by
  simp [userDelete, hc]

/-- What keeps the lists as they are, and their streams in the table, keeps a room
consistent. -/
lemma Consistent.congr {room' : Room} (hr : room.Consistent)
    (hlist : ∀ v, room'.streamsOf v = room.streamsOf v)
    (hmap : ∀ v, ∀ s ∈ room.streamsOf v, s ∈ room'.forwarder.streamMap) : room'.Consistent where
  sorted u := hlist u ▸ hr.sorted u
  listed u := by
    rw [hlist]
    exact hmap u
  disjoint u v := by
    rw [hlist, hlist]
    exact hr.disjoint u v

/-- What takes one list out, and no stream of another list, keeps a room consistent. -/
lemma Consistent.of_erase {room' : Room} (hr : room.Consistent) (userId : Int32)
    (hlist : ∀ v, room'.streamsOf v = if v = userId then [] else room.streamsOf v)
    (hmap : ∀ s, s ∈ room'.forwarder.streamMap ↔
      s ∈ room.forwarder.streamMap ∧ s ∉ room.streamsOf userId) : room'.Consistent where
  sorted u := by
    rw [hlist]
    split_ifs
    · exact List.Pairwise.nil
    · exact hr.sorted u
  listed u s hs := by
    rw [hlist] at hs
    split_ifs at hs with hu
    · simp at hs
    · exact (hmap s).mpr ⟨hr.listed u s hs, fun h => hu (hr.disjoint u userId s hs h)⟩
  disjoint u v s hu hv := by
    rw [hlist] at hu hv
    split_ifs at hu hv
    · simp at hu
    · simp at hu
    · simp at hv
    · exact hr.disjoint u v s hu hv

/-- A client's list with a change of the table that fits it. -/
lemma Consistent.of_setList {room' : Room} (hr : room.Consistent) (userId : Int32)
    (streams : List String)
    (hlist : ∀ v, room'.streamsOf v = if v = userId then streams else room.streamsOf v)
    (hs : streams.Pairwise (· < ·)) (hmap : ∀ s ∈ streams, s ∈ room'.forwarder.streamMap)
    (hother : ∀ v ≠ userId, ∀ s ∈ room.streamsOf v,
      s ∈ room'.forwarder.streamMap ∧ s ∉ streams) : room'.Consistent where
  sorted u := by
    rw [hlist]
    split_ifs
    · exact hs
    · exact hr.sorted u
  listed u s := by
    rw [hlist]
    split_ifs with hu
    · exact hmap s
    · exact fun h => (hother u hu s h).1
  disjoint u v s hu hv := by
    rw [hlist] at hu hv
    split_ifs at hu hv with hu' hv' hv'
    · rw [hu', hv']
    · exact absurd hu (hother v hv' s hv).2
    · exact absurd hv (hother u hu' s hu).2
    · exact hr.disjoint u v s hu hv

/-- A deletion keeps a room consistent, whatever its outcome. -/
lemma Consistent.userDelete (hr : room.Consistent) (userId : Int32) (token : UInt32)
    (checkToken : Bool) : (room.userDelete userId token checkToken).2.Consistent := by
  have hgroups : ({ room with
      groupManager := room.groupManager.endUser userId.toUInt32 } : Room).Consistent :=
    hr.congr (fun _ => rfl) hr.listed
  cases hc : room.clientMap[userId]? with
  | none => rwa [userDelete_of_none hc]
  | some client =>
      by_cases htoken : checkToken = true → client.checkToken token = true
      · obtain ⟨room', hroom', hclients, hstreams⟩ := userDelete_spec hr token checkToken hc htoken
        rw [hroom']
        refine hr.of_erase userId (fun v => ?_) (by simpa [streamsOf_eq hc] using hstreams)
        by_cases hv : v = userId
        · simp [streamsOf, hclients, hv]
        · simp [streamsOf, hclients, hv]
      · push Not at htoken
        obtain ⟨rfl, htoken⟩ := htoken
        have hrej : (room.userDelete userId token true).1 = .ok false := by
          rw [userDelete_rejected_iff]
          intro c hc'
          rw [hc, Option.some.injEq] at hc'
          simpa [← hc'] using htoken
        rwa [userDelete_snd_of_rejected hrej]

/-- All users of a consistent room can be deleted, in any order. -/
lemma deleteUsers_spec (hr : room.Consistent) (keys : List Int32) :
    ∃ room', room.deleteUsers keys = (.ok true, room') ∧
      ∀ v, room'.clientMap[v]? = if v ∈ keys then none else room.clientMap[v]? := by
  induction keys generalizing room with
  | nil => exact ⟨room, rfl, by simp⟩
  | cons userId keys ih =>
      have hstep : ∃ b, ∃ room', room.userDelete userId 0 false = (.ok b, room') ∧
          ∀ v, room'.clientMap[v]? = if v = userId then none else room.clientMap[v]? := by
        cases hc : room.clientMap[userId]? with
        | none =>
            refine ⟨false, _, userDelete_of_none hc 0 false, fun v => ?_⟩
            by_cases hv : v = userId
            · simpa [hv] using hc
            · simp [hv]
        | some client =>
            obtain ⟨room', hroom', hclients, -⟩ := userDelete_spec hr 0 false hc (by simp)
            exact ⟨true, room', hroom', hclients⟩
      obtain ⟨b, room₁, hroom₁, hclients₁⟩ := hstep
      have hr₁ : room₁.Consistent := by
        have := hr.userDelete userId 0 false
        rwa [hroom₁] at this
      obtain ⟨room', hroom', hclients⟩ := ih hr₁
      refine ⟨room', by simp [deleteUsers, hroom₁, hroom'], fun v => ?_⟩
      rw [hclients, hclients₁]
      by_cases hv : v = userId
      · simp [hv]
      · simp [hv]

/-! ### What every client is promised -/

/-- Every client can be deleted with its own token, which takes it and its streams out; all
of them can be deleted in any order, which empties the room; and the room can be deleted
with its master key. -/
structure UsersDeletable (fnv : List UInt8 → UInt32) (room : Room) : Prop where
  userDelete : ∀ userId client, room.clientMap[userId]? = some client →
    (room.userDelete userId client.token true).1 = .ok true ∧
      userId ∉ (room.userDelete userId client.token true).2.clientMap ∧
      ∀ s ∈ client.getStreams,
        s ∉ (room.userDelete userId client.token true).2.forwarder.streamMap
  allUserDelete : ∀ keys : List Int32, keys.Perm room.clientMap.keys →
    (room.allUserDelete keys).1 = .ok true ∧ (room.allUserDelete keys).2.clientMap = ∅
  deleteRoom : ∀ (rooms : Rooms) (request : DeleteRequest) (keys : List Int32),
    keys.Perm room.clientMap.keys → rooms[request.id]? = some room →
    room.authMasterKey fnv request.masterKey = true →
    SfuServer.deleteRoom fnv rooms request keys =
      (.ok ⟨BodyUtil.succeed, .ok⟩, rooms.erase request.id)

/-- A consistent room keeps the promise. -/
lemma Consistent.usersDeletable (fnv : List UInt8 → UInt32) (hr : room.Consistent) :
    room.UsersDeletable fnv where
  userDelete userId client hc := by
    obtain ⟨room', hroom', hclients, hstreams⟩ := userDelete_spec hr client.token true hc
      (fun _ => by simp [Client.checkToken])
    rw [hroom']
    refine ⟨rfl, fun hmem => ?_, fun s hs hmem => ((hstreams s).mp hmem).2 hs⟩
    rw [ExtTreeMap.mem_iff_isSome_getElem?, hclients, if_pos rfl] at hmem
    cases hmem
  allUserDelete keys hkeys := by
    obtain ⟨room', hroom', hclients⟩ := deleteUsers_spec hr keys
    rw [allUserDelete, hroom']
    refine ⟨rfl, ?_⟩
    ext v client
    rw [hclients]
    split_ifs with hv
    · simp
    · have hnot : v ∉ room.clientMap := fun h =>
        hv (hkeys.mem_iff.mpr (ExtTreeMap.mem_keys.mpr h))
      simp [ExtTreeMap.getElem?_eq_none hnot]
  deleteRoom rooms request keys _ hroom hkey := by
    obtain ⟨room', hroom', -⟩ := deleteUsers_spec hr keys
    simp [SfuServer.deleteRoom, hroom, hkey, allUserDelete, hroom']

/-! ### Orderly requests -/

/-- The streams that a round of the reaper takes out of the table. -/
def Reaped (room : Room) (scan reap : String → ℤ) (stream : String) : Prop :=
  ∃ h, room.forwarder.streamMap[stream]? = some h ∧
    room.forwarder.publishLeaveTimeout ≤ Forwarder.i64Max ∧
    room.forwarder.Expired h (scan stream) ∧ room.forwarder.Expired h (reap stream)

/-- The requests that keep the two records in step: a client enters its streams in
alphabetical order, and none that another client lists; it destroys no stream that another
client lists; and the reaper takes out no stream that a client lists. -/
def Orderly (fnv : List UInt8 → UInt32) (room : Room) : RoomRequest → Prop
  | .create request =>
      ∀ client, authUser fnv room request.sharedKey request.userId request.token = .ok client →
        request.stream ∉ room.forwarder.streamMap → ∀ s ∈ client.streamMap, s < request.stream
  | .destroy request =>
      ∀ client, authUser fnv room request.sharedKey request.userId request.token = .ok client →
        ∀ v ≠ request.userId, request.stream ∉ room.streamsOf v
  | .whip request negotiated =>
      ∀ client, authUser fnv room request.sharedKey request.userId request.token = .ok client →
        ∀ peer, (room.forwarder.publish request.stream negotiated).1 = .ok peer →
          request.stream ∉ client.streamMap →
            (∀ s ∈ client.streamMap, s < request.stream) ∧
              ∀ v, request.stream ∉ room.streamsOf v
  | .tick scan reap => ∀ u, ∀ s ∈ room.streamsOf u, ¬ room.Reaped scan reap s
  | _ => True

/-- An id that `join` gives away is not in use. -/
lemma not_mem_of_firstFree {lo : ℕ} {userId : Int32} (h : room.firstFree lo = some userId) :
    userId ∉ room.clientMap := by
  simpa using List.find?_some h

lemma Consistent.enter (hr : room.Consistent) {userId : Int32} (hu : userId ∉ room.clientMap)
    (userName : String) (token : UInt32) : (room.enter userName userId token).Consistent := by
  refine hr.congr (fun v => ?_) hr.listed
  by_cases hv : v = userId
  · subst hv
    simp [streamsOf, Room.enter, Client.new, ExtTreeMap.getElem?_eq_none hu]
  · simp [streamsOf, Room.enter, ExtTreeMap.getElem?_insert, Ne.symm hv]

lemma Consistent.join (hr : room.Consistent) (fnv : List UInt8 → UInt32)
    (userName masterKey : String) (token : UInt32) :
    (room.join fnv userName masterKey token).2.Consistent := by
  rw [Room.join]
  split_ifs with hhost hrej hcap
  · exact hr
  · push Not at hrej
    exact hr.enter hrej.2 _ _
  · exact hr
  · split
    · rename_i userId hfree
      exact hr.enter (not_mem_of_firstFree hfree) _ _
    · exact hr
  · split
    · rename_i userId hfree
      exact hr.enter (not_mem_of_firstFree hfree) _ _
    · exact hr

lemma Consistent.create (hr : room.Consistent) {request : StreamRequest}
    (ho : room.Orderly fnv (.create request)) :
    (SfuServer.create fnv room request).2.Consistent := by
  rw [SfuServer.create]
  cases hauth : authUser fnv room request.sharedKey request.userId request.token with
  | error response => exact hr
  | ok client =>
      have hlist := streamsOf_eq ((authUser_eq_ok_iff fnv).mp hauth).2.1
      dsimp only
      cases hf : room.forwarder.streamCreate request.stream with
      | error e => exact hr
      | ok f =>
          obtain ⟨hnew, rfl⟩ := Forwarder.streamCreate_eq_ok_iff.mp hf
          -- a stream that is not in the table is in no list
          have hunlisted : ∀ v, request.stream ∉ room.streamsOf v := fun v h =>
            hnew (hr.listed v _ h)
          have hlt := ho client hauth hnew
          have hclient : request.stream ∉ client.streamMap := hlist ▸ hunlisted request.userId
          dsimp only
          rw [Client.addStream, if_neg hclient]
          refine hr.of_setList request.userId (client.streamMap ++ [request.stream])
            (streamsOf_setClient _ _ _) ?_ ?_ ?_
          · rw [List.pairwise_append]
            refine ⟨hlist ▸ hr.sorted request.userId, List.pairwise_singleton _ _, ?_⟩
            simpa using hlt
          · intro s hs
            rcases List.mem_append.mp hs with hs | hs
            · simp [setClient, hr.listed request.userId s (hlist ▸ hs)]
            · simp [setClient, List.mem_singleton.mp hs]
          · intro v hv s hs
            refine ⟨by simp [setClient, hr.listed v s hs], fun hmem => ?_⟩
            rcases List.mem_append.mp hmem with h | h
            · exact hv (hr.disjoint v request.userId s hs (hlist ▸ h))
            · exact hunlisted v (List.mem_singleton.mp h ▸ hs)

lemma Consistent.destroy (hr : room.Consistent) {request : StreamRequest}
    (ho : room.Orderly fnv (.destroy request)) :
    (SfuServer.destroy fnv room request).2.Consistent := by
  rw [SfuServer.destroy]
  cases hauth : authUser fnv room request.sharedKey request.userId request.token with
  | error response => exact hr
  | ok client =>
      have hlist := streamsOf_eq ((authUser_eq_ok_iff fnv).mp hauth).2.1
      have hsorted : client.streamMap.Pairwise (· < ·) := hlist ▸ hr.sorted request.userId
      have hother := ho client hauth
      dsimp only
      cases hf : room.forwarder.streamDelete request.stream with
      | error e => exact hr
      | ok f =>
          have hmap := Forwarder.streamMap_of_streamDelete hf
          -- the streams that stay listed are other ones, and stay in the table
          have hkeep : ∀ v, ∀ s ∈ room.streamsOf v, s ≠ request.stream → s ∈ f.streamMap := by
            intro v s hs hne
            simp [hmap, Ne.symm hne, hr.listed v s hs]
          dsimp only
          by_cases hmem : request.stream ∈ client.streamMap
          · rw [removeStream_of_sorted hsorted hmem]
            refine hr.of_setList request.userId (client.streamMap.erase request.stream)
              (streamsOf_setClient _ _ _) (hsorted.sublist List.erase_sublist) ?_ ?_
            · intro s hs
              obtain ⟨hne, hs⟩ := hsorted.nodup.mem_erase_iff.mp hs
              exact hkeep request.userId s (hlist ▸ hs) hne
            · intro v hv s hs
              refine ⟨hkeep v s hs fun h => hother v hv (h ▸ hs), fun h => ?_⟩
              exact hv (hr.disjoint v request.userId s hs (hlist ▸ List.mem_of_mem_erase h))
          · rw [Client.removeStream, if_neg hmem]
            refine hr.congr (fun _ => rfl) fun v s hs => hkeep v s hs fun h => ?_
            by_cases hv : v = request.userId
            · exact hmem (hlist ▸ hv ▸ h ▸ hs)
            · exact hother v hv (h ▸ hs)

lemma Consistent.whip (hr : room.Consistent) {request : StreamRequest}
    {negotiated : Except AppError Unit} (ho : room.Orderly fnv (.whip request negotiated)) :
    (SfuServer.whip fnv room request negotiated).2.Consistent := by
  have hkeep : ∀ v, ∀ s ∈ room.streamsOf v,
      s ∈ (room.forwarder.publish request.stream negotiated).2.streamMap := fun v s hs =>
    (room.forwarder.mem_streamMap_publish request.stream negotiated s).1 (hr.listed v s hs)
  rw [SfuServer.whip]
  cases hauth : authUser fnv room request.sharedKey request.userId request.token with
  | error response => exact hr
  | ok client =>
      have hlist := streamsOf_eq ((authUser_eq_ok_iff fnv).mp hauth).2.1
      have hlt := ho client hauth
      dsimp only
      cases hf : room.forwarder.publish request.stream negotiated with
      | mk result f =>
          rw [hf] at hkeep hlt
          cases result with
          | error e => exact hr.congr (fun _ => rfl) hkeep
          | ok peer =>
              have hpublished := Forwarder.mem_streamMap_of_publish hf
              dsimp only
              by_cases hmem : request.stream ∈ client.streamMap
              · rw [Client.addStream, if_pos hmem]
                exact hr.congr (fun _ => rfl) hkeep
              · obtain ⟨hlt, hunlisted⟩ := hlt peer rfl hmem
                rw [Client.addStream, if_neg hmem]
                refine hr.of_setList request.userId (client.streamMap ++ [request.stream])
                  (streamsOf_setClient _ _ _) ?_ ?_ ?_
                · rw [List.pairwise_append]
                  refine ⟨hlist ▸ hr.sorted request.userId, List.pairwise_singleton _ _, ?_⟩
                  simpa using hlt
                · intro s hs
                  rcases List.mem_append.mp hs with hs | hs
                  · exact hkeep request.userId s (hlist ▸ hs)
                  · exact List.mem_singleton.mp hs ▸ hpublished
                · intro v hv s hs
                  refine ⟨hkeep v s hs, fun hmem => ?_⟩
                  rcases List.mem_append.mp hmem with h | h
                  · exact hv (hr.disjoint v request.userId s hs (hlist ▸ h))
                  · exact hunlisted v (List.mem_singleton.mp h ▸ hs)

/-- **Orderly requests keep a room consistent.** -/
theorem Consistent.serve (hr : room.Consistent) {request : RoomRequest}
    (ho : room.Orderly fnv request) : (room.serve fnv request).Consistent := by
  cases request with
  | join request token =>
      rw [Room.serve, roomJoin]
      split_ifs
      · exact hr
      · have := hr.join fnv request.name request.masterKey token
        split
        · rename_i room' hroom'
          rwa [hroom'] at this
        · rename_i result room' _ hroom'
          rwa [hroom'] at this
  | exit request =>
      rw [Room.serve, roomExit]
      split_ifs
      · exact hr
      · have := hr.userDelete request.userId request.token true
        split <;> rename_i room' hroom' <;> rwa [hroom'] at this
  | create request => exact hr.create ho
  | destroy request => exact hr.destroy ho
  | whip request negotiated => exact hr.whip ho
  | depart forward peer now =>
      refine hr.congr (fun _ => rfl) fun v s hs => ?_
      have := hr.listed v s hs
      simp only [Room.serve, Forwarder.removePublish]
      cases hclear : room.forwarder.clearSlot forward peer with
      | error e => simpa [Except.map, Except.toOption] using this
      | ok f =>
          obtain ⟨-, rfl⟩ := Forwarder.clearSlot_eq_ok_iff.mp hclear
          simpa [Except.map, Except.toOption, Forwarder.stampLeaveTime] using this
  | tick scan reap =>
      refine hr.congr (fun _ => rfl) fun v s hs => ?_
      obtain ⟨h, hh⟩ := Option.isSome_iff_exists.mp
        (ExtTreeMap.mem_iff_isSome_getElem?.mp (hr.listed v s hs))
      rw [ExtTreeMap.mem_iff_isSome_getElem?, Option.isSome_iff_exists]
      refine ⟨h, (room.forwarder.streamMap_publishCheckTick scan reap s h).mpr ⟨hh, ?_⟩⟩
      exact fun hreaped => ho v s hs ⟨h, hh, hreaped⟩

end Room

/-- A new room has no clients, so it is consistent. -/
lemma consistent_of_init {fnv : List UInt8 → UInt32} {room : Room} (h : (history fnv).init room) :
    room.Consistent := by
  obtain ⟨id, name, needsHost, isPublic, capacity, sharedKey, masterKey, description, timeout,
    rfl⟩ := h
  have hnil : ∀ v, (Room.new fnv id name needsHost isPublic capacity sharedKey masterKey
      description timeout).streamsOf v = [] := by
    simp [Room.streamsOf, Room.new]
  exact ⟨by simp [hnil], by simp [hnil], by simp [hnil]⟩

/-- **Users can be deleted after orderly requests**: in every run of a room whose requests
are all orderly, in every state that it passes through every client can be deleted with
its own token, and with it its streams, and all clients and the room can be deleted. -/
theorem usersDeletable_of_orderly (fnv : List UInt8 → UInt32) {room : Room}
    {requests : List RoomRequest} (h0 : (history fnv).init room)
    (hok : (history fnv).Guarded (Room.Orderly fnv) room requests) :
    (history fnv).Always (Room.UsersDeletable fnv) room requests := by
  have hr := consistent_of_init h0
  refine ⟨hr.usersDeletable fnv, Machine.along_of_guarded (I := Room.Consistent) ?_ hr hok⟩
  intro r request t hr ho hstep
  obtain rfl : r.serve fnv request = t := by simpa [history] using hstep
  exact ⟨hr.serve ho, (hr.serve ho).usersDeletable fnv⟩

/-- The hash function of `hash32`, on which the examples are run. -/
def fnv1a (bytes : List UInt8) : UInt32 :=
  bytes.foldl (fun h b => (h ^^^ b.toUInt32) * 0x01000193) 0x811c9dc5

/-- A new room without a host, with places for four. -/
def smallRoom : Room := Room.new fnv1a 1 "room" false true 4 "key" "master" "" 15000

lemma init_smallRoom : (history fnv1a).init smallRoom :=
  ⟨1, "room", false, true, 4, "key", "master", "", 15000, rfl⟩

/-- A client joins, creates two streams and exits. -/
theorem usersDeletable_smallRoom :
    (history fnv1a).Always (Room.UsersDeletable fnv1a) smallRoom
      [.join ⟨"client", "key", ""⟩ 7, .create ⟨0, 7, "a", "key"⟩, .create ⟨0, 7, "b", "key"⟩,
        .exit ⟨0, 7, "key"⟩] := by
  refine usersDeletable_of_orderly fnv1a init_smallRoom ?_
  rintro _ ⟨⟩
  refine ⟨trivial, ?_⟩
  rintro _ ⟨⟩
  refine ⟨fun client hauth _ => ?_, ?_⟩
  · have hc := ((authUser_eq_ok_iff fnv1a).mp hauth).2.1
    obtain rfl : (⟨"client", 0, 7, []⟩ : Client) = client := Option.some.inj (hc ▸ by decide)
    simp
  rintro _ ⟨⟩
  refine ⟨fun client hauth _ => ?_, ?_⟩
  · have hc := ((authUser_eq_ok_iff fnv1a).mp hauth).2.1
    obtain rfl : (⟨"client", 0, 7, ["a"]⟩ : Client) = client := Option.some.inj (hc ▸ by decide)
    decide
  rintro _ ⟨⟩
  exact ⟨trivial, trivial⟩

/-- Two clients join, the first creates a stream and the second destroys it: the first can no
longer be deleted. -/
theorem not_usersDeletable_smallRoom :
    ¬ ∀ (room : Room) (requests : List RoomRequest), (history fnv1a).init room →
      (history fnv1a).Always (Room.UsersDeletable fnv1a) room requests := by
  intro h
  have hend := (h smallRoom [.join ⟨"first", "key", ""⟩ 7, .join ⟨"second", "key", ""⟩ 8,
    .create ⟨0, 7, "a", "key"⟩, .destroy ⟨1, 8, "a", "key"⟩] init_smallRoom).of_exec rfl
  have hdelete := (hend.userDelete 0 ⟨"first", 0, 7, ["a"]⟩ (by decide)).1
  revert hdelete
  decide

end SfuServer
