import SfuServer.Room.History

/-!
A client's list of streams, and the two requests that enter a stream and take one out:
`Client` of `src/forward/rtc/client.rs`, `create` and `destroy` of `src/route/rtc/stream.rs`.

The list is in the order of the insertions, and the removal searches it by halving.  So whether
a stream can be removed is a matter of the elements that this search compares with, and of
them only: each has to be on the right side of the stream (`Vec.InPlace`).

* `clientMachine`: the machine of the calls on one list, which never holds a stream twice
  (`nodup_of_reachable`);
* `keepsList_iff`: in every reachable list a removal does what it says exactly if the stream is in
  place;
* `succeeds_create_iff`, `succeeds_destroy_iff`: when the two requests are answered with success;
* `allOrNothing_iff`: the requests change the forwarder's table and the list of the caller
  together, or neither, exactly if no step of theirs fails: for an entry the stream is in neither
  of the two, and for a removal it is in the table, and once and in place in the list.
-/

open Std (ExtTreeMap)

namespace SfuServer

/-! ### The list of a client -/

/-- A call on a client's list. -/
inductive ListCall where
  | add (stream : String)
  | remove (stream : String)

namespace Client

/-- The client after `add_stream`, which an error leaves as it was. -/
def afterAdd (c : Client) (stream : String) : Client := (c.addStream stream).toOption.getD c

/-- The client after `remove_stream`, which an error leaves as it was. -/
def afterRemove (c : Client) (stream : String) : Client :=
  (c.removeStream stream).toOption.getD c

/-- The client after a call. -/
def afterCall (c : Client) : ListCall → Client
  | .add stream => c.afterAdd stream
  | .remove stream => c.afterRemove stream

end Client

/-- The machine of one client's list, from `Client::new` on. -/
def clientMachine : Machine Client ListCall where
  init c := ∃ id token name, c = Client.new id token name
  step c call := some (c.afterCall call)

namespace Client

variable {c c' : Client} {stream : String}

lemma addStream_eq_ok_iff : c.addStream stream = .ok c' ↔
    stream ∉ c.streamMap ∧ c' = { c with streamMap := c.streamMap ++ [stream] } := by
  rw [addStream]
  split_ifs with hs
  · simp [hs]
  · simp [hs, eq_comm]

/-- A stream is removed at an index at which it stands. -/
lemma removeStream_eq_ok_iff : c.removeStream stream = .ok c' ↔
    ∃ i, Vec.binarySearch c.streamMap stream = some i ∧
      c' = { c with streamMap := c.streamMap.eraseIdx i } := by
  rw [removeStream]
  split_ifs with hs
  · cases Vec.binarySearch c.streamMap stream with
    | none => simp
    | some i => simp [eq_comm]
  · simp only [false_iff, not_exists, not_and]
    exact fun i hi _ => hs (List.mem_of_getElem? (Vec.getElem?_of_binarySearch hi))

/-- A stream that is listed once can be removed exactly if it is in place. -/
lemma exists_removeStream_iff (hcount : c.streamMap.count stream = 1) :
    (∃ c', c.removeStream stream = .ok c') ↔ Vec.InPlace c.streamMap stream := by
  rw [← Vec.exists_binarySearch_iff hcount]
  simp only [removeStream_eq_ok_iff]
  constructor
  · rintro ⟨_, i, hi, -⟩
    exact ⟨i, hi⟩
  · rintro ⟨i, hi⟩
    exact ⟨_, i, hi, rfl⟩

/-- The removal of a stream that is listed once leaves the others, in their order. -/
lemma streamMap_of_removeStream (hcount : c.streamMap.count stream = 1)
    (h : c.removeStream stream = .ok c') :
    c'.streamMap = c.streamMap.filter (· ≠ stream) := by
  obtain ⟨i, hi, rfl⟩ := removeStream_eq_ok_iff.mp h
  exact Vec.eraseIdx_eq_filter hcount (Vec.getElem?_of_binarySearch hi)

/-- The removal takes one occurrence out. -/
lemma count_of_removeStream (h : c.removeStream stream = .ok c') :
    c'.streamMap.count stream + 1 = c.streamMap.count stream := by
  obtain ⟨i, hi, rfl⟩ := removeStream_eq_ok_iff.mp h
  obtain ⟨hlt, hget⟩ := List.getElem?_eq_some_iff.mp (Vec.getElem?_of_binarySearch hi)
  have hperm := (List.getElem_cons_eraseIdx_perm hlt).count_eq stream
  rw [hget, List.count_cons_self] at hperm
  exact hperm

/-- No stream is ever listed twice. -/
lemma nodup_of_reachable (hc : clientMachine.Reachable c) : c.streamMap.Nodup := by
  refine hc.invariant (I := fun c : Client => c.streamMap.Nodup) ?_ ?_
  · rintro _ ⟨id, token, name, rfl⟩
    exact List.nodup_nil
  · intro c call t hnd hstep
    obtain rfl := Option.some.inj hstep
    cases call with
    | add stream =>
        rw [afterCall, afterAdd]
        cases h : c.addStream stream with
        | error e => exact hnd
        | ok c' =>
            obtain ⟨hs, rfl⟩ := addStream_eq_ok_iff.mp h
            show (c.streamMap ++ [stream]).Nodup
            simpa using hnd.concat hs
    | remove stream =>
        rw [afterCall, afterRemove]
        cases h : c.removeStream stream with
        | error e => exact hnd
        | ok c' =>
            obtain ⟨i, -, rfl⟩ := removeStream_eq_ok_iff.mp h
            exact hnd.sublist (List.eraseIdx_sublist _ _)

/-- What the list is meant to do about a stream: it is removed exactly if it is listed, which
leaves the others in their order, and a failed removal leaves all; and entering a stream that is
not listed is undone by removing it. -/
structure KeepsList (c : Client) (stream : String) : Prop where
  removes : (∃ c', c.removeStream stream = .ok c') ↔ stream ∈ c.streamMap
  removed : stream ∈ c.streamMap →
    (c.afterRemove stream).streamMap = c.streamMap.filter (· ≠ stream)
  rejected : stream ∉ c.streamMap → (c.afterRemove stream).streamMap = c.streamMap
  restores : stream ∉ c.streamMap → ∃ c', c.addStream stream = .ok c' ∧
    ∃ c'', c'.removeStream stream = .ok c'' ∧ c''.streamMap = c.streamMap

/-- The list in which the stream is searched for: as it is, or with the stream entered. -/
def searched (c : Client) (stream : String) : List String :=
  if stream ∈ c.streamMap then c.streamMap else c.streamMap ++ [stream]

/-- **The list of a client**: after any sequence of insertions and removals, the list does what
it is meant to do about a stream if and only if every element that the search for the stream
compares with is on the right side of it. -/
theorem keepsList_iff (hc : clientMachine.Reachable c) (stream : String) :
    c.KeepsList stream ↔ Vec.InPlace (c.searched stream) stream := by
  have hnd := nodup_of_reachable hc
  by_cases hs : stream ∈ c.streamMap
  · have hcount := List.count_eq_one_of_mem hnd hs
    rw [searched, if_pos hs, ← exists_removeStream_iff hcount]
    refine ⟨fun h => h.removes.mpr hs, fun hremove => ?_⟩
    refine ⟨iff_of_true hremove hs, fun _ => ?_, absurd hs, absurd hs⟩
    obtain ⟨c', hc'⟩ := hremove
    rw [afterRemove, hc']
    exact streamMap_of_removeStream hcount hc'
  · have hadd := addStream_eq_ok_iff.mpr ⟨hs, rfl⟩
    have hcount : (c.streamMap ++ [stream]).count stream = 1 := by
      simp [List.count_eq_zero.mpr hs]
    have hreject : c.removeStream stream = .error (.streamNotFound stream) := by
      rw [removeStream, if_neg hs]
    rw [searched, if_neg hs,
      ← exists_removeStream_iff (c := { c with streamMap := c.streamMap ++ [stream] }) hcount]
    constructor
    · intro h
      obtain ⟨c', hc', c'', hc'', -⟩ := h.restores hs
      obtain rfl := Except.ok.inj (hadd.symm.trans hc')
      exact ⟨c'', hc''⟩
    · rintro ⟨c'', hc''⟩
      refine ⟨by simp [hreject, hs], (absurd · hs), fun _ => by rw [afterRemove, hreject]; rfl,
        fun _ => ⟨_, hadd, c'', hc'', ?_⟩⟩
      rw [streamMap_of_removeStream hcount hc'', List.filter_append,
        List.filter_eq_self.mpr fun s h => by simpa using fun e : s = stream => hs (e ▸ h)]
      simp

/-- Streams that are entered in alphabetical order. -/
def sortedCalls : List ListCall := [.add "a", .add "b", .add "c", .remove "b"]

theorem keepsList_sortedCalls :
    ∃ c, clientMachine.exec (new 0 7 "client") sortedCalls = some c ∧ c.KeepsList "c" := by
  obtain ⟨c, hc⟩ : ∃ c, clientMachine.exec (new 0 7 "client") sortedCalls = some c := ⟨_, rfl⟩
  refine ⟨c, hc, (keepsList_iff ⟨_, sortedCalls, ⟨0, 7, "client", rfl⟩, hc⟩ "c").mpr ?_⟩
  cases hc
  decide

/-- Two streams are entered against the alphabetical order: the first cannot be removed. -/
theorem not_keepsList_unsorted :
    ¬ ∀ c, clientMachine.Reachable c → ∀ stream, c.KeepsList stream := by
  intro h
  have hkeeps := h ⟨"client", 0, 7, ["b", "a"]⟩
    ⟨new 0 7 "client", [.add "b", .add "a"], ⟨0, 7, "client", rfl⟩, by decide⟩ "b"
  obtain ⟨c', hc'⟩ := hkeeps.removes.mpr (by decide)
  have hnone : (removeStream ⟨"client", 0, 7, ["b", "a"]⟩ "b").toOption = none := by decide
  rw [hc'] at hnone
  cases hnone

end Client

/-! ### The two requests -/

/-- The answer that a request gets. -/
def answerOf : Except AppError Response → Response
  | .ok response => response
  | .error e => e.intoResponse

/-- A request that is answered with success. -/
def Succeeds (result : Except AppError Response) : Prop := (answerOf result).statusCode = .ok

/-- No error is answered with success. -/
lemma not_succeeds_error (e : AppError) : ¬ Succeeds (.error e) := by
  cases e <;> simp [Succeeds, answerOf, AppError.intoResponse]

namespace Room

variable {room room' : Room} {userId : Int32} {stream : String}

/-- The stream is entered into the table and into the list of the user. -/
structure Entered (userId : Int32) (stream : String) (room room' : Room) : Prop where
  unknown : stream ∉ room.forwarder.streamMap
  unlisted : stream ∉ room.streamsOf userId
  table : ∀ s, s ∈ room'.forwarder.streamMap ↔ s ∈ room.forwarder.streamMap ∨ s = stream
  list : room'.streamsOf userId = room.streamsOf userId ++ [stream]

/-- The stream is taken out of the table and of the list of the user. -/
structure TakenOut (userId : Int32) (stream : String) (room room' : Room) : Prop where
  known : stream ∈ room.forwarder.streamMap
  listed : stream ∈ room.streamsOf userId
  table : ∀ s, s ∈ room'.forwarder.streamMap ↔ s ∈ room.forwarder.streamMap ∧ s ≠ stream
  list : room'.streamsOf userId = (room.streamsOf userId).filter (· ≠ stream)

/-- A request is answered with success exactly if it changed both the table and the list, and
with an error only if it changed neither. -/
structure AllOrNothing (Changed : Room → Room → Prop) (userId : Int32) (room : Room)
    (result : Except AppError Response × Room) : Prop where
  succeeds : Succeeds result.1 ↔ Changed room result.2
  fails : ¬ Succeeds result.1 → result.2.forwarder.streamMap = room.forwarder.streamMap ∧
    result.2.streamsOf userId = room.streamsOf userId

variable {fnv : List UInt8 → UInt32} {request : StreamRequest} {client : Client}

/-- **Requests to create a stream**: all or nothing is done exactly if the stream is neither in
the table nor in the list of the caller. -/
theorem create_allOrNothing_iff
    (hauth : authUser fnv room request.sharedKey request.userId request.token = .ok client) :
    AllOrNothing (Entered request.userId request.stream) request.userId room
        (create fnv room request) ↔
      request.stream ∉ room.forwarder.streamMap ∧
        request.stream ∉ room.streamsOf request.userId := by
  have hlist := streamsOf_eq ((authUser_eq_ok_iff fnv).mp hauth).2.1
  rw [create, hauth]
  dsimp only
  cases hf : room.forwarder.streamCreate request.stream with
  | error e =>
      -- the failure of the forwarder is answered with success
      have hknown : request.stream ∈ room.forwarder.streamMap := by
        by_contra hnew
        rw [Forwarder.streamCreate_eq_ok_iff.mpr ⟨hnew, rfl⟩] at hf
        cases hf
      exact iff_of_false (fun h => (h.succeeds.mp rfl).unknown hknown) fun h => h.1 hknown
  | ok f =>
      obtain ⟨hnew, rfl⟩ := Forwarder.streamCreate_eq_ok_iff.mp hf
      dsimp only
      cases hadd : client.addStream request.stream with
      | error e =>
          -- the table has been changed by then
          have hlisted : request.stream ∈ client.streamMap := by
            by_contra hs
            rw [Client.addStream_eq_ok_iff.mpr ⟨hs, rfl⟩] at hadd
            cases hadd
          refine iff_of_false (fun h => ?_) fun h => h.2 (hlist ▸ hlisted)
          have htable := (h.fails (not_succeeds_error e)).1
          exact hnew (htable ▸ ExtTreeMap.mem_insert_self)
      | ok client' =>
          obtain ⟨hs, rfl⟩ := Client.addStream_eq_ok_iff.mp hadd
          refine iff_of_true ⟨iff_of_true rfl ⟨hnew, hlist ▸ hs, fun s => ?_, ?_⟩, fun h => ?_⟩
            ⟨hnew, hlist ▸ hs⟩
          · simp [setClient, or_comm, @eq_comm _ s]
          · rw [streamsOf_setClient, if_pos rfl, hlist]
          · exact absurd rfl h

/-- **Requests to destroy a stream**: all or nothing is done exactly if the stream is in the
table, and in the list of the caller once and in place. -/
theorem destroy_allOrNothing_iff
    (hauth : authUser fnv room request.sharedKey request.userId request.token = .ok client) :
    AllOrNothing (TakenOut request.userId request.stream) request.userId room
        (destroy fnv room request) ↔
      request.stream ∈ room.forwarder.streamMap ∧
        (room.streamsOf request.userId).count request.stream = 1 ∧
        Vec.InPlace (room.streamsOf request.userId) request.stream := by
  have hlist := streamsOf_eq ((authUser_eq_ok_iff fnv).mp hauth).2.1
  rw [destroy, hauth, hlist]
  dsimp only
  cases hf : room.forwarder.streamDelete request.stream with
  | error e =>
      -- the failure of the forwarder is answered with success
      have hunknown : request.stream ∉ room.forwarder.streamMap := by
        intro hknown
        obtain ⟨f, hf'⟩ := Forwarder.exists_streamDelete hknown
        rw [hf] at hf'
        cases hf'
      exact iff_of_false (fun h => hunknown (h.succeeds.mp rfl).known) fun h => hunknown h.1
  | ok f =>
      have hknown : request.stream ∈ room.forwarder.streamMap := by
        obtain ⟨h, hh, -⟩ := Forwarder.streamDelete_eq_ok_iff.mp hf
        exact ExtTreeMap.mem_iff_isSome_getElem?.mpr (by simp [hh])
      have hmap := Forwarder.streamMap_of_streamDelete hf
      dsimp only
      cases hremove : client.removeStream request.stream with
      | error e =>
          -- the table has been changed by then
          refine iff_of_false (fun h => ?_) fun h => ?_
          · have htable := (h.fails (not_succeeds_error e)).1
            dsimp only at htable
            rw [hmap] at htable
            exact absurd (htable ▸ hknown) (by simp)
          · obtain ⟨client', hclient'⟩ := (Client.exists_removeStream_iff h.2.1).mpr h.2.2
            rw [hremove] at hclient'
            cases hclient'
      | ok client' =>
          have hafter : (Room.setClient { room with forwarder := f } request.userId
              client').streamsOf request.userId = client'.streamMap := by
            rw [streamsOf_setClient, if_pos rfl]
          constructor
          · intro h
            have hleft := (h.succeeds.mp rfl).list
            dsimp only at hleft
            rw [hafter, hlist] at hleft
            have hcount := Client.count_of_removeStream hremove
            rw [hleft, List.count_eq_zero.mpr (by simp), zero_add] at hcount
            exact ⟨hknown, hcount.symm,
              (Client.exists_removeStream_iff hcount.symm).mp ⟨client', hremove⟩⟩
          · rintro ⟨-, hcount, -⟩
            refine ⟨iff_of_true rfl ⟨hknown, ?_, fun s => ?_, ?_⟩, fun h => absurd rfl h⟩
            · exact hlist ▸ List.count_pos_iff.mp (by omega)
            · simp [setClient, hmap, and_comm, @eq_comm _ s]
            · exact hafter.trans (hlist ▸ Client.streamMap_of_removeStream hcount hremove)

/-- **All or nothing**: the requests of an authenticated client to create and to destroy a stream
change the table and its list together, or neither, and say which, if and only if for the
first the stream is in neither of the two, and for the second it is in the table, and in the
list once and in place. -/
theorem allOrNothing_iff (fnv : List UInt8 → UInt32) (room : Room) (request : StreamRequest)
    {client : Client}
    (hauth : authUser fnv room request.sharedKey request.userId request.token = .ok client) :
    (AllOrNothing (Entered request.userId request.stream) request.userId room
        (create fnv room request) ↔
      request.stream ∉ room.forwarder.streamMap ∧
        request.stream ∉ room.streamsOf request.userId) ∧
    (AllOrNothing (TakenOut request.userId request.stream) request.userId room
        (destroy fnv room request) ↔
      request.stream ∈ room.forwarder.streamMap ∧
        (room.streamsOf request.userId).count request.stream = 1 ∧
        Vec.InPlace (room.streamsOf request.userId) request.stream) :=
  ⟨create_allOrNothing_iff hauth, destroy_allOrNothing_iff hauth⟩

/-- Two clients have joined, and the first has created the stream `a`. -/
def ownedRoom : Room :=
  ((smallRoom.serve fnv1a (.join ⟨"first", "key", ""⟩ 7)).serve fnv1a
    (.join ⟨"second", "key", ""⟩ 8)).serve fnv1a (.create ⟨0, 7, "a", "key"⟩)

theorem allOrNothing_ownedRoom :
    AllOrNothing (Entered 0 "b") 0 ownedRoom (create fnv1a ownedRoom ⟨0, 7, "b", "key"⟩) ∧
      AllOrNothing (TakenOut 0 "a") 0 ownedRoom (destroy fnv1a ownedRoom ⟨0, 7, "a", "key"⟩) := by
  have hcreate : authUser fnv1a ownedRoom "key" 0 7 = .ok ⟨"first", 0, 7, ["a"]⟩ :=
    (authUser_eq_ok_iff fnv1a).mpr (by decide)
  exact ⟨(allOrNothing_iff fnv1a ownedRoom ⟨0, 7, "b", "key"⟩ hcreate).1.mpr (by decide),
    (allOrNothing_iff fnv1a ownedRoom ⟨0, 7, "a", "key"⟩ hcreate).2.mpr (by decide)⟩

/-- The second client destroys the stream of the first: it is answered with an error, and the
stream is gone from the table. -/
theorem not_allOrNothing_ownedRoom :
    ¬ ∀ (fnv : List UInt8 → UInt32) (room : Room) (request : StreamRequest) (client : Client),
      authUser fnv room request.sharedKey request.userId request.token = .ok client →
        AllOrNothing (Entered request.userId request.stream) request.userId room
            (create fnv room request) ∧
          AllOrNothing (TakenOut request.userId request.stream) request.userId room
            (destroy fnv room request) := by
  intro h
  have hdestroy := (h fnv1a ownedRoom ⟨1, 8, "a", "key"⟩ ⟨"second", 1, 8, []⟩
    ((authUser_eq_ok_iff fnv1a).mpr (by decide))).2
  have hfailed : (answerOf (destroy fnv1a ownedRoom ⟨1, 8, "a", "key"⟩).1).statusCode =
      .notFound := by decide
  have htable := (hdestroy.fails (by simp [Succeeds, hfailed])).1
  have hgone : "a" ∉ (destroy fnv1a ownedRoom ⟨1, 8, "a", "key"⟩).2.forwarder.streamMap := by
    decide
  exact hgone (htable ▸ by decide)

end Room

end SfuServer
