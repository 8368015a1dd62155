import SfuServer.Rtc.Locks
import SfuServer.Rtc.Forwarder

/-!
The deletion of a stream and its connections: `PeerForwardInternal::close` of
`src/forward/rtc/internal.rs` and `Forwarder::stream_delete` of `src/rtc/mod.rs`.

The connections are closed one after the other, the publisher's first, and an error of one ends
the loop.  `stream_delete` ignores what `close` returns, and removes the entry of the stream.

* `RTCPeerConnection`: a connection that counts the calls of its `close`;
* `PeerForwardPeers`, `StreamTable`: a stream with its connections, and the table of the streams;
* `alone_close`, `tracks_streamDelete`: they agree with the `close` that takes the locks, and with
  the table that knows the publishers only;
* `closesEverybody_iff`: a deletion that returns `Ok` has called `close` on every connection of
  the stream, exactly if the calls fail for none but the last connection.
-/

open Std (ExtTreeMap)

namespace SfuServer

/-- `RTCPeerConnection`: its id, what the next call of its `close` comes to, and how often that
was called. -/
structure RTCPeerConnection where
  id : String
  closeResult : Except AppError Unit
  closeCalls : ℕ

/-- The connection after a call of its `close`, whether that fails or not. -/
def RTCPeerConnection.closed (peer : RTCPeerConnection) : RTCPeerConnection :=
  { peer with closeCalls := peer.closeCalls + 1 }

lemma RTCPeerConnection.closed_ne (peer : RTCPeerConnection) : peer.closed ≠ peer := by
  intro h
  have := congrArg RTCPeerConnection.closeCalls h
  simp [closed] at this

/-- `PeerForwardInternal`: the connections of a stream. -/
structure PeerForwardPeers where
  stream : String
  publish : Option RTCPeerConnection
  subscribeGroup : List RTCPeerConnection

namespace PeerForwardPeers

/-- All connections of a stream, in the order in which they are closed. -/
def peers (w : PeerForwardPeers) : List RTCPeerConnection := w.publish.toList ++ w.subscribeGroup

/-- The loop of `PeerForwardInternal::close` over the subscribers. -/
def closeGroup (w : PeerForwardPeers) : Except AppError Unit × PeerForwardPeers :=
  let (result, subscribeGroup) :=
    Vec.tryForEach (·.closeResult) RTCPeerConnection.closed w.subscribeGroup
  (result, { w with subscribeGroup := subscribeGroup })

/-- `PeerForwardInternal::close`. -/
def close (w : PeerForwardPeers) : Except AppError Unit × PeerForwardPeers :=
  match w.publish with
  | none => w.closeGroup
  | some peer =>
      let w := { w with publish := some peer.closed }
      match peer.closeResult with
      | .error e => (.error e, w)
      | .ok () => w.closeGroup

/-- The two parts of `close` are one loop over all connections. -/
lemma close_eq (w : PeerForwardPeers) : w.close.2.stream = w.stream ∧
    (w.close.1, w.close.2.peers) =
      Vec.tryForEach (·.closeResult) RTCPeerConnection.closed w.peers := by
  cases w with
  | mk stream publish subscribeGroup =>
      cases publish with
      | none => exact ⟨rfl, rfl⟩
      | some peer =>
          simp only [close, peers, Option.toList_some, List.singleton_append, Vec.tryForEach]
          cases peer.closeResult with
          | error e => exact ⟨rfl, rfl⟩
          | ok _ => exact ⟨rfl, rfl⟩

/-- The connections after `close`: all were called exactly if the calls fail for none but the
last. -/
lemma peers_close_iff (w : PeerForwardPeers) :
    w.close.2.peers = w.peers.map RTCPeerConnection.closed ↔
      ∀ peer ∈ w.peers.dropLast, peer.closeResult = .ok () := by
  rw [← Vec.tryForEach_snd_eq_map_iff _ _ RTCPeerConnection.closed_ne, ← w.close_eq.2]

/-- The connections of the data of a stream. -/
def ofData (closed : String → Except AppError Unit) (d : StreamData) : PeerForwardPeers where
  stream := d.stream
  publish := d.publish.map fun p => ⟨p.id, closed p.id, 0⟩
  subscribeGroup := d.subscribeGroup.map fun p => ⟨p.id, closed p.id, 0⟩

/-- The `close` that takes the locks returns the same, where no other call runs. -/
theorem alone_close (o : Surroundings) (d : StreamData) :
    (StreamProg.close o).alone d = ((ofData o.closed d).close.1, d) := by
  have hclose := congrArg Prod.fst (ofData o.closed d).close_eq.2
  rw [Vec.tryForEach_fst] at hclose
  have hpeers : (ofData o.closed d).peers =
      (d.publish.toList ++ d.subscribeGroup).map fun p => ⟨p.id, o.closed p.id, 0⟩ := by
    cases hp : d.publish <;> simp [peers, ofData, hp]
  have hmap : ∀ ps : List PeerSession,
      (ps.map fun p => (⟨p.id, o.closed p.id, 0⟩ : RTCPeerConnection)).forM (·.closeResult) =
        ps.forM fun p => o.closed p.id := by
    intro ps
    induction ps with
    | nil => rfl
    | cons p ps ih => rw [List.map_cons, List.forM, List.forM, ih]
  rw [hpeers, hmap] at hclose
  rw [hclose]
  rfl

end PeerForwardPeers

/-! ### The table of the streams -/

/-- `Forwarder`: the streams by name, with the connections of each under a handle. -/
structure StreamTable where
  streamMap : ExtTreeMap String ℕ
  forwards : List PeerForwardPeers

namespace StreamTable

/-- `PeerForward::close` of the stream with handle `h`, whose result is dropped. -/
def close (t : StreamTable) (h : ℕ) : StreamTable :=
  { t with forwards := t.forwards.modify h fun w => w.close.2 }

/-- `Forwarder::stream_delete`. -/
def streamDelete (t : StreamTable) (stream : String) : Except String StreamTable :=
  match t.streamMap[stream]? with
  | none => .error "stream not exists"
  | some h =>
      let t := t.close h
      .ok { t with streamMap := t.streamMap.erase stream }

variable {t t' : StreamTable} {stream : String}

lemma streamDelete_eq_ok_iff : t.streamDelete stream = .ok t' ↔
    ∃ h, t.streamMap[stream]? = some h ∧
      t' = { t.close h with streamMap := t.streamMap.erase stream } := by
  rw [streamDelete]
  cases t.streamMap[stream]? with
  | none => simp
  | some h => simp [eq_comm, close]

/-- The table with the publishers only has the same streams, and the same slots are taken. -/
structure Tracks (f : Forwarder) (t : StreamTable) : Prop where
  streamMap : t.streamMap = f.streamMap
  forwards : (t.forwards.map fun w => (w.stream, w.publish.isSome)) =
    f.forwards.map fun w => (w.stream, w.publish.isSome)

/-- Nobody leaves the stream by a call of `close` alone. -/
lemma isSome_publish_close (w : PeerForwardPeers) :
    (w.close.2.stream, w.close.2.publish.isSome) = (w.stream, w.publish.isSome) := by
  cases w with
  | mk stream publish subscribeGroup =>
      cases publish with
      | none => rfl
      | some peer =>
          simp only [PeerForwardPeers.close]
          cases peer.closeResult <;> rfl

/-- **A deletion in the two tables**: it succeeds in both or in none, with the same error, and what
it leaves has the same streams and slots. -/
theorem tracks_streamDelete {f : Forwarder} (htracks : Tracks f t) (stream : String) :
    match f.streamDelete stream, t.streamDelete stream with
    | .ok f', .ok t' => Tracks f' t'
    | .error e, .error e' => e = e'
    | _, _ => False := by
  rw [Forwarder.streamDelete, streamDelete, htracks.streamMap]
  cases f.streamMap[stream]? with
  | none => rfl
  | some h =>
      refine ⟨?_, ?_⟩
      · change t.streamMap.erase stream = (f.close h).streamMap.erase stream
        rw [Forwarder.close_streamMap, htracks.streamMap]
      · change (t.forwards.modify h fun w => w.close.2).map _ = (f.close h).forwards.map _
        rw [Forwarder.close_forwards, ← htracks.forwards]
        refine List.ext_getElem? fun k => ?_
        rw [List.getElem?_map, List.getElem?_map, List.getElem?_modify]
        cases t.forwards[k]? with
        | none => rfl
        | some w =>
            by_cases hk : h = k
            · simp only [hk, if_true, Option.map_eq_map, Option.map_some]
              exact congrArg some (isSome_publish_close w)
            · simp [hk]

/-! ### Who is closed -/

/-- A deletion of the stream that returns `Ok` has called `close` on every connection of the
stream, and the stream is no longer in the table. -/
def ClosesEverybody (t : StreamTable) (stream : String) : Prop :=
  ∀ t', t.streamDelete stream = .ok t' → stream ∉ t'.streamMap ∧
    ∀ h w, t.streamMap[stream]? = some h → t.forwards[h]? = some w →
      ∃ w', t'.forwards[h]? = some w' ∧ w'.peers = w.peers.map RTCPeerConnection.closed

/-- The calls of `close` on the connections of the stream fail for none but the last. -/
def OnlyLastFails (t : StreamTable) (stream : String) : Prop :=
  ∀ h w, t.streamMap[stream]? = some h → t.forwards[h]? = some w →
    ∀ peer ∈ w.peers.dropLast, peer.closeResult = .ok ()

/-- **Deletions close everybody**: a deletion of a stream that returns `Ok` has called `close` on
the publisher and on every subscriber, if and only if the calls fail for none of them but the
last one. -/
theorem closesEverybody_iff (t : StreamTable) (stream : String) :
    t.ClosesEverybody stream ↔ t.OnlyLastFails stream := by
  constructor
  · intro hcloses h w hh hw
    obtain ⟨w', hw', hpeers⟩ :=
      (hcloses _ (streamDelete_eq_ok_iff.mpr ⟨h, hh, rfl⟩)).2 h w hh hw
    have hclose : w' = w.close.2 := by
      simpa [close, hw, eq_comm] using hw'
    exact w.peers_close_iff.mp (hclose ▸ hpeers)
  · intro hlast t' ht'
    obtain ⟨h, hh, rfl⟩ := streamDelete_eq_ok_iff.mp ht'
    refine ⟨by simp, fun k w hk hw => ⟨w.close.2, ?_, w.peers_close_iff.mpr (hlast k w hk hw)⟩⟩
    obtain rfl := Option.some.inj (hh.symm.trans hk)
    simp [close, hw]

/-- A stream with a publisher that cannot be closed, and a subscriber. -/
def stuckPublisher : StreamTable where
  streamMap := (∅ : ExtTreeMap String ℕ).insert "live" 0
  forwards := [⟨"live",
    some ⟨"publisher", .error (.internalServerError "data channel closed"), 0⟩,
    [⟨"subscriber", .ok (), 0⟩]⟩]

/-- The deletion of this stream returns `Ok`, and the subscriber is not closed. -/
theorem not_closesEverybody_stuckPublisher :
    ¬ stuckPublisher.ClosesEverybody "live" ∧
      ∃ t', stuckPublisher.streamDelete "live" = .ok t' ∧ "live" ∉ t'.streamMap ∧
        t'.forwards.map (fun w => w.peers.map fun peer => (peer.id, peer.closeCalls)) =
          [[("publisher", 1), ("subscriber", 0)]] := by
  refine ⟨fun h => ?_, _, rfl, by decide, rfl⟩
  obtain ⟨w', hw', hpeers⟩ := (h _ rfl).2 0 _ rfl rfl
  obtain rfl := Option.some.inj hw'
  have hcalls := congrArg (List.map RTCPeerConnection.closeCalls) hpeers
  revert hcalls
  decide

end StreamTable

end SfuServer
