import SfuServer.Rtc.Binding

/-!
The feedback of the subscribers of a stream on its way to the publisher: `RtcpMessage` of
`src/forward/rtc/rtcp.rs`, `sender_forward_rtcp` of `src/forward/rtc/subscribe.rs` and
`peer_send_rtcp` of `src/forward/rtc/publish.rs`.

A stream has any number of subscriptions, and publishers one after the other.  The packets that a
subscriber sends are read several at a time, and for each of them a message goes on the channel of
the stream for every published track that the subscriber is bound to; a loop that goes over to a
track asks for a key frame on the same channel.  For every publisher a task takes the messages
from the channel, and writes them as packets on the publisher's connection.

* `fromRtcpPacket`, `toRtcpPacket`: the two conversions, and what they keep of a packet
  (`fromRtcpPacket_toRtcpPacket`, `toRtcpPacket_eq_iff`);
* `RtcpSystem`, `RtcpAction`, `rtcpMachine`: a stream with its subscriptions and publishers, and
  what can happen to them;
* `Asks`: the feedback that a step asks for;
* `asks_of_step`: every step puts on the channel what it asks for, and nothing else;
* `feedback_in_order`: what is written on a publisher's connection is a first part of the feedback
  that was asked for since the publisher came.
-/

open Std (ExtTreeMap)

namespace SfuServer

/-! ### The packets -/

/-- An entry of a request for a full frame. -/
structure FirEntry where
  ssrc : UInt32
  sequenceNumber : UInt8
  deriving DecidableEq, Repr

/-- An entry that tells of lost slices. -/
structure SliEntry where
  first : UInt16
  number : UInt16
  picture : UInt8
  deriving DecidableEq, Repr

/-- The packets of the package `webrtc`: those that the program tells apart, and the others. -/
inductive RtcpPacket where
  | fullIntraRequest (senderSsrc mediaSsrc : UInt32) (fir : List FirEntry)
  | pictureLossIndication (senderSsrc mediaSsrc : UInt32)
  | sliceLossIndication (senderSsrc mediaSsrc : UInt32) (sliEntries : List SliEntry)
  | other (packet : Bytes)
  deriving DecidableEq, Repr

namespace RtcpMessage

/-- `RtcpMessage::from_rtcp_packet`. -/
def fromRtcpPacket : RtcpPacket → Option RtcpMessage
  | .fullIntraRequest .. => some .fullIntraRequest
  | .pictureLossIndication .. => some .pictureLossIndication
  | .sliceLossIndication .. => some .sliceLossIndication
  | .other _ => none

/-- `RtcpMessage::to_rtcp_packet`. -/
def toRtcpPacket (msg : RtcpMessage) (ssrc : UInt32) : RtcpPacket :=
  match msg with
  | .fullIntraRequest => .fullIntraRequest 0 ssrc []
  | .pictureLossIndication => .pictureLossIndication 0 ssrc
  | .sliceLossIndication => .sliceLossIndication 0 ssrc []

/-- A message comes back from its packet. -/
@[simp] lemma fromRtcpPacket_toRtcpPacket (msg : RtcpMessage) (ssrc : UInt32) :
    fromRtcpPacket (msg.toRtcpPacket ssrc) = some msg := by
  cases msg <;> rfl

end RtcpMessage

namespace RtcpPacket

/-- The packet carries nothing but its kind and the ssrc of the track. -/
def Bare (ssrc : UInt32) : RtcpPacket → Prop
  | fullIntraRequest senderSsrc mediaSsrc fir => senderSsrc = 0 ∧ mediaSsrc = ssrc ∧ fir = []
  | pictureLossIndication senderSsrc mediaSsrc => senderSsrc = 0 ∧ mediaSsrc = ssrc
  | sliceLossIndication senderSsrc mediaSsrc sliEntries =>
      senderSsrc = 0 ∧ mediaSsrc = ssrc ∧ sliEntries = []
  | other _ => False

/-- A packet comes through unchanged exactly if it carries nothing but its kind and the ssrc: the
entries that say which frame or which slices are meant are lost. -/
lemma toRtcpPacket_eq_iff {p : RtcpPacket} {msg : RtcpMessage} {ssrc : UInt32}
    (h : RtcpMessage.fromRtcpPacket p = some msg) : msg.toRtcpPacket ssrc = p ↔ p.Bare ssrc := by
  cases p with
  | fullIntraRequest senderSsrc mediaSsrc fir =>
      obtain rfl := Option.some.inj h
      rw [RtcpMessage.toRtcpPacket, fullIntraRequest.injEq, Bare]
      simp only [eq_comm]
  | pictureLossIndication senderSsrc mediaSsrc =>
      obtain rfl := Option.some.inj h
      rw [RtcpMessage.toRtcpPacket, pictureLossIndication.injEq, Bare]
      simp only [eq_comm]
  | sliceLossIndication senderSsrc mediaSsrc sliEntries =>
      obtain rfl := Option.some.inj h
      rw [RtcpMessage.toRtcpPacket, sliceLossIndication.injEq, Bare]
      simp only [eq_comm]
  | other packet => cases h

end RtcpPacket

/-! ### The stream -/

/-- A task `sender_forward_rtcp`: its state, and the packets that it has read and not looked at,
with the rid that was bound when it read them.  The guard that it holds on the bound rids until
it has looked at all of them is left out, so that more orders are possible. -/
structure RtcpReader where
  status : TaskStatus
  rid : String
  packets : List RtcpPacket

/-- A subscription with its tasks for feedback. -/
structure Subscription where
  base : SubscribeSystem
  readers : RTPCodecType → Option RtcpReader

/-- A task `peer_send_rtcp`: its state, whether its peer is there, and the packets that it has
written on the connection. -/
structure RtcpWriter where
  status : TaskStatus
  connected : Bool
  written : List RtcpPacket

/-- A stream: the published tracks, the channel for feedback with the receiver 0 that the stream
holds and one for each publisher, the subscriptions, the tasks of the publishers so far, and
whether the stream is gone.  The tracks and the channel that a subscription knows are these. -/
structure RtcpSystem where
  publishTracks : List PublishTrackRemote
  publishRtcp : Broadcast (RtcpMessage × UInt32)
  subscriptions : List Subscription
  writers : List RtcpWriter
  dropped : Bool

/-- What can happen: somebody subscribes, a publisher comes, a track comes up, the tracks go, a
subscription takes a step that has nothing to do with reading feedback, one of its tasks reads
packets, or fails to, and forwards the next of them, the task of a publisher takes a turn, where
the write succeeds or not, and the peer of a publisher, or the stream, is dropped. -/
inductive RtcpAction where
  | subscribe (kinds : List RTPCodecType)
  | publish
  | publishTrackUp (track : PublishTrackRemote)
  | publishTracksClear
  | loop (i : ℕ) (a : SubscribeAction)
  | read (i : ℕ) (k : RTPCodecType) (packets : Option (List RtcpPacket))
  | forward (i : ℕ) (k : RTPCodecType)
  | write (j : ℕ) (written : Bool)
  | dropPeer (j : ℕ)
  | dropForward

/-- The steps of a subscription that it takes on its own, and that read no feedback. -/
def SubscribeAction.own : SubscribeAction → Bool
  | .selectKindRid _ | .drain | .trackChange .. | .rtp .. | .selectLayer .. | .dropSender => true
  | .publishTrackUp _ | .publishTracksClear | .rtcp .. | .rtcpErr _ | .dropForward => false

/-- A change of a task for feedback. -/
def Subscription.setReader (c : Subscription) (k : RTPCodecType) (r : RtcpReader) :
    Subscription :=
  { c with readers := Function.update c.readers k (some r) }

/-- Everything of the subscription that can send feedback has ended. -/
def Subscription.ended (c : Subscription) : Bool :=
  [RTPCodecType.video, .audio].all fun k =>
    (c.base.loops k).all (·.ended.isSome) && (c.readers k).all (·.status ≠ .running)

namespace RtcpSystem

/-- A stream without tracks, subscriptions and publishers. -/
def new : RtcpSystem where
  publishTracks := []
  publishRtcp := (Broadcast.new 64).subscribe 0
  subscriptions := []
  writers := []
  dropped := false

/-- A subscription, with the tracks and the channel of the stream. -/
def view (s : RtcpSystem) (c : Subscription) : SubscribeSystem :=
  { c.base with publishTracks := s.publishTracks, publishRtcp := s.publishRtcp }

/-- A change of a subscription. -/
def setSubscription (s : RtcpSystem) (i : ℕ) (c : Subscription) : RtcpSystem :=
  { s with subscriptions := s.subscriptions.set i c }

/-- `publish_tracks_change.send`. -/
def notify (s : RtcpSystem) : List Subscription :=
  s.subscriptions.map fun c => { c with base := { c.base with
    publishTracksChange := c.base.publishTracksChange.sendIgnore () } }

/-- `SubscribeRTCPeerConnection::new`, with the kinds that have a sender. -/
def subscribeStep (s : RtcpSystem) (kinds : List RTPCodecType) : Option RtcpSystem :=
  if kinds.Sublist [.video, .audio] then
    some { s with subscriptions := s.notify ++ [{
      base := .new s.publishTracks kinds
      readers := fun k => if k ∈ kinds then some ⟨.running, "", []⟩ else none }] }
  else none

/-- `set_publish`: the task of the publisher is spawned. -/
def publishStep (s : RtcpSystem) : RtcpSystem :=
  { s with
    publishRtcp := s.publishRtcp.subscribe (s.writers.length + 1)
    writers := s.writers ++ [⟨.running, true, []⟩] }

/-- `publish_track_up`. -/
def publishTrackUpStep (s : RtcpSystem) (track : PublishTrackRemote) : RtcpSystem :=
  { s with
    publishTracks := (s.publishTracks ++ [track]).insertionSort fun a b => a.rid ≤ b.rid
    subscriptions := s.notify }

/-- The tracks go with the publisher. -/
def publishTracksClearStep (s : RtcpSystem) : RtcpSystem :=
  { s with publishTracks := [], subscriptions := s.notify }

/-- A subscription takes a step on its own. -/
def loopStep (s : RtcpSystem) (i : ℕ) (a : SubscribeAction) : Option RtcpSystem :=
  s.subscriptions[i]?.bind fun c =>
    if a.own then ((s.view c).step a).map fun base =>
      { s with publishRtcp := base.publishRtcp }.setSubscription i { c with base := base }
    else none

/-- `sender_forward_rtcp` reads packets; without a rid that is bound it drops them. -/
def readStep (s : RtcpSystem) (i : ℕ) (k : RTPCodecType) (packets : Option (List RtcpPacket)) :
    Option RtcpSystem :=
  s.subscriptions[i]?.bind fun c => (c.readers k).bind fun r =>
    if r.status = .running ∧ r.packets = [] then
      match packets with
      | none => some (s.setSubscription i (c.setReader k { r with status := .finished }))
      | some packets =>
          match c.base.trackBindingPublishRid[k.toString]? with
          | none => some s
          | some publishRid => some (s.setSubscription i
              (c.setReader k { r with rid := publishRid, packets := packets }))
    else none

/-- The messages for the published tracks of a kind with a rid. -/
def messages (s : RtcpSystem) (k : RTPCodecType) (publishRid : String) (msg : RtcpMessage) :
    List (RtcpMessage × UInt32) :=
  (s.publishTracks.filter fun t => t.kind = k ∧ t.rid = publishRid).map fun t => (msg, t.ssrc)

/-- `sender_forward_rtcp` looks at the next of its packets.  The task ends when a message finds no
receiver. -/
def forwardStep (s : RtcpSystem) (i : ℕ) (k : RTPCodecType) : Option RtcpSystem :=
  s.subscriptions[i]?.bind fun c => (c.readers k).bind fun r =>
    if r.status = .running then
      match r.packets with
      | [] => none
      | packet :: packets =>
          let next := s.setSubscription i (c.setReader k { r with packets := packets })
          match RtcpMessage.fromRtcpPacket packet with
          | none => some next
          | some msg =>
              match (s.messages k r.rid msg).foldlM Broadcast.send s.publishRtcp with
              | some publishRtcp => some { next with publishRtcp := publishRtcp }
              | none => some (s.setSubscription i
                  (c.setReader k { r with status := .finished }))
    else none

/-- A change of the task of a publisher. -/
def setWriter (s : RtcpSystem) (j : ℕ) (w : RtcpWriter) : RtcpSystem :=
  { s with writers := s.writers.set j w }

/-- The task of a publisher ends, and its receiver is dropped. -/
def endWriter (s : RtcpSystem) (j : ℕ) (w : RtcpWriter) : RtcpSystem :=
  { s with publishRtcp := s.publishRtcp.unsubscribe (j + 1) }.setWriter j
    { w with status := .finished }

/-- Nobody can send feedback any more. -/
def closed (s : RtcpSystem) : Bool := s.dropped && s.subscriptions.all Subscription.ended

/-- One turn of `peer_send_rtcp`: a message is received before the peer is looked up. -/
def writeStep (s : RtcpSystem) (j : ℕ) (written : Bool) : Option RtcpSystem :=
  s.writers[j]?.bind fun w =>
    if w.status = .running then
      match s.publishRtcp.recv (j + 1) with
      | (.message (msg, mediaSsrc), channel) => some <|
          if w.connected && written then
            { s with publishRtcp := channel }.setWriter j
              { w with written := w.written ++ [msg.toRtcpPacket mediaSsrc] }
          else s.endWriter j w
      | (.lagged _, _) => some (s.endWriter j w)
      | (.empty, _) => if s.closed then some (s.endWriter j w) else none
    else none

/-- The stream is dropped, with what selects the layers of its subscriptions. -/
def dropForwardStep (s : RtcpSystem) : RtcpSystem :=
  { s with
    publishRtcp := s.publishRtcp.unsubscribe 0
    subscriptions := s.subscriptions.map fun c =>
      { c with base := { c.base with senderDropped := true } }
    dropped := true }

/-- One step of the system. -/
def step (s : RtcpSystem) : RtcpAction → Option RtcpSystem
  | .subscribe kinds => s.subscribeStep kinds
  | .publish => some s.publishStep
  | .publishTrackUp track => some (s.publishTrackUpStep track)
  | .publishTracksClear => some s.publishTracksClearStep
  | .loop i a => s.loopStep i a
  | .read i k packets => s.readStep i k packets
  | .forward i k => s.forwardStep i k
  | .write j written => s.writeStep j written
  | .dropPeer j => s.writers[j]?.map fun w => s.setWriter j { w with connected := false }
  | .dropForward => some s.dropForwardStep

end RtcpSystem

/-- The machine of a stream with its feedback. -/
def rtcpMachine : Machine RtcpSystem RtcpAction where
  init s := s = .new
  step := RtcpSystem.step

/-! ### What a loop does to the channel for feedback -/

namespace SubscribeSystem

variable {s t : SubscribeSystem} {a : SubscribeAction} {k : RTPCodecType} {l l' : ForwardLoop}

/-- The loop of the kind forwards from the track. -/
def Forwards (s : SubscribeSystem) (k : RTPCodecType) (track : PublishTrackRemote) : Prop :=
  ∃ l, s.Runs k l ∧ l.track = some track

/-- On a change of the tracks, the loop goes over to the track: it has none, its kind is not
disabled, the track is the first one of the kind, and the sender takes it. -/
def ChangesTo (s : SubscribeSystem) (k : RTPCodecType) (l : ForwardLoop) (replaced : Bool)
    (track : PublishTrackRemote) : Prop :=
  replaced = true ∧ l.track = none ∧ s.boundRid k ≠ some ridDisable ∧
    firstOf s.publishTracks k = some track

/-- On a request, the loop goes over to the track, be it the one that it has: the rid is not the
one that is bound, the track is the one that the request is for, and the sender takes it.  Where
nobody receives feedback, the loop panics instead. -/
def SelectsTo (s : SubscribeSystem) (k : RTPCodecType) (l : ForwardLoop) (rid : String)
    (replaced : Bool) (track : PublishTrackRemote) : Prop :=
  replaced = true ∧ s.publishRtcp.HasReceiver ∧ s.boundRid k ≠ some rid ∧
    ∃ new, s.newRid k l (s.boundRid k) rid = some new ∧ new ≠ ridDisable ∧
      trackFor s.publishTracks new = some track

/-- In the step, a loop of the kind that runs takes a change of the tracks, or a request, and goes
over to the track. -/
def GoesOver (s : SubscribeSystem) : SubscribeAction → RTPCodecType → PublishTrackRemote → Prop
  | .trackChange j replaced, k, track => j = k ∧ ∃ l, s.Runs k l ∧
      (s.publishTracksChange.recv k.receiver).1 = .message () ∧ s.ChangesTo k l replaced track
  | .selectLayer j replaced, k, track => j = k ∧ ∃ l rid, s.Runs k l ∧
      (s.selectLayer.recv k.receiver).1 = .message (k, rid) ∧ s.SelectsTo k l rid replaced track
  | _, _, _ => False

/-- What a step makes of the channel for feedback, where `goes` says which loop goes over to which
track: nothing, if none does; or a loop goes over to a published track, and asks for a key frame
of it. -/
inductive Switched (s : SubscribeSystem) (goes : RTPCodecType → PublishTrackRemote → Prop)
    (t : SubscribeSystem) : Prop
  | stayed (quiet : ∀ k track, ¬ goes k track) (publishRtcp : t.publishRtcp = s.publishRtcp)
      (forwards : ∀ k track, t.Forwards k track → s.Forwards k track)
  | asked {k : RTPCodecType} {track : PublishTrackRemote} (goes : goes k track)
      (mem : track ∈ s.publishTracks)
      (publishRtcp : t.publishRtcp =
        s.publishRtcp.sendIgnore (.pictureLossIndication, track.ssrc))
      (forwards : t.Forwards k track) (loops : ∀ j ≠ k, t.loops j = s.loops j)

variable {goes goes' : RTPCodecType → PublishTrackRemote → Prop}

lemma Switched.congr (h : s.Switched goes t) (hgoes : ∀ k track, goes k track ↔ goes' k track) :
    s.Switched goes' t := by
  obtain rfl : goes = goes' := funext₂ fun k track => propext (hgoes k track)
  exact h

/-- The loop of a kind changes, and goes over to no other track. -/
lemma Switched.of_loop (quiet : ∀ k track, ¬ goes k track) (hl : s.Runs k l)
    (publishRtcp : t.publishRtcp = s.publishRtcp)
    (loops : t.loops = Function.update s.loops k (some l'))
    (track : l'.ended = none → l'.track = l.track ∨ l'.track = none) : s.Switched goes t := by
  refine .stayed quiet publishRtcp fun j track' hforwards => ?_
  obtain ⟨lj, ⟨hlj, hend⟩, htrack⟩ := hforwards
  rw [loops] at hlj
  by_cases hj : j = k
  · subst hj
    rw [Function.update_self, Option.some.injEq] at hlj
    subst hlj
    rcases track hend with h | h
    · exact ⟨l, hl, h.symm.trans htrack⟩
    · rw [h] at htrack
      cases htrack
  · rw [Function.update_of_ne hj] at hlj
    exact ⟨lj, ⟨hlj, hend⟩, htrack⟩

lemma Switched.of_eq (quiet : ∀ k track, ¬ goes k track)
    (publishRtcp : t.publishRtcp = s.publishRtcp) (loops : t.loops = s.loops) :
    s.Switched goes t := by
  refine .stayed quiet publishRtcp fun k track h => ?_
  obtain ⟨l, ⟨hl, hend⟩, htrack⟩ := h
  exact ⟨l, ⟨loops ▸ hl, hend⟩, htrack⟩

/-- What goes on between other parts comes before. -/
lemma Switched.of_same {r : SubscribeSystem} (h : r.Switched goes t)
    (publishTracks : r.publishTracks = s.publishTracks)
    (publishRtcp : r.publishRtcp = s.publishRtcp) (loops : r.loops = s.loops) :
    s.Switched goes t := by
  cases h with
  | stayed quiet hrtcp hforwards =>
      refine .stayed quiet (hrtcp.trans publishRtcp) fun k track h => ?_
      obtain ⟨l, ⟨hl, hend⟩, htrack⟩ := hforwards k track h
      exact ⟨l, ⟨loops ▸ hl, hend⟩, htrack⟩
  | asked goes mem hrtcp hforwards hloops =>
      exact .asked goes (publishTracks ▸ mem) (publishRtcp ▸ hrtcp) hforwards
        fun j hj => (hloops j hj).trans (by rw [loops])

lemma switched_trackChange (hl : s.Runs k l) (replaced : Bool) :
    s.Switched (fun j track => k = j ∧ s.ChangesTo k l replaced track)
      (s.trackChange k l replaced) := by
  rw [trackChange]
  dsimp only
  split_ifs with hempty hforget htrack hdis hreplaced
  · have hquiet : ∀ j track, ¬ (k = j ∧ s.ChangesTo k l replaced track) := by
      rintro j track ⟨-, -, -, -, hfirst⟩
      rw [firstOf, List.length_eq_zero_iff.mp hempty] at hfirst
      cases hfirst
    exact .of_loop hquiet hl rfl rfl fun _ => .inr rfl
  · have hquiet : ∀ j track, ¬ (k = j ∧ s.ChangesTo k l replaced track) := by
      rintro j track ⟨-, -, -, -, hfirst⟩
      rw [firstOf, List.length_eq_zero_iff.mp hempty] at hfirst
      cases hfirst
    exact .of_loop hquiet hl rfl rfl fun _ => .inr rfl
  · refine .of_eq ?_ rfl rfl
    rintro j track ⟨-, -, hfree, -⟩
    rw [hfree] at htrack
    cases htrack
  · exact .of_eq (fun j track h => h.2.2.2.1 hdis) rfl rfl
  · split
    · rename_i hfind
      refine .of_eq ?_ rfl rfl
      rintro j track ⟨-, -, -, -, hfirst⟩
      rw [firstOf, hfind] at hfirst
      cases hfirst
    · rename_i publishTrack hfind
      exact .asked ⟨rfl, hreplaced, Option.not_isSome_iff_eq_none.mp htrack, hdis, hfind⟩
        (List.mem_of_find?_eq_some hfind) rfl ⟨_, ⟨Function.update_self .., hl.2⟩, rfl⟩
        fun j hj => Function.update_of_ne hj _ _
  · have hquiet : ∀ j track, ¬ (k = j ∧ s.ChangesTo k l replaced track) :=
      fun j track h => hreplaced h.2.1
    split <;> exact .of_eq hquiet rfl rfl

lemma switched_selectRid (hl : s.Runs k l) (current : Option String) (rid : String)
    (replaced : Bool) :
    s.Switched (fun j track => k = j ∧ replaced = true ∧ s.publishRtcp.HasReceiver ∧
      rid ≠ ridDisable ∧ trackFor s.publishTracks rid = some track)
      (s.selectRid k l current rid replaced) := by
  rw [selectRid]
  have hfound : trackFor s.publishTracks rid = s.publishTracks.find? fun t =>
      t.kind = .video ∧ (t.rid = rid ∨ rid = ridEnable) := rfl
  rw [hfound]
  split_ifs with hdis hcurrent hreplaced
  · exact .of_loop (fun _ _ h => h.2.2.2.1 hdis) hl rfl rfl fun _ => .inr rfl
  · exact .of_loop (fun _ _ h => h.2.2.2.1 hdis) hl rfl rfl fun _ => .inl rfl
  · split
    · rename_i hfind
      refine .of_eq ?_ rfl rfl
      rintro j track ⟨-, -, -, -, hhit⟩
      rw [hfind] at hhit
      cases hhit
    · rename_i publishTrack hfind
      dsimp only
      split
      · -- nobody hears the request for a key frame, and the loop panics
        rename_i hsend
        have hdeaf := (s.publishRtcp.send_eq_none_iff _).mp hsend
        exact .of_loop (fun _ _ h => hdeaf h.2.2.1) hl rfl rfl fun h => absurd h (by simp)
      · rename_i channel hsend
        have hheard := ((s.publishRtcp.send_eq_some_iff _).mp hsend).1
        refine .asked ⟨rfl, hreplaced, hheard, hdis, hfind⟩ (List.mem_of_find?_eq_some hfind) ?_
          ⟨_, ⟨Function.update_self .., hl.2⟩, rfl⟩ fun j hj => Function.update_of_ne hj _ _
        rw [Broadcast.sendIgnore, hsend]
        rfl
  · split <;> exact .of_eq (fun _ _ h => hreplaced h.2.1) rfl rfl

lemma switched_select (hl : s.Runs k l) (rid : String) (replaced : Bool) :
    s.Switched (fun j track => k = j ∧ s.SelectsTo k l rid replaced track)
      (s.select k l rid replaced) := by
  have hcurrent : s.trackBindingPublishRid[k.toString]? = s.boundRid k := rfl
  rw [SubscribeSystem.select]
  simp only [hcurrent]
  by_cases hsame : s.boundRid k = some rid
  · rw [if_pos hsame]
    exact .of_eq (fun _ _ h => h.2.2.2.1 hsame) rfl rfl
  rw [if_neg hsame]
  cases hnew : s.newRid k l (s.boundRid k) rid with
  | none =>
      have hquiet : ∀ j track, ¬ (k = j ∧ s.SelectsTo k l rid replaced track) := by
        rintro j track ⟨-, -, -, -, new, hsome, -⟩
        rw [hnew] at hsome
        cases hsome
      dsimp only
      split_ifs <;> exact .of_eq hquiet rfl rfl
  | some new =>
      have hgoes : ∀ j track, (k = j ∧ replaced = true ∧ s.publishRtcp.HasReceiver ∧
          new ≠ ridDisable ∧ trackFor s.publishTracks new = some track) ↔
            (k = j ∧ s.SelectsTo k l rid replaced track) := by
        intro j track
        simp [SelectsTo, hsame, hnew]
      dsimp only
      split_ifs
      · have h := switched_selectRid (s := { s with
          trackBindingPublishRid := s.trackBindingPublishRid.erase k.toString })
          hl (s.boundRid k) new replaced
        exact (h.of_same (s := s) rfl rfl rfl).congr hgoes
      · exact (switched_selectRid hl _ _ _).congr hgoes

/-- **A loop that goes over to a track asks for a key frame of it**, and for nothing else. -/
lemma switched_of_step (ha : a.own) (hst : s.step a = some t) :
    s.Switched (s.GoesOver a) t := by
  cases a with
  | selectKindRid rid =>
      obtain ⟨-, hst⟩ := Option.ite_none_left_eq_some.mp hst
      cases hst
      exact .of_eq (fun _ _ => id) rfl rfl
  | drain =>
      obtain ⟨-, hst⟩ := Option.ite_none_right_eq_some.mp hst
      split at hst
      · cases hst
        exact .of_eq (fun _ _ => id) rfl rfl
      · cases hst
        exact .of_eq (fun _ _ => id) rfl rfl
      · obtain ⟨-, hst⟩ := Option.ite_none_right_eq_some.mp hst
        cases hst
        exact .of_eq (fun _ _ => id) rfl rfl
  | trackChange k replaced =>
      obtain ⟨l, hl, hend, hst⟩ := onLoop_eq_some_iff.mp hst
      split at hst
      · cases hst
      · rename_i n channel hrecv
        cases hst
        refine .of_eq ?_ rfl rfl
        rintro j track ⟨rfl, l', -, hmessage, -⟩
        rw [hrecv] at hmessage
        cases hmessage
      · rename_i channel hrecv
        cases hst
        have h := switched_trackChange (s := { s with publishTracksChange := channel })
          ⟨hl, hend⟩ replaced
        refine (h.of_same (s := s) rfl rfl rfl).congr fun j track => and_congr_right ?_
        rintro rfl
        refine ⟨fun hto => ⟨l, ⟨hl, hend⟩, congrArg Prod.fst hrecv, hto⟩, ?_⟩
        rintro ⟨l', hl', -, hto⟩
        obtain rfl := Option.some.inj (hl'.1.symm.trans hl)
        exact hto
  | rtp k received written =>
      obtain ⟨l, hl, hend, hst⟩ := onLoop_eq_some_iff.mp hst
      split_ifs at hst
      · cases hst
        exact .of_loop (fun _ _ => id) ⟨hl, hend⟩ rfl rfl fun _ => .inl rfl
      · cases hst
        exact .of_loop (fun _ _ => id) ⟨hl, hend⟩ rfl rfl fun h => absurd h (by simp)
      · cases hst
        exact .of_eq (fun _ _ => id) rfl rfl
  | selectLayer k replaced =>
      obtain ⟨l, hl, hend, hst⟩ := onLoop_eq_some_iff.mp hst
      have hquiet : (∀ rid, (s.selectLayer.recv k.receiver).1 ≠ .message (k, rid)) →
          ∀ j track, ¬ s.GoesOver (.selectLayer k replaced) j track := by
        rintro hother j track ⟨rfl, l', rid, -, hmessage, -⟩
        exact hother rid hmessage
      have hended : (∀ rid, (s.selectLayer.recv k.receiver).1 ≠ .message (k, rid)) →
          ∀ cause, s.Switched (s.GoesOver (.selectLayer k replaced)) (s.endLoop k l cause) :=
        fun hother cause =>
          .of_loop (hquiet hother) ⟨hl, hend⟩ rfl rfl fun h => absurd h (by simp)
      split at hst
      · rename_i hrecv
        obtain ⟨-, hst⟩ := Option.ite_none_right_eq_some.mp hst
        cases hst
        exact hended (by simp [hrecv]) _
      · rename_i hrecv
        cases hst
        exact hended (by simp [hrecv]) _
      · rename_i kind rid channel hrecv
        cases hst
        have h := switched_select (s := { s with selectLayer := channel }) ⟨hl, hend⟩ rid replaced
        split_ifs with hkind
        · exact .of_eq (hquiet (by simp [hrecv, hkind])) rfl rfl
        · obtain rfl := not_not.mp hkind
          refine (h.of_same (s := s) rfl rfl rfl).congr fun j track => and_congr_right ?_
          rintro rfl
          refine ⟨fun hto => ⟨l, rid, ⟨hl, hend⟩, congrArg Prod.fst hrecv, hto⟩, ?_⟩
          rintro ⟨l', rid', hl', hmessage, hto⟩
          obtain rfl := Option.some.inj (hl'.1.symm.trans hl)
          rw [hrecv] at hmessage
          cases hmessage
          exact hto
  | dropSender =>
      cases hst
      exact .of_eq (fun _ _ => id) rfl rfl
  | publishTrackUp | publishTracksClear | rtcp | rtcpErr | dropForward => cases ha

/-- A loop goes over to one track at most. -/
lemma GoesOver.unique {j : RTPCodecType} {track track' : PublishTrackRemote}
    (h : s.GoesOver a k track) (h' : s.GoesOver a j track') : track = track' := by
  cases a with
  | trackChange i replaced =>
      obtain ⟨rfl, l, -, -, -, -, -, hfirst⟩ := h
      obtain ⟨rfl, l', -, -, -, -, -, hfirst'⟩ := h'
      exact Option.some.inj (hfirst.symm.trans hfirst')
  | selectLayer i replaced =>
      obtain ⟨rfl, l, rid, ⟨hl, -⟩, hmessage, -, -, -, new, hnew, -, hhit⟩ := h
      obtain ⟨rfl, l', rid', ⟨hl', -⟩, hmessage', -, -, -, new', hnew', -, hhit'⟩ := h'
      obtain rfl := Option.some.inj (hl.symm.trans hl')
      rw [hmessage] at hmessage'
      cases hmessage'
      rw [hnew] at hnew'
      cases hnew'
      exact Option.some.inj (hhit.symm.trans hhit')
  | selectKindRid | drain | publishTrackUp | publishTracksClear | rtp | rtcp | rtcpErr
  | dropSender | dropForward => exact h.elim

end SubscribeSystem

/-! ### What is asked for -/

namespace RtcpSystem

variable {s₀ s t : RtcpSystem} {as : List RtcpAction} {a : RtcpAction} {i j : ℕ}
  {k : RTPCodecType} {w w' : RtcpWriter} {ms ms' : List (RtcpMessage × UInt32)}

/-- As long as the rid stays bound, the messages of a packet are those that the subscription by
itself sends for it. -/
lemma messages_eq_feedback {c : Subscription} {publishRid : String}
    (h : c.base.boundRid k = some publishRid) (msg : RtcpMessage) :
    s.messages k publishRid msg = (s.view c).feedback k msg := by
  have hview : (s.view c).trackBindingPublishRid[k.toString]? = some publishRid := h
  rw [messages, SubscribeSystem.feedback, hview]
  rfl

/-- The loop of a subscription forwards from the track. -/
def Forwards (s : RtcpSystem) (i : ℕ) (k : RTPCodecType) (track : PublishTrackRemote) : Prop :=
  ∃ c, s.subscriptions[i]? = some c ∧ c.base.Forwards k track

/-- The feedback that a step asks for: that of a packet which a task looks at, for every published
track that it was bound to when it read the packet; a key frame, when a loop goes over to a
published track, as the only one; and otherwise none, where no loop goes over to a track. -/
inductive Asks (s : RtcpSystem) :
    RtcpAction → RtcpSystem → List (RtcpMessage × UInt32) → Prop
  | packet {i : ℕ} {k : RTPCodecType} {t : RtcpSystem} {c : Subscription} {r : RtcpReader}
      {packet : RtcpPacket} {packets : List RtcpPacket}
      (subscription : s.subscriptions[i]? = some c) (reader : c.readers k = some r)
      (reads : r.packets = packet :: packets) :
      Asks s (.forward i k) t
        ((RtcpMessage.fromRtcpPacket packet).toList.flatMap (s.messages k r.rid))
  | keyFrame {i : ℕ} {a : SubscribeAction} {k : RTPCodecType} {t : RtcpSystem}
      {c : Subscription} {track : PublishTrackRemote}
      (subscription : s.subscriptions[i]? = some c) (goes : (s.view c).GoesOver a k track)
      (mem : track ∈ s.publishTracks) (forwards : t.Forwards i k track)
      (others : ∀ i' k' track', t.Forwards i' k' track' → (i', k') ≠ (i, k) →
        s.Forwards i' k' track') :
      Asks s (.loop i a) t [(.pictureLossIndication, track.ssrc)]
  | nothing {a : RtcpAction} {t : RtcpSystem} (looks : ∀ i k, a ≠ .forward i k)
      (stays : ∀ i b c k track, a = .loop i b → s.subscriptions[i]? = some c →
        ¬ (s.view c).GoesOver b k track)
      (forwards : ∀ i k track, t.Forwards i k track → s.Forwards i k track) : Asks s a t []

/-- What a step makes of the task of a publisher and of the channel for feedback: a message is
received and written, the task ends, or something goes on beside it. -/
inductive Writes (s : RtcpSystem) (j : ℕ) (w : RtcpWriter) (t : RtcpSystem) : RtcpWriter → Prop
  | wrote {m : RtcpMessage × UInt32} (running : w.status = .running)
      (received : (s.publishRtcp.recv (j + 1)).1 = .message m)
      (channel : t.publishRtcp = (s.publishRtcp.recv (j + 1)).2) :
      Writes s j w t { w with written := w.written ++ [m.1.toRtcpPacket m.2] }
  | ended {w' : RtcpWriter} (status : w'.status ≠ .running) (written : w'.written = w.written) :
      Writes s j w t w'
  | beside {w' : RtcpWriter} (status : w'.status = w.status) (written : w'.written = w.written)
      (follows : s.publishRtcp.Follows t.publishRtcp (j + 1)) : Writes s j w t w'

/-- What a step makes of the tasks of the publishers: they stay, one of them takes a turn, or a new
one comes. -/
inductive Turn (s : RtcpSystem) : RtcpAction → RtcpSystem → Prop
  | stayed {a : RtcpAction} {t : RtcpSystem} (writers : t.writers = s.writers)
      (follows : ∀ j, s.publishRtcp.Follows t.publishRtcp (j + 1)) : Turn s a t
  | turned {a : RtcpAction} {t : RtcpSystem} {j : ℕ} {w w' : RtcpWriter}
      (writer : s.writers[j]? = some w) (writers : t.writers = s.writers.set j w')
      (writes : s.Writes j w t w')
      (follows : ∀ j' ≠ j, s.publishRtcp.Follows t.publishRtcp (j' + 1)) : Turn s a t
  | came : Turn s .publish s.publishStep

/-- A subscription changes: a loop that forwards is one of its loops, or was there before. -/
lemma Forwards.of_set {c c' : Subscription} {i' : ℕ} {track : PublishTrackRemote}
    (hc : s.subscriptions[i]? = some c) (ht : t.subscriptions = s.subscriptions.set i c')
    (h : t.Forwards i' k track) :
    i' = i ∧ c'.base.Forwards k track ∨ i' ≠ i ∧ s.Forwards i' k track := by
  obtain ⟨d, hd, hforwards⟩ := h
  rw [ht] at hd
  by_cases hi : i' = i
  · subst hi
    rw [List.getElem?_set_self (List.getElem?_eq_some_iff.mp hc).1, Option.some.injEq] at hd
    exact .inl ⟨rfl, hd ▸ hforwards⟩
  · rw [List.getElem?_set_ne (Ne.symm hi)] at hd
    exact .inr ⟨hi, d, hd, hforwards⟩

/-- A subscription changes, and its loops go over to no other track. -/
lemma forwards_setSubscription {c c' : Subscription} (hc : s.subscriptions[i]? = some c)
    (ht : t.subscriptions = s.subscriptions.set i c')
    (hforwards : ∀ k track, c'.base.Forwards k track → c.base.Forwards k track) :
    ∀ i k track, t.Forwards i k track → s.Forwards i k track := by
  intro i' k track h
  rcases h.of_set hc ht with ⟨rfl, h⟩ | ⟨-, h⟩
  · exact ⟨c, hc, hforwards k track h⟩
  · exact h

/-- Every subscription is told of a change, and their loops stay. -/
lemma forwards_map {f : Subscription → Subscription}
    (ht : t.subscriptions = s.subscriptions.map f) (hf : ∀ c, (f c).base.loops = c.base.loops) :
    ∀ i k track, t.Forwards i k track → s.Forwards i k track := by
  intro i k track h
  obtain ⟨d, hd, l, ⟨hl, hend⟩, htrack⟩ := h
  rw [ht, List.getElem?_map] at hd
  obtain ⟨c, hc, rfl⟩ := Option.map_eq_some_iff.mp hd
  exact ⟨c, hc, l, ⟨hf c ▸ hl, hend⟩, htrack⟩

/-- A new subscription forwards nothing. -/
lemma not_forwards_new (tracks : List PublishTrackRemote) (kinds : List RTPCodecType)
    (k : RTPCodecType) (track : PublishTrackRemote) :
    ¬ (SubscribeSystem.new tracks kinds).Forwards k track := by
  have hfold : ∀ (ks : List RTPCodecType) (r : SubscribeSystem),
      (∀ k l, r.loops k = some l → l.track = none) →
      ∀ k l, (ks.foldl SubscribeSystem.spawnLoop r).loops k = some l → l.track = none := by
    intro ks
    induction ks with
    | nil => exact fun r hr => hr
    | cons j ks ih =>
        refine fun r hr => ih _ fun k l hl => ?_
        by_cases hk : k = j
        · subst hk
          have heq : l = ⟨none, none, none, 0, none⟩ := by
            simpa [SubscribeSystem.spawnLoop, SubscribeSystem.setLoop, eq_comm] using hl
          rw [heq]
        · exact hr k l (by simpa [SubscribeSystem.spawnLoop, SubscribeSystem.setLoop, hk] using hl)
  rintro ⟨l, ⟨hl, -⟩, htrack⟩
  have hnone := hfold kinds (.channels tracks) (fun k l hl => by cases hl) k l hl
  rw [hnone] at htrack
  cases htrack

/-- **A step puts on the channel what it asks for**, as long as somebody receives it. -/
lemma asks_of_step (hst : s.step a = some t) : ∃ ms, s.Asks a t ms ∧
    (s.publishRtcp.HasReceiver → t.publishRtcp.log = s.publishRtcp.log ++ ms) := by
  -- a step without feedback
  have hquiet : (∀ i k, a ≠ .forward i k) → (∀ i b, a ≠ .loop i b) →
      (∀ i k track, t.Forwards i k track → s.Forwards i k track) →
      t.publishRtcp.log = s.publishRtcp.log → ∃ ms, s.Asks a t ms ∧
        (s.publishRtcp.HasReceiver → t.publishRtcp.log = s.publishRtcp.log ++ ms) :=
    fun hlooks hloop hforwards hlog => ⟨[], .nothing hlooks
      (fun i b _ _ _ hab _ => absurd hab (hloop i b)) hforwards, fun _ => by simp [hlog]⟩
  cases a with
  | subscribe kinds =>
      obtain ⟨-, hst⟩ := Option.ite_none_right_eq_some.mp hst
      cases hst
      refine hquiet (by simp) (by simp) (fun i k track h => ?_) rfl
      obtain ⟨c, hc, hforwards⟩ := h
      rcases Vec.getElem?_concat_cases hc with ⟨-, rfl⟩ | hc
      · exact absurd hforwards (not_forwards_new _ _ k track)
      · exact forwards_map (t := { s with subscriptions := s.notify }) rfl (fun _ => rfl) i k
          track ⟨c, hc, hforwards⟩
  | publish =>
      cases hst
      exact hquiet (by simp) (by simp) (fun _ _ _ h => h) rfl
  | publishTrackUp track =>
      cases hst
      exact hquiet (by simp) (by simp) (forwards_map rfl fun _ => rfl) rfl
  | publishTracksClear =>
      cases hst
      exact hquiet (by simp) (by simp) (forwards_map rfl fun _ => rfl) rfl
  | loop i a =>
      obtain ⟨c, hc, hst⟩ := Option.bind_eq_some_iff.mp hst
      obtain ⟨hown, hst⟩ := Option.ite_none_right_eq_some.mp hst
      obtain ⟨base, hbase, rfl⟩ := Option.map_eq_some_iff.mp hst
      have hlt := (List.getElem?_eq_some_iff.mp hc).1
      cases SubscribeSystem.switched_of_step hown hbase with
      | stayed quiet publishRtcp forwards =>
          refine ⟨[], .nothing (by simp) (fun i' b d k track hab hd => ?_)
            (forwards_setSubscription hc rfl forwards), fun _ => ?_⟩
          · cases hab
            obtain rfl := Option.some.inj (hc.symm.trans hd)
            exact quiet k track
          · rw [setSubscription, publishRtcp, List.append_nil]
            rfl
      | @asked k track goes mem publishRtcp forwards loops =>
          refine ⟨_, .keyFrame (k := k) hc goes mem ⟨_, List.getElem?_set_self hlt, forwards⟩
            fun i' k' track' h hne => ?_, fun hreceiver => ?_⟩
          · rcases h.of_set hc rfl with ⟨rfl, l, ⟨hl, hend⟩, htrack⟩ | ⟨-, h⟩
            · have hk : k' ≠ k := fun hk => hne (by rw [hk])
              exact ⟨c, hc, l, ⟨(loops k' hk).symm.trans hl, hend⟩, htrack⟩
            · exact h
          · rw [setSubscription, publishRtcp, Broadcast.sendIgnore, Broadcast.send]
            rw [if_pos (show (s.view c).publishRtcp.HasReceiver from hreceiver)]
            rfl
  | read i k packets =>
      obtain ⟨c, hc, hst⟩ := Option.bind_eq_some_iff.mp hst
      obtain ⟨r, -, hst⟩ := Option.bind_eq_some_iff.mp hst
      obtain ⟨-, hst⟩ := Option.ite_none_right_eq_some.mp hst
      have hset : ∀ r, ∃ ms, s.Asks (.read i k packets) (s.setSubscription i (c.setReader k r)) ms ∧
          (s.publishRtcp.HasReceiver →
            (s.setSubscription i (c.setReader k r)).publishRtcp.log = s.publishRtcp.log ++ ms) :=
        fun r => ⟨[], .nothing (by simp) (by simp) (forwards_setSubscription hc rfl fun _ _ h => h),
          fun _ => (List.append_nil _).symm⟩
      split at hst
      · cases hst
        exact hset _
      · split at hst
        · cases hst
          exact hquiet (by simp) (by simp) (fun _ _ _ h => h) rfl
        · cases hst
          exact hset _
  | forward i k =>
      obtain ⟨c, hc, hst⟩ := Option.bind_eq_some_iff.mp hst
      obtain ⟨r, hr, hst⟩ := Option.bind_eq_some_iff.mp hst
      obtain ⟨-, hst⟩ := Option.ite_none_right_eq_some.mp hst
      split at hst
      · cases hst
      · rename_i packet packets hpackets
        refine ⟨_, .packet hc hr hpackets, fun hreceiver => ?_⟩
        dsimp only at hst
        split at hst
        · rename_i hnone
          cases hst
          rw [hnone, Option.toList_none, List.flatMap_nil, List.append_nil]
          rfl
        · rename_i msg hmsg
          obtain ⟨channel, hchannel⟩ :=
            Broadcast.exists_foldlM_send hreceiver (s.messages k r.rid msg)
          rw [hchannel] at hst
          cases hst
          rw [hmsg, Option.toList_some, List.flatMap_singleton]
          exact (Broadcast.foldlM_send_eq_some hchannel).1
  | write j written =>
      obtain ⟨w, -, hst⟩ := Option.bind_eq_some_iff.mp hst
      obtain ⟨-, hst⟩ := Option.ite_none_right_eq_some.mp hst
      have hlog := s.publishRtcp.recv_log (j + 1)
      split at hst
      · rename_i channel hrecv
        rw [hrecv] at hlog
        split_ifs at hst
        · cases hst
          exact hquiet (by simp) (by simp) (fun _ _ _ h => h) hlog
        · cases hst
          exact hquiet (by simp) (by simp) (fun _ _ _ h => h) rfl
      · cases hst
        exact hquiet (by simp) (by simp) (fun _ _ _ h => h) rfl
      · obtain ⟨-, hst⟩ := Option.ite_none_right_eq_some.mp hst
        cases hst
        exact hquiet (by simp) (by simp) (fun _ _ _ h => h) rfl
  | dropPeer j =>
      obtain ⟨w, -, rfl⟩ := Option.map_eq_some_iff.mp hst
      exact hquiet (by simp) (by simp) (fun _ _ _ h => h) rfl
  | dropForward =>
      cases hst
      exact hquiet (by simp) (by simp) (forwards_map rfl fun _ => rfl) rfl

/-- What a step asks for is determined by the step. -/
lemma Asks.unique (h : s.Asks a t ms) (h' : s.Asks a t ms') : ms = ms' := by
  cases h with
  | packet subscription reader reads =>
      cases h' with
      | packet subscription' reader' reads' =>
          obtain rfl := Option.some.inj (subscription.symm.trans subscription')
          obtain rfl := Option.some.inj (reader.symm.trans reader')
          rw [reads] at reads'
          cases reads'
          rfl
      | nothing looks => exact absurd rfl (looks _ _)
  | keyFrame subscription goes mem forwards others =>
      cases h' with
      | keyFrame subscription' goes' =>
          obtain rfl := Option.some.inj (subscription.symm.trans subscription')
          rw [goes.unique goes']
      | nothing looks stays => exact absurd goes (stays _ _ _ _ _ rfl subscription)
  | nothing looks stays forwards =>
      cases h' with
      | packet => exact absurd rfl (looks _ _)
      | keyFrame subscription goes => exact absurd goes (stays _ _ _ _ _ rfl subscription)
      | nothing => rfl

/-! ### What is written -/

lemma turn_of_step (hst : s.step a = some t) : s.Turn a t := by
  cases a with
  | subscribe kinds =>
      obtain ⟨-, hst⟩ := Option.ite_none_right_eq_some.mp hst
      cases hst
      exact .stayed rfl fun _ => .refl _ _
  | publish =>
      cases hst
      exact .came
  | publishTrackUp track =>
      cases hst
      exact .stayed rfl fun _ => .refl _ _
  | publishTracksClear =>
      cases hst
      exact .stayed rfl fun _ => .refl _ _
  | loop i a =>
      obtain ⟨c, hc, hst⟩ := Option.bind_eq_some_iff.mp hst
      obtain ⟨hown, hst⟩ := Option.ite_none_right_eq_some.mp hst
      obtain ⟨base, hbase, rfl⟩ := Option.map_eq_some_iff.mp hst
      refine .stayed rfl fun j => ?_
      cases SubscribeSystem.switched_of_step hown hbase with
      | stayed quiet publishRtcp forwards =>
          rw [setSubscription, publishRtcp]
          exact .refl _ _
      | asked goes mem publishRtcp forwards loops =>
          rw [setSubscription, publishRtcp]
          exact Broadcast.follows_sendIgnore _ _ _
  | read i k packets =>
      obtain ⟨c, hc, hst⟩ := Option.bind_eq_some_iff.mp hst
      obtain ⟨r, -, hst⟩ := Option.bind_eq_some_iff.mp hst
      obtain ⟨-, hst⟩ := Option.ite_none_right_eq_some.mp hst
      split at hst
      · cases hst
        exact .stayed rfl fun _ => .refl _ _
      · split at hst
        · cases hst
          exact .stayed rfl fun _ => .refl _ _
        · cases hst
          exact .stayed rfl fun _ => .refl _ _
  | forward i k =>
      obtain ⟨c, hc, hst⟩ := Option.bind_eq_some_iff.mp hst
      obtain ⟨r, hr, hst⟩ := Option.bind_eq_some_iff.mp hst
      obtain ⟨-, hst⟩ := Option.ite_none_right_eq_some.mp hst
      split at hst
      · cases hst
      · dsimp only at hst
        split at hst
        · cases hst
          exact .stayed rfl fun _ => .refl _ _
        · split at hst
          · rename_i hchannel
            cases hst
            exact .stayed rfl fun _ => Broadcast.follows_foldlM_send hchannel _
          · cases hst
            exact .stayed rfl fun _ => .refl _ _
  | write j written =>
      obtain ⟨w, hw, hst⟩ := Option.bind_eq_some_iff.mp hst
      obtain ⟨hrun, hst⟩ := Option.ite_none_right_eq_some.mp hst
      have hended : s.Turn (.write j written) (s.endWriter j w) :=
        .turned hw rfl (.ended (by simp) rfl) fun j' hj' =>
          Broadcast.follows_unsubscribe (by omega)
      split at hst
      · rename_i channel hrecv
        have hreceived := congrArg Prod.fst hrecv
        obtain rfl : (s.publishRtcp.recv (j + 1)).2 = channel := congrArg Prod.snd hrecv
        split_ifs at hst
        · cases hst
          exact .turned hw rfl (.wrote hrun hreceived rfl) fun j' hj' =>
            Broadcast.follows_recv (by omega)
        · cases hst
          exact hended
      · cases hst
        exact hended
      · obtain ⟨-, hst⟩ := Option.ite_none_right_eq_some.mp hst
        cases hst
        exact hended
  | dropPeer j =>
      obtain ⟨w, hw, rfl⟩ := Option.map_eq_some_iff.mp hst
      exact .turned hw rfl (.beside rfl rfl (.refl _ _)) fun _ _ => .refl _ _
  | dropForward =>
      cases hst
      exact .stayed rfl fun _ => Broadcast.follows_unsubscribe (by omega)

/-- A task after a step was there before, or its publisher has come. -/
lemma Turn.writer (h : s.Turn a t) (hw : t.writers[j]? = some w') :
    (∃ w, s.writers[j]? = some w ∧ s.Writes j w t w') ∨
      a = .publish ∧ j = s.writers.length ∧ w' = ⟨.running, true, []⟩ ∧ t = s.publishStep := by
  cases h with
  | stayed writers follows =>
      exact .inl ⟨w', writers ▸ hw, .beside rfl rfl (follows j)⟩
  | @turned _ _ i w v writer writers writes follows =>
      left
      rw [writers] at hw
      by_cases hj : j = i
      · subst hj
        rw [List.getElem?_set_self (List.getElem?_eq_some_iff.mp writer).1] at hw
        exact ⟨w, writer, Option.some.inj hw ▸ writes⟩
      · rw [List.getElem?_set_ne (Ne.symm hj)] at hw
        exact ⟨w', hw, .beside rfl rfl (follows j hj)⟩
  | came =>
      rcases Vec.getElem?_concat_cases hw with ⟨rfl, rfl⟩ | hw
      · exact .inr ⟨rfl, rfl, rfl, rfl⟩
      · have hlt := (List.getElem?_eq_some_iff.mp hw).1
        exact .inl ⟨w', hw, .beside rfl rfl (Broadcast.follows_subscribe (by omega))⟩

/-- The messages as the packets that are written of them. -/
def packetsOf (ms : List (RtcpMessage × UInt32)) : List RtcpPacket :=
  ms.map fun m => m.1.toRtcpPacket m.2

/-- The task of a publisher has written a first part of the messages; while it runs, they are the
messages on the channel since it began to receive, and it has written those that it received. -/
structure Carries (s : RtcpSystem) (j : ℕ) (w : RtcpWriter) (ms : List (RtcpMessage × UInt32)) :
    Prop where
  written : w.written <+: packetsOf ms
  running : w.status = .running → ∃ start sent, s.publishRtcp.Reads (j + 1) start sent ∧
    s.publishRtcp.log.drop start = ms ∧ start ≤ s.publishRtcp.log.length ∧
      w.written = packetsOf sent

/-- Who receives from the channel has received a first part of what came since it began. -/
lemma reads_first_part {c : Broadcast (RtcpMessage × UInt32)} {r start : ℕ}
    {sent : List (RtcpMessage × UInt32)} (h : c.Reads r start sent) :
    sent <+: c.log.drop start := by
  obtain ⟨i, -, -, rfl⟩ := h
  rw [List.drop_take]
  exact List.take_prefix _ _

/-- **A step keeps it.** -/
lemma Carries.step (h : s.Carries j w ms) (hw : s.Writes j w t w')
    (hlog : s.publishRtcp.HasReceiver → t.publishRtcp.log = s.publishRtcp.log ++ ms') :
    t.Carries j w' (ms ++ ms') := by
  have hlonger : packetsOf ms <+: packetsOf (ms ++ ms') := by
    rw [packetsOf, packetsOf, List.map_append]
    exact List.prefix_append _ _
  cases hw with
  | @wrote m running received channel =>
      obtain ⟨start, sent, hreads, hms, hle, hwritten⟩ := h.running running
      have hreads' := hreads.recv received
      rw [← channel] at hreads'
      have hsame : t.publishRtcp.log = s.publishRtcp.log := by rw [channel, Broadcast.recv_log]
      obtain rfl : ms' = [] := by
        have hgrown := hlog ⟨_, hreads.live⟩
        rwa [hsame, List.self_eq_append_right] at hgrown
      rw [List.append_nil, ← hms, ← hsame]
      have hpackets : w.written ++ [m.1.toRtcpPacket m.2] = packetsOf (sent ++ [m]) := by
        rw [hwritten, packetsOf, packetsOf, List.map_append, List.map_singleton]
      exact ⟨hpackets ▸ (reads_first_part hreads').map _,
        fun _ => ⟨start, _, hreads', rfl, hsame ▸ hle, hpackets⟩⟩
  | ended status written =>
      exact ⟨written ▸ h.written.trans hlonger, fun hrun => absurd hrun status⟩
  | beside status written follows =>
      refine ⟨written ▸ h.written.trans hlonger, fun hrun => ?_⟩
      obtain ⟨start, sent, hreads, hms, hle, hwritten⟩ := h.running (status.symm.trans hrun)
      have hgrown := hlog ⟨_, hreads.live⟩
      refine ⟨start, sent, hreads.follows follows, ?_, ?_, written.trans hwritten⟩
      · rw [hgrown, List.drop_append_of_le_length hle, hms]
      · rw [hgrown, List.length_append]
        omega

/-- A new publisher has been written nothing. -/
lemma carries_publishStep : (s.publishStep).Carries s.writers.length ⟨.running, true, []⟩ [] where
  written := List.prefix_rfl
  running _ := ⟨s.publishRtcp.log.length, [], s.publishRtcp.reads_subscribe _,
    List.drop_length, le_rfl, rfl⟩

/-- What the task of the publisher `j` has written is a first part of the feedback that the run
asked for since the publisher came. -/
def Relayed (s₀ : RtcpSystem) (as : List RtcpAction) (s : RtcpSystem) : Prop :=
  ∀ j w, s.writers[j]? = some w → ∃ bs cs u ms, as = bs ++ RtcpAction.publish :: cs ∧
    rtcpMachine.exec s₀ (bs ++ [.publish]) = some u ∧ u.writers.length = j + 1 ∧
      rtcpMachine.Yields Asks u cs ms ∧ s.Carries j w ms

lemma relayed_step (h : rtcpMachine.exec s₀ as = some s) (hs : Relayed s₀ as s)
    (hst : s.step a = some t) : Relayed s₀ (as ++ [a]) t := by
  intro j w' hw'
  obtain ⟨ms', hasks, hlog⟩ := asks_of_step hst
  obtain ⟨w, hw, hwrites⟩ | ⟨rfl, rfl, rfl, rfl⟩ := (turn_of_step hst).writer hw'
  · obtain ⟨bs, cs, u, ms, rfl, hu, hlen, hyields, hcarries⟩ := hs j w hw
    have hrest : rtcpMachine.exec u cs = some s := by
      rw [← List.singleton_append, ← List.append_assoc, Machine.exec_append, hu] at h
      exact h
    exact ⟨bs, cs ++ [a], u, ms ++ ms', by simp, hu, hlen, hyields.concat hrest hst hasks,
      hcarries.step hwrites hlog⟩
  · refine ⟨as, [], _, [], rfl, Machine.exec_trans h (Machine.exec_step hst rfl), ?_, .nil _,
      carries_publishStep⟩
    rw [publishStep, List.length_append, List.length_singleton]

/-- Who has nothing left to receive has written all of it. -/
lemma Carries.written_eq (h : s.Carries j w ms) (hrun : w.status = .running)
    (hread : s.publishRtcp.unread (j + 1) = 0) : w.written = packetsOf ms := by
  obtain ⟨start, sent, ⟨i, hi, -, rfl⟩, rfl, -, hwritten⟩ := h.running hrun
  rw [hwritten, s.publishRtcp.eq_length_of_unread hi hread, List.take_length]

/-- **Feedback arrives in order**: in every run, with whatever subscribers and publishers, what is
written on the connection of a publisher is a first part of the feedback that was asked for since
the publisher came, and of nothing else, one packet for each message, in order and without gaps; and
all of it, when the task of the publisher runs and has nothing left to receive. -/
theorem feedback_in_order (h0 : rtcpMachine.init s₀) (h : rtcpMachine.exec s₀ as = some s)
    (hw : s.writers[j]? = some w) :
    ∃ bs cs u ms, as = bs ++ RtcpAction.publish :: cs ∧
      rtcpMachine.exec s₀ (bs ++ [.publish]) = some u ∧ u.writers.length = j + 1 ∧
        rtcpMachine.Yields Asks u cs ms ∧ (∀ ms', rtcpMachine.Yields Asks u cs ms' → ms' = ms) ∧
          w.written <+: packetsOf ms ∧
          (w.status = .running → s.publishRtcp.unread (j + 1) = 0 → w.written = packetsOf ms) := by
  have hs := Machine.exec_history (M := rtcpMachine)
    (I := fun as s => rtcpMachine.exec s₀ as = some s ∧ Relayed s₀ as s) ?_
    (fun bs r a u hr hst => ⟨Machine.exec_trans hr.1 (Machine.exec_step hst rfl),
      relayed_step hr.1 hr.2 hst⟩) h
  · obtain ⟨bs, cs, u, ms, has, hu, hlen, hyields, hcarries⟩ := hs.2 j w hw
    exact ⟨bs, cs, u, ms, has, hu, hlen, hyields,
      fun ms' hyields' => hyields'.unique (fun _ _ _ _ _ => Asks.unique) hyields,
      hcarries.written, hcarries.written_eq⟩
  · refine ⟨rfl, fun j w hw => ?_⟩
    cases h0
    cases hw

/-- A subscriber comes to a stream with one track, and sends a request for a full frame that names
it, together with a packet that is none of the three kinds. -/
def asking : List RtcpAction :=
  [.publish, .publishTrackUp ⟨"high", .video, 7, 0⟩, .subscribe [.video],
    .loop 0 (.trackChange .video true),
    .read 0 .video (some [.fullIntraRequest 1 2 [⟨2, 3⟩], .other []]), .forward 0 .video,
    .forward 0 .video, .write 0 true, .write 0 true]

/-- The publisher is asked for a key frame by the loop, and by the subscriber, whose entry is
lost. -/
theorem feedback_in_order_asking : ∃ s w, rtcpMachine.exec .new asking = some s ∧
    s.writers[0]? = some w ∧
      w.written = [.pictureLossIndication 0 7, .fullIntraRequest 0 7 []] ∧
        ∃ cs u ms, rtcpMachine.Yields Asks u cs ms ∧ w.written = packetsOf ms := by
  have hrun : ((rtcpMachine.exec .new asking).bind fun s => s.writers[0]?.map fun w =>
      (w.status, w.written, s.publishRtcp.unread 1)) =
        some (.running, [.pictureLossIndication 0 7, .fullIntraRequest 0 7 []], 0) := by
    decide
  obtain ⟨s, hs, hw⟩ := Option.bind_eq_some_iff.mp hrun
  obtain ⟨w, hw, heq⟩ := Option.map_eq_some_iff.mp hw
  obtain ⟨hstatus, heq⟩ := Prod.mk.inj heq
  obtain ⟨hwritten, hread⟩ := Prod.mk.inj heq
  obtain ⟨bs, cs, u, ms, -, -, -, hyields, -, -, hall⟩ := feedback_in_order rfl hs hw
  exact ⟨s, w, hs, hw, hwritten, cs, u, ms, hyields, hall hstatus hread⟩

end RtcpSystem

end SfuServer
