import SfuServer.Lib.Machine
import SfuServer.Ws.Group

/-!
The loops that forward the media of a stream to a subscriber, `sender_forward_rtp` of
`src/forward/rtc/subscribe.rs`, over runs, and those that forward its feedback to the
publisher, `sender_forward_rtcp`.

A subscription has a loop for video and one for audio, as far as it was negotiated.  A loop
waits for three things at once: a change of the published tracks, a packet of the track that
it forwards, and a request to select a layer.  Requests come over a channel of capacity one,
which the loops share with a task that drains it, whatever their kind is.  The loop for the
feedback of a kind knows the track only by the rid that is bound for the kind.

* `SubscribeSystem`, `SubscribeAction`, `subscribeMachine`: the tracks, the channels and the
  loops of a subscription, and what can happen to them;
* `trackChange`, `select`: the bodies of two branches of a loop;
* `feedback`: where a packet of feedback goes;
* `loopsRun_iff`: the loops end only on a failed write or after the end of the subscription,
  exactly if no loop comes to its requests with more than one of them unread.
-/

open Std (ExtTreeMap)

namespace SfuServer

/-- `RTPCodecType`. -/
inductive RTPCodecType where
  | unspecified
  | audio
  | video
  deriving DecidableEq, Repr

namespace RTPCodecType

/-- The name of a kind, a key of `track_binding_publish_rid`. -/
def toString : RTPCodecType → String
  | .unspecified => "Unspecified"
  | .audio => "audio"
  | .video => "video"

/-- The receiver that the loop of the kind has on the channels; 0 is that of the tasks that
drain them. -/
def receiver : RTPCodecType → ℕ
  | .unspecified => 3
  | .audio => 2
  | .video => 1

end RTPCodecType

def ridEnable : String := "RID_ENABLE"

def ridDisable : String := "RID_DISABLE"

/-- `RtcpMessage`: the feedback that is forwarded. -/
inductive RtcpMessage where
  | fullIntraRequest
  | pictureLossIndication
  | sliceLossIndication
  deriving DecidableEq, Repr

/-- `PublishTrackRemote`: a track of the publisher.  `handle` stands for the shared pointer to
the track, by which two tracks with the same rid are told apart. -/
structure PublishTrackRemote where
  rid : String
  kind : RTPCodecType
  ssrc : UInt32
  handle : ℕ
  deriving DecidableEq, Repr

/-- Why a loop has ended: a packet could not be written, the channel of the requests was
closed, it told that a request was missed, or a feedback found no receiver. -/
inductive ForwardEnd where
  | writeError
  | selectClosed
  | selectLagged
  | panicked
  deriving DecidableEq, Repr

/-- The state of a loop; `recv` is the track whose packets it receives, none for the channel
that stays empty, and `track` the one that the sender was given. -/
structure ForwardLoop where
  preRid : Option String
  recv : Option PublishTrackRemote
  track : Option PublishTrackRemote
  sequenceNumber : UInt16
  ended : Option ForwardEnd

/-- A subscription: the published tracks with the channel of their changes, the channel for
feedback to the publisher, whose receiver 0 the stream holds, the channel of the requests
with the task that drains it, the rids that were bound, the loops for the media and those
for the feedback. -/
structure SubscribeSystem where
  publishTracks : List PublishTrackRemote
  publishTracksChange : Broadcast Unit
  publishRtcp : Broadcast (RtcpMessage × UInt32)
  selectLayer : Broadcast (RTPCodecType × String)
  senderDropped : Bool
  drain : TaskStatus
  trackBindingPublishRid : ExtTreeMap String String
  loops : RTPCodecType → Option ForwardLoop
  feedbackLoops : RTPCodecType → Option TaskStatus

/-- What can happen: a layer is selected or unselected, the draining task takes a turn, a
track comes up or the publisher goes, a loop takes one of its branches, where what is left
to other code succeeds or not, a packet of feedback is read, which is a message to forward or
none, or reading it fails, and the subscription or the whole stream is dropped. -/
inductive SubscribeAction where
  | selectKindRid (rid : String)
  | drain
  | publishTrackUp (track : PublishTrackRemote)
  | publishTracksClear
  | trackChange (k : RTPCodecType) (replaced : Bool)
  | rtp (k : RTPCodecType) (received written : Bool)
  | selectLayer (k : RTPCodecType) (replaced : Bool)
  | rtcp (k : RTPCodecType) (packet : Option RtcpMessage)
  | rtcpErr (k : RTPCodecType)
  | dropSender
  | dropForward

namespace SubscribeSystem

/-- A change of the loop of a kind. -/
def setLoop (s : SubscribeSystem) (k : RTPCodecType) (l : ForwardLoop) : SubscribeSystem :=
  { s with loops := Function.update s.loops k (some l) }

/-- The loop of a kind ends, and its receivers go. -/
def endLoop (s : SubscribeSystem) (k : RTPCodecType) (l : ForwardLoop) (cause : ForwardEnd) :
    SubscribeSystem :=
  { s with
    selectLayer := s.selectLayer.unsubscribe k.receiver
    publishTracksChange := s.publishTracksChange.unsubscribe k.receiver }.setLoop k
      { l with ended := some cause }

/-- A step that the loop of a kind takes while it runs. -/
def onLoop (s : SubscribeSystem) (k : RTPCodecType)
    (u : ForwardLoop → Option SubscribeSystem) : Option SubscribeSystem :=
  (s.loops k).bind fun l => if l.ended = none then u l else none

/-- The loops of a kind are spawned, with their receivers. -/
def spawnLoop (s : SubscribeSystem) (k : RTPCodecType) : SubscribeSystem :=
  { s with
    selectLayer := s.selectLayer.subscribe k.receiver
    publishTracksChange := s.publishTracksChange.subscribe k.receiver
    feedbackLoops := Function.update s.feedbackLoops k (some .running) }.setLoop k
      ⟨none, none, none, 0, none⟩

/-- A subscription without loops. -/
def channels (publishTracks : List PublishTrackRemote) : SubscribeSystem where
  publishTracks := publishTracks
  publishTracksChange := (Broadcast.new 16).subscribe 0
  publishRtcp := (Broadcast.new 64).subscribe 0
  selectLayer := (Broadcast.new 1).subscribe 0
  senderDropped := false
  drain := .running
  trackBindingPublishRid := ∅
  loops := fun _ => none
  feedbackLoops := fun _ => none

/-- `SubscribeRTCPeerConnection::new`, with the kinds that have a sender. -/
def new (publishTracks : List PublishTrackRemote) (kinds : List RTPCodecType) :
    SubscribeSystem :=
  let s := kinds.foldl spawnLoop (.channels publishTracks)
  { s with publishTracksChange := s.publishTracksChange.sendIgnore () }

/-! ### The branches of a loop -/

/-- The branch of a loop on a change of the tracks. -/
def trackChange (s : SubscribeSystem) (k : RTPCodecType) (l : ForwardLoop) (replaced : Bool) :
    SubscribeSystem :=
  let currentRid := s.trackBindingPublishRid[k.toString]?
  if s.publishTracks.length = 0 then
    let s := s.setLoop k { l with recv := none, track := none, preRid := none }
    if currentRid.isSome ∧ currentRid ≠ some ridDisable then
      { s with trackBindingPublishRid := s.trackBindingPublishRid.erase k.toString }
    else s
  else if l.track.isSome then s
  else if currentRid = some ridDisable then s
  else
    match s.publishTracks.find? fun publishTrack => publishTrack.kind = k with
    | none => s
    | some publishTrack =>
        if replaced then
          { s with
            publishRtcp := s.publishRtcp.sendIgnore (.pictureLossIndication, publishTrack.ssrc)
            trackBindingPublishRid :=
              s.trackBindingPublishRid.insert k.toString publishTrack.rid }.setLoop k
            { l with recv := some publishTrack, track := some publishTrack }
        else s

/-- The rid that a request stands for: on a disabled kind, the request to enable it is for
the rid before that, or for the first track of the kind. -/
def newRid (s : SubscribeSystem) (k : RTPCodecType) (l : ForwardLoop)
    (currentRid : Option String) (selectRid : String) : Option String :=
  if currentRid = some ridDisable ∧ selectRid = ridEnable then
    l.preRid <|>
      ((s.publishTracks.filter fun t => t.kind = k).map PublishTrackRemote.rid).head?
  else some selectRid

/-- The rid is selected: the loop goes over to the empty channel, or to a track with the rid.
A feedback that finds no receiver panics here. -/
def selectRid (s : SubscribeSystem) (k : RTPCodecType) (l : ForwardLoop)
    (currentRid : Option String) (rid : String) (replaced : Bool) : SubscribeSystem :=
  if rid = ridDisable then
    let l := if currentRid.isSome then
      { l with recv := none, track := none, preRid := currentRid } else l
    { s with trackBindingPublishRid :=
        s.trackBindingPublishRid.insert k.toString rid }.setLoop k l
  else
    match s.publishTracks.find? fun t => t.kind = .video ∧ (t.rid = rid ∨ rid = ridEnable) with
    | none => s
    | some publishTrack =>
        if replaced then
          let l := { l with recv := some publishTrack, track := some publishTrack }
          match s.publishRtcp.send (.pictureLossIndication, publishTrack.ssrc) with
          | none => s.endLoop k l .panicked
          | some publishRtcp =>
              { s with
                publishRtcp := publishRtcp
                trackBindingPublishRid :=
                  s.trackBindingPublishRid.insert k.toString rid }.setLoop k l
        else s

/-- The branch of a loop on a request for its kind. -/
def select (s : SubscribeSystem) (k : RTPCodecType) (l : ForwardLoop) (rid : String)
    (replaced : Bool) : SubscribeSystem :=
  let currentRid := s.trackBindingPublishRid[k.toString]?
  if currentRid = some rid then s
  else
    let newRid := s.newRid k l currentRid rid
    -- enabling a kind forgets its rid, also where no track is found
    let s := if currentRid = some ridDisable ∧ rid = ridEnable then
      { s with trackBindingPublishRid := s.trackBindingPublishRid.erase k.toString } else s
    match newRid with
    | none => s
    | some newRid => s.selectRid k l currentRid newRid replaced

/-! ### The steps -/

/-- `select_layer` and `un_select_layer`, which send a request for video to a subscription
that is there. -/
def selectKindRidStep (s : SubscribeSystem) (rid : String) : Option SubscribeSystem :=
  if s.senderDropped then none
  else some { s with selectLayer := s.selectLayer.sendIgnore (.video, rid) }

/-- One turn of the task of `new_broadcast_channel`. -/
def drainStep (s : SubscribeSystem) : Option SubscribeSystem :=
  if s.drain = .running then
    let stopped := { s with selectLayer := s.selectLayer.unsubscribe 0, drain := .finished }
    match s.selectLayer.recv 0 with
    | (.message _, channel) => some { s with selectLayer := channel }
    | (.lagged _, _) => some stopped
    | (.empty, _) => if s.senderDropped then some stopped else none
  else none

/-- `publish_track_up`. -/
def publishTrackUpStep (s : SubscribeSystem) (track : PublishTrackRemote) : SubscribeSystem :=
  { s with
    publishTracks := (s.publishTracks ++ [track]).insertionSort fun a b => a.rid ≤ b.rid
    publishTracksChange := s.publishTracksChange.sendIgnore () }

/-- The tracks go with the publisher. -/
def publishTracksClearStep (s : SubscribeSystem) : SubscribeSystem :=
  { s with
    publishTracks := []
    publishTracksChange := s.publishTracksChange.sendIgnore () }

/-- A loop takes its branch on a change of the tracks; that it missed changes is passed over. -/
def trackChangeStep (s : SubscribeSystem) (k : RTPCodecType) (replaced : Bool) :
    Option SubscribeSystem :=
  s.onLoop k fun l =>
    match s.publishTracksChange.recv k.receiver with
    | (.empty, _) => none
    | (.lagged _, channel) => some { s with publishTracksChange := channel }
    | (.message (), channel) =>
        some ({ s with publishTracksChange := channel }.trackChange k l replaced)

/-- A loop takes its branch on a packet, or on an error of the channel of the packets, which
is passed over. -/
def rtpStep (s : SubscribeSystem) (k : RTPCodecType) (received written : Bool) :
    Option SubscribeSystem :=
  s.onLoop k fun l =>
    if l.recv = none then none
    else if received && l.track.isSome then some <|
      if written then s.setLoop k { l with sequenceNumber := l.sequenceNumber + 1 }
      else s.endLoop k l .writeError
    else some s

/-- A loop takes its branch on a request; any error of the channel ends it. -/
def selectLayerStep (s : SubscribeSystem) (k : RTPCodecType) (replaced : Bool) :
    Option SubscribeSystem :=
  s.onLoop k fun l =>
    match s.selectLayer.recv k.receiver with
    | (.empty, _) => if s.senderDropped then some (s.endLoop k l .selectClosed) else none
    | (.lagged _, _) => some (s.endLoop k l .selectLagged)
    | (.message (kind, rid), channel) =>
        let s := { s with selectLayer := channel }
        some (if kind ≠ k then s else s.select k l rid replaced)

/-- The messages of a packet of feedback: one for each published track of the kind that has
the rid bound for the kind. -/
def feedback (s : SubscribeSystem) (k : RTPCodecType) (msg : RtcpMessage) :
    List (RtcpMessage × UInt32) :=
  match s.trackBindingPublishRid[k.toString]? with
  | none => []
  | some publishRid =>
      (s.publishTracks.filter fun t => t.kind = k ∧ t.rid = publishRid).map fun t => (msg, t.ssrc)

/-- `sender_forward_rtcp` reads a packet.  The task ends when a message finds no receiver. -/
def rtcpStep (s : SubscribeSystem) (k : RTPCodecType) (packet : Option RtcpMessage) :
    Option SubscribeSystem :=
  if s.feedbackLoops k = some .running then
    match packet with
    | none => some s
    | some msg =>
        match (s.feedback k msg).foldlM Broadcast.send s.publishRtcp with
        | some publishRtcp => some { s with publishRtcp := publishRtcp }
        | none => some { s with
            feedbackLoops := Function.update s.feedbackLoops k (some .finished) }
  else none

/-- Reading feedback fails, and the task ends. -/
def rtcpErrStep (s : SubscribeSystem) (k : RTPCodecType) : Option SubscribeSystem :=
  if s.feedbackLoops k = some .running then
    some { s with feedbackLoops := Function.update s.feedbackLoops k (some .finished) }
  else none

/-- One step of the system. -/
def step (s : SubscribeSystem) : SubscribeAction → Option SubscribeSystem
  | .selectKindRid rid => s.selectKindRidStep rid
  | .drain => s.drainStep
  | .publishTrackUp track => some (s.publishTrackUpStep track)
  | .publishTracksClear => some s.publishTracksClearStep
  | .trackChange k replaced => s.trackChangeStep k replaced
  | .rtp k received written => s.rtpStep k received written
  | .selectLayer k replaced => s.selectLayerStep k replaced
  | .rtcp k packet => s.rtcpStep k packet
  | .rtcpErr k => s.rtcpErrStep k
  | .dropSender => some { s with senderDropped := true }
  | .dropForward => some { s with
      senderDropped := true
      publishRtcp := s.publishRtcp.unsubscribe 0 }

end SubscribeSystem

/-- The machine of a subscription. -/
def subscribeMachine : Machine SubscribeSystem SubscribeAction where
  init s := ∃ publishTracks kinds, kinds.Sublist [RTPCodecType.video, .audio] ∧
    s = .new publishTracks kinds
  step := SubscribeSystem.step

namespace SubscribeSystem

variable {s t : SubscribeSystem} {a : SubscribeAction} {k j : RTPCodecType} {l : ForwardLoop}

/-- The loop of the kind runs. -/
def Running (s : SubscribeSystem) (k : RTPCodecType) : Prop :=
  ∃ l, s.loops k = some l ∧ l.ended = none

/-- Where a loop ends in a step, it is because of a packet that could not be written, or the
subscription was dropped before. -/
def LoopsRun (s : SubscribeSystem) (a : SubscribeAction) (t : SubscribeSystem) : Prop :=
  ∀ k, s.Running k → ¬ t.Running k → s.senderDropped = true ∨ a = .rtp k true false

/-- A loop that comes to its requests has at most one of them to read, as long as the
subscription is there. -/
def KeepsUp (s : SubscribeSystem) : SubscribeAction → Prop
  | .selectLayer k _ => s.senderDropped = true ∨ s.selectLayer.unread k.receiver ≤ 1
  | _ => True

instance (s : SubscribeSystem) (a : SubscribeAction) : Decidable (s.KeepsUp a) :=
  match a with
  | .selectLayer k _ => inferInstanceAs
      (Decidable (s.senderDropped = true ∨ s.selectLayer.unread k.receiver ≤ 1))
  | .selectKindRid _ | .drain | .publishTrackUp _ | .publishTracksClear | .trackChange ..
  | .rtp .. | .rtcp .. | .rtcpErr _ | .dropSender | .dropForward => isTrue trivial

/-! ### What keeps a loop running -/

lemma onLoop_eq_some_iff {u : ForwardLoop → Option SubscribeSystem} :
    s.onLoop k u = some t ↔ ∃ l, s.loops k = some l ∧ l.ended = none ∧ u l = some t := by
  simp only [onLoop, Option.bind_eq_some_iff, Option.ite_none_right_eq_some]

lemma Running.setLoop (hj : s.Running j) (hl : l.ended = none) : (s.setLoop k l).Running j := by
  by_cases hjk : j = k
  · subst hjk
    exact ⟨l, by simp [SubscribeSystem.setLoop], hl⟩
  · obtain ⟨l', hl', hend⟩ := hj
    exact ⟨l', by simpa [SubscribeSystem.setLoop, hjk] using hl', hend⟩

lemma not_running_endLoop {cause : ForwardEnd} : ¬ (s.endLoop k l cause).Running k := by
  rintro ⟨l', hl', hend⟩
  have heq : l' = { l with ended := some cause } := by
    simpa [endLoop, setLoop, eq_comm] using hl'
  simp [heq] at hend

lemma Running.endLoop {cause : ForwardEnd} (hj : s.Running j) (hjk : j ≠ k) :
    (s.endLoop k l cause).Running j := by
  obtain ⟨l', hl', hend⟩ := hj
  exact ⟨l', by simpa [SubscribeSystem.endLoop, SubscribeSystem.setLoop, hjk] using hl', hend⟩

/-- The branch on a change of the tracks ends no loop. -/
lemma Running.trackChange {replaced : Bool} (hj : s.Running j) (hl : l.ended = none) :
    (s.trackChange k l replaced).Running j := by
  simp only [SubscribeSystem.trackChange]
  split_ifs with _ _ _ _ hreplaced
  · exact hj.setLoop (k := k) (l := { l with recv := none, track := none, preRid := none }) hl
  · exact hj.setLoop hl
  · exact hj
  · exact hj
  · split
    · exact hj
    · exact Running.setLoop (s := { s with publishRtcp := _, trackBindingPublishRid := _ }) hj hl
  · split <;> exact hj

/-- Going over to a rid ends no loop as long as feedback finds a receiver. -/
lemma Running.selectRid {currentRid : Option String} {rid : String} {replaced : Bool}
    (hj : s.Running j) (hl : l.ended = none) (hrtcp : s.publishRtcp.HasReceiver) :
    (s.selectRid k l currentRid rid replaced).Running j := by
  simp only [SubscribeSystem.selectRid]
  split_ifs
  · exact Running.setLoop (s := { s with trackBindingPublishRid := _ }) hj hl
  · exact Running.setLoop (s := { s with trackBindingPublishRid := _ }) hj hl
  · split
    · exact hj
    · rename_i publishTrack _
      rw [Broadcast.send, if_pos hrtcp]
      exact Running.setLoop (s := { s with publishRtcp := _, trackBindingPublishRid := _ }) hj hl
  · split <;> exact hj

/-- The branch on a request ends no loop as long as feedback finds a receiver. -/
lemma Running.select {rid : String} {replaced : Bool} (hj : s.Running j) (hl : l.ended = none)
    (hrtcp : s.publishRtcp.HasReceiver) : (s.select k l rid replaced).Running j := by
  simp only [SubscribeSystem.select]
  split_ifs
  · exact hj
  · split
    · exact hj
    · exact Running.selectRid (s := { s with trackBindingPublishRid := _ }) hj hl hrtcp
  · split
    · exact hj
    · exact hj.selectRid hl hrtcp

/-! ### What the channels keep -/

/-- The channel of the requests keeps one of them, and while the subscription is there, so is
the stream, which takes the feedback. -/
structure Attached (s : SubscribeSystem) : Prop where
  capacity : s.selectLayer.capacity = 1
  feedback : s.senderDropped = false → s.publishRtcp.Live 0

lemma Attached.setLoop (hs : s.Attached) : (s.setLoop k l).Attached := ⟨hs.capacity, hs.feedback⟩

lemma Attached.endLoop {cause : ForwardEnd} (hs : s.Attached) :
    (s.endLoop k l cause).Attached := ⟨hs.capacity, hs.feedback⟩

lemma Attached.trackChange {replaced : Bool} (hs : s.Attached) :
    (s.trackChange k l replaced).Attached := by
  simp only [SubscribeSystem.trackChange]
  split_ifs
  · exact ⟨hs.capacity, hs.feedback⟩
  · exact hs.setLoop
  · exact hs
  · exact hs
  · split
    · exact hs
    · exact ⟨hs.capacity, fun hd => (Broadcast.live_sendIgnore ..).mpr (hs.feedback hd)⟩
  · split <;> exact hs

lemma Attached.selectRid {currentRid : Option String} {rid : String} {replaced : Bool}
    (hs : s.Attached) : (s.selectRid k l currentRid rid replaced).Attached := by
  simp only [SubscribeSystem.selectRid]
  split_ifs
  · exact ⟨hs.capacity, hs.feedback⟩
  · exact ⟨hs.capacity, hs.feedback⟩
  · split
    · exact hs
    · split
      · exact hs.endLoop
      · rename_i channel hsend
        obtain ⟨-, rfl⟩ := (Broadcast.send_eq_some_iff _ _).mp hsend
        exact ⟨hs.capacity, hs.feedback⟩
  · split <;> exact hs

lemma Attached.select {rid : String} {replaced : Bool} (hs : s.Attached) :
    (s.select k l rid replaced).Attached := by
  simp only [SubscribeSystem.select]
  split_ifs
  · exact hs
  · split
    · exact ⟨hs.capacity, hs.feedback⟩
    · exact Attached.selectRid (s := { s with trackBindingPublishRid := _ })
        ⟨hs.capacity, hs.feedback⟩
  · split
    · exact hs
    · exact hs.selectRid

lemma attached_spawnLoop (hs : s.Attached) : (s.spawnLoop k).Attached :=
  ⟨hs.capacity, hs.feedback⟩

lemma attached_init (h0 : subscribeMachine.init s) : s.Attached := by
  obtain ⟨publishTracks, kinds, -, rfl⟩ := h0
  have hfold : ∀ (ks : List RTPCodecType) (r : SubscribeSystem), r.Attached →
      (ks.foldl spawnLoop r).Attached := by
    intro ks
    induction ks with
    | nil => exact fun r hr => hr
    | cons k ks ih => exact fun r hr => ih _ (attached_spawnLoop hr)
  have hchannels : (channels publishTracks).Attached := ⟨rfl, fun _ => by simp [channels]⟩
  exact ⟨(hfold kinds _ hchannels).capacity, (hfold kinds _ hchannels).feedback⟩

lemma attached_step (hs : s.Attached) (hst : s.step a = some t) : t.Attached := by
  cases a with
  | selectKindRid rid =>
      simp only [step, selectKindRidStep, Option.ite_none_left_eq_some, Option.some.injEq] at hst
      obtain ⟨-, rfl⟩ := hst
      exact ⟨by simpa using hs.capacity, hs.feedback⟩
  | drain =>
      simp only [step, drainStep, Option.ite_none_right_eq_some] at hst
      obtain ⟨-, hst⟩ := hst
      split at hst
      · rename_i m channel hrecv
        cases hst
        have hcap := Broadcast.recv_capacity s.selectLayer 0
        rw [hrecv] at hcap
        exact ⟨hcap.trans hs.capacity, hs.feedback⟩
      · cases hst
        exact ⟨hs.capacity, hs.feedback⟩
      · split_ifs at hst
        cases hst
        exact ⟨hs.capacity, hs.feedback⟩
  | publishTrackUp track =>
      cases hst
      exact ⟨hs.capacity, hs.feedback⟩
  | publishTracksClear =>
      cases hst
      exact ⟨hs.capacity, hs.feedback⟩
  | trackChange k replaced =>
      obtain ⟨l, -, -, hst⟩ := onLoop_eq_some_iff.mp hst
      split at hst
      · cases hst
      · cases hst
        exact ⟨hs.capacity, hs.feedback⟩
      · cases hst
        exact Attached.trackChange (s := { s with publishTracksChange := _ })
          ⟨hs.capacity, hs.feedback⟩
  | rtp k received written =>
      obtain ⟨l, -, -, hst⟩ := onLoop_eq_some_iff.mp hst
      split_ifs at hst
      · cases hst
        exact hs.setLoop
      · cases hst
        exact hs.endLoop
      · cases hst
        exact hs
  | selectLayer k replaced =>
      obtain ⟨l, -, -, hst⟩ := onLoop_eq_some_iff.mp hst
      split at hst
      · split_ifs at hst
        cases hst
        exact hs.endLoop
      · cases hst
        exact hs.endLoop
      · rename_i kind rid channel hrecv
        have hcap := Broadcast.recv_capacity s.selectLayer k.receiver
        rw [hrecv] at hcap
        have hs' : Attached { s with selectLayer := channel } :=
          ⟨hcap.trans hs.capacity, hs.feedback⟩
        cases hst
        split_ifs
        · exact hs'
        · exact hs'.select
  | rtcp k packet =>
      simp only [step, rtcpStep, Option.ite_none_right_eq_some] at hst
      obtain ⟨-, hst⟩ := hst
      split at hst
      · cases hst
        exact hs
      · split at hst
        · rename_i msg publishRtcp hsend
          cases hst
          have hlive := (Broadcast.foldlM_send_eq_some hsend).2
          exact ⟨hs.capacity, fun hd => (hlive 0).mpr (hs.feedback hd)⟩
        · cases hst
          exact ⟨hs.capacity, hs.feedback⟩
  | rtcpErr k =>
      simp only [step, rtcpErrStep, Option.ite_none_right_eq_some, Option.some.injEq] at hst
      obtain ⟨-, rfl⟩ := hst
      exact ⟨hs.capacity, hs.feedback⟩
  | dropSender =>
      cases hst
      exact ⟨hs.capacity, fun hd => absurd hd (by simp)⟩
  | dropForward =>
      cases hst
      exact ⟨hs.capacity, fun hd => absurd hd (by simp)⟩

/-! ### The loops -/

/-- A loop that comes to its requests runs on exactly if it keeps up. -/
lemma loopsRun_selectLayer_iff {replaced : Bool} (hs : s.Attached)
    (hst : s.step (.selectLayer k replaced) = some t) :
    LoopsRun s (.selectLayer k replaced) t ↔ s.KeepsUp (.selectLayer k replaced) := by
  obtain ⟨l, hl, hend, hst⟩ := onLoop_eq_some_iff.mp hst
  cases hd : s.senderDropped with
  | true => exact iff_of_true (fun _ _ _ => .inl hd) (.inl hd)
  | false =>
      have hlag := s.selectLayer.recv_fst_eq_lagged_iff k.receiver
      rw [hs.capacity] at hlag
      split at hst
      · simp [hd] at hst
      · -- the loop is told that it missed a request, and ends
        rename_i missed channel hrecv
        rw [hrecv] at hlag
        have hlt := hlag.mp ⟨missed, rfl⟩
        cases hst
        refine iff_of_false (fun hq => ?_) (fun hok => ?_)
        · rcases hq k ⟨l, hl, hend⟩ not_running_endLoop with hdrop | ha
          · simp [hd] at hdrop
          · cases ha
        · rcases hok with hdrop | hle
          · simp [hd] at hdrop
          · omega
      · rename_i kind rid channel hrecv
        rw [hrecv] at hlag
        have hle : ¬ 1 < s.selectLayer.unread k.receiver := fun hlt => by
          obtain ⟨missed, hmissed⟩ := hlag.mpr hlt
          cases hmissed
        refine iff_of_true (fun j hj hnot => absurd ?_ hnot) (.inr (not_lt.mp hle))
        have hj' : Running { s with selectLayer := channel } j := hj
        cases hst
        split_ifs
        · exact hj'
        · exact hj'.select hend ⟨0, hs.feedback hd⟩

/-- A step leaves the loops running exactly if it is no request that a loop is too late for. -/
lemma loopsRun_step_iff (hs : s.Attached) (hst : s.step a = some t) :
    LoopsRun s a t ↔ s.KeepsUp a := by
  cases a with
  | selectLayer k replaced => exact loopsRun_selectLayer_iff hs hst
  | selectKindRid rid =>
      simp only [step, selectKindRidStep, Option.ite_none_left_eq_some, Option.some.injEq] at hst
      obtain ⟨-, rfl⟩ := hst
      exact iff_of_true (fun _ hj hnot => absurd hj hnot) trivial
  | drain =>
      simp only [step, drainStep, Option.ite_none_right_eq_some] at hst
      obtain ⟨-, hst⟩ := hst
      refine iff_of_true (fun j hj hnot => absurd ?_ hnot) trivial
      split at hst
      · cases hst
        exact hj
      · cases hst
        exact hj
      · split_ifs at hst
        cases hst
        exact hj
  | publishTrackUp track =>
      cases hst
      exact iff_of_true (fun _ hj hnot => absurd hj hnot) trivial
  | publishTracksClear =>
      cases hst
      exact iff_of_true (fun _ hj hnot => absurd hj hnot) trivial
  | trackChange k replaced =>
      obtain ⟨l, hl, hend, hst⟩ := onLoop_eq_some_iff.mp hst
      refine iff_of_true (fun j hj hnot => absurd ?_ hnot) trivial
      split at hst
      · cases hst
      · cases hst
        exact hj
      · cases hst
        exact Running.trackChange (s := { s with publishTracksChange := _ }) hj hend
  | rtp k received written =>
      obtain ⟨l, hl, hend, hst⟩ := onLoop_eq_some_iff.mp hst
      refine iff_of_true (fun j hj hnot => ?_) trivial
      split_ifs at hst with _ hreceived hwritten
      · cases hst
        have hrun := Running.setLoop (k := k)
          (l := { l with sequenceNumber := l.sequenceNumber + 1 }) hj hend
        exact absurd hrun hnot
      · cases hst
        by_cases hjk : j = k
        · have hrec : received = true := (Bool.and_eq_true_iff.mp hreceived).1
          simp only [Bool.not_eq_true] at hwritten
          exact .inr (by rw [hjk, hrec, hwritten])
        · exact absurd (hj.endLoop hjk) hnot
      · cases hst
        exact absurd hj hnot
  | rtcp k packet =>
      simp only [step, rtcpStep, Option.ite_none_right_eq_some] at hst
      obtain ⟨-, hst⟩ := hst
      refine iff_of_true (fun j hj hnot => absurd ?_ hnot) trivial
      split at hst
      · cases hst
        exact hj
      · split at hst
        · cases hst
          exact hj
        · cases hst
          exact hj
  | rtcpErr k =>
      simp only [step, rtcpErrStep, Option.ite_none_right_eq_some, Option.some.injEq] at hst
      obtain ⟨-, rfl⟩ := hst
      exact iff_of_true (fun _ hj hnot => absurd hj hnot) trivial
  | dropSender =>
      cases hst
      exact iff_of_true (fun _ hj hnot => absurd hj hnot) trivial
  | dropForward =>
      cases hst
      exact iff_of_true (fun _ hj hnot => absurd hj hnot) trivial

/-- **When the loops run**: in every step of a run a loop ends only on a packet that could
not be written, or after the subscription was dropped, if and only if, as long as the
subscription is there, every loop that comes to its requests has at most one of them to
read. -/
theorem loopsRun_iff {s : SubscribeSystem} {as : List SubscribeAction}
    (h0 : subscribeMachine.init s) :
    subscribeMachine.Along LoopsRun s as ↔ subscribeMachine.Guarded KeepsUp s as := by
  refine Machine.along_iff_guarded (I := Attached) (fun r a t hr hst => ?_) (attached_init h0)
  exact ⟨loopsRun_step_iff hr hst, fun _ => attached_step hr hst⟩

/-- A subscription to a stream with one track. -/
def single : SubscribeSystem := .new [⟨"high", .video, 7, 0⟩] [.video, .audio]

lemma init_single : subscribeMachine.init single :=
  ⟨[⟨"high", .video, 7, 0⟩], [.video, .audio], .refl _, rfl⟩

/-- Requests that both loops get to in time, among changes of the tracks and packets. -/
theorem loopsRun_single :
    subscribeMachine.Along LoopsRun single
      [.trackChange .video true, .rtp .video true true, .selectKindRid "high",
        .selectLayer .video true, .drain, .selectLayer .audio true,
        .selectKindRid ridDisable, .rtp .video true true, .selectLayer .video true,
        .selectLayer .audio true, .publishTracksClear, .trackChange .video true] :=
  (loopsRun_iff init_single).mpr (by decide)

/-- Two requests in a row, before the loop for video gets to the first. -/
theorem not_loopsRun_single :
    ¬ ∀ (s : SubscribeSystem) (as : List SubscribeAction), subscribeMachine.init s →
      subscribeMachine.Along LoopsRun s as := by
  intro h
  have hlast := (h single ([.selectKindRid "high", .selectKindRid ridDisable] ++
    [.selectLayer .video true]) init_single).last rfl rfl
  rcases hlast .video ⟨_, rfl, rfl⟩ not_running_endLoop with hdrop | ha
  · cases hdrop
  · cases ha

end SubscribeSystem

end SfuServer
