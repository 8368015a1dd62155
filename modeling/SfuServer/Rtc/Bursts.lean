import SfuServer.Rtc.DataChannel
import SfuServer.Rtc.Subscribe

/-!
The loops that forward messages and feedback of a stream when many come at once:
`data_channel_write_loop` and `data_channel_broadcast_pipe_loop` of
`src/forward/rtc/internal.rs`, and `peer_send_rtcp` of `src/forward/rtc/publish.rs`.

Each of them receives from a bounded channel, and ends when the receive does not answer a
message, also where it only tells that messages were missed.

* `LoopSystem`, `LoopAction`, `loopMachine`: the data channels of a stream, the channel for the
  feedback with a loop for every publisher so far, and what can happen to them;
* `Survives`: where a loop of a connected peer ends in a step, the sender of its channel is gone
  or a write to its peer has failed;
* `Delivers`: a loop that runs has handed on all that was sent on its channel since it started;
* `loopsSurvive_iff`: this holds exactly in runs where no loop comes to its channel with more
  messages unread than the channel retains.
-/

open Std (ExtTreeMap)

namespace SfuServer

/-- What the loops of a data channel have done; the program does not keep it, but for the state
of the peer.  The positions are those at which the loops began to receive. -/
structure LoopTrace where
  gone : Bool
  failed : Bool
  writtenSince : ℕ
  written : List Bytes
  pipedSince : ℕ
  piped : List Bytes

/-- A loop `peer_send_rtcp`: its state, whether its peer is there, the position at which it
began to receive and the feedback that it has written. -/
structure FeedbackLoop where
  status : TaskStatus
  connected : Bool
  since : ℕ
  sent : List (RtcpMessage × UInt32)

/-- A stream with its loops.  The receiver 0 of the channel for the feedback is the stream's, the
others are those of the loops. -/
structure LoopSystem where
  channels : DataChannelSystem
  traces : ℕ → LoopTrace
  publishRtcp : Broadcast (RtcpMessage × UInt32)
  publishers : List FeedbackLoop
  streamDropped : Bool

/-- What can happen: a step of the data channels, the peer of a data channel goes, a publisher
comes into the slot, feedback is sent to the stream, a feedback loop takes a turn, where the
write succeeds or not, the peer of a publisher goes, and the stream is dropped. -/
inductive LoopAction where
  | channel (a : DataChannelAction)
  | disconnect (i : ℕ)
  | publish
  | feedback (msg : RtcpMessage) (ssrc : UInt32)
  | rtcp (k : ℕ) (written : Bool)
  | dropPeer (k : ℕ)
  | dropStream

namespace LoopSystem

/-- A stream without data channels and publishers. -/
def new : LoopSystem where
  channels := .new
  traces := fun _ => ⟨false, false, 0, [], 0, []⟩
  publishRtcp := (Broadcast.new 64).subscribe 0
  publishers := []
  streamDropped := false

/-- A change of what the loops of a data channel have done. -/
def setTrace (s : LoopSystem) (i : ℕ) (l : LoopTrace) : ℕ → LoopTrace :=
  Function.update s.traces i l

/-- What the loops have done after a step of the data channels. -/
def traced (s : LoopSystem) : DataChannelAction → ℕ → LoopTrace
  | .spawnWrite i =>
      match s.channels.sessions[i]? with
      | some c => s.setTrace i { s.traces i with
          writtenSince := c.userSender.log.length, written := [] }
      | none => s.traces
  | .spawnPipe i => s.setTrace i { s.traces i with
      pipedSince := s.channels.dataChannelForward.log.length, piped := [] }
  | .write i written =>
      match s.channels.sessions[i]? with
      | some c =>
          match (c.userSender.recv i).1 with
          | .message m =>
              if written then
                s.setTrace i { s.traces i with written := (s.traces i).written ++ [m] }
              else s.setTrace i { s.traces i with failed := true }
          | .empty | .lagged _ => s.traces
      | none => s.traces
  | .pipe i =>
      match s.channels.sessions[i]? with
      | some c =>
          match (s.channels.dataChannelForward.recv (i + 1)).1 with
          | .message m =>
              if Group.frameSender m = c.id ∨ ¬ c.userSender.HasReceiver then s.traces
              else s.setTrace i { s.traces i with piped := (s.traces i).piped ++ [m] }
          | .empty | .lagged _ => s.traces
      | none => s.traces
  | _ => s.traces

/-- A step of the data channels. -/
def channelStep (s : LoopSystem) (a : DataChannelAction) : Option LoopSystem :=
  (s.channels.step a).map fun channels => { s with channels := channels, traces := s.traced a }

/-- `set_publish`: the feedback loop of the publisher is spawned. -/
def publishStep (s : LoopSystem) : LoopSystem :=
  { s with
    publishRtcp := s.publishRtcp.subscribe (s.publishers.length + 1)
    publishers := s.publishers ++ [⟨.running, true, s.publishRtcp.log.length, []⟩] }

/-- A change of a feedback loop. -/
def setPublisher (s : LoopSystem) (k : ℕ) (l : FeedbackLoop) : LoopSystem :=
  { s with publishers := s.publishers.set k l }

/-- A feedback loop ends, and its receiver is dropped. -/
def endPublisher (s : LoopSystem) (k : ℕ) (l : FeedbackLoop) : LoopSystem :=
  { s with publishRtcp := s.publishRtcp.unsubscribe (k + 1) }.setPublisher k
    { l with status := .finished }

/-- One turn of `peer_send_rtcp`: a message is received before the peer is looked up. -/
def rtcpStep (s : LoopSystem) (k : ℕ) (written : Bool) : Option LoopSystem :=
  s.publishers[k]?.bind fun l =>
    if l.status = .running then
      match s.publishRtcp.recv (k + 1) with
      | (.message m, channel) => some <|
          if l.connected && written then
            { s with publishRtcp := channel }.setPublisher k { l with sent := l.sent ++ [m] }
          else s.endPublisher k l
      | (.lagged _, _) => some (s.endPublisher k l)
      | (.empty, _) => if s.streamDropped then some (s.endPublisher k l) else none
    else none

/-- One step of the stream. -/
def step (s : LoopSystem) : LoopAction → Option LoopSystem
  | .channel a => s.channelStep a
  | .disconnect i => some { s with traces := s.setTrace i { s.traces i with gone := true } }
  | .publish => some s.publishStep
  | .feedback msg ssrc => some { s with publishRtcp := s.publishRtcp.sendIgnore (msg, ssrc) }
  | .rtcp k written => s.rtcpStep k written
  | .dropPeer k => s.publishers[k]?.map fun l => s.setPublisher k { l with connected := false }
  | .dropStream => some { s with streamDropped := true }

end LoopSystem

/-- The machine of the loops of a stream. -/
def loopMachine : Machine LoopSystem LoopAction where
  init s := s = .new
  step := LoopSystem.step

namespace LoopSystem

variable {s t : LoopSystem} {a : LoopAction} {i j k : ℕ}

/-- The write loop of the data channel runs. -/
def Writing (s : LoopSystem) (i : ℕ) : Prop :=
  ∃ c, s.channels.sessions[i]? = some c ∧ c.writeLoop = some .running

/-- The pipe loop of the data channel runs. -/
def Piping (s : LoopSystem) (i : ℕ) : Prop :=
  ∃ c, s.channels.sessions[i]? = some c ∧ c.pipeLoop = some .running

/-- The feedback loop of the publisher runs. -/
def Feeding (s : LoopSystem) (k : ℕ) : Prop :=
  ∃ l, s.publishers[k]? = some l ∧ l.status = .running

/-- Where the write loop may end: nobody can send to the user's channel any more and nothing is
left in it, or the write of a message fails. -/
def WriteEnds (s : LoopSystem) (i : ℕ) (a : LoopAction) : Prop :=
  ∃ c written, s.channels.sessions[i]? = some c ∧ a = .channel (.write i written) ∧
    (s.channels.senderDropped i c = true ∧ c.userSender.unread i = 0 ∨
      written = false ∧ ∃ m, (c.userSender.recv i).1 = .message m)

/-- Where the pipe loop may end: a write to the peer has failed before. -/
def PipeEnds (s : LoopSystem) (i : ℕ) (a : LoopAction) : Prop :=
  a = .channel (.pipe i) ∧ (s.traces i).failed = true

/-- Where the feedback loop may end: the stream was dropped and nothing is left in the channel,
or the write of a message fails. -/
def FeedbackEnds (s : LoopSystem) (k : ℕ) (a : LoopAction) : Prop :=
  ∃ written, a = .rtcp k written ∧
    (s.streamDropped = true ∧ s.publishRtcp.unread (k + 1) = 0 ∨
      written = false ∧ ∃ m, (s.publishRtcp.recv (k + 1)).1 = .message m)

/-- Where a loop of a connected peer ends in a step, the sender of its channel is gone or a write
to its peer has failed. -/
structure Survives (s : LoopSystem) (a : LoopAction) (t : LoopSystem) : Prop where
  write : ∀ i, s.Writing i → (s.traces i).gone = false → t.Writing i ∨ s.WriteEnds i a
  pipe : ∀ i, s.Piping i → (s.traces i).gone = false → t.Piping i ∨ s.PipeEnds i a
  feedback : ∀ (k : ℕ) (l : FeedbackLoop), s.publishers[k]? = some l → l.status = .running →
    l.connected = true → t.Feeding k ∨ s.FeedbackEnds k a

/-- A loop that runs has handed on all that was sent on its channel from where it began to receive
up to its position: the write loop to the peer, the pipe loop to the user's channel, but for the
user's own frames, and the feedback loop to the publisher. -/
structure Delivers (s : LoopSystem) : Prop where
  write : ∀ (i : ℕ) (c : DataChannelSession), s.channels.sessions[i]? = some c →
    c.writeLoop = some .running →
    c.userSender.Reads i (s.traces i).writtenSince (s.traces i).written
  pipe : ∀ (i : ℕ) (c : DataChannelSession), s.channels.sessions[i]? = some c →
    c.pipeLoop = some .running →
    ∃ seen, s.channels.dataChannelForward.Reads (i + 1) (s.traces i).pipedSince seen ∧
      (s.traces i).piped = seen.filter (Group.frameSender · ≠ c.id)
  feedback : ∀ (k : ℕ) (l : FeedbackLoop), s.publishers[k]? = some l → l.status = .running →
    s.publishRtcp.Reads (k + 1) l.since l.sent

/-- A loop that runs can take a turn while its channel has something to read. -/
structure Proceeds (s : LoopSystem) : Prop where
  write : ∀ (i : ℕ) (c : DataChannelSession), s.channels.sessions[i]? = some c →
    c.writeLoop = some .running → 0 < c.userSender.unread i →
    (s.step (.channel (.write i true))).isSome
  pipe : ∀ (i : ℕ) (c : DataChannelSession), s.channels.sessions[i]? = some c →
    c.pipeLoop = some .running → 0 < s.channels.dataChannelForward.unread (i + 1) →
    (s.step (.channel (.pipe i))).isSome
  feedback : ∀ (k : ℕ) (l : FeedbackLoop), s.publishers[k]? = some l → l.status = .running →
    0 < s.publishRtcp.unread (k + 1) → (s.step (.rtcp k true)).isSome

/-- A loop of a connected peer comes to its channel with no more messages unread than the channel
retains. -/
def KeepsUp (s : LoopSystem) : LoopAction → Prop
  | .channel (.write i _) => ∀ c ∈ s.channels.sessions[i]?,
      c.writeLoop = some .running → (s.traces i).gone = false →
        c.userSender.unread i ≤ c.userSender.capacity
  | .channel (.pipe i) => ∀ c ∈ s.channels.sessions[i]?,
      c.pipeLoop = some .running → (s.traces i).gone = false → (s.traces i).failed = false →
        s.channels.dataChannelForward.unread (i + 1) ≤ s.channels.dataChannelForward.capacity
  | .rtcp k _ => ∀ l ∈ s.publishers[k]?, l.status = .running → l.connected = true →
      s.publishRtcp.unread (k + 1) ≤ s.publishRtcp.capacity
  | _ => True

instance (s : LoopSystem) (a : LoopAction) : Decidable (s.KeepsUp a) :=
  match a with
  | .channel (.write i _) => inferInstanceAs (Decidable (∀ c ∈ s.channels.sessions[i]?,
      c.writeLoop = some .running → (s.traces i).gone = false →
        c.userSender.unread i ≤ c.userSender.capacity))
  | .channel (.pipe i) => inferInstanceAs (Decidable (∀ c ∈ s.channels.sessions[i]?,
      c.pipeLoop = some .running → (s.traces i).gone = false → (s.traces i).failed = false →
        s.channels.dataChannelForward.unread (i + 1) ≤ s.channels.dataChannelForward.capacity))
  | .rtcp k _ => inferInstanceAs (Decidable (∀ l ∈ s.publishers[k]?, l.status = .running →
      l.connected = true → s.publishRtcp.unread (k + 1) ≤ s.publishRtcp.capacity))
  | .channel (.register _) | .channel (.opened _) | .channel (.spawnWrite _)
  | .channel (.spawnPipe _) | .channel (.notice _) | .channel (.remove _)
  | .channel (.announce _) | .channel (.read ..) | .channel (.readErr _) | .disconnect _
  | .publish | .feedback .. | .dropPeer _ | .dropStream => isTrue trivial

end LoopSystem

/-! ### What goes on beside the loops -/

namespace DataChannelSystem

/-- Two stages of the data channel `j`: its loops are in the same state, and its channel has at
most got more messages. -/
structure SameLoops (j : ℕ) (c d : DataChannelSession) : Prop where
  id : d.id = c.id
  writeLoop : d.writeLoop = c.writeLoop
  pipeLoop : d.pipeLoop = c.pipeLoop
  userSender : c.userSender.Follows d.userSender j

lemma SameLoops.refl (j : ℕ) (c : DataChannelSession) : SameLoops j c c :=
  ⟨rfl, rfl, rfl, .refl _ _⟩

lemma SameLoops.trans {j : ℕ} {c d e : DataChannelSession} (h : SameLoops j c d)
    (h' : SameLoops j d e) : SameLoops j c e where
  id := h'.id.trans h.id
  writeLoop := h'.writeLoop.trans h.writeLoop
  pipeLoop := h'.pipeLoop.trans h.pipeLoop
  userSender := ⟨h.userSender.log.trans h'.userSender.log,
    h'.userSender.cursor.trans h.userSender.cursor⟩

/-- The loops of all data channels are in the same state; data channels without loops may have
come. -/
structure Beside (l l' : List DataChannelSession) : Prop where
  old : ∀ (j : ℕ) (c : DataChannelSession), l[j]? = some c →
    ∃ d, l'[j]? = some d ∧ SameLoops j c d
  new : ∀ (j : ℕ) (d : DataChannelSession), l'[j]? = some d →
    (∃ c, l[j]? = some c ∧ SameLoops j c d) ∨
      l[j]? = none ∧ d.writeLoop = none ∧ d.pipeLoop = none

lemma Beside.refl (l : List DataChannelSession) : Beside l l :=
  ⟨fun j c hc => ⟨c, hc, .refl j c⟩, fun j d hd => .inl ⟨d, hd, .refl j d⟩⟩

lemma Beside.set {l : List DataChannelSession} {i : ℕ} {c c' : DataChannelSession}
    (hc : l[i]? = some c) (h : SameLoops i c c') : Beside l (l.set i c') := by
  have hlt := (List.getElem?_eq_some_iff.mp hc).1
  refine ⟨fun j d hd => ?_, fun j d hd => .inl ?_⟩
  · by_cases hj : j = i
    · subst hj
      obtain rfl := Option.some.inj (hc.symm.trans hd)
      exact ⟨c', List.getElem?_set_self hlt, h⟩
    · exact ⟨d, by rw [List.getElem?_set_ne (Ne.symm hj)]; exact hd, .refl j d⟩
  · by_cases hj : j = i
    · subst hj
      rw [List.getElem?_set_self hlt, Option.some.injEq] at hd
      exact ⟨c, hc, hd ▸ h⟩
    · rw [List.getElem?_set_ne (Ne.symm hj)] at hd
      exact ⟨d, hd, .refl j d⟩

lemma Beside.trans {l₁ l₂ l₃ : List DataChannelSession} (h : Beside l₁ l₂) (h' : Beside l₂ l₃) :
    Beside l₁ l₃ := by
  refine ⟨fun j c hc => ?_, fun j e he => ?_⟩
  · obtain ⟨d, hd, hcd⟩ := h.old j c hc
    obtain ⟨e, he, hde⟩ := h'.old j d hd
    exact ⟨e, he, hcd.trans hde⟩
  · rcases h'.new j e he with ⟨d, hd, hde⟩ | ⟨hnone, hwrite, hpipe⟩
    · rcases h.new j d hd with ⟨c, hc, hcd⟩ | ⟨hnone, hwrite, hpipe⟩
      · exact .inl ⟨c, hc, hcd.trans hde⟩
      · exact .inr ⟨hnone, hde.writeLoop.trans hwrite, hde.pipeLoop.trans hpipe⟩
    · refine .inr ⟨?_, hwrite, hpipe⟩
      cases hc : l₁[j]? with
      | none => rfl
      | some c =>
          obtain ⟨d, hd, -⟩ := h.old j c hc
          rw [hnone] at hd
          cases hd

/-- The actions that are turns of a loop or start one. -/
def Moves : DataChannelAction → Prop
  | .spawnWrite _ | .spawnPipe _ | .write .. | .pipe _ => True
  | .register _ | .opened _ | .notice _ | .remove _ | .announce _ | .read .. | .readErr _ => False

variable {s t : DataChannelSystem}

/-- A read loop leaves the other loops alone. -/
lemma beside_read {i : ℕ} {m : Bytes} (h : s.step (.read i m) = some t) :
    Beside s.sessions t.sessions ∧
      ∀ r, s.dataChannelForward.Follows t.dataChannelForward r := by
  simp only [step, readStep, Option.bind_eq_some_iff, Option.ite_none_right_eq_some] at h
  obtain ⟨c, hc, -, h⟩ := h
  have hlt := (List.getElem?_eq_some_iff.mp hc).1
  -- the loop has taken the message into its buffer
  have hbuffer : ∀ buffer, Beside s.sessions (s.sessions.set i { c with buffer := buffer }) :=
    fun _ => .set hc ⟨rfl, rfl, rfl, .refl _ _⟩
  have hended : ∀ buffer cause, Beside s.sessions
      ((s.sessions.set i { c with buffer := buffer }).set i
        { c with readLoop := .ended cause }) := fun buffer cause =>
    (hbuffer buffer).trans (.set (List.getElem?_set_self hlt) ⟨rfl, rfl, rfl, .refl _ _⟩)
  split at h
  · split at h
    · rename_i tx htx
      cases h
      exact ⟨hbuffer _, Broadcast.follows_of_send htx⟩
    · cases h
      exact ⟨hended _ _, fun _ => .refl _ _⟩
  · obtain ⟨d, hd, h⟩ := Option.bind_eq_some_iff.mp h
    split at h
    · rename_i channel hchannel
      cases h
      exact ⟨(hbuffer _).trans (.set hd ⟨rfl, rfl, rfl, Broadcast.follows_of_send hchannel _⟩),
        fun _ => .refl _ _⟩
    · cases h
      exact ⟨hended _ _, fun _ => .refl _ _⟩
  · cases h
    exact ⟨hbuffer _, fun _ => .refl _ _⟩
  · cases h
    exact ⟨hended _ _, fun _ => .refl _ _⟩
  · cases h
    exact ⟨hended _ _, fun _ => .refl _ _⟩

/-- What is no turn of a loop leaves the loops alone. -/
lemma beside_step {a : DataChannelAction} (ha : ¬ Moves a) (h : s.step a = some t) :
    Beside s.sessions t.sessions ∧
      ∀ r, s.dataChannelForward.Follows t.dataChannelForward r := by
  cases a with
  | register id =>
      cases h
      refine ⟨⟨fun j c hc => ⟨c, ?_, .refl j c⟩, fun j d hd => ?_⟩, fun _ => .refl _ _⟩
      · rw [registerStep, List.getElem?_append_left (List.getElem?_eq_some_iff.mp hc).1]
        exact hc
      · rw [registerStep, List.getElem?_append] at hd
        split_ifs at hd with hlt
        · exact .inl ⟨d, hd, .refl j d⟩
        · obtain rfl := List.mem_singleton.mp (List.mem_of_getElem? hd)
          exact .inr ⟨List.getElem?_eq_none (not_lt.mp hlt), rfl, rfl⟩
  | opened i =>
      simp only [step, openedStep, Option.bind_eq_some_iff, Option.ite_none_right_eq_some,
        Option.some.injEq] at h
      obtain ⟨c, hc, -, rfl⟩ := h
      exact ⟨.set hc ⟨rfl, rfl, rfl, .refl _ _⟩, fun _ => .refl _ _⟩
  | notice id =>
      cases h
      exact ⟨.refl _, s.dataChannelForward.follows_sendIgnore _⟩
  | remove id =>
      cases h
      exact ⟨.refl _, fun _ => .refl _ _⟩
  | announce i =>
      simp only [step, announceStep, Option.bind_eq_some_iff, Option.ite_none_right_eq_some] at h
      obtain ⟨c, hc, -, h⟩ := h
      split at h
      · rename_i tx htx
        cases h
        exact ⟨.set hc ⟨rfl, rfl, rfl, .refl _ _⟩, Broadcast.follows_of_send htx⟩
      · cases h
        exact ⟨.set hc ⟨rfl, rfl, rfl, .refl _ _⟩, fun _ => .refl _ _⟩
  | read i m => exact beside_read h
  | readErr i =>
      simp only [step, readErrStep, Option.bind_eq_some_iff, Option.ite_none_right_eq_some,
        Option.some.injEq] at h
      obtain ⟨c, hc, -, rfl⟩ := h
      exact ⟨.set hc ⟨rfl, rfl, rfl, .refl _ _⟩, fun _ => .refl _ _⟩
  | spawnWrite i => exact absurd trivial ha
  | spawnPipe i => exact absurd trivial ha
  | write i written => exact absurd trivial ha
  | pipe i => exact absurd trivial ha

end DataChannelSystem

namespace LoopSystem

variable {s t : LoopSystem} {a : LoopAction} {i j k : ℕ}

/-! ### The turns of the loops -/

/-- A step of the data channels is one of theirs. -/
lemma exists_channels {a : DataChannelAction} (h : s.step (.channel a) = some t) :
    ∃ channels, s.channels.step a = some channels ∧
      { s with channels := channels, traces := s.traced a } = t :=
  Option.map_eq_some_iff.mp h

/-- A turn of a write loop. -/
inductive WriteTurn (s : LoopSystem) (i : ℕ) (c : DataChannelSession) (written : Bool) :
    LoopSystem → Prop
  | wrote {m : Bytes} (received : (c.userSender.recv i).1 = .message m) (ok : written = true) :
      WriteTurn s i c written { s with
        channels := s.channels.setSession i { c with userSender := (c.userSender.recv i).2 }
        traces := s.setTrace i { s.traces i with written := (s.traces i).written ++ [m] } }
  | failed {m : Bytes} (received : (c.userSender.recv i).1 = .message m)
      (ok : written = false) :
      WriteTurn s i c written { s with
        channels := s.channels.setSession i { c with
          userSender := c.userSender.unsubscribe i, writeLoop := some .finished }
        traces := s.setTrace i { s.traces i with failed := true } }
  | lagged (received : c.userSender.capacity < c.userSender.unread i) :
      WriteTurn s i c written { s with
        channels := s.channels.setSession i { c with
          userSender := c.userSender.unsubscribe i, writeLoop := some .finished } }
  | closed (received : c.userSender.unread i = 0)
      (dropped : s.channels.senderDropped i c = true) :
      WriteTurn s i c written { s with
        channels := s.channels.setSession i { c with
          userSender := c.userSender.unsubscribe i, writeLoop := some .finished } }

lemma write_cases {written : Bool} (h : s.step (.channel (.write i written)) = some t) :
    ∃ c, s.channels.sessions[i]? = some c ∧ c.writeLoop = some .running ∧
      s.WriteTurn i c written t := by
  obtain ⟨channels, hstep, rfl⟩ := exists_channels h
  simp only [DataChannelSystem.step, DataChannelSystem.writeStep, Option.bind_eq_some_iff,
    Option.ite_none_right_eq_some] at hstep
  obtain ⟨c, hc, hrunning, h⟩ := hstep
  refine ⟨c, hc, hrunning, ?_⟩
  have htraced : s.traced (.write i written) =
      match (c.userSender.recv i).1 with
      | .message m =>
          if written then
            s.setTrace i { s.traces i with written := (s.traces i).written ++ [m] }
          else s.setTrace i { s.traces i with failed := true }
      | .empty | .lagged _ => s.traces := by
    simp only [traced, hc]
  split at h
  · rename_i m channel hrecv
    have hm : (c.userSender.recv i).1 = .message m := by rw [hrecv]
    rw [htraced, hm]
    cases written with
    | true =>
        cases h
        have hturn : s.WriteTurn i c true _ := .wrote hm rfl
        rw [hrecv] at hturn
        exact hturn
    | false =>
        cases h
        exact .failed hm rfl
  · rename_i n channel hrecv
    have hm : (c.userSender.recv i).1 = .lagged n := by rw [hrecv]
    rw [htraced, hm]
    cases h
    exact .lagged ((c.userSender.recv_fst_eq_lagged_iff _).mp ⟨n, hm⟩)
  · rename_i channel hrecv
    have hm : (c.userSender.recv i).1 = .empty := by rw [hrecv]
    rw [htraced, hm]
    obtain ⟨hdropped, h⟩ := Option.ite_none_right_eq_some.mp h
    cases h
    exact .closed ((c.userSender.recv_fst_eq_empty_iff _).mp hm) hdropped

/-- A turn of a pipe loop. -/
inductive PipeTurn (s : LoopSystem) (i : ℕ) (c : DataChannelSession) : LoopSystem → Prop
  | own {m : Bytes} (received : (s.channels.dataChannelForward.recv (i + 1)).1 = .message m)
      (sender : Group.frameSender m = c.id) :
      PipeTurn s i c { s with
        channels := { s.channels with
          dataChannelForward := (s.channels.dataChannelForward.recv (i + 1)).2 } }
  | piped {m : Bytes} {channel : Broadcast Bytes}
      (received : (s.channels.dataChannelForward.recv (i + 1)).1 = .message m)
      (sender : Group.frameSender m ≠ c.id) (sent : c.userSender.send m = some channel) :
      PipeTurn s i c { s with
        channels := { s.channels with
          dataChannelForward :=
            (s.channels.dataChannelForward.recv (i + 1)).2 }.setSession i
              { c with userSender := channel }
        traces := s.setTrace i { s.traces i with piped := (s.traces i).piped ++ [m] } }
  | failed (noReceiver : ¬ c.userSender.HasReceiver) :
      PipeTurn s i c { s with
        channels := { s.channels with
          dataChannelForward := s.channels.dataChannelForward.unsubscribe (i + 1) }.setSession i
            { c with pipeLoop := some .finished } }
  | lagged (received : s.channels.dataChannelForward.capacity <
        s.channels.dataChannelForward.unread (i + 1)) :
      PipeTurn s i c { s with
        channels := { s.channels with
          dataChannelForward := s.channels.dataChannelForward.unsubscribe (i + 1) }.setSession i
            { c with pipeLoop := some .finished } }

lemma pipe_cases (h : s.step (.channel (.pipe i)) = some t) :
    ∃ c, s.channels.sessions[i]? = some c ∧ c.pipeLoop = some .running ∧ s.PipeTurn i c t := by
  obtain ⟨channels, hstep, rfl⟩ := exists_channels h
  simp only [DataChannelSystem.step, DataChannelSystem.pipeStep, Option.bind_eq_some_iff,
    Option.ite_none_right_eq_some] at hstep
  obtain ⟨c, hc, hrunning, h⟩ := hstep
  refine ⟨c, hc, hrunning, ?_⟩
  have htraced : s.traced (.pipe i) =
      match (s.channels.dataChannelForward.recv (i + 1)).1 with
      | .message m =>
          if Group.frameSender m = c.id ∨ ¬ c.userSender.HasReceiver then s.traces
          else s.setTrace i { s.traces i with piped := (s.traces i).piped ++ [m] }
      | .empty | .lagged _ => s.traces := by
    simp only [traced, hc]
  split at h
  · cases h
  · rename_i n tx hrecv
    have hm : (s.channels.dataChannelForward.recv (i + 1)).1 = .lagged n := by rw [hrecv]
    rw [htraced, hm]
    cases h
    exact .lagged ((s.channels.dataChannelForward.recv_fst_eq_lagged_iff _).mp ⟨n, hm⟩)
  · rename_i m tx hrecv
    have hm : (s.channels.dataChannelForward.recv (i + 1)).1 = .message m := by rw [hrecv]
    have htx : tx = (s.channels.dataChannelForward.recv (i + 1)).2 := by rw [hrecv]
    rw [htraced, hm]
    dsimp only
    by_cases hown : Group.frameSender m = c.id
    · rw [if_pos (.inl hown)]
      rw [if_pos hown, Option.some.injEq] at h
      subst h htx
      exact .own hm hown
    · rw [if_neg hown] at h
      split at h
      · rename_i channel hsend
        have hreceiver := ((c.userSender.send_eq_some_iff m).mp hsend).1
        rw [if_neg (not_or_intro hown (not_not_intro hreceiver))]
        cases h
        subst htx
        exact .piped hm hown hsend
      · rename_i hsend
        have hreceiver := (c.userSender.send_eq_none_iff m).mp hsend
        rw [if_pos (.inr hreceiver)]
        cases h
        exact .failed hreceiver

/-- A turn of a feedback loop. -/
inductive FeedbackTurn (s : LoopSystem) (k : ℕ) (l : FeedbackLoop) (written : Bool) :
    LoopSystem → Prop
  | wrote {m : RtcpMessage × UInt32} (received : (s.publishRtcp.recv (k + 1)).1 = .message m)
      (ok : l.connected = true) :
      FeedbackTurn s k l written
        ({ s with publishRtcp := (s.publishRtcp.recv (k + 1)).2 }.setPublisher k
          { l with sent := l.sent ++ [m] })
  | failed {m : RtcpMessage × UInt32} (received : (s.publishRtcp.recv (k + 1)).1 = .message m)
      (ok : l.connected = false ∨ written = false) :
      FeedbackTurn s k l written (s.endPublisher k l)
  | lagged (received : s.publishRtcp.capacity < s.publishRtcp.unread (k + 1)) :
      FeedbackTurn s k l written (s.endPublisher k l)
  | closed (received : s.publishRtcp.unread (k + 1) = 0) (dropped : s.streamDropped = true) :
      FeedbackTurn s k l written (s.endPublisher k l)

lemma rtcp_cases {written : Bool} (h : s.step (.rtcp k written) = some t) :
    ∃ l, s.publishers[k]? = some l ∧ l.status = .running ∧ s.FeedbackTurn k l written t := by
  simp only [step, rtcpStep, Option.bind_eq_some_iff, Option.ite_none_right_eq_some] at h
  obtain ⟨l, hl, hrunning, h⟩ := h
  refine ⟨l, hl, hrunning, ?_⟩
  split at h
  · rename_i m channel hrecv
    have hm : (s.publishRtcp.recv (k + 1)).1 = .message m := by rw [hrecv]
    obtain rfl : channel = (s.publishRtcp.recv (k + 1)).2 := by rw [hrecv]
    cases h
    by_cases hok : (l.connected && written) = true
    · rw [if_pos hok]
      exact .wrote hm (Bool.and_elim_left hok)
    · rw [if_neg hok]
      refine .failed hm ?_
      simpa [Bool.and_eq_true, or_iff_not_imp_left] using hok
  · rename_i n channel hrecv
    cases h
    exact .lagged ((s.publishRtcp.recv_fst_eq_lagged_iff _).mp ⟨n, by rw [hrecv]⟩)
  · rename_i channel hrecv
    obtain ⟨hdropped, h⟩ := Option.ite_none_right_eq_some.mp h
    cases h
    exact .closed ((s.publishRtcp.recv_fst_eq_empty_iff _).mp (by rw [hrecv])) hdropped

/-! ### What the loops have done -/

/-- What the loops of the data channel `j` have done: a loop that runs has handed on what it has
received, and where the write loop has ended, its peer is gone, a write has failed or nothing
comes any more. -/
structure Serves (tx : Broadcast Bytes) (l : LoopTrace) (j : ℕ) (c : DataChannelSession) :
    Prop where
  written : c.writeLoop = some .running → c.userSender.Reads j l.writtenSince l.written
  piped : c.pipeLoop = some .running → ∃ seen, tx.Reads (j + 1) l.pipedSince seen ∧
    l.piped = seen.filter (Group.frameSender · ≠ c.id)
  spawned : c.pipeLoop ≠ none → c.writeLoop ≠ none
  ended : c.writeLoop ≠ none → c.writeLoop ≠ some .running → l.failed = true ∨ l.gone = true ∨
    c.pipeLoop ≠ none ∧ c.pipeLoop ≠ some .running

/-- What the loops of all data channels and publishers have done. -/
structure Served (s : LoopSystem) : Prop where
  sessions : ∀ (j : ℕ) (c : DataChannelSession), s.channels.sessions[j]? = some c →
    Serves s.channels.dataChannelForward (s.traces j) j c
  feedback : ∀ (k : ℕ) (l : FeedbackLoop), s.publishers[k]? = some l → l.status = .running →
    s.publishRtcp.Reads (k + 1) l.since l.sent

lemma served_new : new.Served :=
  ⟨fun _ _ h => (by cases h), fun _ _ h => (by cases h)⟩

/-- Who has handed on what it has received delivers. -/
lemma Served.delivers (h : s.Served) : s.Delivers where
  write i c hc := (h.sessions i c hc).written
  pipe i c hc := (h.sessions i c hc).piped
  feedback := h.feedback

/-- What goes on beside its loops leaves what they have done. -/
lemma Serves.beside {tx tx' : Broadcast Bytes} {l : LoopTrace} {c d : DataChannelSession}
    (h : Serves tx l j c) (hd : DataChannelSystem.SameLoops j c d)
    (htx : tx.Follows tx' (j + 1)) : Serves tx' l j d where
  written hrunning := (h.written (hd.writeLoop ▸ hrunning)).follows hd.userSender
  piped hrunning := by
    obtain ⟨seen, hseen, hpiped⟩ := h.piped (hd.pipeLoop ▸ hrunning)
    exact ⟨seen, hseen.follows htx, by rw [hpiped, hd.id]⟩
  spawned hpipe := by
    rw [hd.writeLoop]
    exact h.spawned (hd.pipeLoop ▸ hpipe)
  ended hwrite hrunning := by
    rw [hd.pipeLoop]
    exact h.ended (hd.writeLoop ▸ hwrite) (hd.writeLoop ▸ hrunning)

/-- A step that changes the data channel `i` only. -/
structure Changes (s : LoopSystem) (i : ℕ) (t : LoopSystem) : Prop where
  sessions : ∀ j ≠ i, t.channels.sessions[j]? = s.channels.sessions[j]?
  channel : ∀ r ≠ i + 1,
    s.channels.dataChannelForward.Follows t.channels.dataChannelForward r
  traces : ∀ j ≠ i, t.traces j = s.traces j
  publishRtcp : t.publishRtcp = s.publishRtcp
  publishers : t.publishers = s.publishers

lemma Changes.served (h : s.Changes i t) (hs : s.Served)
    (hi : ∀ c, t.channels.sessions[i]? = some c →
      Serves t.channels.dataChannelForward (t.traces i) i c) : t.Served where
  sessions j c hc := by
    by_cases hj : j = i
    · exact hj ▸ hi c (hj ▸ hc)
    · rw [h.sessions j hj] at hc
      rw [h.traces j hj]
      exact (hs.sessions j c hc).beside (.refl j c) (h.channel (j + 1) (by omega))
  feedback k l hl hrunning := by
    rw [h.publishRtcp]
    exact hs.feedback k l (h.publishers ▸ hl) hrunning

/-- The other loops run on. -/
lemma Changes.survives (h : s.Changes i t)
    (hwrite : s.Writing i → (s.traces i).gone = false → t.Writing i ∨ s.WriteEnds i a)
    (hpipe : s.Piping i → (s.traces i).gone = false → t.Piping i ∨ s.PipeEnds i a) :
    s.Survives a t where
  write j hj hgone := by
    by_cases hji : j = i
    · subst hji
      exact hwrite hj hgone
    · obtain ⟨c, hc, hrunning⟩ := hj
      exact .inl ⟨c, (h.sessions j hji).trans hc, hrunning⟩
  pipe j hj hgone := by
    by_cases hji : j = i
    · subst hji
      exact hpipe hj hgone
    · obtain ⟨c, hc, hrunning⟩ := hj
      exact .inl ⟨c, (h.sessions j hji).trans hc, hrunning⟩
  feedback k l hl hrunning _ := .inl ⟨l, h.publishers ▸ hl, hrunning⟩

/-! ### The turns keep what the loops have done -/

lemma setTrace_ne {l : LoopTrace} (h : j ≠ i) : s.setTrace i l j = s.traces j :=
  Function.update_of_ne h _ _

lemma sessions_setSession_ne {u : DataChannelSystem} {c : DataChannelSession} (h : j ≠ i) :
    (u.setSession i c).sessions[j]? = u.sessions[j]? :=
  List.getElem?_set_ne h.symm

/-- The data channel after a change of it. -/
lemma eq_of_setSession {u : DataChannelSystem} {c c' d : DataChannelSession}
    (hc : u.sessions[i]? = some c) (h : (u.setSession i c').sessions[i]? = some d) : c' = d := by
  rw [DataChannelSystem.setSession, List.getElem?_set_self (List.getElem?_eq_some_iff.mp hc).1] at h
  exact Option.some.inj h

/-- A turn of a write loop changes its data channel only. -/
lemma WriteTurn.changes {c : DataChannelSession} {written : Bool}
    (h : s.WriteTurn i c written t) : s.Changes i t := by
  cases h <;>
    exact ⟨fun j hj => sessions_setSession_ne hj, fun _ _ => .refl _ _,
      fun j hj => (by first | rfl | exact setTrace_ne hj), rfl, rfl⟩

/-- A turn of a pipe loop changes its data channel only. -/
lemma PipeTurn.changes {c : DataChannelSession} (h : s.PipeTurn i c t) : s.Changes i t := by
  cases h with
  | own received sender =>
      exact ⟨fun _ _ => rfl, fun r hr => Broadcast.follows_recv (Ne.symm hr), fun _ _ => rfl,
        rfl, rfl⟩
  | piped received sender sent =>
      exact ⟨fun j hj => sessions_setSession_ne hj,
        fun r hr => Broadcast.follows_recv (Ne.symm hr), fun j hj => setTrace_ne hj, rfl, rfl⟩
  | failed noReceiver =>
      exact ⟨fun j hj => sessions_setSession_ne hj,
        fun r hr => Broadcast.follows_unsubscribe (Ne.symm hr), fun _ _ => rfl, rfl, rfl⟩
  | lagged received =>
      exact ⟨fun j hj => sessions_setSession_ne hj,
        fun r hr => Broadcast.follows_unsubscribe (Ne.symm hr), fun _ _ => rfl, rfl, rfl⟩

/-- A turn of a write loop that keeps up. -/
lemma WriteTurn.serves {c d : DataChannelSession} {written : Bool}
    (hc : s.channels.sessions[i]? = some c) (hrunning : c.writeLoop = some .running) (hs : s.Served)
    (hok : s.KeepsUp (.channel (.write i written))) (h : s.WriteTurn i c written t)
    (hd : t.channels.sessions[i]? = some d) :
    Serves t.channels.dataChannelForward (t.traces i) i d := by
  have hserves := hs.sessions i c hc
  cases h with
  | wrote received ok =>
      obtain rfl := eq_of_setSession hc hd
      simp only [setTrace, Function.update_self]
      exact ⟨fun _ => (hserves.written hrunning).recv received, hserves.piped, hserves.spawned,
        hserves.ended⟩
  | failed received ok =>
      obtain rfl := eq_of_setSession hc hd
      simp only [setTrace, Function.update_self]
      exact ⟨nofun, hserves.piped, fun _ => by simp, fun _ _ => .inl rfl⟩
  | lagged received =>
      obtain rfl := eq_of_setSession hc hd
      refine ⟨nofun, hserves.piped, fun _ => by simp, fun _ _ => .inr (.inl ?_)⟩
      -- it has not kept up, so that its peer is gone
      by_contra hgone
      exact absurd (hok c hc hrunning (Bool.eq_false_of_not_eq_true hgone)) (not_le.mpr received)
  | closed received dropped =>
      obtain rfl := eq_of_setSession hc hd
      refine ⟨nofun, hserves.piped, fun _ => by simp, fun _ _ => .inr (.inr ?_)⟩
      simp only [DataChannelSystem.senderDropped, Bool.and_eq_true, decide_eq_true_eq] at dropped
      exact ⟨dropped.1.2, dropped.2⟩

/-- A turn of a pipe loop. -/
lemma PipeTurn.serves {c d : DataChannelSession} (hc : s.channels.sessions[i]? = some c)
    (hrunning : c.pipeLoop = some .running) (hs : s.Served) (h : s.PipeTurn i c t)
    (hd : t.channels.sessions[i]? = some d) :
    Serves t.channels.dataChannelForward (t.traces i) i d := by
  have hserves := hs.sessions i c hc
  obtain ⟨seen, hseen, hpiped⟩ := hserves.piped hrunning
  cases h with
  | own received sender =>
      obtain rfl := Option.some.inj (hc.symm.trans hd)
      refine ⟨hserves.written, fun _ => ⟨_, hseen.recv received, ?_⟩, hserves.spawned,
        hserves.ended⟩
      simp [List.filter_append, hpiped, sender]
  | piped received sender sent =>
      obtain rfl := eq_of_setSession hc hd
      simp only [setTrace, Function.update_self]
      refine ⟨fun hwrite => (hserves.written hwrite).follows (Broadcast.follows_of_send sent i),
        fun _ => ⟨_, hseen.recv received, ?_⟩, hserves.spawned, hserves.ended⟩
      simp [List.filter_append, hpiped, sender]
  | failed noReceiver =>
      obtain rfl := eq_of_setSession hc hd
      exact ⟨hserves.written, nofun, fun _ => hserves.spawned (by simp [hrunning]),
        fun _ _ => .inr (.inr (by simp))⟩
  | lagged received =>
      obtain rfl := eq_of_setSession hc hd
      exact ⟨hserves.written, nofun, fun _ => hserves.spawned (by simp [hrunning]),
        fun _ _ => .inr (.inr (by simp))⟩

/-- The start of a write loop. -/
lemma served_spawnWrite (hs : s.Served) (h : s.step (.channel (.spawnWrite i)) = some t) :
    s.Changes i t ∧ t.Served := by
  obtain ⟨channels, hstep, rfl⟩ := exists_channels h
  simp only [DataChannelSystem.step, DataChannelSystem.spawnWriteStep, Option.bind_eq_some_iff,
    Option.ite_none_right_eq_some, Option.some.injEq] at hstep
  obtain ⟨c, hc, ⟨-, hnone⟩, rfl⟩ := hstep
  have htraced : s.traced (.spawnWrite i) = s.setTrace i { s.traces i with
      writtenSince := c.userSender.log.length, written := [] } := by
    simp only [traced, hc]
  have hchanges : s.Changes i { s with
      channels := s.channels.setSession i { c with
        userSender := c.userSender.subscribe i, writeLoop := some .running }
      traces := s.traced (.spawnWrite i) } :=
    ⟨fun j hj => sessions_setSession_ne hj, fun _ _ => .refl _ _,
      fun j hj => (congrFun htraced j).trans (setTrace_ne hj), rfl, rfl⟩
  refine ⟨hchanges, hchanges.served hs fun d hd => ?_⟩
  have hserves := hs.sessions i c hc
  obtain rfl := eq_of_setSession hc hd
  rw [htraced]
  simp only [setTrace, Function.update_self]
  exact ⟨fun _ => Broadcast.reads_subscribe _ _, hserves.piped, fun _ => by simp,
    fun _ hne => absurd rfl hne⟩

/-- The start of a pipe loop. -/
lemma served_spawnPipe (hs : s.Served) (h : s.step (.channel (.spawnPipe i)) = some t) :
    s.Changes i t ∧ t.Served := by
  obtain ⟨channels, hstep, rfl⟩ := exists_channels h
  simp only [DataChannelSystem.step, DataChannelSystem.spawnPipeStep, Option.bind_eq_some_iff,
    Option.ite_none_right_eq_some, Option.some.injEq] at hstep
  obtain ⟨c, hc, ⟨hwrite, hnone⟩, rfl⟩ := hstep
  have hchanges : s.Changes i { s with
      channels := { s.channels with
        dataChannelForward := s.channels.dataChannelForward.subscribe (i + 1) }.setSession i
          { c with pipeLoop := some .running }
      traces := s.traced (.spawnPipe i) } :=
    ⟨fun j hj => sessions_setSession_ne hj,
      fun r hr => Broadcast.follows_subscribe (Ne.symm hr), fun j hj => setTrace_ne hj, rfl, rfl⟩
  refine ⟨hchanges, hchanges.served hs fun d hd => ?_⟩
  have hserves := hs.sessions i c hc
  obtain rfl := eq_of_setSession hc hd
  simp only [traced, setTrace, Function.update_self]
  refine ⟨hserves.written, fun _ => ⟨[], Broadcast.reads_subscribe _ _, rfl⟩, fun _ => hwrite,
    fun hwrite hne => ?_⟩
  rcases hserves.ended hwrite hne with hfailed | hgone | ⟨hpipe, -⟩
  · exact .inl hfailed
  · exact .inr (.inl hgone)
  · exact absurd hnone hpipe

/-- What is no turn of a loop of a data channel leaves the loops alone. -/
lemma served_beside {a : DataChannelAction} (ha : ¬ DataChannelSystem.Moves a) (hs : s.Served)
    (h : s.step (.channel a) = some t) : t.Served ∧ ∀ b, s.Survives b t := by
  obtain ⟨channels, hstep, rfl⟩ := exists_channels h
  obtain ⟨hbeside, hfollows⟩ := DataChannelSystem.beside_step ha hstep
  have htraced : s.traced a = s.traces := by
    cases a <;> first | rfl | exact absurd trivial ha
  refine ⟨⟨fun j d hd => ?_, hs.feedback⟩, fun b => ⟨?_, ?_, ?_⟩⟩
  · rw [htraced]
    rcases hbeside.new j d hd with ⟨c, hc, hcd⟩ | ⟨-, hwrite, hpipe⟩
    · exact (hs.sessions j c hc).beside hcd (hfollows (j + 1))
    · exact ⟨fun hne => by simp [hwrite] at hne, fun hne => by simp [hpipe] at hne,
        fun hne => absurd hpipe hne, fun hne => absurd hwrite hne⟩
  · rintro j ⟨c, hc, hrunning⟩ -
    obtain ⟨d, hd, hcd⟩ := hbeside.old j c hc
    exact .inl ⟨d, hd, hcd.writeLoop.trans hrunning⟩
  · rintro j ⟨c, hc, hrunning⟩ -
    obtain ⟨d, hd, hcd⟩ := hbeside.old j c hc
    exact .inl ⟨d, hd, hcd.pipeLoop.trans hrunning⟩
  · exact fun k l hl hrunning _ => .inl ⟨l, hl, hrunning⟩

/-- The data channels and what their loops have done are left alone. -/
lemma Served.of_channels (hs : s.Served) (hchannels : t.channels = s.channels)
    (htraces : t.traces = s.traces)
    (hfeedback : ∀ (k : ℕ) (l : FeedbackLoop), t.publishers[k]? = some l → l.status = .running →
      t.publishRtcp.Reads (k + 1) l.since l.sent) : t.Served where
  sessions j c hc := by
    rw [hchannels] at hc ⊢
    rw [htraces]
    exact hs.sessions j c hc
  feedback := hfeedback

lemma survives_of_channels (hchannels : t.channels = s.channels)
    (hfeedback : ∀ (k : ℕ) (l : FeedbackLoop), s.publishers[k]? = some l → l.status = .running →
      l.connected = true → t.Feeding k ∨ s.FeedbackEnds k a) : s.Survives a t where
  write j hj _ := .inl (by rwa [Writing, hchannels])
  pipe j hj _ := .inl (by rwa [Piping, hchannels])
  feedback := hfeedback

/-- A turn of a feedback loop. -/
lemma FeedbackTurn.served {l : FeedbackLoop} {written : Bool} (hl : s.publishers[k]? = some l)
    (hrunning : l.status = .running) (hs : s.Served) (h : s.FeedbackTurn k l written t) :
    t.Served := by
  have hended : (s.endPublisher k l).Served := by
    refine hs.of_channels rfl rfl fun j l' hl' hrunning' => ?_
    rcases Vec.getElem?_set_cases hl' with ⟨rfl, rfl⟩ | ⟨hj, hl'⟩
    · cases hrunning'
    · exact (hs.feedback j l' hl' hrunning').follows
        (Broadcast.follows_unsubscribe (by omega))
  cases h with
  | wrote received ok =>
      refine hs.of_channels rfl rfl fun j l' hl' hrunning' => ?_
      rcases Vec.getElem?_set_cases hl' with ⟨rfl, rfl⟩ | ⟨hj, hl'⟩
      · exact (hs.feedback j l hl hrunning).recv received
      · exact (hs.feedback j l' hl' hrunning').follows (Broadcast.follows_recv (by omega))
  | failed received ok => exact hended
  | lagged received => exact hended
  | closed received dropped => exact hended

/-- A step in which the loops keep up keeps what they have done. -/
lemma served_step (hs : s.Served) (hok : s.KeepsUp a) (h : s.step a = some t) : t.Served := by
  cases a with
  | channel a =>
      cases a with
      | spawnWrite i => exact (served_spawnWrite hs h).2
      | spawnPipe i => exact (served_spawnPipe hs h).2
      | write i written =>
          obtain ⟨c, hc, hrunning, hturn⟩ := write_cases h
          exact hturn.changes.served hs fun d hd => hturn.serves hc hrunning hs hok hd
      | pipe i =>
          obtain ⟨c, hc, hrunning, hturn⟩ := pipe_cases h
          exact hturn.changes.served hs fun d hd => hturn.serves hc hrunning hs hd
      | _ => exact (served_beside id hs h).1
  | disconnect i =>
      cases h
      refine ⟨fun j c hc => ?_, hs.feedback⟩
      by_cases hj : j = i
      · subst hj
        simp only [setTrace, Function.update_self]
        have hserves := hs.sessions j c hc
        exact ⟨hserves.written, hserves.piped, hserves.spawned, fun _ _ => .inr (.inl rfl)⟩
      · change Serves _ (s.setTrace i _ j) j c
        rw [setTrace_ne hj]
        exact hs.sessions j c hc
  | publish =>
      cases h
      refine hs.of_channels rfl rfl fun k l hl hrunning => ?_
      rcases Vec.getElem?_concat_cases hl with ⟨rfl, rfl⟩ | hl
      · exact Broadcast.reads_subscribe _ _
      · have hk := (List.getElem?_eq_some_iff.mp hl).1
        exact (hs.feedback k l hl hrunning).follows (Broadcast.follows_subscribe (by omega))
  | feedback msg ssrc =>
      cases h
      exact hs.of_channels rfl rfl fun k l hl hrunning =>
        (hs.feedback k l hl hrunning).follows (Broadcast.follows_sendIgnore _ _ _)
  | rtcp k written =>
      obtain ⟨l, hl, hrunning, hturn⟩ := rtcp_cases h
      exact hturn.served hl hrunning hs
  | dropPeer k =>
      obtain ⟨l, hl, rfl⟩ := Option.map_eq_some_iff.mp h
      refine hs.of_channels rfl rfl fun j l' hl' hrunning => ?_
      rcases Vec.getElem?_set_cases hl' with ⟨rfl, rfl⟩ | ⟨-, hl'⟩
      · exact hs.feedback j l hl hrunning
      · exact hs.feedback j l' hl' hrunning
  | dropStream =>
      cases h
      exact hs.of_channels rfl rfl hs.feedback

/-! ### The exact condition -/

/-- A turn of a write loop that keeps up ends it only where it may end. -/
lemma WriteTurn.survives {c : DataChannelSession} {written : Bool}
    (hc : s.channels.sessions[i]? = some c) (hrunning : c.writeLoop = some .running)
    (hok : s.KeepsUp (.channel (.write i written))) (h : s.WriteTurn i c written t) :
    s.Survives (.channel (.write i written)) t := by
  have hset := fun c' : DataChannelSession =>
    List.getElem?_set_self (a := c') (List.getElem?_eq_some_iff.mp hc).1
  refine h.changes.survives (fun _ hgone => ?_) fun ⟨d, hd, hpipe⟩ _ => .inl ?_
  · cases h with
    | wrote received ok => exact .inl ⟨_, hset _, hrunning⟩
    | failed received ok => exact .inr ⟨c, written, hc, rfl, .inr ⟨ok, _, received⟩⟩
    | lagged received => exact absurd (hok c hc hrunning hgone) (not_le.mpr received)
    | closed received dropped => exact .inr ⟨c, written, hc, rfl, .inl ⟨dropped, received⟩⟩
  · obtain rfl := Option.some.inj (hc.symm.trans hd)
    cases h <;> exact ⟨_, hset _, hpipe⟩

/-- A turn of a pipe loop that keeps up ends it only where it may end: if nobody receives on the
user's channel, the write loop has ended. -/
lemma PipeTurn.survives {c : DataChannelSession} (hs : s.Served)
    (hc : s.channels.sessions[i]? = some c) (hrunning : c.pipeLoop = some .running)
    (hok : s.KeepsUp (.channel (.pipe i))) (h : s.PipeTurn i c t) :
    s.Survives (.channel (.pipe i)) t := by
  have hset := fun c' : DataChannelSession =>
    List.getElem?_set_self (a := c') (List.getElem?_eq_some_iff.mp hc).1
  have hserves := hs.sessions i c hc
  refine h.changes.survives (fun ⟨d, hd, hwrite⟩ _ => .inl ?_) fun _ hgone => ?_
  · obtain rfl := Option.some.inj (hc.symm.trans hd)
    cases h with
    | own received sender => exact ⟨c, hc, hwrite⟩
    | piped received sender sent => exact ⟨_, hset _, hwrite⟩
    | failed noReceiver => exact ⟨_, hset _, hwrite⟩
    | lagged received => exact ⟨_, hset _, hwrite⟩
  · cases h with
    | own received sender => exact .inl ⟨c, hc, hrunning⟩
    | piped received sender sent => exact .inl ⟨_, hset _, hrunning⟩
    | failed noReceiver =>
        refine .inr ⟨rfl, ?_⟩
        have hwrite : c.writeLoop ≠ some .running := fun hwrite =>
          noReceiver ⟨i, (hserves.written hwrite).live⟩
        rcases hserves.ended (hserves.spawned (by simp [hrunning])) hwrite with
          hfailed | hgone' | ⟨-, hne⟩
        · exact hfailed
        · exact absurd (hgone.symm.trans hgone') Bool.false_ne_true
        · exact absurd hrunning hne
    | lagged received =>
        refine .inr ⟨rfl, ?_⟩
        by_contra hfailed
        exact absurd (hok c hc hrunning hgone (Bool.eq_false_of_not_eq_true hfailed))
          (not_le.mpr received)

/-- A turn of a feedback loop that keeps up ends it only where it may end. -/
lemma FeedbackTurn.survives {l : FeedbackLoop} {written : Bool}
    (hl : s.publishers[k]? = some l) (hrunning : l.status = .running)
    (hok : s.KeepsUp (.rtcp k written)) (h : s.FeedbackTurn k l written t) :
    s.Survives (.rtcp k written) t := by
  have hset := fun l' : FeedbackLoop =>
    List.getElem?_set_self (a := l') (List.getElem?_eq_some_iff.mp hl).1
  -- the other loops run on
  have hothers : ∀ (l' : FeedbackLoop) (j : ℕ) (l₀ : FeedbackLoop), s.publishers[j]? = some l₀ →
      l₀.status = .running → j ≠ k →
      ∃ l₁, (s.publishers.set k l')[j]? = some l₁ ∧ l₁.status = .running := by
    intro l' j l₀ hl₀ hrunning₀ hj
    exact ⟨l₀, (List.getElem?_set_ne hj.symm).trans hl₀, hrunning₀⟩
  cases h with
  | wrote received ok =>
      refine survives_of_channels rfl fun j l₀ hl₀ hrunning₀ _ => .inl ?_
      by_cases hj : j = k
      · subst hj
        exact ⟨_, hset _, hrunning⟩
      · exact hothers _ j l₀ hl₀ hrunning₀ hj
  | failed received ok =>
      refine survives_of_channels rfl fun j l₀ hl₀ hrunning₀ hconnected => ?_
      by_cases hj : j = k
      · subst hj
        obtain rfl := Option.some.inj (hl.symm.trans hl₀)
        have hwritten : written = false := ok.resolve_left (by simp [hconnected])
        exact .inr ⟨written, rfl, .inr ⟨hwritten, _, received⟩⟩
      · exact .inl (hothers _ j l₀ hl₀ hrunning₀ hj)
  | lagged received =>
      refine survives_of_channels rfl fun j l₀ hl₀ hrunning₀ hconnected => ?_
      by_cases hj : j = k
      · subst hj
        exact absurd (hok l₀ hl₀ hrunning₀ hconnected) (not_le.mpr received)
      · exact .inl (hothers _ j l₀ hl₀ hrunning₀ hj)
  | closed received dropped =>
      refine survives_of_channels rfl fun j l₀ hl₀ hrunning₀ hconnected => ?_
      by_cases hj : j = k
      · subst hj
        exact .inr ⟨written, rfl, .inl ⟨dropped, received⟩⟩
      · exact .inl (hothers _ j l₀ hl₀ hrunning₀ hj)

/-- In a step where the loops keep up, those of connected peers survive. -/
lemma survives_of_keepsUp (hs : s.Served) (hok : s.KeepsUp a) (h : s.step a = some t) :
    s.Survives a t := by
  cases a with
  | channel a =>
      cases a with
      | spawnWrite i =>
          obtain ⟨channels, hstep, rfl⟩ := exists_channels h
          simp only [DataChannelSystem.step, DataChannelSystem.spawnWriteStep,
            Option.bind_eq_some_iff, Option.ite_none_right_eq_some, Option.some.injEq] at hstep
          obtain ⟨c, hc, ⟨-, hnone⟩, rfl⟩ := hstep
          apply (served_spawnWrite hs h).1.survives
          · rintro ⟨d, hd, hrunning⟩ _
            obtain rfl := Option.some.inj (hc.symm.trans hd)
            simp [hnone] at hrunning
          · rintro ⟨d, hd, hrunning⟩ _
            obtain rfl := Option.some.inj (hc.symm.trans hd)
            exact .inl
              ⟨_, List.getElem?_set_self (List.getElem?_eq_some_iff.mp hc).1, hrunning⟩
      | spawnPipe i =>
          obtain ⟨channels, hstep, rfl⟩ := exists_channels h
          simp only [DataChannelSystem.step, DataChannelSystem.spawnPipeStep,
            Option.bind_eq_some_iff, Option.ite_none_right_eq_some, Option.some.injEq] at hstep
          obtain ⟨c, hc, ⟨-, hnone⟩, rfl⟩ := hstep
          apply (served_spawnPipe hs h).1.survives
          · rintro ⟨d, hd, hrunning⟩ _
            obtain rfl := Option.some.inj (hc.symm.trans hd)
            exact .inl
              ⟨_, List.getElem?_set_self (List.getElem?_eq_some_iff.mp hc).1, hrunning⟩
          · rintro ⟨d, hd, hrunning⟩ _
            obtain rfl := Option.some.inj (hc.symm.trans hd)
            simp [hnone] at hrunning
      | write i written =>
          obtain ⟨c, hc, hrunning, hturn⟩ := write_cases h
          exact hturn.survives hc hrunning hok
      | pipe i =>
          obtain ⟨c, hc, hrunning, hturn⟩ := pipe_cases h
          exact hturn.survives hs hc hrunning hok
      | _ => exact (served_beside id hs h).2 _
  | rtcp k written =>
      obtain ⟨l, hl, hrunning, hturn⟩ := rtcp_cases h
      exact hturn.survives hl hrunning hok
  | publish =>
      cases h
      refine survives_of_channels rfl fun k l hl hrunning _ => .inl ⟨l, ?_, hrunning⟩
      rw [publishStep, List.getElem?_append_left (List.getElem?_eq_some_iff.mp hl).1]
      exact hl
  | dropPeer k =>
      obtain ⟨l, hl, rfl⟩ := Option.map_eq_some_iff.mp h
      refine survives_of_channels rfl fun j l' hl' hrunning _ => .inl ?_
      by_cases hj : j = k
      · subst hj
        obtain rfl := Option.some.inj (hl.symm.trans hl')
        exact ⟨_, List.getElem?_set_self (List.getElem?_eq_some_iff.mp hl).1, hrunning⟩
      · exact ⟨l', (List.getElem?_set_ne (Ne.symm hj)).trans hl', hrunning⟩
  | disconnect i =>
      cases h
      exact survives_of_channels rfl fun k l hl hrunning _ => .inl ⟨l, hl, hrunning⟩
  | feedback msg ssrc =>
      cases h
      exact survives_of_channels rfl fun k l hl hrunning _ => .inl ⟨l, hl, hrunning⟩
  | dropStream =>
      cases h
      exact survives_of_channels rfl fun k l hl hrunning _ => .inl ⟨l, hl, hrunning⟩

/-- A loop that does not keep up ends without a cause. -/
lemma keepsUp_of_survives (h : s.step a = some t) (hsurvives : s.Survives a t) :
    s.KeepsUp a := by
  cases a with
  | channel a =>
      cases a with
      | write i written =>
          intro c hc hrunning hgone
          obtain ⟨c', hc', -, hturn⟩ := write_cases h
          obtain rfl := Option.some.inj (hc.symm.trans hc')
          cases hturn with
          | wrote received ok => exact c.userSender.unread_le_of_recv received
          | failed received ok => exact c.userSender.unread_le_of_recv received
          | closed received dropped => exact received.trans_le (Nat.zero_le _)
          | lagged received =>
              rcases hsurvives.write i ⟨c, hc, hrunning⟩ hgone with ⟨d, hd, hwrite⟩ | hends
              · obtain rfl := eq_of_setSession hc hd
                cases hwrite
              · obtain ⟨d, w, hd, -, ⟨-, hempty⟩ | ⟨-, m, hm⟩⟩ := hends
                · obtain rfl := Option.some.inj (hc.symm.trans hd)
                  exact hempty.trans_le (Nat.zero_le _)
                · obtain rfl := Option.some.inj (hc.symm.trans hd)
                  exact c.userSender.unread_le_of_recv hm
      | pipe i =>
          intro c hc hrunning hgone hfailed
          obtain ⟨c', hc', -, hturn⟩ := pipe_cases h
          obtain rfl := Option.some.inj (hc.symm.trans hc')
          cases hturn with
          | own received sender => exact Broadcast.unread_le_of_recv _ received
          | piped received sender sent => exact Broadcast.unread_le_of_recv _ received
          | failed noReceiver =>
              rcases hsurvives.pipe i ⟨c, hc, hrunning⟩ hgone with ⟨d, hd, hpipe⟩ | ⟨-, hends⟩
              · obtain rfl := eq_of_setSession hc hd
                cases hpipe
              · exact absurd (hfailed.symm.trans hends) Bool.false_ne_true
          | lagged received =>
              rcases hsurvives.pipe i ⟨c, hc, hrunning⟩ hgone with ⟨d, hd, hpipe⟩ | ⟨-, hends⟩
              · obtain rfl := eq_of_setSession hc hd
                cases hpipe
              · exact absurd (hfailed.symm.trans hends) Bool.false_ne_true
      | _ => trivial
  | rtcp k written =>
      intro l hl hrunning hconnected
      obtain ⟨l', hl', -, hturn⟩ := rtcp_cases h
      obtain rfl := Option.some.inj (hl.symm.trans hl')
      cases hturn with
      | wrote received ok => exact Broadcast.unread_le_of_recv _ received
      | failed received ok => exact Broadcast.unread_le_of_recv _ received
      | closed received dropped => exact received.trans_le (Nat.zero_le _)
      | lagged received =>
          rcases hsurvives.feedback k l hl hrunning hconnected with ⟨l', hl', hfeeding⟩ | hends
          · rcases Vec.getElem?_set_cases hl' with ⟨-, rfl⟩ | ⟨hne, -⟩
            · cases hfeeding
            · exact absurd rfl hne
          · obtain ⟨w, -, ⟨-, hempty⟩ | ⟨-, m, hm⟩⟩ := hends
            · exact hempty.trans_le (Nat.zero_le _)
            · exact Broadcast.unread_le_of_recv _ hm
  | _ => trivial

/-- Where there is something to read, a loop that runs can take its turn. -/
lemma proceeds (s : LoopSystem) : s.Proceeds where
  write i c hc hrunning hunread := by
    have hne : (c.userSender.recv i).1 ≠ .empty := fun h =>
      hunread.ne' ((c.userSender.recv_fst_eq_empty_iff i).mp h)
    simp only [step, channelStep, DataChannelSystem.step, DataChannelSystem.writeStep, hc,
      Option.bind_some, hrunning, if_true, Option.isSome_map]
    split
    · rfl
    · rfl
    · rename_i hrecv
      exact absurd (congrArg Prod.fst hrecv) hne
  pipe i c hc hrunning hunread := by
    have hne : (s.channels.dataChannelForward.recv (i + 1)).1 ≠ .empty := fun h =>
      hunread.ne' ((s.channels.dataChannelForward.recv_fst_eq_empty_iff (i + 1)).mp h)
    simp only [step, channelStep, DataChannelSystem.step, DataChannelSystem.pipeStep, hc,
      Option.bind_some, hrunning, if_true, Option.isSome_map]
    split
    · rename_i hrecv
      exact absurd (congrArg Prod.fst hrecv) hne
    · rfl
    · split_ifs
      · rfl
      · split <;> rfl
  feedback k l hl hrunning hunread := by
    have hne : (s.publishRtcp.recv (k + 1)).1 ≠ .empty := fun h =>
      hunread.ne' ((s.publishRtcp.recv_fst_eq_empty_iff (k + 1)).mp h)
    simp only [step, rtcpStep, hl, Option.bind_some, hrunning, if_true]
    split
    · rfl
    · rfl
    · rename_i hrecv
      exact absurd (congrArg Prod.fst hrecv) hne

/-- **When the forwarding loops survive**: in a run, no loop of a connected peer ever ends but
where the sender of its channel is gone or a write to its peer has failed, and each that runs has
handed on all that it was sent up to where it is and can go on with what is left, if and only if
no loop of a connected peer comes to its channel with more messages unread than the channel
retains. -/
theorem loopsSurvive_iff {s : LoopSystem} {as : List LoopAction} (h0 : loopMachine.init s) :
    loopMachine.Along (fun s a t => s.Survives a t ∧ t.Delivers ∧ t.Proceeds) s as ↔
      loopMachine.Guarded KeepsUp s as := by
  obtain rfl : s = .new := h0
  refine Machine.along_iff_guarded (I := Served) (fun r a t hr hstep => ?_) served_new
  refine ⟨⟨fun h => keepsUp_of_survives hstep h.1, fun hok => ?_⟩, fun hok =>
    served_step hr hok hstep⟩
  exact ⟨survives_of_keepsUp hr hok hstep, (served_step hr hok hstep).delivers, proceeds t⟩

/-- Two users with data channels: a message of one reaches the other, and feedback the publisher. -/
def quietRun : List LoopAction :=
  [.channel (.register 1), .channel (.opened 0), .channel (.spawnWrite 0),
    .channel (.spawnPipe 0), .channel (.announce 0), .channel (.pipe 0), .publish,
    .channel (.register 2), .channel (.opened 1), .channel (.spawnWrite 1),
    .channel (.spawnPipe 1), .channel (.read 0 [1, 0, 0, 0, 7]), .channel (.pipe 1),
    .channel (.write 1 true), .feedback .pictureLossIndication 9, .rtcp 0 true]

/-- In a run without bursts, the loops survive and deliver. -/
theorem loopsSurvive_quietRun :
    loopMachine.Along (fun s a t => s.Survives a t ∧ t.Delivers ∧ t.Proceeds) .new quietRun ∧
      (loopMachine.exec .new quietRun).any fun t =>
        (t.traces 1).written = [[0, 1, 0, 0, 0, 1, 0, 0, 0, 7]] ∧
          t.publishers.any (·.sent = [(.pictureLossIndication, 9)]) :=
  ⟨(loopsSurvive_iff rfl).mpr (by decide), by decide⟩

/-- A publisher, and more feedback than the channel retains before its loop takes a turn. -/
def burst : List LoopAction :=
  .publish :: List.replicate 65 (.feedback .pictureLossIndication 9)

/-- The loop ends, though its peer is connected and the stream is there. -/
theorem not_loopsSurvive_burst :
    ¬ ∀ (s : LoopSystem) (as : List LoopAction), loopMachine.init s →
      loopMachine.Along (fun s a t => s.Survives a t ∧ t.Delivers ∧ t.Proceeds) s as := by
  intro h
  have hburst : (loopMachine.exec .new burst).any fun s =>
      ¬ s.KeepsUp (.rtcp 0 true) ∧ (s.step (.rtcp 0 true)).isSome := by decide +kernel
  obtain ⟨t, ht, hlag⟩ := (Option.any_eq_true _ _).mp hburst
  obtain ⟨hlag, hsome⟩ := of_decide_eq_true hlag
  obtain ⟨u, hu⟩ := Option.isSome_iff_exists.mp hsome
  have hstep : loopMachine.step t (.rtcp 0 true) = some u := hu
  have hrun := (h .new (burst ++ [.rtcp 0 true]) rfl).last ht hstep
  exact hlag (keepsUp_of_survives hu hrun.1)

end LoopSystem

end SfuServer
