import SfuServer.Ws.Isolation

/-!
The data channels of a stream over runs, `data_channel_forward` and its three loops in
`src/forward/rtc/internal.rs`, and the isolation of failures in both relays.

A user's channel is registered in the sender map when its data channel is announced; its
receiver, in the write loop, and the pipe from the group come when the channel opens, and
the registration goes when the peer connection closes.  These are steps of their own, which
a read loop of another user can see in any order.

* `DataChannelSystem`, `DataChannelAction`, `dataChannelMachine`: the stream's group channel,
  the sender map and the sessions, and what can happen to them;
* `spec_of_step`: what a step does to the group channel, to the sessions and to the sender map;
* `live_receiver_step`: the group channel keeps the receiver that the stream holds, so sends
  to the group never fail;
* `readLoopsRelay_iff`: no read loop ends because a send failed, exactly if every unicast
  finds a receiver or an unregistered addressee;
* `relays_isolated_iff`: the exact condition for both relays.
-/

open Std (ExtTreeMap)

namespace SfuServer

open Endian

/-- Why a read loop has ended: the read failed or was empty, or a send failed. -/
inductive ReadEnd where
  | channelClosed
  | malformed
  | sendFailed
  deriving DecidableEq, Repr

/-- The stages of a read loop. -/
inductive ReadLoop where
  | waiting
  | announcing
  | reading
  | ended (cause : ReadEnd)
  deriving DecidableEq, Repr

/-- A data channel of a user, with the user's channel and the loops that serve it. -/
structure DataChannelSession where
  id : UInt32
  userSender : Broadcast Bytes
  buffer : ReadBuffer id
  readLoop : ReadLoop
  writeLoop : Option TaskStatus
  pipeLoop : Option TaskStatus

/-- The data channels of a stream: `dataChannelForward` is the channel of the group, whose
receiver 0 the stream holds, and a user's channel has the number of its session. -/
structure DataChannelSystem where
  dataChannelForward : Broadcast Bytes
  userSenderMap : ExtTreeMap UInt32 ℕ
  sessions : List DataChannelSession

/-- What can happen: a data channel is announced or opens, its three loops are started one
after the other, the close of a peer connection is told to the group and its user removed,
and each of the loops of a session takes a turn. -/
inductive DataChannelAction where
  | register (id : UInt32)
  | opened (i : ℕ)
  | spawnWrite (i : ℕ)
  | spawnPipe (i : ℕ)
  | notice (id : UInt32)
  | remove (id : UInt32)
  | announce (i : ℕ)
  | read (i : ℕ) (m : Bytes)
  | readErr (i : ℕ)
  | write (i : ℕ) (written : Bool)
  | pipe (i : ℕ)

namespace DataChannelSystem

/-- The channels of a new stream. -/
def new : DataChannelSystem where
  dataChannelForward := (Broadcast.new 64).subscribe 0
  userSenderMap := ∅
  sessions := []

/-- A change of a session. -/
def setSession (s : DataChannelSystem) (i : ℕ) (c : DataChannelSession) : DataChannelSystem :=
  { s with sessions := s.sessions.set i c }

/-- `publish_data_channel` and `subscribe_data_channel`: the user's channel is registered, in
the place of an earlier one. -/
def registerStep (s : DataChannelSystem) (id : UInt32) : DataChannelSystem where
  dataChannelForward := s.dataChannelForward
  userSenderMap := s.userSenderMap.insert id s.sessions.length
  sessions := s.sessions ++ [⟨id, Broadcast.new 64, ReadBuffer.new id, .waiting, none, none⟩]

/-- The data channel opens: the read loop is started first. -/
def openedStep (s : DataChannelSystem) (i : ℕ) : Option DataChannelSystem :=
  s.sessions[i]?.bind fun c =>
    if c.readLoop = .waiting then some (s.setSession i { c with readLoop := .announcing }) else none

/-- The write loop is started: the user's channel gets its receiver. -/
def spawnWriteStep (s : DataChannelSystem) (i : ℕ) : Option DataChannelSystem :=
  s.sessions[i]?.bind fun c =>
    if c.readLoop ≠ .waiting ∧ c.writeLoop = none then
      some (s.setSession i { c with
        userSender := c.userSender.subscribe i, writeLoop := some .running })
    else none

/-- The pipe loop is started: the group's channel gets a receiver for the user. -/
def spawnPipeStep (s : DataChannelSystem) (i : ℕ) : Option DataChannelSystem :=
  s.sessions[i]?.bind fun c =>
    if c.writeLoop ≠ none ∧ c.pipeLoop = none then
      some ({ s with dataChannelForward := s.dataChannelForward.subscribe (i + 1) }.setSession i
        { c with pipeLoop := some .running })
    else none

/-- `notice_network_event` for a connection that closed. -/
def noticeStep (s : DataChannelSystem) (id : UInt32) : DataChannelSystem :=
  { s with dataChannelForward := s.dataChannelForward.sendIgnore (networkEvent id false) }

/-- The removal of a user in `remove_publish` and `remove_subscribe`. -/
def removeStep (s : DataChannelSystem) (id : UInt32) : DataChannelSystem :=
  { s with userSenderMap := s.userSenderMap.erase id }

/-- The read loop announces its user to the group. -/
def announceStep (s : DataChannelSystem) (i : ℕ) : Option DataChannelSystem :=
  s.sessions[i]?.bind fun c =>
    if c.readLoop = .announcing then
      match s.dataChannelForward.send (networkEvent c.id true) with
      | some tx =>
          some ({ s with dataChannelForward := tx }.setSession i { c with readLoop := .reading })
      | none => some (s.setSession i { c with readLoop := .ended .sendFailed })
    else none

/-- One turn of `data_channel_read_loop` on a message that was read. -/
def readStep (s : DataChannelSystem) (i : ℕ) (m : Bytes) : Option DataChannelSystem :=
  s.sessions[i]?.bind fun c =>
    if c.readLoop = .reading then
      let (routing, buffer) := dataChannelReadStep s.userSenderMap c.buffer m
      let s := s.setSession i { c with buffer := buffer }
      match routing with
      | .broadcast frame =>
          match s.dataChannelForward.send frame with
          | some tx => some { s with dataChannelForward := tx }
          | none => some (s.setSession i { c with readLoop := .ended .sendFailed })
      | .unicast _ k frame =>
          s.sessions[k]?.bind fun d =>
            match d.userSender.send frame with
            | some channel => some (s.setSession k { d with userSender := channel })
            | none => some (s.setSession i { c with readLoop := .ended .sendFailed })
      | .unregistered _ => some s
      | .panic => some (s.setSession i { c with readLoop := .ended .malformed })
      | .stop => some (s.setSession i { c with readLoop := .ended .channelClosed })
    else none

/-- The read fails, and the read loop ends. -/
def readErrStep (s : DataChannelSystem) (i : ℕ) : Option DataChannelSystem :=
  s.sessions[i]?.bind fun c =>
    if c.readLoop = .reading then
      some (s.setSession i { c with readLoop := .ended .channelClosed })
    else none

/-- Nobody can send to the user's channel any more. -/
def senderDropped (s : DataChannelSystem) (i : ℕ) (c : DataChannelSession) : Bool :=
  decide (s.userSenderMap[c.id]? ≠ some i) && decide (c.pipeLoop ≠ none) &&
    decide (c.pipeLoop ≠ some .running)

/-- One turn of `data_channel_write_loop`, where the write succeeds or not. -/
def writeStep (s : DataChannelSystem) (i : ℕ) (written : Bool) : Option DataChannelSystem :=
  s.sessions[i]?.bind fun c =>
    if c.writeLoop = some .running then
      let stopped := s.setSession i { c with
        userSender := c.userSender.unsubscribe i, writeLoop := some .finished }
      match c.userSender.recv i with
      | (.message _, channel) =>
          if written then some (s.setSession i { c with userSender := channel }) else some stopped
      | (.lagged _, _) => some stopped
      | (.empty, _) => if s.senderDropped i c then some stopped else none
    else none

/-- One turn of `data_channel_broadcast_pipe_loop`; every frame has a header here, as what
is sent to the group is an announcement or a routed frame. -/
def pipeStep (s : DataChannelSystem) (i : ℕ) : Option DataChannelSystem :=
  s.sessions[i]?.bind fun c =>
    if c.pipeLoop = some .running then
      let stopped := { s with
        dataChannelForward := s.dataChannelForward.unsubscribe (i + 1) }.setSession i
          { c with pipeLoop := some .finished }
      match s.dataChannelForward.recv (i + 1) with
      | (.empty, _) => none
      | (.lagged _, _) => some stopped
      | (.message msg, tx) =>
          if Group.frameSender msg = c.id then some { s with dataChannelForward := tx }
          else
            match c.userSender.send msg with
            | some channel =>
                some ({ s with dataChannelForward := tx }.setSession i
                  { c with userSender := channel })
            | none => some stopped
    else none

/-- One step of the system. -/
def step (s : DataChannelSystem) : DataChannelAction → Option DataChannelSystem
  | .register id => some (s.registerStep id)
  | .opened i => s.openedStep i
  | .spawnWrite i => s.spawnWriteStep i
  | .spawnPipe i => s.spawnPipeStep i
  | .notice id => some (s.noticeStep id)
  | .remove id => some (s.removeStep id)
  | .announce i => s.announceStep i
  | .read i m => s.readStep i m
  | .readErr i => s.readErrStep i
  | .write i written => s.writeStep i written
  | .pipe i => s.pipeStep i

end DataChannelSystem

/-- The machine of the data channels of a stream. -/
def dataChannelMachine : Machine DataChannelSystem DataChannelAction where
  init s := s = .new
  step := DataChannelSystem.step

namespace DataChannelSystem

variable {s t : DataChannelSystem}

/-! ### What a step does -/

/-- The frames that an action can send to the group. -/
def Sends (s : DataChannelSystem) : DataChannelAction → Bytes → Prop
  | .notice id, f => f = networkEvent id false
  | .announce i, f => ∃ c, s.sessions[i]? = some c ∧ f = networkEvent c.id true
  | .read i m, f => ∃ c, s.sessions[i]? = some c ∧
      (dataChannelReadStep s.userSenderMap c.buffer m).1 = .broadcast f
  | _, _ => False

/-- What a step does to the channel of the group. -/
inductive ChannelEffect (s : DataChannelSystem) (a : DataChannelAction) : Broadcast Bytes → Prop
  | kept : ChannelEffect s a s.dataChannelForward
  | sent {f : Bytes} {tx : Broadcast Bytes} (sends : s.Sends a f)
      (taken : s.dataChannelForward.send f = some tx) : ChannelEffect s a tx
  | subscribed (i : ℕ) : ChannelEffect s a (s.dataChannelForward.subscribe (i + 1))
  | received (i : ℕ) : ChannelEffect s a (s.dataChannelForward.recv (i + 1)).2
  | unsubscribed (i : ℕ) : ChannelEffect s a (s.dataChannelForward.unsubscribe (i + 1))

/-- What a step does to the sessions: a read can change two of them, every other step at most
one, whose read loop it stops for a failed send only if the group has no receiver. -/
inductive SessionsEffect (s : DataChannelSystem) (a : DataChannelAction) :
    List DataChannelSession → Prop
  | kept : SessionsEffect s a s.sessions
  | registered {id : UInt32} {c : DataChannelSession} (action : a = .register id)
      (new : c.readLoop = .waiting) : SessionsEffect s a (s.sessions ++ [c])
  | read {i : ℕ} {m : Bytes} {sessions : List DataChannelSession} (action : a = .read i m)
      (length : sessions.length = s.sessions.length) : SessionsEffect s a sessions
  | moved {i : ℕ} {c c' : DataChannelSession} (before : s.sessions[i]? = some c)
      (loop : c'.readLoop = c.readLoop ∨ c'.readLoop ≠ .ended .sendFailed ∨
        ¬ s.dataChannelForward.HasReceiver) : SessionsEffect s a (s.sessions.set i c')

/-- What a step does. -/
structure StepSpec (s : DataChannelSystem) (a : DataChannelAction) (t : DataChannelSystem) :
    Prop where
  channel : s.ChannelEffect a t.dataChannelForward
  sessions : s.SessionsEffect a t.sessions
  users : (∀ id, a ≠ .register id) → (∀ id, a ≠ .remove id) → t.userSenderMap = s.userSenderMap

lemma spec_read {i : ℕ} {m : Bytes} (h : s.step (.read i m) = some t) :
    s.StepSpec (.read i m) t := by
  simp only [step, readStep, Option.bind_eq_some_iff, Option.ite_none_right_eq_some] at h
  obtain ⟨c, hc, -, h⟩ := h
  split at h
  · rename_i frame hframe
    split at h
    · rename_i tx htx
      cases h
      exact ⟨.sent ⟨c, hc, hframe⟩ htx, .read rfl List.length_set, fun _ _ => rfl⟩
    · cases h
      exact ⟨.kept, .read rfl (by simp [setSession]), fun _ _ => rfl⟩
  · obtain ⟨d, -, h⟩ := Option.bind_eq_some_iff.mp h
    split at h <;> cases h <;>
      exact ⟨.kept, .read rfl (by simp [setSession]), fun _ _ => rfl⟩
  · cases h
    exact ⟨.kept, .read rfl List.length_set, fun _ _ => rfl⟩
  · cases h
    exact ⟨.kept, .read rfl (by simp [setSession]), fun _ _ => rfl⟩
  · cases h
    exact ⟨.kept, .read rfl (by simp [setSession]), fun _ _ => rfl⟩

lemma spec_write {i : ℕ} {written : Bool} (h : s.step (.write i written) = some t) :
    s.StepSpec (.write i written) t := by
  simp only [step, writeStep, Option.bind_eq_some_iff, Option.ite_none_right_eq_some] at h
  obtain ⟨c, hc, -, h⟩ := h
  split at h
  · split_ifs at h <;> cases h <;> exact ⟨.kept, .moved hc (.inl rfl), fun _ _ => rfl⟩
  · cases h
    exact ⟨.kept, .moved hc (.inl rfl), fun _ _ => rfl⟩
  · split_ifs at h
    cases h
    exact ⟨.kept, .moved hc (.inl rfl), fun _ _ => rfl⟩

lemma spec_pipe {i : ℕ} (h : s.step (.pipe i) = some t) : s.StepSpec (.pipe i) t := by
  simp only [step, pipeStep, Option.bind_eq_some_iff, Option.ite_none_right_eq_some] at h
  obtain ⟨c, hc, -, h⟩ := h
  split at h
  · cases h
  · cases h
    exact ⟨.unsubscribed i, .moved hc (.inl rfl), fun _ _ => rfl⟩
  · rename_i msg tx htx
    have hreceived : s.ChannelEffect (.pipe i) tx := by
      have hrecv := ChannelEffect.received (s := s) (a := .pipe i) i
      rwa [htx] at hrecv
    split_ifs at h
    · cases h
      exact ⟨hreceived, .kept, fun _ _ => rfl⟩
    · split at h
      · cases h
        exact ⟨hreceived, .moved hc (.inl rfl), fun _ _ => rfl⟩
      · cases h
        exact ⟨.unsubscribed i, .moved hc (.inl rfl), fun _ _ => rfl⟩

lemma spec_of_step {a : DataChannelAction} (h : s.step a = some t) : s.StepSpec a t := by
  cases a with
  | register id =>
      cases h
      exact ⟨.kept, .registered rfl rfl, fun hno _ => absurd rfl (hno id)⟩
  | remove id =>
      cases h
      exact ⟨.kept, .kept, fun _ hno => absurd rfl (hno id)⟩
  | notice id =>
      cases h
      refine ⟨?_, .kept, fun _ _ => rfl⟩
      rw [noticeStep, Broadcast.sendIgnore]
      cases htx : s.dataChannelForward.send (networkEvent id false) with
      | none => exact .kept
      | some tx => exact .sent rfl htx
  | opened i =>
      simp only [step, openedStep, Option.bind_eq_some_iff, Option.ite_none_right_eq_some,
        Option.some.injEq] at h
      obtain ⟨c, hc, -, rfl⟩ := h
      exact ⟨.kept, .moved hc (.inr (.inl (by simp))), fun _ _ => rfl⟩
  | spawnWrite i =>
      simp only [step, spawnWriteStep, Option.bind_eq_some_iff, Option.ite_none_right_eq_some,
        Option.some.injEq] at h
      obtain ⟨c, hc, -, rfl⟩ := h
      exact ⟨.kept, .moved hc (.inl rfl), fun _ _ => rfl⟩
  | spawnPipe i =>
      simp only [step, spawnPipeStep, Option.bind_eq_some_iff, Option.ite_none_right_eq_some,
        Option.some.injEq] at h
      obtain ⟨c, hc, -, rfl⟩ := h
      exact ⟨.subscribed i, .moved hc (.inl rfl), fun _ _ => rfl⟩
  | announce i =>
      simp only [step, announceStep, Option.bind_eq_some_iff, Option.ite_none_right_eq_some] at h
      obtain ⟨c, hc, -, h⟩ := h
      split at h
      · rename_i tx htx
        cases h
        exact ⟨.sent ⟨c, hc, rfl⟩ htx, .moved hc (.inr (.inl (by simp))), fun _ _ => rfl⟩
      · rename_i htx
        cases h
        have hnone := (s.dataChannelForward.send_eq_none_iff _).mp htx
        exact ⟨.kept, .moved hc (.inr (.inr hnone)), fun _ _ => rfl⟩
  | readErr i =>
      simp only [step, readErrStep, Option.bind_eq_some_iff, Option.ite_none_right_eq_some,
        Option.some.injEq] at h
      obtain ⟨c, hc, -, rfl⟩ := h
      exact ⟨.kept, .moved hc (.inr (.inl (by simp))), fun _ _ => rfl⟩
  | read i m => exact spec_read h
  | write i written => exact spec_write h
  | pipe i => exact spec_pipe h

/-- The users' receivers come and go beside the stream's own. -/
lemma ChannelEffect.live {a : DataChannelAction} {tx : Broadcast Bytes}
    (h : s.ChannelEffect a tx) (hs : s.dataChannelForward.Live 0) : tx.Live 0 := by
  cases h with
  | kept => exact hs
  | sent _ taken =>
      obtain ⟨-, rfl⟩ := (s.dataChannelForward.send_eq_some_iff _).mp taken
      exact hs
  | subscribed i => simpa using hs
  | received i => simpa using hs
  | unsubscribed i => simpa using hs

/-- The channel stays as it is, or gets one frame. -/
lemma ChannelEffect.log {a : DataChannelAction} {tx : Broadcast Bytes}
    (h : s.ChannelEffect a tx) : tx.log = s.dataChannelForward.log ∨
      ∃ f, s.Sends a f ∧ tx.log = s.dataChannelForward.log ++ [f] := by
  cases h with
  | sent sends taken =>
      obtain ⟨-, rfl⟩ := (s.dataChannelForward.send_eq_some_iff _).mp taken
      exact .inr ⟨_, sends, rfl⟩
  | received i => exact .inl (s.dataChannelForward.recv_log (i + 1))
  | kept => exact .inl rfl
  | subscribed i => exact .inl rfl
  | unsubscribed i => exact .inl rfl

/-- Only registrations bring sessions. -/
lemma SessionsEffect.length {a : DataChannelAction} {sessions : List DataChannelSession}
    (h : s.SessionsEffect a sessions) (hregister : ∀ id, a ≠ .register id) :
    sessions.length = s.sessions.length := by
  cases h with
  | kept => rfl
  | registered action => exact absurd action (hregister _)
  | read _ length => exact length
  | moved _ _ => exact List.length_set

/-- The stream keeps its receiver on the group's channel. -/
lemma live_receiver_step {a : DataChannelAction} (hs : s.dataChannelForward.Live 0)
    (h : s.step a = some t) : t.dataChannelForward.Live 0 :=
  (spec_of_step h).channel.live hs

/-! ### The read loops -/

/-- No read loop has ended because a send failed. -/
def ReadLoopsRelay (s : DataChannelSystem) : Prop :=
  ∀ c ∈ s.sessions, c.readLoop ≠ .ended .sendFailed

/-- A unicast finds a receiver on the channel of its addressee. -/
def FindsReceiver (s : DataChannelSystem) : Routing ℕ → Prop
  | .unicast _ k _ => ∀ d, s.sessions[k]? = some d → d.userSender.HasReceiver
  | _ => True

/-- What a read loop unicasts finds a receiver. -/
def UnicastsFindReceivers (s : DataChannelSystem) : DataChannelAction → Prop
  | .read i m => ∀ c, s.sessions[i]? = some c →
      s.FindsReceiver (dataChannelReadStep s.userSenderMap c.buffer m).1
  | _ => True

instance (s : DataChannelSystem) (routing : Routing ℕ) : Decidable (s.FindsReceiver routing) :=
  match routing with
  | .unicast _ k _ => inferInstanceAs (Decidable (∀ d ∈ s.sessions[k]?, d.userSender.HasReceiver))
  | .broadcast _ | .unregistered _ | .panic | .stop => isTrue trivial

instance (s : DataChannelSystem) (a : DataChannelAction) :
    Decidable (s.UnicastsFindReceivers a) :=
  match a with
  | .read i m => inferInstanceAs (Decidable (∀ c ∈ s.sessions[i]?,
      s.FindsReceiver (dataChannelReadStep s.userSenderMap c.buffer m).1))
  | .register _ | .opened _ | .spawnWrite _ | .spawnPipe _ | .notice _ | .remove _ | .announce _
  | .readErr _ | .write .. | .pipe _ => isTrue trivial

/-- A change of one session, to one whose read loop has not failed. -/
lemma readLoopsRelay_set (hs : s.ReadLoopsRelay) {i : ℕ} {c : DataChannelSession}
    (hsessions : t.sessions = s.sessions.set i c) (hc : c.readLoop ≠ .ended .sendFailed) :
    t.ReadLoopsRelay := by
  intro d hd
  rw [hsessions] at hd
  rcases List.mem_or_eq_of_mem_set hd with hd | rfl
  · exact hs d hd
  · exact hc

/-- A turn of a read loop ends it by a failed send exactly if its unicast finds no receiver:
the stream's own receiver keeps a broadcast from failing. -/
lemma readLoopsRelay_read_iff (hlive : s.dataChannelForward.Live 0) (hs : s.ReadLoopsRelay)
    {i : ℕ} {m : Bytes} (h : s.step (.read i m) = some t) :
    t.ReadLoopsRelay ↔ s.UnicastsFindReceivers (.read i m) := by
  simp only [step, readStep, Option.bind_eq_some_iff, Option.ite_none_right_eq_some] at h
  obtain ⟨c, hc, hreading, h⟩ := h
  have hlt : i < s.sessions.length := (List.getElem?_eq_some_iff.mp hc).1
  have hok : s.UnicastsFindReceivers (.read i m) ↔
      s.FindsReceiver (dataChannelReadStep s.userSenderMap c.buffer m).1 := by
    simp [UnicastsFindReceivers, hc]
  rw [hok]
  generalize hstep : dataChannelReadStep s.userSenderMap c.buffer m = result at h ⊢
  obtain ⟨routing, buffer⟩ := result
  -- the loop has taken the message into its buffer
  have hs₁ : (s.setSession i { c with buffer := buffer }).ReadLoopsRelay :=
    readLoopsRelay_set hs rfl (by simp [hreading])
  have hfailed : ¬ ((s.setSession i { c with buffer := buffer }).setSession i
      { c with readLoop := .ended .sendFailed }).ReadLoopsRelay := by
    intro ht
    refine ht { c with readLoop := .ended .sendFailed } (List.mem_set ?_ _) rfl
    simpa [setSession] using hlt
  cases routing with
  | broadcast frame =>
      refine iff_of_true ?_ trivial
      have hsend := (Broadcast.send_eq_some_iff s.dataChannelForward frame).mpr ⟨⟨0, hlive⟩, rfl⟩
      change (match s.dataChannelForward.send frame with
        | some tx => some { s.setSession i { c with buffer := buffer } with
            dataChannelForward := tx }
        | none => _) = some t at h
      rw [hsend] at h
      cases h
      exact hs₁
  | unicast dest k frame =>
      obtain ⟨d, hd, h⟩ := Option.bind_eq_some_iff.mp h
      -- the user's channel of the addressee is not touched by the read
      have hfinds : s.FindsReceiver (.unicast dest k frame) ↔ d.userSender.HasReceiver := by
        simp only [setSession, List.getElem?_set] at hd
        simp only [FindsReceiver]
        split_ifs at hd with hik
        · cases hd
          subst hik
          simp [hc]
        · simp [hd]
      rw [hfinds]
      split at h
      · rename_i channel hchannel
        cases h
        refine iff_of_true (readLoopsRelay_set hs₁ rfl ?_)
          ((d.userSender.send_eq_some_iff _).mp hchannel).1
        exact hs₁ d (List.mem_of_getElem? hd)
      · rename_i hchannel
        cases h
        exact iff_of_false hfailed ((d.userSender.send_eq_none_iff _).mp hchannel)
  | unregistered dest =>
      cases h
      exact iff_of_true hs₁ trivial
  | panic =>
      cases h
      exact iff_of_true (readLoopsRelay_set hs₁ rfl (by simp)) trivial
  | stop =>
      cases h
      exact iff_of_true (readLoopsRelay_set hs₁ rfl (by simp)) trivial

/-- A step other than a read ends no read loop by a failed send. -/
lemma SessionsEffect.relay {a : DataChannelAction} {sessions : List DataChannelSession}
    (h : s.SessionsEffect a sessions) (hread : ∀ i m, a ≠ .read i m)
    (hlive : s.dataChannelForward.Live 0) (hs : s.ReadLoopsRelay) :
    ∀ c ∈ sessions, c.readLoop ≠ .ended .sendFailed := by
  cases h with
  | kept => exact hs
  | registered _ new =>
      refine List.forall_mem_append.mpr ⟨hs, ?_⟩
      simp [new]
  | read action => exact absurd action (hread _ _)
  | moved before loop =>
      intro d hd
      rcases List.mem_or_eq_of_mem_set hd with hd | rfl
      · exact hs d hd
      · rcases loop with hsame | hne | hnone
        · rw [hsame]
          exact hs _ (List.mem_of_getElem? before)
        · exact hne
        · exact absurd ⟨0, hlive⟩ hnone

/-- A step ends no read loop by a failed send exactly if its unicast finds a receiver. -/
lemma readLoopsRelay_step_iff {a : DataChannelAction} (hlive : s.dataChannelForward.Live 0)
    (hs : s.ReadLoopsRelay) (h : s.step a = some t) :
    t.ReadLoopsRelay ↔ s.UnicastsFindReceivers a := by
  cases a with
  | read i m => exact readLoopsRelay_read_iff hlive hs h
  | _ => exact iff_of_true ((spec_of_step h).sessions.relay (by simp) hlive hs) trivial

/-- **When the read loops relay**: in a run, no read loop ever ends because a send failed if
and only if every unicast to a registered user finds a receiver on that user's channel. -/
theorem readLoopsRelay_iff {s : DataChannelSystem} {as : List DataChannelAction}
    (h0 : dataChannelMachine.init s) :
    dataChannelMachine.Always ReadLoopsRelay s as ↔
      dataChannelMachine.Guarded UnicastsFindReceivers s as := by
  obtain rfl : s = .new := h0
  have hlive : new.dataChannelForward.Live 0 := by simp [new]
  have hs : new.ReadLoopsRelay := by simp [ReadLoopsRelay, new]
  refine Machine.always_iff_guarded (I := fun s : DataChannelSystem =>
    s.dataChannelForward.Live 0 ∧ s.ReadLoopsRelay) ?_ ⟨hlive, hs⟩ hs
  rintro r a t ⟨hlive, hr⟩ hstep
  have hiff := readLoopsRelay_step_iff hlive hr hstep
  exact ⟨hiff, fun hok => ⟨live_receiver_step hlive hstep, hiff.mpr hok⟩⟩

end DataChannelSystem

/-! ### Both relays -/

/-- **Isolation of failures in the relays**: on the WebSocket connections of a room and on
the data channels of a stream, in every run, a receive loop never ends because a send failed
if and only if every send finds a receiver: a unicast to a registered user one on that
user's channel, and a WebSocket frame for the group some running pipe. -/
theorem relays_isolated_iff (fnv : List UInt8 → UInt32) :
    (∀ (s : WsSystem) (as : List WsAction), (wsMachine fnv).init s →
      ((wsMachine fnv).Always WsSystem.RecvTasksRelay s as ↔
        (wsMachine fnv).Guarded WsSystem.SendsFindReceivers s as)) ∧
    ∀ (s : DataChannelSystem) (as : List DataChannelAction), dataChannelMachine.init s →
      (dataChannelMachine.Always DataChannelSystem.ReadLoopsRelay s as ↔
        dataChannelMachine.Guarded DataChannelSystem.UnicastsFindReceivers s as) :=
  ⟨fun _ _ h0 => WsSystem.recvTasksRelay_iff fnv h0,
    fun _ _ h0 => DataChannelSystem.readLoopsRelay_iff h0⟩

/-- Two users whose data channels are open. -/
def opened : List DataChannelAction :=
  [.register 1, .opened 0, .spawnWrite 0, .spawnPipe 0, .announce 0, .register 2, .opened 1,
    .spawnWrite 1]

/-- Messages to a user that is connected, and to one that is not registered. -/
theorem relays_isolated_small :
    (wsMachine fnv1a).Always WsSystem.RecvTasksRelay WsSystem.small
        (WsSystem.connected ++ [.message 0 [1, 0, 0, 0, 9], .connect "key" 1 8 "stream", .join 1,
          .subscribe 1, .message 0 [1, 0, 0, 0, 9]]) ∧
      dataChannelMachine.Always DataChannelSystem.ReadLoopsRelay .new
        (opened ++ [.read 0 [2, 0, 0, 0, 7], .remove 2, .read 0 [2, 0, 0, 0, 7]]) :=
  ⟨((relays_isolated_iff fnv1a).1 _ _ WsSystem.init_small).mpr (by decide),
    ((relays_isolated_iff fnv1a).2 _ _ rfl).mpr (by decide)⟩

/-- A message to a user that has joined and not subscribed, and one to a user whose data
channel is announced and not open: each ends the loop of its sender. -/
theorem relays_not_isolated_small :
    (¬ ∀ (s : WsSystem) (as : List WsAction), (wsMachine fnv1a).init s →
        (wsMachine fnv1a).Always WsSystem.RecvTasksRelay s as) ∧
      ¬ ∀ (s : DataChannelSystem) (as : List DataChannelAction), dataChannelMachine.init s →
        dataChannelMachine.Always DataChannelSystem.ReadLoopsRelay s as := by
  constructor
  · intro h
    have hend := (h WsSystem.small (WsSystem.connected ++ [.connect "key" 1 8 "stream", .join 1,
      .message 0 [1, 0, 0, 0, 9]]) WsSystem.init_small).of_exec rfl
    exact hend _ (List.mem_cons_self ..) rfl
  · intro h
    have hend := (h .new [.register 1, .opened 0, .spawnWrite 0, .spawnPipe 0, .announce 0,
      .register 2, .read 0 [2, 0, 0, 0, 7]] rfl).of_exec rfl
    exact hend _ (List.mem_cons_self ..) rfl

end SfuServer
