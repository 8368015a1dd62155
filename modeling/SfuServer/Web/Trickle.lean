import SfuServer.Lib.Machine
import SfuServer.Ws.Group

/-!
The set-up of a session between the web client and the handlers `whip` and `whep`, from the upgrade
of the socket on: `onCreateOffer` of `assets/webui/js/webrtc-sfu.js`, and the upgrade callbacks of
`src/route/rtc`, which exchange the candidates in the same way.

Both sides find their candidates while they already talk.  The handler answers the offer of the
request, and sends the candidates of its peer after that, over a channel that the callbacks of the
peer fill from the start; the client keeps its own until the socket is open, and those it receives
until the answer is set, each in a list that a timer empties.

* `TrickleSystem`, `TrickleAction`, `trickleMachine`: the client, the handler and the texts on
  their way, and what can happen;
* `ToClient`, `ToServer`: the candidates of a side are those that the other one has added, and
  those that are on their way, until the socket or a task is gone;
* `Answered`: who knows which description;
* `Whole`: the two tasks run, as long as nothing cuts the exchange short;
* `trickle_delivers`: candidates are added in order, unchanged, none twice and none before the
  answer; and none is missing if nothing cut the exchange short and no list is left.
-/

namespace SfuServer

/-- `SignalingJson`: the texts of the socket, in both directions. -/
structure SignalingJson where
  isCandidate : Bool
  sdp : String
  session : String
  candidate : String
  deriving DecidableEq, Repr

/-- `RTCIceCandidateInit`, what a candidate is added with. -/
structure IceCandidateInit where
  candidate : String
  sdpMid : Option String
  sdpMLineIndex : Option ℕ
  deriving DecidableEq, Repr

/-- `readyState` of the client's socket. -/
inductive SocketState where
  | connecting
  | opened
  | closed
  deriving DecidableEq, Repr

/-- `SfuPeerConnection`: the candidates that its peer found, and those that it was given; `setting`
is the answer that the peer is setting. -/
structure SfuPeerConnection where
  socket : SocketState
  setting : Option String
  remoteDescription : Option String
  localCandidates : List String
  remoteCandidates : List String
  found : List String
  added : List IceCandidateInit

/-- The upgrade callback of a handler: the answer that it sent, the channel `rx0` with the number
of connections of the peer that are still to be told over it, the state of the peer, the tasks, and
the candidates that the peer found, and those that it was given.  The receiver of the channel lives
as long as the task that sends, and `senders` tells if any sender is left. -/
structure UpgradeCallback where
  answer : Option String
  channel : List (Bool × String)
  senders : Bool
  telling : ℕ
  connected : Bool
  sendTask : TaskStatus
  recvTask : TaskStatus
  found : List String
  added : List IceCandidateInit

/-- The two sides, and the texts on their way; `lost` tells that the connection broke, and that
what is written goes nowhere. -/
structure TrickleSystem where
  client : SfuPeerConnection
  handler : UpgradeCallback
  toClient : List SignalingJson
  toServer : List SignalingJson
  lost : Bool

/-- What can happen: the peer of the client finds a candidate, the socket opens, a timer of the
client runs, a text arrives, the answer is set, and the socket closes; the peer of the handler finds
a candidate, the handler answers, or fails to, the peer connects, which is told over the channel, or
is no longer connected, the senders are dropped, one of the two tasks takes a turn, or sees the end
of the socket, and the other one is aborted; and the connection breaks, with some of the texts
still to arrive. -/
inductive TrickleAction where
  | clientFinds (candidate : String)
  | opens
  | localTimer
  | remoteTimer
  | message
  | described
  | closes
  | handlerFinds (candidate : String)
  | answers (sdp session : String) (sent : Bool)
  | fails
  | connects
  | tells
  | disconnects
  | dropSenders
  | send (written : Bool)
  | recv
  | recvEnds
  | abort
  | breaks (down up : ℕ)

namespace TrickleSystem

/-- The socket has been opened by the request, and the handler begins. -/
def start : TrickleSystem where
  client := ⟨.connecting, none, none, [], [], [], []⟩
  handler := ⟨none, [], true, 0, false, .running, .running, [], []⟩
  toClient := []
  toServer := []
  lost := false

/-! ### The client -/

/-- The client writes texts to its socket. -/
def upload (s : TrickleSystem) (texts : List SignalingJson) : TrickleSystem :=
  if s.lost then s else { s with toServer := s.toServer ++ texts }

/-- `localCandidateTask`. -/
def localTimerStep (s : TrickleSystem) : TrickleSystem :=
  if s.client.socket = .opened then
    { s with client := { s.client with localCandidates := [] } }.upload
      (s.client.localCandidates.map fun candidate => ⟨false, "", "", candidate⟩)
  else s

/-- `remoteCandidateTask`. -/
def remoteTimerStep (s : TrickleSystem) : TrickleSystem :=
  if s.client.remoteDescription.isSome then
    { s with client := { s.client with
        added := s.client.added ++
          s.client.remoteCandidates.map fun candidate => ⟨candidate, some "0", some 0⟩
        remoteCandidates := [] } }
  else s

/-- The listener for messages. -/
def messageStep (s : TrickleSystem) : Option TrickleSystem :=
  match s.toClient with
  | [] => none
  | json :: texts =>
      if s.client.socket ≠ .opened then none
      else if ! json.isCandidate then
        some { s with toClient := texts, client := { s.client with setting := some json.sdp } }
      else
        some { s with
          toClient := texts
          client := { s.client with
            remoteCandidates := s.client.remoteCandidates ++ [json.candidate] } }

/-- `setRemoteDescription` has succeeded. -/
def describedStep (s : TrickleSystem) : Option TrickleSystem :=
  s.client.setting.map fun sdp =>
    { s with client := { s.client with setting := none, remoteDescription := some sdp } }

/-! ### The handler -/

/-- The handler writes a text to its socket. -/
def download (s : TrickleSystem) (text : SignalingJson) : TrickleSystem :=
  if s.lost then s else { s with toClient := s.toClient ++ [text] }

/-- The task that sends ends, and the channel goes. -/
def endSend (s : TrickleSystem) : TrickleSystem :=
  { s with handler := { s.handler with sendTask := .finished, channel := [] } }

/-- The handler ends. -/
def finish (s : TrickleSystem) : TrickleSystem :=
  { s.endSend with handler := { s.endSend.handler with recvTask := .finished } }

/-- A callback of the peer sends over the channel, which has room for 32; the error for a channel
that is gone is ignored. -/
def offer (s : TrickleSystem) (item : Bool × String) : Option TrickleSystem :=
  if s.handler.sendTask ≠ .running then some s
  else if s.handler.channel.length < 32 then
    some { s with handler := { s.handler with channel := s.handler.channel ++ [item] } }
  else none

/-- `on_ice_candidate`. -/
def handlerFindsStep (s : TrickleSystem) (candidate : String) : Option TrickleSystem :=
  { s with handler := { s.handler with found := s.handler.found ++ [candidate] } }.offer
    (false, candidate)

/-- `on_peer_connected`. -/
def tellsStep (s : TrickleSystem) : Option TrickleSystem :=
  if s.handler.telling = 0 then none
  else { s with handler := { s.handler with telling := s.handler.telling - 1 } }.offer (true, "")

/-- The answer is made and sent. -/
def answersStep (s : TrickleSystem) (sdp session : String) (sent : Bool) : Option TrickleSystem :=
  if s.handler.answer = none ∧ s.handler.sendTask = .running then
    some <|
      if sent then { s with handler := { s.handler with answer := some sdp } }.download
        ⟨false, sdp, session, ""⟩
      else s.finish
  else none

/-- The handler panics before it has an answer: the room is gone, or the offer is refused. -/
def failsStep (s : TrickleSystem) : Option TrickleSystem :=
  if s.handler.answer = none ∧ s.handler.sendTask = .running then some s.finish else none

/-- A turn of `send_task`. -/
def sendStep (s : TrickleSystem) (written : Bool) : Option TrickleSystem :=
  if s.handler.answer.isSome ∧ s.handler.sendTask = .running then
    match s.handler.channel with
    | [] => if s.handler.senders then none else some s.endSend
    | (peerConnected, candidate) :: channel =>
        some <|
          if peerConnected then s.endSend
          else if written then
            { s with handler := { s.handler with channel := channel } }.download
              ⟨true, "", "", candidate⟩
          else s.endSend
  else none

/-- A turn of `recv_task`. -/
def recvStep (s : TrickleSystem) : Option TrickleSystem :=
  if s.handler.answer.isSome ∧ s.handler.recvTask = .running then
    match s.toServer with
    | [] => none
    | signaling :: texts =>
        let s := { s with toServer := texts }
        some <|
          if s.handler.connected then
            { s with handler := { s.handler with recvTask := .finished } }
          else
            { s with handler := { s.handler with
                added := s.handler.added ++ [⟨signaling.candidate, none, none⟩] } }
  else none

/-- `recv_task` sees the end of the socket. -/
def recvEndsStep (s : TrickleSystem) : Option TrickleSystem :=
  if s.handler.answer.isSome ∧ s.handler.recvTask = .running ∧ s.lost then
    some { s with handler := { s.handler with recvTask := .finished } }
  else none

/-- `tokio::select!` sees that one of the tasks has ended, and aborts the other one. -/
def abortStep (s : TrickleSystem) : Option TrickleSystem :=
  if s.handler.sendTask = .finished ∨ s.handler.recvTask = .finished then some s.finish else none

/-- One step of the system. -/
def step (s : TrickleSystem) : TrickleAction → Option TrickleSystem
  | .clientFinds candidate => some { s with client := { s.client with
      found := s.client.found ++ [candidate]
      localCandidates := s.client.localCandidates ++ [candidate] } }
  | .opens =>
      if s.client.socket = .connecting then
        some { s with client := { s.client with socket := .opened } }
      else none
  | .localTimer => some s.localTimerStep
  | .remoteTimer => some s.remoteTimerStep
  | .message => s.messageStep
  | .described => s.describedStep
  | .closes => some { s with client := { s.client with socket := .closed } }
  | .handlerFinds candidate => s.handlerFindsStep candidate
  | .answers sdp session sent => s.answersStep sdp session sent
  | .fails => s.failsStep
  | .connects => some { s with handler := { s.handler with
      connected := true
      telling := s.handler.telling + 1 } }
  | .tells => s.tellsStep
  | .disconnects => some { s with handler := { s.handler with connected := false } }
  | .dropSenders => some { s with handler := { s.handler with senders := false } }
  | .send written => s.sendStep written
  | .recv => s.recvStep
  | .recvEnds => s.recvEndsStep
  | .abort => s.abortStep
  | .breaks down up => some { s with
      lost := true
      toClient := s.toClient.take down
      toServer := s.toServer.take up }

end TrickleSystem

/-- The machine of the set-up of a session. -/
def trickleMachine : Machine TrickleSystem TrickleAction where
  init s := s = .start
  step := TrickleSystem.step

namespace TrickleSystem

variable {s t : TrickleSystem} {a : TrickleAction}

/-! ### What the turns of the tasks do -/

lemma offer_eq_some {item : Bool × String} (h : s.offer item = some t) :
    s.handler.sendTask ≠ .running ∧ t = s ∨ s.handler.sendTask = .running ∧
      t = { s with handler := { s.handler with channel := s.handler.channel ++ [item] } } := by
  rw [offer] at h
  split_ifs at h with hrun
  · exact .inl ⟨hrun, (Option.some.inj h).symm⟩
  · exact .inr ⟨not_not.mp hrun, (Option.some.inj h).symm⟩

/-- The candidate at the head of the channel has been written. -/
def forwarded (s : TrickleSystem) (candidate : String) (channel : List (Bool × String)) :
    TrickleSystem :=
  { s with handler := { s.handler with channel := channel } }.download ⟨true, "", "", candidate⟩

lemma sendStep_eq_some {written : Bool} (h : s.sendStep written = some t) :
    s.handler.sendTask = .running ∧ (t = s.endSend ∨ ∃ candidate channel,
      s.handler.channel = (false, candidate) :: channel ∧ t = s.forwarded candidate channel) := by
  obtain ⟨⟨-, hrun⟩, h⟩ := Option.ite_none_right_eq_some.mp h
  refine ⟨hrun, ?_⟩
  split at h
  · split_ifs at h
    exact .inl (Option.some.inj h).symm
  · rename_i peerConnected candidate channel hchannel
    obtain rfl := Option.some.inj h
    cases peerConnected with
    | true => exact .inl rfl
    | false =>
        cases written with
        | true => exact .inr ⟨candidate, channel, hchannel, rfl⟩
        | false => exact .inl rfl

/-- A text has been read: the peer is given its candidate, or the task ends, as the peer is
connected. -/
lemma recvStep_eq_some (h : s.recvStep = some t) :
    s.handler.answer.isSome ∧ s.handler.recvTask = .running ∧
      ∃ signaling texts, s.toServer = signaling :: texts ∧
        (t = { s with
            toServer := texts
            handler := { s.handler with recvTask := .finished } } ∨
          t = { s with
            toServer := texts
            handler := { s.handler with
              added := s.handler.added ++ [⟨signaling.candidate, none, none⟩] } }) := by
  obtain ⟨⟨hanswer, hrun⟩, h⟩ := Option.ite_none_right_eq_some.mp h
  refine ⟨hanswer, hrun, ?_⟩
  split at h
  · cases h
  · rename_i signaling texts htexts
    refine ⟨signaling, texts, htexts, ?_⟩
    obtain rfl := Option.some.inj h
    by_cases hconnected : s.handler.connected
    · exact .inl (if_pos hconnected)
    · exact .inr (if_neg hconnected)

/-- A text has come to the client: the answer, which it sets, or a candidate, which it keeps. -/
lemma messageStep_eq_some (h : s.messageStep = some t) :
    ∃ json texts, s.toClient = json :: texts ∧
      (json.isCandidate = false ∧
          t = { s with toClient := texts, client := { s.client with setting := some json.sdp } } ∨
        json.isCandidate = true ∧
          t = { s with
            toClient := texts
            client := { s.client with
              remoteCandidates := s.client.remoteCandidates ++ [json.candidate] } }) := by
  rw [messageStep] at h
  split at h
  · cases h
  · rename_i json texts htexts
    refine ⟨json, texts, htexts, ?_⟩
    obtain ⟨-, h⟩ := Option.ite_none_left_eq_some.mp h
    cases hcandidate : json.isCandidate with
    | false =>
        rw [if_pos (by simp [hcandidate])] at h
        exact .inl ⟨rfl, (Option.some.inj h).symm⟩
    | true =>
        rw [if_neg (by simp [hcandidate])] at h
        exact .inr ⟨rfl, (Option.some.inj h).symm⟩

/-! ### To the client -/

/-- The candidates among the texts on their way to the client. -/
def carried (texts : List SignalingJson) : List String :=
  (texts.filter (·.isCandidate)).map (·.candidate)

/-- The candidates in the channel of the handler. -/
def queued (channel : List (Bool × String)) : List String :=
  (channel.filter fun item => ! item.1).map Prod.snd

/-- The candidates of the handler that the client has added, or keeps, or that are on their way. -/
def received (s : TrickleSystem) : List String :=
  s.client.added.map (·.candidate) ++ s.client.remoteCandidates ++ carried s.toClient

/-- The candidates of the handler are those that it has received, up to the first that is lost, and
all of them are there or in the channel while the socket and the task that sends are. -/
structure ToClient (s : TrickleSystem) : Prop where
  arrived : s.received <+: s.handler.found
  all : s.lost = false → s.handler.sendTask = .running →
    s.received ++ queued s.handler.channel = s.handler.found

/-- A step that leaves the candidates of the handler where they are on their way. -/
lemma ToClient.of_eq (hs : s.ToClient) (hreceived : t.received = s.received)
    (hfound : t.handler.found = s.handler.found)
    (hall : t.lost = false → t.handler.sendTask = .running → s.lost = false ∧
      s.handler.sendTask = .running ∧ queued t.handler.channel = queued s.handler.channel) :
    t.ToClient where
  arrived := by
    rw [hreceived, hfound]
    exact hs.arrived
  all hlost hrun := by
    obtain ⟨hlost, hrun, hqueued⟩ := hall hlost hrun
    rw [hreceived, hfound, hqueued]
    exact hs.all hlost hrun

/-- The task that sends has ended. -/
lemma ToClient.ended (hs : s.ToClient) (hreceived : t.received = s.received)
    (hfound : t.handler.found = s.handler.found) (hend : t.handler.sendTask = .finished) :
    t.ToClient :=
  hs.of_eq hreceived hfound fun _ hrun => by simp [hend] at hrun

/-- What goes into the channel, while there is one. -/
lemma ToClient.offer {found : List String} {item : Bool × String} (hs : s.ToClient)
    (hfound : s.handler.found ++ queued [item] = found)
    (hst : { s with handler := { s.handler with found := found } }.offer item = some t) :
    t.ToClient := by
  have hmore : s.received <+: found := hfound ▸ hs.arrived.trans (List.prefix_append _ _)
  obtain ⟨hrun, rfl⟩ | ⟨hrun, rfl⟩ := offer_eq_some hst
  · exact ⟨hmore, fun _ h => absurd h hrun⟩
  · refine ⟨hmore, fun hlost hrun => ?_⟩
    show s.received ++ queued (s.handler.channel ++ [item]) = found
    rw [← hfound, ← hs.all hlost hrun]
    simp [queued]

/-- A candidate goes from the channel to the socket. -/
lemma ToClient.forwarded {candidate : String} {channel : List (Bool × String)} (hs : s.ToClient)
    (hrun : s.handler.sendTask = .running)
    (hchannel : s.handler.channel = (false, candidate) :: channel) :
    (s.forwarded candidate channel).ToClient := by
  rw [TrickleSystem.forwarded, download]
  split_ifs with hlost
  · exact hs.of_eq rfl rfl fun h => absurd h (by simpa using hlost)
  · have hall := hs.all (by simpa using hlost) hrun
    -- the head of the channel has become the last of the texts
    have hmoved : s.client.added.map (·.candidate) ++ s.client.remoteCandidates ++
        carried (s.toClient ++ [⟨true, "", "", candidate⟩]) ++ queued channel =
          s.handler.found := by
      rw [← hall, hchannel]
      simp [received, carried, queued]
    exact ⟨⟨_, hmoved⟩, fun _ _ => hmoved⟩

/-- Every step keeps the candidates on their way to the client together. -/
lemma ToClient.step (hs : s.ToClient) (hst : s.step a = some t) : t.ToClient := by
  cases a with
  | clientFinds | closes | connects | disconnects | dropSenders =>
      obtain rfl := Option.some.inj hst
      exact ⟨hs.arrived, hs.all⟩
  | opens =>
      obtain ⟨-, hst⟩ := Option.ite_none_right_eq_some.mp hst
      obtain rfl := Option.some.inj hst
      exact ⟨hs.arrived, hs.all⟩
  | localTimer =>
      obtain rfl := Option.some.inj hst
      rw [localTimerStep, upload]
      split_ifs <;> exact ⟨hs.arrived, hs.all⟩
  | remoteTimer =>
      obtain rfl := Option.some.inj hst
      rw [remoteTimerStep]
      split_ifs
      · refine hs.of_eq ?_ rfl fun hlost hrun => ⟨hlost, hrun, rfl⟩
        simp [received, Function.comp_def]
      · exact hs
  | message =>
      obtain ⟨json, texts, htexts, ⟨hjson, rfl⟩ | ⟨hjson, rfl⟩⟩ := messageStep_eq_some hst
      · exact hs.of_eq (by simp [received, carried, htexts, hjson]) rfl fun hlost hrun =>
          ⟨hlost, hrun, rfl⟩
      · exact hs.of_eq (by simp [received, carried, htexts, hjson]) rfl fun hlost hrun =>
          ⟨hlost, hrun, rfl⟩
  | described =>
      obtain ⟨sdp, -, rfl⟩ := Option.map_eq_some_iff.mp hst
      exact ⟨hs.arrived, hs.all⟩
  | handlerFinds candidate => exact hs.offer rfl hst
  | answers sdp session sent =>
      obtain ⟨-, hst⟩ := Option.ite_none_right_eq_some.mp hst
      obtain rfl := Option.some.inj hst
      split_ifs
      · rw [download]
        split_ifs
        · exact ⟨hs.arrived, hs.all⟩
        · exact hs.of_eq (by simp [received, carried]) rfl fun hlost hrun => ⟨hlost, hrun, rfl⟩
      · exact hs.ended rfl rfl rfl
  | fails =>
      obtain ⟨-, hst⟩ := Option.ite_none_right_eq_some.mp hst
      obtain rfl := Option.some.inj hst
      exact hs.ended rfl rfl rfl
  | tells =>
      obtain ⟨-, hst⟩ := Option.ite_none_left_eq_some.mp hst
      have htold : ToClient { s with handler := { s.handler with
          telling := s.handler.telling - 1 } } := ⟨hs.arrived, hs.all⟩
      exact htold.offer (List.append_nil _) hst
  | send written =>
      obtain ⟨hrun, rfl | ⟨candidate, channel, hchannel, rfl⟩⟩ := sendStep_eq_some hst
      · exact hs.ended rfl rfl rfl
      · exact hs.forwarded hrun hchannel
  | recv =>
      obtain ⟨-, -, signaling, texts, -, rfl | rfl⟩ := recvStep_eq_some hst
      · exact ⟨hs.arrived, hs.all⟩
      · exact ⟨hs.arrived, hs.all⟩
  | recvEnds =>
      obtain ⟨-, hst⟩ := Option.ite_none_right_eq_some.mp hst
      obtain rfl := Option.some.inj hst
      exact ⟨hs.arrived, hs.all⟩
  | abort =>
      obtain ⟨-, hst⟩ := Option.ite_none_right_eq_some.mp hst
      obtain rfl := Option.some.inj hst
      exact hs.ended rfl rfl rfl
  | breaks down up =>
      obtain rfl := Option.some.inj hst
      -- what is left of the texts is a first part of them
      have hless : carried (s.toClient.take down) <+: carried s.toClient :=
        ((List.take_prefix down s.toClient).filter _).map _
      refine ⟨?_, fun h => by cases h⟩
      exact ((List.prefix_append_right_inj _).mpr hless).trans hs.arrived

/-! ### To the server -/

/-- The candidates of the client that the handler has added, or that are on their way. -/
def uploaded (s : TrickleSystem) : List String :=
  s.handler.added.map (·.candidate) ++ s.toServer.map (·.candidate)

/-- The handler adds candidates of the client up to the first that is lost, and all of them are
there, on their way or still with the client, while the socket and the task that receives are. -/
structure ToServer (s : TrickleSystem) : Prop where
  added : s.handler.added.map (·.candidate) <+: s.client.found
  arrived : s.handler.recvTask = .running → s.uploaded <+: s.client.found
  all : s.lost = false → s.handler.recvTask = .running →
    s.uploaded ++ s.client.localCandidates = s.client.found

/-- A step that leaves the candidates of the client where they are. -/
lemma ToServer.of_eq (hs : s.ToServer) (hadded : t.handler.added = s.handler.added)
    (hfound : t.client.found = s.client.found)
    (hrun : t.handler.recvTask = .running → s.handler.recvTask = .running ∧
      t.toServer = s.toServer ∧
        (t.lost = false → s.lost = false ∧ t.client.localCandidates = s.client.localCandidates)) :
    t.ToServer where
  added := by
    rw [hadded, hfound]
    exact hs.added
  arrived h := by
    obtain ⟨h, htexts, -⟩ := hrun h
    rw [uploaded, hadded, hfound, htexts]
    exact hs.arrived h
  all hlost h := by
    obtain ⟨h, htexts, hlocal⟩ := hrun h
    obtain ⟨hlost, hlocal⟩ := hlocal hlost
    rw [uploaded, hadded, hfound, htexts, hlocal]
    exact hs.all hlost h

/-- The task that receives has ended. -/
lemma ToServer.ended (hs : s.ToServer) (hadded : t.handler.added = s.handler.added)
    (hfound : t.client.found = s.client.found) (hend : t.handler.recvTask = .finished) :
    t.ToServer :=
  hs.of_eq hadded hfound fun h => by simp [hend] at h

/-- The client sends the candidates that it has kept. -/
lemma ToServer.upload (hs : s.ToServer) : s.localTimerStep.ToServer := by
  rw [localTimerStep, TrickleSystem.upload]
  split_ifs with hopen hlost
  · have hlost : s.lost = true := by simpa using hlost
    refine ⟨hs.added, hs.arrived, fun h => ?_⟩
    simp [hlost] at h
  · have hlost : s.lost = false := by simpa using hlost
    have hmoved : s.handler.recvTask = .running → s.handler.added.map (·.candidate) ++
        (s.toServer ++ s.client.localCandidates.map fun candidate =>
          SignalingJson.mk false "" "" candidate).map (·.candidate) = s.client.found := by
      intro hrun
      rw [← hs.all hlost hrun]
      simp [uploaded, Function.comp_def]
    refine ⟨hs.added, fun hrun => ?_, fun _ hrun => ?_⟩
    · exact ⟨[], (List.append_nil _).trans (hmoved hrun)⟩
    · exact (List.append_nil _).trans (hmoved hrun)
  · exact hs

/-- The handler reads a text. -/
lemma ToServer.recv (hs : s.ToServer) (hst : s.recvStep = some t) : t.ToServer := by
  obtain ⟨-, hrun, signaling, texts, htexts, rfl | rfl⟩ := recvStep_eq_some hst
  · exact hs.ended rfl rfl rfl
  · -- the first of the texts is now the last of those that were added
    have hmoved : (s.handler.added ++ [IceCandidateInit.mk signaling.candidate none none]).map
        (·.candidate) ++ texts.map (·.candidate) = s.uploaded := by
      simp [uploaded, htexts]
    have harrived := hs.arrived hrun
    rw [← hmoved] at harrived
    refine ⟨(List.prefix_append _ _).trans harrived, fun _ => harrived, fun hlost _ => ?_⟩
    rw [← hs.all hlost hrun, ← hmoved]
    rfl

/-- Every step keeps the candidates on their way to the server together. -/
lemma ToServer.step (hs : s.ToServer) (hst : s.step a = some t) : t.ToServer := by
  cases a with
  | clientFinds candidate =>
      obtain rfl := Option.some.inj hst
      have hmore : s.client.found <+: s.client.found ++ [candidate] := List.prefix_append _ _
      refine ⟨hs.added.trans hmore, fun hrun => (hs.arrived hrun).trans hmore, fun hlost hrun => ?_⟩
      show s.uploaded ++ (s.client.localCandidates ++ [candidate]) = s.client.found ++ [candidate]
      rw [← List.append_assoc, hs.all hlost hrun]
  | closes | connects | disconnects | dropSenders =>
      obtain rfl := Option.some.inj hst
      exact ⟨hs.added, hs.arrived, hs.all⟩
  | opens =>
      obtain ⟨-, hst⟩ := Option.ite_none_right_eq_some.mp hst
      obtain rfl := Option.some.inj hst
      exact ⟨hs.added, hs.arrived, hs.all⟩
  | localTimer =>
      obtain rfl := Option.some.inj hst
      exact hs.upload
  | remoteTimer =>
      obtain rfl := Option.some.inj hst
      rw [remoteTimerStep]
      split_ifs <;> exact ⟨hs.added, hs.arrived, hs.all⟩
  | message =>
      obtain ⟨json, texts, -, ⟨-, rfl⟩ | ⟨-, rfl⟩⟩ := messageStep_eq_some hst
      · exact ⟨hs.added, hs.arrived, hs.all⟩
      · exact ⟨hs.added, hs.arrived, hs.all⟩
  | described =>
      obtain ⟨sdp, -, rfl⟩ := Option.map_eq_some_iff.mp hst
      exact ⟨hs.added, hs.arrived, hs.all⟩
  | handlerFinds candidate =>
      obtain ⟨-, rfl⟩ | ⟨-, rfl⟩ := offer_eq_some hst
      · exact ⟨hs.added, hs.arrived, hs.all⟩
      · exact ⟨hs.added, hs.arrived, hs.all⟩
  | answers sdp session sent =>
      obtain ⟨-, hst⟩ := Option.ite_none_right_eq_some.mp hst
      obtain rfl := Option.some.inj hst
      split_ifs
      · rw [download]
        split_ifs <;> exact ⟨hs.added, hs.arrived, hs.all⟩
      · exact hs.ended rfl rfl rfl
  | fails =>
      obtain ⟨-, hst⟩ := Option.ite_none_right_eq_some.mp hst
      obtain rfl := Option.some.inj hst
      exact hs.ended rfl rfl rfl
  | tells =>
      obtain ⟨-, hst⟩ := Option.ite_none_left_eq_some.mp hst
      obtain ⟨-, rfl⟩ | ⟨-, rfl⟩ := offer_eq_some hst
      · exact ⟨hs.added, hs.arrived, hs.all⟩
      · exact ⟨hs.added, hs.arrived, hs.all⟩
  | send written =>
      obtain ⟨-, rfl | ⟨candidate, channel, -, rfl⟩⟩ := sendStep_eq_some hst
      · exact ⟨hs.added, hs.arrived, hs.all⟩
      · rw [forwarded, download]
        split_ifs <;> exact ⟨hs.added, hs.arrived, hs.all⟩
  | recv => exact hs.recv hst
  | recvEnds =>
      obtain ⟨-, hst⟩ := Option.ite_none_right_eq_some.mp hst
      obtain rfl := Option.some.inj hst
      exact hs.ended rfl rfl rfl
  | abort =>
      obtain ⟨-, hst⟩ := Option.ite_none_right_eq_some.mp hst
      obtain rfl := Option.some.inj hst
      exact hs.ended rfl rfl rfl
  | breaks down up =>
      obtain rfl := Option.some.inj hst
      have hless : (s.toServer.take up).map (·.candidate) <+: s.toServer.map (·.candidate) :=
        (List.take_prefix up s.toServer).map _
      refine ⟨hs.added, fun hrun => ?_, fun h => by cases h⟩
      exact ((List.prefix_append_right_inj _).mpr hless).trans (hs.arrived hrun)

/-! ### The answer -/

/-- What the client takes for the answer is the answer of the handler, a side adds candidates only
once it has both descriptions, and the two differ in what they add them with. -/
structure Answered (s : TrickleSystem) : Prop where
  texts : ∀ json ∈ s.toClient, json.isCandidate = false → s.handler.answer = some json.sdp
  setting : ∀ sdp ∈ s.client.setting, s.handler.answer = some sdp
  description : ∀ sdp ∈ s.client.remoteDescription, s.handler.answer = some sdp
  clientAdds : ∀ init ∈ s.client.added, s.client.remoteDescription.isSome ∧
    init.sdpMid = some "0" ∧ init.sdpMLineIndex = some 0
  handlerAdds : ∀ init ∈ s.handler.added, s.handler.answer.isSome ∧
    init.sdpMid = none ∧ init.sdpMLineIndex = none

/-- A step of the handler that leaves the answer, and adds nothing. -/
lemma Answered.of_eq (hs : s.Answered) (hclient : t.client = s.client)
    (htexts : t.toClient = s.toClient) (hanswer : t.handler.answer = s.handler.answer)
    (hadded : t.handler.added = s.handler.added) : t.Answered where
  texts := by
    rw [htexts, hanswer]
    exact hs.texts
  setting := by
    rw [hclient, hanswer]
    exact hs.setting
  description := by
    rw [hclient, hanswer]
    exact hs.description
  clientAdds := by
    rw [hclient]
    exact hs.clientAdds
  handlerAdds := by
    rw [hadded, hanswer]
    exact hs.handlerAdds

lemma Answered.offer {item : Bool × String} (hs : s.Answered) (hst : s.offer item = some t) :
    t.Answered := by
  obtain ⟨-, rfl⟩ | ⟨-, rfl⟩ := offer_eq_some hst
  · exact hs
  · exact hs.of_eq rfl rfl rfl rfl

/-- A text that goes to the client. -/
lemma Answered.download {text : SignalingJson} (hs : s.Answered)
    (htext : text.isCandidate = false → s.handler.answer = some text.sdp) :
    (s.download text).Answered := by
  rw [TrickleSystem.download]
  split_ifs
  · exact hs
  · refine ⟨fun json hmem hjson => ?_, hs.setting, hs.description, hs.clientAdds, hs.handlerAdds⟩
    rcases List.mem_append.mp hmem with hmem | hmem
    · exact hs.texts json hmem hjson
    · obtain rfl := List.mem_singleton.mp hmem
      exact htext hjson

/-- The handler answers: before that, nothing was said. -/
lemma Answered.answer (hs : s.Answered) (hnone : s.handler.answer = none) (sdp : String) :
    Answered { s with handler := { s.handler with answer := some sdp } } where
  texts json hmem hjson := by
    have hold := hs.texts json hmem hjson
    simp [hnone] at hold
  setting sdp' hmem := by
    have hold := hs.setting sdp' hmem
    simp [hnone] at hold
  description sdp' hmem := by
    have hold := hs.description sdp' hmem
    simp [hnone] at hold
  clientAdds := hs.clientAdds
  handlerAdds init hmem := by
    have hold := (hs.handlerAdds init hmem).1
    simp [hnone] at hold

/-- Every step keeps what is known of the answer. -/
lemma Answered.step (hs : s.Answered) (hst : s.step a = some t) : t.Answered := by
  cases a with
  | clientFinds | closes =>
      obtain rfl := Option.some.inj hst
      exact ⟨hs.texts, hs.setting, hs.description, hs.clientAdds, hs.handlerAdds⟩
  | connects | disconnects | dropSenders =>
      obtain rfl := Option.some.inj hst
      exact hs.of_eq rfl rfl rfl rfl
  | opens =>
      obtain ⟨-, hst⟩ := Option.ite_none_right_eq_some.mp hst
      obtain rfl := Option.some.inj hst
      exact ⟨hs.texts, hs.setting, hs.description, hs.clientAdds, hs.handlerAdds⟩
  | localTimer =>
      obtain rfl := Option.some.inj hst
      rw [localTimerStep, upload]
      split_ifs <;> exact ⟨hs.texts, hs.setting, hs.description, hs.clientAdds, hs.handlerAdds⟩
  | remoteTimer =>
      obtain rfl := Option.some.inj hst
      rw [remoteTimerStep]
      split_ifs with hdescription
      · refine ⟨hs.texts, hs.setting, hs.description, fun init hmem => ?_, hs.handlerAdds⟩
        rcases List.mem_append.mp hmem with hmem | hmem
        · exact hs.clientAdds init hmem
        · obtain ⟨candidate, -, rfl⟩ := List.mem_map.mp hmem
          exact ⟨hdescription, rfl, rfl⟩
      · exact hs
  | message =>
      obtain ⟨json, texts, htexts, hjson⟩ := messageStep_eq_some hst
      have hrest : ∀ text ∈ texts, text.isCandidate = false →
          s.handler.answer = some text.sdp := by
        intro text hmem
        exact hs.texts text (htexts ▸ List.mem_cons_of_mem _ hmem)
      obtain ⟨hjson, rfl⟩ | ⟨-, rfl⟩ := hjson
      · refine ⟨hrest, fun sdp hsdp => ?_, hs.description, hs.clientAdds, hs.handlerAdds⟩
        obtain rfl := Option.some.inj hsdp
        exact hs.texts json (htexts ▸ List.mem_cons_self) hjson
      · exact ⟨hrest, hs.setting, hs.description, hs.clientAdds, hs.handlerAdds⟩
  | described =>
      obtain ⟨sdp, hsdp, rfl⟩ := Option.map_eq_some_iff.mp hst
      refine ⟨hs.texts, fun _ h => (by cases h), fun sdp' h => ?_, fun init hmem => ?_,
        hs.handlerAdds⟩
      · obtain rfl := Option.some.inj h
        exact hs.setting sdp hsdp
      · exact ⟨rfl, (hs.clientAdds init hmem).2⟩
  | handlerFinds candidate =>
      have hfound : Answered { s with handler := { s.handler with
          found := s.handler.found ++ [candidate] } } := hs.of_eq rfl rfl rfl rfl
      exact hfound.offer hst
  | answers sdp session sent =>
      obtain ⟨⟨hnone, -⟩, hst⟩ := Option.ite_none_right_eq_some.mp hst
      obtain rfl := Option.some.inj hst
      split_ifs
      · exact (hs.answer hnone sdp).download fun _ => rfl
      · exact hs.of_eq rfl rfl rfl rfl
  | fails =>
      obtain ⟨-, hst⟩ := Option.ite_none_right_eq_some.mp hst
      obtain rfl := Option.some.inj hst
      exact hs.of_eq rfl rfl rfl rfl
  | tells =>
      obtain ⟨-, hst⟩ := Option.ite_none_left_eq_some.mp hst
      have htold : Answered { s with handler := { s.handler with
          telling := s.handler.telling - 1 } } := hs.of_eq rfl rfl rfl rfl
      exact htold.offer hst
  | send written =>
      obtain ⟨-, rfl | ⟨candidate, channel, -, rfl⟩⟩ := sendStep_eq_some hst
      · exact hs.of_eq rfl rfl rfl rfl
      · have htaken : Answered { s with handler := { s.handler with channel := channel } } :=
          hs.of_eq rfl rfl rfl rfl
        exact htaken.download fun h => by cases h
  | recv =>
      obtain ⟨hanswer, -, signaling, texts, -, rfl | rfl⟩ := recvStep_eq_some hst
      · exact hs.of_eq rfl rfl rfl rfl
      · refine ⟨hs.texts, hs.setting, hs.description, hs.clientAdds, fun init hmem => ?_⟩
        rcases List.mem_append.mp hmem with hmem | hmem
        · exact hs.handlerAdds init hmem
        · obtain rfl := List.mem_singleton.mp hmem
          exact ⟨hanswer, rfl, rfl⟩
  | recvEnds =>
      obtain ⟨-, hst⟩ := Option.ite_none_right_eq_some.mp hst
      obtain rfl := Option.some.inj hst
      exact hs.of_eq rfl rfl rfl rfl
  | abort =>
      obtain ⟨-, hst⟩ := Option.ite_none_right_eq_some.mp hst
      obtain rfl := Option.some.inj hst
      exact hs.of_eq rfl rfl rfl rfl
  | breaks down up =>
      obtain rfl := Option.some.inj hst
      exact ⟨fun json hmem => hs.texts json (List.mem_of_mem_take hmem), hs.setting,
        hs.description, hs.clientAdds, hs.handlerAdds⟩

/-! ### Whole exchanges -/

/-- Nothing cuts the exchange short: the handler does not fail and its peer is not connected, its
senders stay, its writes succeed, and the connection does not break. -/
def Undisturbed : TrickleAction → Prop
  | .fails | .connects | .dropSenders | .breaks .. => False
  | .answers _ _ sent => sent = true
  | .send written => written = true
  | .clientFinds _ | .opens | .localTimer | .remoteTimer | .message | .described | .closes
  | .handlerFinds _ | .tells | .disconnects | .recv | .recvEnds | .abort => True

instance : ∀ a : TrickleAction, Decidable (Undisturbed a)
  | .fails | .connects | .dropSenders | .breaks .. => isFalse id
  | .answers _ _ sent => inferInstanceAs (Decidable (sent = true))
  | .send written => inferInstanceAs (Decidable (written = true))
  | .clientFinds _ | .opens | .localTimer | .remoteTimer | .message | .described | .closes
  | .handlerFinds _ | .tells | .disconnects | .recv | .recvEnds | .abort => isTrue trivial

/-- No candidate is kept anywhere, or on its way. -/
def Settled (s : TrickleSystem) : Prop :=
  s.client.localCandidates = [] ∧ s.client.remoteCandidates = [] ∧ s.handler.channel = [] ∧
    s.toClient = [] ∧ s.toServer = []

/-- Both tasks of the handler run, and nothing is in sight that ends them. -/
structure Whole (s : TrickleSystem) : Prop where
  lost : s.lost = false
  senders : s.handler.senders = true
  connected : s.handler.connected = false
  telling : s.handler.telling = 0
  channel : ∀ item ∈ s.handler.channel, item.1 = false
  sendTask : s.handler.sendTask = .running
  recvTask : s.handler.recvTask = .running

lemma Whole.of_eq (hs : s.Whole) (hlost : t.lost = s.lost) (hhandler : t.handler = s.handler) :
    t.Whole where
  lost := hlost.trans hs.lost
  senders := hhandler ▸ hs.senders
  connected := hhandler ▸ hs.connected
  telling := hhandler ▸ hs.telling
  channel := hhandler ▸ hs.channel
  sendTask := hhandler ▸ hs.sendTask
  recvTask := hhandler ▸ hs.recvTask

lemma Whole.download (hs : s.Whole) (text : SignalingJson) : (s.download text).Whole := by
  rw [TrickleSystem.download]
  split_ifs
  · exact hs
  · exact hs.of_eq rfl rfl

/-- A step that does not cut the exchange short. -/
lemma Whole.step (hs : s.Whole) (ha : Undisturbed a) (hst : s.step a = some t) : t.Whole := by
  cases a with
  | fails => exact absurd ha id
  | connects => exact absurd ha id
  | dropSenders => exact absurd ha id
  | breaks => exact absurd ha id
  | clientFinds | closes =>
      obtain rfl := Option.some.inj hst
      exact hs.of_eq rfl rfl
  | opens =>
      obtain ⟨-, hst⟩ := Option.ite_none_right_eq_some.mp hst
      obtain rfl := Option.some.inj hst
      exact hs.of_eq rfl rfl
  | localTimer =>
      obtain rfl := Option.some.inj hst
      rw [localTimerStep, upload]
      split_ifs <;> exact hs.of_eq rfl rfl
  | remoteTimer =>
      obtain rfl := Option.some.inj hst
      rw [remoteTimerStep]
      split_ifs <;> exact hs.of_eq rfl rfl
  | message =>
      obtain ⟨json, texts, -, ⟨-, rfl⟩ | ⟨-, rfl⟩⟩ := messageStep_eq_some hst
      · exact hs.of_eq rfl rfl
      · exact hs.of_eq rfl rfl
  | described =>
      obtain ⟨sdp, -, rfl⟩ := Option.map_eq_some_iff.mp hst
      exact hs.of_eq rfl rfl
  | handlerFinds candidate =>
      obtain ⟨-, rfl⟩ | ⟨-, rfl⟩ := offer_eq_some hst
      · exact ⟨hs.lost, hs.senders, hs.connected, hs.telling, hs.channel, hs.sendTask,
          hs.recvTask⟩
      · refine ⟨hs.lost, hs.senders, hs.connected, hs.telling, fun item hitem => ?_, hs.sendTask,
          hs.recvTask⟩
        rcases List.mem_append.mp hitem with hitem | hitem
        · exact hs.channel item hitem
        · rw [List.mem_singleton.mp hitem]
  | answers sdp session sent =>
      obtain ⟨-, hst⟩ := Option.ite_none_right_eq_some.mp hst
      obtain rfl := Option.some.inj hst
      rw [if_pos (show sent = true from ha)]
      have hanswer : Whole { s with handler := { s.handler with answer := some sdp } } :=
        ⟨hs.lost, hs.senders, hs.connected, hs.telling, hs.channel, hs.sendTask, hs.recvTask⟩
      exact hanswer.download _
  | tells =>
      obtain ⟨hne, -⟩ := Option.ite_none_left_eq_some.mp hst
      exact absurd hs.telling hne
  | disconnects =>
      obtain rfl := Option.some.inj hst
      exact ⟨hs.lost, hs.senders, rfl, hs.telling, hs.channel, hs.sendTask, hs.recvTask⟩
  | send written =>
      obtain rfl : written = true := ha
      obtain ⟨-, hst⟩ := Option.ite_none_right_eq_some.mp hst
      split at hst
      · rw [if_pos hs.senders] at hst
        cases hst
      · rename_i peerConnected candidate channel hchannel
        obtain rfl := Option.some.inj hst
        have hpeer := hs.channel _ (hchannel ▸ List.mem_cons_self)
        rw [if_neg (by simp_all), if_pos rfl]
        have htaken : Whole { s with handler := { s.handler with channel := channel } } :=
          ⟨hs.lost, hs.senders, hs.connected, hs.telling,
            fun item hitem => hs.channel item (hchannel ▸ List.mem_cons_of_mem _ hitem),
            hs.sendTask, hs.recvTask⟩
        exact htaken.download _
  | recv =>
      obtain ⟨-, hst⟩ := Option.ite_none_right_eq_some.mp hst
      split at hst
      · cases hst
      · obtain rfl := Option.some.inj hst
        rw [if_neg (by simp [hs.connected])]
        exact ⟨hs.lost, hs.senders, hs.connected, hs.telling, hs.channel, hs.sendTask,
          hs.recvTask⟩
  | recvEnds =>
      obtain ⟨⟨-, -, hlost⟩, -⟩ := Option.ite_none_right_eq_some.mp hst
      simp [hs.lost] at hlost
  | abort =>
      obtain ⟨hend, -⟩ := Option.ite_none_right_eq_some.mp hst
      simp [hs.sendTask, hs.recvTask] at hend

end TrickleSystem

open TrickleSystem

/-- What holds of every state that a run leads to. -/
lemma conserved_exec {actions : List TrickleAction} {s : TrickleSystem}
    (h : trickleMachine.exec .start actions = some s) : s.ToClient ∧ s.ToServer ∧ s.Answered := by
  refine Machine.invariant_exec (I := fun s => s.ToClient ∧ s.ToServer ∧ s.Answered) ?_ ?_ h
  · intro s a t hs hst
    exact ⟨hs.1.step hst, hs.2.1.step hst, hs.2.2.step hst⟩
  · refine ⟨⟨List.nil_prefix, fun _ _ => rfl⟩, ⟨List.nil_prefix, fun _ => List.nil_prefix,
      fun _ _ => rfl⟩, ⟨?_, ?_, ?_, ?_, ?_⟩⟩
    all_goals simp [TrickleSystem.start]

/-- An exchange that nothing has cut short. -/
lemma whole_exec {actions : List TrickleAction} {s : TrickleSystem}
    (h : trickleMachine.exec .start actions = some s) (hall : ∀ a ∈ actions, Undisturbed a) :
    s.Whole := by
  refine Machine.exec_history (I := fun actions (s : TrickleSystem) =>
    (∀ a ∈ actions, Undisturbed a) → s.Whole) ?_ ?_ h hall
  · intro _
    exact ⟨rfl, rfl, rfl, rfl, by simp [TrickleSystem.start], rfl, rfl⟩
  · intro actions s a t hs hst hall
    rw [List.forall_mem_append] at hall
    exact (hs hall.1).step (hall.2 a (by simp)) hst

/-- **The candidates of both sides arrive**: in every run, each side has added a first part of the
candidates that the other one found, in order, unchanged and none twice, the client only after it
has set the answer that the handler sent, and the handler only after it answered; and each has
added all of them if nothing has cut the exchange short and no candidate is left on the way.  The
client adds them for its first medium, and the handler for none. -/
theorem trickle_delivers {actions : List TrickleAction} {s : TrickleSystem}
    (h : trickleMachine.exec .start actions = some s) :
    s.client.added.map (·.candidate) <+: s.handler.found ∧
    (∀ init ∈ s.client.added, init.sdpMid = some "0" ∧ init.sdpMLineIndex = some 0 ∧
      ∃ sdp, s.client.remoteDescription = some sdp ∧ s.handler.answer = some sdp) ∧
    s.handler.added.map (·.candidate) <+: s.client.found ∧
    (∀ init ∈ s.handler.added, init.sdpMid = none ∧ init.sdpMLineIndex = none ∧
      s.handler.answer.isSome) ∧
    ((∀ a ∈ actions, Undisturbed a) → s.Settled →
      s.client.added.map (·.candidate) = s.handler.found ∧
      s.handler.added.map (·.candidate) = s.client.found) := by
  obtain ⟨hclient, hserver, hanswer⟩ := conserved_exec h
  refine ⟨?_, fun init hmem => ?_, hserver.added, fun init hmem => ?_, fun hall hsettled => ?_⟩
  · have hfirst : s.client.added.map (·.candidate) <+: s.received := by
      rw [received, List.append_assoc]
      exact List.prefix_append _ _
    exact hfirst.trans hclient.arrived
  · obtain ⟨hsome, hmid, hindex⟩ := hanswer.clientAdds init hmem
    obtain ⟨sdp, hsdp⟩ := Option.isSome_iff_exists.mp hsome
    exact ⟨hmid, hindex, sdp, hsdp, hanswer.description sdp hsdp⟩
  · obtain ⟨hsome, hmid, hindex⟩ := hanswer.handlerAdds init hmem
    exact ⟨hmid, hindex, hsome⟩
  · have hwhole := whole_exec h hall
    obtain ⟨hlocal, hremote, hchannel, hdown, hup⟩ := hsettled
    have hdelivered := hclient.all hwhole.lost hwhole.sendTask
    have huploaded := hserver.all hwhole.lost hwhole.recvTask
    simp only [received, carried, queued, hremote, hchannel, hdown, List.filter_nil,
      List.map_nil, List.append_nil] at hdelivered
    simp only [uploaded, hlocal, hup, List.map_nil, List.append_nil] at huploaded
    exact ⟨hdelivered, huploaded⟩

/-- The handler finds a candidate before it answers, and one after that; the client finds one
before its socket is open. -/
def trickleRun : List TrickleAction :=
  [.clientFinds "c", .handlerFinds "h", .opens, .localTimer, .answers "answer" "session" true,
    .send true, .message, .message, .remoteTimer, .described, .handlerFinds "g", .remoteTimer,
    .recv, .send true, .message, .remoteTimer]

theorem trickle_delivers_run : ∃ s, trickleMachine.exec .start trickleRun = some s ∧ s.Settled ∧
    s.client.added.map (·.candidate) = ["h", "g"] ∧ s.handler.added.map (·.candidate) = ["c"] := by
  have hrun : (trickleMachine.exec .start trickleRun).map (fun s =>
      (s.client.localCandidates ++ s.client.remoteCandidates, s.handler.channel, s.toClient,
        s.toServer, s.handler.found, s.client.found)) = some ([], [], [], [], ["h", "g"], ["c"]) :=
    rfl
  obtain ⟨s, hs, hfields⟩ := Option.map_eq_some_iff.mp hrun
  simp only [Prod.mk.injEq, List.append_eq_nil_iff] at hfields
  obtain ⟨⟨hlocal, hremote⟩, hchannel, hdown, hup, hhandler, hclient⟩ := hfields
  have hsettled : s.Settled := ⟨hlocal, hremote, hchannel, hdown, hup⟩
  obtain ⟨-, -, -, -, hall⟩ := trickle_delivers hs
  obtain ⟨hdown, hup⟩ := hall (by decide) hsettled
  exact ⟨s, hs, hsettled, hdown.trans hhandler, hup.trans hclient⟩

end SfuServer
