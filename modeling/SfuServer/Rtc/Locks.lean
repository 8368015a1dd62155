import SfuServer.Lib.RwLock
import SfuServer.Http
import SfuServer.Rtc.Subscribe

/-!
The locks of a stream under concurrent calls: `info`, `close`, `set_publish`, `remove_publish`,
`new_subscription_peer`, `remove_subscribe` and `send_event` of `src/forward/rtc/internal.rs`.

Each field behind a lock has a lock of its own.  A guard lives to the end of its block, or to the
end of its statement where it has no name; the guards that `info` takes within the value that it
returns live to the end of that function.

* `StreamLock`, `StreamData`, `StreamCall`: the locks, what is behind them, and the calls;
* `Takes`, `obeys_prog`: what a call holds when it asks for a lock;
* `deadlock_iff`: a deadlock takes an `info` that waits for `publish` and a `close` that waits
  for `subscribe_group`, and these are enough;
* `not_deadlock_iff`: no state of a run has a deadlock, exactly if neither of the two comes to
  wait while the other one does.
-/

open Std (ExtTreeMap)

namespace SfuServer

/-- The locks of a stream. -/
inductive StreamLock where
  | publish
  | subscribeGroup
  | publishLeaveTime
  | subscribeLeaveTime
  | publishTracks
  | userSenderMap
  deriving DecidableEq, Repr

instance : Fintype StreamLock :=
  .ofList [.publish, .subscribeGroup, .publishLeaveTime, .subscribeLeaveTime, .publishTracks,
    .userSenderMap] fun l => by cases l <;> decide

/-- `RTCPeerConnectionState`. -/
inductive RTCPeerConnectionState where
  | unspecified
  | new
  | connecting
  | connected
  | disconnected
  | failed
  | closed
  deriving DecidableEq, Repr

/-- A connection in the slot of the publisher or in the group of the subscribers. -/
structure PeerSession where
  id : String
  createTime : ℤ
  deriving DecidableEq, Repr

/-- `SessionInfo`. -/
structure SessionInfo where
  id : String
  createTime : ℤ
  connectState : RTCPeerConnectionState
  deriving DecidableEq, Repr

/-- `ForwardInfo`. -/
structure ForwardInfo where
  id : String
  createTime : ℤ
  publishLeaveTime : ℤ
  subscribeLeaveTime : ℤ
  publishSessionInfo : Option SessionInfo
  subscribeSessionInfos : List SessionInfo
  deriving DecidableEq, Repr

/-- `ForwardEventType`. -/
inductive ForwardEventType where
  | publishUp
  | publishDown
  | subscribeUp
  | subscribeDown
  deriving DecidableEq, Repr

/-- `ForwardEvent`. -/
structure ForwardEvent where
  type : ForwardEventType
  session : String
  streamInfo : ForwardInfo
  deriving DecidableEq, Repr

/-- `MediaInfo`: how many transceivers of a kind send and receive, and whether the video has
layers. -/
structure MediaInfo where
  videoTransceiver : UInt8 × UInt8 × Bool
  audioTransceiver : UInt8 × UInt8
  deriving DecidableEq, Repr

/-- `PeerForwardInternal`: what its functions read and write, with the events sent so far. -/
structure StreamData where
  stream : String
  createTime : ℤ
  publishLeaveTime : ℤ
  subscribeLeaveTime : ℤ
  publish : Option PeerSession
  publishTracks : List PublishTrackRemote
  subscribeGroup : List PeerSession
  userSenderMap : ExtTreeMap UInt32 ℕ
  events : List ForwardEvent

/-- `PeerForwardInternal::new`. -/
def StreamData.new (stream : String) (now : ℤ) : StreamData where
  stream := stream
  createTime := now
  publishLeaveTime := 0
  subscribeLeaveTime := now
  publish := none
  publishTracks := []
  subscribeGroup := []
  userSenderMap := ∅
  events := []

/-- What a call is told by the clock and by the connections: the time, their states, whether they
could be closed, and whether a connection could be set up. -/
structure Surroundings where
  now : ℤ
  connectionState : String → RTCPeerConnectionState
  closed : String → Except AppError Unit
  built : Except AppError Unit

/-- A program of a stream. -/
abbrev StreamProg := LockProg StreamLock StreamData

/-- What a call returns. -/
inductive StreamReply where
  | info (i : ForwardInfo)
  | done (r : Except AppError Unit)
  | peer (r : Except AppError String)

/-- The calls. -/
inductive StreamCall where
  | info (o : Surroundings)
  | close (o : Surroundings)
  | setPublish (o : Surroundings) (peer : String)
  | removePublish (o : Surroundings) (id : UInt32) (peer : String)
  | newSubscriptionPeer (o : Surroundings) (mediaInfo : MediaInfo) (peer : String)
  | removeSubscribe (o : Surroundings) (id : UInt32) (peer : String)
  | sendEvent (o : Surroundings) (type : ForwardEventType) (session : String)

namespace StreamProg

open LockProg

/-- `info` of a publisher and of a subscriber. -/
def sessionInfo (o : Surroundings) (peer : PeerSession) : SessionInfo :=
  ⟨peer.id, peer.createTime, o.connectionState peer.id⟩

/-- `PeerForwardInternal::info`. -/
def info (o : Surroundings) : StreamProg ForwardInfo := do
  lock .subscribeGroup .read
  let subscribeSessionInfos ← read fun d => d.subscribeGroup.map (sessionInfo o)
  let (stream, createTime) ← read fun d => (d.stream, d.createTime)
  lock .publishLeaveTime .read
  let publishLeaveTime ← read fun d => d.publishLeaveTime
  lock .subscribeLeaveTime .read
  let subscribeLeaveTime ← read fun d => d.subscribeLeaveTime
  lock .publish .read
  let publishSessionInfo ← read fun d => d.publish.map (sessionInfo o)
  -- the named guard is dropped first, then those within the value, the last one first
  unlock .subscribeGroup
  unlock .publish
  unlock .subscribeLeaveTime
  unlock .publishLeaveTime
  return ⟨stream, createTime, publishLeaveTime, subscribeLeaveTime, publishSessionInfo,
    subscribeSessionInfos⟩

/-- `PeerForwardInternal::close`; it stops at the first connection that cannot be closed. -/
def close (o : Surroundings) : StreamProg (Except AppError Unit) := do
  lock .publish .read
  lock .subscribeGroup .read
  let closed ← read fun d =>
    (d.publish.toList ++ d.subscribeGroup).forM fun peer => o.closed peer.id
  unlock .subscribeGroup
  unlock .publish
  return closed

/-- `PeerForwardInternal::send_event`. -/
def sendEvent (o : Surroundings) (type : ForwardEventType) (session : String) :
    StreamProg Unit := do
  let streamInfo ← info o
  modify fun d => { d with events := d.events ++ [⟨type, session, streamInfo⟩] }

/-- `PeerForwardInternal::publish_is_some`. -/
def publishIsSome : StreamProg Bool := do
  lock .publish .read
  let isSome ← read fun d => d.publish.isSome
  unlock .publish
  return isSome

/-- `PeerForwardInternal::set_publish`. -/
def setPublish (o : Surroundings) (peer : String) : StreamProg (Except AppError Unit) := do
  lock .publish .write
  if ← read fun d => d.publish.isSome then
    unlock .publish
    return .error (.streamAlreadyExists "A connection has already been established")
  else
    match o.built with
    | .error err =>
        unlock .publish
        return .error err
    | .ok () =>
        modify fun d => { d with publish := some ⟨peer, o.now⟩ }
        unlock .publish
        lock .publishLeaveTime .write
        modify fun d => { d with publishLeaveTime := 0 }
        unlock .publishLeaveTime
        sendEvent o .publishUp peer
        return .ok ()

/-- `PeerForwardInternal::remove_publish`. -/
def removePublish (o : Surroundings) (id : UInt32) (peer : String) :
    StreamProg (Except AppError Unit) := do
  lock .publish .write
  match ← read fun d => d.publish with
  | none =>
      unlock .publish
      return .error (.throw "publish is none")
  | some publish =>
      if publish.id ≠ peer then
        unlock .publish
        return .error (.throw "publish not myself")
      else
        modify fun d => { d with publish := none }
        unlock .publish
        lock .publishTracks .write
        modify fun d => { d with publishTracks := [] }
        unlock .publishTracks
        lock .publishLeaveTime .write
        modify fun d => { d with publishLeaveTime := o.now }
        unlock .publishLeaveTime
        lock .userSenderMap .write
        modify fun d => { d with userSenderMap := d.userSenderMap.erase id }
        unlock .userSenderMap
        sendEvent o .publishDown peer
        return .ok ()

/-- `PeerForwardInternal::new_subscription_peer`; `peer` is the connection that it sets up. -/
def newSubscriptionPeer (o : Surroundings) (mediaInfo : MediaInfo) (peer : String) :
    StreamProg (Except AppError String) := do
  if ← publishIsSome then
    if 1 < mediaInfo.videoTransceiver.2.1 ∨ 1 < mediaInfo.audioTransceiver.2 then
      return .error (.throw "recvonly is more than 1")
    else
      match o.built with
      | .error err => return .error err
      | .ok () =>
          lock .subscribeGroup .write
          modify fun d => { d with subscribeGroup := d.subscribeGroup ++ [⟨peer, o.now⟩] }
          unlock .subscribeGroup
          lock .subscribeLeaveTime .write
          modify fun d => { d with subscribeLeaveTime := 0 }
          unlock .subscribeLeaveTime
          sendEvent o .subscribeUp peer
          return .ok peer
  else
    return .error (.throw "publish is none")

/-- The end of `remove_subscribe`, for a session that was found in the group or not. -/
def leaveGroup (o : Surroundings) (id : UInt32) (peer : String) (flag : Bool) :
    StreamProg (Except AppError Unit) :=
  if flag then do
    sendEvent o .subscribeDown peer
    lock .userSenderMap .write
    modify fun d => { d with userSenderMap := d.userSenderMap.erase id }
    unlock .userSenderMap
    return .ok ()
  else
    return .error (.throw "not found session")

/-- `PeerForwardInternal::remove_subscribe`; the leave time is written while the group is
locked. -/
def removeSubscribe (o : Surroundings) (id : UInt32) (peer : String) :
    StreamProg (Except AppError Unit) := do
  lock .subscribeGroup .write
  let flag ← read fun d => d.subscribeGroup.any fun subscribe => subscribe.id = peer
  modify fun d => { d with
    subscribeGroup := d.subscribeGroup.eraseP fun subscribe => subscribe.id = peer }
  if ← read fun d => d.subscribeGroup.isEmpty then
    lock .subscribeLeaveTime .write
    modify fun d => { d with subscribeLeaveTime := o.now }
    unlock .subscribeLeaveTime
    unlock .subscribeGroup
    leaveGroup o id peer flag
  else
    unlock .subscribeGroup
    leaveGroup o id peer flag

end StreamProg

/-- The program of a call. -/
def StreamCall.prog : StreamCall → StreamProg StreamReply
  | .info o => return .info (← StreamProg.info o)
  | .close o => return .done (← StreamProg.close o)
  | .setPublish o peer => return .done (← StreamProg.setPublish o peer)
  | .removePublish o id peer => return .done (← StreamProg.removePublish o id peer)
  | .newSubscriptionPeer o mediaInfo peer =>
      return .peer (← StreamProg.newSubscriptionPeer o mediaInfo peer)
  | .removeSubscribe o id peer => return .done (← StreamProg.removeSubscribe o id peer)
  | .sendEvent o type session => return .done (.ok (← StreamProg.sendEvent o type session))

/-- The calls of a stream, with its locks and its data. -/
abbrev StreamSystem := LockSystem StreamLock StreamData StreamReply

/-- The machine of a stream on which the calls run concurrently. -/
def streamMachine : Machine StreamSystem (LockAction StreamCall) :=
  lockMachine StreamCall.prog fun d => ∃ stream now, d = .new stream now

namespace StreamProg

/-- What a call holds, the last lock first, when it asks for a lock. -/
inductive Takes : List StreamLock → StreamLock → Prop
  | alone (l) : Takes [] l
  | infoPublishLeaveTime : Takes [.subscribeGroup] .publishLeaveTime
  | infoSubscribeLeaveTime : Takes [.publishLeaveTime, .subscribeGroup] .subscribeLeaveTime
  | infoPublish : Takes [.subscribeLeaveTime, .publishLeaveTime, .subscribeGroup] .publish
  | closeSubscribeGroup : Takes [.publish] .subscribeGroup
  | removeSubscribe : Takes [.subscribeGroup] .subscribeLeaveTime

variable (o : Surroundings)

lemma obeys_info : (info o).Obeys Takes [] := by
  simp [info, Takes.alone, Takes.infoPublishLeaveTime, Takes.infoSubscribeLeaveTime,
    Takes.infoPublish]

lemma obeys_sendEvent (type : ForwardEventType) (session : String) :
    (sendEvent o type session).Obeys Takes [] :=
  (obeys_info o).bind fun _ => rfl

/-- A call that sends an event at its end. -/
lemma obeys_sendEvent_return {β : Type} (type : ForwardEventType) (session : String) (b : β) :
    (sendEvent o type session >>= fun _ => return b).Obeys Takes [] :=
  (obeys_sendEvent o type session).bind fun _ => rfl

lemma obeys_close : (close o).Obeys Takes [] := by
  simp [close, Takes.alone, Takes.closeSubscribeGroup]

lemma obeys_setPublish (peer : String) : (setPublish o peer).Obeys Takes [] := by
  simp only [setPublish, LockProg.obeys_lock_bind, LockProg.obeys_read_bind]
  refine ⟨.alone _, by simp, fun d => ?_⟩
  split_ifs
  · simp
  · split
    · simp
    · simp [Takes.alone, obeys_sendEvent_return]

lemma obeys_removePublish (id : UInt32) (peer : String) :
    (removePublish o id peer).Obeys Takes [] := by
  simp only [removePublish, LockProg.obeys_lock_bind, LockProg.obeys_read_bind]
  refine ⟨.alone _, by simp, fun d => ?_⟩
  split
  · simp
  · split_ifs
    · simp
    · simp [Takes.alone, obeys_sendEvent_return]

lemma obeys_newSubscriptionPeer (mediaInfo : MediaInfo) (peer : String) :
    (newSubscriptionPeer o mediaInfo peer).Obeys Takes [] := by
  refine LockProg.Obeys.bind (by simp [publishIsSome, Takes.alone]) fun isSome => ?_
  split_ifs
  · simp
  · split
    · simp
    · simp [Takes.alone, obeys_sendEvent_return]
  · simp

lemma obeys_leaveGroup (id : UInt32) (peer : String) (flag : Bool) :
    (leaveGroup o id peer flag).Obeys Takes [] := by
  rw [leaveGroup]
  split_ifs
  · exact (obeys_sendEvent o .subscribeDown peer).bind fun _ => by simp [Takes.alone]
  · simp

lemma obeys_removeSubscribe (id : UInt32) (peer : String) :
    (removeSubscribe o id peer).Obeys Takes [] := by
  simp only [removeSubscribe, LockProg.obeys_lock_bind, LockProg.obeys_read_bind,
    LockProg.obeys_modify_bind]
  refine ⟨.alone _, by simp, fun d d' => ?_⟩
  split_ifs
  · simp [Takes.removeSubscribe, obeys_leaveGroup]
  · simp [obeys_leaveGroup]

/-- Every call takes its locks as `Takes` says, and gives up all of them. -/
lemma obeys_prog (c : StreamCall) : c.prog.Obeys Takes [] := by
  cases c with
  | info o => exact (obeys_info o).bind fun _ => rfl
  | close o => exact (obeys_close o).bind fun _ => rfl
  | setPublish o peer => exact (obeys_setPublish o peer).bind fun _ => rfl
  | removePublish o id peer => exact (obeys_removePublish o id peer).bind fun _ => rfl
  | newSubscriptionPeer o mediaInfo peer =>
      exact (obeys_newSubscriptionPeer o mediaInfo peer).bind fun _ => rfl
  | removeSubscribe o id peer => exact (obeys_removeSubscribe o id peer).bind fun _ => rfl
  | sendEvent o type session => exact (obeys_sendEvent o type session).bind fun _ => rfl

/-! ### Deadlocks -/

variable {s t : StreamSystem} {a : LockAction StreamCall}

/-- The order of the locks within `info`. -/
def infoRank : StreamLock → ℕ
  | .publish => 3
  | .subscribeLeaveTime => 2
  | .publishLeaveTime => 1
  | .subscribeGroup | .publishTracks | .userSenderMap => 0

/-- The order of the locks where `close` takes the slot first. -/
def closeRank : StreamLock → ℕ
  | .subscribeLeaveTime => 3
  | .publishLeaveTime => 2
  | .subscribeGroup => 1
  | .publish | .publishTracks | .userSenderMap => 0

/-- Where no call waits for the group while it holds the slot, all calls take their locks as
`info` does. -/
lemma infoRank_lt {held : List StreamLock} {l l' : StreamLock} (h : Takes held l) (hl' : l' ∈ held)
    (hclose : ¬ (l = .subscribeGroup ∧ StreamLock.publish ∈ held)) : infoRank l' < infoRank l := by
  cases h with
  | alone => cases hl'
  | closeSubscribeGroup => exact absurd ⟨rfl, List.mem_singleton_self _⟩ hclose
  | _ => revert l'; decide

/-- Where no call waits for the slot while it holds the group, all calls take their locks in
the order of `close`. -/
lemma closeRank_lt {held : List StreamLock} {l l' : StreamLock} (h : Takes held l)
    (hl' : l' ∈ held) (hinfo : ¬ (l = .publish ∧ StreamLock.subscribeGroup ∈ held)) :
    closeRank l' < closeRank l := by
  cases h with
  | alone => cases hl'
  | infoPublish => exact absurd ⟨rfl, by decide⟩ hinfo
  | _ => revert l'; decide

/-- Two calls that each wait for the lock in the hands of the other. -/
lemma deadlock_of_waitsHolding (hinfo : s.WaitsHolding .publish .subscribeGroup)
    (hclose : s.WaitsHolding .subscribeGroup .publish) : Deadlock s.locks := by
  obtain ⟨i, hi, hi'⟩ := hinfo
  obtain ⟨c, hc, hc'⟩ := hclose
  have hic : BlockedBy s.locks i c := ⟨.publish, hi, .inl hc'⟩
  have hci : BlockedBy s.locks c i := ⟨.subscribeGroup, hc, .inl hi'⟩
  exact ⟨i, .head hic (.single hci)⟩

/-- **Which deadlocks there are**: the calls of a stream block each other in a cycle if and only
if one waits for the slot of the publisher while it holds the group of the subscribers, and
another waits for the group while it holds the slot. -/
theorem deadlock_iff (ho : s.Orderly Takes) :
    Deadlock s.locks ↔
      s.WaitsHolding .publish .subscribeGroup ∧ s.WaitsHolding .subscribeGroup .publish := by
  refine ⟨fun hd => ⟨?_, ?_⟩, fun h => deadlock_of_waitsHolding h.1 h.2⟩
  · by_contra hinfo
    refine not_deadlock_of_rank closeRank (fun c l l' hw hholds => ?_)
      (fun c l l' => ho.waits_unique) hd
    obtain ⟨held, htakes, hheld⟩ := ho.exists_of_waits hw
    refine closeRank_lt htakes ((hheld l').mp hholds) fun ⟨hl, hmem⟩ => hinfo ?_
    exact ⟨c, hl ▸ hw, (hheld _).mpr hmem⟩
  · by_contra hclose
    refine not_deadlock_of_rank infoRank (fun c l l' hw hholds => ?_)
      (fun c l l' => ho.waits_unique) hd
    obtain ⟨held, htakes, hheld⟩ := ho.exists_of_waits hw
    refine infoRank_lt htakes ((hheld l').mp hholds) fun ⟨hl, hmem⟩ => hclose ?_
    exact ⟨c, hl ▸ hw, (hheld _).mpr hmem⟩

/-- No call that holds the group of the subscribers comes to wait for the slot of the publisher
while one that holds the slot waits for the group, nor the other way round. -/
def Apart (s : StreamSystem) (a : LockAction StreamCall) : Prop :=
  (s.Asks a .publish .subscribeGroup → ¬ s.WaitsHolding .subscribeGroup .publish) ∧
    (s.Asks a .subscribeGroup .publish → ¬ s.WaitsHolding .publish .subscribeGroup)

instance : Decidable (Apart s a) := inferInstanceAs (Decidable (_ ∧ _))

/-- A step leads into a deadlock exactly if the two kinds of calls do not keep apart. -/
lemma not_deadlock_step_iff (ho : s.Orderly Takes) (hs : ¬ Deadlock s.locks)
    (hst : streamMachine.step s a = some t) : ¬ Deadlock t.locks ↔ Apart s a := by
  have ht := LockSystem.orderly_step obeys_prog ho hst
  rw [deadlock_iff ht]
  rw [deadlock_iff ho] at hs
  constructor
  · intro hnot
    refine ⟨fun hasks hclose => hnot ?_, fun hasks hinfo => hnot ?_⟩
    · obtain ⟨hinfo, hkept⟩ := LockSystem.waitsHolding_of_asks hst hasks
      exact ⟨hinfo, hkept _ _ hclose⟩
    · obtain ⟨hclose, hkept⟩ := LockSystem.waitsHolding_of_asks hst hasks
      exact ⟨hkept _ _ hinfo, hclose⟩
  · rintro hapart ⟨hinfo, hclose⟩
    rcases LockSystem.waitsHolding_step ho ht hst hinfo with hinfo' | hasks
    · rcases LockSystem.waitsHolding_step ho ht hst hclose with hclose' | hasks'
      · exact hs ⟨hinfo', hclose'⟩
      · exact hapart.2 hasks' hinfo'
    · rcases LockSystem.waitsHolding_step ho ht hst hclose with hclose' | hasks'
      · exact hapart.1 hasks hclose'
      · exact absurd (hasks.unique hasks') (by decide)

/-- **When the calls of a stream do not block each other**: no state of a run has a cycle of calls
each of which waits for a lock that the next one holds or waits for ahead of it, if and only if
never a call that holds the group of the subscribers comes to wait for the slot of the publisher
while one that holds the slot waits for the group, nor the other way round. -/
theorem not_deadlock_iff {as : List (LockAction StreamCall)} (h0 : streamMachine.init s) :
    streamMachine.Always (fun s => ¬ Deadlock s.locks) s as ↔ streamMachine.Guarded Apart s as := by
  obtain ⟨d, -, rfl⟩ := h0
  have ho : (LockSystem.new d : StreamSystem).Orderly Takes := LockSystem.orderly_new d
  have hs : ¬ Deadlock (LockSystem.new d : StreamSystem).locks := by
    rw [deadlock_iff ho]
    rintro ⟨⟨k, hk, -⟩, -⟩
    exact List.not_mem_nil hk
  refine Machine.always_iff_guarded (I := fun s : StreamSystem => s.Orderly Takes ∧
    ¬ Deadlock s.locks) (fun r a t hr hst => ?_) ⟨ho, hs⟩ hs
  have hiff := not_deadlock_step_iff hr.1 hr.2 hst
  exact ⟨hiff, fun hok => ⟨LockSystem.orderly_step obeys_prog hr.1 hst, hiff.mpr hok⟩⟩

/-- Connections that can be set up and closed, at the time zero. -/
def calm : Surroundings where
  now := 0
  connectionState _ := .connected
  closed _ := .ok ()
  built := .ok ()

/-- A publisher comes; then the stream is looked at and closed, a subscriber comes and the
publisher goes, all at once. -/
def busyStream : List (LockAction StreamCall) :=
  .start (.setPublish calm "7") :: List.replicate 21 (.run 0) ++
    [.start (.info calm), .start (.close calm),
      .start (.newSubscriptionPeer calm ⟨(0, 1, false), (0, 1)⟩ "9"),
      .start (.removePublish calm 1 "7"), .run 3, .run 3, .run 3]

/-- The stream is looked at before it is closed. -/
theorem not_deadlock_busyStream :
    streamMachine.Always (fun s => ¬ Deadlock s.locks) (.new (.new "live" 0))
      (busyStream ++ List.replicate 13 (.run 1) ++ [.run 2, .run 3, .run 4, .run 2]) :=
  (not_deadlock_iff ⟨_, ⟨"live", 0, rfl⟩, rfl⟩).mpr (by decide)

/-- The look at the stream gets as far as the slot, and the call that closes the stream as far as
the group, while the subscriber waits for the group and the end of the publisher for the slot. -/
def crossedStream : List (LockAction StreamCall) :=
  busyStream ++ List.replicate 7 (.run 1) ++ [.run 2, .run 3, .run 4, .run 1, .run 2]

/-- The look at the stream holds the group and waits for the slot, behind the end of the publisher,
which waits for the call that closes the stream; this one holds the slot and waits for the group,
behind the subscriber, which waits for the look at the stream. -/
theorem deadlock_crossedStream :
    ¬ ∀ (s : StreamSystem) (as : List (LockAction StreamCall)), streamMachine.init s →
      streamMachine.Always (fun s => ¬ Deadlock s.locks) s as := by
  intro h
  have hrun : (streamMachine.exec (.new (.new "live" 0)) crossedStream).any (fun t : StreamSystem =>
      t.WaitsHolding .publish .subscribeGroup ∧ t.WaitsHolding .subscribeGroup .publish) := by
    decide
  obtain ⟨t, ht, hboth⟩ := (Option.any_eq_true _ _).mp hrun
  obtain ⟨hinfo, hclose⟩ := of_decide_eq_true hboth
  exact (h _ crossedStream ⟨_, ⟨"live", 0, rfl⟩, rfl⟩).of_exec ht
    (deadlock_of_waitsHolding hinfo hclose)

end StreamProg

end SfuServer
