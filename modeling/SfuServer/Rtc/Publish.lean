import SfuServer.Lib.Machine
import SfuServer.Rtc.Forwarder

/-!
The streams of a room over runs: calls of `Forwarder::publish`, the callbacks of publishers
that close, and the reaper `publish_check_tick`, interleaved where the source awaits.

The slot and the leave time of a forward are written in separate critical sections, so a
call and a callback are cut into the steps between two of them.  A call drops the guard of
`publish_lock` where it takes it, so calls on one forward overlap.  The reaper keeps the
table for reading in its first loop and for writing in the second; the slots are not under
that lock.

* `PublishSystem`, `PublishAction`, `publishMachine`: the forwarder, the clock, the calls and
  the reaper, and what can happen;
* `spec_of_step`: what a step does to the forwards and the table, to the calls and to the
  reaper; `slot_step`, `leaveTime_step` and `streamMap_step` say who changes what;
* `published_of_orderly`: a call that returns a peer has it in the slot of the forward that
  the table has for its stream, in runs where the reaper and the call keep apart.
-/

open Std (ExtTreeMap)

namespace SfuServer

/-- The stages of a call of `Forwarder::publish`. -/
inductive PublishStage where
  | checking
  | rechecking
  | negotiating
  | setting
  | resetting
  | finishing
  | returned (result : Except AppError Unit)
  deriving DecidableEq

/-- The call has filled the slot and not returned. -/
def PublishStage.Holding : PublishStage → Prop
  | .resetting | .finishing => True
  | .checking | .rechecking | .negotiating | .setting | .returned _ => False

instance : ∀ stage : PublishStage, Decidable stage.Holding
  | .resetting | .finishing => isTrue trivial
  | .checking | .rechecking | .negotiating | .setting | .returned _ => isFalse id

/-- The call has neither filled the slot nor returned with success. -/
def PublishStage.Early : PublishStage → Prop
  | .checking | .rechecking | .negotiating | .setting | .returned (.error _) => True
  | .resetting | .finishing | .returned (.ok _) => False

lemma PublishStage.Early.not_holding {stage : PublishStage} (he : stage.Early) :
    ¬ stage.Holding := by
  cases stage <;> first | exact id | exact absurd he id

lemma PublishStage.Early.ne_returned {stage : PublishStage} (he : stage.Early) :
    stage ≠ .returned (.ok ()) := by
  rintro rfl
  exact he

/-- The stages of the callback that `remove_publish` runs in when the connection has closed. -/
inductive LeaveStage where
  | idle
  | cleared
  | done
  deriving DecidableEq

/-- A call of `Forwarder::publish`: its forward, which it found in the table or set up, and
its connection, with the callback for its end. -/
structure PublishCall where
  stream : String
  forward : ℕ
  found : Bool
  peer : Option ℕ
  stage : PublishStage
  leave : LeaveStage

/-- Where `publish_check_tick` is.  In `scanning` and `scanned` it holds the table for
reading, in the states after `locking` for writing; `remove` is its `remove_streams`, `leave`
a leave time that it has read. -/
inductive TickState where
  | sleeping
  | scanning (todo : List (String × ℕ)) (remove : List String)
  | scanned (stream : String) (leave : ℤ) (todo : List (String × ℕ)) (remove : List String)
  | locking (remove : List String)
  | reaping (todo : List String)
  | comparing (stream : String) (forward : ℕ) (leave : ℤ) (todo : List String)
  | closing (stream : String) (forward : ℕ) (leave : ℤ) (todo : List String)
  | removing (stream : String) (forward : ℕ) (leave : ℤ) (todo : List String)
  deriving DecidableEq

namespace TickState

/-- The table can be read. -/
def Readable : TickState → Prop
  | .sleeping | .scanning .. | .scanned .. | .locking _ => True
  | .reaping _ | .comparing .. | .closing .. | .removing .. => False

/-- The table can be written. -/
def Writable : TickState → Prop
  | .sleeping | .locking _ => True
  | .scanning .. | .scanned .. | .reaping _ | .comparing .. | .closing .. | .removing .. => False

instance : ∀ k : TickState, Decidable k.Readable
  | .sleeping | .scanning .. | .scanned .. | .locking _ => isTrue trivial
  | .reaping _ | .comparing .. | .closing .. | .removing .. => isFalse id

instance : ∀ k : TickState, Decidable k.Writable
  | .sleeping | .locking _ => isTrue trivial
  | .scanning .. | .scanned .. | .reaping _ | .comparing .. | .closing .. | .removing .. =>
      isFalse id

/-- The stream and the forward that the reaper has looked up in its second loop. -/
def target : TickState → Option (String × ℕ)
  | .sleeping | .scanning .. | .scanned .. | .locking _ | .reaping _ => none
  | .comparing stream h .. | .closing stream h .. | .removing stream h .. => some (stream, h)

/-- The forward and its leave time on which the reaper is about to decide. -/
def comparison : TickState → Option (ℕ × ℤ)
  | .sleeping | .scanning .. | .scanned .. | .locking _ | .reaping _ | .closing ..
  | .removing .. => none
  | .comparing _ h leave _ => some (h, leave)

/-- The stream whose entry the reaper is about to remove. -/
def removal : TickState → Option String
  | .sleeping | .scanning .. | .scanned .. | .locking _ | .reaping _ | .comparing ..
  | .closing .. => none
  | .removing stream .. => some stream

/-- The leave time for which the reaper has decided to remove the forward. -/
def condemned (k : TickState) (h : ℕ) : Option ℤ :=
  match k with
  | .sleeping | .scanning .. | .scanned .. | .locking _ | .reaping _ | .comparing .. => none
  | .closing _ k leave _ | .removing _ k leave _ => if k = h then some leave else none

/-- What the reaper has decided on, it has looked up. -/
lemma exists_target_of_condemned {k : TickState} {h : ℕ} {leave : ℤ}
    (hk : k.condemned h = some leave) : ∃ stream, k.target = some (stream, h) := by
  cases k with
  | closing stream k leave' todo | removing stream k leave' todo =>
      simp only [condemned, Option.ite_none_right_eq_some] at hk
      exact ⟨stream, by rw [← hk.1]; rfl⟩
  | _ => cases hk

/-- A table that can be written can be read. -/
lemma Writable.readable {k : TickState} (hk : k.Writable) : k.Readable := by
  cases k <;> trivial

/-- While the reaper has looked up a stream, the table cannot be written. -/
lemma not_writable_of_target {k : TickState} {x : String × ℕ} (hk : k.target = some x) :
    ¬ k.Writable := by
  cases k <;> first | exact id | cases hk

end TickState

/-- The forwarder of a room over time.  `emptiedAt` is not in the source: the time since which
the slot of a forward has been empty, if it is. -/
structure PublishSystem where
  forwarder : Forwarder
  clock : ℤ
  calls : List PublishCall
  tick : TickState
  emptiedAt : ℕ → ℤ

/-- Whether the call `k` has returned, and with success. -/
def PublishSystem.callResult (s : PublishSystem) (k : ℕ) : Option Bool :=
  s.calls[k]?.bind fun c =>
    match c.stage with
    | .returned (.ok ()) => some true
    | .returned (.error _) => some false
    | .checking | .rechecking | .negotiating | .setting | .resetting | .finishing => none

/-- What can happen: time passes, a stream is created, a call begins or takes its next step,
a connection comes up or closes, the callback of a closed one takes its next step, and the
reaper wakes up or takes its next step. -/
inductive PublishAction where
  | elapse (ms : ℕ)
  | create (stream : String)
  | begin (stream : String)
  | check (i : ℕ)
  | recheck (i : ℕ)
  | negotiate (i : ℕ) (outcome : Except AppError Unit)
  | fill (i : ℕ)
  | reset (i : ℕ)
  | finish (i : ℕ)
  | connect (peer : ℕ)
  | close (peer : ℕ)
  | clear (i : ℕ)
  | stamp (i : ℕ)
  | wake (order : List (String × ℕ))
  | tick

namespace PublishSystem

/-- A change of a call. -/
def setCall (s : PublishSystem) (i : ℕ) (c : PublishCall) : PublishSystem :=
  { s with calls := s.calls.set i c }

/-- A step that the call `i` takes from one of its stages. -/
def onCall (s : PublishSystem) (i : ℕ) (stage : PublishStage)
    (u : PublishCall → Option PublishSystem) : Option PublishSystem :=
  s.calls[i]?.bind fun c => if c.stage = stage then u c else none

/-- `Forwarder::stream_create`, which needs the table for writing. -/
def createStep (s : PublishSystem) (stream : String) : Option PublishSystem :=
  if s.tick.Writable then
    match s.forwarder.streamCreate stream with
    | .error _ => some s
    | .ok f => some { s with
        forwarder := f
        emptiedAt := Function.update s.emptiedAt s.forwarder.forwards.length s.clock }
  else none

/-- A call of `Forwarder::publish` looks its stream up, and sets up a forward if there is none. -/
def beginStep (s : PublishSystem) (stream : String) : Option PublishSystem :=
  if s.tick.Readable then
    match s.forwarder.streamMap[stream]? with
    | some h => some { s with
        calls := s.calls ++ [⟨stream, h, true, none, .checking, .idle⟩] }
    | none =>
        let h := s.forwarder.forwards.length
        some { s with
          forwarder := s.forwarder.newForward stream
          calls := s.calls ++ [⟨stream, h, false, none, .checking, .idle⟩]
          emptiedAt := Function.update s.emptiedAt h s.clock }
  else none

/-- The first test of `PeerForward::set_publish`. -/
def checkStep (s : PublishSystem) (i : ℕ) : Option PublishSystem :=
  s.onCall i .checking fun c => some <|
    if (s.forwarder.slot c.forward).isSome then
      s.setCall i { c with stage := .returned (.error Forwarder.alreadyEstablished) }
    else s.setCall i { c with stage := .rechecking }

/-- The second test, under a lock whose guard is dropped at once, and the new connection. -/
def recheckStep (s : PublishSystem) (i : ℕ) : Option PublishSystem :=
  s.onCall i .rechecking fun c => some <|
    if (s.forwarder.slot c.forward).isSome then
      s.setCall i { c with stage := .returned (.error Forwarder.alreadyEstablished) }
    else
      { s with forwarder := s.forwarder.newPeer }.setCall i
        { c with peer := some s.forwarder.peers.length, stage := .negotiating }

/-- The negotiation with the connection ends. -/
def negotiateStep (s : PublishSystem) (i : ℕ) (outcome : Except AppError Unit) :
    Option PublishSystem :=
  s.onCall i .negotiating fun c => some <|
    match outcome with
    | .error e => s.setCall i { c with stage := .returned (.error e) }
    | .ok () => s.setCall i { c with stage := .setting }

/-- The first section of `PeerForwardInternal::set_publish`. -/
def fillStep (s : PublishSystem) (i : ℕ) : Option PublishSystem :=
  s.onCall i .setting fun c => c.peer.map fun p =>
    match s.forwarder.fillSlot c.forward p with
    | .error e => s.setCall i { c with stage := .returned (.error e) }
    | .ok f => { s with forwarder := f }.setCall i { c with stage := .resetting }

/-- The second section of `PeerForwardInternal::set_publish`. -/
def resetStep (s : PublishSystem) (i : ℕ) : Option PublishSystem :=
  s.onCall i .resetting fun c => some <|
    { s with forwarder := s.forwarder.resetLeaveTime c.forward }.setCall i
      { c with stage := .finishing }

/-- The end of `Forwarder::publish`: a forward that was set up is entered into the table. -/
def finishStep (s : PublishSystem) (i : ℕ) : Option PublishSystem :=
  s.onCall i .finishing fun c =>
    if c.found then some (s.setCall i { c with stage := .returned (.ok ()) })
    else if s.tick.Writable then some <|
      if c.stream ∈ s.forwarder.streamMap then
        { s with forwarder := s.forwarder.close c.forward }.setCall i
          { c with stage := .returned (.error (.streamAlreadyExists "stream already exists")) }
      else
        { s with forwarder := { s.forwarder with
            streamMap := s.forwarder.streamMap.insert c.stream c.forward } }.setCall i
          { c with stage := .returned (.ok ()) }
    else none

/-- A connection comes up. -/
def connectStep (s : PublishSystem) (peer : ℕ) : Option PublishSystem :=
  if s.forwarder.peers[peer]? = some .negotiating then
    some { s with forwarder := { s.forwarder with
      peers := s.forwarder.peers.set peer .connected } }
  else none

/-- A connection closes or fails. -/
def closeStep (s : PublishSystem) (peer : ℕ) : PublishSystem :=
  { s with forwarder := { s.forwarder with peers := s.forwarder.peers.set peer .closed } }

/-- The first section of `remove_publish`, in the callback of a connection that has closed. -/
def clearStep (s : PublishSystem) (i : ℕ) : Option PublishSystem :=
  s.calls[i]?.bind fun c => c.peer.bind fun p =>
    if c.leave = .idle ∧ s.forwarder.peers[p]? = some .closed then some <|
      match s.forwarder.clearSlot c.forward p with
      | .error _ => s.setCall i { c with leave := .done }
      | .ok f => { s with
          forwarder := f
          emptiedAt := Function.update s.emptiedAt c.forward s.clock }.setCall i
            { c with leave := .cleared }
    else none

/-- The section of `remove_publish` that writes the leave time. -/
def stampStep (s : PublishSystem) (i : ℕ) : Option PublishSystem :=
  s.calls[i]?.bind fun c =>
    if c.leave = .cleared then some <|
      { s with forwarder := s.forwarder.stampLeaveTime c.forward s.clock }.setCall i
        { c with leave := .done }
    else none

/-- The reaper wakes up and takes the table for reading, in the order of its iterator.  A
timeout that does not fit the signed type has ended it before. -/
def wakeStep (s : PublishSystem) (order : List (String × ℕ)) : Option PublishSystem :=
  if s.tick = .sleeping ∧ s.forwarder.publishLeaveTimeout ≤ Forwarder.i64Max ∧
      order.Perm s.forwarder.streamMap.toList then
    some { s with tick := .scanning order [] }
  else none

/-- The next step of a round of `publish_check_tick`. -/
def tickStep (s : PublishSystem) : Option PublishSystem :=
  match s.tick with
  | .sleeping => none
  | .scanning [] remove =>
      some { s with tick := if remove = [] then .sleeping else .locking remove }
  | .scanning ((stream, h) :: todo) remove =>
      some { s with tick := .scanned stream (s.forwarder.leaveTime h) todo remove }
  | .scanned stream leave todo remove =>
      let remove := if s.forwarder.TimedOut leave s.clock then remove ++ [stream] else remove
      some { s with tick := .scanning todo remove }
  | .locking remove => some { s with tick := .reaping remove }
  | .reaping [] => some { s with tick := .sleeping }
  | .reaping (stream :: todo) =>
      match s.forwarder.streamMap[stream]? with
      | none => some { s with tick := .reaping todo }
      | some h => some { s with tick := .comparing stream h (s.forwarder.leaveTime h) todo }
  | .comparing stream h leave todo =>
      if s.forwarder.TimedOut leave s.clock then
        some { s with tick := .closing stream h leave todo }
      else some { s with tick := .reaping todo }
  | .closing stream h leave todo =>
      some { s with forwarder := s.forwarder.close h, tick := .removing stream h leave todo }
  | .removing stream _ _ todo =>
      some { s with
        forwarder := { s.forwarder with streamMap := s.forwarder.streamMap.erase stream }
        tick := .reaping todo }

/-- One step of the system. -/
def step (s : PublishSystem) : PublishAction → Option PublishSystem
  | .elapse ms => some { s with clock := s.clock + ms }
  | .create stream => s.createStep stream
  | .begin stream => s.beginStep stream
  | .check i => s.checkStep i
  | .recheck i => s.recheckStep i
  | .negotiate i outcome => s.negotiateStep i outcome
  | .fill i => s.fillStep i
  | .reset i => s.resetStep i
  | .finish i => s.finishStep i
  | .connect peer => s.connectStep peer
  | .close peer => some (s.closeStep peer)
  | .clear i => s.clearStep i
  | .stamp i => s.stampStep i
  | .wake order => s.wakeStep order
  | .tick => s.tickStep

end PublishSystem

/-- The machine of the streams of a room: no streams at first, and any clock. -/
def publishMachine : Machine PublishSystem PublishAction where
  init s := s.forwarder = .new s.forwarder.publishLeaveTimeout ∧ s.calls = [] ∧
    s.tick = .sleeping ∧ ∀ h, s.emptiedAt h ≤ s.clock
  step := PublishSystem.step

namespace PublishSystem

variable {s t : PublishSystem} {a : PublishAction} {i j h p : ℕ} {stream : String}

lemma onCall_eq_some_iff {stage : PublishStage} {u : PublishCall → Option PublishSystem} :
    s.onCall i stage u = some t ↔ ∃ c, s.calls[i]? = some c ∧ c.stage = stage ∧ u c = some t := by
  simp only [onCall, Option.bind_eq_some_iff, Option.ite_none_right_eq_some]

/-! ### What a step does -/

/-- What a step does to the forwards, to the table and to `emptiedAt`. -/
inductive Effect (s : PublishSystem) : PublishAction → PublishSystem → Prop
  | quiet {a : PublishAction} {t : PublishSystem}
      (forwards : t.forwarder.forwards = s.forwarder.forwards)
      (streamMap : t.forwarder.streamMap = s.forwarder.streamMap)
      (emptiedAt : t.emptiedAt = s.emptiedAt) : Effect s a t
  | created {stream : String} {t : PublishSystem} (writable : s.tick.Writable)
      (fresh : stream ∉ s.forwarder.streamMap)
      (forwards : t.forwarder.forwards = (s.forwarder.newForward stream).forwards)
      (streamMap : t.forwarder.streamMap =
        s.forwarder.streamMap.insert stream s.forwarder.forwards.length)
      (emptiedAt : t.emptiedAt =
        Function.update s.emptiedAt s.forwarder.forwards.length s.clock) :
      Effect s (.create stream) t
  | setUp {stream : String} {t : PublishSystem}
      (forwards : t.forwarder.forwards = (s.forwarder.newForward stream).forwards)
      (streamMap : t.forwarder.streamMap = s.forwarder.streamMap)
      (emptiedAt : t.emptiedAt =
        Function.update s.emptiedAt s.forwarder.forwards.length s.clock) :
      Effect s (.begin stream) t
  | filled {i p : ℕ} {c : PublishCall} {t : PublishSystem} (call : s.calls[i]? = some c)
      (stage : c.stage = .setting) (peer : c.peer = some p)
      (empty : s.forwarder.slot c.forward = none)
      (forwards : t.forwarder.forwards = (s.forwarder.modifyForward c.forward fun w =>
        { w with publish := some p }).forwards)
      (streamMap : t.forwarder.streamMap = s.forwarder.streamMap)
      (emptiedAt : t.emptiedAt = s.emptiedAt) : Effect s (.fill i) t
  | reset {i : ℕ} {c : PublishCall} {t : PublishSystem} (call : s.calls[i]? = some c)
      (stage : c.stage = .resetting)
      (forwards : t.forwarder.forwards = (s.forwarder.resetLeaveTime c.forward).forwards)
      (streamMap : t.forwarder.streamMap = s.forwarder.streamMap)
      (emptiedAt : t.emptiedAt = s.emptiedAt) : Effect s (.reset i) t
  | entered {i : ℕ} {c : PublishCall} {t : PublishSystem} (call : s.calls[i]? = some c)
      (stage : c.stage = .finishing) (writable : s.tick.Writable)
      (fresh : c.stream ∉ s.forwarder.streamMap)
      (forwards : t.forwarder.forwards = s.forwarder.forwards)
      (streamMap : t.forwarder.streamMap = s.forwarder.streamMap.insert c.stream c.forward)
      (emptiedAt : t.emptiedAt = s.emptiedAt) : Effect s (.finish i) t
  | cleared {i p : ℕ} {c : PublishCall} {t : PublishSystem} (call : s.calls[i]? = some c)
      (peer : c.peer = some p) (occupied : s.forwarder.slot c.forward = some p)
      (forwards : t.forwarder.forwards = (s.forwarder.modifyForward c.forward fun w =>
        { w with publish := none }).forwards)
      (streamMap : t.forwarder.streamMap = s.forwarder.streamMap)
      (emptiedAt : t.emptiedAt = Function.update s.emptiedAt c.forward s.clock) :
      Effect s (.clear i) t
  | stamped {i : ℕ} {c : PublishCall} {t : PublishSystem} (call : s.calls[i]? = some c)
      (leave : c.leave = .cleared)
      (forwards : t.forwarder.forwards = (s.forwarder.stampLeaveTime c.forward s.clock).forwards)
      (streamMap : t.forwarder.streamMap = s.forwarder.streamMap)
      (emptiedAt : t.emptiedAt = s.emptiedAt) : Effect s (.stamp i) t
  | removed {stream : String} {h : ℕ} {leave : ℤ} {todo : List String} {t : PublishSystem}
      (tick : s.tick = .removing stream h leave todo)
      (forwards : t.forwarder.forwards = s.forwarder.forwards)
      (streamMap : t.forwarder.streamMap = s.forwarder.streamMap.erase stream)
      (emptiedAt : t.emptiedAt = s.emptiedAt) : Effect s .tick t

/-- How a step of the call `i` changes it. -/
inductive Move (s : PublishSystem) : PublishAction → ℕ → PublishCall → PublishCall → Prop
  | callback {a : PublishAction} {i : ℕ} {c : PublishCall} (leave : LeaveStage) :
      Move s a i c { c with leave := leave }
  | early {a : PublishAction} {i : ℕ} {c : PublishCall} (peer : Option ℕ) {stage : PublishStage}
      (before : c.stage.Early) (running : ∀ result, c.stage ≠ .returned result)
      (after : stage.Early) : Move s a i c { c with peer := peer, stage := stage }
  | filled {i : ℕ} {c : PublishCall} (before : c.stage = .setting) (peer : c.peer.isSome)
      (empty : s.forwarder.slot c.forward = none) :
      Move s (.fill i) i c { c with stage := .resetting }
  | reset {i : ℕ} {c : PublishCall} (before : c.stage = .resetting) :
      Move s (.reset i) i c { c with stage := .finishing }
  | returned {i : ℕ} {c : PublishCall} (result : Except AppError Unit)
      (before : c.stage = .finishing) :
      Move s (.finish i) i c { c with stage := .returned result }

/-- A move keeps what a call is about. -/
lemma Move.keeps {c c' : PublishCall} (hm : s.Move a i c c') :
    c'.stream = c.stream ∧ c'.forward = c.forward ∧ c'.found = c.found := by
  cases hm <;> exact ⟨rfl, rfl, rfl⟩

/-- The reaper is at the same place in its round. -/
def SameRound (k l : TickState) : Prop :=
  l.target = k.target ∧ ∀ h, l.condemned h = k.condemned h

lemma SameRound.refl (k : TickState) : SameRound k k := ⟨rfl, fun _ => rfl⟩

/-- What a step does to the parts of the state: the forwards and the table; the calls, of
which none moves, one of them, or a new one begins; the clock, which does not run backwards;
the timeout, which stays; and the reaper, which moves in its own steps only. -/
structure StepSpec (s : PublishSystem) (a : PublishAction) (t : PublishSystem) : Prop where
  effect : s.Effect a t
  calls : t.calls = s.calls ∨
    (∃ i c c', s.calls[i]? = some c ∧ s.Move a i c c' ∧ t.calls = s.calls.set i c') ∨
    ∃ c, a = .begin c.stream ∧ t.calls = s.calls ++ [c] ∧ c.stage = .checking ∧
      (s.forwarder.streamMap[c.stream]? = some c.forward ∨
        c.forward = s.forwarder.forwards.length ∧
          t.forwarder.forwards.length = s.forwarder.forwards.length + 1)
  clock : s.clock ≤ t.clock
  timeout : t.forwarder.publishLeaveTimeout = s.forwarder.publishLeaveTimeout
  round : a ≠ .tick → SameRound s.tick t.tick

/-- A step of the reaper removes an entry of the table, or only looks at it. -/
lemma spec_of_tickStep (hst : s.tickStep = some t) : s.StepSpec .tick t := by
  have hround : PublishAction.tick ≠ .tick → SameRound s.tick t.tick := fun h => absurd rfl h
  simp only [tickStep] at hst
  split at hst
  · cases hst
  · cases hst
    exact ⟨.quiet rfl rfl rfl, .inl rfl, le_rfl, rfl, hround⟩
  · cases hst
    exact ⟨.quiet rfl rfl rfl, .inl rfl, le_rfl, rfl, hround⟩
  · cases hst
    exact ⟨.quiet rfl rfl rfl, .inl rfl, le_rfl, rfl, hround⟩
  · cases hst
    exact ⟨.quiet rfl rfl rfl, .inl rfl, le_rfl, rfl, hround⟩
  · cases hst
    exact ⟨.quiet rfl rfl rfl, .inl rfl, le_rfl, rfl, hround⟩
  · split at hst <;> cases hst <;>
      exact ⟨.quiet rfl rfl rfl, .inl rfl, le_rfl, rfl, hround⟩
  · split_ifs at hst <;> cases hst <;>
      exact ⟨.quiet rfl rfl rfl, .inl rfl, le_rfl, rfl, hround⟩
  · cases hst
    exact ⟨.quiet (by simp) (by simp) rfl, .inl rfl, le_rfl, by simp, hround⟩
  · rename_i htick
    cases hst
    exact ⟨.removed htick rfl rfl rfl, .inl rfl, le_rfl, rfl, hround⟩

/-- **What a step does**: the one case distinction over the actions. -/
lemma spec_of_step (hst : s.step a = some t) : s.StepSpec a t := by
  cases a with
  | elapse ms =>
      cases hst
      exact ⟨.quiet rfl rfl rfl, .inl rfl, Int.le_add_of_nonneg_right (Int.natCast_nonneg ms),
        rfl, fun _ => .refl _⟩
  | create stream =>
      simp only [step, createStep, Option.ite_none_right_eq_some] at hst
      obtain ⟨hw, hst⟩ := hst
      split at hst
      · cases hst
        exact ⟨.quiet rfl rfl rfl, .inl rfl, le_rfl, rfl, fun _ => .refl _⟩
      · rename_i f hf
        obtain ⟨hs, rfl⟩ := Forwarder.streamCreate_eq_ok_iff.mp hf
        cases hst
        exact ⟨.created hw hs rfl rfl rfl, .inl rfl, le_rfl, rfl, fun _ => .refl _⟩
  | begin stream =>
      simp only [step, beginStep, Option.ite_none_right_eq_some] at hst
      obtain ⟨-, hst⟩ := hst
      split at hst
      · rename_i h hh
        cases hst
        exact ⟨.quiet rfl rfl rfl, .inr (.inr ⟨_, rfl, rfl, rfl, .inl hh⟩), le_rfl, rfl,
          fun _ => .refl _⟩
      · cases hst
        exact ⟨.setUp rfl rfl rfl,
          .inr (.inr ⟨_, rfl, rfl, rfl, .inr ⟨rfl, by simp [Forwarder.newForward]⟩⟩), le_rfl,
          rfl, fun _ => .refl _⟩
  | check i =>
      obtain ⟨c, hc, hstage, hst⟩ := onCall_eq_some_iff.mp hst
      have hbefore : c.stage.Early := hstage ▸ trivial
      split_ifs at hst <;> cases hst <;>
        exact ⟨.quiet rfl rfl rfl, .inr (.inl ⟨i, c, _, hc,
          .early c.peer hbefore (by simp [hstage]) (by trivial), rfl⟩), le_rfl, rfl,
          fun _ => .refl _⟩
  | recheck i =>
      obtain ⟨c, hc, hstage, hst⟩ := onCall_eq_some_iff.mp hst
      have hbefore : c.stage.Early := hstage ▸ trivial
      split_ifs at hst <;> cases hst <;>
        exact ⟨.quiet rfl rfl rfl, .inr (.inl ⟨i, c, _, hc,
          .early _ hbefore (by simp [hstage]) (by trivial), rfl⟩), le_rfl, rfl,
          fun _ => .refl _⟩
  | negotiate i outcome =>
      obtain ⟨c, hc, hstage, hst⟩ := onCall_eq_some_iff.mp hst
      have hbefore : c.stage.Early := hstage ▸ trivial
      cases outcome <;> cases hst <;>
        exact ⟨.quiet rfl rfl rfl, .inr (.inl ⟨i, c, _, hc,
          .early c.peer hbefore (by simp [hstage]) (by trivial), rfl⟩), le_rfl, rfl,
          fun _ => .refl _⟩
  | fill i =>
      obtain ⟨c, hc, hstage, hst⟩ := onCall_eq_some_iff.mp hst
      obtain ⟨p, hp, rfl⟩ := Option.map_eq_some_iff.mp hst
      have hbefore : c.stage.Early := hstage ▸ trivial
      split
      · exact ⟨.quiet rfl rfl rfl, .inr (.inl ⟨i, c, _, hc,
          .early c.peer hbefore (by simp [hstage]) (by trivial), rfl⟩), le_rfl, rfl,
          fun _ => .refl _⟩
      · rename_i f hf
        obtain ⟨hempty, rfl⟩ := Forwarder.fillSlot_eq_ok_iff.mp hf
        exact ⟨.filled hc hstage hp hempty rfl rfl rfl,
          .inr (.inl ⟨i, c, _, hc, .filled hstage (by simp [hp]) hempty, rfl⟩), le_rfl, rfl,
          fun _ => .refl _⟩
  | reset i =>
      obtain ⟨c, hc, hstage, hst⟩ := onCall_eq_some_iff.mp hst
      cases hst
      exact ⟨.reset hc hstage rfl rfl rfl, .inr (.inl ⟨i, c, _, hc, .reset hstage, rfl⟩),
        le_rfl, rfl, fun _ => .refl _⟩
  | finish i =>
      obtain ⟨c, hc, hstage, hst⟩ := onCall_eq_some_iff.mp hst
      split_ifs at hst with hfound hw hs
      · cases hst
        exact ⟨.quiet rfl rfl rfl, .inr (.inl ⟨i, c, _, hc, .returned _ hstage, rfl⟩), le_rfl,
          rfl, fun _ => .refl _⟩
      · cases hst
        exact ⟨.quiet (by simp [setCall]) (by simp [setCall]) rfl,
          .inr (.inl ⟨i, c, _, hc, .returned _ hstage, rfl⟩), le_rfl, by simp [setCall],
          fun _ => .refl _⟩
      · cases hst
        exact ⟨.entered hc hstage hw hs rfl rfl rfl,
          .inr (.inl ⟨i, c, _, hc, .returned _ hstage, rfl⟩), le_rfl, rfl, fun _ => .refl _⟩
  | connect peer =>
      simp only [step, connectStep, Option.ite_none_right_eq_some] at hst
      obtain ⟨-, hst⟩ := hst
      cases hst
      exact ⟨.quiet rfl rfl rfl, .inl rfl, le_rfl, rfl, fun _ => .refl _⟩
  | close peer =>
      cases hst
      exact ⟨.quiet rfl rfl rfl, .inl rfl, le_rfl, rfl, fun _ => .refl _⟩
  | clear i =>
      simp only [step, clearStep, Option.bind_eq_some_iff, Option.ite_none_right_eq_some] at hst
      obtain ⟨c, hc, p, hp, -, hst⟩ := hst
      split at hst
      · cases hst
        exact ⟨.quiet rfl rfl rfl, .inr (.inl ⟨i, c, _, hc, .callback _, rfl⟩), le_rfl, rfl,
          fun _ => .refl _⟩
      · rename_i f hf
        obtain ⟨hslot, rfl⟩ := Forwarder.clearSlot_eq_ok_iff.mp hf
        cases hst
        exact ⟨.cleared hc hp hslot rfl rfl rfl,
          .inr (.inl ⟨i, c, _, hc, .callback _, rfl⟩), le_rfl, rfl, fun _ => .refl _⟩
  | stamp i =>
      simp only [step, stampStep, Option.bind_eq_some_iff, Option.ite_none_right_eq_some] at hst
      obtain ⟨c, hc, hleave, hst⟩ := hst
      cases hst
      exact ⟨.stamped hc hleave rfl rfl rfl, .inr (.inl ⟨i, c, _, hc, .callback _, rfl⟩),
        le_rfl, rfl, fun _ => .refl _⟩
  | wake order =>
      simp only [step, wakeStep, Option.ite_none_right_eq_some] at hst
      obtain ⟨⟨hsleep, -⟩, hst⟩ := hst
      cases hst
      refine ⟨.quiet rfl rfl rfl, .inl rfl, le_rfl, rfl, fun _ => ?_⟩
      -- it has decided on nothing before the round and at its start
      rw [hsleep]
      exact ⟨rfl, fun _ => rfl⟩
  | tick => exact spec_of_tickStep hst

/-! ### What a step does to the forwards and the table -/

/-- **Who changes a slot**: a call that fills it while it is empty, and the callback of the
publisher that occupies it. -/
lemma slot_step (hst : s.step a = some t) (h : ℕ) :
    t.forwarder.slot h = s.forwarder.slot h ∨
      (∃ i c p, a = .fill i ∧ s.calls[i]? = some c ∧ c.stage = .setting ∧ c.forward = h ∧
        c.peer = some p ∧ s.forwarder.slot h = none ∧ t.forwarder.slot h = some p) ∨
      ∃ i c p, a = .clear i ∧ s.calls[i]? = some c ∧ c.forward = h ∧ c.peer = some p ∧
        s.forwarder.slot h = some p ∧ t.forwarder.slot h = none ∧
        t.emptiedAt h = s.clock := by
  cases (spec_of_step hst).effect with
  | quiet forwards | entered _ _ _ _ forwards | removed _ forwards =>
      exact .inl (Forwarder.slot_congr forwards h)
  | created _ _ forwards | setUp forwards =>
      exact .inl ((Forwarder.slot_congr forwards h).trans (by simp))
  | reset _ _ forwards | stamped _ _ forwards =>
      exact .inl ((Forwarder.slot_congr forwards h).trans (by simp))
  | @filled i p c _ call stage peer empty forwards =>
      have hslot := (Forwarder.slot_congr forwards h).trans (Forwarder.slot_modify_publish ..)
      split_ifs at hslot with hh
      · obtain ⟨rfl, -⟩ := hh
        exact .inr (.inl ⟨i, c, p, rfl, call, stage, rfl, peer, empty, hslot⟩)
      · exact .inl hslot
  | @cleared i p c _ call peer occupied forwards _ emptiedAt =>
      have hslot := (Forwarder.slot_congr forwards h).trans (Forwarder.slot_modify_publish ..)
      split_ifs at hslot with hh
      · obtain ⟨rfl, -⟩ := hh
        exact .inr (.inr ⟨i, c, p, rfl, call, rfl, peer, occupied, hslot, by simp [emptiedAt]⟩)
      · exact .inl hslot

/-- A call that fills the slot of a forward is in it then. -/
lemma slot_fill {c : PublishCall} {q : ℕ} (hst : s.step (.fill i) = some t)
    (hc : s.calls[i]? = some c) (hq : c.peer = some q)
    (hempty : s.forwarder.slot c.forward = none)
    (hlt : c.forward < s.forwarder.forwards.length) : t.forwarder.slot c.forward = some q := by
  obtain ⟨c', hc', -, hst⟩ := onCall_eq_some_iff.mp hst
  obtain ⟨p, hp, rfl⟩ := Option.map_eq_some_iff.mp hst
  obtain rfl : c = c' := by simpa [hc] using hc'
  obtain rfl : q = p := by simpa [hq] using hp
  rw [Forwarder.fillSlot, hempty]
  simp [setCall, Forwarder.slot_modify_publish, hlt]

/-- **Who changes a leave time**: a call resets it, and a callback writes the time of the
moment. -/
lemma leaveTime_step (hst : s.step a = some t) (h : ℕ) :
    t.forwarder.leaveTime h = s.forwarder.leaveTime h ∨
      (∃ i c, a = .reset i ∧ s.calls[i]? = some c ∧ c.forward = h ∧
        t.forwarder.leaveTime h = 0) ∨
      ∃ i c, a = .stamp i ∧ s.calls[i]? = some c ∧ c.leave = .cleared ∧ c.forward = h ∧
        t.forwarder.leaveTime h = s.clock := by
  cases (spec_of_step hst).effect with
  | quiet forwards | entered _ _ _ _ forwards | removed _ forwards =>
      exact .inl (Forwarder.leaveTime_congr forwards h)
  | created _ _ forwards | setUp forwards | filled _ _ _ _ forwards | cleared _ _ _ forwards =>
      exact .inl ((Forwarder.leaveTime_congr forwards h).trans (by simp))
  | @reset i c _ call _ forwards =>
      have htime := (Forwarder.leaveTime_congr forwards h).trans
        (Forwarder.leaveTime_resetLeaveTime ..)
      split_ifs at htime with hh
      · exact .inr (.inl ⟨i, c, rfl, call, hh.symm, htime⟩)
      · exact .inl htime
  | @stamped i c _ call leave forwards =>
      have htime := (Forwarder.leaveTime_congr forwards h).trans
        (Forwarder.leaveTime_stampLeaveTime ..)
      split_ifs at htime with hh
      · exact .inr (.inr ⟨i, c, rfl, call, leave, hh.1.symm, htime⟩)
      · exact .inl htime

/-- The time since which a slot has been empty changes when it is emptied, and for a forward
that is new. -/
lemma emptiedAt_step (hst : s.step a = some t) (h : ℕ) :
    t.emptiedAt h = s.emptiedAt h ∨
      t.emptiedAt h = s.clock ∧
        (s.forwarder.forwards.length ≤ h ∨ (s.forwarder.slot h).isSome) := by
  cases (spec_of_step hst).effect with
  | quiet _ _ emptiedAt | filled _ _ _ _ _ _ emptiedAt | reset _ _ _ _ emptiedAt
  | entered _ _ _ _ _ _ emptiedAt | stamped _ _ _ _ emptiedAt | removed _ _ _ emptiedAt =>
      exact .inl (congrFun emptiedAt h)
  | created _ _ _ _ emptiedAt | setUp _ _ emptiedAt =>
      by_cases hh : h = s.forwarder.forwards.length
      · exact .inr ⟨by simp [emptiedAt, hh], .inl hh.ge⟩
      · exact .inl (by simp [emptiedAt, hh])
  | @cleared i p c _ call peer occupied _ _ emptiedAt =>
      by_cases hh : h = c.forward
      · exact .inr ⟨by simp [emptiedAt, hh], .inr (by simp [hh, occupied])⟩
      · exact .inl (by simp [emptiedAt, hh])

/-- **Who changes an entry of the table**: it is made while the reaper does not hold the
table, and only the reaper removes it. -/
lemma streamMap_step (hst : s.step a = some t) (stream : String) :
    t.forwarder.streamMap[stream]? = s.forwarder.streamMap[stream]? ∨
      (s.tick.Writable ∧ s.forwarder.streamMap[stream]? = none) ∨
      (a = .tick ∧ ∃ h leave todo, s.tick = .removing stream h leave todo) := by
  cases (spec_of_step hst).effect with
  | quiet _ streamMap | setUp _ streamMap | filled _ _ _ _ _ streamMap | reset _ _ _ streamMap
  | cleared _ _ _ _ streamMap | stamped _ _ _ streamMap => exact .inl (by rw [streamMap])
  | @created new _ writable fresh _ streamMap =>
      by_cases hs : new = stream
      · exact .inr (.inl ⟨writable, hs ▸ ExtTreeMap.getElem?_eq_none fresh⟩)
      · exact .inl (by simp [streamMap, ExtTreeMap.getElem?_insert, hs])
  | @entered i c _ _ _ writable fresh _ streamMap =>
      by_cases hs : c.stream = stream
      · exact .inr (.inl ⟨writable, hs ▸ ExtTreeMap.getElem?_eq_none fresh⟩)
      · exact .inl (by simp [streamMap, ExtTreeMap.getElem?_insert, hs])
  | @removed old h leave todo _ tick _ streamMap =>
      by_cases hs : old = stream
      · exact .inr (.inr ⟨rfl, h, leave, todo, hs ▸ tick⟩)
      · exact .inl (by simp [streamMap, ExtTreeMap.getElem?_erase, hs])

/-! ### What a step does to the calls -/

/-- A call that has returned stays so. -/
lemma callResult_step {k : ℕ} (hst : s.step a = some t) (hk : (s.callResult k).isSome) :
    (t.callResult k).isSome := by
  obtain ⟨result, hresult⟩ := Option.isSome_iff_exists.mp hk
  obtain ⟨c, hc, hret⟩ := Option.bind_eq_some_iff.mp hresult
  rcases (spec_of_step hst).calls with hcalls | ⟨i, d, d', hd, hm, hcalls⟩ | ⟨d, -, hcalls, -, -⟩
  · rwa [callResult, hcalls]
  · by_cases hik : i = k
    · subst hik
      obtain rfl : c = d := by simpa [hc] using hd
      rw [callResult, hcalls, List.getElem?_set_self (List.getElem?_eq_some_iff.mp hc).1]
      cases hm with
      | callback leave => simp [hret]
      | early peer before running after =>
          cases hstage : c.stage with
          | returned result => exact absurd hstage (running result)
          | _ => simp [hstage] at hret
      | filled before => simp [before] at hret
      | reset before => simp [before] at hret
      | returned _ before => simp [before] at hret
    · rwa [callResult, hcalls, List.getElem?_set_ne hik]
  · have hlt := (List.getElem?_eq_some_iff.mp hc).1
    rwa [callResult, hcalls, List.getElem?_append_left hlt]

/-- Only the begin of a call makes the calls more. -/
lemma length_calls_step (hst : s.step a = some t) :
    t.calls.length = s.calls.length ∨
      (∃ stream, a = .begin stream) ∧ t.calls.length = s.calls.length + 1 := by
  rcases (spec_of_step hst).calls with hcalls | ⟨i, c, c', -, -, hcalls⟩ | ⟨c, ha, hcalls, -, -⟩
  · exact .inl (by rw [hcalls])
  · exact .inl (by rw [hcalls, List.length_set])
  · exact .inr ⟨⟨_, ha⟩, by rw [hcalls, List.length_append, List.length_singleton]⟩

lemma length_forwards_step (hst : s.step a = some t) :
    s.forwarder.forwards.length ≤ t.forwarder.forwards.length := by
  cases (spec_of_step hst).effect with
  | quiet forwards | entered _ _ _ _ forwards | removed _ forwards => exact forwards ▸ le_rfl
  | created _ _ forwards | setUp forwards => simp [forwards, Forwarder.newForward]
  | filled _ _ _ _ forwards | cleared _ _ _ forwards => simp [forwards]
  | reset _ _ forwards => simp [forwards, Forwarder.resetLeaveTime]
  | stamped _ _ forwards => simp [forwards, Forwarder.stampLeaveTime]

/-- The calls and the table refer to forwards that exist. -/
structure Wf (s : PublishSystem) : Prop where
  calls : ∀ c ∈ s.calls, c.forward < s.forwarder.forwards.length
  table : ∀ (stream : String) (h : ℕ), s.forwarder.streamMap[stream]? = some h →
    h < s.forwarder.forwards.length

lemma wf_init (h0 : publishMachine.init s) : s.Wf := by
  obtain ⟨hf, hcalls, -⟩ := h0
  refine ⟨by simp [hcalls], fun stream h hh => ?_⟩
  rw [hf] at hh
  simp [Forwarder.new] at hh

lemma wf_step (hs : s.Wf) (hst : s.step a = some t) : t.Wf := by
  have hle := length_forwards_step hst
  constructor
  · intro c' hc'
    rcases (spec_of_step hst).calls with hcalls | ⟨i, c, d, hc, hm, hcalls⟩ | ⟨d, -, hcalls, -, hd⟩
    · exact (hs.calls c' (hcalls ▸ hc')).trans_le hle
    · rcases List.mem_or_eq_of_mem_set (hcalls ▸ hc') with hold | rfl
      · exact (hs.calls c' hold).trans_le hle
      · rw [hm.keeps.2.1]
        exact (hs.calls c (List.mem_of_getElem? hc)).trans_le hle
    · rcases List.mem_append.mp (hcalls ▸ hc') with hold | hnew
      · exact (hs.calls c' hold).trans_le hle
      · obtain rfl := List.mem_singleton.mp hnew
        rcases hd with hd | ⟨hd, hlen⟩
        · exact (hs.table _ _ hd).trans_le hle
        · omega
  · intro stream h hh
    cases (spec_of_step hst).effect with
    | quiet _ streamMap | setUp _ streamMap | filled _ _ _ _ _ streamMap
    | reset _ _ _ streamMap | cleared _ _ _ _ streamMap | stamped _ _ _ streamMap =>
        exact (hs.table stream h (streamMap ▸ hh)).trans_le hle
    | created _ _ forwards streamMap =>
        rw [streamMap, ExtTreeMap.getElem?_insert] at hh
        split_ifs at hh with hs'
        · obtain rfl := Option.some.inj hh
          simp [forwards, Forwarder.newForward]
        · exact (hs.table stream h hh).trans_le hle
    | @entered i c _ call _ _ _ _ streamMap =>
        rw [streamMap, ExtTreeMap.getElem?_insert] at hh
        split_ifs at hh with hs'
        · obtain rfl := Option.some.inj hh
          exact (hs.calls c (List.mem_of_getElem? call)).trans_le hle
        · exact (hs.table stream h hh).trans_le hle
    | removed _ _ streamMap =>
        rw [streamMap, ExtTreeMap.getElem?_erase] at hh
        split_ifs at hh
        exact (hs.table stream h hh).trans_le hle

/-! ### Calls that return a peer -/

/-- At the step in which a call returns its connection, the table has the forward of the
call for its stream, and the slot of that forward holds the connection. -/
def Published (s : PublishSystem) (_ : PublishAction) (t : PublishSystem) : Prop :=
  ∀ (i : ℕ) (c : PublishCall), t.calls[i]? = some c → c.stage = .returned (.ok ()) →
    (∀ d, s.calls[i]? = some d → d.stage ≠ .returned (.ok ())) →
      t.forwarder.streamMap[c.stream]? = some c.forward ∧ c.peer.isSome ∧
        t.forwarder.slot c.forward = c.peer

/-- A call fills the slot of a forward it found only while the table still has it, and
between that and its return the reaper does not remove the entry and the callback of the
connection does not run. -/
def Orderly (s : PublishSystem) : PublishAction → Prop
  | .fill i => ∀ c ∈ s.calls[i]?, c.found → s.forwarder.streamMap[c.stream]? = some c.forward
  | .clear i => ∀ c ∈ s.calls[i]?, ∀ d ∈ s.calls, d.stage.Holding → d.peer ≠ c.peer
  | .tick => ∀ stream ∈ s.tick.removal, ∀ d ∈ s.calls, d.stage.Holding → d.found →
      d.stream ≠ stream
  | _ => True

instance (s : PublishSystem) (a : PublishAction) : Decidable (s.Orderly a) :=
  match a with
  | .fill i => inferInstanceAs (Decidable (∀ c ∈ s.calls[i]?, _))
  | .clear i => inferInstanceAs (Decidable (∀ c ∈ s.calls[i]?, _))
  | .tick => inferInstanceAs (Decidable (∀ stream ∈ s.tick.removal, _))
  | .elapse _ | .create _ | .begin _ | .check _ | .recheck _ | .negotiate .. | .reset _
  | .finish _ | .connect _ | .close _ | .stamp _ | .wake _ => isTrue trivial

/-- A call that has filled the slot is in it, and the table still has the forward if the
call found it there. -/
structure InPlace (s : PublishSystem) (c : PublishCall) : Prop where
  peer : c.peer.isSome
  slot : s.forwarder.slot c.forward = c.peer
  entry : c.found → s.forwarder.streamMap[c.stream]? = some c.forward

/-- An orderly step leaves a call in its place. -/
lemma InPlace.step {c : PublishCall} (hc : c ∈ s.calls) (hstage : c.stage.Holding)
    (hin : s.InPlace c) (hok : s.Orderly a) (hst : s.step a = some t) : t.InPlace c := by
  refine ⟨hin.peer, ?_, fun hfound => ?_⟩
  · rcases slot_step hst c.forward with hslot | ⟨i, d, p, -, -, -, -, -, hempty, -⟩ |
      ⟨i, d, p, rfl, hd, -, hp, hslot, -⟩
    · exact hslot.trans hin.slot
    · have hnone := hin.peer
      rw [← hin.slot, hempty] at hnone
      exact absurd hnone (by simp)
    · -- the callback that runs is that of the connection in the slot
      exact absurd (hin.slot.symm.trans (hslot.trans hp.symm)) (hok d hd c hc hstage)
  · have hentry := hin.entry hfound
    rcases streamMap_step hst c.stream with hmap | ⟨-, hnone⟩ | ⟨rfl, h, leave, todo, htick⟩
    · exact hmap.trans hentry
    · exact absurd (hnone.symm.trans hentry) (by simp)
    · exact absurd rfl (hok c.stream (by simp [TickState.removal, htick]) c hc hstage hfound)

/-- A call that fills the slot of a forward that the table still has is in its place. -/
lemma inPlace_fill {c : PublishCall} (hs : s.Wf) (hc : s.calls[i]? = some c)
    (hpeer : c.peer.isSome) (hempty : s.forwarder.slot c.forward = none)
    (hok : s.Orderly (.fill i)) (hst : s.step (.fill i) = some t) :
    t.InPlace { c with stage := .resetting } := by
  obtain ⟨p, hp⟩ := Option.isSome_iff_exists.mp hpeer
  have hlt := hs.calls c (List.mem_of_getElem? hc)
  refine ⟨hpeer, (slot_fill hst hc hp hempty hlt).trans hp.symm, fun hfound => ?_⟩
  rcases streamMap_step hst c.stream with hmap | ⟨-, hnone⟩ | ⟨hfill, -⟩
  · exact hmap.trans (hok c hc hfound)
  · exact absurd (hnone.symm.trans (hok c hc hfound)) (by simp)
  · cases hfill

/-- In an orderly step every call that has filled a slot stays or comes into its place. -/
lemma inPlace_step (hs : s.Wf) (hin : ∀ c ∈ s.calls, c.stage.Holding → s.InPlace c)
    (hok : s.Orderly a) (hst : s.step a = some t) :
    ∀ c ∈ t.calls, c.stage.Holding → t.InPlace c := by
  intro c' hc' hstage
  rcases (spec_of_step hst).calls with hcalls | ⟨i, c, d, hc, hm, hcalls⟩ | ⟨d, -, hcalls, hd, -⟩
  · have hold : c' ∈ s.calls := hcalls ▸ hc'
    exact (hin c' hold hstage).step hold hstage hok hst
  · rcases List.mem_or_eq_of_mem_set (hcalls ▸ hc') with hold | rfl
    · exact (hin c' hold hstage).step hold hstage hok hst
    · have hmem := List.mem_of_getElem? hc
      cases hm with
      | callback leave =>
          have hplace := (hin c hmem hstage).step hmem hstage hok hst
          exact ⟨hplace.peer, hplace.slot, hplace.entry⟩
      | early peer before running after =>
          exact absurd hstage after.not_holding
      | filled before peer empty => exact inPlace_fill hs hc peer empty hok hst
      | reset before =>
          have hplace := (hin c hmem (before ▸ trivial)).step hmem (before ▸ trivial) hok hst
          exact ⟨hplace.peer, hplace.slot, hplace.entry⟩
      | returned result before => exact absurd hstage id
  · rcases List.mem_append.mp (hcalls ▸ hc') with hold | hnew
    · exact (hin c' hold hstage).step hold hstage hok hst
    · obtain rfl := List.mem_singleton.mp hnew
      rw [hd] at hstage
      exact absurd hstage id

/-- Only the last step of a call returns its connection. -/
lemma returns_step {c' : PublishCall} (hst : s.step a = some t) (hc' : t.calls[i]? = some c')
    (hret : c'.stage = .returned (.ok ()))
    (hnot : ∀ d, s.calls[i]? = some d → d.stage ≠ .returned (.ok ())) :
    a = .finish i ∧ ∃ c, s.calls[i]? = some c ∧ c.stage = .finishing ∧
      c' = { c with stage := .returned (.ok ()) } := by
  rcases (spec_of_step hst).calls with hcalls | ⟨j, c, d, hc, hm, hcalls⟩ | ⟨d, -, hcalls, hd, -⟩
  · exact absurd hret (hnot c' (hcalls ▸ hc'))
  · rw [hcalls, List.getElem?_set] at hc'
    split_ifs at hc' with hij
    · obtain rfl := Option.some.inj hc'
      subst hij
      cases hm with
      | callback leave => exact absurd hret (hnot c hc)
      | early peer before running after => exact absurd hret after.ne_returned
      | filled => cases hret
      | reset => cases hret
      | returned result before => exact ⟨rfl, c, hc, before, by rw [← hret]⟩
    · exact absurd hret (hnot c' hc')
  · rw [hcalls, List.getElem?_append] at hc'
    split_ifs at hc'
    · exact absurd hret (hnot c' hc')
    · obtain rfl := List.mem_singleton.mp (List.mem_of_getElem? hc')
      exact absurd (hd.symm.trans hret) (by simp)

/-- The last step of a call that returns its connection enters the forward into the table,
unless the call found it there. -/
lemma streamMap_finish {c : PublishCall} (hst : s.step (.finish i) = some t)
    (hc : s.calls[i]? = some c)
    (hc' : t.calls[i]? = some { c with stage := .returned (.ok ()) })
    (hentry : c.found → s.forwarder.streamMap[c.stream]? = some c.forward) :
    t.forwarder.streamMap[c.stream]? = some c.forward := by
  obtain ⟨d, hd, -, hst⟩ := onCall_eq_some_iff.mp hst
  obtain rfl : c = d := by simpa [hc] using hd
  split_ifs at hst with hfound hw hs
  · cases hst
    exact hentry hfound
  · cases hst
    simp [setCall, List.getElem?_set_self (List.getElem?_eq_some_iff.mp hc).1] at hc'
  · cases hst
    simp [setCall]

/-- **Publishing is seen**: in a run in which every call that found its forward fills the
slot while the table still has the forward, and until it returns neither the reaper removes
the entry nor the callback of the connection runs, every call that returns a connection has
it in the slot of the forward that the table has for its stream. -/
theorem published_of_orderly {s : PublishSystem} {as : List PublishAction}
    (h0 : publishMachine.init s) (hok : publishMachine.Guarded Orderly s as) :
    publishMachine.Along Published s as := by
  refine Machine.along_of_guarded (I := fun s : PublishSystem => s.Wf ∧
    ∀ c ∈ s.calls, c.stage.Holding → s.InPlace c) ?_ ⟨wf_init h0, ?_⟩ hok
  · rintro r a t ⟨hwf, hin⟩ hok hst
    refine ⟨⟨wf_step hwf hst, inPlace_step hwf hin hok hst⟩, fun i c' hc' hret hnot => ?_⟩
    obtain ⟨rfl, c, hc, hstage, rfl⟩ := returns_step hst hc' hret hnot
    have hmem := List.mem_of_getElem? hc
    have hplace := hin c hmem (hstage ▸ trivial)
    exact ⟨streamMap_finish (c := c) hst hc hc' hplace.entry, hplace.peer,
      (hplace.step hmem (hstage ▸ trivial) hok hst).slot⟩
  · simp [h0.2.1]

/-- A room without streams, whose timeout is five milliseconds. -/
def unused : PublishSystem := ⟨.new 5, 1, [], .sleeping, fun _ => 1⟩

lemma init_unused : publishMachine.init unused := ⟨rfl, rfl, rfl, fun _ => le_rfl⟩

/-- The call `i` of a publisher of `stream`, up to the negotiation. -/
def negotiates (i : ℕ) (stream : String) : List PublishAction :=
  [.begin stream, .check i, .recheck i, .negotiate i (.ok ())]

/-- The rest of the call. -/
def publishes (i : ℕ) : List PublishAction := [.fill i, .reset i, .finish i]

/-- The connection of the call `i` closes, and its callback empties the slot. -/
def leaves (i : ℕ) : List PublishAction := [.close i, .clear i]

/-- A round of the reaper with the one stream `stream`, up to its decision. -/
def round (stream : String) : List PublishAction :=
  [.wake [(stream, 0)], .tick, .tick, .tick, .tick, .tick, .tick]

/-- A publisher leaves and its stream is removed; another publisher sets it up again. -/
theorem published_unused :
    publishMachine.Along Published unused
      (negotiates 0 "stream" ++ publishes 0 ++ leaves 0 ++ [.stamp 0, .elapse 6] ++
        round "stream" ++ [.tick, .tick, .tick] ++ negotiates 1 "stream" ++ publishes 1) :=
  published_of_orderly init_unused (by decide)

/-- A second publisher finds the forward that the first has left, and negotiates while the
reaper removes it: its call returns a connection that nobody can look up. -/
theorem not_published_unused :
    ¬ ∀ (s : PublishSystem) (as : List PublishAction), publishMachine.init s →
      publishMachine.Along Published s as := by
  intro h
  have hlast := (h unused (negotiates 0 "stream" ++ publishes 0 ++ leaves 0 ++ [.stamp 0] ++
    negotiates 1 "stream" ++ [.elapse 6] ++ round "stream" ++ [.tick, .tick, .fill 1, .reset 1] ++
    [.finish 1]) init_unused).last rfl rfl
  exact absurd (hlast 1 _ rfl rfl (by decide)).1 (by decide)

end PublishSystem

end SfuServer
