import SfuServer.Lib.Vec
import SfuServer.Rtc.Publish

/-!
The table of the streams under all its writers: `stream_create`, `publish` and `virtual_publish`,
which enter forwards, and `stream_delete` and `publish_check_tick`, which remove them.

`publish` and `virtual_publish` look a stream up, build a forward of their own if there is none,
negotiate without the lock and look again before they enter it; `stream_create` looks and enters
in one section.  `stream_delete` keeps the table locked while it closes the forward.

* `CreatorSystem`, `creatorMachine`: the streams of `publishMachine` with the calls of
  `virtual_publish` and the deletion that holds the table;
* `Creation`, `creation`: a call with a forward of its own, and its result;
* `Keeps`, `Settled`: what every step owes the entries, and what has come of a name after a
  stretch of a run in which no step removes its entry;
* `effect_of_step`: what a step does to the table, the number of forwards and these calls;
* `creators_sound`: an entry stays until it is removed, and of the calls that build forwards of
  their own for a name meanwhile, one has its forward entered and returns it, and every other one
  that returns, returns an error.
-/

open Std (ExtTreeMap)

namespace SfuServer

/-- The stages of a call of `Forwarder::virtual_publish`. -/
inductive VirtualStage where
  | generating
  | finishing
  | returned (result : Except AppError Unit)
  deriving DecidableEq

/-- A call of `Forwarder::virtual_publish`: its forward, which it found in the table or set up. -/
structure VirtualCall where
  stream : String
  forward : ℕ
  found : Bool
  stage : VirtualStage

/-- The call of `Forwarder::stream_delete` that holds the table for writing, if there is one: it
closes the forward that it has looked up, and then removes the entry. -/
inductive DeleteState where
  | idle
  | closing (stream : String) (forward : ℕ)
  | removing (stream : String) (forward : ℕ)
  deriving DecidableEq

/-- The stream whose entry a deletion is about to remove. -/
def DeleteState.removal : DeleteState → Option String
  | .idle | .closing .. => none
  | .removing stream _ => some stream

/-- The streams of a room with all calls that change the table. -/
structure CreatorSystem where
  publish : PublishSystem
  virtuals : List VirtualCall
  deleting : DeleteState

/-- What can happen: a step of `publishMachine`; a call of `virtual_publish` begins, has its
offer generated or not, or enters its forward; a call of `stream_delete` takes the table, closes
the forward and removes the entry. -/
inductive CreatorAction where
  | publish (a : PublishAction)
  | begin (stream : String)
  | generate (i : ℕ) (outcome : Except AppError Unit)
  | finish (i : ℕ)
  | delete (stream : String)
  | shut
  | remove

namespace PublishSystem

/-- The step reads or writes the table, or takes its lock. -/
def TakesTable (s : PublishSystem) : PublishAction → Bool
  | .create _ | .begin _ | .wake _ => true
  | .finish i => s.calls[i]?.any fun c => !c.found
  | .tick =>
      match s.tick with
      | .locking _ => true
      | _ => false
  | _ => false

end PublishSystem

namespace CreatorSystem

/-- The table of the streams. -/
def table (s : CreatorSystem) : ExtTreeMap String ℕ := s.publish.forwarder.streamMap

/-- A change of the forwarder. -/
def setForwarder (s : CreatorSystem) (f : Forwarder) : CreatorSystem :=
  { s with publish := { s.publish with forwarder := f } }

/-- A change of a call of `virtual_publish`. -/
def setVirtual (s : CreatorSystem) (i : ℕ) (v : VirtualCall) : CreatorSystem :=
  { s with virtuals := s.virtuals.set i v }

/-- The table can be written. -/
def Writable (s : CreatorSystem) : Prop := s.publish.tick.Writable ∧ s.deleting = .idle

instance (s : CreatorSystem) : Decidable s.Writable := inferInstanceAs (Decidable (_ ∧ _))

/-- A step of `publishMachine`, which waits where it needs the table and a deletion holds it. -/
def publishStep (s : CreatorSystem) (a : PublishAction) : Option CreatorSystem :=
  if s.publish.TakesTable a = true ∧ s.deleting ≠ .idle then none
  else (s.publish.step a).map fun p => { s with publish := p }

/-- A call of `Forwarder::virtual_publish` looks its stream up, and sets up a forward if there is
none. -/
def beginStep (s : CreatorSystem) (stream : String) : Option CreatorSystem :=
  if s.publish.tick.Readable ∧ s.deleting = .idle then
    match s.table[stream]? with
    | some h => some { s with virtuals := s.virtuals ++ [⟨stream, h, true, .generating⟩] }
    | none =>
        let h := s.publish.forwarder.forwards.length
        some {
          publish := { s.publish with
            forwarder := s.publish.forwarder.newForward stream
            emptiedAt := Function.update s.publish.emptiedAt h s.publish.clock }
          virtuals := s.virtuals ++ [⟨stream, h, false, .generating⟩]
          deleting := s.deleting }
  else none

/-- `PeerForward::gen_virtual_publish`: a connection and its offer, or an error.  The slot of the
forward is left alone. -/
def generateStep (s : CreatorSystem) (i : ℕ) (outcome : Except AppError Unit) :
    Option CreatorSystem :=
  s.virtuals[i]?.bind fun v =>
    if v.stage = .generating then some <|
      match outcome with
      | .error e => s.setVirtual i { v with stage := .returned (.error e) }
      | .ok () =>
          (s.setForwarder s.publish.forwarder.newPeer).setVirtual i
            { v with stage := if v.found then .returned (.ok ()) else .finishing }
    else none

/-- The end of `Forwarder::virtual_publish` with a forward that was set up: it is entered into the
table, unless there is one by now. -/
def finishStep (s : CreatorSystem) (i : ℕ) : Option CreatorSystem :=
  s.virtuals[i]?.bind fun v =>
    if v.stage = .finishing ∧ s.Writable then some <|
      if v.stream ∈ s.table then
        (s.setForwarder (s.publish.forwarder.close v.forward)).setVirtual i
          { v with stage := .returned (.error (.streamAlreadyExists "stream already exists")) }
      else
        (s.setForwarder { s.publish.forwarder with
          streamMap := s.table.insert v.stream v.forward }).setVirtual i
            { v with stage := .returned (.ok ()) }
    else none

/-- `Forwarder::stream_delete` takes the table and looks its stream up; without an entry it
returns an error. -/
def deleteStep (s : CreatorSystem) (stream : String) : Option CreatorSystem :=
  if s.Writable then
    match s.table[stream]? with
    | none => some s
    | some h => some { s with deleting := .closing stream h }
  else none

/-- The deletion closes the forward. -/
def shutStep (s : CreatorSystem) : Option CreatorSystem :=
  match s.deleting with
  | .closing stream h =>
      some { s.setForwarder (s.publish.forwarder.close h) with deleting := .removing stream h }
  | .idle | .removing .. => none

/-- The deletion removes the entry and gives the table back. -/
def removeStep (s : CreatorSystem) : Option CreatorSystem :=
  match s.deleting with
  | .removing stream _ =>
      some { s.setForwarder { s.publish.forwarder with streamMap := s.table.erase stream } with
        deleting := .idle }
  | .idle | .closing .. => none

/-- One step of the system. -/
def step (s : CreatorSystem) : CreatorAction → Option CreatorSystem
  | .publish a => s.publishStep a
  | .begin stream => s.beginStep stream
  | .generate i outcome => s.generateStep i outcome
  | .finish i => s.finishStep i
  | .delete stream => s.deleteStep stream
  | .shut => s.shutStep
  | .remove => s.removeStep

end CreatorSystem

/-- The machine of the table of the streams: no streams at first, and any clock. -/
def creatorMachine : Machine CreatorSystem CreatorAction where
  init s := publishMachine.init s.publish ∧ s.virtuals = [] ∧ s.deleting = .idle
  step := CreatorSystem.step

/-! ### The calls with a forward of their own -/

/-- A call that has set up a forward for its stream: whether it has returned, and with success. -/
structure Creation where
  stream : String
  forward : ℕ
  result : Option Bool
  deriving DecidableEq

/-- The result of a call of `publish`. -/
def PublishStage.result : PublishStage → Option Bool
  | .returned (.ok ()) => some true
  | .returned (.error _) => some false
  | .checking | .rechecking | .negotiating | .setting | .resetting | .finishing => none

/-- The result of a call of `virtual_publish`. -/
def VirtualStage.result : VirtualStage → Option Bool
  | .returned (.ok ()) => some true
  | .returned (.error _) => some false
  | .generating | .finishing => none

/-- The call of `publish` as one with a forward of its own, if it has not found one. -/
def PublishCall.creation (c : PublishCall) : Option Creation :=
  if c.found then none else some ⟨c.stream, c.forward, c.stage.result⟩

/-- The call of `virtual_publish` as one with a forward of its own, if it has not found one. -/
def VirtualCall.creation (v : VirtualCall) : Option Creation :=
  if v.found then none else some ⟨v.stream, v.forward, v.stage.result⟩

/-- A call goes on in a step: with a forward of its own it may return an error. -/
inductive Creation.GoesOn : Option Creation → Option Creation → Prop
  | same (o : Option Creation) : GoesOn o o
  | failed {c : Creation} (running : c.result = none) :
      GoesOn (some c) (some { c with result := some false })

/-- What a call with a forward of its own was before it went on. -/
lemma Creation.GoesOn.before {o : Option Creation} {c : Creation}
    (hon : Creation.GoesOn o (some c)) :
    ∃ d, o = some d ∧ (c = d ∨ d.result = none ∧ c = { d with result := some false }) := by
  cases hon with
  | same => exact ⟨c, rfl, .inl rfl⟩
  | failed running => exact ⟨_, rfl, .inr ⟨running, rfl⟩⟩

/-- A call of `publish` or of `virtual_publish`, by its number. -/
inductive CallId where
  | publish (i : ℕ)
  | virtual (i : ℕ)
  deriving DecidableEq

namespace CreatorSystem

variable {s t u : CreatorSystem} {a : CreatorAction} {stream : String} {h i j : ℕ}

/-- The call, if it has a forward of its own. -/
def creation (s : CreatorSystem) : CallId → Option Creation
  | .publish i => s.publish.calls[i]?.bind PublishCall.creation
  | .virtual i => s.virtuals[i]?.bind VirtualCall.creation

/-- The step in which a call enters its forward, or finds an entry. -/
def lastStep : CallId → CreatorAction
  | .publish i => .publish (.finish i)
  | .virtual i => .finish i

/-- The step removes the entry of the stream, in the reaper or in a deletion. -/
def Removes (s : CreatorSystem) (stream : String) : CreatorAction → Prop
  | .publish .tick => s.publish.tick.removal = some stream
  | .remove => s.deleting.removal = some stream
  | _ => False

instance (s : CreatorSystem) (stream : String) (a : CreatorAction) :
    Decidable (s.Removes stream a) :=
  match a with
  | .publish .tick => inferInstanceAs (Decidable (_ = some stream))
  | .remove => inferInstanceAs (Decidable (_ = some stream))
  | .publish (.elapse _) | .publish (.create _) | .publish (.begin _) | .publish (.check _)
  | .publish (.recheck _) | .publish (.negotiate ..) | .publish (.fill _) | .publish (.reset _)
  | .publish (.finish _) | .publish (.connect _) | .publish (.close _) | .publish (.clear _)
  | .publish (.stamp _) | .publish (.wake _) | .begin _ | .generate .. | .finish _ | .delete _
  | .shut => isFalse id

/-- The step enters the forward under the name: the new one of a `stream_create`, or the one of a
call that takes its last step. -/
def Enters (s : CreatorSystem) (a : CreatorAction) (stream : String) (h : ℕ) : Prop :=
  a = .publish (.create stream) ∧ h = s.publish.forwarder.forwards.length ∨
    ∃ k c, a = lastStep k ∧ s.creation k = some c ∧ c.stream = stream ∧ c.forward = h

/-- The step is the one in which a creator of the stream enters its forward or gives up. -/
def Completes (s : CreatorSystem) (a : CreatorAction) (stream : String) : Prop :=
  a = .publish (.create stream) ∨
    ∃ k c, a = lastStep k ∧ s.creation k = some c ∧ c.stream = stream

/-- What a step owes the entries of the table: one that is there stays, unless the step removes
it; a new one is that of a creator; a creator that completes leaves an entry, its own or another;
and a call with a forward of its own returns success exactly if it enters it. -/
structure Keeps (s : CreatorSystem) (a : CreatorAction) (t : CreatorSystem) : Prop where
  entry : ∀ (stream : String) (h : ℕ), s.table[stream]? = some h →
    t.table[stream]? = some h ∨ t.table[stream]? = none ∧ s.Removes stream a
  entered : ∀ (stream : String) (h : ℕ), s.table[stream]? = none → t.table[stream]? = some h →
    s.Enters a stream h
  completed : ∀ stream, s.Completes a stream → (t.table[stream]?).isSome
  returned : ∀ (k : CallId) (c : Creation) (ok : Bool), s.creation k = some c → c.result = none →
    t.creation k = some { c with result := some ok } →
      if ok then s.table[c.stream]? = none ∧ t.table[c.stream]? = some c.forward
      else t.table = s.table

/-- The number of steps of a run that enter a forward under the name. -/
def insertions (stream : String) : CreatorSystem → List CreatorAction → ℕ
  | _, [] => 0
  | s, a :: as =>
      match s.step a with
      | none => 0
      | some t =>
          (if s.table[stream]? = none ∧ (t.table[stream]?).isSome then 1 else 0) +
            insertions stream t as

/-- What has come of a name after a run from `s` to `t` in which no step removes its entry: an
entry that was there is there, and none has been entered; where none was there and some creator
has completed, exactly one step has entered one; a call that has returned in the run is the one
whose forward was entered, or returned an error; and no two calls have the same forward. -/
structure Settled (s : CreatorSystem) (stream : String) (as : List CreatorAction)
    (t : CreatorSystem) : Prop where
  entry : ∀ h : ℕ, s.table[stream]? = some h →
    t.table[stream]? = some h ∧ insertions stream s as = 0
  inserted : s.table[stream]? = none →
    ¬ creatorMachine.Guarded (fun r a => ¬ r.Completes a stream) s as →
      insertions stream s as = 1 ∧ (t.table[stream]?).isSome
  returned : ∀ (k : CallId) (c : Creation) (ok : Bool), t.creation k = some c →
    c.stream = stream → c.result = some ok → (∀ d, s.creation k = some d → d.result = none) →
      (ok = true ↔ s.table[stream]? = none ∧ t.table[stream]? = some c.forward)
  distinct : ∀ (k l : CallId) (c d : Creation), t.creation k = some c → t.creation l = some d →
    c.forward = d.forward → k = l

end CreatorSystem

/-! ### What a step does -/

/-- A call that is not at an end has no result. -/
lemma PublishStage.result_eq_none {stage : PublishStage} (hr : ∀ r, stage ≠ .returned r) :
    stage.result = none := by
  cases stage with
  | returned r => exact absurd rfl (hr r)
  | _ => rfl

/-- A call that has not filled the slot has no result, or an error. -/
lemma PublishStage.Early.result {stage : PublishStage} (he : stage.Early) :
    stage.result = none ∨ stage.result = some false := by
  cases stage with
  | returned r =>
      cases r with
      | ok _ => exact absurd he id
      | error _ => exact .inr rfl
  | _ => exact .inl rfl

namespace PublishSystem

variable {s t : PublishSystem} {a : PublishAction} {i j : ℕ} {c c' : PublishCall}

/-- The call `i`, if it has a forward of its own. -/
def creation (s : PublishSystem) (i : ℕ) : Option Creation :=
  s.calls[i]?.bind PublishCall.creation

/-- A call that moves from no result to no result, or to an error, goes on. -/
lemma goesOn_of_result (hc : c'.stream = c.stream ∧ c'.forward = c.forward ∧ c'.found = c.found)
    (hr : c'.stage.result = c.stage.result ∨
      c.stage.result = none ∧ c'.stage.result = some false) :
    Creation.GoesOn c.creation c'.creation := by
  obtain ⟨hstream, hforward, hfound⟩ := hc
  rw [PublishCall.creation, PublishCall.creation, hstream, hforward, hfound]
  split_ifs with hf
  · exact .same none
  · rcases hr with hr | ⟨hnone, hfalse⟩
    · rw [hr]
      exact .same _
    · rw [hfalse]
      exact .failed hnone

/-- A move of a call other than its last one. -/
lemma goesOn_of_move (hm : s.Move a i c c') (ha : ∀ j, a ≠ .finish j) :
    Creation.GoesOn c.creation c'.creation := by
  refine goesOn_of_result hm.keeps ?_
  cases hm with
  | callback leave => exact .inl rfl
  | early peer before running after =>
      have hnone := PublishStage.result_eq_none running
      rcases after.result with hr | hr
      · exact .inl (hr.trans hnone.symm)
      · exact .inr ⟨hnone, hr⟩
  | filled before =>
      left
      rw [before]
      rfl
  | reset before =>
      left
      rw [before]
      rfl
  | returned result before => exact absurd rfl (ha i)

/-- One call is replaced by one that goes on. -/
lemma goesOn_set (hc : s.calls[i]? = some c) (hcalls : t.calls = s.calls.set i c')
    (hon : Creation.GoesOn c.creation c'.creation) (j : ℕ) :
    Creation.GoesOn (s.creation j) (t.creation j) := by
  rw [creation, creation, hcalls, Vec.bind_getElem?_set hc]
  split_ifs with hj
  · rwa [hj, hc, Option.bind_some]
  · exact .same _

/-- The reaper moves no call. -/
lemma calls_tickStep (hst : s.tickStep = some t) : t.calls = s.calls := by
  simp only [tickStep] at hst
  split at hst
  · cases hst
  all_goals (try split at hst) <;> cases hst <;> rfl

/-- **Calls and reaper**: a step that neither begins nor ends a call nor creates a stream keeps
the forwards and the table, except that the reaper removes an entry. -/
lemma goesOn_of_step (hst : s.step a = some t) (hcreate : ∀ stream, a ≠ .create stream)
    (hbegin : ∀ stream, a ≠ .begin stream) (hfinish : ∀ i, a ≠ .finish i) :
    t.forwarder.forwards.length = s.forwarder.forwards.length ∧
      (∀ j, Creation.GoesOn (s.creation j) (t.creation j)) ∧
      (t.forwarder.streamMap = s.forwarder.streamMap ∨ ∃ stream, a = .tick ∧
        s.tick.removal = some stream ∧ t.calls = s.calls ∧
          t.forwarder.streamMap = s.forwarder.streamMap.erase stream) := by
  have hspec := spec_of_step hst
  have hcalls : ∀ j, Creation.GoesOn (s.creation j) (t.creation j) := by
    intro j
    rcases hspec.calls with hcalls | ⟨i, c, c', hc, hm, hcalls⟩ | ⟨c, ha, -⟩
    · rw [creation, creation, hcalls]
      exact .same _
    · exact goesOn_set hc hcalls (goesOn_of_move hm hfinish) j
    · exact absurd ha (hbegin c.stream)
  cases hspec.effect with
  | quiet forwards streamMap => exact ⟨by rw [forwards], hcalls, .inl streamMap⟩
  | created => exact absurd rfl (hcreate _)
  | setUp => exact absurd rfl (hbegin _)
  | filled _ _ _ _ forwards streamMap | cleared _ _ _ forwards streamMap =>
      exact ⟨by rw [forwards]; simp, hcalls, .inl streamMap⟩
  | reset _ _ forwards streamMap =>
      exact ⟨by rw [forwards]; simp [Forwarder.resetLeaveTime], hcalls, .inl streamMap⟩
  | stamped _ _ forwards streamMap =>
      exact ⟨by rw [forwards]; simp [Forwarder.stampLeaveTime], hcalls, .inl streamMap⟩
  | entered => exact absurd rfl (hfinish _)
  | removed tick forwards streamMap =>
      exact ⟨by rw [forwards], hcalls,
        .inr ⟨_, rfl, by rw [tick, TickState.removal], calls_tickStep hst, streamMap⟩⟩

end PublishSystem

namespace CreatorSystem

variable {s t u : CreatorSystem} {a : CreatorAction} {stream : String} {h i : ℕ} {k l : CallId}

/-- How many forwards there are. -/
def count (s : CreatorSystem) : ℕ := s.publish.forwarder.forwards.length

/-- What a step does to the table, the number of forwards and the calls with forwards of their
own: calls go on; one sets up a forward; a stream is created; a forward is entered; an entry is
removed. -/
inductive Effect (s : CreatorSystem) (a : CreatorAction) (t : CreatorSystem) : Prop
  | quiet (table : t.table = s.table) (count : t.count = s.count)
      (calls : ∀ k, Creation.GoesOn (s.creation k) (t.creation k))
      (present : ∀ stream, s.Completes a stream → stream ∈ s.table)
  | setUp (k : CallId) (c : Creation) (action : ∀ stream, ¬ s.Completes a stream)
      (fresh : s.creation k = none) (own : c.forward = s.count) (running : c.result = none)
      (table : t.table = s.table) (count : t.count = s.count + 1) (call : t.creation k = some c)
      (others : ∀ l ≠ k, t.creation l = s.creation l)
  | created (stream : String) (action : a = .publish (.create stream))
      (fresh : stream ∉ s.table) (table : t.table = s.table.insert stream s.count)
      (count : t.count = s.count + 1) (calls : ∀ k, t.creation k = s.creation k)
  | entered (k : CallId) (c : Creation) (action : a = lastStep k) (call : s.creation k = some c)
      (running : c.result = none) (fresh : c.stream ∉ s.table)
      (table : t.table = s.table.insert c.stream c.forward) (count : t.count = s.count)
      (returned : t.creation k = some { c with result := some true })
      (others : ∀ l ≠ k, t.creation l = s.creation l)
  | removed (stream : String) (removes : s.Removes stream a)
      (table : t.table = s.table.erase stream) (count : t.count = s.count)
      (calls : ∀ k, t.creation k = s.creation k)

lemma lastStep_injective : Function.Injective lastStep := by
  intro k l hkl
  cases k <;> cases l <;> cases hkl <;> rfl

/-- A step that is the last one of no call and creates no stream completes nothing. -/
lemma not_completes (hcreate : ∀ stream, a ≠ .publish (.create stream))
    (hlast : ∀ k, a ≠ lastStep k) (stream : String) : ¬ s.Completes a stream := by
  rintro (ha | ⟨k, c, ha, -⟩)
  · exact hcreate stream ha
  · exact hlast k ha

/-- A step of the streams that neither begins nor ends a call nor creates a stream. -/
lemma effect_of_goesOn {b : PublishAction} {p : PublishSystem} (hst : s.publish.step b = some p)
    (hcreate : ∀ stream, b ≠ .create stream) (hbegin : ∀ stream, b ≠ .begin stream)
    (hfinish : ∀ i, b ≠ .finish i) : s.Effect (.publish b) { s with publish := p } := by
  obtain ⟨hcount, hcalls, htable⟩ := PublishSystem.goesOn_of_step hst hcreate hbegin hfinish
  have hall : ∀ k, Creation.GoesOn (s.creation k)
      (creation { s with publish := p } k) := by
    rintro (i | i)
    · exact hcalls i
    · exact .same _
  rcases htable with htable | ⟨stream, rfl, hremoval, hsame, htable⟩
  · refine .quiet htable hcount hall fun stream hc => absurd hc (not_completes ?_ ?_ stream)
    · exact fun stream hb => hcreate stream (CreatorAction.publish.inj hb)
    · rintro (i | i) hb
      · exact hfinish i (CreatorAction.publish.inj hb)
      · cases hb
  · refine .removed stream hremoval htable hcount ?_
    rintro (i | i)
    · simp only [creation, hsame]
    · rfl

/-- `stream_create`. -/
lemma effect_of_create {p : PublishSystem} (hst : s.publish.step (.create stream) = some p) :
    s.Effect (.publish (.create stream)) { s with publish := p } := by
  simp only [PublishSystem.step, PublishSystem.createStep, Option.ite_none_right_eq_some] at hst
  obtain ⟨-, hst⟩ := hst
  split at hst
  · rename_i hf
    cases hst
    refine .quiet rfl rfl (fun k => .same _) ?_
    rintro stream' (ha | ⟨k, c, ha, -⟩)
    · cases ha
      by_contra hs
      have hok := Forwarder.streamCreate_eq_ok_iff.mpr ⟨hs, rfl⟩
      rw [hf] at hok
      cases hok
    · cases k <;> cases ha
  · rename_i f hf
    obtain ⟨hs, rfl⟩ := Forwarder.streamCreate_eq_ok_iff.mp hf
    cases hst
    exact .created stream rfl hs rfl (by simp [count, Forwarder.newForward]) fun k => by
      cases k <;> rfl

/-- A call of `publish` begins. -/
lemma effect_of_beginPublish {p : PublishSystem} (hst : s.publish.step (.begin stream) = some p) :
    s.Effect (.publish (.begin stream)) { s with publish := p } := by
  have hnot : ∀ stream', ¬ s.Completes (.publish (.begin stream)) stream' :=
    not_completes (by rintro _ ⟨⟩) (by rintro (i | i) ⟨⟩)
  simp only [PublishSystem.step, PublishSystem.beginStep, Option.ite_none_right_eq_some] at hst
  obtain ⟨-, hst⟩ := hst
  split at hst
  · rename_i h hh
    cases hst
    refine .quiet rfl rfl ?_ fun stream' hc => absurd hc (hnot stream')
    rintro (i | i)
    · simp only [creation, Vec.bind_getElem?_concat]
      split_ifs with hi
      · -- the new call has found its forward
        rw [hi, List.getElem?_eq_none le_rfl]
        exact .same none
      · exact .same _
    · exact .same _
  · cases hst
    refine .setUp (.publish s.publish.calls.length) ⟨stream, s.count, none⟩ hnot ?_ rfl rfl rfl
      (by simp [count, Forwarder.newForward]) ?_ ?_
    · simp [creation]
    · simp [creation, PublishCall.creation, PublishStage.result, count]
    · rintro (i | i) hi
      · have hi : i ≠ s.publish.calls.length := fun h => hi (h ▸ rfl)
        simp [creation, Vec.bind_getElem?_concat, hi]
      · rfl

/-- A call of `virtual_publish` begins. -/
lemma effect_of_beginStep (hst : s.beginStep stream = some t) : s.Effect (.begin stream) t := by
  have hnot : ∀ stream', ¬ s.Completes (.begin stream) stream' :=
    not_completes (by rintro _ ⟨⟩) (by rintro (i | i) ⟨⟩)
  simp only [beginStep, Option.ite_none_right_eq_some] at hst
  obtain ⟨-, hst⟩ := hst
  split at hst
  · cases hst
    refine .quiet rfl rfl ?_ fun stream' hc => absurd hc (hnot stream')
    rintro (i | i)
    · exact .same _
    · simp only [creation, Vec.bind_getElem?_concat]
      split_ifs with hi
      · -- the new call has found its forward
        rw [hi, List.getElem?_eq_none le_rfl]
        exact .same none
      · exact .same _
  · cases hst
    refine .setUp (.virtual s.virtuals.length) ⟨stream, s.count, none⟩ hnot ?_ rfl rfl rfl
      (by simp [count, Forwarder.newForward]) ?_ ?_
    · simp [creation]
    · simp [creation, VirtualCall.creation, VirtualStage.result, count]
    · rintro (i | i) hi
      · rfl
      · have hi : i ≠ s.virtuals.length := fun h => hi (h ▸ rfl)
        simp [creation, Vec.bind_getElem?_concat, hi]

/-- The last step of a call of `publish`. -/
lemma effect_of_finishPublish {p : PublishSystem} (hst : s.publish.step (.finish i) = some p) :
    s.Effect (.publish (.finish i)) { s with publish := p } := by
  obtain ⟨c, hc, hstage, hst⟩ := PublishSystem.onCall_eq_some_iff.mp hst
  have hown : ∀ stream, s.Completes (.publish (.finish i)) stream →
      c.found = false ∧ c.stream = stream := by
    rintro stream (ha | ⟨_ | _, d, ha, hd, rfl, -⟩)
    · cases ha
    · cases ha
      simp only [creation, hc, Option.bind_some, PublishCall.creation,
        Option.ite_none_left_eq_some, Option.some.injEq] at hd
      obtain ⟨hfound, rfl⟩ := hd
      exact ⟨by simpa using hfound, rfl⟩
    · cases ha
  split_ifs at hst with hfound hw hs
  · cases hst
    refine .quiet rfl rfl ?_ fun stream hd => ?_
    · rintro (j | j)
      · refine PublishSystem.goesOn_set hc rfl ?_ j
        rw [PublishCall.creation, PublishCall.creation, if_pos hfound, if_pos hfound]
        exact .same none
      · exact .same _
    · rw [(hown stream hd).1] at hfound
      cases hfound
  · cases hst
    refine .quiet (by simp [table, PublishSystem.setCall]) (by simp [count, PublishSystem.setCall])
      ?_ fun stream hd => (hown stream hd).2 ▸ hs
    rintro (j | j)
    · refine PublishSystem.goesOn_set hc rfl ?_ j
      exact PublishSystem.goesOn_of_result ⟨rfl, rfl, rfl⟩ (.inr ⟨by rw [hstage]; rfl, rfl⟩)
    · exact .same _
  · cases hst
    refine .entered (.publish i) ⟨c.stream, c.forward, none⟩ rfl ?_ rfl hs rfl rfl ?_ ?_
    · simp [creation, hc, PublishCall.creation, hfound, hstage, PublishStage.result]
    · simp [creation, PublishSystem.setCall, Vec.bind_getElem?_set hc, PublishCall.creation,
        hfound, PublishStage.result]
    · rintro (j | j) hj
      · have hj : j ≠ i := fun h => hj (h ▸ rfl)
        simp [creation, PublishSystem.setCall, Vec.bind_getElem?_set hc, hj]
      · rfl

/-- The calls of `virtual_publish` that are about to enter a forward have set it up. -/
def Owned (s : CreatorSystem) : Prop :=
  ∀ v ∈ s.virtuals, v.stage = .finishing → v.found = false

/-- One call of `virtual_publish` is replaced by one that goes on. -/
lemma goesOn_setVirtual {v v' : VirtualCall} (hv : s.virtuals[i]? = some v) (f : Forwarder)
    (hon : Creation.GoesOn v.creation v'.creation) :
    Creation.GoesOn (s.creation k) (((s.setForwarder f).setVirtual i v').creation k) := by
  cases k with
  | publish j => exact .same _
  | virtual j =>
      simp only [creation, setVirtual, setForwarder, Vec.bind_getElem?_set hv]
      split_ifs with hj
      · rwa [hj, hv, Option.bind_some]
      · exact .same _

/-- A call of `virtual_publish` that has no result, and then none or an error. -/
lemma goesOn_virtual {v : VirtualCall} {stage : VirtualStage} (hnone : v.stage.result = none)
    (hr : v.found = true ∨ stage.result = none ∨ stage.result = some false) :
    Creation.GoesOn v.creation (VirtualCall.creation { v with stage := stage }) := by
  rw [VirtualCall.creation, VirtualCall.creation, hnone]
  split_ifs with hf
  · exact .same none
  · rcases hr with hr | hr | hr
    · exact absurd hr hf
    · rw [hr]
      exact .same _
    · rw [hr]
      exact .failed rfl

/-- The offer of a call of `virtual_publish`. -/
lemma effect_of_generateStep {outcome : Except AppError Unit}
    (hst : s.generateStep i outcome = some t) : s.Effect (.generate i outcome) t := by
  have hnot : ∀ stream, ¬ s.Completes (.generate i outcome) stream :=
    not_completes (by rintro _ ⟨⟩) (by rintro (i | i) ⟨⟩)
  simp only [generateStep, Option.bind_eq_some_iff, Option.ite_none_right_eq_some] at hst
  obtain ⟨v, hv, hstage, hst⟩ := hst
  have hnone : v.stage.result = none := by
    rw [hstage]
    rfl
  cases outcome with
  | error e =>
      cases hst
      exact .quiet rfl rfl (fun k => goesOn_setVirtual hv s.publish.forwarder
        (goesOn_virtual hnone (.inr (.inr rfl)))) fun stream hc => absurd hc (hnot stream)
  | ok _ =>
      cases hst
      refine .quiet rfl rfl (fun k => goesOn_setVirtual hv _ (goesOn_virtual hnone ?_))
        fun stream hc => absurd hc (hnot stream)
      cases hf : v.found with
      | true => exact .inl rfl
      | false => exact .inr (.inl rfl)

/-- The last step of a call of `virtual_publish`. -/
lemma effect_of_finishStep (hs : s.Owned) (hst : s.finishStep i = some t) :
    s.Effect (.finish i) t := by
  simp only [finishStep, Option.bind_eq_some_iff, Option.ite_none_right_eq_some] at hst
  obtain ⟨v, hv, ⟨hstage, -⟩, hst⟩ := hst
  have hfound := hs v (List.mem_of_getElem? hv) hstage
  have hown : s.creation (.virtual i) = some ⟨v.stream, v.forward, none⟩ := by
    simp [creation, hv, VirtualCall.creation, hfound, hstage, VirtualStage.result]
  split_ifs at hst with hmem
  · cases hst
    refine .quiet (by simp [table, setVirtual, setForwarder]) (by simp [count, setVirtual,
      setForwarder]) (fun k => goesOn_setVirtual hv _ (goesOn_virtual ?_ (.inr (.inr rfl)))) ?_
    · rw [hstage]
      rfl
    · rintro stream (ha | ⟨_ | _, d, ha, hd, rfl⟩)
      · cases ha
      · cases ha
      · cases ha
        rw [hown, Option.some.injEq] at hd
        exact hd ▸ hmem
  · cases hst
    refine .entered (.virtual i) ⟨v.stream, v.forward, none⟩ rfl hown rfl hmem rfl rfl ?_ ?_
    · simp [creation, setVirtual, setForwarder, Vec.bind_getElem?_set hv, VirtualCall.creation,
        hfound, VirtualStage.result]
    · rintro (j | j) hj
      · rfl
      · have hj : j ≠ i := fun h => hj (h ▸ rfl)
        simp [creation, setVirtual, setForwarder, Vec.bind_getElem?_set hv, hj]

/-- **What a step does**: the one case distinction over the actions. -/
lemma effect_of_step (hs : s.Owned) (hst : s.step a = some t) : s.Effect a t := by
  cases a with
  | publish b =>
      simp only [step, publishStep, Option.ite_none_left_eq_some, Option.map_eq_some_iff] at hst
      obtain ⟨-, p, hp, rfl⟩ := hst
      cases b with
      | create stream => exact effect_of_create hp
      | begin stream => exact effect_of_beginPublish hp
      | finish i => exact effect_of_finishPublish hp
      | _ => exact effect_of_goesOn hp nofun nofun nofun
  | begin stream => exact effect_of_beginStep hst
  | generate i outcome => exact effect_of_generateStep hst
  | finish i => exact effect_of_finishStep hs hst
  | delete stream =>
      simp only [step, deleteStep, Option.ite_none_right_eq_some] at hst
      obtain ⟨-, hst⟩ := hst
      have hnot : ∀ stream', ¬ s.Completes (.delete stream) stream' :=
        not_completes (by rintro _ ⟨⟩) (by rintro (i | i) ⟨⟩)
      split at hst <;> cases hst <;>
        exact .quiet rfl rfl (fun k => by cases k <;> exact .same _)
          fun stream' hc => absurd hc (hnot stream')
  | shut =>
      have hnot : ∀ stream, ¬ s.Completes .shut stream :=
        not_completes (by rintro _ ⟨⟩) (by rintro (i | i) ⟨⟩)
      simp only [step, shutStep] at hst
      split at hst <;> cases hst
      exact .quiet (by simp [table, setForwarder]) (by simp [count, setForwarder])
        (fun k => by cases k <;> exact .same _) fun stream hc => absurd hc (hnot stream)
  | remove =>
      simp only [step, removeStep] at hst
      split at hst <;> cases hst
      rename_i stream h hdel
      refine .removed stream ?_ rfl rfl fun k => by cases k <;> rfl
      show s.deleting.removal = some stream
      rw [hdel, DeleteState.removal]

/-- A call that is about to enter a forward has set it up, after every step. -/
lemma owned_step (hs : s.Owned) (hst : s.step a = some t) : t.Owned := by
  cases a with
  | publish b =>
      simp only [step, publishStep, Option.ite_none_left_eq_some, Option.map_eq_some_iff] at hst
      obtain ⟨-, p, -, rfl⟩ := hst
      exact hs
  | begin stream =>
      simp only [step, beginStep, Option.ite_none_right_eq_some] at hst
      obtain ⟨-, hst⟩ := hst
      intro v hv hstage
      split at hst <;> cases hst <;> rcases List.mem_append.mp hv with hold | hnew
      · exact hs v hold hstage
      · rw [List.mem_singleton.mp hnew] at hstage
        cases hstage
      · exact hs v hold hstage
      · rw [List.mem_singleton.mp hnew]
  | generate i outcome =>
      simp only [step, generateStep, Option.bind_eq_some_iff, Option.ite_none_right_eq_some] at hst
      obtain ⟨w, hw, -, hst⟩ := hst
      intro v hv hstage
      cases outcome <;> cases hst <;> rcases List.mem_or_eq_of_mem_set hv with hold | rfl
      · exact hs v hold hstage
      · cases hstage
      · exact hs v hold hstage
      · cases hf : w.found with
        | true => simp [hf] at hstage
        | false => rfl
  | finish i =>
      simp only [step, finishStep, Option.bind_eq_some_iff, Option.ite_none_right_eq_some] at hst
      obtain ⟨w, hw, -, hst⟩ := hst
      intro v hv hstage
      split_ifs at hst <;> cases hst <;> rcases List.mem_or_eq_of_mem_set hv with hold | rfl
      · exact hs v hold hstage
      · cases hstage
      · exact hs v hold hstage
      · cases hstage
  | delete stream =>
      simp only [step, deleteStep, Option.ite_none_right_eq_some] at hst
      obtain ⟨-, hst⟩ := hst
      split at hst <;> cases hst <;> exact hs
  | shut =>
      simp only [step, shutStep] at hst
      split at hst <;> cases hst
      exact hs
  | remove =>
      simp only [step, removeStep] at hst
      split at hst <;> cases hst
      exact hs

/-! ### Forwards of one owner -/

/-- The calls and the entries have forwards that exist, no two calls have set up the same one,
and a call whose forward is entered has returned with success. -/
structure Inv (s : CreatorSystem) : Prop where
  owned : s.Owned
  exists_call : ∀ (k : CallId) (c : Creation), s.creation k = some c → c.forward < s.count
  exists_entry : ∀ (stream : String) (h : ℕ), s.table[stream]? = some h → h < s.count
  distinct : ∀ (k l : CallId) (c d : Creation), s.creation k = some c → s.creation l = some d →
    c.forward = d.forward → k = l
  winner : ∀ (k : CallId) (c : Creation) (stream : String), s.creation k = some c →
    s.table[stream]? = some c.forward → c.result = some true

lemma inv_init (h0 : creatorMachine.init s) : s.Inv := by
  obtain ⟨⟨hf, hcalls, -⟩, hvirtuals, -⟩ := h0
  have hnone : ∀ k, s.creation k = none := by
    rintro (i | i)
    · simp [creation, hcalls]
    · simp [creation, hvirtuals]
  have htable : s.table = ∅ := by
    rw [table, hf]
    rfl
  constructor
  · simp [Owned, hvirtuals]
  · simp [hnone]
  · simp [htable]
  · simp [hnone]
  · simp [hnone]

/-- The calls go on, and entries are at most removed. -/
lemma inv_of_goesOn (hs : s.Inv) (ht : t.Owned) (hcount : t.count = s.count)
    (hcalls : ∀ k, Creation.GoesOn (s.creation k) (t.creation k))
    (htable : ∀ (stream : String) (h : ℕ), t.table[stream]? = some h →
      s.table[stream]? = some h) : t.Inv := by
  have hbefore : ∀ {k : CallId} {c : Creation}, t.creation k = some c → ∃ d,
      s.creation k = some d ∧ d.forward = c.forward ∧
        (c = d ∨ d.result = none ∧ c.result = some false) := by
    intro k c hc
    obtain ⟨d, hd, rfl | ⟨hnone, rfl⟩⟩ := Creation.GoesOn.before (hc ▸ hcalls k)
    · exact ⟨c, hd, rfl, .inl rfl⟩
    · exact ⟨d, hd, rfl, .inr ⟨hnone, rfl⟩⟩
  constructor
  · exact ht
  · intro k c hc
    obtain ⟨d, hd, hforward, -⟩ := hbefore hc
    rw [hcount, ← hforward]
    exact hs.exists_call k d hd
  · intro stream h hh
    rw [hcount]
    exact hs.exists_entry stream h (htable stream h hh)
  · intro k l c d hc hd heq
    obtain ⟨c', hc', hforward, -⟩ := hbefore hc
    obtain ⟨d', hd', hforward', -⟩ := hbefore hd
    exact hs.distinct k l c' d' hc' hd' (by rw [hforward, hforward', heq])
  · intro k c stream hc hentry
    obtain ⟨d, hd, hforward, hr⟩ := hbefore hc
    have hwin := hs.winner k d stream hd (hforward ▸ htable stream _ hentry)
    rcases hr with rfl | ⟨hnone, -⟩
    · exact hwin
    · rw [hnone] at hwin
      cases hwin

/-- **One owner for each forward** after every step. -/
lemma inv_step (hs : s.Inv) (hst : s.step a = some t) : t.Inv := by
  have ht := owned_step hs.owned hst
  cases effect_of_step hs.owned hst with
  | quiet table count calls =>
      exact inv_of_goesOn hs ht count calls fun stream h hh => table ▸ hh
  | removed stream _ table count calls =>
      refine inv_of_goesOn hs ht count (fun k => calls k ▸ .same _) fun stream' h hh => ?_
      rw [table, ExtTreeMap.getElem?_erase] at hh
      split_ifs at hh
      exact hh
  | setUp k c action fresh own running table count call others =>
      -- the new call has a forward that nobody else has
      have hcases : ∀ {l : CallId} {d : Creation}, t.creation l = some d →
          l = k ∧ d = c ∨ l ≠ k ∧ s.creation l = some d := by
        intro l d hd
        by_cases hl : l = k
        · rw [hl, call, Option.some.injEq] at hd
          exact .inl ⟨hl, hd.symm⟩
        · exact .inr ⟨hl, others l hl ▸ hd⟩
      constructor
      · exact ht
      · intro l d hd
        rcases hcases hd with ⟨-, rfl⟩ | ⟨-, hd⟩
        · omega
        · have hlt := hs.exists_call l d hd
          omega
      · intro stream h hh
        have hlt := hs.exists_entry stream h (table ▸ hh)
        omega
      · intro l m d e hd he heq
        rcases hcases hd with ⟨rfl, rfl⟩ | ⟨-, hd⟩ <;>
          rcases hcases he with ⟨rfl, rfl⟩ | ⟨-, he⟩
        · rfl
        · have hlt := hs.exists_call m e he
          omega
        · have hlt := hs.exists_call l d hd
          omega
        · exact hs.distinct l m d e hd he heq
      · intro l d stream hd hentry
        rw [table] at hentry
        rcases hcases hd with ⟨-, rfl⟩ | ⟨-, hd⟩
        · have hlt := hs.exists_entry stream _ hentry
          omega
        · exact hs.winner l d stream hd hentry
  | created stream action fresh table count calls =>
      constructor
      · exact ht
      · intro k c hc
        have hlt := hs.exists_call k c (calls k ▸ hc)
        omega
      · intro stream' h hh
        rw [table, ExtTreeMap.getElem?_insert] at hh
        split_ifs at hh with hs'
        · obtain rfl := Option.some.inj hh
          omega
        · have hlt := hs.exists_entry stream' h hh
          omega
      · intro k l c d hc hd
        exact hs.distinct k l c d (calls k ▸ hc) (calls l ▸ hd)
      · intro k c stream' hc hentry
        rw [calls k] at hc
        rw [table, ExtTreeMap.getElem?_insert] at hentry
        split_ifs at hentry with hs'
        · -- the new forward is that of no call
          have hlt := hs.exists_call k c hc
          rw [Option.some.injEq] at hentry
          omega
        · exact hs.winner k c stream' hc hentry
  | entered k c action call running fresh table count returned others =>
      have hbefore : ∀ {l : CallId} {d : Creation}, t.creation l = some d →
          ∃ e, s.creation l = some e ∧ e.forward = d.forward := by
        intro l d hd
        by_cases hl : l = k
        · rw [hl, returned, Option.some.injEq] at hd
          exact ⟨c, hl ▸ call, hd ▸ rfl⟩
        · exact ⟨d, others l hl ▸ hd, rfl⟩
      constructor
      · exact ht
      · intro l d hd
        obtain ⟨e, he, hforward⟩ := hbefore hd
        rw [count, ← hforward]
        exact hs.exists_call l e he
      · intro stream h hh
        rw [count]
        rw [table, ExtTreeMap.getElem?_insert] at hh
        split_ifs at hh
        · exact Option.some.inj hh ▸ hs.exists_call k c call
        · exact hs.exists_entry stream h hh
      · intro l m d e hd he heq
        obtain ⟨d', hd', hforward⟩ := hbefore hd
        obtain ⟨e', he', hforward'⟩ := hbefore he
        exact hs.distinct l m d' e' hd' he' (by rw [hforward, hforward', heq])
      · intro l d stream hd hentry
        by_cases hl : l = k
        · rw [hl, returned, Option.some.injEq] at hd
          exact hd ▸ rfl
        · rw [others l hl] at hd
          rw [table, ExtTreeMap.getElem?_insert] at hentry
          split_ifs at hentry
          · exact absurd (hs.distinct k l c d call hd (Option.some.inj hentry)).symm hl
          · exact hs.winner l d stream hd hentry

/-! ### The entries -/

/-- An entry of a table with a new name. -/
lemma getElem?_insert_cases {m : ExtTreeMap String ℕ} {x : String} {v : ℕ}
    (hh : (m.insert x v)[stream]? = some h) : x = stream ∧ v = h ∨ m[stream]? = some h := by
  by_cases hx : x = stream
  · subst hx
    rw [ExtTreeMap.getElem?_insert_self, Option.some.injEq] at hh
    exact .inl ⟨rfl, hh⟩
  · exact .inr (by simpa [ExtTreeMap.getElem?_insert, hx] using hh)

/-- A new name displaces nothing. -/
lemma getElem?_insert_of_fresh {m : ExtTreeMap String ℕ} {x : String} (hx : x ∉ m) (v : ℕ)
    (hh : m[stream]? = some h) : (m.insert x v)[stream]? = some h := by
  have hne : x ≠ stream := by
    rintro rfl
    rw [ExtTreeMap.getElem?_eq_none hx] at hh
    cases hh
  simpa [ExtTreeMap.getElem?_insert, hne] using hh

/-- **No displacement**, for one step. -/
lemma keeps_of_step (hs : s.Inv) (hst : s.step a = some t) : s.Keeps a t := by
  cases effect_of_step hs.owned hst with
  | quiet table count calls present =>
      constructor
      · exact fun stream h hh => .inl (table ▸ hh)
      · intro stream h hnone hh
        rw [table, hnone] at hh
        cases hh
      · intro stream hc
        rw [table]
        exact ExtTreeMap.isSome_getElem?_iff_mem.mpr (present stream hc)
      · intro k c ok hc hnone hret
        have hon := calls k
        rw [hret] at hon
        obtain ⟨d, hd, hr⟩ := hon.before
        obtain rfl := Option.some.inj (hc.symm.trans hd)
        rcases hr with hr | ⟨-, hr⟩
        · rw [← hr] at hnone
          cases hnone
        · rw [Creation.mk.injEq, Option.some.injEq] at hr
          obtain ⟨-, -, rfl⟩ := hr
          exact table
  | setUp k c action fresh own running table count call others =>
      constructor
      · exact fun stream h hh => .inl (table ▸ hh)
      · intro stream h hnone hh
        rw [table, hnone] at hh
        cases hh
      · exact fun stream hc => absurd hc (action stream)
      · intro l d ok hd hnone hret
        have hl : l ≠ k := by
          rintro rfl
          rw [fresh] at hd
          cases hd
        rw [others l hl, hd, Option.some.injEq] at hret
        rw [hret] at hnone
        cases hnone
  | created stream action fresh table count calls =>
      constructor
      · exact fun _ h hh => .inl (table ▸ getElem?_insert_of_fresh fresh _ hh)
      · intro _ h hnone hh
        rcases getElem?_insert_cases (table ▸ hh) with ⟨rfl, hv⟩ | hold
        · exact .inl ⟨action, hv.symm⟩
        · rw [hnone] at hold
          cases hold
      · rintro stream' (ha | ⟨k, c, ha, -⟩)
        · obtain rfl : stream = stream' := by
            rw [action] at ha
            cases ha
            rfl
          rw [table, ExtTreeMap.getElem?_insert_self]
          rfl
        · rw [action] at ha
          cases k <;> cases ha
      · intro l d ok hd hnone hret
        rw [calls l, hd, Option.some.injEq] at hret
        rw [hret] at hnone
        cases hnone
  | entered k c action call running fresh table count returned others =>
      constructor
      · exact fun _ h hh => .inl (table ▸ getElem?_insert_of_fresh fresh _ hh)
      · intro _ h hnone hh
        rcases getElem?_insert_cases (table ▸ hh) with ⟨rfl, rfl⟩ | hold
        · exact .inr ⟨k, c, action, call, rfl, rfl⟩
        · rw [hnone] at hold
          cases hold
      · rintro stream' (ha | ⟨l, d, ha, hd, rfl⟩)
        · rw [action] at ha
          cases k <;> cases ha
        · obtain rfl := lastStep_injective (action.symm.trans ha)
          obtain rfl := Option.some.inj (call.symm.trans hd)
          rw [table, ExtTreeMap.getElem?_insert_self]
          rfl
      · intro l d ok hd hnone hret
        by_cases hl : l = k
        · subst hl
          obtain rfl := Option.some.inj (call.symm.trans hd)
          rw [returned, Option.some.injEq, Creation.mk.injEq, Option.some.injEq] at hret
          obtain ⟨-, -, rfl⟩ := hret
          exact ⟨ExtTreeMap.getElem?_eq_none fresh, by rw [table, ExtTreeMap.getElem?_insert_self]⟩
        · rw [others l hl, hd, Option.some.injEq] at hret
          rw [hret] at hnone
          cases hnone
  | removed stream removes table count calls =>
      have herase : ∀ stream', t.table[stream']? = s.table[stream']? ∨
          stream = stream' ∧ t.table[stream']? = none := by
        intro stream'
        by_cases hx : stream = stream'
        · exact .inr ⟨hx, by simp [table, hx]⟩
        · exact .inl (by simp [table, ExtTreeMap.getElem?_erase, hx])
      constructor
      · intro stream' h hh
        rcases herase stream' with hsame | ⟨rfl, hnone⟩
        · exact .inl (hsame.trans hh)
        · exact .inr ⟨hnone, removes⟩
      · intro stream' h hnone hh
        rcases herase stream' with hsame | ⟨-, hnone'⟩
        · rw [hsame, hnone] at hh
          cases hh
        · rw [hnone'] at hh
          cases hh
      · intro stream' hc
        exfalso
        rcases hc with rfl | ⟨k, c, rfl, -⟩
        · exact removes
        · cases k <;> exact removes
      · intro l d ok hd hnone hret
        rw [calls l, hd, Option.some.injEq] at hret
        rw [hret] at hnone
        cases hnone

/-! ### Names over runs -/

/-- While no step removes an entry, it stays. -/
lemma entry_of_exec {as : List CreatorAction} (hs : s.Inv) (hst : creatorMachine.exec s as = some t)
    (hok : creatorMachine.Guarded (fun r a => ¬ r.Removes stream a) s as)
    (hh : s.table[stream]? = some h) : t.table[stream]? = some h := by
  have halong := Machine.along_of_guarded (M := creatorMachine)
    (I := fun r : CreatorSystem => r.Inv ∧ r.table[stream]? = some h)
    (Q := fun _ _ r => r.table[stream]? = some h) ?_ ⟨hs, hh⟩ hok
  · exact (show creatorMachine.Always (fun r => r.table[stream]? = some h) s as from
      ⟨hh, halong⟩).of_exec hst
  · rintro r a r' ⟨hr, hh⟩ hok hstep
    rcases (keeps_of_step hr hstep).entry stream h hh with hkeep | ⟨-, hremoves⟩
    · exact ⟨⟨inv_step hr hstep, hkeep⟩, hkeep⟩
    · exact absurd hremoves hok

/-- A call with a forward of its own was the same before a step, or returns in it, or begins. -/
lemma creation_step (hs : s.Inv) (hst : s.step a = some t) {c : Creation}
    (hc : t.creation k = some c) : s.creation k = some c ∨
      (∃ d ok, s.creation k = some d ∧ d.result = none ∧ c = { d with result := some ok }) ∨
      c.result = none := by
  cases effect_of_step hs.owned hst with
  | quiet table count calls present =>
      obtain ⟨d, hd, rfl | ⟨hnone, rfl⟩⟩ := Creation.GoesOn.before (hc ▸ calls k)
      · exact .inl hd
      · exact .inr (.inl ⟨d, false, hd, hnone, rfl⟩)
  | setUp l d action fresh own running table count call others =>
      by_cases hk : k = l
      · rw [hk, call, Option.some.injEq] at hc
        exact .inr (.inr (hc ▸ running))
      · exact .inl (others k hk ▸ hc)
  | created stream action fresh table count calls => exact .inl (calls k ▸ hc)
  | entered l d action call running fresh table count returned others =>
      by_cases hk : k = l
      · rw [hk, returned, Option.some.injEq] at hc
        exact .inr (.inl ⟨d, true, hk ▸ call, running, hc.symm⟩)
      · exact .inl (others k hk ▸ hc)
  | removed stream removes table count calls => exact .inl (calls k ▸ hc)

/-- The calls that have returned since a state in which the name had no entry, with success,
have their forward entered. -/
def Since (s : CreatorSystem) (stream : String) (t : CreatorSystem) : Prop :=
  ∀ (k : CallId) (c : Creation), t.creation k = some c → c.stream = stream →
    c.result = some true → (∀ d, s.creation k = some d → d.result = none) →
      s.table[stream]? = none ∧ t.table[stream]? = some c.forward

/-- A call that returns success enters its forward, and the entry stays. -/
lemma since_step {r : CreatorSystem} (hs : s.Inv) (hin : r.Since stream s)
    (hkept : ∀ h : ℕ, r.table[stream]? = some h → s.table[stream]? = some h)
    (hok : ¬ s.Removes stream a) (hst : s.step a = some t) : r.Since stream t := by
  have hkeeps := keeps_of_step hs hst
  intro k c hc hstream hresult hrunning
  rcases creation_step hs hst hc with hold | ⟨d, ok, hd, hnone, rfl⟩ | hnone
  · obtain ⟨hnone, hentry⟩ := hin k c hold hstream hresult hrunning
    rcases hkeeps.entry stream _ hentry with hkeep | ⟨-, hremoves⟩
    · exact ⟨hnone, hkeep⟩
    · exact absurd hremoves hok
  · -- it returns in this step, and there has been no entry until now
    obtain rfl : ok = true := Option.some.inj hresult
    obtain ⟨hempty, hentry⟩ := hkeeps.returned k d true hd hnone hc
    refine ⟨?_, hstream ▸ hentry⟩
    cases hr : r.table[stream]? with
    | none => rfl
    | some h =>
        rw [hstream] at hempty
        rw [hkept h hr] at hempty
        cases hempty
  · rw [hnone] at hresult
    cases hresult

/-- The same along a run in which no step removes the entry. -/
lemma since_of_exec {as : List CreatorAction} (hs : s.Inv)
    (hst : creatorMachine.exec s as = some t)
    (hok : creatorMachine.Guarded (fun r a => ¬ r.Removes stream a) s as) : s.Since stream t := by
  have hinit : s.Since stream s := by
    intro k c hc _ hresult hrunning
    rw [hrunning c hc] at hresult
    cases hresult
  have halong := Machine.along_of_guarded (M := creatorMachine)
    (I := fun r : CreatorSystem => r.Inv ∧ s.Since stream r ∧
      ∀ h : ℕ, s.table[stream]? = some h → r.table[stream]? = some h)
    (Q := fun _ _ r => s.Since stream r) ?_ ⟨hs, hinit, fun h hh => hh⟩ hok
  · exact (show creatorMachine.Always (s.Since stream) s as from ⟨hinit, halong⟩).of_exec hst
  · rintro r a r' ⟨hr, hin, hkept⟩ hok hstep
    have hsince := since_step hr hin hkept hok hstep
    refine ⟨⟨inv_step hr hstep, hsince, fun h hh => ?_⟩, hsince⟩
    rcases (keeps_of_step hr hstep).entry stream h (hkept h hh) with hkeep | ⟨-, hremoves⟩
    · exact hkeep
    · exact absurd hremoves hok

/-- **At most one insertion**: while no step removes an entry, a name that had none is given at
most one, and a name that had one is given none. -/
lemma insertions_eq {as : List CreatorAction} (hs : s.Inv)
    (hst : creatorMachine.exec s as = some t)
    (hok : creatorMachine.Guarded (fun r a => ¬ r.Removes stream a) s as) :
    insertions stream s as =
      if s.table[stream]? = none ∧ (t.table[stream]?).isSome then 1 else 0 := by
  induction as generalizing s with
  | nil =>
      rw [Machine.exec_nil, Option.some.injEq] at hst
      subst hst
      rw [insertions, if_neg]
      rintro ⟨hnone, hsome⟩
      rw [hnone] at hsome
      cases hsome
  | cons a as ih =>
      obtain ⟨r, hr, hst⟩ := Option.bind_eq_some_iff.mp hst
      have hok' := hok r hr
      have hrest := ih (inv_step hs hr) hst hok'.2
      have hstep : s.step a = some r := hr
      simp only [insertions, hstep, hrest]
      cases hentry : s.table[stream]? with
      | some h =>
          have hkeep : r.table[stream]? = some h := by
            rcases (keeps_of_step hs hr).entry stream h hentry with hkeep | ⟨-, hremoves⟩
            · exact hkeep
            · exact absurd hremoves hok'.1
          simp [hkeep]
      | none =>
          cases hnext : r.table[stream]? with
          | some h =>
              have hlast := entry_of_exec (inv_step hs hr) hst hok'.2 hnext
              simp [hlast]
          | none => simp

/-- While no step removes an entry and some creator completes, there is an entry at the end. -/
lemma isSome_of_completes {as : List CreatorAction} (hs : s.Inv)
    (hst : creatorMachine.exec s as = some t)
    (hok : creatorMachine.Guarded (fun r a => ¬ r.Removes stream a) s as)
    (hsome : ¬ creatorMachine.Guarded (fun r a => ¬ r.Completes a stream) s as) :
    (t.table[stream]?).isSome := by
  by_contra hnone
  apply hsome
  clear hsome
  induction as generalizing s with
  | nil => trivial
  | cons a as ih =>
      intro r hr
      obtain ⟨r', hr', hst⟩ := Option.bind_eq_some_iff.mp hst
      obtain rfl := Option.some.inj (hr.symm.trans hr')
      have hrest := hok r hr
      refine ⟨fun hc => hnone ?_, ih (inv_step hs hr) hst hrest.2⟩
      obtain ⟨h, hh⟩ := Option.isSome_iff_exists.mp ((keeps_of_step hs hr).completed stream hc)
      rw [entry_of_exec (inv_step hs hr) hst hrest.2 hh]
      rfl

/-- What has come of a name after a run in which no step removes its entry. -/
lemma settled_of_exec {as : List CreatorAction} (hs : s.Inv)
    (hst : creatorMachine.exec s as = some t)
    (hok : creatorMachine.Guarded (fun r a => ¬ r.Removes stream a) s as) :
    s.Settled stream as t := by
  have ht : t.Inv := Machine.invariant_exec (I := Inv) (fun r a r' hr => inv_step hr) hs hst
  have hcount := insertions_eq hs hst hok
  constructor
  · intro h hh
    refine ⟨entry_of_exec hs hst hok hh, hcount.trans (if_neg ?_)⟩
    rw [hh]
    simp
  · intro hnone hsome
    have hentry := isSome_of_completes hs hst hok hsome
    exact ⟨hcount.trans (if_pos ⟨hnone, hentry⟩), hentry⟩
  · intro k c ok hc hstream hresult hrunning
    constructor
    · rintro rfl
      exact since_of_exec hs hst hok k c hc hstream hresult hrunning
    · rintro ⟨-, hentry⟩
      have hwin := ht.winner k c stream hc hentry
      rw [hresult, Option.some.injEq] at hwin
      exact hwin
  · exact ht.distinct

/-- **No displacement**: in every run every step keeps the entries of the table; and in every
stretch of a run in which no step removes the entry of a name, an entry stays, and of the
creators that complete where there is none exactly one enters its forward, while every other
call with a forward of its own that returns, returns an error. -/
theorem creators_sound {s : CreatorSystem} (h0 : creatorMachine.init s) :
    (∀ as, creatorMachine.Along Keeps s as) ∧
      ∀ (stream : String) (as bs : List CreatorAction) (t u : CreatorSystem),
        creatorMachine.exec s as = some t → creatorMachine.exec t bs = some u →
          creatorMachine.Guarded (fun r a => ¬ r.Removes stream a) t bs →
            t.Settled stream bs u := by
  constructor
  · exact Machine.along_of_invariant
      (fun r a t hr hst => ⟨inv_step hr hst, keeps_of_step hr hst⟩) (inv_init h0)
  · intro stream as bs t u hst htu hok
    have ht : t.Inv :=
      Machine.invariant_exec (I := Inv) (fun r a r' hr => inv_step hr) (inv_init h0) hst
    exact settled_of_exec ht htu hok

/-- A room without streams. -/
def vacant : CreatorSystem := ⟨.unused, [], .idle⟩

/-- A stream is created and deleted. -/
def createAndDelete : List CreatorAction :=
  [.publish (.create "stream"), .delete "stream", .shut, .remove]

/-- A publisher and a virtual publisher build forwards for the stream, the virtual one enters its
own, and the publisher finds it. -/
def race : List CreatorAction :=
  (PublishSystem.negotiates 0 "stream").map .publish ++ [.begin "stream", .generate 0 (.ok ())] ++
    [.publish (.fill 0), .publish (.reset 0), .finish 0, .publish (.finish 0)]

/-- A stream that has been deleted is created again by one of two. -/
theorem creators_vacant : (∀ as, creatorMachine.Along Keeps vacant as) ∧
    ∃ t u, creatorMachine.exec vacant createAndDelete = some t ∧
      creatorMachine.exec t race = some u ∧ t.Settled "stream" race u :=
  have hsound := creators_sound (s := vacant) ⟨PublishSystem.init_unused, rfl, rfl⟩
  ⟨hsound.1, _, _, rfl, rfl, hsound.2 "stream" createAndDelete race _ _ rfl rfl (by decide)⟩

end CreatorSystem

end SfuServer
