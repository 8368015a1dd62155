import SfuServer.Rtc.Publish
import SfuServer.Rtc.Subscribe

/-!
The publisher of one stream, `PeerForward::set_publish` of `src/forward/rtc/mod.rs` with the
callbacks of its connection, over runs.

A call tests the slot twice before it negotiates, under a lock whose guard is dropped at once,
and a third time under the lock of the slot.  When a connection has closed, its callback runs
`remove_publish`, which empties the slot, clears the tracks and writes the leave time in three
critical sections; and each track of a connection is added by a task of its own.

* `PeerForwardSystem`, `PeerForwardAction`, `peerForwardMachine`: the slot, the tracks, the
  leave time, the calls and the tasks, and what can happen to them;
* `spec_of_step`: who changes what;
* `single_publisher`: the slot goes from empty to the connection of a call that returns with
  success and back by the end of that connection, and calls that fail change nothing;
* `tracksOwned_iff`: the tracks are those of the publisher exactly in runs where the last
  task in flight finds its publisher in the slot, and no publisher goes before its tracks.
-/

namespace SfuServer

/-- The stages of `remove_publish` in the callback of a connection that has closed: the slot,
the tracks and the leave time are written one after the other. -/
inductive RemoveStage where
  | idle
  | cleared
  | swept
  | done
  deriving DecidableEq, Repr

/-- A call of `PeerForward::set_publish`, with the connection that it sets up, which bears
the number of the call, and the callback for its end. -/
structure SetPublishCall where
  stage : PublishStage
  peer : Bool
  closed : Bool
  leave : RemoveStage

/-- A track and the connection that announced it, which the program itself does not keep. -/
structure AnnouncedTrack where
  peer : ℕ
  track : PublishTrackRemote
  deriving DecidableEq, Repr

/-- A stream over time: the slot, the tracks and the leave time of its publisher, the calls
so far, and the tasks in which `publish_track_up` is still to run. -/
structure PeerForwardSystem where
  publish : Option ℕ
  publishTracks : List AnnouncedTrack
  publishLeaveTime : ℤ
  clock : ℤ
  calls : List SetPublishCall
  tasks : List AnnouncedTrack

/-- What can happen: time passes, a call begins or takes its next step, a connection closes,
its callback takes its next step, a connection announces a track, and the task of an
announced track runs. -/
inductive PeerForwardAction where
  | elapse (ms : ℕ)
  | begin
  | check (i : ℕ)
  | recheck (i : ℕ)
  | negotiate (i : ℕ) (outcome : Except AppError Unit)
  | fill (i : ℕ) (created : Except AppError Unit)
  | reset (i : ℕ)
  | finish (i : ℕ)
  | close (i : ℕ)
  | clear (i : ℕ)
  | clearTracks (i : ℕ)
  | stamp (i : ℕ)
  | onTrack (i : ℕ) (track : PublishTrackRemote)
  | trackUp (j : ℕ)

namespace PeerForwardSystem

/-- A change of a call. -/
def setCall (s : PeerForwardSystem) (i : ℕ) (c : SetPublishCall) : PeerForwardSystem :=
  { s with calls := s.calls.set i c }

/-- A step that the call `i`, its connection or its callback takes under a condition. -/
def onCall (s : PeerForwardSystem) (i : ℕ) (p : SetPublishCall → Prop) [DecidablePred p]
    (u : SetPublishCall → PeerForwardSystem) : Option PeerForwardSystem :=
  s.calls[i]?.bind fun c => if p c then some (u c) else none

/-- The call returns an error. -/
def fail (s : PeerForwardSystem) (i : ℕ) (c : SetPublishCall) (e : AppError) :
    PeerForwardSystem :=
  s.setCall i { c with stage := .returned (.error e) }

/-- The first test of `PeerForward::set_publish`. -/
def checkStep (s : PeerForwardSystem) (i : ℕ) : Option PeerForwardSystem :=
  s.onCall i (fun c => c.stage = .checking) fun c =>
    if s.publish.isSome then s.fail i c Forwarder.alreadyEstablished
    else s.setCall i { c with stage := .rechecking }

/-- The second test, after which the connection is set up. -/
def recheckStep (s : PeerForwardSystem) (i : ℕ) : Option PeerForwardSystem :=
  s.onCall i (fun c => c.stage = .rechecking) fun c =>
    if s.publish.isSome then s.fail i c Forwarder.alreadyEstablished
    else s.setCall i { c with stage := .negotiating, peer := true }

/-- The negotiation with the connection ends. -/
def negotiateStep (s : PeerForwardSystem) (i : ℕ) (outcome : Except AppError Unit) :
    Option PeerForwardSystem :=
  s.onCall i (fun c => c.stage = .negotiating) fun c =>
    match outcome with
    | .error e => s.fail i c e
    | .ok () => s.setCall i { c with stage := .setting }

/-- The first section of `PeerForwardInternal::set_publish`: the third test, under the lock of
the slot, and the slot is filled unless `PublishRTCPeerConnection::new` fails. -/
def fillStep (s : PeerForwardSystem) (i : ℕ) (created : Except AppError Unit) :
    Option PeerForwardSystem :=
  s.onCall i (fun c => c.stage = .setting) fun c =>
    if s.publish.isSome then s.fail i c Forwarder.alreadyEstablished
    else
      match created with
      | .error e => s.fail i c e
      | .ok () => { s with publish := some i }.setCall i { c with stage := .resetting }

/-- The second section of `PeerForwardInternal::set_publish`. -/
def resetStep (s : PeerForwardSystem) (i : ℕ) : Option PeerForwardSystem :=
  s.onCall i (fun c => c.stage = .resetting) fun c =>
    { s with publishLeaveTime := 0 }.setCall i { c with stage := .finishing }

/-- The event is sent, and the call returns. -/
def finishStep (s : PeerForwardSystem) (i : ℕ) : Option PeerForwardSystem :=
  s.onCall i (fun c => c.stage = .finishing) fun c =>
    s.setCall i { c with stage := .returned (.ok ()) }

/-- The connection of the call closes or fails. -/
def closeStep (s : PeerForwardSystem) (i : ℕ) : Option PeerForwardSystem :=
  s.onCall i (fun c => c.peer = true ∧ c.closed = false) fun c =>
    s.setCall i { c with closed := true }

/-- The first section of `remove_publish`, in the callback of a connection that has closed. -/
def clearStep (s : PeerForwardSystem) (i : ℕ) : Option PeerForwardSystem :=
  s.onCall i (fun c => c.closed = true ∧ c.leave = .idle) fun c =>
    -- an empty slot, or that of another connection, is an error that the callback ignores
    if s.publish = some i then
      { s with publish := none }.setCall i { c with leave := .cleared }
    else s.setCall i { c with leave := .done }

/-- The second section of `remove_publish`. -/
def clearTracksStep (s : PeerForwardSystem) (i : ℕ) : Option PeerForwardSystem :=
  s.onCall i (fun c => c.leave = .cleared) fun c =>
    { s with publishTracks := [] }.setCall i { c with leave := .swept }

/-- The section of `remove_publish` that writes the leave time. -/
def stampStep (s : PeerForwardSystem) (i : ℕ) : Option PeerForwardSystem :=
  s.onCall i (fun c => c.leave = .swept) fun c =>
    { s with publishLeaveTime := s.clock }.setCall i { c with leave := .done }

/-- The callback for a track of the connection, which spawns a task.  A connection carries
media once its client has the answer, which a call hands out when it returns with success. -/
def onTrackStep (s : PeerForwardSystem) (i : ℕ) (track : PublishTrackRemote) :
    Option PeerForwardSystem :=
  s.onCall i (fun c => c.stage = .returned (.ok ()) ∧ c.closed = false) fun _ =>
    { s with tasks := s.tasks ++ [⟨i, track⟩] }

/-- The task of a track: `publish_track_up`. -/
def trackUpStep (s : PeerForwardSystem) (j : ℕ) : Option PeerForwardSystem :=
  s.tasks[j]?.map fun x =>
    { s with
      publishTracks :=
        (s.publishTracks ++ [x]).insertionSort fun a b => a.track.rid ≤ b.track.rid
      tasks := s.tasks.eraseIdx j }

/-- One step of the stream. -/
def step (s : PeerForwardSystem) : PeerForwardAction → Option PeerForwardSystem
  | .elapse ms => some { s with clock := s.clock + ms }
  | .begin => some { s with calls := s.calls ++ [⟨.checking, false, false, .idle⟩] }
  | .check i => s.checkStep i
  | .recheck i => s.recheckStep i
  | .negotiate i outcome => s.negotiateStep i outcome
  | .fill i created => s.fillStep i created
  | .reset i => s.resetStep i
  | .finish i => s.finishStep i
  | .close i => s.closeStep i
  | .clear i => s.clearStep i
  | .clearTracks i => s.clearTracksStep i
  | .stamp i => s.stampStep i
  | .onTrack i track => s.onTrackStep i track
  | .trackUp j => s.trackUpStep j

end PeerForwardSystem

/-- The machine of a stream: nobody has published, at any time. -/
def peerForwardMachine : Machine PeerForwardSystem PeerForwardAction where
  init s := s.publish = none ∧ s.publishTracks = [] ∧ s.publishLeaveTime = 0 ∧ s.calls = [] ∧
    s.tasks = []
  step := PeerForwardSystem.step

namespace PeerForwardSystem

variable {r s t u : PeerForwardSystem} {a : PeerForwardAction} {i j p : ℕ}

lemma onCall_eq_some_iff {q : SetPublishCall → Prop} [DecidablePred q]
    {v : SetPublishCall → PeerForwardSystem} :
    s.onCall i q v = some t ↔ ∃ c, s.calls[i]? = some c ∧ q c ∧ v c = t := by
  simp only [onCall, Option.bind_eq_some_iff, Option.ite_none_right_eq_some, Option.some.injEq]

/-! ### What a step does -/

/-- What a step does to the slot, the tracks, the leave time and the tasks. -/
inductive Effect (s : PeerForwardSystem) : PeerForwardAction → PeerForwardSystem → Prop
  | quiet {a : PeerForwardAction} {t : PeerForwardSystem} (publish : t.publish = s.publish)
      (tracks : t.publishTracks = s.publishTracks)
      (leaveTime : t.publishLeaveTime = s.publishLeaveTime) (tasks : t.tasks = s.tasks) :
      Effect s a t
  | filled {i : ℕ} {t : PeerForwardSystem} (empty : s.publish = none)
      (publish : t.publish = some i) (tracks : t.publishTracks = s.publishTracks)
      (tasks : t.tasks = s.tasks) : Effect s (.fill i (.ok ())) t
  | reset {i : ℕ} {c : SetPublishCall} {t : PeerForwardSystem} (call : s.calls[i]? = some c)
      (stage : c.stage = .resetting) (publish : t.publish = s.publish)
      (tracks : t.publishTracks = s.publishTracks) (tasks : t.tasks = s.tasks) :
      Effect s (.reset i) t
  | cleared {i : ℕ} {c : SetPublishCall} {t : PeerForwardSystem} (call : s.calls[i]? = some c)
      (closed : c.closed = true) (own : s.publish = some i) (publish : t.publish = none)
      (tracks : t.publishTracks = s.publishTracks) (tasks : t.tasks = s.tasks) :
      Effect s (.clear i) t
  | swept {i : ℕ} {c : SetPublishCall} {t : PeerForwardSystem} (call : s.calls[i]? = some c)
      (leave : c.leave = .cleared) (publish : t.publish = s.publish)
      (tracks : t.publishTracks = []) (tasks : t.tasks = s.tasks) : Effect s (.clearTracks i) t
  | stamped {i : ℕ} {c : SetPublishCall} {t : PeerForwardSystem} (call : s.calls[i]? = some c)
      (leave : c.leave = .swept) (publish : t.publish = s.publish)
      (tracks : t.publishTracks = s.publishTracks) (tasks : t.tasks = s.tasks) :
      Effect s (.stamp i) t
  | announced {i : ℕ} {c : SetPublishCall} {track : PublishTrackRemote} {t : PeerForwardSystem}
      (call : s.calls[i]? = some c) (stage : c.stage = .returned (.ok ()))
      (publish : t.publish = s.publish) (tracks : t.publishTracks = s.publishTracks)
      (leaveTime : t.publishLeaveTime = s.publishLeaveTime)
      (tasks : t.tasks = s.tasks ++ [⟨i, track⟩]) : Effect s (.onTrack i track) t
  | trackUp {j : ℕ} {x : AnnouncedTrack} {t : PeerForwardSystem} (task : s.tasks[j]? = some x)
      (publish : t.publish = s.publish)
      (tracks : ∀ y, y ∈ t.publishTracks ↔ y ∈ s.publishTracks ∨ y = x)
      (tasks : t.tasks = s.tasks.eraseIdx j) : Effect s (.trackUp j) t

/-- How a step of the call `i`, of its connection or of its callback changes it. -/
inductive Move (s : PeerForwardSystem) : PeerForwardAction → ℕ → SetPublishCall →
    SetPublishCall → Prop
  | early {a : PeerForwardAction} {i : ℕ} {c : SetPublishCall} (peer : Bool)
      {stage : PublishStage} (before : c.stage.Early)
      (running : ∀ result, c.stage ≠ .returned result) (after : stage.Early) :
      Move s a i c { c with stage := stage, peer := peer }
  | filled {i : ℕ} {c : SetPublishCall} (before : c.stage = .setting) :
      Move s (.fill i (.ok ())) i c { c with stage := .resetting }
  | reset {i : ℕ} {c : SetPublishCall} (before : c.stage = .resetting) :
      Move s (.reset i) i c { c with stage := .finishing }
  | returned {i : ℕ} {c : SetPublishCall} (before : c.stage = .finishing) :
      Move s (.finish i) i c { c with stage := .returned (.ok ()) }
  | closed {i : ℕ} {c : SetPublishCall} : Move s (.close i) i c { c with closed := true }
  | cleared {i : ℕ} {c : SetPublishCall} (own : s.publish = some i) :
      Move s (.clear i) i c { c with leave := .cleared }
  | swept {i : ℕ} {c : SetPublishCall} (before : c.leave = .cleared) :
      Move s (.clearTracks i) i c { c with leave := .swept }
  | done {a : PeerForwardAction} {i : ℕ} {c : SetPublishCall} :
      Move s a i c { c with leave := .done }

/-- What a step does to the parts of the state; of the calls, none moves, one of them, or a
new one begins. -/
structure StepSpec (s : PeerForwardSystem) (a : PeerForwardAction) (t : PeerForwardSystem) :
    Prop where
  effect : s.Effect a t
  calls : t.calls = s.calls ∨
    (∃ i c c', s.calls[i]? = some c ∧ s.Move a i c c' ∧ t.calls = s.calls.set i c') ∨
    t.calls = s.calls ++ [⟨.checking, false, false, .idle⟩]

/-- A step that only moves a call. -/
lemma spec_setCall {c c' : SetPublishCall} (hc : s.calls[i]? = some c) (hm : s.Move a i c c') :
    s.StepSpec a (s.setCall i c') :=
  ⟨.quiet rfl rfl rfl rfl, .inr (.inl ⟨i, c, c', hc, hm, rfl⟩)⟩

/-- **What a step does**: the one case distinction over the actions. -/
lemma spec_of_step (hst : s.step a = some t) : s.StepSpec a t := by
  cases a with
  | elapse ms =>
      cases hst
      exact ⟨.quiet rfl rfl rfl rfl, .inl rfl⟩
  | begin =>
      cases hst
      exact ⟨.quiet rfl rfl rfl rfl, .inr (.inr rfl)⟩
  | check i =>
      obtain ⟨c, hc, hstage, rfl⟩ := onCall_eq_some_iff.mp hst
      have hbefore : c.stage.Early := hstage ▸ trivial
      split_ifs <;> exact spec_setCall hc (.early c.peer hbefore (by simp [hstage]) (by trivial))
  | recheck i =>
      obtain ⟨c, hc, hstage, rfl⟩ := onCall_eq_some_iff.mp hst
      have hbefore : c.stage.Early := hstage ▸ trivial
      split_ifs <;> exact spec_setCall hc (.early _ hbefore (by simp [hstage]) (by trivial))
  | negotiate i outcome =>
      obtain ⟨c, hc, hstage, rfl⟩ := onCall_eq_some_iff.mp hst
      have hbefore : c.stage.Early := hstage ▸ trivial
      cases outcome <;>
        exact spec_setCall hc (.early c.peer hbefore (by simp [hstage]) (by trivial))
  | fill i created =>
      obtain ⟨c, hc, hstage, rfl⟩ := onCall_eq_some_iff.mp hst
      have hbefore : c.stage.Early := hstage ▸ trivial
      split_ifs with hslot
      · exact spec_setCall hc (.early c.peer hbefore (by simp [hstage]) (by trivial))
      · cases created with
        | error e => exact spec_setCall hc (.early c.peer hbefore (by simp [hstage]) (by trivial))
        | ok =>
            exact ⟨.filled (Option.not_isSome_iff_eq_none.mp hslot) rfl rfl rfl,
              .inr (.inl ⟨i, c, _, hc, .filled hstage, rfl⟩)⟩
  | reset i =>
      obtain ⟨c, hc, hstage, rfl⟩ := onCall_eq_some_iff.mp hst
      exact ⟨.reset hc hstage rfl rfl rfl, .inr (.inl ⟨i, c, _, hc, .reset hstage, rfl⟩)⟩
  | finish i =>
      obtain ⟨c, hc, hstage, rfl⟩ := onCall_eq_some_iff.mp hst
      exact spec_setCall hc (.returned hstage)
  | close i =>
      obtain ⟨c, hc, -, rfl⟩ := onCall_eq_some_iff.mp hst
      exact spec_setCall hc .closed
  | clear i =>
      obtain ⟨c, hc, ⟨hclosed, -⟩, rfl⟩ := onCall_eq_some_iff.mp hst
      split_ifs with hslot
      · exact ⟨.cleared hc hclosed hslot rfl rfl rfl,
          .inr (.inl ⟨i, c, _, hc, .cleared hslot, rfl⟩)⟩
      · exact spec_setCall hc .done
  | clearTracks i =>
      obtain ⟨c, hc, hleave, rfl⟩ := onCall_eq_some_iff.mp hst
      exact ⟨.swept hc hleave rfl rfl rfl, .inr (.inl ⟨i, c, _, hc, .swept hleave, rfl⟩)⟩
  | stamp i =>
      obtain ⟨c, hc, hleave, rfl⟩ := onCall_eq_some_iff.mp hst
      exact ⟨.stamped hc hleave rfl rfl rfl, .inr (.inl ⟨i, c, _, hc, .done, rfl⟩)⟩
  | onTrack i track =>
      obtain ⟨c, hc, ⟨hstage, -⟩, rfl⟩ := onCall_eq_some_iff.mp hst
      exact ⟨.announced hc hstage rfl rfl rfl rfl, .inl rfl⟩
  | trackUp j =>
      obtain ⟨x, hx, rfl⟩ := Option.map_eq_some_iff.mp hst
      refine ⟨.trackUp hx rfl (fun y => ?_) rfl, .inl rfl⟩
      simp [List.mem_insertionSort]

/-! ### The calls -/

/-- The call has filled the slot: it has returned with success, or is about to. -/
def Accepted (s : PeerForwardSystem) (i : ℕ) : Prop :=
  ∃ c, s.calls[i]? = some c ∧ ¬ c.stage.Early

/-- What the call has returned. -/
def result (s : PeerForwardSystem) (i : ℕ) : Option (Except AppError Unit) :=
  s.calls[i]?.bind fun c =>
    match c.stage with
    | .returned result => some result
    | .checking | .rechecking | .negotiating | .setting | .resetting | .finishing => none

lemma result_eq_some_iff {x : Except AppError Unit} :
    s.result i = some x ↔ ∃ c, s.calls[i]? = some c ∧ c.stage = .returned x := by
  rw [result, Option.bind_eq_some_iff]
  refine exists_congr fun c => and_congr_right fun _ => ?_
  cases c.stage <;> simp

/-- A call that has filled the slot does not fail. -/
lemma Accepted.result_ne_error (h : s.Accepted i) (e : AppError) :
    s.result i ≠ some (.error e) := by
  intro hresult
  obtain ⟨c, hc, hearly⟩ := h
  obtain ⟨c', hc', hstage⟩ := result_eq_some_iff.mp hresult
  obtain rfl := Option.some.inj (hc.symm.trans hc')
  exact hearly (hstage ▸ trivial)

/-- A move keeps what a call has returned, and that it has filled the slot. -/
lemma Move.keeps {c c' : SetPublishCall} (hm : s.Move a i c c') :
    (¬ c.stage.Early → ¬ c'.stage.Early) ∧
      ∀ x, c.stage = .returned x → c'.stage = .returned x := by
  cases hm with
  | early peer before running after =>
      exact ⟨fun h => absurd before h, fun x hx => absurd hx (running x)⟩
  | filled before => exact ⟨fun _ => id, fun x hx => by simp [before] at hx⟩
  | reset before => exact ⟨fun _ => id, fun x hx => by simp [before] at hx⟩
  | returned before => exact ⟨fun _ => id, fun x hx => by simp [before] at hx⟩
  | closed => exact ⟨id, fun _ => id⟩
  | cleared own => exact ⟨id, fun _ => id⟩
  | swept before => exact ⟨id, fun _ => id⟩
  | done => exact ⟨id, fun _ => id⟩

/-- What becomes of a call in a step. -/
lemma call_step (hst : s.step a = some t) {c : SetPublishCall} (hc : s.calls[i]? = some c) :
    ∃ c', t.calls[i]? = some c' ∧ (c' = c ∨ s.Move a i c c') := by
  rcases (spec_of_step hst).calls with h | ⟨k, d, d', hd, hm, h⟩ | h
  · exact ⟨c, h ▸ hc, .inl rfl⟩
  · by_cases hk : k = i
    · subst hk
      obtain rfl := Option.some.inj (hc.symm.trans hd)
      exact ⟨d', by rw [h, List.getElem?_set_self (List.getElem?_eq_some_iff.mp hc).1],
        .inr hm⟩
    · exact ⟨c, by rw [h, List.getElem?_set_ne hk]; exact hc, .inl rfl⟩
  · exact ⟨c, by rw [h, List.getElem?_append_left (List.getElem?_eq_some_iff.mp hc).1]; exact hc,
      .inl rfl⟩

/-- Where a call in a state after a step comes from. -/
lemma call_of_step (hst : s.step a = some t) {c' : SetPublishCall}
    (hc' : t.calls[i]? = some c') :
    c' = ⟨.checking, false, false, .idle⟩ ∨
      ∃ c, s.calls[i]? = some c ∧ (c' = c ∨ s.Move a i c c') := by
  cases hc : s.calls[i]? with
  | some c =>
      obtain ⟨d, hd, hm⟩ := call_step hst hc
      obtain rfl := Option.some.inj (hc'.symm.trans hd)
      exact .inr ⟨c, rfl, hm⟩
  | none =>
      have hlen := List.getElem?_eq_none_iff.mp hc
      rcases (spec_of_step hst).calls with h | ⟨k, d, d', -, -, h⟩ | h
      · rw [h, hc] at hc'
        cases hc'
      · rw [h, List.getElem?_eq_none (by rw [List.length_set]; exact hlen)] at hc'
        cases hc'
      · rw [h, List.getElem?_append_right hlen] at hc'
        exact .inl (List.mem_singleton.mp (List.mem_of_getElem? hc'))

lemma Accepted.step (h : s.Accepted i) (hst : s.step a = some t) : t.Accepted i := by
  obtain ⟨c, hc, hearly⟩ := h
  obtain ⟨c', hc', rfl | hm⟩ := call_step hst hc
  · exact ⟨c', hc', hearly⟩
  · exact ⟨c', hc', hm.keeps.1 hearly⟩

lemma Accepted.exec {as : List PeerForwardAction} (h : s.Accepted i)
    (hst : peerForwardMachine.exec s as = some t) : t.Accepted i :=
  Machine.invariant_exec (I := fun s => Accepted s i) (fun _ _ _ hs hst => hs.step hst) h hst

lemma result_exec {as : List PeerForwardAction} {x : Except AppError Unit}
    (h : s.result i = some x) (hst : peerForwardMachine.exec s as = some t) :
    t.result i = some x := by
  refine Machine.invariant_exec (I := fun s => result s i = some x) (fun r a t hr hst => ?_) h hst
  obtain ⟨c, hc, hstage⟩ := result_eq_some_iff.mp hr
  obtain ⟨c', hc', rfl | hm⟩ := call_step hst hc
  · exact result_eq_some_iff.mpr ⟨c', hc', hstage⟩
  · exact result_eq_some_iff.mpr ⟨c', hc', hm.keeps.2 x hstage⟩

/-- A call that has filled the slot can go on until it returns with success. -/
lemma Accepted.exists_exec (h : s.Accepted i) :
    ∃ as t, peerForwardMachine.exec s as = some t ∧ t.result i = some (.ok ()) := by
  obtain ⟨c, hc, hearly⟩ := h
  have hlt := (List.getElem?_eq_some_iff.mp hc).1
  have hfinish : ∀ (r : PeerForwardSystem) (d : SetPublishCall), r.calls[i]? = some d →
      d.stage = .finishing →
      ∃ t, r.step (.finish i) = some t ∧ t.result i = some (.ok ()) := by
    intro r d hd hstage
    refine ⟨_, onCall_eq_some_iff.mpr ⟨d, hd, hstage, rfl⟩, result_eq_some_iff.mpr ?_⟩
    exact ⟨_, List.getElem?_set_self (List.getElem?_eq_some_iff.mp hd).1, rfl⟩
  cases hstage : c.stage with
  | resetting =>
      have hreset : s.step (.reset i) = some ({ s with publishLeaveTime := 0 }.setCall i
          { c with stage := .finishing }) := onCall_eq_some_iff.mpr ⟨c, hc, hstage, rfl⟩
      obtain ⟨t, hst, ht⟩ := hfinish ({ s with publishLeaveTime := 0 }.setCall i
        { c with stage := .finishing }) _ (List.getElem?_set_self hlt) rfl
      exact ⟨[.reset i, .finish i], t, Machine.exec_step hreset (Machine.exec_step hst rfl), ht⟩
  | finishing =>
      obtain ⟨t, hst, ht⟩ := hfinish s c hc hstage
      exact ⟨[.finish i], t, Machine.exec_step hst rfl, ht⟩
  | returned result =>
      cases result with
      | ok => exact ⟨[], s, rfl, result_eq_some_iff.mpr ⟨c, hc, hstage⟩⟩
      | error e => exact absurd (hstage ▸ trivial) hearly
  | checking => exact absurd (hstage ▸ trivial) hearly
  | rechecking => exact absurd (hstage ▸ trivial) hearly
  | negotiating => exact absurd (hstage ▸ trivial) hearly
  | setting => exact absurd (hstage ▸ trivial) hearly

/-! ### Single publisher -/

/-- The occupant of the slot has been accepted, and so have the connections whose callback
has emptied it and those that announce tracks. -/
structure Wf (s : PeerForwardSystem) : Prop where
  occupant : ∀ i, s.publish = some i → s.Accepted i
  leaving : ∀ i c, s.calls[i]? = some c → c.leave = .cleared ∨ c.leave = .swept → s.Accepted i
  tasks : ∀ x ∈ s.tasks, s.Accepted x.peer

lemma wf_init (h0 : peerForwardMachine.init s) : s.Wf := by
  obtain ⟨hpublish, -, -, hcalls, htasks⟩ := h0
  exact ⟨by simp [hpublish], by simp [hcalls], by simp [htasks]⟩

lemma wf_step (hs : s.Wf) (hst : s.step a = some t) : t.Wf where
  occupant := by
    have hold : ∀ k, s.publish = some k → t.Accepted k := fun k hk => (hs.occupant k hk).step hst
    intro k hk
    cases (spec_of_step hst).effect with
    | quiet publish | reset _ _ publish | swept _ _ publish | stamped _ _ publish
    | announced _ _ publish | trackUp _ publish => exact hold k (publish ▸ hk)
    | cleared _ _ _ publish =>
        rw [publish] at hk
        cases hk
    | filled empty publish =>
        obtain rfl := Option.some.inj (publish.symm.trans hk)
        obtain ⟨c, hc, -, rfl⟩ := onCall_eq_some_iff.mp hst
        rw [if_neg (by simp [empty])]
        exact ⟨{ c with stage := .resetting },
          List.getElem?_set_self (List.getElem?_eq_some_iff.mp hc).1, id⟩
  leaving := by
    intro k c' hc' hleave
    rcases call_of_step hst hc' with rfl | ⟨c, hc, rfl | hm⟩
    · simp at hleave
    · exact (hs.leaving k c' hc hleave).step hst
    · cases hm with
      | early | filled | reset | returned | closed =>
          exact (hs.leaving k c hc hleave).step hst
      | cleared own => exact (hs.occupant k own).step hst
      | swept before => exact (hs.leaving k c hc (.inl before)).step hst
      | done => simp at hleave
  tasks := by
    have hold : ∀ x ∈ s.tasks, t.Accepted x.peer := fun x hx => (hs.tasks x hx).step hst
    intro x hx
    cases (spec_of_step hst).effect with
    | quiet _ _ _ tasks | filled _ _ _ tasks | reset _ _ _ _ tasks | cleared _ _ _ _ _ tasks
    | swept _ _ _ _ tasks | stamped _ _ _ _ tasks => exact hold x (tasks ▸ hx)
    | announced call stage _ _ _ tasks =>
        rw [tasks, List.mem_append, List.mem_singleton] at hx
        rcases hx with hx | rfl
        · exact hold x hx
        · exact Accepted.step ⟨_, call, by rw [stage]; exact id⟩ hst
    | trackUp _ _ _ tasks =>
        rw [tasks] at hx
        exact hold x (List.mem_of_mem_eraseIdx hx)

lemma wf_of_reachable (hr : peerForwardMachine.Reachable r) : r.Wf :=
  hr.invariant (fun _ h0 => wf_init h0) fun _ _ _ hs hst => wf_step hs hst

/-- **Who changes the slot**: a call that fills it while it is empty, and the callback of the
connection that occupies it. -/
lemma publish_step (hst : s.step a = some t) :
    t.publish = s.publish ∨
      (∃ i, a = .fill i (.ok ()) ∧ s.publish = none ∧ t.publish = some i) ∨
      ∃ i c, a = .clear i ∧ s.calls[i]? = some c ∧ c.closed = true ∧ s.publish = some i ∧
        t.publish = none := by
  cases (spec_of_step hst).effect with
  | quiet publish | reset _ _ publish | swept _ _ publish | stamped _ _ publish
  | announced _ _ publish | trackUp _ publish => exact .inl publish
  | filled empty publish => exact .inr (.inl ⟨_, rfl, empty, publish⟩)
  | cleared call closed own publish => exact .inr (.inr ⟨_, _, rfl, call, closed, own, publish⟩)

/-- The call returns with success: it never fails, and can go on until it has returned. -/
def ReturnsOk (s : PeerForwardSystem) (i : ℕ) : Prop :=
  ∀ as t, peerForwardMachine.exec s as = some t →
    (∀ e, t.result i ≠ some (.error e)) ∧
      ∃ bs u, peerForwardMachine.exec t bs = some u ∧ u.result i = some (.ok ())

/-- The call fails, in this state or a later one. -/
def Fails (s : PeerForwardSystem) (i : ℕ) : Prop :=
  ∃ as t e, peerForwardMachine.exec s as = some t ∧ t.result i = some (.error e)

/-- The slot is not emptied along a run. -/
def NeverEmptied (s : PeerForwardSystem) (as : List PeerForwardAction) : Prop :=
  peerForwardMachine.Along (fun s _ t => s.publish ≠ none → t.publish ≠ none) s as

/-- The action is a test of the slot by the call `i`. -/
def Tests (i : ℕ) : PeerForwardAction → Prop
  | .check k | .recheck k | .fill k _ => k = i
  | .elapse _ | .begin | .negotiate .. | .reset _ | .finish _ | .close _ | .clear _
  | .clearTracks _ | .stamp _ | .onTrack .. | .trackUp _ => False

/-- The action is a step of the call `i`, the end of its connection, a step of the callback
for it, or one for a track of the connection. -/
def Belongs (s : PeerForwardSystem) (i : ℕ) : PeerForwardAction → Prop
  | .check k | .recheck k | .negotiate k _ | .fill k _ | .reset k | .finish k | .close k
  | .clear k | .clearTracks k | .stamp k | .onTrack k _ => k = i
  | .trackUp j => ∃ x, s.tasks[j]? = some x ∧ x.peer = i
  | .elapse _ | .begin => False

/-- What holds of a step from `s` to `t`, and of the runs from these states, if a stream has
a single publisher. -/
structure SinglePublisher (s : PeerForwardSystem) (a : PeerForwardAction)
    (t : PeerForwardSystem) : Prop where
  changes : t.publish = s.publish ∨
    (∃ i, a = .fill i (.ok ()) ∧ s.publish = none ∧ t.publish = some i ∧ t.ReturnsOk i) ∨
    ∃ i c, a = .clear i ∧ s.calls[i]? = some c ∧ c.closed = true ∧ s.publish = some i ∧
      t.publish = none
  occupied : ∀ p as u, s.publish = some p → peerForwardMachine.exec s as = some u →
    s.NeverEmptied as → u.publish = some p
  refused : s.publish ≠ none → ∀ i, Tests i a → ∀ as u, peerForwardMachine.exec t as = some u →
    u.result i = some (.error Forwarder.alreadyEstablished)
  harmless : ∀ i, s.Belongs i a → t.Fails i → t.publish = s.publish ∧
    t.publishLeaveTime = s.publishLeaveTime ∧ t.publishTracks = s.publishTracks

lemma Accepted.returnsOk (h : s.Accepted i) : s.ReturnsOk i := fun _ _ hst =>
  ⟨(h.exec hst).result_ne_error, (h.exec hst).exists_exec⟩

lemma Accepted.not_fails (h : s.Accepted i) : ¬ s.Fails i := by
  rintro ⟨as, u, e, hu, hresult⟩
  exact (h.exec hu).result_ne_error e hresult

/-- An occupied slot stays as it is until it is emptied. -/
lemma publish_of_neverEmptied {as : List PeerForwardAction} (hp : s.publish = some p)
    (hu : peerForwardMachine.exec s as = some u) (h : s.NeverEmptied as) :
    u.publish = some p := by
  induction as generalizing s with
  | nil =>
      rw [Machine.exec_nil, Option.some.injEq] at hu
      exact hu ▸ hp
  | cons a as ih =>
      obtain ⟨t, ht, hu⟩ := Option.bind_eq_some_iff.mp hu
      have hne := (h t ht).1 (by simp [hp])
      refine ih ?_ hu (h t ht).2
      rcases publish_step ht with h | ⟨i, -, h, -⟩ | ⟨i, c, -, -, -, -, h⟩
      · rw [h, hp]
      · rw [hp] at h
        cases h
      · exact absurd h hne

/-- A call that tests an occupied slot fails. -/
lemma result_of_tests (hs : s.publish ≠ none) (ha : Tests i a) (hst : s.step a = some t) :
    t.result i = some (.error Forwarder.alreadyEstablished) := by
  have hsome : s.publish.isSome := Option.isSome_iff_ne_none.mpr hs
  have hfail : ∀ c, s.calls[i]? = some c →
      (s.fail i c Forwarder.alreadyEstablished).result i =
        some (.error Forwarder.alreadyEstablished) := by
    intro c hc
    exact result_eq_some_iff.mpr
      ⟨{ c with stage := .returned (.error Forwarder.alreadyEstablished) },
        List.getElem?_set_self (List.getElem?_eq_some_iff.mp hc).1, rfl⟩
  cases a with
  | check k | recheck k | fill k created =>
      obtain rfl : k = i := ha
      obtain ⟨c, hc, -, rfl⟩ := onCall_eq_some_iff.mp hst
      rw [if_pos hsome]
      exact hfail c hc
  | _ => exact absurd ha id

/-- A step that belongs to a call that fails changes nothing but the call. -/
lemma unchanged_of_fails (hs : s.Wf) (hst : s.step a = some t) (ha : s.Belongs i a)
    (hfails : t.Fails i) : t.publish = s.publish ∧
      t.publishLeaveTime = s.publishLeaveTime ∧ t.publishTracks = s.publishTracks := by
  have hnot : ¬ t.Accepted i := fun h => h.not_fails hfails
  have hbefore : ¬ s.Accepted i := fun h => hnot (h.step hst)
  have ht := wf_step hs hst
  cases (spec_of_step hst).effect with
  | quiet publish tracks leaveTime tasks => exact ⟨publish, leaveTime, tracks⟩
  | filled empty publish =>
      obtain rfl : _ = i := ha
      exact absurd (ht.occupant _ publish) hnot
  | reset call stage =>
      obtain rfl : _ = i := ha
      exact absurd ⟨_, call, by rw [stage]; exact id⟩ hbefore
  | cleared call closed own =>
      obtain rfl : _ = i := ha
      exact absurd (hs.occupant _ own) hbefore
  | swept call leave =>
      obtain rfl : _ = i := ha
      exact absurd (hs.leaving _ _ call (.inl leave)) hbefore
  | stamped call leave =>
      obtain rfl : _ = i := ha
      exact absurd (hs.leaving _ _ call (.inr leave)) hbefore
  | announced call stage publish tracks leaveTime => exact ⟨publish, leaveTime, tracks⟩
  | trackUp task =>
      obtain ⟨x, hx, rfl⟩ := ha
      exact absurd (hs.tasks x (List.mem_of_getElem? hx)) hbefore

/-- **Single publisher**: in every step from a state that some run reaches, the slot changes
only from empty to the connection of a call that returns with success, and from a connection
to empty by the callback for its own end; an occupied slot keeps its connection until it is
emptied, every call that tests it fails, and nothing that belongs to a call that fails changes
the slot, the leave time or the tracks. -/
theorem single_publisher (hr : peerForwardMachine.Reachable s) (hst : s.step a = some t) :
    s.SinglePublisher a t where
  changes := by
    have ht := wf_step (wf_of_reachable hr) hst
    rcases publish_step hst with h | ⟨i, ha, hempty, h⟩ | h
    · exact .inl h
    · exact .inr (.inl ⟨i, ha, hempty, h, (ht.occupant i h).returnsOk⟩)
    · exact .inr (.inr h)
  occupied _ _ _ hp hu h := publish_of_neverEmptied hp hu h
  refused hne _ ha _ _ hu := result_exec (result_of_tests hne ha hst) hu
  harmless _ ha hfails := unchanged_of_fails (wf_of_reachable hr) hst ha hfails

/-- Two calls of which the first fills the slot and the second has passed its tests. -/
def competing : List PeerForwardAction :=
  [.begin, .begin, .check 0, .check 1, .recheck 0, .recheck 1, .negotiate 0 (.ok ()),
    .negotiate 1 (.ok ()), .fill 0 (.ok ())]

/-- A stream to which nobody publishes. -/
def idle : PeerForwardSystem := ⟨none, [], 0, 7, [], []⟩

lemma init_idle : peerForwardMachine.init idle := ⟨rfl, rfl, rfl, rfl, rfl⟩

/-- The second call comes to the slot, and fails. -/
theorem single_publisher_competing :
    ∃ s t, peerForwardMachine.exec idle competing = some s ∧
      s.step (.fill 1 (.ok ())) = some t ∧ s.SinglePublisher (.fill 1 (.ok ())) t :=
  ⟨_, _, rfl, rfl, single_publisher ⟨idle, competing, init_idle, rfl⟩ rfl⟩

/-! ### Track ownership -/

/-- When no task is in flight, the tracks are those of the connection in the slot; without
one, there are none. -/
def TracksOwned (s : PeerForwardSystem) : Prop :=
  s.tasks = [] → (∀ x ∈ s.publishTracks, s.publish = some x.peer) ∧
    (s.publish = none → s.publishTracks = [])

/-- A task that is the last in flight runs while the slot is that of its connection and of
all tracks so far; and a publisher leaves the slot, when no task is in flight, only while
there are no tracks. -/
def KeepsOwned (s : PeerForwardSystem) : PeerForwardAction → Prop
  | .trackUp j => ∀ x, s.tasks[j]? = some x → s.tasks.length = 1 →
      s.publish = some x.peer ∧ ∀ y ∈ s.publishTracks, s.publish = some y.peer
  | .clear i => s.tasks = [] → s.publish = some i → s.publishTracks = []
  | .elapse _ | .begin | .check _ | .recheck _ | .negotiate .. | .fill .. | .reset _ | .finish _
  | .close _ | .clearTracks _ | .stamp _ | .onTrack .. => True

instance (s : PeerForwardSystem) (a : PeerForwardAction) : Decidable (s.KeepsOwned a) :=
  match a with
  | .trackUp j => inferInstanceAs (Decidable (∀ x ∈ s.tasks[j]?, s.tasks.length = 1 →
      s.publish = some x.peer ∧ ∀ y ∈ s.publishTracks, s.publish = some y.peer))
  | .clear i => inferInstanceAs (Decidable (s.tasks = [] → s.publish = some i →
      s.publishTracks = []))
  | .elapse _ | .begin | .check _ | .recheck _ | .negotiate .. | .fill .. | .reset _ | .finish _
  | .close _ | .clearTracks _ | .stamp _ | .onTrack .. => isTrue trivial

/-- Whether the tracks are owned is a matter of the slot, the tracks and the tasks. -/
lemma TracksOwned.congr (hs : s.TracksOwned) (publish : t.publish = s.publish)
    (tracks : t.publishTracks = s.publishTracks) (tasks : t.tasks = s.tasks) :
    t.TracksOwned := by
  rw [TracksOwned, publish, tracks, tasks]
  exact hs

/-- If every track has the connection in the slot, then there is none without one. -/
lemma tracksOwned_of_forall (h : ∀ x ∈ s.publishTracks, s.publish = some x.peer) :
    s.TracksOwned := by
  refine fun _ => ⟨h, fun hnone => List.eq_nil_iff_forall_not_mem.mpr fun x hx => ?_⟩
  rw [h x hx] at hnone
  cases hnone

/-- Emptying the slot leaves the tracks owned, exactly if there are none. -/
lemma tracksOwned_clear_iff (own : s.publish = some i)
    (publish : t.publish = none) (tracks : t.publishTracks = s.publishTracks)
    (tasks : t.tasks = s.tasks) : t.TracksOwned ↔ s.KeepsOwned (.clear i) := by
  rw [TracksOwned, publish, tracks, tasks]
  constructor
  · exact fun h htasks _ => (h htasks).2 rfl
  · intro h htasks
    simp [h htasks own]

/-- The task of a track leaves the tracks owned, exactly if it is not the last one or finds
the slot to be that of all tracks. -/
lemma tracksOwned_trackUp_iff {x : AnnouncedTrack} (task : s.tasks[j]? = some x)
    (publish : t.publish = s.publish)
    (tracks : ∀ y, y ∈ t.publishTracks ↔ y ∈ s.publishTracks ∨ y = x)
    (tasks : t.tasks = s.tasks.eraseIdx j) : t.TracksOwned ↔ s.KeepsOwned (.trackUp j) := by
  have hlt : j < s.tasks.length := (List.getElem?_eq_some_iff.mp task).1
  have hlast : t.tasks = [] ↔ s.tasks.length = 1 := by
    rw [tasks, ← List.length_eq_zero_iff, List.length_eraseIdx_of_lt hlt]
    omega
  constructor
  · intro h y hy hone
    obtain rfl := Option.some.inj (task.symm.trans hy)
    have howned := (h (hlast.mpr hone)).1
    rw [publish] at howned
    exact ⟨howned x ((tracks x).mpr (.inr rfl)),
      fun z hz => howned z ((tracks z).mpr (.inl hz))⟩
  · intro h htasks
    obtain ⟨hx, hall⟩ := h x task (hlast.mp htasks)
    refine tracksOwned_of_forall (fun y hy => ?_) htasks
    rw [publish]
    rcases (tracks y).mp hy with hy | rfl
    · exact hall y hy
    · exact hx

/-- A step leaves the tracks owned, exactly if it meets the condition. -/
lemma tracksOwned_step_iff (hs : s.TracksOwned) (hst : s.step a = some t) :
    t.TracksOwned ↔ s.KeepsOwned a := by
  have heffect := (spec_of_step hst).effect
  cases heffect with
  | filled empty publish tracks tasks =>
      refine iff_of_true (fun htasks => ?_) trivial
      have hnone := (hs (tasks ▸ htasks)).2 empty
      simp [tracks, hnone]
  | reset call stage publish tracks tasks =>
      exact iff_of_true (hs.congr publish tracks tasks) trivial
  | cleared call closed own publish tracks tasks =>
      exact tracksOwned_clear_iff own publish tracks tasks
  | swept call leave publish tracks tasks =>
      exact iff_of_true (tracksOwned_of_forall (by simp [tracks])) trivial
  | stamped call leave publish tracks tasks =>
      exact iff_of_true (hs.congr publish tracks tasks) trivial
  | announced call stage publish tracks leaveTime tasks =>
      exact iff_of_true (fun htasks => absurd htasks (by simp [tasks])) trivial
  | trackUp task publish tracks tasks => exact tracksOwned_trackUp_iff task publish tracks tasks
  | quiet publish tracks leaveTime tasks =>
      refine iff_of_true (hs.congr publish tracks tasks) ?_
      cases a with
      | clear i =>
          -- the callback has found the slot empty, or that of another connection
          intro _ hown
          obtain ⟨c, -, -, rfl⟩ := onCall_eq_some_iff.mp hst
          rw [if_pos hown, hown] at publish
          cases publish
      | trackUp j =>
          obtain ⟨x, hx, rfl⟩ := Option.map_eq_some_iff.mp hst
          have hlen := List.length_eraseIdx_of_lt (List.getElem?_eq_some_iff.mp hx).1
          have hpos := (List.getElem?_eq_some_iff.mp hx).1
          rw [show s.tasks.eraseIdx j = s.tasks from tasks] at hlen
          omega
      | _ => trivial

/-- **When the tracks are the publisher's**: in every state of a run in which no task is in
flight, the tracks are those of the connection in the slot, and there are none without one; if
and only if every task that is the last one finds the slot to be that of its connection and of
all tracks, and no publisher leaves it, with no task in flight, while there are tracks. -/
theorem tracksOwned_iff {s : PeerForwardSystem} {as : List PeerForwardAction}
    (h0 : peerForwardMachine.init s) :
    peerForwardMachine.Always TracksOwned s as ↔ peerForwardMachine.Guarded KeepsOwned s as := by
  have hs : s.TracksOwned := fun _ => by simp [h0.2.1]
  refine Machine.always_iff_guarded (I := TracksOwned) (fun r a t hr hst => ?_) hs hs
  have hiff := tracksOwned_step_iff hr hst
  exact ⟨hiff, hiff.mpr⟩

/-- A publisher with a track. -/
def published : List PeerForwardAction :=
  [.begin, .check 0, .recheck 0, .negotiate 0 (.ok ()), .fill 0 (.ok ()), .reset 0, .finish 0,
    .onTrack 0 ⟨"high", .video, 7, 0⟩]

/-- A publisher brings two tracks; a second one is refused. -/
theorem tracksOwned_published :
    peerForwardMachine.Always TracksOwned idle (published ++ [.trackUp 0, .begin, .check 1,
      .onTrack 0 ⟨"low", .video, 8, 1⟩, .trackUp 0, .close 0]) :=
  (tracksOwned_iff init_idle).mpr (by decide)

/-- The task of a track runs after its publisher has closed and been removed: the slot is
empty, and the track is published. -/
theorem not_tracksOwned_published :
    ¬ ∀ (s : PeerForwardSystem) (as : List PeerForwardAction), peerForwardMachine.init s →
      peerForwardMachine.Always TracksOwned s as := by
  intro h
  have hend := (h idle (published ++ [.close 0, .clear 0, .clearTracks 0, .stamp 0, .trackUp 0])
    init_idle).of_exec (t := ⟨none, [⟨0, "high", .video, 7, 0⟩], 7, 7,
      [⟨.returned (.ok ()), true, true, .done⟩], []⟩) rfl
  exact List.cons_ne_nil _ _ ((hend rfl).2 rfl)

end PeerForwardSystem

end SfuServer
