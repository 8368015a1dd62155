import SfuServer.Rtc.Publish

/-!
The handlers that set up streams, over runs: `create` of `src/route/rtc/stream.rs`, and
`whip` and `whep` of `src/route/rtc`, with the locks they hold.

The global `ROOMS` is held while the forwarder of the room is waited for, and the forwarder
is held over whole calls.  `whep` holds it in its loop `while !forwarder.publish_is_ok(..)`,
which goes round until the publisher of the stream is connected.

* `SignalingSystem`, `SignalingAction`, `signalingMachine`: the handlers of a room on top of
  its streams, and what can happen;
* `locked_of_reachable`, `returned_of_waiting`: one handler at a time holds the forwarder, so
  no call can fill a slot while a handler waits for it;
* `waitsOccupied_iff`: the slot that a waiting handler waits for is occupied in all states of
  a run, exactly if no handler goes round on an empty slot, no publisher that is waited for
  leaves, and no stream that is waited for is removed;
* `stuck_exec`: a handler that has gone round on an empty slot never gets to subscribe.
-/

open Std (ExtTreeMap)

namespace SfuServer

/-- The requests that set up streams. -/
inductive SignalingKind where
  | create
  | whip
  | whep
  deriving DecidableEq

/-- Where a handler is.  From `locked` to `dummy` and from `publishing` to `subscribing` it
holds the forwarder, in `inRooms` it holds `ROOMS`; in `polling` it is in the loop of `whep`,
not for the first time if `again`, and has looked up the forward `found`. -/
inductive HandlerStage where
  | authenticated
  | locked
  | generating
  | generated
  | dummy (call : ℕ)
  | upgraded
  | inRooms
  | publishing (call : ℕ)
  | polling (again : Bool) (found : Option ℕ)
  | subscribing
  | done
  deriving DecidableEq

namespace HandlerStage

/-- The handler holds the forwarder. -/
def HoldsLock : HandlerStage → Prop
  | .locked | .generating | .generated | .dummy _ | .publishing _ | .polling .. | .subscribing =>
      True
  | .authenticated | .upgraded | .inRooms | .done => False

/-- The handler sits in the loop of `whep`. -/
def Waiting : HandlerStage → Prop
  | .polling again _ => again = true
  | .authenticated | .locked | .generating | .generated | .dummy _ | .upgraded | .inRooms
  | .publishing _ | .subscribing | .done => False

instance : ∀ stage : HandlerStage, Decidable stage.HoldsLock
  | .locked | .generating | .generated | .dummy _ | .publishing _ | .polling .. | .subscribing =>
      isTrue trivial
  | .authenticated | .upgraded | .inRooms | .done => isFalse id

instance : ∀ stage : HandlerStage, Decidable stage.Waiting
  | .polling again _ => inferInstanceAs (Decidable (again = true))
  | .authenticated | .locked | .generating | .generated | .dummy _ | .upgraded | .inRooms
  | .publishing _ | .subscribing | .done => isFalse id

/-- The call of `Forwarder::publish` that the handler waits for. -/
def call : HandlerStage → Option ℕ
  | .dummy k | .publishing k => some k
  | .authenticated | .locked | .generating | .generated | .upgraded | .inRooms | .polling ..
  | .subscribing | .done => none

/-- The forward that the handler has looked up before its first turn of the loop. -/
def firstPoll : HandlerStage → Option ℕ
  | .polling false found => found
  | .polling true _ | .authenticated | .locked | .generating | .generated | .dummy _ | .upgraded
  | .inRooms | .publishing _ | .subscribing | .done => none

lemma Waiting.holdsLock {stage : HandlerStage} (hw : stage.Waiting) : stage.HoldsLock := by
  cases stage <;> trivial

lemma holdsLock_of_call {stage : HandlerStage} {k : ℕ} (hk : stage.call = some k) :
    stage.HoldsLock := by
  cases stage <;> trivial

lemma Waiting.call {stage : HandlerStage} (hw : stage.Waiting) : stage.call = none := by
  cases stage <;> first | rfl | exact absurd hw id

end HandlerStage

/-- A request that is being handled. -/
structure Handler where
  kind : SignalingKind
  stream : String
  stage : HandlerStage

/-- The streams of a room and the requests that are being handled. -/
structure SignalingSystem where
  streams : PublishSystem
  handlers : List Handler

/-- What can happen: a request passes `auth_user`, a handler takes its next step, in which
what is left to other code (a socket, a negotiation) succeeds or not, and the streams take a
step of their own. -/
inductive SignalingAction where
  | arrive (kind : SignalingKind) (stream : String)
  | advance (i : ℕ) (ok : Bool)
  | streams (a : PublishAction)

/-- The steps that the streams take on their own, not in a handler. -/
def PublishAction.Own : PublishAction → Prop
  | .create _ | .begin _ => False
  | .elapse _ | .check _ | .recheck _ | .negotiate .. | .fill _ | .reset _ | .finish _
  | .connect _ | .close _ | .clear _ | .stamp _ | .wake _ | .tick => True

instance : ∀ a : PublishAction, Decidable a.Own
  | .create _ | .begin _ => isFalse id
  | .elapse _ | .check _ | .recheck _ | .negotiate .. | .fill _ | .reset _ | .finish _
  | .connect _ | .close _ | .clear _ | .stamp _ | .wake _ | .tick => isTrue trivial

namespace SignalingSystem

/-- The forwarder is held. -/
def LockHeld (s : SignalingSystem) : Prop := ∃ r ∈ s.handlers, r.stage.HoldsLock

/-- `ROOMS` is held. -/
def RoomsHeld (s : SignalingSystem) : Prop := ∃ r ∈ s.handlers, r.stage = .inRooms

instance (s : SignalingSystem) : Decidable s.LockHeld :=
  inferInstanceAs (Decidable (∃ r ∈ s.handlers, _))

instance (s : SignalingSystem) : Decidable s.RoomsHeld :=
  inferInstanceAs (Decidable (∃ r ∈ s.handlers, _))

/-- The next stage of a handler, with the streams after the step. -/
def goto (s : SignalingSystem) (i : ℕ) (r : Handler) (stage : HandlerStage)
    (streams : PublishSystem) : SignalingSystem where
  streams := streams
  handlers := s.handlers.set i { r with stage := stage }

/-- `create`. -/
def createTurn (s : SignalingSystem) (i : ℕ) (r : Handler) : Option SignalingSystem :=
  match r.stage with
  | .authenticated => if s.LockHeld then none else some (s.goto i r .locked s.streams)
  | .locked => (s.streams.step (.create r.stream)).map fun u => s.goto i r .done u
  | _ => none

/-- `whip`: a publish whose result is unwrapped. -/
def whipTurn (s : SignalingSystem) (i : ℕ) (r : Handler) (ok : Bool) : Option SignalingSystem :=
  match r.stage with
  | .authenticated => some (s.goto i r (if ok then .upgraded else .done) s.streams)
  | .upgraded => if s.RoomsHeld then none else some (s.goto i r .inRooms s.streams)
  | .inRooms => if s.LockHeld then none else some (s.goto i r .locked s.streams)
  | .locked => (s.streams.step (.begin r.stream)).map fun u =>
      s.goto i r (.publishing s.streams.calls.length) u
  | .publishing k => (s.streams.callResult k).map fun _ => s.goto i r .done s.streams
  | _ => none

/-- `whep`: on a stream that is not in the table a dummy publisher is set up first, then the
connection of the publisher is waited for. -/
def whepTurn (s : SignalingSystem) (i : ℕ) (r : Handler) (ok : Bool) : Option SignalingSystem :=
  match r.stage with
  | .authenticated => if s.LockHeld then none else some (s.goto i r .locked s.streams)
  | .locked =>
      if s.streams.tick.Readable then some <|
        if s.streams.forwarder.isStreamExists r.stream then s.goto i r .upgraded s.streams
        else s.goto i r .generating s.streams
      else none
  -- `virtual_publish`: a generated forward is entered, if none was entered meanwhile
  | .generating =>
      if ok then
        (s.streams.step (.create r.stream)).map fun u =>
          s.goto i r (if r.stream ∈ s.streams.forwarder.streamMap then .done else .generated) u
      else some (s.goto i r .done s.streams)
  | .generated => (s.streams.step (.begin r.stream)).map fun u =>
      s.goto i r (.dummy s.streams.calls.length) u
  | .dummy k => (s.streams.callResult k).map fun success =>
      s.goto i r (if success && ok then .upgraded else .done) s.streams
  | .upgraded =>
      if ok then if s.RoomsHeld then none else some (s.goto i r .inRooms s.streams)
      else some (s.goto i r .done s.streams)
  | .inRooms => if s.LockHeld then none else some (s.goto i r (.polling false none) s.streams)
  -- `publish_is_ok`: the error on a stream that is gone is unwrapped
  | .polling again none =>
      if s.streams.tick.Readable then some <|
        match s.streams.forwarder.streamMap[r.stream]? with
        | none => s.goto i r .done s.streams
        | some h => s.goto i r (.polling again (some h)) s.streams
      else none
  | .polling _ (some h) => some <|
      if s.streams.forwarder.slotIsOk h then s.goto i r .subscribing s.streams
      else s.goto i r (.polling true none) s.streams
  | .subscribing => some (s.goto i r .done s.streams)
  | _ => none

/-- The next step of a handler. -/
def advanceStep (s : SignalingSystem) (i : ℕ) (ok : Bool) : Option SignalingSystem :=
  s.handlers[i]?.bind fun r =>
    match r.kind with
    | .create => s.createTurn i r
    | .whip => s.whipTurn i r ok
    | .whep => s.whepTurn i r ok

/-- One step of the system. -/
def step (s : SignalingSystem) : SignalingAction → Option SignalingSystem
  | .arrive kind stream =>
      if s.RoomsHeld then none
      else some { s with handlers := s.handlers ++ [⟨kind, stream, .authenticated⟩] }
  | .advance i ok => s.advanceStep i ok
  | .streams a =>
      if a.Own then (s.streams.step a).map fun u => { s with streams := u } else none

end SignalingSystem

/-- The machine of the handlers of a room. -/
def signalingMachine : Machine SignalingSystem SignalingAction where
  init s := publishMachine.init s.streams ∧ s.handlers = []
  step := SignalingSystem.step

namespace SignalingSystem

variable {s t : SignalingSystem} {i : ℕ}

/-! ### What a handler does in a step -/

/-- What the handler `r` can do in a step that leads it to `stage` and the streams to `u`. -/
structure Turn (s : SignalingSystem) (r : Handler) (stage : HandlerStage) (u : PublishSystem) :
    Prop where
  streams : stage.call = none ∧ (u = s.streams ∨ s.streams.step (.create r.stream) = some u) ∨
    stage.call = some s.streams.calls.length ∧ s.streams.step (.begin r.stream) = some u
  locks : stage.HoldsLock → r.stage.HoldsLock ∨ ¬ s.LockHeld
  calls : ∀ k, r.stage.call = some k → (s.streams.callResult k).isSome
  waits : stage.Waiting → r.stage.Waiting ∨
    ∃ h, r.stage.firstPoll = some h ∧ s.streams.forwarder.slotIsOk h = false

/-- A step that leaves the streams alone and neither begins nor awaits a call. -/
lemma Turn.stay {r : Handler} {stage : HandlerStage} (hcall : stage.call = none)
    (hcalls : r.stage.call = none) (hlocks : stage.HoldsLock → r.stage.HoldsLock ∨ ¬ s.LockHeld)
    (hwaits : ¬ stage.Waiting) : s.Turn r stage s.streams where
  streams := .inl ⟨hcall, .inl rfl⟩
  locks := hlocks
  calls k hk := by simp [hcalls] at hk
  waits hw := absurd hw hwaits

/-- The end of a call. -/
lemma Turn.call {r : Handler} {stage : HandlerStage} {k : ℕ} {success : Bool}
    (hr : r.stage.call = some k) (hret : s.streams.callResult k = some success)
    (hcall : stage.call = none) (hlock : ¬ stage.HoldsLock) (hwaits : ¬ stage.Waiting) :
    s.Turn r stage s.streams where
  streams := .inl ⟨hcall, .inl rfl⟩
  locks hl := absurd hl hlock
  calls k' hk' := by
    obtain rfl : k = k' := by simpa [hr] using hk'
    simp [hret]
  waits hw := absurd hw hwaits

/-- The creation of a stream. -/
lemma Turn.create {r : Handler} {stage : HandlerStage} {u : PublishSystem}
    (hu : s.streams.step (.create r.stream) = some u) (hcall : stage.call = none)
    (hcalls : r.stage.call = none) (hlock : r.stage.HoldsLock) (hwaits : ¬ stage.Waiting) :
    s.Turn r stage u where
  streams := .inl ⟨hcall, .inr hu⟩
  locks _ := .inl hlock
  calls k hk := by simp [hcalls] at hk
  waits hw := absurd hw hwaits

/-- The begin of a call. -/
lemma Turn.begin {r : Handler} {stage : HandlerStage} {u : PublishSystem}
    (hu : s.streams.step (.begin r.stream) = some u)
    (hcall : stage.call = some s.streams.calls.length) (hcalls : r.stage.call = none)
    (hlock : r.stage.HoldsLock) : s.Turn r stage u where
  streams := .inr ⟨hcall, hu⟩
  locks _ := .inl hlock
  calls k hk := by simp [hcalls] at hk
  waits hw := by simp [hw.call] at hcall

lemma turn_create {r : Handler} (h : s.createTurn i r = some t) :
    ∃ stage u, t = s.goto i r stage u ∧ s.Turn r stage u := by
  rw [createTurn] at h
  split at h
  · rename_i hstage
    split_ifs at h with hlock
    cases h
    exact ⟨_, _, rfl, .stay rfl (by rw [hstage]; rfl) (fun _ => .inr hlock) id⟩
  · rename_i hstage
    obtain ⟨u, hu, rfl⟩ := Option.map_eq_some_iff.mp h
    exact ⟨_, _, rfl, .create hu rfl (by rw [hstage]; rfl) (by rw [hstage]; trivial) id⟩
  · cases h

lemma turn_whip {r : Handler} {ok : Bool} (h : s.whipTurn i r ok = some t) :
    ∃ stage u, t = s.goto i r stage u ∧ s.Turn r stage u := by
  rw [whipTurn] at h
  split at h
  · rename_i hstage
    cases h
    cases ok <;> exact ⟨_, _, rfl, .stay rfl (by rw [hstage]; rfl) (fun hl => absurd hl id) id⟩
  · rename_i hstage
    split_ifs at h
    cases h
    exact ⟨_, _, rfl, .stay rfl (by rw [hstage]; rfl) (fun hl => absurd hl id) id⟩
  · rename_i hstage
    split_ifs at h with hlock
    cases h
    exact ⟨_, _, rfl, .stay rfl (by rw [hstage]; rfl) (fun _ => .inr hlock) id⟩
  · rename_i hstage
    obtain ⟨u, hu, rfl⟩ := Option.map_eq_some_iff.mp h
    exact ⟨_, _, rfl, .begin hu rfl (by rw [hstage]; rfl) (by rw [hstage]; trivial)⟩
  · rename_i k hstage
    obtain ⟨success, hret, rfl⟩ := Option.map_eq_some_iff.mp h
    exact ⟨_, _, rfl, .call (by rw [hstage]; rfl) hret rfl id id⟩
  · cases h

lemma turn_whep {r : Handler} {ok : Bool} (h : s.whepTurn i r ok = some t) :
    ∃ stage u, t = s.goto i r stage u ∧ s.Turn r stage u := by
  rw [whepTurn] at h
  split at h
  · rename_i hstage
    split_ifs at h with hlock
    cases h
    exact ⟨_, _, rfl, .stay rfl (by rw [hstage]; rfl) (fun _ => .inr hlock) id⟩
  · rename_i hstage
    split_ifs at h
    all_goals cases h
    all_goals exact ⟨_, _, rfl, .stay rfl (by rw [hstage]; rfl)
      (fun _ => .inl (by rw [hstage]; trivial)) id⟩
  · rename_i hstage
    split_ifs at h
    · obtain ⟨u, hu, rfl⟩ := Option.map_eq_some_iff.mp h
      exact ⟨_, _, rfl, .create hu rfl (by rw [hstage]; rfl) (by rw [hstage]; trivial) id⟩
    · obtain ⟨u, hu, rfl⟩ := Option.map_eq_some_iff.mp h
      exact ⟨_, _, rfl, .create hu rfl (by rw [hstage]; rfl) (by rw [hstage]; trivial) id⟩
    · cases h
      exact ⟨_, _, rfl, .stay rfl (by rw [hstage]; rfl) (fun hl => absurd hl id) id⟩
  · rename_i hstage
    obtain ⟨u, hu, rfl⟩ := Option.map_eq_some_iff.mp h
    exact ⟨_, _, rfl, .begin hu rfl (by rw [hstage]; rfl) (by rw [hstage]; trivial)⟩
  · rename_i k hstage
    obtain ⟨success, hret, rfl⟩ := Option.map_eq_some_iff.mp h
    refine ⟨_, _, rfl, .call (by rw [hstage]; rfl) hret ?_ ?_ ?_⟩ <;>
      cases success <;> cases ok <;> first | rfl | exact id
  · rename_i hstage
    split_ifs at h
    all_goals cases h
    all_goals exact ⟨_, _, rfl, .stay rfl (by rw [hstage]; rfl) (fun hl => absurd hl id) id⟩
  · rename_i hstage
    split_ifs at h with hlock
    cases h
    exact ⟨_, _, rfl, .stay rfl (by rw [hstage]; rfl) (fun _ => .inr hlock)
      (by simp [HandlerStage.Waiting])⟩
  · rename_i again hstage
    split_ifs at h
    cases h
    split
    · exact ⟨_, _, rfl, .stay rfl (by rw [hstage]; rfl) (fun hl => absurd hl id) id⟩
    · exact ⟨_, _, rfl, .inl ⟨rfl, .inl rfl⟩, fun _ => .inl (by rw [hstage]; trivial),
        by simp [hstage, HandlerStage.call], fun hw => .inl (by rw [hstage]; exact hw)⟩
  · rename_i again k hstage
    cases h
    split_ifs with hok
    · exact ⟨_, _, rfl, .stay rfl (by rw [hstage]; rfl)
        (fun _ => .inl (by rw [hstage]; trivial)) id⟩
    · refine ⟨_, _, rfl, .inl ⟨rfl, .inl rfl⟩, fun _ => .inl (by rw [hstage]; trivial),
        by simp [hstage, HandlerStage.call], fun _ => ?_⟩
      cases again with
      | true => exact .inl (by rw [hstage]; rfl)
      | false => exact .inr ⟨k, by rw [hstage]; rfl, by simpa using hok⟩
  · rename_i hstage
    cases h
    exact ⟨_, _, rfl, .stay rfl (by rw [hstage]; rfl) (fun hl => absurd hl id) id⟩
  · cases h

/-- **What a handler does in a step.** -/
lemma turn_of_advance {ok : Bool} (h : s.step (.advance i ok) = some t) :
    ∃ r stage u, s.handlers[i]? = some r ∧ t = s.goto i r stage u ∧ s.Turn r stage u := by
  simp only [step, advanceStep, Option.bind_eq_some_iff] at h
  obtain ⟨r, hr, h⟩ := h
  split at h
  · obtain ⟨stage, u, ht, hturn⟩ := turn_create h
    exact ⟨r, stage, u, hr, ht, hturn⟩
  · obtain ⟨stage, u, ht, hturn⟩ := turn_whip h
    exact ⟨r, stage, u, hr, ht, hturn⟩
  · obtain ⟨stage, u, ht, hturn⟩ := turn_whep h
    exact ⟨r, stage, u, hr, ht, hturn⟩

/-- A handler that finds no connection for the first time goes round. -/
lemma advance_firstPoll {r : Handler} {h : ℕ} {ok : Bool} (hr : s.handlers[i]? = some r)
    (hstage : r.stage.firstPoll = some h) (hslot : s.streams.forwarder.slotIsOk h = false)
    (hst : s.step (.advance i ok) = some t) :
    t = s.goto i r (.polling true none) s.streams := by
  obtain ⟨kind, stream, stage⟩ := r
  have hpoll : stage = .polling false (some h) := by
    cases stage with
    | polling again found =>
        cases again with
        | true => cases hstage
        | false => exact congrArg _ hstage
    | _ => cases hstage
  subst hpoll
  simp only [step, advanceStep, hr, Option.bind_some] at hst
  cases kind with
  | create => cases hst
  | whip => cases hst
  | whep => simpa [whepTurn, hslot, eq_comm] using hst

end SignalingSystem

/-! ### The slots of the streams in the table -/

namespace PublishSystem

variable {s t : PublishSystem} {a : PublishAction} {stream : String}

/-- The stream is in the table, with a publisher in its slot. -/
def Occupied (s : PublishSystem) (stream : String) : Prop :=
  (s.forwarder.streamMap[stream]?.bind s.forwarder.slot).isSome

instance (s : PublishSystem) (stream : String) : Decidable (s.Occupied stream) :=
  inferInstanceAs (Decidable (_ = true))

lemma occupied_iff : s.Occupied stream ↔
    ∃ h p, s.forwarder.streamMap[stream]? = some h ∧ s.forwarder.slot h = some p := by
  rw [Occupied, Option.isSome_iff_exists]
  simp only [Option.bind_eq_some_iff]
  exact ⟨fun ⟨p, h, hh, hp⟩ => ⟨h, p, hh, hp⟩, fun ⟨h, p, hh, hp⟩ => ⟨p, h, hh, hp⟩⟩

/-- The callback of the call `i` would empty the slot of the stream. -/
def Deserts (s : PublishSystem) (i : ℕ) (stream : String) : Prop :=
  ∃ c ∈ s.calls[i]?, s.forwarder.streamMap[stream]? = some c.forward ∧
    s.forwarder.slot c.forward = c.peer

instance (s : PublishSystem) (i : ℕ) (stream : String) : Decidable (s.Deserts i stream) :=
  inferInstanceAs (Decidable (∃ c ∈ s.calls[i]?, _))

/-- A slot stays occupied, unless its publisher leaves or the reaper removes the stream. -/
lemma occupied_step (hst : s.step a = some t) (hocc : s.Occupied stream)
    (hclear : ∀ i, a = .clear i → ¬ s.Deserts i stream)
    (htick : a = .tick → s.tick.removal ≠ some stream) : t.Occupied stream := by
  obtain ⟨h, p, hmap, hslot⟩ := occupied_iff.mp hocc
  refine occupied_iff.mpr ⟨h, p, ?_, ?_⟩
  · rcases streamMap_step hst stream with hm | ⟨-, hnone⟩ | ⟨rfl, k, leave, todo, hremoving⟩
    · exact hm.trans hmap
    · exact absurd (hnone.symm.trans hmap) (by simp)
    · exact absurd (by rw [hremoving]; rfl) (htick rfl)
  · rcases slot_step hst h with hs | ⟨i, c, q, -, -, -, -, -, hempty, -⟩ |
      ⟨i, c, q, rfl, hc, rfl, hq, hs, -⟩
    · exact hs.trans hslot
    · exact absurd (hempty.symm.trans hslot) (by simp)
    · exact absurd ⟨c, hc, hmap, hs.trans hq.symm⟩ (hclear i rfl)

/-- The callback of the publisher of a stream empties its slot. -/
lemma not_occupied_clear {i : ℕ} (hst : s.step (.clear i) = some t)
    (hd : s.Deserts i stream) : ¬ t.Occupied stream := by
  obtain ⟨c, hc, hmap, hslot⟩ := hd
  simp only [step, clearStep, Option.bind_eq_some_iff, Option.ite_none_right_eq_some] at hst
  obtain ⟨d, hd, p, hp, -, hst⟩ := hst
  obtain rfl : c = d := Option.some.inj (hc.symm.trans hd)
  rw [Forwarder.clearSlot, hslot, hp] at hst
  simp only [ne_eq, not_true, if_false, Option.some.injEq] at hst
  subst hst
  intro hocc
  obtain ⟨k, q, hk, hq⟩ := occupied_iff.mp hocc
  obtain rfl : c.forward = k := Option.some.inj (hmap.symm.trans hk)
  have hlt : c.forward < s.forwarder.forwards.length := Forwarder.lt_of_slot (hslot.trans hp)
  simp [setCall, Forwarder.slot_modify_publish, hlt] at hq

/-- A stream that the reaper removes is gone. -/
lemma not_occupied_tick (hst : s.step .tick = some t) (hr : s.tick.removal = some stream) :
    ¬ t.Occupied stream := by
  cases htick : s.tick with
  | removing stream' h leave todo =>
      obtain rfl : stream' = stream := by simpa [htick, TickState.removal] using hr
      simp only [step, tickStep, htick, Option.some.injEq] at hst
      subst hst
      simp [Occupied]
  | _ => simp [htick, TickState.removal] at hr

lemma stage_of_returned {i : ℕ} {c : PublishCall}
    (hret : ∀ k < s.calls.length, (s.callResult k).isSome) (hc : s.calls[i]? = some c) :
    ∃ result, c.stage = .returned result := by
  obtain ⟨result, hresult⟩ := Option.isSome_iff_exists.mp
    (hret i (List.getElem?_eq_some_iff.mp hc).1)
  rw [callResult, hc] at hresult
  cases hc' : c.stage with
  | returned result => exact ⟨result, rfl⟩
  | _ => simp [hc'] at hresult

/-- While all calls have returned, an empty slot stays empty. -/
lemma slot_step_of_returned {h : ℕ} (hret : ∀ k < s.calls.length, (s.callResult k).isSome)
    (hst : s.step a = some t) (hs : s.forwarder.slot h = none) : t.forwarder.slot h = none := by
  rcases slot_step hst h with heq | ⟨i, c, p, -, hc, hsetting, -⟩ |
    ⟨i, c, p, -, -, -, -, -, hnone, -⟩
  · exact heq.trans hs
  · obtain ⟨result, hresult⟩ := stage_of_returned hret hc
    exact absurd (hsetting.symm.trans hresult) (by simp)
  · exact hnone

/-- While all calls have returned, no stream gets a publisher. -/
lemma not_occupied_step (hret : ∀ k < s.calls.length, (s.callResult k).isSome)
    (hst : s.step a = some t) (hs : ¬ s.Occupied stream) : ¬ t.Occupied stream := by
  intro hocc
  obtain ⟨h, p, hmap, hslot⟩ := occupied_iff.mp hocc
  obtain ⟨q, hslot'⟩ : ∃ q, s.forwarder.slot h = some q := by
    refine Option.ne_none_iff_exists'.mp fun hnone => ?_
    exact absurd ((slot_step_of_returned hret hst hnone).symm.trans hslot) (by simp)
  have hmap' : s.forwarder.streamMap[stream]? = some h := by
    cases (spec_of_step hst).effect with
    | quiet _ streamMap | setUp _ streamMap | filled _ _ _ _ _ streamMap
    | reset _ _ _ streamMap | cleared _ _ _ _ streamMap | stamped _ _ _ streamMap =>
        exact streamMap ▸ hmap
    | created _ _ _ streamMap =>
        rw [streamMap, ExtTreeMap.getElem?_insert] at hmap
        split_ifs at hmap
        · obtain rfl := Option.some.inj hmap
          exact absurd (Forwarder.lt_of_slot hslot') (lt_irrefl _)
        · exact hmap
    | @entered i c _ call stage _ _ _ _ =>
        obtain ⟨result, hresult⟩ := stage_of_returned hret call
        exact absurd (stage.symm.trans hresult) (by simp)
    | removed _ _ streamMap =>
        rw [streamMap, ExtTreeMap.getElem?_erase] at hmap
        split_ifs at hmap
        exact hmap
  exact hs (occupied_iff.mpr ⟨h, q, hmap', hslot'⟩)

end PublishSystem

namespace SignalingSystem

variable {s t : SignalingSystem} {a : SignalingAction} {i : ℕ}

/-! ### The lock -/

/-- One handler at a time holds the forwarder, and every call that has not returned is the
call of a handler, which holds the forwarder. -/
structure Locked (s : SignalingSystem) : Prop where
  exclusive : ∀ (i j : ℕ) (r r' : Handler), s.handlers[i]? = some r → s.handlers[j]? = some r' →
    r.stage.HoldsLock → r'.stage.HoldsLock → i = j
  owned : ∀ k < s.streams.calls.length, (s.streams.callResult k).isSome ∨
    ∃ r ∈ s.handlers, r.stage.call = some k

lemma locked_init (h0 : signalingMachine.init s) : s.Locked := by
  obtain ⟨⟨-, hcalls, -⟩, hhandlers⟩ := h0
  exact ⟨by simp [hhandlers], by simp [hcalls]⟩

/-- The turn of a handler keeps the lock to one handler. -/
lemma exclusive_goto {r : Handler} {stage : HandlerStage} {u : PublishSystem} (hs : s.Locked)
    (hr : s.handlers[i]? = some r) (hturn : s.Turn r stage u) (j k : ℕ) (q q' : Handler)
    (hq : (s.goto i r stage u).handlers[j]? = some q)
    (hq' : (s.goto i r stage u).handlers[k]? = some q') (hl : q.stage.HoldsLock)
    (hl' : q'.stage.HoldsLock) : j = k := by
  -- the handler that moves held the lock before, or nobody did
  have hfirst : ∀ n p, stage.HoldsLock → s.handlers[n]? = some p → p.stage.HoldsLock → i = n := by
    intro n p hstage hp hpl
    rcases hturn.locks hstage with hrl | hfree
    · exact hs.exclusive i n r p hr hp hrl hpl
    · exact absurd ⟨p, List.mem_of_getElem? hp, hpl⟩ hfree
  simp only [goto, List.getElem?_set] at hq hq'
  split_ifs at hq hq' with hij hlt hik hlt'
  · exact hij.symm.trans hik
  · obtain rfl := Option.some.inj hq
    exact hij.symm.trans (hfirst k q' hl hq' hl')
  · obtain rfl := Option.some.inj hq'
    exact (hfirst j q hl' hq hl).symm.trans ‹i = k›
  · exact hs.exclusive j k q q' hq hq' hl hl'

lemma locked_step (hs : s.Locked) (hst : s.step a = some t) : t.Locked := by
  cases a with
  | arrive kind stream =>
      simp only [step, Option.ite_none_left_eq_some, Option.some.injEq] at hst
      obtain ⟨-, rfl⟩ := hst
      -- the new handler does not hold the forwarder
      have hold (j : ℕ) (r : Handler) (hl : r.stage.HoldsLock)
          (hr : (s.handlers ++ [⟨kind, stream, .authenticated⟩])[j]? = some r) :
          s.handlers[j]? = some r := by
        rw [List.getElem?_append] at hr
        split_ifs at hr
        · exact hr
        · obtain rfl := List.mem_singleton.mp (List.mem_of_getElem? hr)
          exact absurd hl id
      refine ⟨fun i j r r' hr hr' hl hl' => ?_, fun k hk => ?_⟩
      · exact hs.exclusive i j r r' (hold i r hl hr) (hold j r' hl' hr') hl hl'
      · rcases hs.owned k hk with hret | ⟨r, hr, hcall⟩
        · exact .inl hret
        · exact .inr ⟨r, List.mem_append_left _ hr, hcall⟩
  | streams a =>
      simp only [step, Option.ite_none_right_eq_some, Option.map_eq_some_iff] at hst
      obtain ⟨hown, u, hu, rfl⟩ := hst
      refine ⟨hs.exclusive, fun k hk => ?_⟩
      rcases PublishSystem.length_calls_step hu with hlen | ⟨⟨stream, rfl⟩, -⟩
      · exact (hs.owned k (hlen ▸ hk)).imp_left (PublishSystem.callResult_step hu)
      · exact absurd hown id
  | advance i ok =>
      obtain ⟨r, stage, u, hr, rfl, hturn⟩ := turn_of_advance hst
      refine ⟨exclusive_goto hs hr hturn, fun k hk => ?_⟩
      have hold : k < s.streams.calls.length → (s.streams.callResult k).isSome ∨
          ∃ q ∈ (s.goto i r stage u).handlers, q.stage.call = some k := by
        intro hlt
        rcases hs.owned k hlt with hret | ⟨q, hq, hcall⟩
        · exact .inl hret
        · obtain ⟨j, hj⟩ := List.mem_iff_getElem?.mp hq
          by_cases hij : i = j
          · subst hij
            obtain rfl : r = q := by simpa [hr] using hj
            exact .inl (hturn.calls k hcall)
          · exact .inr ⟨q, List.mem_of_getElem? ((List.getElem?_set_ne hij).trans hj), hcall⟩
      have hnew : { r with stage := stage } ∈ (s.goto i r stage u).handlers :=
        List.mem_of_getElem? (List.getElem?_set_self (List.getElem?_eq_some_iff.mp hr).1)
      rcases hturn.streams with ⟨-, rfl | hu⟩ | ⟨hcall, hu⟩
      · exact hold hk
      · rcases PublishSystem.length_calls_step hu with hlen | ⟨⟨stream, hbegin⟩, -⟩
        · exact (hold (hlen ▸ hk)).imp_left (PublishSystem.callResult_step hu)
        · cases hbegin
      · rcases PublishSystem.length_calls_step hu with hlen | ⟨-, hlen⟩
        · exact (hold (hlen ▸ hk)).imp_left (PublishSystem.callResult_step hu)
        · by_cases hlt : k < s.streams.calls.length
          · exact (hold hlt).imp_left (PublishSystem.callResult_step hu)
          · obtain rfl : k = s.streams.calls.length := by
              have hle : k < s.streams.calls.length + 1 := hlen ▸ hk
              omega
            exact .inr ⟨_, hnew, hcall⟩

/-- **The lock**: in every reachable state one handler at a time holds the forwarder. -/
theorem locked_of_reachable (hs : signalingMachine.Reachable s) : s.Locked :=
  hs.invariant (fun _ => locked_init) fun _ _ _ => locked_step

/-- While a handler waits for a publisher, no call is under way. -/
lemma returned_of_waiting {r : Handler} (hs : s.Locked) (hr : s.handlers[i]? = some r)
    (hw : r.stage.Waiting) : ∀ k < s.streams.calls.length, (s.streams.callResult k).isSome := by
  intro k hk
  refine (hs.owned k hk).resolve_right ?_
  rintro ⟨q, hq, hcall⟩
  obtain ⟨j, hj⟩ := List.mem_iff_getElem?.mp hq
  obtain rfl := hs.exclusive i j r q hr hj hw.holdsLock (HandlerStage.holdsLock_of_call hcall)
  obtain rfl : r = q := by simpa [hr] using hj
  simp [hw.call] at hcall

/-! ### Handlers that wait for a publisher -/

/-- The slot of every stream that a handler waits for is occupied. -/
def WaitsOccupied (s : SignalingSystem) : Prop :=
  ∀ r ∈ s.handlers, r.stage.Waiting → s.streams.Occupied r.stream

/-- No handler goes round for the first time on a stream without a publisher, no publisher
leaves that a handler waits for, and the reaper removes no stream that one waits for. -/
def Attended (s : SignalingSystem) : SignalingAction → Prop
  | .advance i _ => ∀ r ∈ s.handlers[i]?, ∀ h ∈ r.stage.firstPoll,
      s.streams.forwarder.slotIsOk h = false → s.streams.Occupied r.stream
  | .streams (.clear i) => ∀ r ∈ s.handlers, r.stage.Waiting → ¬ s.streams.Deserts i r.stream
  | .streams .tick => ∀ r ∈ s.handlers, r.stage.Waiting →
      s.streams.tick.removal ≠ some r.stream
  | _ => True

instance (s : SignalingSystem) (a : SignalingAction) : Decidable (s.Attended a) :=
  match a with
  | .advance i _ => inferInstanceAs (Decidable (∀ r ∈ s.handlers[i]?, _))
  | .streams (.clear _) => inferInstanceAs (Decidable (∀ r ∈ s.handlers, _))
  | .streams .tick => inferInstanceAs (Decidable (∀ r ∈ s.handlers, _))
  | .arrive .. | .streams (.elapse _) | .streams (.create _) | .streams (.begin _)
  | .streams (.check _) | .streams (.recheck _) | .streams (.negotiate ..) | .streams (.fill _)
  | .streams (.reset _) | .streams (.finish _) | .streams (.connect _) | .streams (.close _)
  | .streams (.stamp _) | .streams (.wake _) => isTrue trivial

/-- A step keeps the slots that are waited for occupied, exactly if it is attended. -/
lemma waitsOccupied_step_iff (hs : s.WaitsOccupied) (hst : s.step a = some t) :
    t.WaitsOccupied ↔ s.Attended a := by
  cases a with
  | arrive kind stream =>
      simp only [step, Option.ite_none_left_eq_some, Option.some.injEq] at hst
      obtain ⟨-, rfl⟩ := hst
      refine iff_of_true (fun r hr hw => ?_) trivial
      rcases List.mem_append.mp hr with hold | hnew
      · exact hs r hold hw
      · obtain rfl := List.mem_singleton.mp hnew
        exact absurd hw id
  | streams a =>
      simp only [step, Option.ite_none_right_eq_some, Option.map_eq_some_iff] at hst
      obtain ⟨-, u, hu, rfl⟩ := hst
      constructor
      · intro ht
        cases a with
        | clear i => exact fun r hr hw hd => PublishSystem.not_occupied_clear hu hd (ht r hr hw)
        | tick => exact fun r hr hw hd => PublishSystem.not_occupied_tick hu hd (ht r hr hw)
        | _ => trivial
      · intro hok r hr hw
        refine PublishSystem.occupied_step hu (hs r hr hw) ?_ ?_
        · rintro _ rfl
          exact hok r hr hw
        · rintro rfl
          exact hok r hr hw
  | advance i ok =>
      constructor
      · intro ht r hr h hpoll hslot
        have heq := advance_firstPoll hr hpoll hslot hst
        subst heq
        have hmem : { r with stage := .polling true none } ∈ s.handlers.set i
            { r with stage := .polling true none } :=
          List.mem_of_getElem? (List.getElem?_set_self (List.getElem?_eq_some_iff.mp hr).1)
        exact ht { r with stage := .polling true none } hmem rfl
      · intro hok
        obtain ⟨r, stage, u, hr, rfl, hturn⟩ := turn_of_advance hst
        -- the streams take a step that leaves an occupied slot alone, if any
        have hkeep : ∀ stream, s.streams.Occupied stream → u.Occupied stream := by
          intro stream hocc
          rcases hturn.streams with ⟨-, rfl | hu⟩ | ⟨-, hu⟩
          · exact hocc
          · exact PublishSystem.occupied_step hu hocc (by simp) (by simp)
          · exact PublishSystem.occupied_step hu hocc (by simp) (by simp)
        intro r' hr' hw
        rcases List.mem_or_eq_of_mem_set hr' with hold | rfl
        · exact hkeep _ (hs r' hold hw)
        · rcases hturn.waits hw with hw' | ⟨h, hpoll, hslot⟩
          · exact hkeep _ (hs r (List.mem_of_getElem? hr) hw')
          · exact hkeep _ (hok r hr h hpoll hslot)

/-- **What is waited for**: in every state of a run the slot of every stream that a handler
of `whep` waits for is occupied, if and only if in every step no handler goes round for the
first time on a stream without a publisher, no publisher leaves that a handler waits for,
and the reaper removes no stream that one waits for. -/
theorem waitsOccupied_iff {s : SignalingSystem} {as : List SignalingAction}
    (h0 : signalingMachine.init s) :
    signalingMachine.Always WaitsOccupied s as ↔ signalingMachine.Guarded Attended s as := by
  have hinit : s.WaitsOccupied := by simp [WaitsOccupied, h0.2]
  refine Machine.always_iff_guarded (I := WaitsOccupied) (fun r a t hr hst => ?_) hinit hinit
  have hiff := waitsOccupied_step_iff hr hst
  exact ⟨hiff, hiff.mpr⟩

/-- A connection that is waited for comes up without the forwarder, and is seen then. -/
lemma publishIsOk_connect {stream : String} {h p : ℕ}
    (hmap : s.streams.forwarder.streamMap[stream]? = some h)
    (hslot : s.streams.forwarder.slot h = some p)
    (hpeer : s.streams.forwarder.peers[p]? = some .negotiating) :
    ∃ t, s.step (.streams (.connect p)) = some t ∧
      t.streams.forwarder.publishIsOk stream = .ok true := by
  refine ⟨_, by simp only [step, PublishAction.Own, if_true, PublishSystem.step,
    PublishSystem.connectStep, hpeer, Option.map_some]; rfl, ?_⟩
  have hlt := (List.getElem?_eq_some_iff.mp hpeer).1
  have hslot' : Forwarder.slot { s.streams.forwarder with
    peers := s.streams.forwarder.peers.set p .connected } h = some p := hslot
  simp [Forwarder.publishIsOk, hmap, Forwarder.slotIsOk, hslot', hlt]

/-- A room without streams and requests. -/
def idle : SignalingSystem := ⟨.unused, []⟩

lemma init_idle : signalingMachine.init idle := ⟨PublishSystem.init_unused, rfl⟩

/-- The handler `i` takes `n` steps. -/
def advances (i n : ℕ) : List SignalingAction := List.replicate n (.advance i true)

/-- A publisher sets up a stream, and a handler of `whep` waits until it is connected. -/
theorem waitsOccupied_idle :
    signalingMachine.Always WaitsOccupied idle
      ([.arrive .whip "stream"] ++ advances 0 4 ++
        [.streams (.check 0), .streams (.recheck 0), .streams (.negotiate 0 (.ok ())),
          .streams (.fill 0), .streams (.reset 0), .streams (.finish 0)] ++ advances 0 1 ++
        [.arrive .whep "stream"] ++ advances 1 7 ++ [.streams (.connect 0)] ++ advances 1 3) :=
  (waitsOccupied_iff init_idle).mpr (by decide)

/-- A stream is created and not published: the handler of `whep` finds it in the table, sets
up no dummy publisher, and waits for an empty slot. -/
theorem not_waitsOccupied_idle :
    ¬ ∀ (s : SignalingSystem) (as : List SignalingAction), signalingMachine.init s →
      signalingMachine.Always WaitsOccupied s as := by
  intro h
  have hend := (h idle ([.arrive .create "stream"] ++ advances 0 2 ++ [.arrive .whep "stream"] ++
    advances 1 6) init_idle).of_exec rfl
  exact Bool.false_ne_true (hend _ (List.mem_of_getElem? (i := 1) rfl) rfl)

/-! ### Handlers that wait for ever -/

/-- The handler goes round on a stream without a publisher, or has ended without one. -/
def Stuck (s : SignalingSystem) (i : ℕ) : Prop :=
  ∃ r, s.handlers[i]? = some r ∧ (r.stage = .done ∨ ¬ s.streams.Occupied r.stream ∧
    ∃ found, r.stage = .polling true found ∧ ∀ h ∈ found, s.streams.forwarder.slot h = none)

/-- A stuck handler goes round again, or ends because its stream is gone. -/
lemma stuck_turn {r : Handler} {ok : Bool} (hr : s.handlers[i]? = some r)
    (hs : r.stage = .done ∨ ¬ s.streams.Occupied r.stream ∧
      ∃ found, r.stage = .polling true found ∧ ∀ h ∈ found, s.streams.forwarder.slot h = none)
    (hst : s.step (.advance i ok) = some t) : t.Stuck i := by
  obtain ⟨kind, stream, stage⟩ := r
  have hset (q : Handler) : (s.handlers.set i q)[i]? = some q :=
    List.getElem?_set_self (List.getElem?_eq_some_iff.mp hr).1
  simp only [step, advanceStep, hr, Option.bind_some] at hst
  rcases hs with rfl | ⟨hocc, found, rfl, hfound⟩
  · cases kind <;> cases hst
  · cases kind with
    | create => cases hst
    | whip => cases hst
    | whep =>
        cases found with
        | none =>
            simp only [whepTurn, Option.ite_none_right_eq_some, Option.some.injEq] at hst
            obtain ⟨-, rfl⟩ := hst
            split
            · exact ⟨_, hset _, .inl rfl⟩
            · rename_i h hmap
              have hempty : s.streams.forwarder.slot h = none := by
                simpa [PublishSystem.Occupied, hmap] using hocc
              exact ⟨_, hset _, .inr ⟨hocc, some h, rfl, by simpa [goto] using hempty⟩⟩
        | some h =>
            have hslot : s.streams.forwarder.slotIsOk h = false := by
              rw [Forwarder.slotIsOk, hfound h rfl]
              rfl
            simp only [whepTurn, hslot, Bool.false_eq_true, if_false, Option.some.injEq] at hst
            subst hst
            exact ⟨_, hset _, .inr ⟨hocc, none, rfl, by simp⟩⟩

lemma stuck_step (hlocked : s.Locked) (hs : s.Stuck i) (hst : s.step a = some t) :
    t.Stuck i := by
  obtain ⟨r, hr, hstage⟩ := hs
  -- while the handler has not ended it holds the forwarder, and no call is under way
  have hkeep (u : PublishSystem) (a : PublishAction) (hu : s.streams.step a = some u) :
      r.stage = .done ∨ ¬ u.Occupied r.stream ∧
        ∃ found, r.stage = .polling true found ∧ ∀ h ∈ found, u.forwarder.slot h = none := by
    refine hstage.imp_right ?_
    rintro ⟨hocc, found, hpoll, hfound⟩
    have hret := returned_of_waiting hlocked hr (by rw [hpoll]; rfl)
    exact ⟨PublishSystem.not_occupied_step hret hu hocc, found, hpoll, fun h hh =>
      PublishSystem.slot_step_of_returned hret hu (hfound h hh)⟩
  cases a with
  | arrive kind stream =>
      simp only [step, Option.ite_none_left_eq_some, Option.some.injEq] at hst
      obtain ⟨-, rfl⟩ := hst
      have hlt := (List.getElem?_eq_some_iff.mp hr).1
      exact ⟨r, (List.getElem?_append_left hlt).trans hr, hstage⟩
  | streams a =>
      simp only [step, Option.ite_none_right_eq_some, Option.map_eq_some_iff] at hst
      obtain ⟨-, u, hu, rfl⟩ := hst
      exact ⟨r, hr, hkeep u a hu⟩
  | advance j ok =>
      by_cases hij : j = i
      · subst hij
        exact stuck_turn hr hstage hst
      · obtain ⟨q, stage, u, -, rfl, hturn⟩ := turn_of_advance hst
        refine ⟨r, (List.getElem?_set_ne hij).trans hr, ?_⟩
        rcases hturn.streams with ⟨-, rfl | hu⟩ | ⟨-, hu⟩
        · exact hstage
        · exact hkeep u _ hu
        · exact hkeep u _ hu

/-- **No way out**: once a handler of `whep` has gone round on a stream without a publisher,
it never gets to subscribe; it holds the forwarder in all states of all further runs, unless
it ends because the stream is removed. -/
theorem stuck_exec {as : List SignalingAction} (hs : signalingMachine.Reachable s)
    (hstuck : s.Stuck i) (h : signalingMachine.exec s as = some t) : t.Stuck i :=
  (Machine.invariant_exec (I := fun s : SignalingSystem => s.Locked ∧ s.Stuck i)
    (fun _ _ _ hr hst => ⟨locked_step hr.1 hst, stuck_step hr.1 hr.2 hst⟩)
    ⟨locked_of_reachable hs, hstuck⟩ h).2

end SignalingSystem

end SfuServer
