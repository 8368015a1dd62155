import SfuServer.Http

/-!
The streams of a room: `Forwarder` of `src/rtc/mod.rs`, with the publish slot of
`PeerForward` and `PeerForwardInternal` of `src/forward/rtc`.

A `PeerForward` is shared by the stream table and by the calls and callbacks that found it,
so it is kept under a handle in `forwards`, where it stays when its entry in the table goes;
likewise the peer connections in `peers`.

The operations that the source performs in several critical sections are here in one piece
each and composed: `fillSlot` and `resetLeaveTime` are the two halves of `set_publish`,
`clearSlot` and `stampLeaveTime` those of `remove_publish`, and `reapStream` is one turn of
the second loop of `publish_check_tick`.

* `slot`, `leaveTime`: the publisher of a stream, and the time at which the last one left;
* `publish`, `streamCreate`, `streamDelete`, `publishCheckTick`: the operations on the table;
* `slot_fillSlot`, `slot_clearSlot`, `streamMap_publishCheckTick` and the like: what each of
  them changes.
-/

open Std (ExtTreeMap)

namespace SfuServer

/-- What is told apart of the state of a peer connection. -/
inductive ConnectionState where
  | negotiating
  | connected
  | closed
  deriving DecidableEq, Repr

/-- `PeerForwardInternal`: the publisher, by the handle of its connection, and the time in
milliseconds at which the last publisher left, zero while there is nothing to time out. -/
structure PeerForwardInternal where
  stream : String
  publishLeaveTime : ℤ
  publish : Option ℕ
  deriving DecidableEq, Repr

/-- `Forwarder`. -/
structure Forwarder where
  publishLeaveTimeout : ℕ
  streamMap : ExtTreeMap String ℕ
  forwards : List PeerForwardInternal
  peers : List ConnectionState

namespace Forwarder

/-- `Forwarder::new`. -/
def new (publishLeaveTimeout : ℕ) : Forwarder := ⟨publishLeaveTimeout, ∅, [], []⟩

/-- `PeerForward::new`, under a new handle. -/
def newForward (f : Forwarder) (stream : String) : Forwarder :=
  { f with forwards := f.forwards ++ [⟨stream, 0, none⟩] }

/-- A new peer connection, under a new handle. -/
def newPeer (f : Forwarder) : Forwarder := { f with peers := f.peers ++ [.negotiating] }

/-- The forward with handle `h` replaced by its image under `u`. -/
def modifyForward (f : Forwarder) (h : ℕ) (u : PeerForwardInternal → PeerForwardInternal) :
    Forwarder :=
  { f with forwards := f.forwards.modify h u }

/-- The publisher of the forward with handle `h`. -/
def slot (f : Forwarder) (h : ℕ) : Option ℕ := f.forwards[h]?.bind (·.publish)

/-- The leave time of the forward with handle `h`. -/
def leaveTime (f : Forwarder) (h : ℕ) : ℤ := (f.forwards[h]?.map (·.publishLeaveTime)).getD 0

/-! ### The publish slot -/

/-- The error of `set_publish` on an occupied slot. -/
def alreadyEstablished : AppError :=
  .streamAlreadyExists "A connection has already been established"

/-- First half of `PeerForwardInternal::set_publish`: an empty slot is filled. -/
def fillSlot (f : Forwarder) (h peer : ℕ) : Except AppError Forwarder :=
  if (f.slot h).isSome then .error alreadyEstablished
  else .ok (f.modifyForward h fun w => { w with publish := some peer })

/-- Second half of `PeerForwardInternal::set_publish`. -/
def resetLeaveTime (f : Forwarder) (h : ℕ) : Forwarder :=
  f.modifyForward h fun w => { w with publishLeaveTime := 0 }

/-- First half of `PeerForwardInternal::remove_publish`: a publisher that closed leaves the
slot, if it is its own. -/
def clearSlot (f : Forwarder) (h peer : ℕ) : Except AppError Forwarder :=
  match f.slot h with
  | none => .error (.throw "publish is none")
  | some p =>
      if p ≠ peer then .error (.throw "publish not myself")
      else .ok (f.modifyForward h fun w => { w with publish := none })

/-- Second half of `PeerForwardInternal::remove_publish`. -/
def stampLeaveTime (f : Forwarder) (h : ℕ) (now : ℤ) : Forwarder :=
  f.modifyForward h fun w => { w with publishLeaveTime := now }

/-- `PeerForwardInternal::set_publish`. -/
def setPublishInternal (f : Forwarder) (h peer : ℕ) : Except AppError Forwarder :=
  (f.fillSlot h peer).map (·.resetLeaveTime h)

/-- `PeerForwardInternal::remove_publish`. -/
def removePublish (f : Forwarder) (h peer : ℕ) (now : ℤ) : Except AppError Forwarder :=
  (f.clearSlot h peer).map (·.stampLeaveTime h now)

/-- `PeerForward::set_publish`, where `negotiated` is the outcome of the negotiation with the
new peer: the slot is checked before it. -/
def setPublish (f : Forwarder) (h : ℕ) (negotiated : Except AppError Unit) :
    Except AppError ℕ × Forwarder :=
  if (f.slot h).isSome then (.error alreadyEstablished, f)
  else
    let peer := f.peers.length
    let f := f.newPeer
    match negotiated with
    | .error e => (.error e, f)
    | .ok () =>
        match f.setPublishInternal h peer with
        | .error e => (.error e, f)
        | .ok f => (.ok peer, f)

/-- `PeerForward::close`: the connection of the publisher is closed.  That it then leaves the
slot is up to its callback. -/
def close (f : Forwarder) (h : ℕ) : Forwarder :=
  match f.slot h with
  | some p => { f with peers := f.peers.set p .closed }
  | none => f

/-! ### The table of the streams -/

/-- `Forwarder::stream_create`. -/
def streamCreate (f : Forwarder) (stream : String) : Except String Forwarder :=
  if stream ∈ f.streamMap then .error "stream already exists"
  else
    let h := f.forwards.length
    let f := f.newForward stream
    .ok { f with streamMap := f.streamMap.insert stream h }

/-- `Forwarder::stream_delete`. -/
def streamDelete (f : Forwarder) (stream : String) : Except String Forwarder :=
  match f.streamMap[stream]? with
  | none => .error "stream not exists"
  | some h =>
      let f := f.close h
      .ok { f with streamMap := f.streamMap.erase stream }

/-- `Forwarder::is_stream_exists`. -/
def isStreamExists (f : Forwarder) (stream : String) : Bool := stream ∈ f.streamMap

/-- `PeerForwardInternal::publish_is_ok`. -/
def slotIsOk (f : Forwarder) (h : ℕ) : Bool :=
  (f.slot h).any fun p => decide (f.peers[p]? = some .connected)

/-- `Forwarder::publish_is_ok`. -/
def publishIsOk (f : Forwarder) (stream : String) : Except AppError Bool :=
  match f.streamMap[stream]? with
  | none => .error (.streamNotFound "stream not exists")
  | some h => .ok (f.slotIsOk h)

/-- `Forwarder::publish`: on a stream that is not in the table, a new forward is set up and
entered at the end. -/
def publish (f : Forwarder) (stream : String) (negotiated : Except AppError Unit) :
    Except AppError ℕ × Forwarder :=
  match f.streamMap[stream]? with
  | some h => f.setPublish h negotiated
  | none =>
      let h := f.forwards.length
      match (f.newForward stream).setPublish h negotiated with
      | (.error e, f) => (.error e, f)
      | (.ok peer, f) =>
          if stream ∈ f.streamMap then
            (.error (.streamAlreadyExists "stream already exists"), f.close h)
          else (.ok peer, { f with streamMap := f.streamMap.insert stream h })

/-- The test of `publish_check_tick` on the leave time `leave`, at the time `now`. -/
def TimedOut (f : Forwarder) (leave now : ℤ) : Prop :=
  0 < leave ∧ (f.publishLeaveTimeout : ℤ) < now - leave

instance (f : Forwarder) (leave now : ℤ) : Decidable (f.TimedOut leave now) :=
  inferInstanceAs (Decidable (_ ∧ _))

/-- The test on the forward with handle `h`. -/
def Expired (f : Forwarder) (h : ℕ) (now : ℤ) : Prop := f.TimedOut (f.leaveTime h) now

instance (f : Forwarder) (h : ℕ) (now : ℤ) : Decidable (f.Expired h now) :=
  inferInstanceAs (Decidable (f.TimedOut _ _))

/-- One turn of the second loop of `publish_check_tick`. -/
def reapStream (f : Forwarder) (stream : String) (now : ℤ) : Forwarder :=
  match f.streamMap[stream]? with
  | none => f
  | some h =>
      if f.Expired h now then
        let f := f.close h
        { f with streamMap := f.streamMap.erase stream }
      else f

/-- The greatest value of the type that the timeout is converted to. -/
def i64Max : ℕ := 2 ^ 63 - 1

/-- One round of `publish_check_tick`, where `scan` and `reap` are the times at which the two
loops look at a stream.  A timeout that does not fit the signed type panics before the
first round. -/
def publishCheckTick (f : Forwarder) (scan reap : String → ℤ) : Forwarder :=
  if f.publishLeaveTimeout ≤ i64Max then
    let removeStreams := f.streamMap.keys.filter fun s =>
      f.streamMap[s]?.any fun h => decide (f.Expired h (scan s))
    removeStreams.foldl (fun f s => f.reapStream s (reap s)) f
  else f

/-! ### What the operations change -/

section Lemmas

variable (f : Forwarder) (h k peer : ℕ) (now : ℤ) (u : PeerForwardInternal → PeerForwardInternal)

lemma slot_modifyForward : (f.modifyForward h u).slot k =
    f.forwards[k]?.bind fun w => if k = h then (u w).publish else w.publish := by
  rw [slot, modifyForward, List.getElem?_modify]
  by_cases hk : k = h
  · subst hk
    cases f.forwards[k]? <;> simp
  · cases f.forwards[k]? <;> simp [hk, Ne.symm hk]

lemma leaveTime_modifyForward : (f.modifyForward h u).leaveTime k =
    (f.forwards[k]?.map fun w =>
      if k = h then (u w).publishLeaveTime else w.publishLeaveTime).getD 0 := by
  rw [leaveTime, modifyForward, List.getElem?_modify]
  by_cases hk : k = h
  · subst hk
    cases f.forwards[k]? <;> simp
  · cases f.forwards[k]? <;> simp [hk, Ne.symm hk]

@[simp] lemma modifyForward_streamMap : (f.modifyForward h u).streamMap = f.streamMap := rfl

@[simp] lemma modifyForward_forwards_length :
    (f.modifyForward h u).forwards.length = f.forwards.length := by
  simp [modifyForward]

@[simp] lemma slot_resetLeaveTime : (f.resetLeaveTime h).slot k = f.slot k := by
  rw [resetLeaveTime, slot_modifyForward, slot]
  cases f.forwards[k]? <;> simp

@[simp] lemma slot_stampLeaveTime : (f.stampLeaveTime h now).slot k = f.slot k := by
  rw [stampLeaveTime, slot_modifyForward, slot]
  cases f.forwards[k]? <;> simp

@[simp] lemma close_streamMap : (f.close h).streamMap = f.streamMap := by
  rw [close]
  split <;> rfl

@[simp] lemma close_publishLeaveTimeout :
    (f.close h).publishLeaveTimeout = f.publishLeaveTimeout := by
  rw [close]
  split <;> rfl

@[simp] lemma close_forwards : (f.close h).forwards = f.forwards := by
  rw [close]
  split <;> rfl

/-- What a new forward has in common with none. -/
lemma read_newForward {β : Type*} (stream : String) (r : Option PeerForwardInternal → β)
    (hr : r (some ⟨stream, 0, none⟩) = r none) :
    r (f.newForward stream).forwards[k]? = r f.forwards[k]? := by
  rcases lt_trichotomy k f.forwards.length with hk | rfl | hk
  · rw [newForward, List.getElem?_append_left hk]
  · rw [newForward, List.getElem?_concat_length, hr, List.getElem?_eq_none le_rfl]
  · rw [newForward, List.getElem?_eq_none (by simpa using hk), List.getElem?_eq_none hk.le]

/-- A new forward has nobody in its slot. -/
@[simp] lemma slot_newForward (stream : String) : (f.newForward stream).slot k = f.slot k :=
  f.read_newForward k stream (fun w => w.bind PeerForwardInternal.publish) rfl

/-- A new forward has nothing to time out. -/
@[simp] lemma leaveTime_newForward (stream : String) :
    (f.newForward stream).leaveTime k = f.leaveTime k :=
  f.read_newForward k stream (fun w => (w.map PeerForwardInternal.publishLeaveTime).getD 0) rfl

lemma slot_modify_publish (x : Option ℕ) :
    (f.modifyForward h fun w => { w with publish := x }).slot k =
      if k = h ∧ h < f.forwards.length then x else f.slot k := by
  rw [slot_modifyForward, slot]
  by_cases hk : k = h
  · subst hk
    by_cases hlt : k < f.forwards.length <;> simp [hlt]
  · cases f.forwards[k]? <;> simp [hk]

@[simp] lemma leaveTime_modify_publish (x : Option ℕ) :
    (f.modifyForward h fun w => { w with publish := x }).leaveTime k = f.leaveTime k := by
  rw [leaveTime_modifyForward, leaveTime]
  cases f.forwards[k]? <;> simp

lemma leaveTime_resetLeaveTime :
    (f.resetLeaveTime h).leaveTime k = if k = h then 0 else f.leaveTime k := by
  rw [resetLeaveTime, leaveTime_modifyForward, leaveTime]
  by_cases hk : k = h <;> cases f.forwards[k]? <;> simp [hk]

lemma leaveTime_stampLeaveTime : (f.stampLeaveTime h now).leaveTime k =
    if k = h ∧ h < f.forwards.length then now else f.leaveTime k := by
  rw [stampLeaveTime, leaveTime_modifyForward, leaveTime]
  by_cases hk : k = h
  · subst hk
    by_cases hlt : k < f.forwards.length <;> simp [hlt]
  · cases f.forwards[k]? <;> simp [hk]

/-- The slot is read off the forwards. -/
lemma slot_congr {f g : Forwarder} (hf : f.forwards = g.forwards) (h : ℕ) :
    f.slot h = g.slot h := by
  rw [slot, slot, hf]

/-- The leave time is read off the forwards. -/
lemma leaveTime_congr {f g : Forwarder} (hf : f.forwards = g.forwards) (h : ℕ) :
    f.leaveTime h = g.leaveTime h := by
  rw [leaveTime, leaveTime, hf]

/-- The handle of a slot that is occupied. -/
lemma lt_of_slot {f : Forwarder} {h p : ℕ} (hs : f.slot h = some p) : h < f.forwards.length := by
  rw [slot] at hs
  cases hw : f.forwards[h]? with
  | none => simp [hw] at hs
  | some w => exact (List.getElem?_eq_some_iff.mp hw).1

/-- The handle of a leave time that is set. -/
lemma lt_of_leaveTime {f : Forwarder} {h : ℕ} (hL : 0 < f.leaveTime h) :
    h < f.forwards.length := by
  by_contra hge
  rw [leaveTime, List.getElem?_eq_none (not_lt.mp hge)] at hL
  simp at hL

/-- What filling a slot changes: it was empty, and is the peer's. -/
lemma fillSlot_eq_ok_iff {f f' : Forwarder} {h peer : ℕ} : f.fillSlot h peer = .ok f' ↔
    f.slot h = none ∧ f' = f.modifyForward h fun w => { w with publish := some peer } := by
  rw [fillSlot]
  cases f.slot h with
  | none => simp [eq_comm]
  | some p => simp

/-- What leaving a slot changes: it was the peer's, and is empty. -/
lemma clearSlot_eq_ok_iff {f f' : Forwarder} {h peer : ℕ} : f.clearSlot h peer = .ok f' ↔
    f.slot h = some peer ∧ f' = f.modifyForward h fun w => { w with publish := none } := by
  rw [clearSlot]
  cases f.slot h with
  | none => simp
  | some p =>
      by_cases hp : p = peer
      · simp [hp, eq_comm]
      · simp [hp]

end Lemmas

/-! ### The table of the streams after an operation -/

section StreamMap

variable {f f' : Forwarder} {stream : String}

lemma streamCreate_eq_ok_iff : f.streamCreate stream = .ok f' ↔ stream ∉ f.streamMap ∧
    f' = { f.newForward stream with
      streamMap := f.streamMap.insert stream f.forwards.length } := by
  rw [streamCreate]
  split_ifs with hs
  · simp [hs]
  · simp [hs, newForward, eq_comm]

lemma streamDelete_eq_ok_iff : f.streamDelete stream = .ok f' ↔
    ∃ h, f.streamMap[stream]? = some h ∧
      f' = { f.close h with streamMap := f.streamMap.erase stream } := by
  rw [streamDelete]
  cases f.streamMap[stream]? with
  | none => simp
  | some h => simp [eq_comm]

/-- A stream can be deleted exactly if it is in the table. -/
lemma exists_streamDelete (hs : stream ∈ f.streamMap) : ∃ f', f.streamDelete stream = .ok f' := by
  obtain ⟨h, hh⟩ := Option.isSome_iff_exists.mp (ExtTreeMap.mem_iff_isSome_getElem?.mp hs)
  exact ⟨_, streamDelete_eq_ok_iff.mpr ⟨h, hh, rfl⟩⟩

lemma streamMap_of_streamDelete (h : f.streamDelete stream = .ok f') :
    f'.streamMap = f.streamMap.erase stream := by
  obtain ⟨k, -, rfl⟩ := streamDelete_eq_ok_iff.mp h
  rfl

@[simp] lemma streamMap_setPublish (f : Forwarder) (h : ℕ) (negotiated : Except AppError Unit) :
    (f.setPublish h negotiated).2.streamMap = f.streamMap := by
  rw [setPublish]
  split_ifs
  · rfl
  · cases negotiated with
    | error e => rfl
    | ok _ =>
        simp only [setPublishInternal, fillSlot]
        split_ifs <;> rfl

/-- A publish removes no stream, and enters none but its own. -/
lemma mem_streamMap_publish (f : Forwarder) (stream : String)
    (negotiated : Except AppError Unit) (s : String) :
    (s ∈ f.streamMap → s ∈ (f.publish stream negotiated).2.streamMap) ∧
      (s ∈ (f.publish stream negotiated).2.streamMap → s = stream ∨ s ∈ f.streamMap) := by
  rw [publish]
  cases f.streamMap[stream]? with
  | some h => simpa using Or.inr
  | none =>
      have hmap := streamMap_setPublish (f.newForward stream) f.forwards.length negotiated
      change _ = f.streamMap at hmap
      dsimp only
      split
      · rename_i e f' hset
        rw [hset] at hmap
        change f'.streamMap = f.streamMap at hmap
        simpa [hmap] using Or.inr
      · rename_i peer f' hset
        rw [hset] at hmap
        change f'.streamMap = f.streamMap at hmap
        split_ifs
        · simpa [hmap] using Or.inr
        · simp only [hmap, ExtTreeMap.mem_insert, Std.LawfulEqCmp.compare_eq_iff_eq]
          exact ⟨.inr, fun h => h.imp_left Eq.symm⟩

/-- A publish that succeeds leaves its stream in the table. -/
lemma mem_streamMap_of_publish {negotiated : Except AppError Unit} {peer : ℕ}
    (h : f.publish stream negotiated = (.ok peer, f')) : stream ∈ f'.streamMap := by
  rw [publish] at h
  cases hs : f.streamMap[stream]? with
  | some k =>
      have hmap := streamMap_setPublish f k negotiated
      rw [hs] at h
      dsimp only at h
      rw [h] at hmap
      change f'.streamMap = f.streamMap at hmap
      rw [hmap, ExtTreeMap.mem_iff_isSome_getElem?, hs]
      rfl
  | none =>
      rw [hs] at h
      dsimp only at h
      split at h
      · simp at h
      · split_ifs at h
        · cases h
        · cases h
          simp

lemma expired_reapStream (f : Forwarder) (s : String) (now : ℤ) (h : ℕ) (t : ℤ) :
    (f.reapStream s now).Expired h t ↔ f.Expired h t := by
  rw [reapStream]
  split
  · rfl
  · split_ifs
    · simp [Expired, TimedOut, leaveTime]
    · rfl

lemma streamMap_reapStream (f : Forwarder) (s t : String) (now : ℤ) (h : ℕ) :
    (f.reapStream s now).streamMap[t]? = some h ↔
      f.streamMap[t]? = some h ∧ ¬ (t = s ∧ f.Expired h now) := by
  rw [reapStream]
  by_cases ht : t = s
  · subst ht
    cases hs : f.streamMap[t]? with
    | none => simp [hs]
    | some k =>
        by_cases hx : f.Expired k now
        · simp only [hx, if_true, ExtTreeMap.getElem?_erase_self, true_and, Option.some.injEq,
            reduceCtorEq, false_iff, not_and, not_not]
          exact fun hk => hk ▸ hx
        · simp only [hx, if_false, hs, Option.some.injEq, true_and, iff_self_and]
          exact fun hk => hk ▸ hx
  · cases hs : f.streamMap[s]? with
    | none => simp [ht]
    | some k =>
        by_cases hx : f.Expired k now <;>
          simp [hx, ht, Ne.symm ht, ExtTreeMap.getElem?_erase]

/-- The second loop of a round removes the streams of the list that are still expired when
their turn comes. -/
lemma streamMap_foldl_reapStream (f : Forwarder) (streams : List String) (reap : String → ℤ)
    (t : String) (h : ℕ) :
    (streams.foldl (fun f s => f.reapStream s (reap s)) f).streamMap[t]? = some h ↔
      f.streamMap[t]? = some h ∧ ¬ (t ∈ streams ∧ f.Expired h (reap t)) := by
  induction streams generalizing f with
  | nil => simp
  | cons s streams ih =>
      rw [List.foldl_cons, ih, streamMap_reapStream, expired_reapStream, and_assoc]
      refine and_congr_right fun _ => ?_
      by_cases ht : t = s
      · subst ht
        simp only [true_and, List.mem_cons, true_or, and_iff_left_iff_imp, not_and]
        exact fun hx _ => hx
      · simp [ht]

/-- **What a round of the reaper removes**: the streams that are expired whenever the round
looks at them. -/
theorem streamMap_publishCheckTick (f : Forwarder) (scan reap : String → ℤ) (t : String)
    (h : ℕ) :
    (f.publishCheckTick scan reap).streamMap[t]? = some h ↔
      f.streamMap[t]? = some h ∧ ¬ (f.publishLeaveTimeout ≤ i64Max ∧ f.Expired h (scan t) ∧
        f.Expired h (reap t)) := by
  rw [publishCheckTick]
  split_ifs with ht
  · rw [streamMap_foldl_reapStream]
    refine and_congr_right fun hs => ?_
    have hmem : t ∈ f.streamMap := by
      rw [ExtTreeMap.mem_iff_isSome_getElem?, hs]
      rfl
    simp only [List.mem_filter, ExtTreeMap.mem_keys, hmem, hs, Option.any_some, decide_eq_true_eq,
      ht, true_and]
  · simp [ht]

end StreamMap

end Forwarder

end SfuServer
