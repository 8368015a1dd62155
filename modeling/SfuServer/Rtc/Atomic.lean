import SfuServer.Rtc.Publish

/-!
The operations of a forwarder as runs of `publishMachine` in which nothing comes between.

`Forwarder.publish`, `Forwarder.removePublish` and `Forwarder.publishCheckTick` perform in one
piece what the machine does step by step; here is that they are what the steps come to when
one call, one callback or the reaper alone moves.

* `exec_publish`: a call of `publish` that is not interrupted;
* `exec_removePublish`: a callback that is not interrupted;
* `exec_publishCheckTick`: a round of the reaper that is not interrupted, in no time.
-/

open Std (ExtTreeMap)

namespace SfuServer.PublishSystem

variable {s t : PublishSystem} {i p : ℕ} {c : PublishCall}

lemma getElem?_setCall (hc : s.calls[i]? = some c) (c' : PublishCall) :
    (s.setCall i c').calls[i]? = some c' :=
  List.getElem?_set_self (List.getElem?_eq_some_iff.mp hc).1

/-! ### A callback -/

/-- **A callback in one piece**: the two steps of a callback are `removePublish`. -/
theorem exec_removePublish {f : Forwarder} (hc : s.calls[i]? = some c) (hp : c.peer = some p)
    (hidle : c.leave = .idle) (hclosed : s.forwarder.peers[p]? = some .closed)
    (hf : s.forwarder.removePublish c.forward p s.clock = .ok f) :
    ∃ t, publishMachine.exec s [.clear i, .stamp i] = some t ∧ t.forwarder = f := by
  rw [Forwarder.removePublish] at hf
  cases hclear : s.forwarder.clearSlot c.forward p with
  | error e =>
      rw [hclear] at hf
      cases hf
  | ok g =>
      rw [hclear] at hf
      obtain rfl := Except.ok.inj hf
      let u : PublishSystem := { s with
        forwarder := g
        emptiedAt := Function.update s.emptiedAt c.forward s.clock }
      have hclear' : publishMachine.step s (.clear i) =
          some (u.setCall i { c with leave := .cleared }) := by
        simp [publishMachine, step, clearStep, hc, hp, hidle, hclosed, hclear, u]
      have hstamp : publishMachine.step (u.setCall i { c with leave := .cleared }) (.stamp i) =
          some ({ u with forwarder := g.stampLeaveTime c.forward s.clock }.setCall i
            { c with leave := .done }) := by
        have hget := getElem?_setCall (s := u) hc { c with leave := .cleared }
        simp only [publishMachine, step, stampStep, hget, Option.bind_some, if_true]
        simp [setCall, u]
      exact ⟨_, Machine.exec_step hclear' (Machine.exec_step hstamp rfl), rfl⟩

/-! ### A call -/

/-- The steps of a call after its begin. -/
def callSteps (i : ℕ) (negotiated : Except AppError Unit) : List PublishAction :=
  [.check i, .recheck i, .negotiate i negotiated, .fill i, .reset i, .finish i]

/-- A call on an occupied slot ends with its first test. -/
lemma exec_occupied (hc : s.calls[i]? = some c) (hstage : c.stage = .checking)
    (hslot : (s.forwarder.slot c.forward).isSome) :
    publishMachine.exec s [.check i] = some (s.setCall i
      { c with stage := .returned (.error Forwarder.alreadyEstablished) }) := by
  simp [publishMachine, step, checkStep, onCall, hc, hstage, hslot]

/-- A call on an empty slot gets to its negotiation, with a new connection. -/
lemma exec_negotiating (hc : s.calls[i]? = some c) (hstage : c.stage = .checking)
    (hslot : s.forwarder.slot c.forward = none) :
    publishMachine.exec s [.check i, .recheck i] =
      some ({ s with forwarder := s.forwarder.newPeer }.setCall i
        { c with peer := some s.forwarder.peers.length, stage := .negotiating }) := by
  have hcheck : publishMachine.step s (.check i) =
      some (s.setCall i { c with stage := .rechecking }) := by
    simp [publishMachine, step, checkStep, onCall, hc, hstage, hslot]
  refine Machine.exec_step hcheck ?_
  have hget := getElem?_setCall hc { c with stage := .rechecking }
  have hslot' : (s.setCall i { c with stage := .rechecking }).forwarder.slot c.forward = none :=
    hslot
  simp [publishMachine, step, recheckStep, onCall, hget, hslot']
  simp [setCall]

/-- A call whose negotiation fails returns the error. -/
lemma exec_failed {e : AppError} (hc : s.calls[i]? = some c) (hstage : c.stage = .negotiating) :
    publishMachine.exec s [.negotiate i (.error e)] =
      some (s.setCall i { c with stage := .returned (.error e) }) := by
  simp [publishMachine, step, negotiateStep, onCall, hc, hstage]

/-- A call whose negotiation succeeds fills the empty slot and resets the leave time. -/
lemma exec_filled {f : Forwarder} (hc : s.calls[i]? = some c) (hstage : c.stage = .negotiating)
    (hp : c.peer = some p) (hf : s.forwarder.setPublishInternal c.forward p = .ok f) :
    publishMachine.exec s [.negotiate i (.ok ()), .fill i, .reset i] =
      some ({ s with forwarder := f }.setCall i { c with stage := .finishing }) := by
  rw [Forwarder.setPublishInternal] at hf
  cases hfill : s.forwarder.fillSlot c.forward p with
  | error e =>
      rw [hfill] at hf
      cases hf
  | ok g =>
      rw [hfill] at hf
      obtain rfl := Except.ok.inj hf
      have hnegotiate : publishMachine.step s (.negotiate i (.ok ())) =
          some (s.setCall i { c with stage := .setting }) := by
        simp [publishMachine, step, negotiateStep, onCall, hc, hstage]
      refine Machine.exec_step hnegotiate ?_
      have hget := getElem?_setCall hc { c with stage := .setting }
      have hfill' : publishMachine.step (s.setCall i { c with stage := .setting }) (.fill i) =
          some ({ s with forwarder := g }.setCall i { c with stage := .resetting }) := by
        refine onCall_eq_some_iff.mpr ⟨_, hget, rfl, ?_⟩
        simp [setCall, hp, hfill]
      refine Machine.exec_step hfill' ?_
      have hget' := getElem?_setCall (s := { s with forwarder := g }) hc
        { c with stage := .resetting }
      simp [publishMachine, step, resetStep, onCall, hget']
      simp [setCall]

/-- The last step of a call that found its forward. -/
lemma exec_found (hc : s.calls[i]? = some c) (hstage : c.stage = .finishing)
    (hfound : c.found = true) :
    publishMachine.exec s [.finish i] =
      some (s.setCall i { c with stage := .returned (.ok ()) }) := by
  simp [publishMachine, step, finishStep, onCall, hc, hstage, hfound]

/-- The last step of a call that set up its forward. -/
lemma exec_entered (hc : s.calls[i]? = some c) (hstage : c.stage = .finishing)
    (hfound : c.found = false) (hw : s.tick.Writable) (hs : c.stream ∉ s.forwarder.streamMap) :
    publishMachine.exec s [.finish i] =
      some ({ s with forwarder := { s.forwarder with
        streamMap := s.forwarder.streamMap.insert c.stream c.forward } }.setCall i
          { c with stage := .returned (.ok ()) }) := by
  simp [publishMachine, step, finishStep, onCall, hc, hstage, hfound, hw, hs]

lemma callResult_of_returned {result : Except AppError Unit} (hc : s.calls[i]? = some c)
    (hstage : c.stage = .returned result) : s.callResult i = some result.toBool := by
  rw [callResult, hc, Option.bind_some, hstage]
  cases result <;> rfl

/-- What a call that is not interrupted comes to before its last step. -/
lemma exec_setPublish {negotiated : Except AppError Unit} (hc : s.calls[i]? = some c)
    (hstage : c.stage = .checking) :
    (∃ n e f u, s.forwarder.setPublish c.forward negotiated = (.error e, f) ∧
      publishMachine.exec s ((callSteps i negotiated).take n) = some u ∧ u.forwarder = f ∧
        u.callResult i = some false) ∨
    ∃ q f u, s.forwarder.setPublish c.forward negotiated = (.ok q, f) ∧
      publishMachine.exec s ((callSteps i negotiated).take 5) = some u ∧ u.forwarder = f ∧
        u.tick = s.tick ∧ u.calls[i]? = some { c with peer := some q, stage := .finishing } := by
  rw [Forwarder.setPublish]
  cases hslot : s.forwarder.slot c.forward with
  | some p =>
      have hsome : (s.forwarder.slot c.forward).isSome := by rw [hslot]; rfl
      refine .inl ⟨1, _, _, _, if_pos rfl, exec_occupied hc hstage hsome, rfl, ?_⟩
      exact callResult_of_returned (getElem?_setCall hc
        { c with stage := .returned (.error Forwarder.alreadyEstablished) }) rfl
  | none =>
      rw [if_neg (by simp)]
      have hrun := exec_negotiating hc hstage hslot
      have hget := getElem?_setCall (s := { s with forwarder := s.forwarder.newPeer }) hc
        { c with peer := some s.forwarder.peers.length, stage := .negotiating }
      cases negotiated with
      | error e =>
          refine .inl ⟨3, _, _, _, rfl, Machine.exec_trans hrun (exec_failed hget rfl), rfl, ?_⟩
          exact callResult_of_returned (getElem?_setCall hget { c with
            peer := some s.forwarder.peers.length, stage := .returned (.error e) }) rfl
      | ok _ =>
          -- nothing comes between, so the slot is still empty
          have hfill : s.forwarder.newPeer.fillSlot c.forward s.forwarder.peers.length =
              .ok (s.forwarder.newPeer.modifyForward c.forward fun w =>
                { w with publish := some s.forwarder.peers.length }) :=
            Forwarder.fillSlot_eq_ok_iff.mpr ⟨hslot, rfl⟩
          obtain ⟨f, hset⟩ : ∃ f, s.forwarder.newPeer.setPublishInternal c.forward
              s.forwarder.peers.length = .ok f := by
            rw [Forwarder.setPublishInternal, hfill]
            exact ⟨_, rfl⟩
          refine .inr ⟨s.forwarder.peers.length, f, _, by simp only [hset],
            Machine.exec_trans hrun (exec_filled hget rfl rfl hset), rfl, rfl, ?_⟩
          exact List.getElem?_set_self (List.getElem?_eq_some_iff.mp hget).1

/-- **A call in one piece**: while the table can be written, a call that is not interrupted
does to the forwarder what `publish` does, and returns with success when `publish` does. -/
theorem exec_publish (hw : s.tick.Writable) (stream : String)
    (negotiated : Except AppError Unit) :
    ∃ n u, publishMachine.exec s
        (.begin stream :: (callSteps s.calls.length negotiated).take n) = some u ∧
      u.forwarder = (s.forwarder.publish stream negotiated).2 ∧
        u.callResult s.calls.length =
          some (s.forwarder.publish stream negotiated).1.toBool := by
  have hr : s.tick.Readable := hw.readable
  cases hmap : s.forwarder.streamMap[stream]? with
  | some h =>
      let c : PublishCall := ⟨stream, h, true, none, .checking, .idle⟩
      have hbegin : publishMachine.step s (.begin stream) =
          some { s with calls := s.calls ++ [c] } := by
        simp [publishMachine, step, beginStep, hr, hmap, c]
      have hget : (s.calls ++ [c])[s.calls.length]? = some c := by simp
      rw [Forwarder.publish, hmap]
      dsimp only
      rcases exec_setPublish (s := { s with calls := s.calls ++ [c] }) hget rfl with
        ⟨n, e, f, u, hset, hrun, hf, hresult⟩ | ⟨q, f, u, hset, hrun, hf, -, hcall⟩
      · change s.forwarder.setPublish h negotiated = (.error e, f) at hset
        refine ⟨n, u, Machine.exec_step hbegin hrun, ?_, ?_⟩
        · rw [hf, hset]
        · rw [hresult, hset]
          rfl
      · change s.forwarder.setPublish h negotiated = (.ok q, f) at hset
        have hlast := exec_found hcall rfl rfl
        refine ⟨6, _, Machine.exec_step hbegin (Machine.exec_trans hrun hlast), ?_, ?_⟩
        · rw [hset]
          exact hf
        · rw [hset]
          exact callResult_of_returned (getElem?_setCall hcall { c with
            peer := some q, stage := .returned (.ok ()) }) rfl
  | none =>
      let h := s.forwarder.forwards.length
      let c : PublishCall := ⟨stream, h, false, none, .checking, .idle⟩
      let r : PublishSystem := { s with
        forwarder := s.forwarder.newForward stream
        calls := s.calls ++ [c]
        emptiedAt := Function.update s.emptiedAt h s.clock }
      have hbegin : publishMachine.step s (.begin stream) = some r := by
        simp [publishMachine, step, beginStep, hr, hmap, c, r, h]
      have hget : r.calls[s.calls.length]? = some c := by simp [r]
      rw [Forwarder.publish, hmap]
      dsimp only
      rcases exec_setPublish (s := r) hget rfl with
        ⟨n, e, f, u, hset, hrun, hf, hresult⟩ | ⟨q, f, u, hset, hrun, hf, htick, hcall⟩
      · change (s.forwarder.newForward stream).setPublish h negotiated = (.error e, f) at hset
        refine ⟨n, u, Machine.exec_step hbegin hrun, ?_, ?_⟩
        · rw [hf, hset]
        · rw [hresult, hset]
          rfl
      · change (s.forwarder.newForward stream).setPublish h negotiated = (.ok q, f) at hset
        -- nobody has entered the stream meanwhile
        have hfmap : f.streamMap = s.forwarder.streamMap := by
          have hkeep := Forwarder.streamMap_setPublish (s.forwarder.newForward stream) h negotiated
          rw [hset] at hkeep
          exact hkeep
        have hfresh : stream ∉ f.streamMap := by
          rw [hfmap, ExtTreeMap.mem_iff_isSome_getElem?, hmap]
          simp
        have hw' : u.tick.Writable := htick ▸ hw
        have hlast := exec_entered hcall rfl rfl hw' (hf ▸ hfresh)
        refine ⟨6, _, Machine.exec_step hbegin (Machine.exec_trans hrun hlast), ?_, ?_⟩
        · rw [hset]
          dsimp only
          rw [if_neg hfresh]
          simp [setCall, hf, c, h]
        · rw [hset]
          dsimp only
          rw [if_neg hfresh]
          refine callResult_of_returned (getElem?_setCall (s := { u with forwarder := _ }) hcall
            { c with peer := some q, stage := .returned (.ok ()) }) rfl

/-! ### A round of the reaper -/

/-- The first loop of a round notes the streams whose leave time is over. -/
lemma exec_scanning (todo : List (String × ℕ)) (remove : List String)
    (htick : s.tick = .scanning todo remove) :
    ∃ n, publishMachine.exec s (List.replicate n .tick) = some { s with
      tick := .scanning []
        (remove ++ (todo.filter fun x => s.forwarder.Expired x.2 s.clock).map Prod.fst) } := by
  induction todo generalizing s remove with
  | nil =>
      refine ⟨0, ?_⟩
      rw [List.filter_nil, List.map_nil, List.append_nil, ← htick]
      rfl
  | cons x todo ih =>
      obtain ⟨stream, h⟩ := x
      -- one step reads the leave time, the next one compares it
      let r : PublishSystem := { s with
        tick := .scanned stream (s.forwarder.leaveTime h) todo remove }
      have hread : publishMachine.step s .tick = some r := by
        simp [publishMachine, step, tickStep, htick, r]
      by_cases hx : s.forwarder.Expired h s.clock
      · have hcompare : publishMachine.step r .tick =
            some { s with tick := .scanning todo (remove ++ [stream]) } := by
          have hout : s.forwarder.TimedOut (s.forwarder.leaveTime h) s.clock := hx
          simp [publishMachine, step, tickStep, r, hout]
        obtain ⟨n, hn⟩ := ih (s := { s with tick := .scanning todo (remove ++ [stream]) }) _ rfl
        refine ⟨n + 2, Machine.exec_step hread (Machine.exec_step hcompare (hn.trans ?_))⟩
        simp [hx]
      · have hcompare : publishMachine.step r .tick =
            some { s with tick := .scanning todo remove } := by
          have hout : ¬ s.forwarder.TimedOut (s.forwarder.leaveTime h) s.clock := hx
          simp [publishMachine, step, tickStep, r, hout]
        obtain ⟨n, hn⟩ := ih (s := { s with tick := .scanning todo remove }) _ rfl
        refine ⟨n + 2, Machine.exec_step hread (Machine.exec_step hcompare (hn.trans ?_))⟩
        simp [hx]

/-- One turn of the second loop of a round. -/
lemma exec_reapStream (stream : String) (todo : List String)
    (htick : s.tick = .reaping (stream :: todo)) :
    ∃ n, publishMachine.exec s (List.replicate n .tick) = some { s with
      forwarder := s.forwarder.reapStream stream s.clock
      tick := .reaping todo } := by
  cases hmap : s.forwarder.streamMap[stream]? with
  | none =>
      refine ⟨1, ?_⟩
      simp [publishMachine, step, tickStep, htick, hmap, Forwarder.reapStream]
  | some h =>
      let r : PublishSystem := { s with
        tick := .comparing stream h (s.forwarder.leaveTime h) todo }
      have hread : publishMachine.step s .tick = some r := by
        simp [publishMachine, step, tickStep, htick, hmap, r]
      by_cases hx : s.forwarder.Expired h s.clock
      · have hout : s.forwarder.TimedOut (s.forwarder.leaveTime h) s.clock := hx
        refine ⟨4, Machine.exec_step hread ?_⟩
        simp [publishMachine, Machine.exec, step, tickStep, r, hout, Forwarder.reapStream, hmap, hx]
      · have hout : ¬ s.forwarder.TimedOut (s.forwarder.leaveTime h) s.clock := hx
        refine ⟨2, Machine.exec_step hread ?_⟩
        simp [publishMachine, Machine.exec, step, tickStep, r, hout, Forwarder.reapStream, hmap, hx]

/-- The second loop of a round takes the noted streams one after the other. -/
lemma exec_reaping (todo : List String) (htick : s.tick = .reaping todo) :
    ∃ n, publishMachine.exec s (List.replicate n .tick) = some { s with
      forwarder := todo.foldl (fun f stream => f.reapStream stream s.clock) s.forwarder
      tick := .sleeping } := by
  induction todo generalizing s with
  | nil =>
      refine ⟨1, ?_⟩
      simp [publishMachine, step, tickStep, htick]
  | cons stream todo ih =>
      obtain ⟨m, hm⟩ := exec_reapStream stream todo htick
      obtain ⟨n, hn⟩ := ih (s := { s with
        forwarder := s.forwarder.reapStream stream s.clock, tick := .reaping todo }) rfl
      refine ⟨m + n, ?_⟩
      rw [List.replicate_add]
      exact Machine.exec_trans hm hn

/-- The streams that the first loop notes. -/
lemma map_filter_toList (f : Forwarder) (now : ℤ) :
    (f.streamMap.toList.filter fun x => f.Expired x.2 now).map Prod.fst =
      f.streamMap.keys.filter fun stream =>
        f.streamMap[stream]?.any fun h => decide (f.Expired h now) := by
  rw [← ExtTreeMap.map_fst_toList_eq_keys, List.filter_map]
  refine congrArg _ (List.filter_congr fun x hx => ?_)
  have hget := ExtTreeMap.mem_toList_iff_getElem?_eq_some.mp hx
  simp [hget]

/-- **A round in one piece**: a round of the reaper that is not interrupted and takes no time
does to the forwarder what `publishCheckTick` does. -/
theorem exec_publishCheckTick (hsleep : s.tick = .sleeping)
    (htimeout : s.forwarder.publishLeaveTimeout ≤ Forwarder.i64Max) :
    ∃ n, publishMachine.exec s
        (.wake s.forwarder.streamMap.toList :: List.replicate n .tick) = some { s with
      forwarder := s.forwarder.publishCheckTick (fun _ => s.clock) fun _ => s.clock } := by
  let order := s.forwarder.streamMap.toList
  let remove := (order.filter fun x => s.forwarder.Expired x.2 s.clock).map Prod.fst
  have hremove : s.forwarder.publishCheckTick (fun _ => s.clock) (fun _ => s.clock) =
      remove.foldl (fun f stream => f.reapStream stream s.clock) s.forwarder := by
    rw [Forwarder.publishCheckTick, if_pos htimeout, ← map_filter_toList]
  have hwake : publishMachine.step s (.wake order) =
      some { s with tick := .scanning order [] } := by
    simp [publishMachine, step, wakeStep, hsleep, htimeout, order]
  obtain ⟨n, hn⟩ := exec_scanning (s := { s with tick := .scanning order [] }) order [] rfl
  rw [hremove]
  by_cases hnil : remove = []
  · -- nothing was noted, and the reaper goes back to sleep
    refine ⟨n + 1, Machine.exec_step hwake ?_⟩
    rw [List.replicate_add]
    refine Machine.exec_trans hn ?_
    have hfilter : (order.filter fun x => decide (s.forwarder.Expired x.2 s.clock)).map Prod.fst =
        [] := hnil
    simp [publishMachine, step, tickStep, hfilter, hnil, hsleep]
  · let r : PublishSystem := { s with tick := .reaping remove }
    obtain ⟨m, hm⟩ := exec_reaping (s := r) remove rfl
    refine ⟨n + (2 + m), Machine.exec_step hwake ?_⟩
    rw [List.replicate_add, List.replicate_add]
    have hlock : publishMachine.exec { s with tick := .scanning [] remove } [.tick, .tick] =
        some r := by
      simp [publishMachine, Machine.exec, step, tickStep, hnil, r]
    refine Machine.exec_trans hn (Machine.exec_trans hlock (hm.trans ?_))
    rw [← hsleep]

end SfuServer.PublishSystem
