import SfuServer.Rtc.Creators
import SfuServer.Rtc.Negotiation
import SfuServer.Room.History

/-!
The part of `whep` that comes before the upgrade, `src/route/rtc/whep.rs`, with
`Forwarder::virtual_publish` of `src/rtc/mod.rs`: a stream that nobody publishes gets a publisher
that the server sets up itself.

The connection of this publisher is offered by `virtual_publish`, which enters the stream into the
table; `publish` then takes the offer and fills the slot, and its answer goes back to the
connection.  Each step may fail, and ends the request.

* `Forwarder.virtualPublish`, `Forwarder.setUpVirtual`, `whep`: the operations, in one piece each;
* `exec_virtualPublish`: what the steps of `creatorMachine` come to when one call of
  `virtual_publish` alone moves;
* `setUpVirtual_cases`: what is set up, and where it stops;
* `failsWhole_iff`: a request that fails leaves its stream to the next one, exactly if it fails
  before the stream is entered.
-/

open Std (ExtTreeMap)

namespace SfuServer

/-- What a request of `whep` is told by the library: the calls on the connection that the server
publishes with and on the one that receives this, and what the offer unmarshals to. -/
structure WhepCalls where
  virtual : PeerCalls
  publisher : PeerCalls
  unmarshal : String → Except AppError SessionDescription

namespace Forwarder

/-- `Forwarder::virtual_publish`: a connection and its offer, on a forward that is entered at the
end if there was none. -/
def virtualPublish (f : Forwarder) (stream : String) (c : PeerCalls) :
    Except AppError (ℕ × String) × Forwarder :=
  match f.streamMap[stream]? with
  | some _ =>
      match c.genVirtualPublish with
      | .error e => (.error e, f)
      | .ok sdp => (.ok (f.peers.length, sdp), f.newPeer)
  | none =>
      let h := f.forwards.length
      let f := f.newForward stream
      match c.genVirtualPublish with
      | .error e => (.error e, f)
      | .ok sdp =>
          let peer := f.peers.length
          let f := f.newPeer
          if stream ∈ f.streamMap then
            (.error (.streamAlreadyExists "stream already exists"), f.close h)
          else (.ok (peer, sdp), { f with streamMap := f.streamMap.insert stream h })

/-- The second half of the set-up of `whep`: the offer is published, and its answer taken.  The
candidates are exchanged at the end, where errors are ignored. -/
def answerVirtual (f : Forwarder) (stream : String) (o : WhepCalls) (sdp : String) :
    Except AppError Unit × Forwarder :=
  match f.publish stream (o.publisher.negotiate (o.unmarshal sdp)) with
  | (.error e, f) => (.error e, f)
  | (.ok _, f) => (o.virtual.setRemoteDescription, f)

/-- The set-up of `whep`. -/
def setUpVirtual (f : Forwarder) (stream : String) (o : WhepCalls) :
    Except AppError Unit × Forwarder :=
  match f.virtualPublish stream o.virtual with
  | (.error e, f) => (.error e, f)
  | (.ok (_, sdp), f) => f.answerVirtual stream o sdp

end Forwarder

/-- `whep`, up to the upgrade: an answer that refuses the user, or else the outcome of the set-up,
which a stream that is there does not need. -/
def whep (fnv : List UInt8 → UInt32) (room : Room) (request : StreamRequest) (o : WhepCalls) :
    Except Response (Except AppError Unit) × Room :=
  match authUser fnv room request.sharedKey request.userId request.token with
  | .error response => (.error response, room)
  | .ok _ =>
      if room.forwarder.isStreamExists request.stream then (.ok (.ok ()), room)
      else
        let (outcome, forwarder) := room.forwarder.setUpVirtual request.stream o
        (.ok outcome, { room with forwarder := forwarder })

namespace Forwarder

variable {f : Forwarder} {stream : String} {c : PeerCalls}

/-- An offer that cannot be generated leaves the table as it was. -/
lemma virtualPublish_of_error {e : AppError} (hmap : f.streamMap[stream]? = none)
    (hc : c.genVirtualPublish = .error e) :
    f.virtualPublish stream c = (.error e, f.newForward stream) := by
  rw [virtualPublish, hmap]
  dsimp only
  rw [hc]

/-- An offer that is generated for a stream that is not in the table enters it. -/
lemma virtualPublish_of_fresh {sdp : String} (hmap : f.streamMap[stream]? = none)
    (hc : c.genVirtualPublish = .ok sdp) :
    f.virtualPublish stream c = (.ok (f.peers.length, sdp), { (f.newForward stream).newPeer with
      streamMap := f.streamMap.insert stream f.forwards.length }) := by
  have hfresh : stream ∉ f.streamMap := by
    rw [ExtTreeMap.mem_iff_isSome_getElem?, hmap]
    simp
  rw [virtualPublish, hmap]
  dsimp only
  rw [hc]
  exact if_neg hfresh

end Forwarder

namespace CreatorSystem

variable {s : CreatorSystem} {i : ℕ} {v : VirtualCall}

/-- The result of a call of `virtual_publish` that has returned. -/
def virtualResult (s : CreatorSystem) (i : ℕ) : Option Bool :=
  s.virtuals[i]?.bind (·.stage.result)

lemma getElem?_setVirtual (hv : s.virtuals[i]? = some v) (v' : VirtualCall) :
    (s.setVirtual i v').virtuals[i]? = some v' :=
  List.getElem?_set_self (List.getElem?_eq_some_iff.mp hv).1

/-- A call whose offer cannot be generated returns the error. -/
lemma exec_ungenerated (e : AppError) (hv : s.virtuals[i]? = some v)
    (hstage : v.stage = .generating) :
    creatorMachine.exec s [.generate i (.error e)] =
      some (s.setVirtual i { v with stage := .returned (.error e) }) := by
  simp [creatorMachine, step, generateStep, hv, hstage]

/-- A call whose offer is generated has a new connection; it returns if its forward was there. -/
lemma exec_generated (hv : s.virtuals[i]? = some v) (hstage : v.stage = .generating) :
    creatorMachine.exec s [.generate i (.ok ())] =
      some ((s.setForwarder s.publish.forwarder.newPeer).setVirtual i
        { v with stage := if v.found then .returned (.ok ()) else .finishing }) := by
  simp [creatorMachine, step, generateStep, hv, hstage]

/-- The last step of a call that set up its forward. -/
lemma exec_finished (hv : s.virtuals[i]? = some v) (hstage : v.stage = .finishing)
    (hw : s.Writable) (hs : v.stream ∉ s.table) :
    creatorMachine.exec s [.finish i] =
      some ((s.setForwarder { s.publish.forwarder with
        streamMap := s.table.insert v.stream v.forward }).setVirtual i
          { v with stage := .returned (.ok ()) }) := by
  simp [creatorMachine, step, finishStep, hv, hstage, hw, hs]

lemma virtualResult_of_returned {result : Except AppError Unit} (hv : s.virtuals[i]? = some v)
    (hstage : v.stage = .returned result) : s.virtualResult i = some result.toBool := by
  rw [virtualResult, hv, Option.bind_some, hstage]
  cases result <;> rfl

/-- **A call in one piece**: while the table can be written, a call of `virtual_publish` that is
not interrupted does to the forwarder what `virtualPublish` does, and returns with success when
`virtualPublish` does. -/
theorem exec_virtualPublish (hw : s.Writable) (stream : String) (c : PeerCalls) :
    ∃ as u, creatorMachine.exec s (.begin stream :: as) = some u ∧
      u.publish.forwarder = (s.publish.forwarder.virtualPublish stream c).2 ∧
        u.virtualResult s.virtuals.length =
          some (s.publish.forwarder.virtualPublish stream c).1.toBool := by
  have hreadable : s.publish.tick.Readable ∧ s.deleting = .idle := ⟨hw.1.readable, hw.2⟩
  cases hmap : s.publish.forwarder.streamMap[stream]? with
  | some h =>
      rw [Forwarder.virtualPublish, hmap]
      let v : VirtualCall := ⟨stream, h, true, .generating⟩
      let r : CreatorSystem := { s with virtuals := s.virtuals ++ [v] }
      have hbegin : creatorMachine.step s (.begin stream) = some r := by
        simp [creatorMachine, step, beginStep, hreadable, table, hmap, v, r]
      have hget : r.virtuals[s.virtuals.length]? = some v := by simp [r]
      cases hgenerate : c.genVirtualPublish with
      | error e =>
          refine ⟨_, _, Machine.exec_step hbegin (exec_ungenerated e hget rfl), rfl, ?_⟩
          exact virtualResult_of_returned (getElem?_setVirtual hget
            { v with stage := .returned (.error e) }) rfl
      | ok sdp =>
          refine ⟨_, _, Machine.exec_step hbegin (exec_generated hget rfl), rfl, ?_⟩
          exact virtualResult_of_returned (getElem?_setVirtual (s := r.setForwarder _) hget
            { v with stage := .returned (.ok ()) }) rfl
  | none =>
      let h := s.publish.forwarder.forwards.length
      let v : VirtualCall := ⟨stream, h, false, .generating⟩
      let r : CreatorSystem := {
        publish := { s.publish with
          forwarder := s.publish.forwarder.newForward stream
          emptiedAt := Function.update s.publish.emptiedAt h s.publish.clock }
        virtuals := s.virtuals ++ [v]
        deleting := s.deleting }
      have hbegin : creatorMachine.step s (.begin stream) = some r := by
        simp [creatorMachine, step, beginStep, hreadable, table, hmap, v, r, h]
      have hget : r.virtuals[s.virtuals.length]? = some v := by simp [r]
      cases hgenerate : c.genVirtualPublish with
      | error e =>
          rw [Forwarder.virtualPublish_of_error hmap hgenerate]
          refine ⟨_, _, Machine.exec_step hbegin (exec_ungenerated e hget rfl), rfl, ?_⟩
          exact virtualResult_of_returned (getElem?_setVirtual hget
            { v with stage := .returned (.error e) }) rfl
      | ok sdp =>
          -- nobody has entered the stream meanwhile
          have hfresh : stream ∉ s.publish.forwarder.streamMap := by
            rw [ExtTreeMap.mem_iff_isSome_getElem?, hmap]
            simp
          have hget' := getElem?_setVirtual (s := r.setForwarder r.publish.forwarder.newPeer) hget
            { v with stage := .finishing }
          have hlast := exec_finished hget' rfl hw hfresh
          refine ⟨_, _, Machine.exec_step hbegin
            (Machine.exec_trans (exec_generated hget rfl) hlast), ?_, ?_⟩
          · rw [Forwarder.virtualPublish_of_fresh hmap hgenerate]
            rfl
          · rw [Forwarder.virtualPublish_of_fresh hmap hgenerate]
            exact virtualResult_of_returned (getElem?_setVirtual (s := setForwarder _ _) hget'
              { v with stage := .returned (.ok ()) }) rfl

end CreatorSystem

/-! ### What a failure leaves -/

/-- The steps after the offer succeed: a publisher can be set up with it, and its answer is
taken. -/
def WhepCalls.Answers (o : WhepCalls) : Prop :=
  (∀ sdp ∈ o.virtual.localDescription, o.publisher.Publishes (o.unmarshal sdp)) ∧
    o.virtual.setRemoteDescription = .ok ()

namespace Forwarder

variable {f : Forwarder} {stream : String} {o : WhepCalls}

/-- There is a publisher under the name. -/
def HasPublisher (f : Forwarder) (stream : String) : Prop :=
  ∃ h p, f.streamMap[stream]? = some h ∧ f.slot h = some p

/-- On an entry without a publisher, a publish that fails changes nothing about the table. -/
lemma publish_of_error {h : ℕ} {e : AppError} (hmap : f.streamMap[stream]? = some h)
    (hslot : f.slot h = none) : f.publish stream (.error e) = (.error e, f.newPeer) := by
  rw [publish, hmap]
  simp [setPublish, hslot]

/-- On an entry without a publisher, a publish that is negotiated sets one up. -/
lemma publish_of_ok {h : ℕ} (hmap : f.streamMap[stream]? = some h) (hslot : f.slot h = none)
    (hlt : h < f.forwards.length) :
    ∃ f', f.publish stream (.ok ()) = (.ok f.peers.length, f') ∧ f'.HasPublisher stream := by
  have hfill : f.newPeer.fillSlot h f.peers.length =
      .ok (f.newPeer.modifyForward h fun w => { w with publish := some f.peers.length }) :=
    fillSlot_eq_ok_iff.mpr ⟨hslot, rfl⟩
  rw [publish, hmap]
  simp only [setPublish, hslot, Option.isSome_none, Bool.false_eq_true, if_false,
    setPublishInternal, hfill, Except.map]
  refine ⟨_, rfl, h, f.peers.length, hmap, ?_⟩
  rw [slot_resetLeaveTime, slot_modify_publish]
  exact if_pos ⟨rfl, hlt⟩

/-- What the second half of the set-up makes of an entry without a publisher: it stays in the
table, and has a publisher if all goes well. -/
lemma answerVirtual_cases {h : ℕ} {sdp : String} (hsdp : o.virtual.localDescription = some sdp)
    (hmap : f.streamMap[stream]? = some h) (hslot : f.slot h = none)
    (hlt : h < f.forwards.length) :
    ∃ r f', f.answerVirtual stream o sdp = (r, f') ∧ stream ∈ f'.streamMap ∧
      (r = .ok () ↔ o.Answers) ∧ (o.Answers → f'.HasPublisher stream) := by
  have hanswers : o.Answers ↔ o.publisher.negotiate (o.unmarshal sdp) = .ok () ∧
      o.virtual.setRemoteDescription = .ok () := by
    simp [WhepCalls.Answers, hsdp, PeerCalls.negotiate_eq_ok_iff]
  rw [answerVirtual]
  cases hnegotiate : o.publisher.negotiate (o.unmarshal sdp) with
  | error e =>
      rw [publish_of_error hmap hslot]
      refine ⟨_, _, rfl, ?_, ?_, ?_⟩
      · simp [newPeer, ExtTreeMap.mem_iff_isSome_getElem?, hmap]
      · simp [hanswers, hnegotiate]
      · simp [hanswers, hnegotiate]
  | ok _ =>
      obtain ⟨f', hpublish, hpublisher⟩ := publish_of_ok hmap hslot hlt
      rw [hpublish]
      refine ⟨_, _, rfl, ?_, ?_, fun _ => hpublisher⟩
      · obtain ⟨h, p, hh, -⟩ := hpublisher
        simp [ExtTreeMap.mem_iff_isSome_getElem?, hh]
      · simp [hanswers, hnegotiate]

/-- What the set-up makes of a stream that is not in the table: nothing if there is no offer, and
else an entry, with a publisher if the rest succeeds. -/
lemma setUpVirtual_cases (hmap : f.streamMap[stream]? = none) :
    (¬ o.virtual.Offers ∧ ∃ e, f.setUpVirtual stream o = (.error e, f.newForward stream)) ∨
    (o.virtual.Offers ∧ ∃ r f', f.setUpVirtual stream o = (r, f') ∧ stream ∈ f'.streamMap ∧
      (r = .ok () ↔ o.Answers) ∧ (o.Answers → f'.HasPublisher stream)) := by
  rw [setUpVirtual]
  cases hgenerate : o.virtual.genVirtualPublish with
  | error e =>
      refine .inl ⟨fun h => ?_, e, by rw [virtualPublish_of_error hmap hgenerate]⟩
      obtain ⟨sdp, hsdp⟩ := PeerCalls.exists_genVirtualPublish_iff.mpr h
      cases hgenerate.symm.trans hsdp
  | ok sdp =>
      refine .inr ⟨PeerCalls.exists_genVirtualPublish_iff.mp ⟨sdp, hgenerate⟩, ?_⟩
      rw [virtualPublish_of_fresh hmap hgenerate]
      -- the forward is new, and so nobody is in its slot
      have hsame : ({ (f.newForward stream).newPeer with
          streamMap := f.streamMap.insert stream f.forwards.length } : Forwarder).slot
            f.forwards.length = (f.newForward stream).slot f.forwards.length := slot_congr rfl _
      refine answerVirtual_cases (h := f.forwards.length)
        (PeerCalls.localDescription_of_genVirtualPublish hgenerate) (by simp) ?_ ?_
      · rw [hsame, slot_newForward]
        simp [slot]
      · simp [newPeer, newForward]

end Forwarder

variable {fnv : List UInt8 → UInt32} {room : Room} {request : StreamRequest} {o : WhepCalls}

/-- A user of the room makes the request. -/
def Authorised (fnv : List UInt8 → UInt32) (room : Room) (request : StreamRequest) : Prop :=
  ∃ client, authUser fnv room request.sharedKey request.userId request.token = .ok client

/-- Where the request does not get to the upgrade, its stream is not in the table, and a later
request for it, all of whose calls succeed, sets up a publisher. -/
def FailsWhole (fnv : List UInt8 → UInt32) (room : Room) (request : StreamRequest)
    (o : WhepCalls) : Prop :=
  ∀ outcome left, whep fnv room request o = (outcome, left) → outcome ≠ .ok (.ok ()) →
    request.stream ∉ left.forwarder.streamMap ∧
      ∀ retry o', retry.stream = request.stream → Authorised fnv left retry →
        o'.virtual.Offers → o'.Answers →
          (whep fnv left retry o').2.forwarder.HasPublisher request.stream

/-- A request for a stream that is not in the table sets it up. -/
lemma whep_of_absent (hauth : Authorised fnv room request)
    (habsent : request.stream ∉ room.forwarder.streamMap) :
    whep fnv room request o = (.ok (room.forwarder.setUpVirtual request.stream o).1,
      { room with forwarder := (room.forwarder.setUpVirtual request.stream o).2 }) := by
  obtain ⟨client, hclient⟩ := hauth
  rw [whep, hclient]
  dsimp only
  rw [if_neg (by simpa [Forwarder.isStreamExists] using habsent)]

/-- A request that all goes well for leaves a publisher. -/
lemma hasPublisher_whep (hauth : Authorised fnv room request)
    (habsent : request.stream ∉ room.forwarder.streamMap) (hoffers : o.virtual.Offers)
    (hanswers : o.Answers) :
    (whep fnv room request o).2.forwarder.HasPublisher request.stream := by
  have hmap : room.forwarder.streamMap[request.stream]? = none :=
    ExtTreeMap.getElem?_eq_none habsent
  rw [whep_of_absent hauth habsent]
  rcases Forwarder.setUpVirtual_cases hmap (o := o) with
    ⟨hno, -⟩ | ⟨-, r, f', hset, -, -, hpublisher⟩
  · exact absurd hoffers hno
  · rw [hset]
    exact hpublisher hanswers

/-- **Virtual publishers are set up as a whole**: for a stream that is not in the table, a request
that fails leaves none there, and the next one sets it up again, if and only if the request is
refused, the offer of the virtual publisher cannot be generated, or no call after that fails. -/
theorem failsWhole_iff (fnv : List UInt8 → UInt32) (room : Room) (request : StreamRequest)
    (o : WhepCalls) (habsent : request.stream ∉ room.forwarder.streamMap) :
    FailsWhole fnv room request o ↔
      (Authorised fnv room request → o.virtual.Offers → o.Answers) := by
  have hmap : room.forwarder.streamMap[request.stream]? = none :=
    ExtTreeMap.getElem?_eq_none habsent
  -- as long as the stream is not there, a retry sets it up
  have hretry : ∀ left : Room, request.stream ∉ left.forwarder.streamMap →
      ∀ retry o', retry.stream = request.stream → Authorised fnv left retry →
        o'.virtual.Offers → o'.Answers →
          (whep fnv left retry o').2.forwarder.HasPublisher request.stream := by
    intro left hleft retry o' hstream hauth hoffers hanswers
    rw [← hstream] at hleft ⊢
    exact hasPublisher_whep hauth hleft hoffers hanswers
  by_cases hauth : Authorised fnv room request
  · rw [FailsWhole, whep_of_absent hauth habsent]
    rcases Forwarder.setUpVirtual_cases hmap (o := o) with
      ⟨hno, e, hset⟩ | ⟨hoffers, r, f', hset, hmem, hok, -⟩
    · refine iff_of_true (fun outcome left hleft _ => ?_) fun _ h => absurd h hno
      rw [hset] at hleft
      cases hleft
      exact ⟨habsent, hretry _ habsent⟩
    · rw [hset]
      simp only [hauth, hoffers, forall_const]
      by_cases hanswers : o.Answers
      · refine iff_of_true (fun outcome left hleft hne => ?_) hanswers
        cases hleft
        exact absurd (by rw [hok.mpr hanswers]) hne
      · refine iff_of_false (fun h => ?_) hanswers
        have hne : (.ok r : Except Response (Except AppError Unit)) ≠ .ok (.ok ()) := fun heq =>
          hanswers (hok.mp (Except.ok.inj heq))
        exact (h _ _ rfl hne).1 hmem
  · refine iff_of_true (fun outcome left hleft _ => ?_) fun h => absurd h hauth
    rw [whep] at hleft
    cases hcheck : authUser fnv room request.sharedKey request.userId request.token with
    | error response =>
        rw [hcheck] at hleft
        cases hleft
        exact ⟨habsent, hretry room habsent⟩
    | ok client => exact absurd ⟨client, hcheck⟩ hauth

/-- A room with one user, and no streams. -/
def loneRoom : Room := smallRoom.serve fnv1a (.join ⟨"user", "key", ""⟩ 7)

/-- The server cannot offer a connection. -/
def noOffer : WhepCalls where
  virtual := { PeerCalls.working with createOffer := .error (.internalServerError "no offer") }
  publisher := .working
  unmarshal := fun _ => .ok []

theorem failsWhole_noOffer : FailsWhole fnv1a loneRoom ⟨0, 7, "live", "key"⟩ noOffer :=
  (failsWhole_iff fnv1a loneRoom ⟨0, 7, "live", "key"⟩ noOffer (by decide)).mpr fun _ h => by
    cases h.createOffer

/-- The offer is made, and the connection that is to publish refuses it. -/
def refusedOffer : WhepCalls where
  virtual := .working
  publisher := { PeerCalls.working with
    setRemoteDescription := .error (.internalServerError "connection closed") }
  unmarshal := fun _ => .ok []

/-- All goes well. -/
def goodOffer : WhepCalls := ⟨.working, .working, fun _ => .ok []⟩

/-- The stream stays in the table without a publisher, and the next request takes it for one that
is there. -/
theorem not_failsWhole_refusedOffer :
    ¬ FailsWhole fnv1a loneRoom ⟨0, 7, "live", "key"⟩ refusedOffer ∧
      ∃ left, whep fnv1a loneRoom ⟨0, 7, "live", "key"⟩ refusedOffer =
          (.ok (.error (.internalServerError "connection closed")), left) ∧
        whep fnv1a left ⟨0, 7, "live", "key"⟩ goodOffer = (.ok (.ok ()), left) ∧
          left.forwarder.publishIsOk "live" = .ok false := by
  obtain ⟨left, hleft⟩ : ∃ left, whep fnv1a loneRoom ⟨0, 7, "live", "key"⟩ refusedOffer =
      (.ok (.error (.internalServerError "connection closed")), left) := ⟨_, rfl⟩
  have hmem : "live" ∈ left.forwarder.streamMap ∧
      whep fnv1a left ⟨0, 7, "live", "key"⟩ goodOffer = (.ok (.ok ()), left) ∧
        left.forwarder.publishIsOk "live" = .ok false := by
    cases hleft
    exact ⟨by decide, rfl, by decide⟩
  exact ⟨fun h => (h _ _ hleft (by simp)).1 hmem.1, left, hleft, hmem.2⟩

end SfuServer
