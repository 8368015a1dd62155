import SfuServer.Rtc.Layers

/-!
The packets that the loops of a subscription forward: what `sender_forward_rtp` of
`src/forward/rtc/subscribe.rs` passes to `write_rtp`.

A loop numbers the packets anew, whatever tracks it takes them from, so that the subscriber
sees one sequence.  The system of the loops is extended by what the tracks have sent, and by
what the loops have written.

* `MediaSystem`, `MediaAction`, `mediaMachine`: a subscription with the packets;
* `sequenceNumber_of_step`: no other step touches the number of a loop;
* `numbered_step`: the number of a loop is that of the packets it has written;
* `numberedThrough_of_reachable`: the packets are numbered through, modulo `2 ^ 16`, and come
  from the track that was bound, otherwise unchanged.
-/

namespace SfuServer

/-- `rtp::packet::Packet`, where `header` stands for the header without the sequence number,
which the loops pass on. -/
structure RtpPacket (H : Type*) where
  sequenceNumber : UInt16
  header : H
  payload : Bytes
  deriving DecidableEq, Repr

/-- A packet that a loop wrote: the track whose packets the loop received, the track that its
sender had, and the packet as it was received and as it was written. -/
structure Forwarded (H : Type*) where
  source : Option PublishTrackRemote
  bound : Option PublishTrackRemote
  received : RtpPacket H
  written : RtpPacket H

/-- A subscription, with the packets that the tracks have sent and those that the loops have
written so far. -/
structure MediaSystem (H : Type*) where
  base : SubscribeSystem
  sent : PublishTrackRemote → List (RtpPacket H)
  written : RTPCodecType → List (Forwarded H)

/-- What can happen: a packet of a track is read and broadcast, a loop receives a packet, or an
error of the channel, and a write succeeds or not, or something that has to do with no packet. -/
inductive MediaAction (H : Type*) where
  | broadcast (track : PublishTrackRemote) (packet : RtpPacket H)
  | packet (k : RTPCodecType) (received : Option (RtpPacket H)) (written : Bool)
  | other (a : SubscribeAction)

namespace MediaSystem

variable {H : Type*}

/-- `track_forward` reads a packet. -/
def broadcastStep (s : MediaSystem H) (track : PublishTrackRemote) (packet : RtpPacket H) :
    MediaSystem H :=
  { s with sent := Function.update s.sent track (s.sent track ++ [packet]) }

/-- The loop may receive the packet: the track that it listens to has sent it.  Which of the
packets of the track it is, is left open. -/
def Offers (s : MediaSystem H) (l : ForwardLoop) (packet : RtpPacket H) : Prop :=
  ∃ track ∈ l.recv, packet ∈ s.sent track

instance [DecidableEq H] (s : MediaSystem H) (l : ForwardLoop) (packet : RtpPacket H) :
    Decidable (s.Offers l packet) :=
  match h : l.recv with
  | none => isFalse (by simp [Offers, h])
  | some track => decidable_of_iff (packet ∈ s.sent track) (by simp [Offers, h])

/-- What the loop makes of a packet: it puts its own number on it. -/
def forward (l : ForwardLoop) (packet : RtpPacket H) : Forwarded H where
  source := l.recv
  bound := l.track
  received := packet
  written := { packet with sequenceNumber := l.sequenceNumber }

/-- The packets that the loops have written, once the loop of a kind has received a packet.
Without a track there is nothing to write to. -/
def record (s : MediaSystem H) (k : RTPCodecType) (l : ForwardLoop) (written : Bool) :
    Option (RtpPacket H) → RTPCodecType → List (Forwarded H)
  | some packet =>
      if l.track.isSome ∧ written then
        Function.update s.written k (s.written k ++ [forward l packet])
      else s.written
  | none => s.written

/-- The branch of a loop on a packet. -/
def packetStep [DecidableEq H] (s : MediaSystem H) (k : RTPCodecType)
    (received : Option (RtpPacket H)) (written : Bool) : Option (MediaSystem H) :=
  s.base.loops k |>.bind fun l =>
    if ∀ packet ∈ received, s.Offers l packet then
      (s.base.step (.rtp k received.isSome written)).map fun base =>
        { s with base := base, written := s.record k l written received }
    else none

/-- A step that has to do with no packet. -/
def otherStep (s : MediaSystem H) : SubscribeAction → Option (MediaSystem H)
  | .rtp .. => none
  | a => (s.base.step a).map fun base => { s with base := base }

/-- One step of the system. -/
def step [DecidableEq H] (s : MediaSystem H) : MediaAction H → Option (MediaSystem H)
  | .broadcast track packet => some (s.broadcastStep track packet)
  | .packet k received written => s.packetStep k received written
  | .other a => s.otherStep a

end MediaSystem

/-- The machine of a subscription with its packets. -/
def mediaMachine (H : Type*) [DecidableEq H] : Machine (MediaSystem H) (MediaAction H) where
  init s := subscribeMachine.init s.base ∧ s.sent = (fun _ => []) ∧ s.written = fun _ => []
  step := MediaSystem.step

namespace SubscribeSystem

variable {s t : SubscribeSystem} {a : SubscribeAction} {k j : RTPCodecType}
  {l l' : ForwardLoop}

lemma TrackChanged.sequenceNumber_eq {tracks : List PublishTrackRemote}
    {current rid : Option String} {replaced : Bool}
    (h : TrackChanged tracks k l current replaced l' rid) :
    l'.sequenceNumber = l.sequenceNumber := by
  cases h with
  | offline empty => rfl
  | kept online cause => rfl
  | bound free mem kind => rfl

lemma Selected.sequenceNumber_eq {tracks : List PublishTrackRemote}
    {current rest rid : Option String} {replaced : Bool} {heard : Prop} {select : String}
    (h : Selected tracks k l current replaced heard select rest l' rid) (hend : l'.ended = none) :
    l'.sequenceNumber = l.sequenceNumber := by
  cases h with
  | same bound => rfl
  | nothing changed means preRid first => rfl
  | disabled changed means bound => rfl
  | unbound changed means bound => rfl
  | missed changed means ne cause => rfl
  | found changed means ne hit ok hears => rfl
  | panicked changed means ne hit ok deaf ended => exact absurd hend ended

/-- **Only a written packet counts**: in every other step, a loop that runs on keeps its
number. -/
theorem sequenceNumber_of_step (hl : s.Runs k l) (hst : s.step a = some t) (hl' : t.Runs k l')
    (hwrites : a = .rtp k true true → l.track = none) : l'.sequenceNumber = l.sequenceNumber := by
  obtain ⟨l'', hl'', hstep⟩ := loopStep_of_step hl hst
  obtain rfl : l'' = l' := Option.some.inj (hl''.symm.trans hl'.1)
  generalize t.boundRid k = rid at hstep
  cases hstep with
  | kept takes => rfl
  | stopped takes ended => exact absurd hl'.2 ended
  | wrote recv track => simp [hwrites rfl] at track
  | changed changed disabled => exact changed.sequenceNumber_eq
  | selected recv selected => exact selected.sequenceNumber_eq hl'.2

/-- A packet that is written counts. -/
lemma rtpStep_written (hl : s.Runs k l) (htrack : l.track.isSome) (hrecv : l.recv ≠ none)
    (hst : s.step (.rtp k true true) = some t) :
    t = s.setLoop k { l with sequenceNumber := l.sequenceNumber + 1 } := by
  have hstep : s.step (.rtp k true true) =
      some (s.setLoop k { l with sequenceNumber := l.sequenceNumber + 1 }) := by
    simp [SubscribeSystem.step, rtpStep, onLoop, hl.1, hl.2, htrack, hrecv]
  exact Option.some.inj (hst.symm.trans hstep)

/-- A loop that runs after a step ran before. -/
lemma runs_of_step (hst : s.step a = some t) (hl' : t.Runs k l') : ∃ l, s.Runs k l := by
  by_contra hidle
  push Not at hidle
  exact (idle_of_step hidle hst).1 l' hl'

end SubscribeSystem

namespace MediaSystem

variable {H : Type*} {s t : MediaSystem H} {k j : RTPCodecType} {l : ForwardLoop}
  {packet : RtpPacket H}

/-! ### The steps -/

/-- What a step makes of the packets: a track sends one, a loop writes one, or none moves. -/
inductive MediaStep (s : MediaSystem H) : MediaSystem H → Prop
  | sent (track : PublishTrackRemote) (packet : RtpPacket H) :
      MediaStep s (s.broadcastStep track packet)
  | silent {a : SubscribeAction} {base : SubscribeSystem} (step : s.base.step a = some base)
      (writes : ∀ k l, s.base.Runs k l → a = .rtp k true true → l.track = none) :
      MediaStep s { s with base := base }
  | wrote {k : RTPCodecType} {l : ForwardLoop} {packet : RtpPacket H}
      (runs : s.base.Runs k l) (track : l.track.isSome) (offers : s.Offers l packet)
      (step : s.base.step (.rtp k true true) =
        some (s.base.setLoop k { l with sequenceNumber := l.sequenceNumber + 1 })) :
      MediaStep s { s with
        base := s.base.setLoop k { l with sequenceNumber := l.sequenceNumber + 1 }
        written := Function.update s.written k (s.written k ++ [forward l packet]) }

lemma mediaStep_packet [DecidableEq H] {received : Option (RtpPacket H)} {written : Bool}
    (hst : s.packetStep k received written = some t) : s.MediaStep t := by
  obtain ⟨l, hl, hst⟩ := Option.bind_eq_some_iff.mp hst
  obtain ⟨hoffers, hst⟩ := Option.ite_none_right_eq_some.mp hst
  obtain ⟨base, hbase, rfl⟩ := Option.map_eq_some_iff.mp hst
  have hruns : s.base.Runs k l := by
    obtain ⟨l', hl', hend, -⟩ := SubscribeSystem.onLoop_eq_some_iff.mp hbase
    obtain rfl := Option.some.inj (hl.symm.trans hl')
    exact ⟨hl, hend⟩
  cases received with
  | none =>
      refine .silent hbase fun k' l' _ h => ?_
      cases h
  | some packet =>
      have hoffer : s.Offers l packet := hoffers packet rfl
      by_cases hwrites : l.track.isSome ∧ written
      · rw [record, if_pos hwrites]
        obtain ⟨htrack, rfl⟩ := hwrites
        have hrecv : l.recv ≠ none := by
          obtain ⟨track, hmem, -⟩ := hoffer
          simp [Option.mem_def.mp hmem]
        obtain rfl := SubscribeSystem.rtpStep_written hruns htrack hrecv hbase
        exact .wrote hruns htrack hoffer hbase
      · rw [record, if_neg hwrites]
        refine .silent hbase fun k' l' hl' h => ?_
        obtain ⟨rfl, rfl⟩ : k = k' ∧ written = true := by simpa using h
        obtain rfl := Option.some.inj (hl.symm.trans hl'.1)
        simpa using hwrites

lemma mediaStep_of_step [DecidableEq H] {a : MediaAction H} (hst : s.step a = some t) :
    s.MediaStep t := by
  cases a with
  | broadcast track packet =>
      cases hst
      exact .sent track packet
  | packet k received written => exact mediaStep_packet hst
  | other a =>
      have hother : (∀ k received written, a ≠ .rtp k received written) ∧
          ∃ base, s.base.step a = some base ∧ { s with base := base } = t := by
        cases a with
        | rtp => cases hst
        | _ => exact ⟨by simp, Option.map_eq_some_iff.mp hst⟩
      obtain ⟨hne, base, hbase, rfl⟩ := hother
      exact .silent hbase fun k l _ h => absurd h (hne k true true)

/-! ### The numbers -/

/-- The `i`-th packet that a loop wrote has the number `i`, modulo `2 ^ 16`; the rest of it is
that of a packet of the track that was bound. -/
structure Passed (s : MediaSystem H) (i : ℕ) (p : Forwarded H) : Prop where
  sequenceNumber : p.written.sequenceNumber.toNat = i % 2 ^ 16
  header : p.written.header = p.received.header
  payload : p.written.payload = p.received.payload
  source : ∃ track, p.bound = some track ∧ p.source = some track ∧ p.received ∈ s.sent track

/-- The packets that a loop wrote are numbered through. -/
def NumberedThrough (s : MediaSystem H) : Prop :=
  ∀ (k : RTPCodecType) (i : ℕ) (p : Forwarded H), (s.written k)[i]? = some p → s.Passed i p

/-- The packets are numbered through, and a loop that runs goes on with the next number. -/
structure Numbered (s : MediaSystem H) : Prop where
  wired : s.base.Wired
  next : ∀ k l, s.base.Runs k l → l.sequenceNumber = UInt16.ofNat (s.written k).length
  through : s.NumberedThrough

/-- What a track has sent stays sent. -/
lemma Passed.mono {i : ℕ} {p : Forwarded H} (h : s.Passed i p)
    (hsent : ∀ track, s.sent track ⊆ t.sent track) : t.Passed i p where
  sequenceNumber := h.sequenceNumber
  header := h.header
  payload := h.payload
  source := by
    obtain ⟨track, hbound, hsource, hmem⟩ := h.source
    exact ⟨track, hbound, hsource, hsent track hmem⟩

/-- The packet that a loop is about to write. -/
lemma passed_forward (hs : s.Numbered) (hl : s.base.Runs k l) (hoffer : s.Offers l packet) :
    s.Passed (s.written k).length (forward l packet) where
  sequenceNumber := by
    rw [forward, hs.next k l hl]
    simp
  header := rfl
  payload := rfl
  source := by
    obtain ⟨track, hrecv, hmem⟩ := hoffer
    exact ⟨track, (hs.wired.track k l hl).trans hrecv, hrecv, hmem⟩

lemma sent_subset_broadcastStep (track other : PublishTrackRemote) :
    s.sent other ⊆ (s.broadcastStep track packet).sent other := by
  intro p hp
  by_cases h : other = track
  · subst h
    simp [broadcastStep, hp]
  · simpa [broadcastStep, h] using hp

/-- The number of a loop that runs on without a packet written is still the next one. -/
lemma Numbered.silent {b : SubscribeAction} {base : SubscribeSystem} (hs : s.Numbered)
    (hst : s.base.step b = some base)
    (hwrites : ∀ k l, s.base.Runs k l → b = .rtp k true true → l.track = none) :
    Numbered { s with base := base } where
  wired := SubscribeSystem.wired_step hs.wired hst
  next := by
    intro k l' hl'
    obtain ⟨l, hl⟩ := SubscribeSystem.runs_of_step hst hl'
    have hsame := SubscribeSystem.sequenceNumber_of_step hl hst hl' (hwrites k l hl)
    exact hsame.trans (hs.next k l hl)
  through := fun k i p hp => (hs.through k i p hp).mono fun _ => List.Subset.refl _

/-- The number goes up with the packet that is written, and that of the other loop stays. -/
lemma Numbered.wrote (hs : s.Numbered) (hl : s.base.Runs k l) (hoffer : s.Offers l packet)
    (hst : s.base.step (.rtp k true true) =
      some (s.base.setLoop k { l with sequenceNumber := l.sequenceNumber + 1 })) :
    Numbered { s with
      base := s.base.setLoop k { l with sequenceNumber := l.sequenceNumber + 1 }
      written := Function.update s.written k (s.written k ++ [forward l packet]) } where
  wired := SubscribeSystem.wired_step hs.wired hst
  next := by
    intro j l' hl'
    by_cases hjk : j = k
    · subst hjk
      obtain rfl : l' = { l with sequenceNumber := l.sequenceNumber + 1 } := by
        simpa [SubscribeSystem.Runs, SubscribeSystem.setLoop, eq_comm] using hl'.1
      simp [hs.next j l hl]
    · have hother : s.base.Runs j l' := by
        simpa [SubscribeSystem.Runs, SubscribeSystem.setLoop, hjk] using hl'
      simpa [hjk] using hs.next j l' hother
  through := by
    intro j i p hp
    suffices h : s.Passed i p from h.mono fun _ => List.Subset.refl _
    by_cases hjk : j = k
    · subst hjk
      simp only [Function.update_self] at hp
      rcases Nat.lt_trichotomy i (s.written j).length with hlt | rfl | hgt
      · rw [List.getElem?_append_left hlt] at hp
        exact hs.through j i p hp
      · obtain rfl : forward l packet = p := by simpa using hp
        exact passed_forward hs hl hoffer
      · rw [List.getElem?_eq_none (by simp; omega)] at hp
        cases hp
    · simp only [Function.update_of_ne hjk] at hp
      exact hs.through j i p hp

/-- A step keeps the packets numbered. -/
lemma numbered_step [DecidableEq H] {a : MediaAction H} (hs : s.Numbered)
    (hst : s.step a = some t) : t.Numbered := by
  cases mediaStep_of_step hst with
  | sent track packet =>
      exact ⟨hs.wired, hs.next, fun k i p hp =>
        (hs.through k i p hp).mono fun other => sent_subset_broadcastStep track other⟩
  | silent step writes => exact hs.silent step writes
  | wrote runs track offers step => exact hs.wrote runs offers step

lemma numbered_init [DecidableEq H] (h0 : (mediaMachine H).init s) : s.Numbered := by
  obtain ⟨hbase, -, hwritten⟩ := h0
  refine ⟨SubscribeSystem.wired_init hbase, fun k l hl => ?_, fun k i p hp => ?_⟩
  · rw [SubscribeSystem.loop_of_init hbase hl.1, hwritten]
    rfl
  · simp [hwritten] at hp

/-- **One sequence for the subscriber**: in every run, whatever tracks a loop takes its packets
from, the packets that it writes are numbered through, modulo `2 ^ 16`, and are otherwise those
that it received from the track that was bound. -/
theorem numberedThrough_of_reachable [DecidableEq H] (hs : (mediaMachine H).Reachable s) :
    s.NumberedThrough :=
  (hs.invariant (I := Numbered) (fun _ => numbered_init) fun _ _ _ h hst =>
    numbered_step h hst).through

/-- A subscription before any packet. -/
def quiet (H : Type*) (base : SubscribeSystem) : MediaSystem H :=
  ⟨base, fun _ => [], fun _ => []⟩

/-- A packet of one layer, and after a switch one of another. -/
def switchedLayer (high low : PublishTrackRemote) : List (MediaAction Unit) :=
  [.other (.trackChange .video true), .broadcast high ⟨900, (), [1]⟩,
    .packet .video (some ⟨900, (), [1]⟩) true, .other (.selectKindRid low.rid),
    .other (.selectLayer .video true), .broadcast low ⟨17, (), [2]⟩,
    .packet .video (some ⟨17, (), [2]⟩) true]

theorem numberedThrough_switchedLayer :
    ∃ s : MediaSystem Unit, s.NumberedThrough ∧
      (s.written .video).map (fun p => (p.bound.map PublishTrackRemote.rid, p.written)) =
        [(some "high", ⟨0, (), [1]⟩), (some "low", ⟨1, (), [2]⟩)] := by
  let high : PublishTrackRemote := ⟨"high", .video, 7, 0⟩
  let low : PublishTrackRemote := ⟨"low", .video, 8, 1⟩
  obtain ⟨s, hs⟩ : ∃ s, (mediaMachine Unit).exec (quiet Unit (.new [high, low] [.video]))
      (switchedLayer high low) = some s := ⟨_, rfl⟩
  refine ⟨s, numberedThrough_of_reachable ⟨_, _, ?_, hs⟩, ?_⟩
  · exact ⟨⟨[high, low], [.video], by simp, rfl⟩, rfl, rfl⟩
  · cases hs
    rfl

end MediaSystem

end SfuServer
