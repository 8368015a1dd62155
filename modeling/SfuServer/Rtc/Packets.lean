import SfuServer.Rtc.Media

/-!
The packets of the published tracks on their way to a subscription: `PublishTrackRemote::new` and
`track_forward` of `src/forward/rtc/track.rs`, and the receivers of `sender_forward_rtp` of
`src/forward/rtc/subscribe.rs`.

A track has a channel for its packets, with room for 64 of them, and a task that takes them out
again, so that there is a receiver when nobody has subscribed.  A loop of a subscription subscribes
whenever it goes over to a track, also to the one that it has.

* `RtpTrack`, `RtpSystem`, `RtpAction`, `rtpMachine`: the tracks with their channels, on top of a
  subscription, and what can happen, also with the receivers of other subscriptions;
* `follow`: the receivers of the loops after a step;
* `InOrder`, `inOrder_step`: a loop is past everything that it has written of its track;
* `packets_in_order`: what a subscriber gets of a track is in the order of the track, none twice,
  however often the loop goes over to other tracks and comes back;
* `Attended`, `attended_step`: who has a receiver on the channel of a track;
* `trackForward_stops_iff`: when a track falls silent for good.
-/

open Std (ExtTreeMap)

namespace SfuServer

/-- `PublishTrackRemote`, at work: the channel of its packets, the task that drains it, and
`track_forward`. -/
structure RtpTrack (H : Type*) where
  rtpBroadcast : Broadcast (RtpPacket H)
  drain : TaskStatus
  forward : TaskStatus

/-- `PublishTrackRemote::new`. -/
def RtpTrack.new (H : Type*) : RtpTrack H := ⟨(Broadcast.new 64).subscribe 0, .running, .running⟩

/-- A packet that a loop wrote: its track, and its place among the packets of the track. -/
structure Taken (H : Type*) where
  track : PublishTrackRemote
  index : ℕ
  packet : RtpPacket H

/-- A subscription with the channels of the tracks, and what its loops have written. -/
structure RtpSystem (H : Type*) where
  base : SubscribeSystem
  tracks : PublishTrackRemote → RtpTrack H
  written : RTPCodecType → List (Taken H)

/-- What can happen: `track_forward` reads a packet, or fails to, the draining task of a track takes
a turn, another subscription subscribes to a track, takes a packet or goes, a loop takes its branch
on the channel of its track, where a packet is written or not, or something else happens. -/
inductive RtpAction (H : Type*) where
  | read (track : PublishTrackRemote) (packet : Option (RtpPacket H))
  | drain (track : PublishTrackRemote)
  | attach (track : PublishTrackRemote) (r : ℕ)
  | take (track : PublishTrackRemote) (r : ℕ)
  | detach (track : PublishTrackRemote) (r : ℕ)
  | packet (k : RTPCodecType) (written : Bool)
  | other (a : SubscribeAction)

namespace SubscribeSystem

/-- The track whose packets the loop of a kind receives. -/
def receives (s : SubscribeSystem) (k : RTPCodecType) : Option PublishTrackRemote :=
  (s.loops k).bind fun l => if l.ended = none then l.recv else none

/-- In this step the loop subscribes to a track on a request, be it the one that it has. -/
def resubscribes (s : SubscribeSystem) (a : SubscribeAction) (k : RTPCodecType) : Bool :=
  match a, s.loops k, (s.selectLayer.recv k.receiver).1 with
  | .selectLayer j replaced, some l, .message (kind, rid) =>
      j = k && kind = k && replaced && s.boundRid k ≠ some rid &&
        (s.newRid k l (s.boundRid k) rid).any fun new =>
          new ≠ ridDisable && (trackFor s.publishTracks new).isSome
  | _, _, _ => false

end SubscribeSystem

namespace RtpSystem

variable {H : Type*}

/-- The channel of a track. -/
def channel (s : RtpSystem H) (track : PublishTrackRemote) : Broadcast (RtpPacket H) :=
  (s.tracks track).rtpBroadcast

/-- A change of a track. -/
def setTrack (s : RtpSystem H) (track : PublishTrackRemote) (x : RtpTrack H) : RtpSystem H :=
  { s with tracks := Function.update s.tracks track x }

/-- A change of the channel of a track. -/
def setChannel (s : RtpSystem H) (track : PublishTrackRemote) (c : Broadcast (RtpPacket H)) :
    RtpSystem H :=
  s.setTrack track { s.tracks track with rtpBroadcast := c }

/-- The receiver of the loop of a kind on the channel of a track, where the loop goes over from the
track `old` to `new`, or subscribes anew. -/
def retune (track : PublishTrackRemote) (old new : RTPCodecType → Option PublishTrackRemote)
    (renewed : RTPCodecType → Bool) (c : Broadcast (RtpPacket H)) (k : RTPCodecType) :
    Broadcast (RtpPacket H) :=
  if old k = new k ∧ renewed k = false then c
  else
    let c := if old k = some track then c.unsubscribe k.receiver else c
    if new k = some track then c.subscribe k.receiver else c

/-- The receivers follow the loops. -/
def follow (s : RtpSystem H) (base : SubscribeSystem) (renewed : RTPCodecType → Bool) :
    RtpSystem H :=
  { s with
    base := base
    tracks := fun track => { s.tracks track with
      rtpBroadcast := [RTPCodecType.video, .audio, .unspecified].foldl
        (retune track s.base.receives base.receives renewed) (s.channel track) } }

/-- `track_forward` takes a turn; sending fails if there is no receiver. -/
def readStep (s : RtpSystem H) (track : PublishTrackRemote) (packet : Option (RtpPacket H)) :
    Option (RtpSystem H) :=
  if (s.tracks track).forward = .running then
    some <|
      match packet.bind (s.channel track).send with
      | some c => s.setChannel track c
      | none => s.setTrack track { s.tracks track with forward := .finished }
  else none

/-- A turn of the task that drains the channel of a track; any error ends it.  The channel is open:
`track_forward` has a sender as long as it runs, and what happens to the task later is left out. -/
def drainStep (s : RtpSystem H) (track : PublishTrackRemote) : Option (RtpSystem H) :=
  if (s.tracks track).drain = .running then
    match (s.channel track).recv 0 with
    | (.message _, c) => some (s.setChannel track c)
    | (.lagged _, c) => some (s.setTrack track { s.tracks track with
        rtpBroadcast := c.unsubscribe 0
        drain := .finished })
    | (.empty, _) => none
  else none

/-- Another subscription does something with its receiver. -/
def elsewhereStep (s : RtpSystem H) (track : PublishTrackRemote) (r : ℕ)
    (u : Broadcast (RtpPacket H) → Broadcast (RtpPacket H)) : Option (RtpSystem H) :=
  if 4 ≤ r then some (s.setChannel track (u (s.channel track))) else none

/-- What the loop of a kind has written, once it took a packet of the track it receives from.
Without a track there is nothing to write to. -/
def record (s : RtpSystem H) (k : RTPCodecType) (track : PublishTrackRemote)
    (packet : RtpPacket H) (written : Bool) : RTPCodecType → List (Taken H) :=
  if ((s.base.loops k).bind ForwardLoop.track).isSome ∧ written then
    Function.update s.written k (s.written k ++
      [⟨track, ((s.channel track).cursors[k.receiver]?).getD 0, packet⟩])
  else s.written

/-- A loop takes its branch on the channel of its track. -/
def packetStep (s : RtpSystem H) (k : RTPCodecType) (written : Bool) : Option (RtpSystem H) :=
  (s.base.receives k).bind fun track =>
    match (s.channel track).recv k.receiver with
    | (.empty, _) => none
    | (.lagged _, c) =>
        (s.base.step (.rtp k false written)).map fun base =>
          (s.setChannel track c).follow base fun _ => false
    | (.message packet, c) =>
        (s.base.step (.rtp k true written)).map fun base =>
          { s.setChannel track c with
            written := s.record k track packet written }.follow base fun _ => false

/-- A step that has to do with no packet. -/
def otherStep (s : RtpSystem H) : SubscribeAction → Option (RtpSystem H)
  | .rtp .. => none
  | a => (s.base.step a).map fun base => s.follow base (s.base.resubscribes a)

/-- One step of the system. -/
def step (s : RtpSystem H) : RtpAction H → Option (RtpSystem H)
  | .read track packet => s.readStep track packet
  | .drain track => s.drainStep track
  | .attach track r => s.elsewhereStep track r fun c => c.subscribe r
  | .take track r => s.elsewhereStep track r fun c => (c.recv r).2
  | .detach track r => s.elsewhereStep track r fun c => c.unsubscribe r
  | .packet k written => s.packetStep k written
  | .other a => s.otherStep a

end RtpSystem

/-- The machine of a subscription with the channels of the tracks. -/
def rtpMachine (H : Type*) : Machine (RtpSystem H) (RtpAction H) where
  init s := subscribeMachine.init s.base ∧ s.tracks = (fun _ => .new H) ∧ s.written = fun _ => []
  step := RtpSystem.step

namespace RtpSystem

variable {H : Type*} {s t : RtpSystem H} {track : PublishTrackRemote} {k j : RTPCodecType}
  {c : Broadcast (RtpPacket H)} {old new : RTPCodecType → Option PublishTrackRemote}
  {renewed : RTPCodecType → Bool}

/-! ### The receivers of the loops -/

lemma receiver_ne (h : j ≠ k) : j.receiver ≠ k.receiver := by
  revert h
  cases j <;> cases k <;> simp [RTPCodecType.receiver]

@[simp] lemma log_retune : (retune track old new renewed c k).log = c.log := by
  rw [retune]
  dsimp only
  split_ifs <;> rfl

lemma cursors_retune_of_ne {q : ℕ} (hq : q ≠ k.receiver) :
    (retune track old new renewed c k).cursors[q]? = c.cursors[q]? := by
  rw [retune]
  dsimp only
  split_ifs
  · rfl
  · rw [Broadcast.cursors_subscribe, if_neg (Ne.symm hq), c.cursors_unsubscribe_of_ne _ _ hq]
  · rw [Broadcast.cursors_subscribe, if_neg (Ne.symm hq)]
  · rw [c.cursors_unsubscribe_of_ne _ _ hq]
  · rfl

/-- Where the receiver of a loop is after a step: where it was, at the end, or nowhere. -/
lemma cursors_retune : (retune track old new renewed c k).cursors[k.receiver]? =
    if old k = new k ∧ renewed k = false then c.cursors[k.receiver]?
    else if new k = some track then some c.log.length
    else if old k = some track then none else c.cursors[k.receiver]? := by
  rw [retune]
  dsimp only
  split_ifs
  · rfl
  · rw [Broadcast.cursors_subscribe, if_pos rfl]
    rfl
  · rw [Broadcast.cursors_subscribe, if_pos rfl]
  · simp [Broadcast.unsubscribe]
  · rfl

lemma log_foldl_retune (kinds : List RTPCodecType) :
    (kinds.foldl (retune track old new renewed) c).log = c.log := by
  induction kinds generalizing c with
  | nil => rfl
  | cons k kinds ih => rw [List.foldl_cons, ih, log_retune]

lemma cursors_foldl_retune_of_ne {q : ℕ} {kinds : List RTPCodecType}
    (hq : ∀ k ∈ kinds, q ≠ k.receiver) :
    (kinds.foldl (retune track old new renewed) c).cursors[q]? = c.cursors[q]? := by
  induction kinds generalizing c with
  | nil => rfl
  | cons k kinds ih =>
      obtain ⟨hk, hkinds⟩ := List.forall_mem_cons.mp hq
      rw [List.foldl_cons, ih hkinds, cursors_retune_of_ne hk]

/-- The loops do not get into each other's way. -/
lemma cursors_foldl_retune {kinds : List RTPCodecType} (hnodup : kinds.Nodup) (hk : k ∈ kinds) :
    (kinds.foldl (retune track old new renewed) c).cursors[k.receiver]? =
      (retune track old new renewed c k).cursors[k.receiver]? := by
  induction kinds generalizing c with
  | nil => simp at hk
  | cons j kinds ih =>
      obtain ⟨hj, hnodup⟩ := List.nodup_cons.mp hnodup
      rw [List.foldl_cons]
      by_cases hjk : k = j
      · subst hjk
        refine cursors_foldl_retune_of_ne fun i hi => receiver_ne ?_
        rintro rfl
        exact hj hi
      · rw [ih hnodup ((List.mem_cons.mp hk).resolve_left hjk), cursors_retune, cursors_retune,
          log_retune, cursors_retune_of_ne (receiver_ne hjk)]

@[simp] lemma log_follow (base : SubscribeSystem) :
    ((s.follow base renewed).channel track).log = (s.channel track).log :=
  log_foldl_retune _

lemma cursors_follow (base : SubscribeSystem) (k : RTPCodecType) :
    ((s.follow base renewed).channel track).cursors[k.receiver]? =
      (retune track s.base.receives base.receives renewed (s.channel track) k).cursors[
        k.receiver]? :=
  cursors_foldl_retune (by decide) (by cases k <;> decide)

lemma cursors_follow_of_ne (base : SubscribeSystem) {q : ℕ}
    (hq : ∀ k : RTPCodecType, q ≠ k.receiver) :
    ((s.follow base renewed).channel track).cursors[q]? = (s.channel track).cursors[q]? :=
  cursors_foldl_retune_of_ne fun k _ => hq k

lemma tracks_setTrack (x : RtpTrack H) (other : PublishTrackRemote) :
    (s.setTrack track x).tracks other = if other = track then x else s.tracks other :=
  Function.update_apply _ _ _ _

lemma channel_setTrack (x : RtpTrack H) (other : PublishTrackRemote) :
    (s.setTrack track x).channel other =
      if other = track then x.rtpBroadcast else s.channel other := by
  rw [channel, tracks_setTrack]
  split_ifs <;> rfl

lemma channel_setChannel (other : PublishTrackRemote) :
    (s.setChannel track c).channel other = if other = track then c else s.channel other :=
  channel_setTrack _ _

/-! ### The order of the packets -/

/-- A loop has written packets of a track in the order in which the track sent them, and its
receiver is past them all. -/
structure InOrder (s : RtpSystem H) : Prop where
  sent : ∀ k, ∀ e ∈ s.written k, (s.channel e.track).log[e.index]? = some e.packet
  increasing : ∀ k, (s.written k).Pairwise fun e e' => e.track = e'.track → e.index < e'.index
  past : ∀ k track i, s.base.receives k = some track →
    (s.channel track).cursors[k.receiver]? = some i →
      ∀ e ∈ s.written k, e.track = track → e.index < i

/-- What a track has sent stays, and no receiver goes back. -/
lemma InOrder.setTrack {x : RtpTrack H} (hs : s.InOrder)
    (hlog : (s.channel track).log <+: x.rtpBroadcast.log)
    (hcursor : ∀ (k : RTPCodecType) (i : ℕ), x.rtpBroadcast.cursors[k.receiver]? = some i →
      ∃ j ≤ i, (s.channel track).cursors[k.receiver]? = some j) :
    (s.setTrack track x).InOrder where
  sent k e he := by
    have hold := hs.sent k e he
    rw [channel_setTrack]
    split_ifs with htrack
    · obtain ⟨more, hmore⟩ := hlog
      rw [htrack] at hold
      have hlt := (List.getElem?_eq_some_iff.mp hold).1
      rw [← hmore, List.getElem?_append_left hlt, hold]
    · exact hold
  increasing := hs.increasing
  past k other i hrecv hi e he hother := by
    rw [channel_setTrack] at hi
    split_ifs at hi with htrack
    · subst htrack
      obtain ⟨j, hj, hold⟩ := hcursor k i hi
      exact (hs.past k other j hrecv hold e he hother).trans_le hj
    · exact hs.past k other i hrecv hi e he hother

/-- A loop that subscribes begins after everything that the track has sent. -/
lemma InOrder.follow (hs : s.InOrder) (base : SubscribeSystem) :
    (s.follow base renewed).InOrder where
  sent k e he := by
    rw [log_follow]
    exact hs.sent k e he
  increasing := hs.increasing
  past k track i hrecv hi e he htrack := by
    rw [cursors_follow, cursors_retune] at hi
    split_ifs at hi with hsame hnew hold
    · exact hs.past k track i (hsame.1.trans hrecv) hi e he htrack
    · obtain rfl := Option.some.inj hi
      subst htrack
      exact (List.getElem?_eq_some_iff.mp (hs.sent k e he)).1
    · exact absurd hrecv hnew

/-- A receive of any receiver moves none back. -/
lemma InOrder.recv (hs : s.InOrder) (track : PublishTrackRemote) (r : ℕ) :
    (s.setChannel track ((s.channel track).recv r).2).InOrder := by
  refine hs.setTrack (by simp) fun k i hi => ?_
  by_cases hr : k.receiver = r
  · subst hr
    exact Broadcast.cursor_le_of_recv _ hi
  · exact ⟨i, le_rfl, ((s.channel track).cursors_recv_of_ne r k.receiver hr) ▸ hi⟩

/-- A receiver that is none of the loops' comes or goes. -/
lemma InOrder.of_follows {x : RtpTrack H} (hs : s.InOrder)
    (hx : ∀ k : RTPCodecType, (s.channel track).Follows x.rtpBroadcast k.receiver) :
    (s.setTrack track x).InOrder :=
  hs.setTrack (hx .video).log fun k i hi => ⟨i, le_rfl, (hx k).cursor ▸ hi⟩

/-- A loop writes a packet that its receiver is past, and that comes after those before. -/
lemma InOrder.write {x : Taken H} (hs : s.InOrder)
    (hsent : (s.channel x.track).log[x.index]? = some x.packet)
    (hafter : ∀ e ∈ s.written k, e.track = x.track → e.index < x.index)
    (hpast : ∀ i, (s.channel x.track).cursors[k.receiver]? = some i → x.index < i) :
    InOrder { s with written := Function.update s.written k (s.written k ++ [x]) } := by
  have hmem : ∀ {j e}, e ∈ Function.update s.written k (s.written k ++ [x]) j →
      e ∈ s.written j ∨ j = k ∧ e = x := by
    intro j e he
    by_cases hj : j = k
    · subst hj
      simpa using he
    · exact .inl (by simpa [hj] using he)
  refine ⟨fun j e he => ?_, fun j => ?_, fun j track i hrecv hi e he htrack => ?_⟩
  · obtain he | ⟨-, rfl⟩ := hmem he
    · exact hs.sent j e he
    · exact hsent
  · by_cases hj : j = k
    · subst hj
      have hpairs : (s.written j ++ [x]).Pairwise fun e e' =>
          e.track = e'.track → e.index < e'.index := by
        refine List.pairwise_append.mpr ⟨hs.increasing j, List.pairwise_singleton _ _, ?_⟩
        intro e he e' he'
        obtain rfl := List.mem_singleton.mp he'
        exact hafter e he
      simpa using hpairs
    · simpa [hj] using hs.increasing j
  · obtain he | ⟨rfl, rfl⟩ := hmem he
    · exact hs.past j track i hrecv hi e he htrack
    · subst htrack
      exact hpast i hi

/-- A loop takes a packet, and writes it if it can. -/
lemma InOrder.record {packet : RtpPacket H} (hs : s.InOrder)
    (hrecv : s.base.receives k = some track)
    (hpacket : ((s.channel track).recv k.receiver).1 = .message packet) (written : Bool) :
    InOrder { s.setChannel track ((s.channel track).recv k.receiver).2 with
      written := s.record k track packet written } := by
  obtain ⟨i, hi, hlog, hi'⟩ := (s.channel track).cursor_of_recv hpacket
  have hnext := hs.recv track k.receiver
  rw [RtpSystem.record]
  split_ifs
  · rw [hi, Option.getD_some]
    refine hnext.write (k := k) (x := ⟨track, i, packet⟩) ?_ (hs.past k track i hrecv hi) ?_
    · rw [channel_setChannel, if_pos rfl, Broadcast.recv_log]
      exact hlog
    · intro i' hcursor
      rw [channel_setChannel, if_pos rfl, hi', Option.some.injEq] at hcursor
      exact hcursor ▸ Nat.lt_succ_self i
  · exact hnext

lemma otherStep_eq_some {a : SubscribeAction} (h : s.otherStep a = some t) :
    ∃ base, s.base.step a = some base ∧ s.follow base (s.base.resubscribes a) = t := by
  cases a with
  | rtp => cases h
  | _ =>
      simp only [otherStep] at h
      exact Option.map_eq_some_iff.mp h

/-- Every step keeps the order. -/
lemma inOrder_step {a : RtpAction H} (hs : s.InOrder) (hst : s.step a = some t) : t.InOrder := by
  cases a with
  | read track packet =>
      obtain ⟨-, hst⟩ := Option.ite_none_right_eq_some.mp hst
      obtain rfl := Option.some.inj hst
      split
      · rename_i c hc
        obtain ⟨p, -, hsend⟩ := Option.bind_eq_some_iff.mp hc
        exact hs.of_follows fun k => Broadcast.follows_of_send hsend _
      · exact hs.of_follows fun k => Broadcast.Follows.refl _ _
  | drain track =>
      obtain ⟨-, hst⟩ := Option.ite_none_right_eq_some.mp hst
      have hrecv := hs.recv track 0
      split at hst
      · rename_i m c hc
        obtain rfl := Option.some.inj hst
        rwa [hc] at hrecv
      · rename_i n c hc
        obtain rfl := Option.some.inj hst
        have hzero : ∀ k : RTPCodecType, k.receiver ≠ 0 := by
          intro k
          cases k <;> simp [RTPCodecType.receiver]
        refine hs.of_follows fun k => ⟨?_, ?_⟩
        · have hlog := (s.channel track).recv_log 0
          rw [hc] at hlog
          exact hlog ▸ List.prefix_refl _
        · have hcursor := (s.channel track).cursors_recv_of_ne 0 k.receiver (hzero k)
          rw [hc] at hcursor
          rw [c.cursors_unsubscribe_of_ne _ _ (hzero k), hcursor]
      · cases hst
  | attach track r =>
      obtain ⟨hr, hst⟩ := Option.ite_none_right_eq_some.mp hst
      obtain rfl := Option.some.inj hst
      refine hs.of_follows fun k => ⟨List.prefix_refl _, ?_⟩
      rw [Broadcast.cursors_subscribe, if_neg]
      cases k <;> simp only [RTPCodecType.receiver] <;> omega
  | take track r =>
      obtain ⟨-, hst⟩ := Option.ite_none_right_eq_some.mp hst
      obtain rfl := Option.some.inj hst
      exact hs.recv track r
  | detach track r =>
      obtain ⟨hr, hst⟩ := Option.ite_none_right_eq_some.mp hst
      obtain rfl := Option.some.inj hst
      refine hs.of_follows fun k => ⟨List.prefix_refl _, ?_⟩
      refine (s.channel track).cursors_unsubscribe_of_ne _ _ ?_
      cases k <;> simp only [RTPCodecType.receiver] <;> omega
  | packet k written =>
      obtain ⟨track, hrecv, hst⟩ := Option.bind_eq_some_iff.mp hst
      split at hst
      · cases hst
      · rename_i n c hc
        obtain ⟨base, -, rfl⟩ := Option.map_eq_some_iff.mp hst
        have hlagged := hs.recv track k.receiver
        rw [hc] at hlagged
        exact hlagged.follow base
      · rename_i packet c hc
        obtain ⟨base, -, rfl⟩ := Option.map_eq_some_iff.mp hst
        have hmessage : ((s.channel track).recv k.receiver).1 = .message packet := by rw [hc]
        have htaken := hs.record hrecv hmessage written
        rw [hc] at htaken
        exact htaken.follow base
  | other a =>
      obtain ⟨base, -, rfl⟩ := otherStep_eq_some hst
      exact hs.follow base

/-- What a track has sent so far. -/
def sent (s : RtpSystem H) (track : PublishTrackRemote) : List (RtpPacket H) :=
  (s.channel track).log

lemma receives_of_init (h0 : subscribeMachine.init s.base) (k : RTPCodecType) :
    s.base.receives k = none := by
  rw [SubscribeSystem.receives]
  cases hl : s.base.loops k with
  | none => rfl
  | some l =>
      rw [SubscribeSystem.loop_of_init h0 hl]
      rfl

lemma inOrder_init (h0 : (rtpMachine H).init s) : s.InOrder := by
  obtain ⟨hbase, -, hwritten⟩ := h0
  refine ⟨fun k e he => ?_, fun k => ?_, fun k track i hrecv => ?_⟩
  · simp [hwritten] at he
  · simp [hwritten]
  · simp [receives_of_init hbase] at hrecv

/-! ### Who receives from a track -/

/-- The draining task has its receiver as long as it runs, and a loop has one on the track that it
receives from. -/
structure Attended (s : RtpSystem H) : Prop where
  capacity : ∀ track, (s.channel track).capacity = 64
  drain : ∀ track, (s.channel track).Live 0 ↔ (s.tracks track).drain = .running
  loop : ∀ (k : RTPCodecType) track,
    (s.channel track).Live k.receiver ↔ s.base.receives k = some track

lemma live_iff_isSome {r : ℕ} : c.Live r ↔ c.cursors[r]?.isSome :=
  ExtTreeMap.mem_iff_isSome_getElem?

lemma receiver_ne_zero (k : RTPCodecType) : k.receiver ≠ 0 := by
  cases k <;> simp [RTPCodecType.receiver]

lemma receiver_lt (k : RTPCodecType) : k.receiver < 4 := by
  cases k <;> simp [RTPCodecType.receiver]

lemma capacity_follow (base : SubscribeSystem) :
    ((s.follow base renewed).channel track).capacity = (s.channel track).capacity := by
  have hfold : ∀ (kinds : List RTPCodecType) (c : Broadcast (RtpPacket H)),
      (kinds.foldl (retune track s.base.receives base.receives renewed) c).capacity =
        c.capacity := by
    intro kinds
    induction kinds with
    | nil => exact fun _ => rfl
    | cons k kinds ih =>
        intro c
        rw [List.foldl_cons, ih, retune]
        dsimp only
        split_ifs <;> rfl
  exact hfold _ _

/-- The receivers of the loops follow them. -/
lemma Attended.follow (hs : s.Attended) (base : SubscribeSystem) :
    (s.follow base renewed).Attended where
  capacity track := (capacity_follow base).trans (hs.capacity track)
  drain track := by
    rw [live_iff_isSome, cursors_follow_of_ne base fun k => (receiver_ne_zero k).symm,
      ← live_iff_isSome]
    exact hs.drain track
  loop k track := by
    show _ ↔ base.receives k = some track
    have hloop := hs.loop k track
    rw [live_iff_isSome] at hloop ⊢
    rw [cursors_follow, cursors_retune]
    split_ifs with hsame hnew hold
    · rw [hloop, hsame.1]
    · simp [hnew]
    · simp [hnew]
    · rw [hloop]
      exact iff_of_false hold hnew

/-- A step on the channel of one track. -/
lemma Attended.setTrack {x : RtpTrack H} (hs : s.Attended)
    (hcapacity : x.rtpBroadcast.capacity = 64)
    (hdrain : x.rtpBroadcast.Live 0 ↔ x.drain = .running)
    (hloop : ∀ k : RTPCodecType,
      x.rtpBroadcast.Live k.receiver ↔ (s.channel track).Live k.receiver) :
    (s.setTrack track x).Attended where
  capacity other := by
    rw [channel_setTrack]
    split_ifs
    · exact hcapacity
    · exact hs.capacity other
  drain other := by
    rw [channel_setTrack, tracks_setTrack]
    split_ifs
    · exact hdrain
    · exact hs.drain other
  loop k other := by
    show _ ↔ s.base.receives k = some other
    rw [channel_setTrack]
    split_ifs with h
    · subst h
      exact (hloop k).trans (hs.loop k other)
    · exact hs.loop k other

/-- A receive changes no receiver. -/
lemma Attended.recv (hs : s.Attended) (track : PublishTrackRemote) (r : ℕ) :
    (s.setChannel track ((s.channel track).recv r).2).Attended :=
  hs.setTrack (by simp [hs.capacity]) (by simpa using hs.drain track) (by simp)

/-- Every step keeps the receivers in their places. -/
lemma attended_step {a : RtpAction H} (hs : s.Attended) (hst : s.step a = some t) :
    t.Attended := by
  cases a with
  | read track packet =>
      obtain ⟨-, hst⟩ := Option.ite_none_right_eq_some.mp hst
      obtain rfl := Option.some.inj hst
      split
      · rename_i c hc
        obtain ⟨p, -, hsend⟩ := Option.bind_eq_some_iff.mp hc
        obtain ⟨-, rfl⟩ := (s.channel track).send_eq_some_iff p |>.mp hsend
        exact hs.setTrack (hs.capacity track) (hs.drain track) fun k => Iff.rfl
      · exact hs.setTrack (hs.capacity track) (hs.drain track) fun k => Iff.rfl
  | drain track =>
      obtain ⟨-, hst⟩ := Option.ite_none_right_eq_some.mp hst
      have hrecv := hs.recv track 0
      split at hst
      · rename_i m c hc
        obtain rfl := Option.some.inj hst
        rwa [hc] at hrecv
      · rename_i n c hc
        obtain rfl := Option.some.inj hst
        have hcapacity := (s.channel track).recv_capacity 0
        have hlive := fun q => (s.channel track).live_recv 0 q
        rw [hc] at hcapacity hlive
        refine hs.setTrack (hcapacity.trans (hs.capacity track)) ?_ fun k => ?_
        · simp
        · rw [Broadcast.live_unsubscribe, hlive]
          exact and_iff_right (receiver_ne_zero k)
      · cases hst
  | attach track r =>
      obtain ⟨hr, hst⟩ := Option.ite_none_right_eq_some.mp hst
      obtain rfl := Option.some.inj hst
      refine hs.setTrack (hs.capacity track) ?_ fun k => ?_
      · rw [Broadcast.live_subscribe, or_iff_right (by omega)]
        exact hs.drain track
      · have hlt := receiver_lt k
        rw [Broadcast.live_subscribe, or_iff_right (by omega)]
  | take track r =>
      obtain ⟨-, hst⟩ := Option.ite_none_right_eq_some.mp hst
      obtain rfl := Option.some.inj hst
      exact hs.recv track r
  | detach track r =>
      obtain ⟨hr, hst⟩ := Option.ite_none_right_eq_some.mp hst
      obtain rfl := Option.some.inj hst
      refine hs.setTrack (hs.capacity track) ?_ fun k => ?_
      · rw [Broadcast.live_unsubscribe, and_iff_right (by omega)]
        exact hs.drain track
      · have hlt := receiver_lt k
        rw [Broadcast.live_unsubscribe, and_iff_right (by omega)]
  | packet k written =>
      obtain ⟨track, -, hst⟩ := Option.bind_eq_some_iff.mp hst
      have hrecv := hs.recv track k.receiver
      split at hst
      · cases hst
      · rename_i n c hc
        obtain ⟨base, -, rfl⟩ := Option.map_eq_some_iff.mp hst
        rw [hc] at hrecv
        exact hrecv.follow base
      · rename_i packet c hc
        obtain ⟨base, -, rfl⟩ := Option.map_eq_some_iff.mp hst
        rw [hc] at hrecv
        have htaken : Attended { s.setChannel track c with
            written := s.record k track packet written } :=
          ⟨hrecv.capacity, hrecv.drain, hrecv.loop⟩
        exact htaken.follow base
  | other a =>
      obtain ⟨base, -, rfl⟩ := otherStep_eq_some hst
      exact hs.follow base

lemma attended_init (h0 : (rtpMachine H).init s) : s.Attended := by
  obtain ⟨hbase, htracks, -⟩ := h0
  have hchannel : ∀ track, s.channel track = (Broadcast.new 64).subscribe 0 := by
    intro track
    rw [channel, htracks]
    rfl
  refine ⟨fun track => by rw [hchannel]; rfl, fun track => ?_, fun k track => ?_⟩
  · rw [hchannel, htracks]
    simp [RtpTrack.new]
  · rw [hchannel, receives_of_init hbase, Broadcast.live_subscribe]
    have hnew : ¬ (Broadcast.new 64 : Broadcast (RtpPacket H)).Live k.receiver :=
      fun h => (Broadcast.not_hasReceiver_new 64) ⟨_, h⟩
    simp [hnew, receiver_ne_zero]

/-- A track has a receiver: its draining task, a loop of the subscription, or another one. -/
lemma Attended.hasReceiver_iff (hs : s.Attended) : (s.channel track).HasReceiver ↔
    (s.tracks track).drain = .running ∨ (∃ k, s.base.receives k = some track) ∨
      ∃ r ≥ 4, (s.channel track).Live r := by
  constructor
  · rintro ⟨r, hr⟩
    by_cases hlarge : 4 ≤ r
    · exact .inr (.inr ⟨r, hlarge, hr⟩)
    · have hcases : r = 0 ∨ ∃ k : RTPCodecType, r = k.receiver := by
        obtain rfl | rfl | rfl | rfl : r = 0 ∨ r = 1 ∨ r = 2 ∨ r = 3 := by omega
        · exact .inl rfl
        · exact .inr ⟨.video, rfl⟩
        · exact .inr ⟨.audio, rfl⟩
        · exact .inr ⟨.unspecified, rfl⟩
      obtain rfl | ⟨k, rfl⟩ := hcases
      · exact .inl ((hs.drain track).mp hr)
      · exact .inr (.inl ⟨k, (hs.loop k track).mp hr⟩)
  · rintro (hdrain | ⟨k, hk⟩ | ⟨r, -, hr⟩)
    · exact ⟨0, (hs.drain track).mpr hdrain⟩
    · exact ⟨k.receiver, (hs.loop k track).mpr hk⟩
    · exact ⟨r, hr⟩

/-- What a step makes of `track_forward`, and of what a track has sent. -/
lemma forward_of_step (track : PublishTrackRemote) {a : RtpAction H} (hst : s.step a = some t) :
    (t.tracks track).forward = (s.tracks track).forward ∧ t.sent track = s.sent track ∨
      ∃ packet, a = .read track packet ∧ (s.tracks track).forward = .running ∧
        ((∃ p ∈ packet, (s.channel track).HasReceiver ∧
            (t.tracks track).forward = .running ∧ t.sent track = s.sent track ++ [p]) ∨
          (∀ p ∈ packet, ¬ (s.channel track).HasReceiver) ∧
            (t.tracks track).forward = .finished ∧ t.sent track = s.sent track) := by
  -- a step on the channel of a track that sends nothing
  have hkeeps : ∀ (other : PublishTrackRemote) (x : RtpTrack H),
      x.forward = (s.tracks other).forward → x.rtpBroadcast.log = (s.channel other).log →
        ((s.setTrack other x).tracks track).forward = (s.tracks track).forward ∧
          (s.setTrack other x).sent track = s.sent track := by
    intro other x hforward hlog
    rw [sent, channel_setTrack, tracks_setTrack]
    split_ifs with h
    · subst h
      exact ⟨hforward, hlog⟩
    · exact ⟨rfl, rfl⟩
  cases a with
  | read other packet =>
      obtain ⟨hrun, hst⟩ := Option.ite_none_right_eq_some.mp hst
      obtain rfl := Option.some.inj hst
      by_cases h : track = other
      · subst h
        refine .inr ⟨packet, rfl, hrun, ?_⟩
        split
        · rename_i c hc
          obtain ⟨p, hp, hsend⟩ := Option.bind_eq_some_iff.mp hc
          obtain ⟨hreceiver, rfl⟩ := (s.channel track).send_eq_some_iff p |>.mp hsend
          refine .inl ⟨p, hp, hreceiver, ?_, ?_⟩
          · rw [setChannel, tracks_setTrack, if_pos rfl]
            exact hrun
          · rw [sent, channel_setChannel, if_pos rfl]
            rfl
        · rename_i hnone
          refine .inr ⟨fun p hp => ?_, ?_, ?_⟩
          · rw [hp, Option.bind_some] at hnone
            exact ((s.channel track).send_eq_none_iff p).mp hnone
          · rw [tracks_setTrack, if_pos rfl]
          · rw [sent, channel_setTrack, if_pos rfl]
            rfl
      · left
        split
        · rw [sent, channel_setChannel, if_neg h, setChannel, tracks_setTrack, if_neg h]
          exact ⟨rfl, rfl⟩
        · rw [sent, channel_setTrack, if_neg h, tracks_setTrack, if_neg h]
          exact ⟨rfl, rfl⟩
  | drain other =>
      obtain ⟨-, hst⟩ := Option.ite_none_right_eq_some.mp hst
      have hlog := (s.channel other).recv_log 0
      split at hst
      · rename_i m c hc
        obtain rfl := Option.some.inj hst
        rw [hc] at hlog
        exact .inl (hkeeps other _ rfl hlog)
      · rename_i n c hc
        obtain rfl := Option.some.inj hst
        rw [hc] at hlog
        exact .inl (hkeeps other _ rfl hlog)
      · cases hst
  | attach other r | detach other r =>
      obtain ⟨-, hst⟩ := Option.ite_none_right_eq_some.mp hst
      obtain rfl := Option.some.inj hst
      exact .inl (hkeeps other _ rfl rfl)
  | take other r =>
      obtain ⟨-, hst⟩ := Option.ite_none_right_eq_some.mp hst
      obtain rfl := Option.some.inj hst
      exact .inl (hkeeps other _ rfl ((s.channel other).recv_log r))
  | packet k written =>
      obtain ⟨other, -, hst⟩ := Option.bind_eq_some_iff.mp hst
      have hlog := (s.channel other).recv_log k.receiver
      split at hst
      · cases hst
      · rename_i n c hc
        obtain ⟨base, -, rfl⟩ := Option.map_eq_some_iff.mp hst
        rw [hc] at hlog
        obtain ⟨hforward, hsent⟩ := hkeeps other { s.tracks other with rtpBroadcast := c } rfl hlog
        exact .inl ⟨hforward, (log_follow base).trans hsent⟩
      · rename_i packet c hc
        obtain ⟨base, -, rfl⟩ := Option.map_eq_some_iff.mp hst
        rw [hc] at hlog
        obtain ⟨hforward, hsent⟩ := hkeeps other { s.tracks other with rtpBroadcast := c } rfl hlog
        exact .inl ⟨hforward, (log_follow base).trans hsent⟩
  | other a =>
      obtain ⟨base, -, rfl⟩ := otherStep_eq_some hst
      exact .inl ⟨rfl, log_follow base⟩

/-- What a step makes of the task that drains the channel of a track. -/
lemma drain_of_step {a : RtpAction H} (hs : s.Attended) (hst : s.step a = some t)
    (hrun : (s.tracks track).drain = .running) :
    (t.tracks track).drain ≠ .running ↔ a = .drain track ∧ 64 < (s.channel track).unread 0 := by
  -- a step that is none of the draining task keeps it
  have hkeeps : ∀ (other : PublishTrackRemote) (x : RtpTrack H), x.drain = (s.tracks other).drain →
      ((s.setTrack other x).tracks track).drain = .running := by
    intro other x hx
    rw [tracks_setTrack]
    split_ifs with h
    · subst h
      exact hx.trans hrun
    · exact hrun
  have hother : (t.tracks track).drain = .running → (∀ other, a ≠ .drain other) →
      ((t.tracks track).drain ≠ .running ↔
        a = .drain track ∧ 64 < (s.channel track).unread 0) :=
    fun h ha => iff_of_false (absurd h) fun hdrain => ha track hdrain.1
  cases a with
  | drain other =>
      obtain ⟨-, hst⟩ := Option.ite_none_right_eq_some.mp hst
      have hlagged := (s.channel other).recv_fst_eq_lagged_iff 0
      rw [hs.capacity] at hlagged
      split at hst
      · rename_i m c hc
        obtain rfl := Option.some.inj hst
        rw [hc] at hlagged
        refine iff_of_false (absurd (hkeeps other _ rfl)) ?_
        rintro ⟨heq, hlt⟩
        obtain rfl := RtpAction.drain.inj heq
        obtain ⟨n, hn⟩ := hlagged.mpr hlt
        cases hn
      · rename_i n c hc
        obtain rfl := Option.some.inj hst
        rw [hc] at hlagged
        have hlt := hlagged.mp ⟨n, rfl⟩
        rw [tracks_setTrack]
        split_ifs with h
        · subst h
          exact iff_of_true (by simp) ⟨rfl, hlt⟩
        · exact iff_of_false (absurd hrun) fun heq => h (RtpAction.drain.inj heq.1).symm
      · cases hst
  | read other packet =>
      obtain ⟨-, hst⟩ := Option.ite_none_right_eq_some.mp hst
      obtain rfl := Option.some.inj hst
      refine hother ?_ (by simp)
      split
      · exact hkeeps other _ rfl
      · exact hkeeps other _ rfl
  | attach other r | take other r | detach other r =>
      obtain ⟨-, hst⟩ := Option.ite_none_right_eq_some.mp hst
      obtain rfl := Option.some.inj hst
      exact hother (hkeeps other _ rfl) (by simp)
  | packet k written =>
      obtain ⟨other, -, hst⟩ := Option.bind_eq_some_iff.mp hst
      split at hst
      · cases hst
      all_goals
        obtain ⟨base, -, rfl⟩ := Option.map_eq_some_iff.mp hst
        exact hother (hkeeps other _ rfl) (by simp)
  | other a =>
      obtain ⟨base, -, rfl⟩ := otherStep_eq_some hst
      exact hother hrun (by simp)

/-- Once `track_forward` has stopped, nothing more is sent. -/
lemma sent_of_exec {as : List (RtpAction H)} (h : (rtpMachine H).exec s as = some t)
    (hstopped : (s.tracks track).forward ≠ .running) : t.sent track = s.sent track := by
  have hkept := Machine.invariant_exec
    (I := fun u : RtpSystem H => (u.tracks track).forward ≠ .running ∧
      u.sent track = s.sent track) (fun u a v hu hst => ?_) ⟨hstopped, rfl⟩ h
  · exact hkept.2
  · obtain ⟨hforward, hsent⟩ | ⟨packet, -, hrun, -⟩ := forward_of_step track hst
    · exact ⟨hforward ▸ hu.1, hsent.trans hu.2⟩
    · exact absurd hrun hu.1

end RtpSystem

open RtpSystem

section Theorems

variable {H : Type*} {s₀ s t : RtpSystem H} {as : List (RtpAction H)} {a : RtpAction H}

/-- **Packets in order**: in every run, what a loop has written of a track are packets that the
track has sent, each at its place, in the order in which the track sent them and none twice,
whatever the loop missed, and however often it went over to other tracks or subscribed anew. -/
theorem packets_in_order (h0 : (rtpMachine H).init s₀)
    (h : (rtpMachine H).exec s₀ as = some s) (k : RTPCodecType) :
    (∀ e ∈ s.written k, (s.sent e.track)[e.index]? = some e.packet) ∧
      (s.written k).Pairwise fun e e' => e.track = e'.track → e.index < e'.index := by
  have hs := Machine.invariant_exec (I := InOrder) (fun _ _ _ hs hst => inOrder_step hs hst)
    (inOrder_init h0) h
  exact ⟨hs.sent k, hs.increasing k⟩

/-- A layer of a simulcast video. -/
def high : PublishTrackRemote := ⟨"high", .video, 7, 0⟩

/-- The other layer of the video. -/
def low : PublishTrackRemote := ⟨"low", .video, 8, 1⟩

/-- A subscription to the video, before its first step. -/
def simulcast : RtpSystem Unit where
  base := .new [high, low] [.video]
  tracks := fun _ => .new Unit
  written := fun _ => []

/-- A packet. -/
def packetOf (sequenceNumber : UInt16) : RtpPacket Unit := ⟨sequenceNumber, (), []⟩

/-- The loop takes the upper layer, goes over to the lower one, misses a packet of the upper one,
and comes back. -/
def switches : List (RtpAction Unit) :=
  [.other (.trackChange .video true), .read high (packetOf 5), .packet .video true,
    .other (.selectKindRid "low"), .other (.selectLayer .video true), .read high (packetOf 6),
    .read low (packetOf 9), .packet .video true, .other .drain,
    .other (.selectKindRid "high"), .other (.selectLayer .video true),
    .read high (packetOf 7), .packet .video true]

lemma init_simulcast : (rtpMachine Unit).init simulcast :=
  ⟨⟨[high, low], [.video], by decide, rfl⟩, rfl, rfl⟩

/-- A run in which the loop goes over to another track and comes back. -/
theorem packets_in_order_switches : ∃ s, (rtpMachine Unit).exec simulcast switches = some s ∧
    (s.written .video).map (fun e => (e.track.rid, e.index)) =
      [("high", 0), ("low", 0), ("high", 2)] ∧
    (s.written .video).Pairwise fun e e' => e.track = e'.track → e.index < e'.index := by
  have hrun : ((rtpMachine Unit).exec simulcast switches).map
      (fun s => (s.written .video).map fun e => (e.track.rid, e.index)) =
        some [("high", 0), ("low", 0), ("high", 2)] := by
    decide
  obtain ⟨s, hs, hwritten⟩ := Option.map_eq_some_iff.mp hrun
  exact ⟨s, hs, hwritten, (packets_in_order init_simulcast hs .video).2⟩

/-- **When a track falls silent**: at any step of any run, `track_forward` stops exactly if reading
from the track fails, or a packet comes when the draining task has ended and nobody has
subscribed; while `track_forward` runs, the draining task ends exactly at a turn with more than 64
packets to take; and when `track_forward` has stopped, nothing is sent any more, whoever subscribes
later. -/
theorem trackForward_stops_iff (h0 : (rtpMachine H).init s₀)
    (h : (rtpMachine H).exec s₀ as = some s) (hst : (rtpMachine H).step s a = some t)
    (track : PublishTrackRemote) (hrun : (s.tracks track).forward = .running) :
    ((t.tracks track).forward ≠ .running ↔ a = .read track none ∨
      ∃ p, a = .read track (some p) ∧ (s.tracks track).drain ≠ .running ∧
        (∀ k, s.base.receives k ≠ some track) ∧ ∀ r ≥ 4, ¬ (s.channel track).Live r) ∧
    ((s.tracks track).drain = .running → ((t.tracks track).drain ≠ .running ↔
      a = .drain track ∧ 64 < (s.channel track).unread 0)) ∧
    ((t.tracks track).forward ≠ .running → ∀ bs u, (rtpMachine H).exec t bs = some u →
      u.sent track = s.sent track) := by
  have hs := Machine.invariant_exec (I := Attended) (fun _ _ _ hs hst => attended_step hs hst)
    (attended_init h0) h
  have hstep := forward_of_step track hst
  refine ⟨⟨fun hstopped => ?_, ?_⟩, drain_of_step hs hst, fun hstopped bs u hu => ?_⟩
  · obtain ⟨hforward, -⟩ | ⟨packet, rfl, -, ⟨p, -, -, hforward, -⟩ | ⟨hnone, -⟩⟩ := hstep
    · exact absurd (hforward.trans hrun) hstopped
    · exact absurd hforward hstopped
    · cases packet with
      | none => exact .inl rfl
      | some p =>
          have hreceiver := hnone p rfl
          rw [hs.hasReceiver_iff] at hreceiver
          push Not at hreceiver
          exact .inr ⟨p, rfl, hreceiver⟩
  · rintro (rfl | ⟨p, rfl, hdrain, hloops, hothers⟩)
    · obtain ⟨-, hst⟩ := Option.ite_none_right_eq_some.mp hst
      obtain rfl := Option.some.inj hst
      rw [Option.bind_none, tracks_setTrack, if_pos rfl]
      simp
    · have hreceiver : ¬ (s.channel track).HasReceiver := by
        rw [hs.hasReceiver_iff]
        push Not
        exact ⟨hdrain, hloops, hothers⟩
      obtain ⟨-, hst⟩ := Option.ite_none_right_eq_some.mp hst
      obtain rfl := Option.some.inj hst
      rw [Option.bind_some, ((s.channel track).send_eq_none_iff p).mpr hreceiver,
        tracks_setTrack, if_pos rfl]
      simp
  · have hsent : t.sent track = s.sent track := by
      obtain ⟨-, hsent⟩ | ⟨packet, -, -, ⟨p, -, -, hforward, -⟩ | ⟨-, -, hsent⟩⟩ := hstep
      · exact hsent
      · exact absurd hforward hstopped
      · exact hsent
    exact (sent_of_exec hu hstopped).trans hsent

/-- A track without subscribers whose packets are not drained in time falls silent. -/
def floods : List (RtpAction Unit) :=
  (List.range 65).map (fun i => .read low (packetOf i.toUInt16)) ++ [.drain low]

/-- A run in which a track falls silent. -/
theorem trackForward_stops_iff_floods : ∃ s t, (rtpMachine Unit).exec simulcast floods = some s ∧
    (rtpMachine Unit).step s (.read low (packetOf 65)) = some t ∧
      (t.tracks low).forward ≠ .running ∧
        ∀ bs u, (rtpMachine Unit).exec t bs = some u → u.sent low = s.sent low := by
  have hrun : (((rtpMachine Unit).exec simulcast floods).bind fun s =>
      ((rtpMachine Unit).step s (.read low (packetOf 65))).map fun t =>
        ((s.tracks low).forward, (t.tracks low).forward)) = some (.running, .finished) := by
    decide
  obtain ⟨s, hs, hstep⟩ := Option.bind_eq_some_iff.mp hrun
  obtain ⟨t, ht, hforward⟩ := Option.map_eq_some_iff.mp hstep
  obtain ⟨hs', ht'⟩ := Prod.mk.inj hforward
  have hstopped : (t.tracks low).forward ≠ .running := by
    rw [ht']
    simp
  exact ⟨s, t, hs, ht, hstopped,
    (trackForward_stops_iff init_simulcast hs ht low hs').2.2 hstopped⟩

end Theorems

end SfuServer
