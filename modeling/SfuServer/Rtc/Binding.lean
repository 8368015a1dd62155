import SfuServer.Rtc.Subscribe

/-!
What a subscriber is bound to: the loops of `src/forward/rtc/subscribe.rs` against the tracks
that are published.

A loop reads the published tracks only when it takes a notification or a request, and the map
`track_binding_publish_rid`, which it shares with the loop for the feedback, holds the rid of
its track or one of two words that stand for no rid.

* `TrackChanged`, `Selected`: what the two branches make of a loop and of the rid that is
  bound for its kind; `Effect` is what a step of the system does to all of them;
* `rebound_iff`: a loop with no notification left receives from a published track, and from
  one at all if there is one of its kind, exactly in runs where no publisher is replaced
  behind the loop's back and no layer is enabled that is no longer published;
* `bindingAgrees_iff`: the loop for video forwards the track whose rid is bound, so that the
  feedback reaches its ssrc, exactly in runs where no word is bound for a rid.
-/

open Std (ExtTreeMap)

namespace SfuServer

namespace RTPCodecType

lemma toString_injective : Function.Injective toString := by
  intro j k h
  cases j <;> cases k <;> first | rfl | exact absurd h (by decide)

lemma toString_ne {j k : RTPCodecType} (hjk : j ≠ k) : k.toString ≠ j.toString :=
  fun h => hjk (toString_injective h).symm

lemma receiver_injective : Function.Injective receiver := by
  intro j k h
  cases j <;> cases k <;> first | rfl | exact absurd h (by decide)

end RTPCodecType

namespace SubscribeSystem

variable {s t : SubscribeSystem} {a : SubscribeAction} {k j : RTPCodecType} {l l' : ForwardLoop}

/-! ### The branches of a loop -/

/-- The rid that is bound for a kind. -/
def boundRid (s : SubscribeSystem) (k : RTPCodecType) : Option String :=
  s.trackBindingPublishRid[k.toString]?

/-- The loop of a kind is in the state `l` and runs. -/
def Runs (s : SubscribeSystem) (k : RTPCodecType) (l : ForwardLoop) : Prop :=
  s.loops k = some l ∧ l.ended = none

/-- The loop of the kind `k` goes over to `l'`, and the rid bound for the kind to `rid`; the
tracks, and what belongs to the other kinds, stay. -/
structure Moved (s : SubscribeSystem) (k : RTPCodecType) (l' : ForwardLoop)
    (rid : Option String) (t : SubscribeSystem) : Prop where
  publishTracks : t.publishTracks = s.publishTracks
  loop : t.loops k = some l'
  loops : ∀ j ≠ k, t.loops j = s.loops j
  rid : t.boundRid k = rid
  rids : ∀ j ≠ k, t.boundRid j = s.boundRid j

section Branches

variable (tracks : List PublishTrackRemote) (k : RTPCodecType) (l : ForwardLoop)
  (current : Option String) (replaced : Bool)

/-- What the branch on a change of the tracks makes of a loop and of the rid that is bound. -/
inductive TrackChanged : ForwardLoop → Option String → Prop
  | offline (empty : tracks = []) :
      TrackChanged { l with recv := none, track := none, preRid := none }
        (if current = some ridDisable then some ridDisable else none)
  | kept (online : tracks ≠ []) (cause : l.track.isSome ∨ current = some ridDisable ∨
      (∀ t ∈ tracks, t.kind ≠ k) ∨ replaced = false) : TrackChanged l current
  | bound {publishTrack : PublishTrackRemote} (free : l.track = none)
      (mem : publishTrack ∈ tracks) (kind : publishTrack.kind = k) :
      TrackChanged { l with recv := some publishTrack, track := some publishTrack }
        (some publishTrack.rid)

/-- The first published track of a kind. -/
def firstOf : Option PublishTrackRemote := tracks.find? fun t => t.kind = k

/-- The published track that a request for a rid is for. -/
def trackFor (rid : String) : Option PublishTrackRemote :=
  tracks.find? fun t => t.kind = .video ∧ (t.rid = rid ∨ rid = ridEnable)

/-- A request enables a kind that is disabled. -/
def Enables (select : String) : Prop := current = some ridDisable ∧ select = ridEnable

/-- The rid that a request is for: enabling stands for the rid before, or else for that of
the first track. -/
def Means (select new : String) : Prop :=
  (Enables current select ∧ (l.preRid = some new ∨
    l.preRid = none ∧ ∃ t, firstOf tracks k = some t ∧ t.rid = new)) ∨
  (¬ Enables current select ∧ select = new)

/-- What the branch on a request makes of a loop and of the rid that is bound; `heard` says
that feedback finds a receiver, and `rest` is the rid that is bound where no track is found. -/
inductive Selected (heard : Prop) (select : String) (rest : Option String) :
    ForwardLoop → Option String → Prop
  | same (bound : current = some select) : Selected heard select rest l current
  | nothing (changed : current ≠ some select) (means : Enables current select)
      (preRid : l.preRid = none) (first : firstOf tracks k = none) :
      Selected heard select rest l rest
  | disabled {rid : String} (changed : current ≠ some select)
      (means : Means tracks k l current select ridDisable) (bound : current = some rid) :
      Selected heard select rest { l with recv := none, track := none, preRid := some rid }
        (some ridDisable)
  | unbound (changed : current ≠ some select)
      (means : Means tracks k l current select ridDisable) (bound : current = none) :
      Selected heard select rest l (some ridDisable)
  | missed {new : String} (changed : current ≠ some select)
      (means : Means tracks k l current select new) (ne : new ≠ ridDisable)
      (cause : trackFor tracks new = none ∨ replaced = false) : Selected heard select rest l rest
  | found {new : String} {publishTrack : PublishTrackRemote} (changed : current ≠ some select)
      (means : Means tracks k l current select new) (ne : new ≠ ridDisable)
      (hit : trackFor tracks new = some publishTrack) (ok : replaced = true) (hears : heard) :
      Selected heard select rest
        { l with recv := some publishTrack, track := some publishTrack } (some new)
  | panicked {new : String} {publishTrack : PublishTrackRemote} {l' : ForwardLoop}
      (changed : current ≠ some select) (means : Means tracks k l current select new)
      (ne : new ≠ ridDisable) (hit : trackFor tracks new = some publishTrack)
      (ok : replaced = true) (deaf : ¬ heard) (ended : l'.ended ≠ none) :
      Selected heard select rest l' rest

end Branches

/-- The rid that stays bound where a request finds no track: none if it was to enable the
kind. -/
def rest (current : Option String) (select : String) : Option String :=
  if current = some ridDisable ∧ select = ridEnable then none else current

/-- The channels of the loop of a kind go only when it ends. -/
structure Channels (s : SubscribeSystem) (k : RTPCodecType) (l' : ForwardLoop)
    (t : SubscribeSystem) : Prop where
  change : t.publishTracksChange = s.publishTracksChange ∨ l'.ended ≠ none ∧
    t.publishTracksChange = s.publishTracksChange.unsubscribe k.receiver
  requests : t.selectLayer.log = s.selectLayer.log

lemma Moved.trans {r : SubscribeSystem} {rid rid' : Option String} (hr : s.Moved k l rid r)
    (ht : r.Moved k l' rid' t) : s.Moved k l' rid' t :=
  ⟨ht.publishTracks.trans hr.publishTracks, ht.loop,
    fun j hj => (ht.loops j hj).trans (hr.loops j hj), ht.rid,
    fun j hj => (ht.rids j hj).trans (hr.rids j hj)⟩

lemma moved_self (hl : s.loops k = some l) : s.Moved k l (s.boundRid k) s :=
  ⟨rfl, hl, fun _ _ => rfl, rfl, fun _ _ => rfl⟩

lemma moved_setLoop : s.Moved k l' (s.boundRid k) (s.setLoop k l') :=
  ⟨rfl, by simp [setLoop], fun j hj => by simp [setLoop, hj], rfl, fun _ _ => rfl⟩

lemma moved_endLoop {cause : ForwardEnd} :
    s.Moved k { l with ended := some cause } (s.boundRid k) (s.endLoop k l cause) :=
  ⟨rfl, by simp [endLoop, setLoop], fun j hj => by simp [endLoop, setLoop, hj], rfl,
    fun _ _ => rfl⟩

lemma channels_endLoop {cause : ForwardEnd} :
    s.Channels k { l with ended := some cause } (s.endLoop k l cause) :=
  ⟨.inr ⟨by simp, rfl⟩, rfl⟩

/-- A loop changes together with the rid that is bound for its kind. -/
lemma moved_insert {rid : String} {r : SubscribeSystem} (hr : r = { s with
    publishRtcp := r.publishRtcp
    trackBindingPublishRid := s.trackBindingPublishRid.insert k.toString rid }.setLoop k l') :
    s.Moved k l' (some rid) r := by
  rw [hr]
  refine ⟨rfl, by simp [setLoop], fun j hj => by simp [setLoop, hj], ?_, fun j hj => ?_⟩
  · simp [boundRid, setLoop]
  · simp [boundRid, setLoop, ExtTreeMap.getElem?_insert, RTPCodecType.toString_ne hj]

/-- What the branch on a change of the tracks does. -/
lemma trackChange_spec (replaced : Bool) (hl : s.loops k = some l) :
    ∃ l' rid, TrackChanged s.publishTracks k l (s.boundRid k) replaced l' rid ∧
      s.Moved k l' rid (s.trackChange k l replaced) := by
  have online : ¬ s.publishTracks.length = 0 → s.publishTracks ≠ [] := fun h => by
    simpa using h
  rw [trackChange]
  dsimp only
  split_ifs with hempty hforget htrack hdis hreplaced
  · refine ⟨_, _, .offline (List.length_eq_zero_iff.mp hempty), ?_⟩
    rw [if_neg (show s.boundRid k ≠ some ridDisable from hforget.2)]
    refine ⟨rfl, by simp [setLoop], fun j hj => by simp [setLoop, hj], ?_, fun j hj => ?_⟩
    · simp [boundRid, setLoop]
    · simp [boundRid, setLoop, ExtTreeMap.getElem?_erase, RTPCodecType.toString_ne hj]
  · refine ⟨_, _, .offline (List.length_eq_zero_iff.mp hempty), ?_⟩
    have hrid : s.boundRid k =
        if s.boundRid k = some ridDisable then some ridDisable else none := by
      cases hcur : s.boundRid k with
      | none => rfl
      | some rid =>
          rw [boundRid] at hcur
          simp only [hcur, Option.isSome_some, true_and, not_not] at hforget
          rw [hforget, if_pos rfl]
    rw [← hrid]
    exact moved_setLoop
  · exact ⟨l, _, .kept (online hempty) (.inl htrack), moved_self hl⟩
  · exact ⟨l, _, .kept (online hempty) (.inr (.inl hdis)), moved_self hl⟩
  · split
    · rename_i hfind
      have hkinds : ∀ t ∈ s.publishTracks, t.kind ≠ k := by simpa using hfind
      exact ⟨l, _, .kept (online hempty) (.inr (.inr (.inl hkinds))), moved_self hl⟩
    · rename_i publishTrack hfind
      have hkind : publishTrack.kind = k := by simpa using List.find?_some hfind
      exact ⟨_, _, .bound (Option.not_isSome_iff_eq_none.mp htrack)
        (List.mem_of_find?_eq_some hfind) hkind, moved_insert rfl⟩
  · simp only [Bool.not_eq_true] at hreplaced
    refine ⟨l, _, .kept (online hempty) (.inr (.inr (.inr hreplaced))), ?_⟩
    split <;> exact moved_self hl

/-- What the source computes a request to mean. -/
lemma newRid_eq_some_iff {select new : String} :
    s.newRid k l (s.boundRid k) select = some new ↔
      Means s.publishTracks k l (s.boundRid k) select new := by
  rw [newRid, Means, Enables]
  split_ifs with henable
  · cases hpre : l.preRid with
    | none => simp [henable, firstOf, List.head?_map, List.head?_filter]
    | some pre => simp [henable]
  · simp [henable]

lemma newRid_eq_none_iff {select : String} :
    s.newRid k l (s.boundRid k) select = none ↔
      Enables (s.boundRid k) select ∧ l.preRid = none ∧ firstOf s.publishTracks k = none := by
  rw [newRid, Enables]
  split_ifs with henable
  · cases hpre : l.preRid with
    | none => simp [henable, firstOf, List.head?_map, List.head?_filter]
    | some pre => simp
  · simp [henable]

/-- Going over to the rid that a request means. -/
lemma selectRid_spec {current : Option String} {select new : String} (replaced : Bool)
    (hl : s.loops k = some l) (changed : current ≠ some select)
    (means : Means s.publishTracks k l current select new) :
    ∃ l' rid, Selected s.publishTracks k l current replaced s.publishRtcp.HasReceiver select
        (s.boundRid k) l' rid ∧
      s.Moved k l' rid (s.selectRid k l current new replaced) ∧
      s.Channels k l' (s.selectRid k l current new replaced) := by
  rw [selectRid]
  by_cases hdis : new = ridDisable
  · subst hdis
    rw [if_pos rfl]
    cases hcur : current with
    | none =>
        subst hcur
        exact ⟨_, _, .unbound changed means rfl, moved_insert rfl, .inl rfl, rfl⟩
    | some rid =>
        subst hcur
        exact ⟨_, _, .disabled changed means rfl, moved_insert rfl, .inl rfl, rfl⟩
  rw [if_neg hdis]
  have hfind : (s.publishTracks.find? fun t =>
      t.kind = .video ∧ (t.rid = new ∨ new = ridEnable)) = trackFor s.publishTracks new := rfl
  rw [hfind]
  cases htrack : trackFor s.publishTracks new with
  | none => exact ⟨_, _, .missed changed means hdis (.inl htrack), moved_self hl, .inl rfl, rfl⟩
  | some publishTrack =>
      cases replaced with
      | false => exact ⟨_, _, .missed changed means hdis (.inr rfl), moved_self hl, .inl rfl, rfl⟩
      | true =>
          dsimp only
          by_cases hheard : s.publishRtcp.HasReceiver
          · rw [if_pos rfl, Broadcast.send, if_pos hheard]
            exact ⟨_, _, .found changed means hdis htrack rfl hheard, moved_insert rfl, .inl rfl,
              rfl⟩
          · rw [if_pos rfl, Broadcast.send, if_neg hheard]
            exact ⟨_, _, .panicked changed means hdis htrack rfl hheard (by simp),
              moved_endLoop (l := { l with
                recv := some publishTrack, track := some publishTrack }), channels_endLoop⟩

/-- What the branch on a request does. -/
lemma select_spec (select : String) (replaced : Bool) (hl : s.loops k = some l) :
    ∃ l' rid, Selected s.publishTracks k l (s.boundRid k) replaced s.publishRtcp.HasReceiver
        select (rest (s.boundRid k) select) l' rid ∧
      s.Moved k l' rid (s.select k l select replaced) ∧
      s.Channels k l' (s.select k l select replaced) := by
  have hcurrent : s.trackBindingPublishRid[k.toString]? = s.boundRid k := rfl
  rw [SubscribeSystem.select]
  simp only [hcurrent]
  by_cases hsame : s.boundRid k = some select
  · rw [if_pos hsame]
    exact ⟨l, _, .same hsame, moved_self hl, .inl rfl, rfl⟩
  rw [if_neg hsame]
  -- the state in which the rid is forgotten
  obtain ⟨r, hr, hmoved, hrtcp, hchannels⟩ : ∃ r, (if s.boundRid k = some ridDisable ∧
        select = ridEnable then
      { s with trackBindingPublishRid := s.trackBindingPublishRid.erase k.toString } else s) = r ∧
      s.Moved k l (rest (s.boundRid k) select) r ∧ r.publishRtcp = s.publishRtcp ∧
      (r.publishTracksChange = s.publishTracksChange ∧ r.selectLayer = s.selectLayer) := by
    rw [rest]
    split_ifs
    · refine ⟨_, rfl, ⟨rfl, hl, fun _ _ => rfl, ?_, fun j hj => ?_⟩, rfl, rfl, rfl⟩
      · simp [boundRid]
      · simp [boundRid, ExtTreeMap.getElem?_erase, RTPCodecType.toString_ne hj]
    · exact ⟨s, rfl, moved_self hl, rfl, rfl, rfl⟩
  rw [hr]
  cases hnew : s.newRid k l (s.boundRid k) select with
  | none =>
      obtain ⟨henable, hpre, hfirst⟩ := newRid_eq_none_iff.mp hnew
      exact ⟨l, _, .nothing hsame henable hpre hfirst, hmoved, .inl hchannels.1,
        congrArg Broadcast.log hchannels.2⟩
  | some new =>
      have hmeans := newRid_eq_some_iff.mp hnew
      rw [← hmoved.publishTracks] at hmeans ⊢
      obtain ⟨l', rid, hselected, hmoved', hchannels'⟩ :=
        selectRid_spec replaced hmoved.loop hsame hmeans
      rw [hmoved.rid, hrtcp] at hselected
      refine ⟨l', rid, hselected, hmoved.trans hmoved', ?_, ?_⟩
      · rw [← hchannels.1]
        exact hchannels'.change
      · rw [← hchannels.2]
        exact hchannels'.requests

/-! ### What a step does -/

/-- The action takes no notification, and no request for the kind of its loop. -/
def TakesNothing (s : SubscribeSystem) (a : SubscribeAction) : Prop :=
  (∀ k replaced, a ≠ .trackChange k replaced) ∧
    ∀ k replaced select, a = .selectLayer k replaced →
      (s.selectLayer.recv k.receiver).1 ≠ .message (k, select)

/-- The branch on a change of the tracks leaves the channels of the loops alone. -/
lemma trackChange_channels (replaced : Bool) :
    (s.trackChange k l replaced).publishTracksChange = s.publishTracksChange ∧
      (s.trackChange k l replaced).selectLayer = s.selectLayer := by
  rw [trackChange]
  dsimp only
  split_ifs
  · exact ⟨rfl, rfl⟩
  · exact ⟨rfl, rfl⟩
  · exact ⟨rfl, rfl⟩
  · exact ⟨rfl, rfl⟩
  · split <;> exact ⟨rfl, rfl⟩
  · split <;> exact ⟨rfl, rfl⟩

/-- What a step does to the loops, to the tracks and the notifications of their changes, and
to the rids that are bound. -/
inductive Effect (s : SubscribeSystem) : SubscribeAction → SubscribeSystem → Prop
  | quiet {a : SubscribeAction} {t : SubscribeSystem} (takes : s.TakesNothing a)
      (publishTracks : t.publishTracks = s.publishTracks) (loops : t.loops = s.loops)
      (rids : t.trackBindingPublishRid = s.trackBindingPublishRid)
      (change : t.publishTracksChange = s.publishTracksChange) : Effect s a t
  | announced {a : SubscribeAction} {t : SubscribeSystem} (takes : s.TakesNothing a)
      (loops : t.loops = s.loops) (rids : t.trackBindingPublishRid = s.trackBindingPublishRid)
      (change : t.publishTracksChange = s.publishTracksChange.sendIgnore ()) : Effect s a t
  | lagged {k : RTPCodecType} {l : ForwardLoop} {replaced : Bool} {n : ℕ} {t : SubscribeSystem}
      (runs : s.Runs k l) (recv : (s.publishTracksChange.recv k.receiver).1 = .lagged n)
      (publishTracks : t.publishTracks = s.publishTracks) (loops : t.loops = s.loops)
      (rids : t.trackBindingPublishRid = s.trackBindingPublishRid)
      (change : t.publishTracksChange = (s.publishTracksChange.recv k.receiver).2) :
      Effect s (.trackChange k replaced) t
  | trackChanged {k : RTPCodecType} {l l' : ForwardLoop} {replaced : Bool} {rid : Option String}
      {t : SubscribeSystem} (runs : s.Runs k l)
      (recv : (s.publishTracksChange.recv k.receiver).1 = .message ())
      (changed : TrackChanged s.publishTracks k l (s.boundRid k) replaced l' rid)
      (moved : s.Moved k l' rid t)
      (change : t.publishTracksChange = (s.publishTracksChange.recv k.receiver).2) :
      Effect s (.trackChange k replaced) t
  | moved {a : SubscribeAction} {k : RTPCodecType} {l l' : ForwardLoop} {t : SubscribeSystem}
      (takes : s.TakesNothing a) (runs : s.Runs k l) (moved : s.Moved k l' (s.boundRid k) t)
      (loop : l'.ended ≠ none ∨ l'.recv = l.recv ∧ l'.track = l.track)
      (channels : s.Channels k l' t) : Effect s a t
  | selected {k : RTPCodecType} {l l' : ForwardLoop} {replaced : Bool} {select : String}
      {rid : Option String} {t : SubscribeSystem} (runs : s.Runs k l)
      (recv : (s.selectLayer.recv k.receiver).1 = .message (k, select))
      (selected : Selected s.publishTracks k l (s.boundRid k) replaced
        s.publishRtcp.HasReceiver select (rest (s.boundRid k) select) l' rid)
      (moved : s.Moved k l' rid t) (channels : s.Channels k l' t) :
      Effect s (.selectLayer k replaced) t

/-- What a step does, and what it leaves alone of the channels. -/
structure StepSpec (s : SubscribeSystem) (a : SubscribeAction) (t : SubscribeSystem) : Prop where
  effect : s.Effect a t
  capacity : t.publishTracksChange.capacity = s.publishTracksChange.capacity
  requests : ∀ m ∈ t.selectLayer.log, m ∈ s.selectLayer.log ∨ m.1 = .video

lemma takesNothing_of_ne (h : ∀ k replaced, a ≠ .trackChange k replaced)
    (h' : ∀ k replaced, a ≠ .selectLayer k replaced) : s.TakesNothing a :=
  ⟨h, fun k replaced _ ha => absurd ha (h' k replaced)⟩

/-- A loop that ends takes its receivers with it. -/
lemma spec_endLoop {cause : ForwardEnd} (takes : s.TakesNothing a) (runs : s.Runs k l) :
    s.StepSpec a (s.endLoop k l cause) where
  effect := .moved takes runs moved_endLoop (.inl (by simp)) channels_endLoop
  capacity := rfl
  requests _ hm := .inl hm

/-- A step that changes neither loops nor tracks nor rids, and takes nothing. -/
lemma spec_quiet (takes : s.TakesNothing a) (publishTracks : t.publishTracks = s.publishTracks)
    (loops : t.loops = s.loops) (rids : t.trackBindingPublishRid = s.trackBindingPublishRid)
    (change : t.publishTracksChange = s.publishTracksChange)
    (requests : t.selectLayer.log = s.selectLayer.log) : s.StepSpec a t where
  effect := .quiet takes publishTracks loops rids change
  capacity := by rw [change]
  requests _ hm := .inl (requests ▸ hm)

lemma spec_trackChange {replaced : Bool} (hst : s.step (.trackChange k replaced) = some t) :
    s.StepSpec (.trackChange k replaced) t := by
  obtain ⟨l, hl, hend, hst⟩ := onLoop_eq_some_iff.mp hst
  have hcap := s.publishTracksChange.recv_capacity k.receiver
  split at hst
  · cases hst
  · rename_i n channel hrecv
    rw [hrecv] at hcap
    cases hst
    exact ⟨.lagged ⟨hl, hend⟩ (by rw [hrecv]) rfl rfl rfl (by rw [hrecv]), hcap,
      fun _ hm => .inl hm⟩
  · rename_i channel hrecv
    rw [hrecv] at hcap
    cases hst
    obtain ⟨l', rid, hchanged, hmoved⟩ := trackChange_spec replaced
      (s := { s with publishTracksChange := channel }) hl
    have hother := trackChange_channels (s := { s with publishTracksChange := channel })
      (k := k) (l := l) replaced
    refine ⟨.trackChanged ⟨hl, hend⟩ (by rw [hrecv]) hchanged
      ⟨hmoved.publishTracks, hmoved.loop, hmoved.loops, hmoved.rid, hmoved.rids⟩ ?_, ?_, ?_⟩
    · rw [hrecv]
      exact hother.1
    · rw [hother.1]
      exact hcap
    · rw [hother.2]
      exact fun _ hm => .inl hm

lemma spec_selectLayer {replaced : Bool} (hst : s.step (.selectLayer k replaced) = some t) :
    s.StepSpec (.selectLayer k replaced) t := by
  obtain ⟨l, hl, hend, hst⟩ := onLoop_eq_some_iff.mp hst
  have hlog := s.selectLayer.recv_log k.receiver
  have htakes : (∀ m, (s.selectLayer.recv k.receiver).1 = .message m → m.1 ≠ k) →
      s.TakesNothing (.selectLayer k replaced) := by
    refine fun h => ⟨fun _ _ => by simp, fun j b select ha hrecv => ?_⟩
    cases ha
    exact h _ hrecv rfl
  split at hst
  · rename_i channel hrecv
    split_ifs at hst
    cases hst
    exact spec_endLoop (htakes (by simp [hrecv])) ⟨hl, hend⟩
  · rename_i n channel hrecv
    cases hst
    exact spec_endLoop (htakes (by simp [hrecv])) ⟨hl, hend⟩
  · rename_i kind select channel hrecv
    rw [hrecv] at hlog
    cases hst
    split_ifs with hkind
    · exact spec_quiet (htakes (by simp [hrecv, hkind])) rfl rfl rfl rfl hlog
    · simp only [ne_eq, not_not] at hkind
      subst hkind
      obtain ⟨l', rid, hselected, hmoved, hchannels⟩ := select_spec select replaced
        (s := { s with selectLayer := channel }) hl
      refine ⟨.selected ⟨hl, hend⟩ (by rw [hrecv]) hselected
        ⟨hmoved.publishTracks, hmoved.loop, hmoved.loops, hmoved.rid, hmoved.rids⟩
        ⟨hchannels.change, hchannels.requests.trans hlog⟩, ?_, ?_⟩
      · rcases hchannels.change with h | ⟨-, h⟩
        · rw [h]
        · rw [h]
          rfl
      · rw [hchannels.requests, hlog]
        exact fun _ hm => .inl hm

/-- **What a step does**, by cases on the action. -/
lemma spec_of_step (hst : s.step a = some t) : s.StepSpec a t := by
  cases a with
  | trackChange k replaced => exact spec_trackChange hst
  | selectLayer k replaced => exact spec_selectLayer hst
  | selectKindRid rid =>
      simp only [step, selectKindRidStep, Option.ite_none_left_eq_some, Option.some.injEq] at hst
      obtain ⟨-, rfl⟩ := hst
      refine ⟨.quiet (takesNothing_of_ne (by simp) (by simp)) rfl rfl rfl rfl, rfl, ?_⟩
      intro m hm
      rcases s.selectLayer.log_sendIgnore (.video, rid) with hlog | hlog
      · exact .inl (hlog ▸ hm)
      · rcases List.mem_append.mp (hlog ▸ hm) with hm | hm
        · exact .inl hm
        · exact .inr (by rw [List.mem_singleton.mp hm])
  | drain =>
      simp only [step, drainStep, Option.ite_none_right_eq_some] at hst
      obtain ⟨-, hst⟩ := hst
      have htakes : s.TakesNothing .drain := takesNothing_of_ne (by simp) (by simp)
      have hlog := s.selectLayer.recv_log 0
      split at hst
      · rename_i m channel hrecv
        rw [hrecv] at hlog
        cases hst
        exact spec_quiet htakes rfl rfl rfl rfl hlog
      · cases hst
        exact spec_quiet htakes rfl rfl rfl rfl rfl
      · split_ifs at hst
        cases hst
        exact spec_quiet htakes rfl rfl rfl rfl rfl
  | publishTrackUp track =>
      cases hst
      exact ⟨.announced (takesNothing_of_ne (by simp) (by simp)) rfl rfl rfl,
        Broadcast.sendIgnore_capacity .., fun _ hm => .inl hm⟩
  | publishTracksClear =>
      cases hst
      exact ⟨.announced (takesNothing_of_ne (by simp) (by simp)) rfl rfl rfl,
        Broadcast.sendIgnore_capacity .., fun _ hm => .inl hm⟩
  | rtp k received written =>
      obtain ⟨l, hl, hend, hst⟩ := onLoop_eq_some_iff.mp hst
      have htakes : s.TakesNothing (.rtp k received written) :=
        takesNothing_of_ne (by simp) (by simp)
      split_ifs at hst
      · cases hst
        exact ⟨.moved htakes ⟨hl, hend⟩ moved_setLoop (.inr ⟨rfl, rfl⟩) ⟨.inl rfl, rfl⟩, rfl,
          fun _ hm => .inl hm⟩
      · cases hst
        exact spec_endLoop htakes ⟨hl, hend⟩
      · cases hst
        exact spec_quiet htakes rfl rfl rfl rfl rfl
  | rtcp k packet =>
      simp only [step, rtcpStep, Option.ite_none_right_eq_some] at hst
      obtain ⟨-, hst⟩ := hst
      have htakes : s.TakesNothing (.rtcp k packet) := takesNothing_of_ne (by simp) (by simp)
      split at hst
      · cases hst
        exact spec_quiet htakes rfl rfl rfl rfl rfl
      · split at hst
        · cases hst
          exact spec_quiet htakes rfl rfl rfl rfl rfl
        · cases hst
          exact spec_quiet htakes rfl rfl rfl rfl rfl
  | rtcpErr k =>
      simp only [step, rtcpErrStep, Option.ite_none_right_eq_some, Option.some.injEq] at hst
      obtain ⟨-, rfl⟩ := hst
      exact spec_quiet (takesNothing_of_ne (by simp) (by simp)) rfl rfl rfl rfl rfl
  | dropSender =>
      cases hst
      exact spec_quiet (takesNothing_of_ne (by simp) (by simp)) rfl rfl rfl rfl rfl
  | dropForward =>
      cases hst
      exact spec_quiet (takesNothing_of_ne (by simp) (by simp)) rfl rfl rfl rfl rfl

/-! ### The receivers of the loops -/

/-- What the channels and the loops keep: a loop that runs listens to the changes of the
tracks and has the track that it was given, and requests are for video. -/
structure Wired (s : SubscribeSystem) : Prop where
  live : ∀ k l, s.Runs k l → s.publishTracksChange.Live k.receiver
  capacity : 0 < s.publishTracksChange.capacity
  requests : ∀ m ∈ s.selectLayer.log, m.1 = .video
  track : ∀ k l, s.Runs k l → l.track = l.recv

/-- The notifications of the loops that still run stay as they are. -/
lemma Channels.pending (h : s.Channels k l' t) (hl' : t.loops k = some l')
    (hj : t.Runs j l) :
    t.publishTracksChange.unread j.receiver = s.publishTracksChange.unread j.receiver ∧
      (t.publishTracksChange.Live j.receiver ↔ s.publishTracksChange.Live j.receiver) := by
  rcases h.change with h | ⟨hend, h⟩
  · simp [h]
  · have hne : j.receiver ≠ k.receiver := fun hjk => by
      rw [RTPCodecType.receiver_injective hjk, Runs, hl', Option.some.injEq] at hj
      exact hend (hj.1 ▸ hj.2)
    rw [h, Broadcast.unread_unsubscribe_of_ne _ _ _ hne]
    simp [hne]

/-- A loop that runs after a step of the loop `k` is that loop, or ran before. -/
lemma Moved.runs {rid : Option String} (h : s.Moved k l' rid t) (hj : t.Runs j l) :
    j = k ∧ l = l' ∧ l'.ended = none ∨ j ≠ k ∧ s.Runs j l := by
  by_cases hjk : j = k
  · subst hjk
    have hl : l = l' := by simpa [h.loop, eq_comm] using hj.1
    exact .inl ⟨rfl, hl, hl ▸ hj.2⟩
  · exact .inr ⟨hjk, by rw [Runs, ← h.loops j hjk]; exact hj⟩

lemma TrackChanged.track_eq {tracks : List PublishTrackRemote} {current rid : Option String}
    {replaced : Bool} (h : TrackChanged tracks k l current replaced l' rid)
    (hl : l.track = l.recv) : l'.track = l'.recv := by
  cases h with
  | offline empty => rfl
  | kept online cause => exact hl
  | bound free mem kind => rfl

lemma Selected.track_eq {tracks : List PublishTrackRemote} {current rest rid : Option String}
    {replaced : Bool} {heard : Prop} {select : String}
    (h : Selected tracks k l current replaced heard select rest l' rid)
    (hl : l.track = l.recv) (hend : l'.ended = none) : l'.track = l'.recv := by
  cases h with
  | same bound => exact hl
  | nothing changed means preRid first => exact hl
  | disabled changed means bound => rfl
  | unbound changed means bound => exact hl
  | missed changed means ne cause => exact hl
  | found changed means ne hit ok hears => rfl
  | panicked changed means ne hit ok deaf ended => exact absurd hend ended

lemma wired_step (hs : s.Wired) (hst : s.step a = some t) : t.Wired := by
  obtain ⟨heffect, hcapacity, hrequests⟩ := spec_of_step hst
  have hloops : (∀ k l, t.Runs k l → t.publishTracksChange.Live k.receiver) ∧
      ∀ k l, t.Runs k l → l.track = l.recv := by
    cases heffect with
    | quiet takes publishTracks loops rids change =>
        rw [change]
        simp only [Runs, loops]
        exact ⟨hs.live, hs.track⟩
    | announced takes loops rids change =>
        rw [change]
        simp only [Runs, loops, Broadcast.live_sendIgnore]
        exact ⟨hs.live, hs.track⟩
    | lagged runs recv publishTracks loops rids change =>
        rw [change]
        simp only [Runs, loops, Broadcast.live_recv]
        exact ⟨hs.live, hs.track⟩
    | trackChanged runs recv changed moved change =>
        rw [change]
        simp only [Broadcast.live_recv]
        constructor
        · intro j lj hj
          rcases moved.runs hj with ⟨rfl, -, -⟩ | ⟨-, hj⟩
          · exact hs.live _ _ runs
          · exact hs.live _ _ hj
        · intro j lj hj
          rcases moved.runs hj with ⟨rfl, rfl, -⟩ | ⟨-, hj⟩
          · exact changed.track_eq (hs.track _ _ runs)
          · exact hs.track _ _ hj
    | moved takes runs moved loop channels =>
        constructor
        · intro j lj hj
          refine (channels.pending moved.loop hj).2.mpr ?_
          rcases moved.runs hj with ⟨rfl, -, -⟩ | ⟨-, hj⟩
          · exact hs.live _ _ runs
          · exact hs.live _ _ hj
        · intro j lj hj
          rcases moved.runs hj with ⟨rfl, rfl, hend⟩ | ⟨-, hj⟩
          · obtain ⟨hrecv, htrack⟩ := loop.resolve_left fun h => h hend
            rw [hrecv, htrack]
            exact hs.track _ _ runs
          · exact hs.track _ _ hj
    | selected runs recv selected moved channels =>
        constructor
        · intro j lj hj
          refine (channels.pending moved.loop hj).2.mpr ?_
          rcases moved.runs hj with ⟨rfl, -, -⟩ | ⟨-, hj⟩
          · exact hs.live _ _ runs
          · exact hs.live _ _ hj
        · intro j lj hj
          rcases moved.runs hj with ⟨rfl, rfl, hend⟩ | ⟨-, hj⟩
          · exact selected.track_eq (hs.track _ _ runs) hend
          · exact hs.track _ _ hj
  refine ⟨hloops.1, hcapacity ▸ hs.capacity, fun m hm => ?_, hloops.2⟩
  exact (hrequests m hm).elim (hs.requests m) id

lemma wired_channels (publishTracks : List PublishTrackRemote) :
    (channels publishTracks).Wired where
  live k l hl := by simp [Runs, channels] at hl
  capacity := by simp [channels, Broadcast.subscribe, Broadcast.new, Broadcast.retained]
  requests m hm := by simp [channels, Broadcast.subscribe, Broadcast.new] at hm
  track k l hl := by simp [Runs, channels] at hl

lemma wired_spawnLoop (hs : s.Wired) : (s.spawnLoop k).Wired where
  live j l hj := by
    by_cases hjk : j = k
    · simp [spawnLoop, setLoop, hjk]
    · have hj' : s.Runs j l := by simpa [Runs, spawnLoop, setLoop, hjk] using hj
      simpa [spawnLoop, setLoop] using Or.inr (hs.live j l hj')
  capacity := hs.capacity
  requests := hs.requests
  track j l hj := by
    by_cases hjk : j = k
    · have hl : l = ⟨none, none, none, 0, none⟩ := by
        simpa [Runs, spawnLoop, setLoop, hjk, eq_comm] using hj.1
      rw [hl]
    · exact hs.track j l (by simpa [Runs, spawnLoop, setLoop, hjk] using hj)

lemma wired_init (h0 : subscribeMachine.init s) : s.Wired := by
  obtain ⟨publishTracks, kinds, -, rfl⟩ := h0
  have hfold : ∀ (ks : List RTPCodecType) (r : SubscribeSystem), r.Wired →
      (ks.foldl spawnLoop r).Wired := by
    intro ks
    induction ks with
    | nil => exact fun r hr => hr
    | cons k ks ih => exact fun r hr => ih _ (wired_spawnLoop hr)
  have hs := hfold kinds _ (wired_channels publishTracks)
  exact ⟨fun k l hl => (Broadcast.live_sendIgnore ..).mpr (hs.live k l hl),
    (Broadcast.sendIgnore_capacity ..).symm ▸ hs.capacity, hs.requests, hs.track⟩

/-! ### Rebinding -/

/-- The loop of a kind follows the tracks: if it is bound, it receives from a track that is
published, and if its kind is not disabled and some track of the kind is published, it is
bound. -/
def Follows (s : SubscribeSystem) (k : RTPCodecType) (l : ForwardLoop) : Prop :=
  (l.track.isSome → ∃ t ∈ s.publishTracks, l.recv = some t) ∧
    (s.boundRid k ≠ some ridDisable → (∃ t ∈ s.publishTracks, t.kind = k) → l.track.isSome)

/-- Every loop that has taken all notifications follows the tracks. -/
def Rebound (s : SubscribeSystem) : Prop :=
  ∀ k l, s.Runs k l → s.publishTracksChange.unread k.receiver = 0 → s.Follows k l

/-- The sender takes the tracks that it is given. -/
def Replaces : SubscribeAction → Prop
  | .trackChange _ replaced | .selectLayer _ replaced => replaced = true
  | .selectKindRid _ | .drain | .publishTrackUp _ | .publishTracksClear | .rtp .. | .rtcp ..
  | .rtcpErr _ | .dropSender | .dropForward => True

/-- A loop that takes its last notification while it is bound to a track that is no longer
published finds no track published; and a loop without notifications, and without a track,
that enables its kind has no rid from before, or that of a published track, or there is no
track of the kind. -/
def KeepsBound (s : SubscribeSystem) : SubscribeAction → Prop
  | .trackChange k _ => ∀ l t, s.Runs k l → s.publishTracksChange.unread k.receiver = 1 →
      l.recv = some t → s.publishTracks = [] ∨ t ∈ s.publishTracks
  | .selectLayer k _ => ∀ l select rid, s.Runs k l →
      (s.selectLayer.recv k.receiver).1 = .message (k, select) →
      s.publishTracksChange.unread k.receiver = 0 → Enables (s.boundRid k) select →
      l.track = none → l.preRid = some rid → rid = ridDisable ∨
        (trackFor s.publishTracks rid).isSome ∨ firstOf s.publishTracks k = none
  | .selectKindRid _ | .drain | .publishTrackUp _ | .publishTracksClear | .rtp .. | .rtcp ..
  | .rtcpErr _ | .dropSender | .dropForward => True

instance (s : SubscribeSystem) (a : SubscribeAction) : Decidable (s.KeepsBound a) :=
  match a with
  | .trackChange k _ => decidable_of_iff (∀ l ∈ s.loops k, ∀ t ∈ l.recv, l.ended = none →
      s.publishTracksChange.unread k.receiver = 1 →
      s.publishTracks = [] ∨ t ∈ s.publishTracks)
      ⟨fun h l t hl hone ht => h l hl.1 t ht hl.2 hone,
        fun h l hl t ht hend hone => h l t ⟨hl, hend⟩ hone ht⟩
  | .selectLayer k _ => decidable_of_iff (∀ l ∈ s.loops k, ∀ rid ∈ l.preRid, l.ended = none →
      (s.selectLayer.recv k.receiver).1 = .message (k, ridEnable) →
      s.publishTracksChange.unread k.receiver = 0 → s.boundRid k = some ridDisable →
      l.track = none → rid = ridDisable ∨ (trackFor s.publishTracks rid).isSome ∨
        firstOf s.publishTracks k = none)
      ⟨fun h l _ rid hl hrecv hzero henable hfree hpre =>
          h l hl.1 rid hpre hl.2 (henable.2 ▸ hrecv) hzero henable.1 hfree,
        fun h l hl rid hpre hend hrecv hzero hdis hfree =>
          h l ridEnable rid ⟨hl, hend⟩ hrecv hzero ⟨hdis, rfl⟩ hfree hpre⟩
  | .selectKindRid _ | .drain | .publishTrackUp _ | .publishTracksClear | .rtp .. | .rtcp ..
  | .rtcpErr _ | .dropSender | .dropForward => isTrue trivial

instance (a : SubscribeAction) : Decidable (Replaces a) :=
  match a with
  | .trackChange _ replaced | .selectLayer _ replaced =>
      inferInstanceAs (Decidable (replaced = true))
  | .selectKindRid _ | .drain | .publishTrackUp _ | .publishTracksClear | .rtp .. | .rtcp ..
  | .rtcpErr _ | .dropSender | .dropForward => isTrue trivial

lemma keepsBound_of_takesNothing (h : s.TakesNothing a) : s.KeepsBound a := by
  cases a with
  | trackChange k replaced => exact absurd rfl (h.1 k replaced)
  | selectLayer k replaced =>
      exact fun l select rid _ hrecv => absurd hrecv (h.2 k replaced select rfl)
  | _ => trivial

lemma firstOf_eq_none_iff {tracks : List PublishTrackRemote} :
    firstOf tracks k = none ↔ ∀ t ∈ tracks, t.kind ≠ k := by
  simp [firstOf]

lemma mem_of_trackFor {tracks : List PublishTrackRemote} {rid : String}
    {track : PublishTrackRemote} (h : trackFor tracks rid = some track) : track ∈ tracks :=
  List.mem_of_find?_eq_some h

/-- The first track of the kind video is a track for its rid. -/
lemma trackFor_isSome_of_firstOf {tracks : List PublishTrackRemote}
    {track : PublishTrackRemote} (h : firstOf tracks .video = some track) :
    (trackFor tracks track.rid).isSome := by
  have hkind : track.kind = .video := by simpa using List.find?_some h
  rw [trackFor, List.find?_isSome]
  exact ⟨track, List.mem_of_find?_eq_some h, by simp [hkind]⟩

/-- A step that leaves the loops, the tracks and the notifications of a kind as they are. -/
lemma Follows.congr (hl : s.Follows k l) (publishTracks : t.publishTracks = s.publishTracks)
    (rid : t.boundRid k = s.boundRid k) : t.Follows k l := by
  rw [Follows, publishTracks, rid]
  exact hl

/-- The branch on a change of the tracks leaves a loop that follows them, exactly if it is
not bound to a track that went, while others came. -/
lemma follows_trackChanged_iff {rid : Option String} (htrack : l.track = l.recv)
    (h : TrackChanged s.publishTracks k l (s.boundRid k) true l' rid)
    (hmoved : s.Moved k l' rid t) :
    t.Follows k l' ↔ ∀ track, l.recv = some track →
      s.publishTracks = [] ∨ track ∈ s.publishTracks := by
  rw [Follows, hmoved.publishTracks, hmoved.rid]
  cases h with
  | offline empty => simp [empty]
  | kept online cause =>
      have hsecond : s.boundRid k ≠ some ridDisable →
          (∃ t ∈ s.publishTracks, t.kind = k) → l.track.isSome := by
        rintro hdis ⟨track, hmem, hkind⟩
        rcases cause with h | h | h | h
        · exact h
        · exact absurd h hdis
        · exact absurd hkind (h track hmem)
        · cases h
      rw [and_iff_left hsecond, htrack]
      simp only [online, false_or]
      constructor
      · intro h track hrecv
        obtain ⟨track', hmem, hrecv'⟩ := h (by rw [hrecv]; rfl)
        rw [hrecv, Option.some.injEq] at hrecv'
        exact hrecv' ▸ hmem
      · intro h hsome
        obtain ⟨track, hrecv⟩ := Option.isSome_iff_exists.mp hsome
        exact ⟨track, h track hrecv, hrecv⟩
  | @bound publishTrack free mem kind =>
      refine iff_of_true ⟨fun _ => ⟨publishTrack, mem, rfl⟩, fun _ _ => rfl⟩ ?_
      intro track hrecv
      rw [← htrack, free] at hrecv
      cases hrecv

/-- The branch on a request leaves a loop that follows the tracks, exactly if it does not
enable the kind for a rid that is no longer published. -/
lemma follows_selected_iff {heard : Prop} {select : String} {rid : Option String}
    (hl : s.Follows .video l)
    (h : Selected s.publishTracks .video l (s.boundRid .video) true heard select
      (rest (s.boundRid .video) select) l' rid) (hend : l'.ended = none)
    (hmoved : s.Moved .video l' rid t) :
    t.Follows .video l' ↔ ∀ rid, Enables (s.boundRid .video) select → l.track = none →
      l.preRid = some rid → rid = ridDisable ∨ (trackFor s.publishTracks rid).isSome ∨
        firstOf s.publishTracks .video = none := by
  rw [Follows, hmoved.publishTracks, hmoved.rid]
  cases h with
  | same bound =>
      refine iff_of_true hl fun rid henable => ?_
      have hword : ridDisable = ridEnable := by
        rw [← henable.2, ← Option.some.injEq, ← henable.1, bound]
      exact absurd hword (by decide)
  | nothing changed means preRid first =>
      refine iff_of_true ⟨hl.1, ?_⟩ fun rid _ _ hpre => ?_
      · rintro - ⟨track, hmem, hkind⟩
        exact absurd hkind (firstOf_eq_none_iff.mp first track hmem)
      · rw [preRid] at hpre
        cases hpre
  | disabled changed means bound =>
      refine iff_of_true ⟨by simp, by simp⟩ fun rid henable _ hpre => .inl ?_
      rcases means with ⟨-, h | ⟨h, -⟩⟩ | ⟨h, -⟩
      · exact Option.some.inj (hpre.symm.trans h)
      · rw [h] at hpre
        cases hpre
      · exact absurd henable h
  | unbound changed means bound =>
      refine iff_of_true ⟨hl.1, by simp⟩ fun rid henable => ?_
      rw [henable.1] at bound
      cases bound
  | @missed new changed means ne cause =>
      have hnone := cause.resolve_right (by simp)
      rcases means with ⟨henable, hpre | ⟨-, track, hfirst, hrid⟩⟩ | ⟨henable, -⟩
      · -- the rid from before is not published: the kind is enabled, and has a track or not
        have hrest : rest (s.boundRid .video) select = none := if_pos henable
        rw [hrest]
        constructor
        · intro h rid _ hfree _
          rw [hfree] at h
          refine .inr (.inr (firstOf_eq_none_iff.mpr fun track hmem hkind => ?_))
          exact absurd (h.2 (by simp) ⟨track, hmem, hkind⟩) (by simp)
        · intro h
          refine ⟨hl.1, fun _ htracks => ?_⟩
          by_contra hfree
          rcases h new henable (Option.not_isSome_iff_eq_none.mp hfree) hpre with h | h | h
          · exact ne h
          · rw [hnone] at h
            cases h
          · obtain ⟨track, hmem, hkind⟩ := htracks
            exact firstOf_eq_none_iff.mp h track hmem hkind
      · have hsome := trackFor_isSome_of_firstOf hfirst
        rw [hrid, hnone] at hsome
        cases hsome
      · have hrest : rest (s.boundRid .video) select = s.boundRid .video := if_neg henable
        rw [hrest]
        exact iff_of_true hl fun rid h => absurd h henable
  | @found new publishTrack changed means ne hit ok hears =>
      refine iff_of_true ⟨fun _ => ⟨publishTrack, mem_of_trackFor hit, rfl⟩, fun _ _ => rfl⟩ ?_
      intro rid henable _ hpre
      rcases means with ⟨-, h | ⟨h, -⟩⟩ | ⟨h, -⟩
      · obtain rfl := Option.some.inj (hpre.symm.trans h)
        exact .inr (.inl (by rw [hit]; rfl))
      · rw [h] at hpre
        cases hpre
      · exact absurd henable h
  | panicked changed means ne hit ok deaf ended => exact absurd hend ended

/-- A loop that did not take part in a step follows the tracks as before. -/
lemma follows_of_moved (hr : s.Rebound) {rid : Option String} (hmoved : s.Moved k l' rid t)
    (hj : s.Runs j l) (hjk : j ≠ k) (hunread : s.publishTracksChange.unread j.receiver = 0) :
    t.Follows j l :=
  (hr j l hj hunread).congr hmoved.publishTracks (hmoved.rids j hjk)

lemma rebound_trackChanged_iff (hs : s.Wired) (hr : s.Rebound) (hl : s.Runs k l)
    (hrecv : (s.publishTracksChange.recv k.receiver).1 = .message ()) {rid : Option String}
    (h : TrackChanged s.publishTracks k l (s.boundRid k) true l' rid)
    (hmoved : s.Moved k l' rid t)
    (hchange : t.publishTracksChange = (s.publishTracksChange.recv k.receiver).2) :
    t.Rebound ↔ s.KeepsBound (.trackChange k true) := by
  have hunread := s.publishTracksChange.unread_of_recv hrecv
  rw [← hchange] at hunread
  have hiff := follows_trackChanged_iff (hs.track k l hl) h hmoved
  have hend : l'.ended = none := by
    cases h with
    | offline empty => exact hl.2
    | kept online cause => exact hl.2
    | bound free mem kind => exact hl.2
  constructor
  · intro ht l₁ track hl₁ hone hrecv₁
    obtain rfl : l₁ = l := Option.some.inj (hl₁.1.symm.trans hl.1)
    exact hiff.mp (ht k l' ⟨hmoved.loop, hend⟩ (by omega)) track hrecv₁
  · intro hok j lj hj hzero
    rcases hmoved.runs hj with ⟨rfl, rfl, -⟩ | ⟨hjk, hj'⟩
    · exact hiff.mpr fun track hrecv₁ => hok l track hl (by omega) hrecv₁
    · have hne : j.receiver ≠ k.receiver := fun h => hjk (RTPCodecType.receiver_injective h)
      rw [hchange, Broadcast.unread_recv_of_ne _ _ _ hne] at hzero
      exact follows_of_moved hr hmoved hj' hjk hzero

lemma rebound_selected_iff (hr : s.Rebound) (hl : s.Runs .video l) {select : String}
    (hrecv : (s.selectLayer.recv RTPCodecType.video.receiver).1 = .message (.video, select))
    {heard : Prop} {rid : Option String}
    (h : Selected s.publishTracks .video l (s.boundRid .video) true heard select
      (rest (s.boundRid .video) select) l' rid) (hmoved : s.Moved .video l' rid t)
    (hchannels : s.Channels .video l' t) :
    t.Rebound ↔ s.KeepsBound (.selectLayer .video true) := by
  constructor
  · intro ht l₁ select₁ rid₁ hl₁ hrecv₁ hzero henable hfree hpre
    obtain rfl : l₁ = l := Option.some.inj (hl₁.1.symm.trans hl.1)
    obtain rfl : select₁ = select := by
      rw [hrecv] at hrecv₁
      simpa [eq_comm] using hrecv₁
    by_cases hend : l'.ended = none
    · have hrun : t.Runs .video l' := ⟨hmoved.loop, hend⟩
      have hunread := (hchannels.pending hmoved.loop hrun).1
      have hiff := follows_selected_iff (hr .video l₁ hl hzero) h hend hmoved
      exact hiff.mp (ht .video l' hrun (hunread.trans hzero)) rid₁ henable hfree hpre
    · -- the loop has found a track and panicked
      cases h with
      | @panicked new publishTrack l' changed means ne hit ok deaf ended =>
          rcases means with ⟨-, h | ⟨h, -⟩⟩ | ⟨h, -⟩
          · obtain rfl := Option.some.inj (hpre.symm.trans h)
            exact .inr (.inl (by rw [hit]; rfl))
          · rw [h] at hpre
            cases hpre
          · exact absurd henable h
      | _ => exact absurd hl.2 hend
  · intro hok j lj hj hzero
    rw [(hchannels.pending hmoved.loop hj).1] at hzero
    rcases hmoved.runs hj with ⟨rfl, rfl, hend⟩ | ⟨hjk, hj'⟩
    · refine (follows_selected_iff (hr .video l hl hzero) h hend hmoved).mpr ?_
      exact fun rid₁ henable hfree hpre => hok l select rid₁ hl hrecv hzero henable hfree hpre
    · exact follows_of_moved hr hmoved hj' hjk hzero

/-- A step leaves the loops without notifications following the tracks, exactly if it meets
the condition. -/
lemma rebound_step_iff (hs : s.Wired) (hr : s.Rebound) (ha : Replaces a)
    (hst : s.step a = some t) : t.Rebound ↔ s.KeepsBound a := by
  cases (spec_of_step hst).effect with
  | quiet takes publishTracks loops rids change =>
      refine iff_of_true (fun k l hl hzero => ?_) (keepsBound_of_takesNothing takes)
      rw [Runs, loops] at hl
      rw [change] at hzero
      exact (hr k l hl hzero).congr publishTracks (by rw [boundRid, boundRid, rids])
  | announced takes loops rids change =>
      refine iff_of_true (fun k l hl hzero => ?_) (keepsBound_of_takesNothing takes)
      rw [Runs, loops] at hl
      have hpos := s.publishTracksChange.unread_sendIgnore_pos () (hs.live k l hl)
      rw [change] at hzero
      omega
  | @lagged k l replaced n t runs recv publishTracks loops rids change =>
      have hcap := hs.capacity
      have hlag := (s.publishTracksChange.recv_fst_eq_lagged_iff k.receiver).mp ⟨n, recv⟩
      refine iff_of_true (fun j lj hj hzero => ?_) (fun _ _ _ hone => by omega)
      rw [Runs, loops] at hj
      have hjk : j ≠ k := by
        rintro rfl
        rw [change, s.publishTracksChange.unread_of_lagged recv] at hzero
        omega
      have hne : j.receiver ≠ k.receiver := fun h => hjk (RTPCodecType.receiver_injective h)
      rw [change, Broadcast.unread_recv_of_ne _ _ _ hne] at hzero
      exact (hr j lj hj hzero).congr publishTracks (by rw [boundRid, boundRid, rids])
  | trackChanged runs recv changed moved change =>
      obtain rfl : _ = true := ha
      exact rebound_trackChanged_iff hs hr runs recv changed moved change
  | @moved a k l l' t takes runs moved loop channels =>
      refine iff_of_true (fun j lj hj hzero => ?_) (keepsBound_of_takesNothing takes)
      rw [(channels.pending moved.loop hj).1] at hzero
      rcases moved.runs hj with ⟨rfl, rfl, hend⟩ | ⟨hjk, hj'⟩
      · obtain ⟨hrecv, htrack⟩ := loop.resolve_left fun h => h hend
        have hl := (hr j l runs hzero).congr moved.publishTracks moved.rid
        rw [Follows, hrecv, htrack]
        exact hl
      · exact follows_of_moved hr moved hj' hjk hzero
  | @selected k l l' replaced select rid t runs recv selected moved channels =>
      obtain rfl : replaced = true := ha
      obtain rfl : k = .video := hs.requests _ (Broadcast.mem_log_of_recv _ recv)
      exact rebound_selected_iff hr runs recv selected moved channels

lemma rebound_init (h0 : subscribeMachine.init s) : s.Rebound := by
  obtain ⟨publishTracks, kinds, hkinds, rfl⟩ := h0
  intro k l hl hzero
  have hlive := (wired_init ⟨publishTracks, kinds, hkinds, rfl⟩).live k l hl
  have hpos := (kinds.foldl spawnLoop (channels publishTracks)).publishTracksChange
    |>.unread_sendIgnore_pos () (r := k.receiver) ((Broadcast.live_sendIgnore ..).mp hlive)
  exact absurd hzero (Nat.pos_iff_ne_zero.mp hpos)

/-- **When the loops are rebound**: as long as the sender takes the tracks that it is given,
in every state of a run in which a loop has taken all notifications it receives from a
published track, if it is bound, and is bound, if its kind is not disabled and has a
published track; if and only if no loop takes its last notification while its track is gone
and others are there, and no loop without a track enables its kind for a rid that went while
other tracks are there. -/
theorem rebound_iff {s : SubscribeSystem} {as : List SubscribeAction}
    (h0 : subscribeMachine.init s) (has : ∀ a ∈ as, Replaces a) :
    subscribeMachine.Always Rebound s as ↔ subscribeMachine.Guarded KeepsBound s as := by
  refine Machine.always_iff_guarded_of_forall (K := Replaces) (I := fun s : SubscribeSystem =>
    s.Wired ∧ s.Rebound) ?_ ⟨wired_init h0, rebound_init h0⟩ (rebound_init h0) has
  rintro r a t ha ⟨hr, hbound⟩ hst
  have hiff := rebound_step_iff hr hbound ha hst
  exact ⟨hiff, fun hok => ⟨wired_step hr hst, hiff.mpr hok⟩⟩

/-- A publisher that goes and one that comes, each seen by the loop in time, and a layer that
is disabled and enabled. -/
def replacedInTime : List SubscribeAction :=
  [.trackChange .video true, .publishTracksClear, .trackChange .video true,
    .publishTrackUp ⟨"high", .video, 9, 1⟩, .trackChange .video true, .selectKindRid ridDisable,
    .selectLayer .video true, .selectKindRid ridEnable, .selectLayer .video true]

/-- The loop gets to the change before the next publisher comes. -/
theorem rebound_replacedInTime : subscribeMachine.Always Rebound single replacedInTime :=
  (rebound_iff init_single (by decide)).mpr (by decide)

/-- A publisher that goes, and one that comes before the loop for video gets to the change: the
loop stays with the track that went. -/
theorem not_rebound_single :
    ¬ ∀ (s : SubscribeSystem) (as : List SubscribeAction), subscribeMachine.init s →
      (∀ a ∈ as, Replaces a) → subscribeMachine.Always Rebound s as := by
  intro h
  have hend := (h single [.trackChange .video true, .publishTracksClear,
    .publishTrackUp ⟨"high", .video, 9, 1⟩, .trackChange .video true, .trackChange .video true]
    init_single (by decide)).of_exec rfl
  obtain ⟨t, ht, hrecv⟩ := (hend .video _ ⟨rfl, rfl⟩ (by decide)).1 rfl
  rw [List.mem_singleton.mp ht] at hrecv
  exact absurd hrecv (by decide)

/-! ### The binding and the feedback -/

/-- If the loop in the state `l` forwards from a track, that is a track for video and its rid
is bound for video. -/
def Names (s : SubscribeSystem) (l : ForwardLoop) : Prop :=
  ∀ t, l.track.isSome → l.recv = some t → t.kind = .video ∧ s.boundRid .video = some t.rid

/-- The loop for video forwards from the track that is bound, so that, as long as the track is
published, every message of feedback that is read goes to its ssrc. -/
def BindingAgrees (s : SubscribeSystem) : Prop :=
  ∀ l t, s.Runs .video l → l.track.isSome → l.recv = some t →
    t.kind = .video ∧ s.boundRid .video = some t.rid ∧
      (t ∈ s.publishTracks → ∀ msg u, s.publishRtcp.HasReceiver →
        s.step (.rtcp .video (some msg)) = some u →
        (msg, t.ssrc) ∈ u.publishRtcp.log.drop s.publishRtcp.log.length)

/-- Reading feedback forwards it to the published tracks of the kind with the rid that is
bound. -/
lemma log_rtcp {msg : RtcpMessage} (hrtcp : s.publishRtcp.HasReceiver)
    (hst : s.step (.rtcp k (some msg)) = some t) :
    t.publishRtcp.log = s.publishRtcp.log ++ s.feedback k msg := by
  simp only [step, rtcpStep, Option.ite_none_right_eq_some] at hst
  obtain ⟨-, hst⟩ := hst
  obtain ⟨d, hd⟩ := Broadcast.exists_foldlM_send hrtcp (s.feedback k msg)
  rw [hd] at hst
  cases hst
  exact (Broadcast.foldlM_send_eq_some hd).1

lemma mem_feedback {msg : RtcpMessage} {track : PublishTrackRemote}
    (hrid : s.boundRid track.kind = some track.rid) (hmem : track ∈ s.publishTracks) :
    (msg, track.ssrc) ∈ s.feedback track.kind msg := by
  rw [boundRid] at hrid
  simp only [feedback, hrid]
  exact List.mem_map.mpr ⟨track, List.mem_filter.mpr ⟨hmem, by simp⟩, rfl⟩

/-- The feedback follows from the binding. -/
lemma bindingAgrees_iff_names : s.BindingAgrees ↔ ∀ l, s.Runs .video l → s.Names l := by
  constructor
  · intro h l hl t htrack hrecv
    exact ⟨(h l t hl htrack hrecv).1, (h l t hl htrack hrecv).2.1⟩
  · intro h l t hl htrack hrecv
    obtain ⟨hkind, hrid⟩ := h l hl t htrack hrecv
    refine ⟨hkind, hrid, fun hmem msg u hrtcp hst => ?_⟩
    rw [log_rtcp hrtcp hst, List.drop_left, ← hkind]
    exact mem_feedback (hkind ▸ hrid) hmem

/-- A request to enable video leaves a rid bound that is one: where the word of the request
itself would be bound, the first track for video has that rid; and a loop that forwards from
a track with the rid that stands for a disabled kind goes over to another track, or to
none. -/
structure EnablesRid (tracks : List PublishTrackRemote) (l : ForwardLoop)
    (current : Option String) (replaced : Bool) (heard : Prop) : Prop where
  word : heard → replaced = true → current ≠ some ridEnable →
    (current = some ridDisable → l.preRid = some ridEnable) →
    ∀ t, firstOf tracks .video = some t → t.rid = ridEnable
  own : current = some ridDisable → l.track.isSome →
    (l.preRid = none → ∃ t, firstOf tracks .video = some t ∧
      (t.rid = ridDisable ∨ replaced = true)) ∧
    ∀ rid, l.preRid = some rid → rid = ridDisable ∨
      replaced = true ∧ (trackFor tracks rid).isSome

/-- A request to enable video that the loop for video takes leaves a rid bound. -/
def BindsRids (s : SubscribeSystem) : SubscribeAction → Prop
  | .selectLayer .video replaced => ∀ l, s.Runs .video l →
      (s.selectLayer.recv RTPCodecType.video.receiver).1 = .message (.video, ridEnable) →
      EnablesRid s.publishTracks l (s.boundRid .video) replaced s.publishRtcp.HasReceiver
  | _ => True

instance {α : Type*} (o : Option α) (p : α → Prop) [DecidablePred p] :
    Decidable (∃ x, o = some x ∧ p x) :=
  match o with
  | none => isFalse (by simp)
  | some x => decidable_of_iff (p x) (by simp)

instance (tracks : List PublishTrackRemote) (l : ForwardLoop) (current : Option String)
    (replaced : Bool) (heard : Prop) [Decidable heard] :
    Decidable (heard → replaced = true → current ≠ some ridEnable →
      (current = some ridDisable → l.preRid = some ridEnable) →
      ∀ t ∈ firstOf tracks .video, t.rid = ridEnable) :=
  inferInstance

instance (tracks : List PublishTrackRemote) (l : ForwardLoop) (current : Option String)
    (replaced : Bool) :
    Decidable (current = some ridDisable → l.track.isSome →
      (l.preRid = none → ∃ t, firstOf tracks .video = some t ∧
        (t.rid = ridDisable ∨ replaced = true)) ∧
      ∀ rid ∈ l.preRid, rid = ridDisable ∨ replaced = true ∧ (trackFor tracks rid).isSome) :=
  inferInstance

instance (tracks : List PublishTrackRemote) (l : ForwardLoop) (current : Option String)
    (replaced : Bool) (heard : Prop) [Decidable heard] :
    Decidable (EnablesRid tracks l current replaced heard) :=
  decidable_of_iff ((heard → replaced = true → current ≠ some ridEnable →
      (current = some ridDisable → l.preRid = some ridEnable) →
      ∀ t ∈ firstOf tracks .video, t.rid = ridEnable) ∧
    (current = some ridDisable → l.track.isSome →
      (l.preRid = none → ∃ t, firstOf tracks .video = some t ∧
        (t.rid = ridDisable ∨ replaced = true)) ∧
      ∀ rid ∈ l.preRid, rid = ridDisable ∨ replaced = true ∧ (trackFor tracks rid).isSome))
    ⟨fun h => ⟨h.1, h.2⟩, fun h => ⟨h.word, h.own⟩⟩

instance (s : SubscribeSystem) (a : SubscribeAction) : Decidable (s.BindsRids a) :=
  match a with
  | .selectLayer .video replaced => decidable_of_iff (∀ l ∈ s.loops .video, l.ended = none →
      (s.selectLayer.recv RTPCodecType.video.receiver).1 = .message (.video, ridEnable) →
      EnablesRid s.publishTracks l (s.boundRid .video) replaced s.publishRtcp.HasReceiver)
      ⟨fun h l hl => h l hl.1 hl.2, fun h l hl hend => h l ⟨hl, hend⟩⟩
  | .selectLayer .audio _ | .selectLayer .unspecified _ | .trackChange .. | .selectKindRid _
  | .drain | .publishTrackUp _ | .publishTracksClear | .rtp .. | .rtcp .. | .rtcpErr _
  | .dropSender | .dropForward => isTrue trivial

lemma bindsRids_of_takesNothing (h : s.TakesNothing a) : s.BindsRids a := by
  rw [BindsRids.eq_def]
  split
  · exact fun l _ hrecv => absurd hrecv (h.2 .video _ _ rfl)
  · trivial

lemma trackFor_ridEnable (tracks : List PublishTrackRemote) :
    trackFor tracks ridEnable = firstOf tracks .video := by
  simp [trackFor, firstOf]

lemma ridDisable_ne_ridEnable : ridDisable ≠ ridEnable := by decide

/-- A request to enable video stands for its own word, except on a disabled kind that had
another rid before. -/
lemma Means.eq_ridEnable {tracks : List PublishTrackRemote} {current : Option String}
    {select new : String} (h : Means tracks .video l current select new)
    (hselect : select = ridEnable)
    (hpre : current = some ridDisable → l.preRid = some ridEnable) : new = ridEnable := by
  rcases h with ⟨⟨hdis, -⟩, h | ⟨h, -⟩⟩ | ⟨-, h⟩
  · exact Option.some.inj (h.symm.trans (hpre hdis))
  · rw [hpre hdis] at h
    cases h
  · exact h.symm.trans hselect

/-- Where a request finds a track, a loop with its own word for a rid goes over to it. -/
lemma EnablesRid.of_trackFor {tracks : List PublishTrackRemote} {current : Option String}
    {heard : Prop} {select new : String} {track : PublishTrackRemote}
    (hmeans : Means tracks .video l current select new) (hselect : select = ridEnable)
    (hit : trackFor tracks new = some track)
    (hword : heard → current ≠ some ridEnable →
      (current = some ridDisable → l.preRid = some ridEnable) →
      ∀ t, firstOf tracks .video = some t → t.rid = ridEnable) :
    EnablesRid tracks l current true heard where
  word hheard _ := hword hheard
  own hdis _ := by
    rcases hmeans with ⟨-, hpre | ⟨hpre, t, hfirst, -⟩⟩ | ⟨h, -⟩
    · refine ⟨fun hnone => ?_, fun rid hrid => .inr ⟨rfl, ?_⟩⟩
      · rw [hpre] at hnone
        cases hnone
      · obtain rfl := Option.some.inj (hpre.symm.trans hrid)
        rw [hit]
        rfl
    · refine ⟨fun _ => ⟨t, hfirst, .inr rfl⟩, fun rid hrid => ?_⟩
      rw [hpre] at hrid
      cases hrid
    · exact absurd ⟨hdis, hselect⟩ h

/-- A loop names its track with no rid bound exactly if it has none. -/
lemma names_none_iff (htrack : l.track = l.recv) (hrid : t.boundRid .video = none) :
    t.Names l ↔ ¬ l.track.isSome := by
  rw [Names, hrid]
  constructor
  · intro h hsome
    obtain ⟨track, hrecv⟩ := Option.isSome_iff_exists.mp hsome
    exact absurd (h track hsome (htrack ▸ hrecv)).2 (by simp)
  · exact fun h track hsome => absurd hsome h

/-- A request that finds its track: its rid is bound, and it is that of the track exactly if
it is not the word. -/
lemma names_found_iff {new : String} {track : PublishTrackRemote}
    (hit : trackFor s.publishTracks new = some track)
    (hmoved : s.Moved .video { l with recv := some track, track := some track } (some new) t) :
    t.Names { l with recv := some track, track := some track } ↔
      (new = ridEnable → track.rid = ridEnable) := by
  have hfind : track.kind = .video ∧ (track.rid = new ∨ new = ridEnable) := by
    simpa using List.find?_some hit
  rw [Names, hmoved.rid]
  constructor
  · rintro h rfl
    exact (Option.some.inj (h track rfl rfl).2).symm
  · rintro h track' - hrecv
    obtain rfl := Option.some.inj hrecv
    refine ⟨hfind.1, congrArg some ?_⟩
    rcases hfind.2 with hrid | rfl
    · exact hrid.symm
    · exact (h rfl).symm

/-- A request that finds no track, or whose track the sender does not take. -/
lemma names_missed_iff {replaced : Bool} {heard : Prop} {select new : String}
    (hnames : s.Names l) (htrack : l.track = l.recv)
    (means : Means s.publishTracks .video l (s.boundRid .video) select new)
    (ne : new ≠ ridDisable) (cause : trackFor s.publishTracks new = none ∨ replaced = false)
    (hrid : t.boundRid .video = rest (s.boundRid .video) select) :
    t.Names l ↔ (select = ridEnable → EnablesRid s.publishTracks l (s.boundRid .video)
      replaced heard) := by
  have hword : select = ridEnable → heard → replaced = true →
      s.boundRid .video ≠ some ridEnable →
      (s.boundRid .video = some ridDisable → l.preRid = some ridEnable) →
      ∀ t, firstOf s.publishTracks .video = some t → t.rid = ridEnable := by
    intro hselect _ hreplaced _ hpre track hfirst
    have hnone := cause.resolve_right (by simp [hreplaced])
    rw [means.eq_ridEnable hselect hpre, trackFor_ridEnable, hfirst] at hnone
    cases hnone
  by_cases henable : Enables (s.boundRid .video) select
  · -- the rid is forgotten, and the loop must not forward
    rw [names_none_iff htrack (hrid.trans (if_pos henable))]
    constructor
    · exact fun hfree hselect => ⟨hword hselect, fun _ hsome => absurd hsome hfree⟩
    · intro h hsome
      obtain ⟨hfirst, hpre⟩ := (h henable.2).own henable.1 hsome
      rcases means with ⟨-, hm | ⟨hm, track, hfirst', hnew⟩⟩ | ⟨hm, -⟩
      · obtain ⟨hreplaced, hfound⟩ := (hpre new hm).resolve_left ne
        rw [cause.resolve_right (by simp [hreplaced])] at hfound
        cases hfound
      · obtain ⟨track', htrack', hcase⟩ := hfirst hm
        obtain rfl := Option.some.inj (hfirst'.symm.trans htrack')
        have hreplaced := hcase.resolve_left fun h => ne (hnew.symm.trans h)
        have hfound := trackFor_isSome_of_firstOf hfirst'
        rw [hnew, cause.resolve_right (by simp [hreplaced])] at hfound
        cases hfound
      · exact hm henable
  · have hkeep : t.Names l := by
      rw [Names, hrid.trans (if_neg henable)]
      exact hnames
    exact iff_of_true hkeep fun hselect =>
      ⟨hword hselect, fun hdis => absurd ⟨hdis, hselect⟩ henable⟩

lemma names_selected_iff {replaced : Bool} {heard : Prop} {select : String}
    {rid : Option String} (hnames : s.Names l) (htrack : l.track = l.recv)
    (h : Selected s.publishTracks .video l (s.boundRid .video) replaced heard select
      (rest (s.boundRid .video) select) l' rid) (hend : l'.ended = none)
    (hmoved : s.Moved .video l' rid t) :
    t.Names l' ↔ (select = ridEnable → EnablesRid s.publishTracks l (s.boundRid .video)
      replaced heard) := by
  have hkeep : t.boundRid .video = s.boundRid .video → t.Names l := fun h => by
    rw [Names, h]
    exact hnames
  cases h with
  | same bound =>
      refine iff_of_true (hkeep hmoved.rid) ?_
      rintro rfl
      refine ⟨fun _ _ hne => absurd bound hne, fun hdis => ?_⟩
      exact absurd (Option.some.inj (hdis.symm.trans bound)) ridDisable_ne_ridEnable
  | nothing changed means preRid first =>
      rw [names_none_iff htrack (hmoved.rid.trans (if_pos means))]
      constructor
      · refine fun hfree _ => ⟨fun _ _ _ hpre => ?_, fun _ hsome => absurd hsome hfree⟩
        rw [hpre means.1] at preRid
        cases preRid
      · intro h hsome
        obtain ⟨track, hfirst, -⟩ := ((h means.2).own means.1 hsome).1 preRid
        rw [first] at hfirst
        cases hfirst
  | disabled changed means bound =>
      refine iff_of_true (fun track hsome => absurd hsome (by simp)) ?_
      rintro rfl
      rcases means with ⟨⟨hdis, -⟩, hpre⟩ | ⟨-, hselect⟩
      · refine ⟨fun _ _ _ hpre' track hfirst => ?_,
          fun _ _ => ⟨fun hnone => ?_, fun rid' hrid' => ?_⟩⟩
        · rcases hpre with hpre | ⟨hpre, -⟩
          · rw [hpre' hdis, Option.some.injEq] at hpre
            exact absurd hpre.symm ridDisable_ne_ridEnable
          · rw [hpre' hdis] at hpre
            cases hpre
        · rcases hpre with hpre | ⟨-, track, hfirst, hrid⟩
          · rw [hpre] at hnone
            cases hnone
          · exact ⟨track, hfirst, .inl hrid⟩
        · rcases hpre with hpre | ⟨hpre, -⟩
          · exact .inl (Option.some.inj (hrid'.symm.trans hpre))
          · rw [hpre] at hrid'
            cases hrid'
      · exact absurd hselect.symm ridDisable_ne_ridEnable
  | unbound changed means bound =>
      have hfree : ¬ l.track.isSome := fun hsome => by
        obtain ⟨track, hrecv⟩ := Option.isSome_iff_exists.mp hsome
        rw [(hnames track hsome (htrack ▸ hrecv)).2] at bound
        cases bound
      refine iff_of_true (fun track hsome => absurd hsome hfree) ?_
      rintro rfl
      rcases means with ⟨⟨hdis, -⟩, -⟩ | ⟨-, hselect⟩
      · rw [hdis] at bound
        cases bound
      · exact absurd hselect.symm ridDisable_ne_ridEnable
  | missed changed means ne cause =>
      exact names_missed_iff hnames htrack means ne cause (hmoved.rid)
  | @found new track changed means ne hit ok hears =>
      subst ok
      rw [names_found_iff hit hmoved]
      constructor
      · intro hrid hselect
        refine EnablesRid.of_trackFor means hselect hit fun _ _ hpre track' hfirst => ?_
        have hnew := means.eq_ridEnable hselect hpre
        rw [hnew, trackFor_ridEnable, hfirst, Option.some.injEq] at hit
        exact hit ▸ hrid hnew
      · rintro h rfl
        rw [trackFor_ridEnable] at hit
        rcases means with ⟨⟨hdis, hselect⟩, hpre | ⟨hpre, track', hfirst, hrid⟩⟩ |
          ⟨henable, hselect⟩
        · refine (h hselect).word hears rfl (fun hcur => ?_) (fun _ => hpre) track hit
          exact ridDisable_ne_ridEnable (Option.some.inj (hdis.symm.trans hcur))
        · obtain rfl := Option.some.inj (hfirst.symm.trans hit)
          exact hrid
        · refine (h hselect).word hears rfl (hselect ▸ changed) (fun hdis => ?_) track hit
          exact absurd ⟨hdis, hselect⟩ henable
  | panicked changed means ne hit ok deaf ended => exact absurd hend ended

/-- The branch on a change of the tracks binds the rid of the track that it gives the loop. -/
lemma names_trackChanged {replaced : Bool} {rid : Option String} (hnames : s.Names l)
    (h : TrackChanged s.publishTracks .video l (s.boundRid .video) replaced l' rid)
    (hmoved : s.Moved .video l' rid t) : t.Names l' := by
  rw [Names, hmoved.rid]
  cases h with
  | offline empty => simp
  | kept online cause => exact hnames
  | bound free mem kind =>
      rintro track - hrecv
      obtain rfl := Option.some.inj hrecv
      exact ⟨kind, rfl⟩

/-- A step keeps the binding of the loop for video, exactly if it leaves a rid bound. -/
lemma names_step_iff (hs : s.Wired) (hnames : ∀ l, s.Runs .video l → s.Names l)
    (hst : s.step a = some t) : (∀ l, t.Runs .video l → t.Names l) ↔ s.BindsRids a := by
  have hcongr : t.boundRid .video = s.boundRid .video → ∀ l, s.Runs .video l → t.Names l := by
    intro hrid l hl
    rw [Names, hrid]
    exact hnames l hl
  cases (spec_of_step hst).effect with
  | quiet takes publishTracks loops rids change =>
      refine iff_of_true (fun l hl => ?_) (bindsRids_of_takesNothing takes)
      rw [Runs, loops] at hl
      exact hcongr (by rw [boundRid, boundRid, rids]) l hl
  | announced takes loops rids change =>
      refine iff_of_true (fun l hl => ?_) (bindsRids_of_takesNothing takes)
      rw [Runs, loops] at hl
      exact hcongr (by rw [boundRid, boundRid, rids]) l hl
  | lagged runs recv publishTracks loops rids change =>
      refine iff_of_true (fun l hl => ?_) trivial
      rw [Runs, loops] at hl
      exact hcongr (by rw [boundRid, boundRid, rids]) l hl
  | @trackChanged k l l' replaced rid t runs recv changed moved change =>
      refine iff_of_true (fun lj hj => ?_) trivial
      rcases moved.runs hj with ⟨hk, rfl, -⟩ | ⟨hk, hj⟩
      · subst hk
        exact names_trackChanged (hnames l runs) changed moved
      · exact hcongr (moved.rids _ hk) lj hj
  | @moved a k l l' t takes runs moved loop channels =>
      refine iff_of_true (fun lj hj => ?_) (bindsRids_of_takesNothing takes)
      rcases moved.runs hj with ⟨hk, rfl, hend⟩ | ⟨hk, hj⟩
      · subst hk
        obtain ⟨hrecv, htrack⟩ := loop.resolve_left fun h => h hend
        have hl := hcongr moved.rid l runs
        rw [Names, hrecv, htrack]
        exact hl
      · exact hcongr (moved.rids _ hk) lj hj
  | @selected k l l' replaced select rid t runs recv selected moved channels =>
      obtain rfl : k = .video := hs.requests _ (Broadcast.mem_log_of_recv _ recv)
      have hok : s.BindsRids (.selectLayer .video replaced) ↔ (select = ridEnable →
          EnablesRid s.publishTracks l (s.boundRid .video) replaced
            s.publishRtcp.HasReceiver) := by
        constructor
        · rintro h rfl
          exact h l runs recv
        · intro h l₁ hl₁ hrecv
          obtain rfl : l₁ = l := Option.some.inj (hl₁.1.symm.trans runs.1)
          rw [recv] at hrecv
          exact h (by simpa using hrecv)
      rw [hok]
      by_cases hend : l'.ended = none
      · rw [← names_selected_iff (hnames l runs) (hs.track _ l runs) selected hend moved]
        constructor
        · exact fun h => h l' ⟨moved.loop, hend⟩
        · intro h lj hj
          rcases moved.runs hj with ⟨-, rfl, -⟩ | ⟨hk, -⟩
          · exact h
          · exact absurd rfl hk
      · refine iff_of_true (fun lj hj => ?_) fun hselect => ?_
        · rcases moved.runs hj with ⟨-, rfl, hend'⟩ | ⟨hk, -⟩
          · exact absurd hend' hend
          · exact absurd rfl hk
        · -- the loop has found a track and panicked
          cases selected with
          | panicked changed means ne hit ok deaf ended =>
              subst ok
              exact EnablesRid.of_trackFor means hselect hit fun h => absurd h deaf
          | _ => exact absurd runs.2 hend

lemma bindingAgrees_init (h0 : subscribeMachine.init s) : s.BindingAgrees := by
  have hunbound : ∀ (ks : List RTPCodecType) (r : SubscribeSystem),
      (∀ k l, r.loops k = some l → l.track = none) →
      ∀ k l, (ks.foldl spawnLoop r).loops k = some l → l.track = none := by
    intro ks
    induction ks with
    | nil => exact fun r hr => hr
    | cons k ks ih =>
        refine fun r hr => ih _ fun j l hj => ?_
        by_cases hjk : j = k
        · have hl : l = ⟨none, none, none, 0, none⟩ := by
            simpa [spawnLoop, setLoop, hjk, eq_comm] using hj
          rw [hl]
        · exact hr j l (by simpa [spawnLoop, setLoop, hjk] using hj)
  obtain ⟨publishTracks, kinds, -, rfl⟩ := h0
  refine bindingAgrees_iff_names.mpr fun l hl t hsome => ?_
  rw [hunbound kinds (channels publishTracks) (by simp [channels]) .video l hl.1] at hsome
  cases hsome

/-- **When the binding and the feedback agree**: in every state of a run the loop for video
forwards from the track whose rid is bound for video, and the feedback reaches that track as
long as it is published, if and only if every request to enable video leaves a rid bound. -/
theorem bindingAgrees_iff {s : SubscribeSystem} {as : List SubscribeAction}
    (h0 : subscribeMachine.init s) :
    subscribeMachine.Always BindingAgrees s as ↔ subscribeMachine.Guarded BindsRids s as := by
  refine Machine.always_iff_guarded (I := fun s : SubscribeSystem =>
    s.Wired ∧ s.BindingAgrees) ?_ ⟨wired_init h0, bindingAgrees_init h0⟩ (bindingAgrees_init h0)
  rintro r a t ⟨hr, hagrees⟩ hst
  have hiff : t.BindingAgrees ↔ r.BindsRids a :=
    bindingAgrees_iff_names.trans (names_step_iff hr (bindingAgrees_iff_names.mp hagrees) hst)
  exact ⟨hiff, fun hok => ⟨wired_step hr hst, hiff.mpr hok⟩⟩

/-- The loop for video is disabled and enabled again, and goes over to another layer. -/
theorem bindingAgrees_replacedInTime :
    subscribeMachine.Always BindingAgrees single (replacedInTime ++ [.rtcp .video
      (some .fullIntraRequest), .selectKindRid "low", .selectLayer .video true]) :=
  (bindingAgrees_iff init_single).mpr (by decide)

/-- A request to enable video that is not disabled: the word is bound in the place of the rid
of the track. -/
theorem not_bindingAgrees_single :
    ¬ ∀ (s : SubscribeSystem) (as : List SubscribeAction), subscribeMachine.init s →
      subscribeMachine.Always BindingAgrees s as := by
  intro h
  have hend := (h single [.trackChange .video true, .selectKindRid ridEnable,
    .selectLayer .video true] init_single).of_exec rfl
  have hrid := (hend _ _ ⟨rfl, rfl⟩ rfl rfl).2.1
  exact absurd hrid (by decide)

end SubscribeSystem

end SfuServer
