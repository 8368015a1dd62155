import SfuServer.Rtc.Binding

/-!
Disabling and enabling the video of a subscription: what the requests with the two reserved words
make of the loop in `src/forward/rtc/subscribe.rs`.

That a kind is disabled is told by the rid that is bound for it, which may as well be the rid of a
track; and what enabling returns to is the rid that was bound, which may as well be the
other word.

* `LoopStep`, `loopStep_of_step`: what a step of the system makes of one loop;
* `keeps_of_loopStep`: what a step keeps of a kind, by the cases of `LoopStep`;
* `Muted.step`: a disabled loop without a track stays so, whatever is published;
* `staysSilent_iff`: a request to disable silences the loop exactly if it has no track to lose, or
  a rid other than the word is bound;
* `requests_step`: once the subscription is gone, no requests come up any more;
* `Bound.run`, `Remembers.enable`: what the loop remembers of a disabled kind, and goes back to;
* `roundTrip_iff`: disabling and enabling brings the track back exactly if its rid was bound, and
  not the word for any.
-/

open Std (ExtTreeMap)

namespace SfuServer

namespace SubscribeSystem

variable {s t u : SubscribeSystem} {a : SubscribeAction} {k j : RTPCodecType}
  {l l' : ForwardLoop}

/-! ### One loop -/

/-- The loop of the kind does not take a request for its kind. -/
def NoRequest (s : SubscribeSystem) (k : RTPCodecType) (a : SubscribeAction) : Prop :=
  ∀ replaced select, a = .selectLayer k replaced →
    (s.selectLayer.recv k.receiver).1 ≠ .message (k, select)

/-- What a step makes of the loop of a kind and of the rid that is bound for the kind. -/
inductive LoopStep (s : SubscribeSystem) (k : RTPCodecType) (l : ForwardLoop) :
    SubscribeAction → ForwardLoop → Option String → Prop
  | kept {a : SubscribeAction} (takes : s.NoRequest k a) : LoopStep s k l a l (s.boundRid k)
  | stopped {a : SubscribeAction} {l' : ForwardLoop} (takes : s.NoRequest k a)
      (ended : l'.ended ≠ none) : LoopStep s k l a l' (s.boundRid k)
  | wrote (recv : l.recv ≠ none) (track : l.track.isSome) : LoopStep s k l (.rtp k true true)
      { l with sequenceNumber := l.sequenceNumber + 1 } (s.boundRid k)
  | changed {replaced : Bool} {l' : ForwardLoop} {rid : Option String}
      (changed : TrackChanged s.publishTracks k l (s.boundRid k) replaced l' rid)
      (disabled : s.boundRid k = some ridDisable → s.publishTracks ≠ [] →
        l' = l ∧ rid = some ridDisable) : LoopStep s k l (.trackChange k replaced) l' rid
  | selected {replaced : Bool} {select : String} {l' : ForwardLoop} {rid : Option String}
      (recv : (s.selectLayer.recv k.receiver).1 = .message (k, select))
      (selected : Selected s.publishTracks k l (s.boundRid k) replaced
        s.publishRtcp.HasReceiver select (rest (s.boundRid k) select) l' rid) :
      LoopStep s k l (.selectLayer k replaced) l' rid

lemma noRequest_of_ne (h : ∀ replaced, a ≠ .selectLayer k replaced) : s.NoRequest k a :=
  fun replaced _ ha => absurd ha (h replaced)

/-- A loop that a step leaves alone. -/
lemma loopStep_kept (hl : s.Runs k l) (takes : s.NoRequest k a) (loops : t.loops k = s.loops k)
    (rid : t.boundRid k = s.boundRid k) :
    ∃ l', t.loops k = some l' ∧ s.LoopStep k l a l' (t.boundRid k) :=
  ⟨l, loops.trans hl.1, rid ▸ .kept takes⟩

/-- A change of the tracks does not reach a kind that is disabled, as long as there are any. -/
lemma trackChange_of_disabled (replaced : Bool) (hdis : s.boundRid k = some ridDisable)
    (honline : s.publishTracks ≠ []) : s.trackChange k l replaced = s := by
  have hlength : ¬ s.publishTracks.length = 0 := by simpa using honline
  have hcurrent : s.trackBindingPublishRid[k.toString]? = some ridDisable := hdis
  rw [trackChange]
  simp only [hlength, if_false, hcurrent, if_true, ite_self]

lemma loopStep_trackChange {replaced : Bool} (hl : s.Runs k l)
    (hst : s.step (.trackChange j replaced) = some t) :
    ∃ l', t.loops k = some l' ∧ s.LoopStep k l (.trackChange j replaced) l' (t.boundRid k) := by
  obtain ⟨lj, hlj, hend, hst⟩ := onLoop_eq_some_iff.mp hst
  have htakes : s.NoRequest k (.trackChange j replaced) := noRequest_of_ne (by simp)
  split at hst
  · cases hst
  · cases hst
    exact loopStep_kept hl htakes rfl rfl
  · rename_i channel hrecv
    cases hst
    obtain ⟨l', rid, hchanged, hmoved⟩ := trackChange_spec replaced
      (s := { s with publishTracksChange := channel }) hlj
    by_cases hjk : k = j
    · subst hjk
      obtain rfl := Option.some.inj (hl.1.symm.trans hlj)
      refine ⟨l', hmoved.loop, hmoved.rid ▸ .changed hchanged fun hdis honline => ?_⟩
      have hsame := trackChange_of_disabled (l := l) replaced
        (s := { s with publishTracksChange := channel }) hdis honline
      rw [hsame] at hmoved
      exact ⟨Option.some.inj (hmoved.loop.symm.trans hlj), hmoved.rid.symm.trans hdis⟩
    · exact loopStep_kept hl htakes (hmoved.loops k hjk) (hmoved.rids k hjk)

lemma loopStep_rtp {received written : Bool} (hl : s.Runs k l)
    (hst : s.step (.rtp j received written) = some t) :
    ∃ l', t.loops k = some l' ∧ s.LoopStep k l (.rtp j received written) l' (t.boundRid k) := by
  obtain ⟨lj, hlj, hend, hst⟩ := onLoop_eq_some_iff.mp hst
  have htakes : s.NoRequest k (.rtp j received written) := noRequest_of_ne (by simp)
  split_ifs at hst with hrecv hreceived hwritten
  · cases hst
    by_cases hjk : k = j
    · subst hjk
      obtain rfl := Option.some.inj (hl.1.symm.trans hlj)
      obtain ⟨rfl, htrack⟩ := Bool.and_eq_true_iff.mp hreceived
      subst hwritten
      exact ⟨_, moved_setLoop.loop, .wrote hrecv htrack⟩
    · exact loopStep_kept hl htakes (moved_setLoop.loops k hjk) rfl
  · cases hst
    by_cases hjk : k = j
    · subst hjk
      exact ⟨_, moved_endLoop.loop, .stopped htakes (by simp)⟩
    · exact loopStep_kept hl htakes (moved_endLoop.loops k hjk) rfl
  · cases hst
    exact loopStep_kept hl htakes rfl rfl

lemma loopStep_selectLayer {replaced : Bool} (hl : s.Runs k l)
    (hst : s.step (.selectLayer j replaced) = some t) :
    ∃ l', t.loops k = some l' ∧ s.LoopStep k l (.selectLayer j replaced) l' (t.boundRid k) := by
  obtain ⟨lj, hlj, hend, hst⟩ := onLoop_eq_some_iff.mp hst
  have htakes : (∀ m, (s.selectLayer.recv j.receiver).1 = .message m → m.1 = j → j ≠ k) →
      s.NoRequest k (.selectLayer j replaced) := by
    rintro h _ select ⟨⟩ hrecv
    exact h _ hrecv rfl rfl
  -- a loop that ends
  have hends : ∀ cause, s.NoRequest k (.selectLayer j replaced) →
      ∃ l', (s.endLoop j lj cause).loops k = some l' ∧
        s.LoopStep k l (.selectLayer j replaced) l' ((s.endLoop j lj cause).boundRid k) := by
    intro cause htakes
    by_cases hjk : k = j
    · subst hjk
      exact ⟨_, moved_endLoop.loop, .stopped htakes (by simp)⟩
    · exact loopStep_kept hl htakes (moved_endLoop.loops k hjk) rfl
  split at hst
  · rename_i channel hrecv
    split_ifs at hst
    cases hst
    exact hends _ (htakes (by simp [hrecv]))
  · rename_i n channel hrecv
    cases hst
    exact hends _ (htakes (by simp [hrecv]))
  · rename_i kind select channel hrecv
    cases hst
    split_ifs with hkind
    · exact loopStep_kept hl (htakes (by simp [hrecv, hkind])) rfl rfl
    · simp only [ne_eq, not_not] at hkind
      subst hkind
      obtain ⟨l', rid, hselected, hmoved, -⟩ := select_spec select replaced
        (s := { s with selectLayer := channel }) hlj
      by_cases hjk : k = kind
      · subst hjk
        obtain rfl := Option.some.inj (hl.1.symm.trans hlj)
        exact ⟨l', hmoved.loop, hmoved.rid ▸ .selected (by rw [hrecv]) hselected⟩
      · exact loopStep_kept hl (htakes (by simp [hrecv, Ne.symm hjk])) (hmoved.loops k hjk)
          (hmoved.rids k hjk)

/-- **What a step makes of a loop** that runs, by cases on the action. -/
theorem loopStep_of_step (hl : s.Runs k l) (hst : s.step a = some t) :
    ∃ l', t.loops k = some l' ∧ s.LoopStep k l a l' (t.boundRid k) := by
  cases a with
  | trackChange j replaced => exact loopStep_trackChange hl hst
  | rtp j received written => exact loopStep_rtp hl hst
  | selectLayer j replaced => exact loopStep_selectLayer hl hst
  | selectKindRid rid =>
      simp only [step, selectKindRidStep, Option.ite_none_left_eq_some, Option.some.injEq] at hst
      obtain ⟨-, rfl⟩ := hst
      exact loopStep_kept hl (noRequest_of_ne (by simp)) rfl rfl
  | drain =>
      simp only [step, drainStep, Option.ite_none_right_eq_some] at hst
      obtain ⟨-, hst⟩ := hst
      split at hst
      · cases hst
        exact loopStep_kept hl (noRequest_of_ne (by simp)) rfl rfl
      · cases hst
        exact loopStep_kept hl (noRequest_of_ne (by simp)) rfl rfl
      · split_ifs at hst
        cases hst
        exact loopStep_kept hl (noRequest_of_ne (by simp)) rfl rfl
  | rtcp j packet =>
      simp only [step, rtcpStep, Option.ite_none_right_eq_some] at hst
      obtain ⟨-, hst⟩ := hst
      split at hst
      · cases hst
        exact loopStep_kept hl (noRequest_of_ne (by simp)) rfl rfl
      · split at hst
        · cases hst
          exact loopStep_kept hl (noRequest_of_ne (by simp)) rfl rfl
        · cases hst
          exact loopStep_kept hl (noRequest_of_ne (by simp)) rfl rfl
  | rtcpErr j =>
      simp only [step, rtcpErrStep, Option.ite_none_right_eq_some, Option.some.injEq] at hst
      obtain ⟨-, rfl⟩ := hst
      exact loopStep_kept hl (noRequest_of_ne (by simp)) rfl rfl
  | publishTrackUp track =>
      cases hst
      exact loopStep_kept hl (noRequest_of_ne (by simp)) rfl rfl
  | publishTracksClear =>
      cases hst
      exact loopStep_kept hl (noRequest_of_ne (by simp)) rfl rfl
  | dropSender =>
      cases hst
      exact loopStep_kept hl (noRequest_of_ne (by simp)) rfl rfl
  | dropForward =>
      cases hst
      exact loopStep_kept hl (noRequest_of_ne (by simp)) rfl rfl

/-- A loop that does not run stays so, and nothing is bound for its kind any more. -/
lemma idle_of_step (hidle : ∀ l, ¬ s.Runs k l) (hst : s.step a = some t) :
    (∀ l, ¬ t.Runs k l) ∧ t.boundRid k = s.boundRid k := by
  -- what the loop of another kind changes
  have hother : ∀ {j lj l' rid}, s.Runs j lj → s.Moved j l' rid t →
      (∀ l, ¬ t.Runs k l) ∧ t.boundRid k = s.boundRid k := by
    intro j lj l' rid hruns hmoved
    have hkj : k ≠ j := fun h => hidle lj (h ▸ hruns)
    refine ⟨fun l hl => hidle l ?_, hmoved.rids k hkj⟩
    rw [Runs, ← hmoved.loops k hkj]
    exact hl
  cases (spec_of_step hst).effect with
  | quiet takes publishTracks loops rids change =>
      simp only [Runs, loops, boundRid, rids]
      exact ⟨hidle, trivial⟩
  | announced takes loops rids change =>
      simp only [Runs, loops, boundRid, rids]
      exact ⟨hidle, trivial⟩
  | lagged runs recv publishTracks loops rids change =>
      simp only [Runs, loops, boundRid, rids]
      exact ⟨hidle, trivial⟩
  | trackChanged runs recv changed moved change => exact hother runs moved
  | moved takes runs moved loop channels => exact hother runs moved
  | selected runs recv selected moved channels => exact hother runs moved

/-- **What a step keeps of a kind**: `P` of the rid that is bound, and `Q` of its loop, as long as
that runs, if every case of `LoopStep` keeps them. -/
theorem keeps_of_loopStep {P : Option String → Prop} {Q : ForwardLoop → Option String → Prop}
    (hrid : P (s.boundRid k)) (hst : s.step a = some t)
    (hstep : ∀ l l' rid, s.Runs k l → s.LoopStep k l a l' rid →
      P rid ∧ (l'.ended = none → Q l' rid)) :
    P (t.boundRid k) ∧ ∀ l, t.Runs k l → Q l (t.boundRid k) := by
  by_cases hrun : ∃ l, s.Runs k l
  · obtain ⟨l, hl⟩ := hrun
    obtain ⟨l', hl', hloop⟩ := loopStep_of_step hl hst
    obtain ⟨hP, hQ⟩ := hstep l l' _ hl hloop
    refine ⟨hP, fun l'' hl'' => ?_⟩
    obtain rfl := Option.some.inj (hl''.1.symm.trans hl')
    exact hQ hl''.2
  · push Not at hrun
    obtain ⟨hidle, hsame⟩ := idle_of_step hrun hst
    exact ⟨hsame ▸ hrid, fun l hl => absurd hl (hidle l)⟩

/-- A loop begins without a track. -/
lemma loop_of_init (h0 : subscribeMachine.init s) (hl : s.loops k = some l) :
    l = ⟨none, none, none, 0, none⟩ := by
  obtain ⟨publishTracks, kinds, -, rfl⟩ := h0
  have hfold : ∀ (ks : List RTPCodecType) (r : SubscribeSystem),
      (∀ l, r.loops k = some l → l = ⟨none, none, none, 0, none⟩) →
        ∀ l, (ks.foldl spawnLoop r).loops k = some l → l = ⟨none, none, none, 0, none⟩ := by
    intro ks
    induction ks with
    | nil => exact fun r hr => hr
    | cons j ks ih =>
        refine fun r hr => ih _ fun l hl => ?_
        by_cases hj : k = j
        · subst hj
          simpa [spawnLoop, setLoop, eq_comm] using hl
        · exact hr l (by simpa [spawnLoop, setLoop, hj] using hl)
  exact hfold kinds (.channels publishTracks) (by simp [channels]) l hl

/-! ### Disabled video -/

/-- The loop for video takes a request for the rid. -/
def Processes (s : SubscribeSystem) (a : SubscribeAction) (rid : String) : Prop :=
  ∃ replaced, a = .selectLayer .video replaced ∧ (∃ l, s.Runs .video l) ∧
    (s.selectLayer.recv RTPCodecType.video.receiver).1 = .message (.video, rid)

/-- The loop for video writes a packet. -/
def Writes (s : SubscribeSystem) (a : SubscribeAction) : Prop :=
  a = .rtp .video true true ∧ ∃ l, s.Runs .video l ∧ l.recv ≠ none ∧ l.track.isSome

/-- The loop for video takes a request for a rid other than the word that disables it. -/
def SelectsOther (s : SubscribeSystem) (a : SubscribeAction) : Prop :=
  ∃ rid, s.Processes a rid ∧ rid ≠ ridDisable

/-- Video is disabled and stays so, with no packet written, in every run up to the next
request for another rid. -/
def StaysSilent (t : SubscribeSystem) : Prop :=
  t.boundRid .video = some ridDisable ∧
    ∀ as, subscribeMachine.Guarded (fun u a => ¬ u.SelectsOther a) t as →
      subscribeMachine.Along
        (fun u a v => ¬ u.Writes a ∧ v.boundRid .video = some ridDisable) t as

/-- Video is disabled, and its loop has no track to write to. -/
structure Muted (s : SubscribeSystem) : Prop where
  rid : s.boundRid .video = some ridDisable
  free : ∀ l, s.Runs .video l → l.track = none

lemma Muted.not_writes (hs : s.Muted) : ¬ s.Writes a := by
  rintro ⟨-, l, hl, -, htrack⟩
  rw [hs.free l hl] at htrack
  cases htrack

/-- A step keeps video muted, unless it takes a request for another rid: a change of the tracks
does not reach a disabled kind, and the same word again changes nothing. -/
lemma Muted.step (hs : s.Muted) (hother : ¬ s.SelectsOther a) (hst : s.step a = some t) :
    t.Muted := by
  obtain ⟨hrid, hfree⟩ := keeps_of_loopStep (k := .video) (P := (· = some ridDisable))
    (Q := fun l _ => l.track = none) hs.rid hst fun l l' rid hl hstep => by
      have hfree := hs.free l hl
      cases hstep with
      | kept takes => exact ⟨hs.rid, fun _ => hfree⟩
      | stopped takes ended => exact ⟨hs.rid, fun h => absurd h ended⟩
      | wrote recv track => simp [hfree] at track
      | changed changed disabled =>
          by_cases honline : s.publishTracks = []
          · cases changed with
            | offline empty => exact ⟨if_pos hs.rid, fun _ => rfl⟩
            | kept online cause => exact absurd honline online
            | bound free mem kind => simp [honline] at mem
          · obtain ⟨rfl, rfl⟩ := disabled hs.rid honline
            exact ⟨rfl, fun _ => hfree⟩
      | @selected replaced select _ _ recv selected =>
          have hselect : s.boundRid .video = some select := by
            by_contra hne
            exact hother ⟨select, ⟨replaced, rfl, ⟨l, hl⟩, recv⟩, fun h => hne (h ▸ hs.rid)⟩
          cases selected with
          | same bound => exact ⟨hs.rid, fun _ => hfree⟩
          | nothing changed means preRid first => exact absurd hselect changed
          | disabled changed means bound => exact absurd hselect changed
          | unbound changed means bound => exact absurd hselect changed
          | missed changed means ne cause => exact absurd hselect changed
          | found changed means ne hit ok hears => exact absurd hselect changed
          | panicked changed means ne hit ok deaf ended => exact absurd hselect changed
  exact ⟨hrid, hfree⟩

/-- Muted video stays silent. -/
lemma Muted.staysSilent (hs : s.Muted) : s.StaysSilent := by
  refine ⟨hs.rid, fun as hguard => Machine.along_of_guarded (I := Muted) ?_ hs hguard⟩
  intro u a v hu hother hst
  exact ⟨hu.step hother hst, hu.not_writes, (hu.step hother hst).rid⟩

/-- Where video stays silent, its loop has no track: else the next packet would be written. -/
lemma StaysSilent.track_eq_none (h : t.StaysSilent) (hl : t.Runs .video l)
    (hrecv : l.track = l.recv) : l.track = none := by
  by_contra hsome
  obtain ⟨track, htrack⟩ := Option.ne_none_iff_exists'.mp hsome
  have hstep : t.step (.rtp .video true true) =
      some (t.setLoop .video { l with sequenceNumber := l.sequenceNumber + 1 }) := by
    simp [SubscribeSystem.step, rtpStep, onLoop, hl.1, hl.2, ← hrecv, htrack]
  have hguard : subscribeMachine.Guarded (fun u a => ¬ u.SelectsOther a) t
      [.rtp .video true true] := by
    refine fun _ _ => ⟨?_, trivial⟩
    rintro ⟨_, ⟨_, h, -⟩, -⟩
    cases h
  exact (h.2 _ hguard _ hstep).1.1 ⟨rfl, l, hl, by simp [← hrecv, htrack], by simp [htrack]⟩

/-- A request for the word that disables stands for itself. -/
lemma Means.eq_ridDisable {tracks : List PublishTrackRemote} {current : Option String}
    {new : String} (h : Means tracks k l current ridDisable new) : new = ridDisable := by
  rcases h with ⟨⟨-, hselect⟩, -⟩ | ⟨-, hnew⟩
  · exact absurd hselect ridDisable_ne_ridEnable
  · exact hnew.symm

/-- What a request to disable makes of the loop for video: it takes the track away from a loop
whose kind has another rid bound, and leaves every other loop as it is. -/
lemma disable_cases (hl : s.Runs .video l)
    (hrecv : (s.selectLayer.recv RTPCodecType.video.receiver).1 = .message (.video, ridDisable))
    {replaced : Bool} (hst : s.step (.selectLayer .video replaced) = some t) :
    t.boundRid .video = some ridDisable ∧
      ((∃ rid, s.boundRid .video = some rid ∧ rid ≠ ridDisable ∧ t.loops .video =
          some { l with recv := none, track := none, preRid := some rid }) ∨
        (∀ rid, s.boundRid .video = some rid → rid = ridDisable) ∧ t.loops .video = some l) := by
  obtain ⟨l', hl', hstep⟩ := loopStep_of_step hl hst
  rw [hl']
  generalize t.boundRid .video = rid at hstep
  cases hstep with
  | kept takes => exact absurd hrecv (takes replaced _ rfl)
  | stopped takes ended => exact absurd hrecv (takes replaced _ rfl)
  | @selected _ select _ _ recv selected =>
      obtain rfl : select = ridDisable := by simpa [recv] using hrecv
      cases selected with
      | same bound =>
          exact ⟨bound, .inr ⟨fun rid h => Option.some.inj (h.symm.trans bound), rfl⟩⟩
      | nothing changed means preRid first => exact absurd means.2 ridDisable_ne_ridEnable
      | @disabled rid changed means bound =>
          exact ⟨rfl, .inl ⟨rid, bound, fun h => changed (h ▸ bound), rfl⟩⟩
      | unbound changed means bound =>
          exact ⟨rfl, .inr ⟨fun rid h => absurd (h.symm.trans bound) (by simp), rfl⟩⟩
      | missed changed means ne cause => exact absurd means.eq_ridDisable ne
      | found changed means ne hit ok hears => exact absurd means.eq_ridDisable ne
      | panicked changed means ne hit ok deaf ended => exact absurd means.eq_ridDisable ne

lemma wired_of_reachable (hs : subscribeMachine.Reachable s) : s.Wired :=
  hs.invariant (fun _ => wired_init) fun _ _ _ h hst => wired_step h hst

/-- **Disabled means silent**: whenever the loop for video takes a request to disable it, no
packet is written and the word stays bound in every run up to the next request for another
rid, if and only if, when the request is taken, the loop has no track, or a rid other than
the word is bound. -/
theorem staysSilent_iff (hs : subscribeMachine.Reachable s) (hl : s.Runs .video l)
    (hrecv : (s.selectLayer.recv RTPCodecType.video.receiver).1 = .message (.video, ridDisable))
    {replaced : Bool} (hst : s.step (.selectLayer .video replaced) = some t) :
    t.StaysSilent ↔
      l.track = none ∨ ∃ rid, s.boundRid .video = some rid ∧ rid ≠ ridDisable := by
  obtain ⟨hrid, ⟨rid, hbound, hne, hl'⟩ | ⟨hword, hl'⟩⟩ := disable_cases hl hrecv hst
  · refine iff_of_true (Muted.staysSilent ⟨hrid, fun l' h => ?_⟩) (.inr ⟨rid, hbound, hne⟩)
    rw [Option.some.inj (h.1.symm.trans hl')]
  · have hruns : t.Runs .video l := ⟨hl', hl.2⟩
    constructor
    · exact fun hsilent => .inl
        (hsilent.track_eq_none hruns ((wired_of_reachable hs).track .video l hl))
    · rintro (hfree | ⟨rid, hbound, hne⟩)
      · refine Muted.staysSilent ⟨hrid, fun l' h => ?_⟩
        rw [Option.some.inj (h.1.symm.trans hl')]
        exact hfree
      · exact absurd (hword rid hbound) hne

/-- The state before the loop for video takes a request to disable it. -/
def requested (track : PublishTrackRemote) : SubscribeSystem :=
  (subscribeMachine.exec (.new [track] [.video])
    [.trackChange .video true, .selectKindRid ridDisable]).getD (.new [track] [.video])

lemma reachable_requested (track : PublishTrackRemote) (hkind : track.kind = .video) :
    subscribeMachine.Reachable (requested track) := by
  refine ⟨.new [track] [.video], [.trackChange .video true, .selectKindRid ridDisable],
    ⟨[track], [.video], by simp, rfl⟩, ?_⟩
  obtain ⟨rid, kind, ssrc, handle⟩ := track
  obtain rfl : kind = .video := hkind
  rfl

/-- A track with a rid of its own is disabled. -/
theorem staysSilent_requested :
    ∃ t, (requested ⟨"high", .video, 7, 0⟩).step (.selectLayer .video true) = some t ∧
      t.StaysSilent := by
  refine ⟨_, rfl, (staysSilent_iff (l := _) (reachable_requested ⟨"high", .video, 7, 0⟩ rfl)
    ⟨rfl, rfl⟩ rfl rfl).mpr (.inr ⟨"high", rfl, by decide⟩)⟩

/-- A track that is itself called by the word is forwarded as before. -/
theorem not_staysSilent_requested :
    ¬ ∀ (s t : SubscribeSystem) (l : ForwardLoop) (replaced : Bool),
      subscribeMachine.Reachable s → s.Runs .video l →
        (s.selectLayer.recv RTPCodecType.video.receiver).1 = .message (.video, ridDisable) →
        s.step (.selectLayer .video replaced) = some t → t.StaysSilent := by
  intro h
  let track : PublishTrackRemote := ⟨ridDisable, .video, 7, 0⟩
  obtain ⟨t, ht⟩ : ∃ t, (requested track).step (.selectLayer .video true) = some t := ⟨_, rfl⟩
  have hsilent := h (requested track) t ⟨none, some track, some track, 0, none⟩ true
    (reachable_requested track rfl) ⟨rfl, rfl⟩ rfl ht
  cases ht
  have hfree := hsilent.track_eq_none
    (l := ⟨none, some track, some track, 0, none⟩) ⟨rfl, rfl⟩ rfl
  cases hfree

/-! ### The requests that are left to take -/

lemma senderDropped_trackChange (replaced : Bool) :
    (s.trackChange k l replaced).senderDropped = s.senderDropped := by
  simp only [trackChange]
  split_ifs
  · rfl
  · rfl
  · rfl
  · rfl
  · split <;> rfl
  · split <;> rfl

/-- Going over to a rid does nothing to the requests, unless the loop ends with its receiver. -/
lemma requests_selectRid (current : Option String) (rid : String) (replaced : Bool) :
    (s.selectRid k l current rid replaced).senderDropped = s.senderDropped ∧
      (s.selectRid k l current rid replaced).selectLayer.unread j.receiver ≤
        s.selectLayer.unread j.receiver := by
  simp only [selectRid]
  split_ifs
  · exact ⟨rfl, le_rfl⟩
  · exact ⟨rfl, le_rfl⟩
  · split
    · exact ⟨rfl, le_rfl⟩
    · split
      · exact ⟨rfl, Broadcast.unread_unsubscribe_le ..⟩
      · exact ⟨rfl, le_rfl⟩
  · split <;> exact ⟨rfl, le_rfl⟩

/-- Nor does the branch on a request. -/
lemma requests_select (rid : String) (replaced : Bool) :
    (s.select k l rid replaced).senderDropped = s.senderDropped ∧
      (s.select k l rid replaced).selectLayer.unread j.receiver ≤
        s.selectLayer.unread j.receiver := by
  simp only [select]
  split_ifs
  · exact ⟨rfl, le_rfl⟩
  · split
    · exact ⟨rfl, le_rfl⟩
    · exact requests_selectRid (s := { s with trackBindingPublishRid := _ }) _ _ _
  · split
    · exact ⟨rfl, le_rfl⟩
    · exact requests_selectRid _ _ _

/-- A turn of a loop at its requests leaves no loop more of them, and the one that takes one has
one less. -/
lemma requests_selectLayer {replaced : Bool} (hst : s.step (.selectLayer k replaced) = some t) :
    t.senderDropped = s.senderDropped ∧
      (∀ j : RTPCodecType,
        t.selectLayer.unread j.receiver ≤ s.selectLayer.unread j.receiver) ∧
      ∀ m, (s.selectLayer.recv k.receiver).1 = .message m →
        t.selectLayer.unread k.receiver + 1 ≤ s.selectLayer.unread k.receiver := by
  obtain ⟨l, -, -, hst⟩ := onLoop_eq_some_iff.mp hst
  split at hst
  · rename_i hrecv
    split_ifs at hst
    cases hst
    exact ⟨rfl, fun j => Broadcast.unread_unsubscribe_le .., by simp [hrecv]⟩
  · rename_i hrecv
    cases hst
    exact ⟨rfl, fun j => Broadcast.unread_unsubscribe_le .., by simp [hrecv]⟩
  · rename_i kind rid channel hrecv
    have hle : ∀ j : RTPCodecType,
        channel.unread j.receiver ≤ s.selectLayer.unread j.receiver := fun j => by
      have h := s.selectLayer.unread_recv_le k.receiver j.receiver
      rwa [hrecv] at h
    have hlt : channel.unread k.receiver + 1 = s.selectLayer.unread k.receiver := by
      have h := s.selectLayer.unread_of_recv (r := k.receiver) (m := (kind, rid)) (by rw [hrecv])
      rw [hrecv] at h
      exact h.symm
    cases hst
    split_ifs
    · exact ⟨rfl, hle, fun _ _ => hlt.le⟩
    · have hselect := fun j => requests_select (k := k) (l := l) (j := j)
        (s := { s with selectLayer := channel }) rid replaced
      refine ⟨(hselect k).1, fun j => (hselect j).2.trans (hle j), fun _ _ => ?_⟩
      have h := (hselect k).2
      dsimp only at h
      omega

/-- As long as nobody drops the subscription it is there, and once nobody can send requests no
loop has more of them to take. -/
lemma requests_step (hst : s.step a = some t) (hsender : a ≠ .dropSender)
    (hforward : a ≠ .dropForward) :
    t.senderDropped = s.senderDropped ∧ (s.senderDropped = true →
      t.selectLayer.unread k.receiver ≤ s.selectLayer.unread k.receiver) := by
  cases a with
  | selectLayer j replaced =>
      obtain ⟨hdropped, hle, -⟩ := requests_selectLayer hst
      exact ⟨hdropped, fun _ => hle k⟩
  | selectKindRid rid =>
      simp only [step, selectKindRidStep, Option.ite_none_left_eq_some, Option.some.injEq] at hst
      obtain ⟨hdropped, rfl⟩ := hst
      exact ⟨rfl, fun h => absurd h hdropped⟩
  | drain =>
      simp only [step, drainStep, Option.ite_none_right_eq_some] at hst
      obtain ⟨-, hst⟩ := hst
      split at hst
      · rename_i m channel hrecv
        cases hst
        have h := s.selectLayer.unread_recv_le 0 k.receiver
        rw [hrecv] at h
        exact ⟨rfl, fun _ => h⟩
      · cases hst
        exact ⟨rfl, fun _ => Broadcast.unread_unsubscribe_le ..⟩
      · split_ifs at hst
        cases hst
        exact ⟨rfl, fun _ => Broadcast.unread_unsubscribe_le ..⟩
  | publishTrackUp track =>
      cases hst
      exact ⟨rfl, fun _ => le_rfl⟩
  | publishTracksClear =>
      cases hst
      exact ⟨rfl, fun _ => le_rfl⟩
  | trackChange j replaced =>
      obtain ⟨l, -, -, hst⟩ := onLoop_eq_some_iff.mp hst
      split at hst
      · cases hst
      · cases hst
        exact ⟨rfl, fun _ => le_rfl⟩
      · cases hst
        rw [senderDropped_trackChange, (trackChange_channels _).2]
        exact ⟨rfl, fun _ => le_rfl⟩
  | rtp j received written =>
      obtain ⟨l, -, -, hst⟩ := onLoop_eq_some_iff.mp hst
      split_ifs at hst
      · cases hst
        exact ⟨rfl, fun _ => le_rfl⟩
      · cases hst
        exact ⟨rfl, fun _ => Broadcast.unread_unsubscribe_le ..⟩
      · cases hst
        exact ⟨rfl, fun _ => le_rfl⟩
  | rtcp j packet =>
      simp only [step, rtcpStep, Option.ite_none_right_eq_some] at hst
      obtain ⟨-, hst⟩ := hst
      split at hst
      · cases hst
        exact ⟨rfl, fun _ => le_rfl⟩
      · split at hst
        · cases hst
          exact ⟨rfl, fun _ => le_rfl⟩
        · cases hst
          exact ⟨rfl, fun _ => le_rfl⟩
  | rtcpErr j =>
      simp only [step, rtcpErrStep, Option.ite_none_right_eq_some, Option.some.injEq] at hst
      obtain ⟨-, rfl⟩ := hst
      exact ⟨rfl, fun _ => le_rfl⟩
  | dropSender => exact absurd rfl hsender
  | dropForward => exact absurd rfl hforward

/-! ### Disabling and enabling -/

/-- The loop for video forwards a video track with this rid. -/
def BoundTo (s : SubscribeSystem) (r : String) : Prop :=
  ∃ l track, s.Runs .video l ∧ l.track = some track ∧ track.kind = .video ∧ track.rid = r

/-- What may come between: the subscription stays, the requests that the loop for video takes are
to disable it, and whenever it looks at a change of the tracks there are some. -/
def Interleaved (s : SubscribeSystem) : SubscribeAction → Prop
  | .selectLayer .video _ => ∀ rid,
      (s.selectLayer.recv RTPCodecType.video.receiver).1 = .message (.video, rid) →
        rid = ridDisable
  | .trackChange .video _ => s.publishTracks ≠ []
  | .dropSender | .dropForward => False
  | _ => True

/-- A run in which the loop for video takes at least one request to disable it. -/
def DisabledRun (s : SubscribeSystem) (bs : List SubscribeAction) (u : SubscribeSystem) : Prop :=
  subscribeMachine.exec s bs = some u ∧ subscribeMachine.Guarded Interleaved s bs ∧
    ∃ cs d ds v, bs = cs ++ d :: ds ∧ subscribeMachine.exec s cs = some v ∧
      v.Processes d ridDisable

/-- Before the first request to disable it, the loop for video forwards a track with the rid
`r`, and `w` is bound. -/
structure Bound (r w : String) (s : SubscribeSystem) : Prop where
  rid : s.boundRid .video = some w
  track : ∀ l, s.Runs .video l →
    ∃ track, l.track = some track ∧ track.kind = .video ∧ track.rid = r

/-- Afterwards, video is disabled and the loop remembers what was bound; and if nobody can send
requests, none is left to take. -/
structure Remembers (w : String) (s : SubscribeSystem) : Prop where
  rid : s.boundRid .video = some ridDisable
  preRid : ∀ l, s.Runs .video l → l.preRid = some w
  requests : s.senderDropped = true → s.selectLayer.unread RTPCodecType.video.receiver = 0

/-- What is bound for a loop that forwards a track is the rid of the track or the word for
any, unless the track is called by the word that disables. -/
def Named (s : SubscribeSystem) : Prop :=
  ∀ l track, s.Runs .video l → l.track = some track → track.rid ≠ ridDisable →
    s.boundRid .video = some track.rid ∨ s.boundRid .video = some ridEnable

lemma Named.step (hs : s.Named) (hst : s.step a = some t) : t.Named := by
  obtain ⟨-, hnamed⟩ := keeps_of_loopStep (k := .video) (P := fun _ => True)
    (Q := fun l rid => ∀ track, l.track = some track → track.rid ≠ ridDisable →
      rid = some track.rid ∨ rid = some ridEnable) trivial hst fun l l' rid hl hstep => by
      refine ⟨trivial, fun hend track htrack hword => ?_⟩
      have hnamed := hs l track hl
      cases hstep with
      | kept takes => exact hnamed htrack hword
      | stopped takes ended => exact absurd hend ended
      | wrote recv track => exact hnamed htrack hword
      | changed changed disabled =>
          cases changed with
          | offline empty => cases htrack
          | kept online cause => exact hnamed htrack hword
          | bound free mem kind =>
              obtain rfl := Option.some.inj htrack
              exact .inl rfl
      | @selected _ select _ _ recv selected =>
          have hrest : l.track = some track → rest (s.boundRid .video) select =
              s.boundRid .video := fun h => by
            refine if_neg fun henable => ?_
            rcases hnamed h hword with hrid | hrid
            · exact hword (Option.some.inj (hrid.symm.trans henable.1))
            · exact ridDisable_ne_ridEnable (Option.some.inj (henable.1.symm.trans hrid))
          cases selected with
          | same bound => exact hnamed htrack hword
          | nothing changed means preRid first =>
              rw [hrest htrack]
              exact hnamed htrack hword
          | disabled changed means bound => cases htrack
          | unbound changed means bound =>
              rcases hnamed htrack hword with hrid | hrid
              · rw [bound] at hrid
                cases hrid
              · rw [bound] at hrid
                cases hrid
          | missed changed means ne cause =>
              rw [hrest htrack]
              exact hnamed htrack hword
          | @found new publishTrack changed means ne hit ok hears =>
              obtain rfl := Option.some.inj htrack
              have hfind : publishTrack.kind = .video ∧
                  (publishTrack.rid = new ∨ new = ridEnable) := by
                simpa using List.find?_some hit
              exact hfind.2.imp (fun h => congrArg some h.symm) (congrArg some)
          | panicked changed means ne hit ok deaf ended => exact absurd hend ended
  exact fun l track hl => hnamed l hl track

lemma named_of_reachable (hs : subscribeMachine.Reachable s) : s.Named := by
  refine hs.invariant (fun s h0 l track hl htrack _ => ?_) fun _ _ _ h hst => h.step hst
  rw [loop_of_init h0 hl.1] at htrack
  cases htrack

/-- A request that the loop takes in an interleaved step is to disable it. -/
lemma Interleaved.eq_ridDisable {select : String} {replaced : Bool}
    (h : s.Interleaved (.selectLayer .video replaced))
    (hrecv : (s.selectLayer.recv RTPCodecType.video.receiver).1 = .message (.video, select)) :
    select = ridDisable := h select hrecv

/-- What happens before the first request to disable the loop leaves its track and what is
bound. -/
lemma Bound.step {r w : String} (hs : s.Bound r w) (hok : s.Interleaved a)
    (hno : ¬ s.Processes a ridDisable) (hst : s.step a = some t) : t.Bound r w := by
  have hw := hs.rid
  obtain ⟨hrid, htrack⟩ := keeps_of_loopStep (k := .video) (P := (· = some w))
    (Q := fun l _ => ∃ track, l.track = some track ∧ track.kind = .video ∧ track.rid = r) hw hst
    fun l l' rid hl hstep => by
      have hloop := hs.track l hl
      cases hstep with
      | kept takes => exact ⟨hw, fun _ => hloop⟩
      | stopped takes ended => exact ⟨hw, fun h => absurd h ended⟩
      | wrote recv track => exact ⟨hw, fun _ => hloop⟩
      | changed changed disabled =>
          cases changed with
          | offline empty => exact absurd empty hok
          | kept online cause => exact ⟨hw, fun _ => hloop⟩
          | bound free mem kind =>
              obtain ⟨track, htrack, -⟩ := hloop
              rw [htrack] at free
              cases free
      | @selected replaced select _ _ recv selected =>
          obtain rfl := hok.eq_ridDisable recv
          exact absurd ⟨replaced, rfl, ⟨l, hl⟩, recv⟩ hno
  exact ⟨hrid, htrack⟩

/-- The first request to disable the loop: it remembers what is bound. -/
lemma Bound.disable {r w : String} (hs : s.Bound r w) (hattached : s.Attached)
    (hw : w ≠ ridDisable) (hdisable : s.Processes a ridDisable) (hst : s.step a = some t) :
    t.Remembers w := by
  obtain ⟨replaced, rfl, ⟨l, hl⟩, hrecv⟩ := hdisable
  obtain ⟨hrid, ⟨rid, hbound, -, hl'⟩ | ⟨hword, -⟩⟩ := disable_cases hl hrecv hst
  · refine ⟨hrid, fun l' h => ?_, fun _ => ?_⟩
    · rw [← Option.some.inj (hl'.symm.trans h.1)]
      exact hbound.symm.trans hs.rid
    · have hlt := (requests_selectLayer hst).2.2 _ hrecv
      have hle := s.selectLayer.unread_le_of_recv hrecv
      rw [hattached.capacity] at hle
      omega
  · exact absurd (hword w hs.rid) hw

/-- What happens afterwards leaves the loop what it remembers. -/
lemma Remembers.step {w : String} (hs : s.Remembers w) (hok : s.Interleaved a)
    (hst : s.step a = some t) : t.Remembers w := by
  have hrequests : t.senderDropped = true →
      t.selectLayer.unread RTPCodecType.video.receiver = 0 := by
    have hsender : a ≠ .dropSender := by
      rintro rfl
      exact hok
    have hforward : a ≠ .dropForward := by
      rintro rfl
      exact hok
    obtain ⟨hdropped, hle⟩ := requests_step (k := .video) hst hsender hforward
    intro h
    rw [hdropped] at h
    have hzero := hs.requests h
    have := hle h
    omega
  have hdis := hs.rid
  obtain ⟨hrid, hpre⟩ := keeps_of_loopStep (k := .video) (P := (· = some ridDisable))
    (Q := fun l _ => l.preRid = some w) hdis hst fun l l' rid hl hstep => by
      have hpre := hs.preRid l hl
      cases hstep with
      | kept takes => exact ⟨hdis, fun _ => hpre⟩
      | stopped takes ended => exact ⟨hdis, fun h => absurd h ended⟩
      | wrote recv track => exact ⟨hdis, fun _ => hpre⟩
      | changed changed disabled =>
          obtain ⟨rfl, rfl⟩ := disabled hdis hok
          exact ⟨rfl, fun _ => hpre⟩
      | @selected replaced select _ _ recv selected =>
          obtain rfl := hok.eq_ridDisable recv
          cases selected with
          | same bound => exact ⟨hdis, fun _ => hpre⟩
          | nothing changed means preRid first => exact absurd hdis changed
          | disabled changed means bound => exact absurd hdis changed
          | unbound changed means bound => exact absurd hdis changed
          | missed changed means ne cause => exact absurd hdis changed
          | found changed means ne hit ok hears => exact absurd hdis changed
          | panicked changed means ne hit ok deaf ended => exact absurd hdis changed
  exact ⟨hrid, hpre, hrequests⟩

/-- From the first request to disable it on, the loop remembers what was bound to the end of the
run. -/
lemma Remembers.run {w : String} (hs : s.Remembers w) {bs : List SubscribeAction}
    (hguard : subscribeMachine.Guarded Interleaved s bs)
    (hexec : subscribeMachine.exec s bs = some u) : u.Remembers w := by
  have halong : subscribeMachine.Along (fun _ _ t => t.Remembers w) s bs :=
    Machine.along_of_guarded (I := Remembers w)
      (fun _ _ _ h hok hst => ⟨h.step hok hst, h.step hok hst⟩) hs hguard
  exact Machine.Always.of_exec (P := Remembers w) ⟨hs, halong⟩ hexec

/-- A run with a request to disable the loop, by induction over what comes before it: the first
such request may be an earlier one. -/
lemma Bound.run {r w : String} (hs : s.Bound r w) (hattached : s.Attached) (hw : w ≠ ridDisable)
    {cs ds : List SubscribeAction} {d : SubscribeAction} {v : SubscribeSystem}
    (hguard : subscribeMachine.Guarded Interleaved s (cs ++ d :: ds))
    (hexec : subscribeMachine.exec s (cs ++ d :: ds) = some u)
    (hv : subscribeMachine.exec s cs = some v) (hd : v.Processes d ridDisable) :
    u.Remembers w := by
  induction cs generalizing s with
  | nil =>
      rw [Machine.exec_nil, Option.some.injEq] at hv
      subst hv
      obtain ⟨t, hst, hexec⟩ := Option.bind_eq_some_iff.mp hexec
      exact (hs.disable hattached hw hd hst).run (hguard t hst).2 hexec
  | cons c cs ih =>
      obtain ⟨t, hst, hexec⟩ := Option.bind_eq_some_iff.mp hexec
      obtain ⟨hok, hguard⟩ := hguard t hst
      rw [Machine.exec_cons, hst, Option.bind_some] at hv
      by_cases hc : s.Processes c ridDisable
      · exact (hs.disable hattached hw hc hst).run hguard hexec
      · exact ih (hs.step hok hc hst) (attached_step hattached hst) hguard hexec hv

/-- Enabling: the loop goes back to a track with the rid that it remembers, and binds it. -/
lemma Remembers.enable {w : String} (hs : s.Remembers w) (hattached : s.Attached)
    (hw : w ≠ ridDisable) (hl : s.Runs .video l)
    (hrecv : (s.selectLayer.recv RTPCodecType.video.receiver).1 = .message (.video, ridEnable))
    (hst : s.step (.selectLayer .video true) = some t) :
    (∃ track, trackFor s.publishTracks w = some track ∧ t.boundRid .video = some w ∧
        ∃ l', t.Runs .video l' ∧ l'.track = some track) ∨
      trackFor s.publishTracks w = none ∧ t.boundRid .video = none := by
  have hpre := hs.preRid l hl
  obtain ⟨l', hl', hstep⟩ := loopStep_of_step hl hst
  have hmeans : ∀ {new}, Means s.publishTracks .video l (s.boundRid .video) ridEnable new →
      new = w := by
    rintro new (⟨-, h | ⟨h, -⟩⟩ | ⟨h, -⟩)
    · exact Option.some.inj (h.symm.trans hpre)
    · rw [hpre] at h
      cases h
    · exact absurd ⟨hs.rid, rfl⟩ h
  have hrest : rest (s.boundRid .video) ridEnable = none := if_pos ⟨hs.rid, rfl⟩
  generalize t.boundRid .video = rid at hstep ⊢
  cases hstep with
  | kept takes => exact absurd hrecv (takes true _ rfl)
  | stopped takes ended => exact absurd hrecv (takes true _ rfl)
  | @selected _ select _ _ recv selected =>
      obtain rfl : select = ridEnable := by simpa [recv] using hrecv
      cases selected with
      | same bound =>
          exact absurd (Option.some.inj (hs.rid.symm.trans bound)) ridDisable_ne_ridEnable
      | nothing changed means preRid first =>
          rw [hpre] at preRid
          cases preRid
      | disabled changed means bound => exact absurd (hmeans means).symm hw
      | unbound changed means bound => exact absurd (hmeans means).symm hw
      | missed changed means ne cause =>
          obtain rfl := hmeans means
          exact .inr ⟨cause.resolve_right (by simp), hrest⟩
      | @found new track changed means ne hit ok hears =>
          obtain rfl := hmeans means
          exact .inl ⟨track, hit, rfl, _, ⟨hl', hl.2⟩, rfl⟩
      | panicked changed means ne hit ok deaf ended =>
          -- the stream is there, as there was a request left to take
          refine absurd ⟨0, hattached.feedback ?_⟩ deaf
          by_contra hdropped
          have hzero := hs.requests (by simpa using hdropped)
          rw [← Broadcast.recv_fst_eq_empty_iff, hrecv] at hzero
          cases hzero

/-- **Disabling and enabling**: from every reachable state in which the loop for video forwards a
video track with a rid that is not one of the two words, after any run with at least one
request to disable it and a request to enable it while a video track with the rid is
published, the loop forwards a video track with the rid and the rid is bound, if and only if
the rid was bound before. -/
theorem roundTrip_iff (hs : subscribeMachine.Reachable s) {r : String} (henable : r ≠ ridEnable)
    (hdisable : r ≠ ridDisable) (hbound : s.BoundTo r) {bs : List SubscribeAction}
    (hrun : s.DisabledRun bs u) (henables : u.Processes (.selectLayer .video true) ridEnable)
    (htrack : ∃ track ∈ u.publishTracks, track.kind = .video ∧ track.rid = r)
    (hst : u.step (.selectLayer .video true) = some t) :
    t.BoundTo r ∧ t.boundRid .video = some r ↔ s.boundRid .video = some r := by
  obtain ⟨l, track, hl, htr, hkind, hrid⟩ := hbound
  obtain ⟨hexec, hguard, cs, d, ds, v, rfl, hv, hd⟩ := hrun
  obtain ⟨_, _, ⟨lu, hlu⟩, hrecv⟩ := henables
  have hattached : s.Attached :=
    hs.invariant (fun _ => attached_init) fun _ _ _ h hst => attached_step h hst
  have hattachedu : u.Attached :=
    Machine.invariant_exec (M := subscribeMachine) (I := Attached)
      (fun _ _ _ h hst => attached_step h hst) hattached hexec
  -- what the loop remembers is the rid or the word for any
  obtain ⟨w, hw, hcase⟩ : ∃ w, s.boundRid .video = some w ∧ (w = r ∨ w = ridEnable) := by
    rcases named_of_reachable hs l track hl htr (hrid ▸ hdisable) with h | h
    · exact ⟨r, hrid ▸ h, .inl rfl⟩
    · exact ⟨ridEnable, h, .inr rfl⟩
  have hwne : w ≠ ridDisable := by
    rcases hcase with rfl | rfl
    · exact hdisable
    · exact ridDisable_ne_ridEnable.symm
  have hstart : s.Bound r w := ⟨hw, fun l' hl' => by
    obtain rfl := Option.some.inj (hl.1.symm.trans hl'.1)
    exact ⟨track, htr, hkind, hrid⟩⟩
  have hend := (hstart.run hattached hwne hguard hexec hv hd).enable hattachedu hwne hlu hrecv hst
  rw [hw, Option.some.injEq]
  constructor
  · rintro ⟨-, hr⟩
    rcases hend with ⟨_, -, hbinds, -⟩ | ⟨-, hnone⟩
    · exact Option.some.inj (hbinds.symm.trans hr)
    · rw [hnone] at hr
      cases hr
  · rintro rfl
    rcases hend with ⟨track', hfor, hbinds, l', hl', htrack'⟩ | ⟨hnone, -⟩
    · have hfind : track'.kind = .video ∧ (track'.rid = w ∨ w = ridEnable) := by
        simpa using List.find?_some hfor
      exact ⟨⟨l', track', hl', htrack', hfind.1, hfind.2.resolve_right henable⟩, hbinds⟩
    · obtain ⟨track', hmem, hkind', hrid'⟩ := htrack
      have hno := List.find?_eq_none.mp hnone track' hmem
      simp [hkind', hrid'] at hno

instance (s : SubscribeSystem) (a : SubscribeAction) : Decidable (s.Interleaved a) :=
  match a with
  | .selectLayer .video _ => decidable_of_iff
      (∀ m ∈ (s.selectLayer.recv RTPCodecType.video.receiver).1.toOption,
        m.1 = .video → m.2 = ridDisable)
      ⟨fun h rid hrecv => h (.video, rid) (by simp [hrecv, Received.toOption]) rfl,
        fun h m hm hkind => h m.2 (by
          rw [Received.toOption_eq_some_iff.mp hm, ← hkind])⟩
  | .trackChange .video _ => inferInstanceAs (Decidable (s.publishTracks ≠ []))
  | .dropSender | .dropForward => isFalse fun h => h
  | .selectLayer .audio _ | .selectLayer .unspecified _ | .trackChange .audio _
  | .trackChange .unspecified _ | .selectKindRid _ | .drain | .publishTrackUp _
  | .publishTracksClear | .rtp .. | .rtcp .. | .rtcpErr _ => isTrue trivial

/-- A subscription to a stream with one track, whose loop has not looked at it. -/
def fresh : SubscribeSystem := .new [⟨"high", .video, 7, 0⟩] [.video]

lemma init_fresh : subscribeMachine.init fresh :=
  ⟨[⟨"high", .video, 7, 0⟩], [.video], by simp, rfl⟩

/-- Video is disabled, and another track comes up before it is enabled again. -/
def offAndOn : List SubscribeAction :=
  [.rtp .video true true, .selectKindRid ridDisable] ++ .selectLayer .video true ::
    [.publishTrackUp ⟨"a", .video, 8, 1⟩, .trackChange .video true, .selectKindRid ridEnable]

/-- The loop forwards the track `high` before and after. -/
theorem roundTrip_offAndOn :
    ∃ s u t, subscribeMachine.exec fresh [.trackChange .video true] = some s ∧
      s.DisabledRun offAndOn u ∧ u.step (.selectLayer .video true) = some t ∧
      t.BoundTo "high" ∧ t.boundRid .video = some "high" := by
  obtain ⟨s, hs⟩ : ∃ s, subscribeMachine.exec fresh [.trackChange .video true] = some s :=
    ⟨_, rfl⟩
  have hreach : subscribeMachine.Reachable s := ⟨_, _, init_fresh, hs⟩
  have hrun : ∃ u, s.DisabledRun offAndOn u ∧ u.Processes (.selectLayer .video true) ridEnable ∧
      (∃ track ∈ u.publishTracks, track.kind = .video ∧ track.rid = "high") ∧
      ∃ t, u.step (.selectLayer .video true) = some t := by
    cases hs
    exact ⟨_, ⟨rfl, by decide, _, _, _, _, rfl, rfl, true, rfl, ⟨_, rfl, rfl⟩, rfl⟩,
      ⟨true, rfl, ⟨_, rfl, rfl⟩, rfl⟩, by decide, _, rfl⟩
  obtain ⟨u, hrun, henables, htrack, t, hst⟩ := hrun
  have hbound : s.BoundTo "high" ∧ s.boundRid .video = some "high" := by
    cases hs
    exact ⟨⟨_, ⟨"high", .video, 7, 0⟩, ⟨rfl, rfl⟩, rfl, rfl, rfl⟩, by decide⟩
  exact ⟨s, u, t, hs, hrun, hst, (roundTrip_iff hreach (by decide) (by decide) hbound.1 hrun
    henables htrack hst).mpr hbound.2⟩

/-- Video that was not disabled has been enabled, so that the word is bound for the track
`high`: after `offAndOn` it is bound for the track `a`. -/
theorem not_roundTrip_enabled :
    ¬ ∀ (s u t : SubscribeSystem) (r : String) (bs : List SubscribeAction),
      subscribeMachine.Reachable s → r ≠ ridEnable → r ≠ ridDisable → s.BoundTo r →
        s.DisabledRun bs u → u.Processes (.selectLayer .video true) ridEnable →
        (∃ track ∈ u.publishTracks, track.kind = .video ∧ track.rid = r) →
        u.step (.selectLayer .video true) = some t →
          t.BoundTo r ∧ t.boundRid .video = some r := by
  intro h
  obtain ⟨s, hs⟩ : ∃ s, subscribeMachine.exec fresh
      [.trackChange .video true, .selectKindRid ridEnable, .selectLayer .video true] = some s :=
    ⟨_, rfl⟩
  have hreach : subscribeMachine.Reachable s := ⟨_, _, init_fresh, hs⟩
  obtain ⟨u, t, hbound, hrun, henables, htrack, hst, hword⟩ : ∃ u t, s.BoundTo "high" ∧
      s.DisabledRun offAndOn u ∧ u.Processes (.selectLayer .video true) ridEnable ∧
      (∃ track ∈ u.publishTracks, track.kind = .video ∧ track.rid = "high") ∧
      u.step (.selectLayer .video true) = some t ∧ t.boundRid .video = some ridEnable := by
    cases hs
    exact ⟨_, _, ⟨_, ⟨"high", .video, 7, 0⟩, ⟨rfl, rfl⟩, rfl, rfl, rfl⟩,
      ⟨rfl, by decide, _, _, _, _, rfl, rfl, true, rfl, ⟨_, rfl, rfl⟩, rfl⟩,
      ⟨true, rfl, ⟨_, rfl, rfl⟩, rfl⟩, by decide, rfl, by decide⟩
  have hrid := (h s u t "high" offAndOn hreach (by decide) (by decide) hbound hrun henables htrack
    hst).2
  rw [hword] at hrid
  revert hrid
  decide

end SubscribeSystem

end SfuServer
