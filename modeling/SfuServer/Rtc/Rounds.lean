import SfuServer.Rtc.Reaper

/-!
That the reaper gets its work done: `publish_check_tick` of `src/rtc/mod.rs`, in runs of
`publishMachine` in which publishers come and go on the other streams at any moment.

A round goes through the table twice, the second time over those streams that it found timed out,
which it looks up again.

* `Due`, `Pending`: a stream whose publisher has left for long enough, and a round that has yet to
  come to it;
* `pending_step`: a step keeps the stream due and the round pending, or it is the removal;
* `Reaps`: a run in which the reaper closes the forward of the stream and removes the entry;
* `roundLength`, `exists_asleep`: a round comes to its end by steps of its own, of which there is a
  bound;
* `never_reaped`: with a timeout that does not fit an `i64` there is no reaper;
* `reaper_rounds`: a stream that is due when a round begins is closed and removed in that round.
-/

open Std (ExtTreeMap)

namespace SfuServer.PublishSystem

variable {s t : PublishSystem} {a : PublishAction} {stream : String} {h : ℕ}

/-- The table has the forward under the stream, and its publisher has left for longer than the
timeout. -/
structure Due (s : PublishSystem) (stream : String) (h : ℕ) : Prop where
  entry : s.forwarder.streamMap[stream]? = some h
  expired : s.forwarder.Expired h s.clock

/-- The round that the reaper is in has yet to come to the stream, or it has just found that it is
due. -/
def Pending (s : PublishSystem) (stream : String) (h : ℕ) : Prop :=
  match s.tick with
  | .sleeping => False
  | .scanning todo remove => (stream, h) ∈ todo ∨ stream ∈ remove
  | .scanned found leave todo remove =>
      found = stream ∧ s.forwarder.TimedOut leave s.clock ∨ (stream, h) ∈ todo ∨ stream ∈ remove
  | .locking remove => stream ∈ remove
  | .reaping todo => stream ∈ todo
  | .comparing found _ leave todo =>
      found = stream ∧ s.forwarder.TimedOut leave s.clock ∨ stream ∈ todo
  | .closing found _ _ todo | .removing found _ _ todo => found = stream ∨ stream ∈ todo

/-- The table has what the reaper has looked up. -/
def Looked (s : PublishSystem) : Prop :=
  ∀ stream h, s.tick.target = some (stream, h) → s.forwarder.streamMap[stream]? = some h

/-- No publisher of the forward comes or has its leaving recorded. -/
def LeavesAlone (h : ℕ) (s : PublishSystem) : PublishAction → Prop
  | .reset i | .stamp i => ∀ c ∈ s.calls[i]?, c.forward ≠ h
  | _ => True

instance (h : ℕ) (s : PublishSystem) (a : PublishAction) : Decidable (s.LeavesAlone h a) :=
  match a with
  | .reset i | .stamp i => inferInstanceAs (Decidable (∀ c ∈ s.calls[i]?, _))
  | .elapse _ | .create _ | .begin _ | .check _ | .recheck _ | .negotiate .. | .fill _
  | .finish _ | .connect _ | .close _ | .clear _ | .wake _ | .tick => isTrue trivial

/-- A run in which the reaper closes the forward that the table has for the stream, and later takes
the stream out of the table. -/
def Reaps (s : PublishSystem) (stream : String) (h : ℕ) (as : List PublishAction) : Prop :=
  ∃ before between after u v w x, as = before ++ .tick :: between ++ .tick :: after ∧
    publishMachine.exec s before = some u ∧ u.forwarder.streamMap[stream]? = some h ∧
    publishMachine.step u .tick = some v ∧ v.forwarder = u.forwarder.close h ∧
    publishMachine.exec v between = some w ∧
    publishMachine.step w .tick = some x ∧ x.forwarder.streamMap[stream]? = none

/-! ### A round -/

/-- The reaper moves in its own steps only. -/
lemma tick_of_step (hst : s.step a = some t) (ha : a ≠ .tick) (hw : ∀ order, a ≠ .wake order) :
    t.tick = s.tick := by
  cases a with
  | elapse ms | close peer =>
      obtain rfl := Option.some.inj hst
      rfl
  | create stream =>
      obtain ⟨-, hst⟩ := Option.ite_none_right_eq_some.mp hst
      split at hst
      all_goals
        obtain rfl := Option.some.inj hst
        rfl
  | begin stream =>
      obtain ⟨-, hst⟩ := Option.ite_none_right_eq_some.mp hst
      split at hst
      all_goals
        obtain rfl := Option.some.inj hst
        rfl
  | check i =>
      obtain ⟨c, -, -, hst⟩ := onCall_eq_some_iff.mp hst
      obtain rfl := Option.some.inj hst
      split_ifs <;> rfl
  | recheck i =>
      obtain ⟨c, -, -, hst⟩ := onCall_eq_some_iff.mp hst
      obtain rfl := Option.some.inj hst
      split_ifs <;> rfl
  | negotiate i outcome =>
      obtain ⟨c, -, -, hst⟩ := onCall_eq_some_iff.mp hst
      obtain rfl := Option.some.inj hst
      split <;> rfl
  | fill i =>
      obtain ⟨c, -, -, hst⟩ := onCall_eq_some_iff.mp hst
      obtain ⟨p, -, rfl⟩ := Option.map_eq_some_iff.mp hst
      split <;> rfl
  | reset i =>
      obtain ⟨c, -, -, hst⟩ := onCall_eq_some_iff.mp hst
      obtain rfl := Option.some.inj hst
      rfl
  | finish i =>
      obtain ⟨c, -, -, hst⟩ := onCall_eq_some_iff.mp hst
      split_ifs at hst
      all_goals
        obtain rfl := Option.some.inj hst
        rfl
  | connect peer =>
      obtain ⟨-, hst⟩ := Option.ite_none_right_eq_some.mp hst
      obtain rfl := Option.some.inj hst
      rfl
  | clear i =>
      obtain ⟨c, -, hst⟩ := Option.bind_eq_some_iff.mp hst
      obtain ⟨p, -, hst⟩ := Option.bind_eq_some_iff.mp hst
      obtain ⟨-, hst⟩ := Option.ite_none_right_eq_some.mp hst
      obtain rfl := Option.some.inj hst
      split <;> rfl
  | stamp i =>
      obtain ⟨c, -, hst⟩ := Option.bind_eq_some_iff.mp hst
      obtain ⟨-, hst⟩ := Option.ite_none_right_eq_some.mp hst
      obtain rfl := Option.some.inj hst
      rfl
  | wake order => exact absurd rfl (hw order)
  | tick => exact absurd rfl ha

/-- What has timed out stays so. -/
lemma timedOut_step {leave : ℤ} (hst : s.step a = some t)
    (hlate : s.forwarder.TimedOut leave s.clock) : t.forwarder.TimedOut leave t.clock := by
  have hspec := spec_of_step hst
  have hclock := hspec.clock
  refine ⟨hlate.1, ?_⟩
  rw [hspec.timeout]
  have hless := hlate.2
  omega

/-- A forward that nobody publishes to keeps its leave time. -/
lemma leaveTime_of_leavesAlone (hst : s.step a = some t) (ha : s.LeavesAlone h a) :
    t.forwarder.leaveTime h = s.forwarder.leaveTime h := by
  rcases leaveTime_step hst h with htime | ⟨i, c, rfl, hc, rfl, -⟩ | ⟨i, c, rfl, hc, -, rfl, -⟩
  · exact htime
  · exact absurd rfl (ha c hc)
  · exact absurd rfl (ha c hc)

/-- The table keeps what the reaper has looked up, until it removes it. -/
lemma looked_step (hs : s.Looked) (hst : s.step a = some t) : t.Looked := by
  intro stream h hk
  by_cases ha : a = .tick
  · subst ha
    cases tick_cases hst with
    | idle target => simp [target] at hk
    | looked stream k leave todo entry after =>
        subst after
        cases hk
        exact entry
    | decided stream k leave todo before late after =>
        subst after
        cases hk
        exact hs stream h (by rw [before]; rfl)
    | closed stream k leave todo before after =>
        subst after
        cases hk
        simpa using hs stream h (by rw [before]; rfl)
  · rw [((spec_of_step hst).round ha).1] at hk
    rcases streamMap_step hst stream with hmap | ⟨hw, -⟩ | ⟨rfl, -⟩
    · exact hmap.trans (hs stream h hk)
    · exact absurd hw (TickState.not_writable_of_target hk)
    · exact absurd rfl ha

/-- A step of the reaper, which has yet to come to a stream that is due. -/
lemma pending_tick (hdue : s.Due stream h) (hlook : s.Looked) (hp : s.Pending stream h)
    (hst : s.step .tick = some t) :
    t.Pending stream h ∨ ∃ leave todo, s.tick = .removing stream h leave todo := by
  have hlate : s.forwarder.TimedOut (s.forwarder.leaveTime h) s.clock := hdue.expired
  cases htick : s.tick with
  | sleeping =>
      rw [Pending, htick] at hp
      exact hp.elim
  | scanning todo remove =>
      simp only [Pending, htick] at hp
      cases todo with
      | nil =>
          have hremove : stream ∈ remove := by simpa using hp
          simp only [step, tickStep, htick, if_neg (List.ne_nil_of_mem hremove)] at hst
          obtain rfl := Option.some.inj hst
          exact .inl hremove
      | cons x todo =>
          obtain ⟨found, k⟩ := x
          simp only [step, tickStep, htick] at hst
          obtain rfl := Option.some.inj hst
          left
          simp only [List.mem_cons, Prod.mk.injEq] at hp
          rcases hp with (⟨rfl, rfl⟩ | hp) | hp
          · exact .inl ⟨rfl, hlate⟩
          · exact .inr (.inl hp)
          · exact .inr (.inr hp)
  | scanned found leave todo remove =>
      simp only [Pending, htick] at hp
      simp only [step, tickStep, htick] at hst
      obtain rfl := Option.some.inj hst
      left
      show (stream, h) ∈ todo ∨ stream ∈ _
      rcases hp with ⟨rfl, hp⟩ | hp | hp
      · exact .inr (by simp [hp])
      · exact .inl hp
      · refine .inr ?_
        split_ifs
        · exact List.mem_append_left _ hp
        · exact hp
  | locking remove =>
      simp only [Pending, htick] at hp
      simp only [step, tickStep, htick] at hst
      obtain rfl := Option.some.inj hst
      exact .inl hp
  | reaping todo =>
      simp only [Pending, htick] at hp
      cases todo with
      | nil => simp at hp
      | cons found todo =>
          simp only [step, tickStep, htick] at hst
          rcases List.mem_cons.mp hp with rfl | hp
          · -- the stream is looked up, and still due
            simp only [hdue.entry] at hst
            obtain rfl := Option.some.inj hst
            exact .inl (.inl ⟨rfl, hlate⟩)
          · split at hst
            · obtain rfl := Option.some.inj hst
              exact .inl hp
            · obtain rfl := Option.some.inj hst
              exact .inl (.inr hp)
  | comparing found k leave todo =>
      simp only [Pending, htick] at hp
      simp only [step, tickStep, htick] at hst
      split_ifs at hst with hold
      · obtain rfl := Option.some.inj hst
        rcases hp with ⟨rfl, -⟩ | hp
        · exact .inl (.inl rfl)
        · exact .inl (.inr hp)
      · obtain rfl := Option.some.inj hst
        rcases hp with ⟨-, hp⟩ | hp
        · exact absurd hp hold
        · exact .inl hp
  | closing found k leave todo =>
      simp only [Pending, htick] at hp
      simp only [step, tickStep, htick] at hst
      obtain rfl := Option.some.inj hst
      exact .inl hp
  | removing found k leave todo =>
      simp only [Pending, htick] at hp
      by_cases hfound : found = stream
      · subst hfound
        have hentry := hlook found k (by rw [htick]; rfl)
        obtain rfl : h = k := Option.some.inj (hdue.entry.symm.trans hentry)
        exact .inr ⟨leave, todo, rfl⟩
      · simp only [step, tickStep, htick] at hst
        obtain rfl := Option.some.inj hst
        exact .inl (hp.resolve_left hfound)

/-- Where the reaper does not move, the round stays pending. -/
lemma pending_of_tick_eq (hp : s.Pending stream h) (hst : s.step a = some t)
    (htick : t.tick = s.tick) : t.Pending stream h := by
  unfold Pending at hp ⊢
  rw [htick]
  split at hp
  · exact hp
  · exact hp
  · exact hp.imp (And.imp_right (timedOut_step hst)) id
  · exact hp
  · exact hp
  · exact hp.imp (And.imp_right (timedOut_step hst)) id
  · exact hp
  · exact hp

/-- **A step of a round**: the stream is still due, and the round has yet to come to it, or this is
the removal. -/
lemma pending_step (hdue : s.Due stream h) (hlook : s.Looked) (hp : s.Pending stream h)
    (hst : s.step a = some t) (ha : s.LeavesAlone h a) :
    t.Due stream h ∧ t.Looked ∧ t.Pending stream h ∨
      a = .tick ∧ ∃ leave todo, s.tick = .removing stream h leave todo := by
  by_cases hremoves : a = .tick ∧ ∃ leave todo, s.tick = .removing stream h leave todo
  · exact .inr hremoves
  · refine .inl ⟨⟨?_, ?_⟩, looked_step hlook hst, ?_⟩
    · rcases streamMap_step hst stream with hmap | ⟨-, hnone⟩ | ⟨rfl, k, leave, todo, htick⟩
      · exact hmap.trans hdue.entry
      · simp [hdue.entry] at hnone
      · have hentry := hlook stream k (by rw [htick]; rfl)
        obtain rfl : h = k := Option.some.inj (hdue.entry.symm.trans hentry)
        exact absurd ⟨rfl, leave, todo, htick⟩ hremoves
    · rw [Forwarder.Expired, leaveTime_of_leavesAlone hst ha]
      exact timedOut_step hst hdue.expired
    · by_cases hturn : a = .tick
      · subst hturn
        exact (pending_tick hdue hlook hp hst).resolve_right fun h => hremoves ⟨rfl, h⟩
      · refine pending_of_tick_eq hp hst (tick_of_step hst hturn fun order hwake => ?_)
        -- the reaper does not sleep, so it cannot wake up
        subst hwake
        obtain ⟨⟨hsleep, -⟩, -⟩ := Option.ite_none_right_eq_some.mp hst
        rw [Pending, hsleep] at hp
        exact hp

/-- From a pending round to its end. -/
lemma exists_removal {as : List PublishAction} (hdue : s.Due stream h) (hlook : s.Looked)
    (hp : s.Pending stream h) (hrun : publishMachine.exec s as = some t)
    (hasleep : t.tick = .sleeping) (hok : publishMachine.Guarded (LeavesAlone h) s as) :
    ∃ before after u leave todo, as = before ++ .tick :: after ∧
      publishMachine.exec s before = some u ∧ u.tick = .removing stream h leave todo := by
  induction as generalizing s with
  | nil =>
      obtain rfl := Option.some.inj hrun
      rw [Pending, hasleep] at hp
      exact hp.elim
  | cons a as ih =>
      obtain ⟨r, hr, hrun⟩ := Option.bind_eq_some_iff.mp hrun
      obtain ⟨ha, hok⟩ := hok r hr
      obtain ⟨hdue, hlook, hp⟩ | ⟨rfl, leave, todo, htick⟩ := pending_step hdue hlook hp hr ha
      · obtain ⟨before, after, u, leave, todo, rfl, hu, htick⟩ := ih hdue hlook hp hrun hok
        exact ⟨a :: before, after, u, leave, todo, rfl, Machine.exec_step hr hu, htick⟩
      · exact ⟨[], as, s, leave, todo, rfl, rfl, htick⟩

/-- Before a removal the reaper is at it already, or it has just closed the forward. -/
lemma closing_of_removing {leave : ℤ} {todo : List String} (hst : s.step a = some t)
    (ht : t.tick = .removing stream h leave todo) :
    s.tick = t.tick ∨ a = .tick ∧ s.tick = .closing stream h leave todo ∧
      t.forwarder = s.forwarder.close h := by
  by_cases ha : a = .tick
  · subst ha
    cases tick_cases hst with
    | idle target => simp [ht, TickState.target] at target
    | looked _ _ _ _ _ after | decided _ _ _ _ _ _ after =>
        subst after
        cases ht
    | closed found k leave' todo' before after =>
        subst after
        cases ht
        exact .inr ⟨rfl, before, rfl⟩
  · by_cases hwake : ∃ order, a = .wake order
    · obtain ⟨order, rfl⟩ := hwake
      have hst : s.wakeStep order = some t := hst
      obtain ⟨-, hscan⟩ := Option.ite_none_right_eq_some.mp hst
      obtain rfl := Option.some.inj hscan
      cases ht
    · exact .inl (tick_of_step hst ha (not_exists.mp hwake)).symm

/-- On the way to a removal the reaper closes the forward. -/
lemma exists_closing {as : List PublishAction} {leave : ℤ} {todo : List String} (hlook : s.Looked)
    (hs : s.tick ≠ .removing stream h leave todo) (hrun : publishMachine.exec s as = some t)
    (ht : t.tick = .removing stream h leave todo) :
    ∃ before after u v, as = before ++ .tick :: after ∧ publishMachine.exec s before = some u ∧
      u.forwarder.streamMap[stream]? = some h ∧ publishMachine.step u .tick = some v ∧
      v.forwarder = u.forwarder.close h ∧ publishMachine.exec v after = some t := by
  induction as generalizing s with
  | nil =>
      obtain rfl := Option.some.inj hrun
      exact absurd ht hs
  | cons a as ih =>
      obtain ⟨r, hr, hrest⟩ := Option.bind_eq_some_iff.mp hrun
      by_cases hrem : r.tick = .removing stream h leave todo
      · rcases closing_of_removing hr hrem with htick | ⟨rfl, htick, hclose⟩
        · exact absurd (htick.trans hrem) hs
        · exact ⟨[], as, s, r, rfl, rfl, hlook stream h (by rw [htick]; rfl), hr, hclose, hrest⟩
      · obtain ⟨before, after, u, v, rfl, hu, hcloses⟩ := ih (looked_step hlook hr) hrem hrest
        exact ⟨a :: before, after, u, v, rfl, Machine.exec_step hr hu, hcloses⟩

/-- The removal takes the stream out of the table. -/
lemma streamMap_of_removing {leave : ℤ} {todo : List String} (hst : s.step .tick = some t)
    (hs : s.tick = .removing stream h leave todo) : t.forwarder.streamMap[stream]? = none := by
  simp only [step, tickStep, hs] at hst
  obtain rfl := Option.some.inj hst
  simp

/-! ### The end of a round -/

/-- As many steps of the reaper as its round takes at most, from where it is. -/
def roundLength : TickState → ℕ
  | .sleeping => 0
  | .scanning todo remove => 6 * todo.length + 4 * remove.length + 3
  | .scanned _ _ todo remove => 6 * todo.length + 4 * remove.length + 8
  | .locking remove => 4 * remove.length + 2
  | .reaping todo => 4 * todo.length + 1
  | .comparing _ _ _ todo => 4 * todo.length + 4
  | .closing _ _ _ todo => 4 * todo.length + 3
  | .removing _ _ _ todo => 4 * todo.length + 2

/-- A reaper that is awake can go on, and comes nearer to the end of its round. -/
lemma exists_tick (hs : s.tick ≠ .sleeping) :
    ∃ t, s.step .tick = some t ∧ roundLength t.tick < roundLength s.tick := by
  cases htick : s.tick with
  | sleeping => exact absurd htick hs
  | scanning todo remove =>
      cases todo with
      | nil =>
          refine ⟨_, by simp only [step, tickStep, htick]; rfl, ?_⟩
          dsimp only
          split_ifs
          · simp [roundLength]
          · simp [roundLength]
      | cons x todo =>
          refine ⟨_, by simp only [step, tickStep, htick]; rfl, ?_⟩
          simp only [roundLength, List.length_cons]
          omega
  | scanned found leave todo remove =>
      refine ⟨_, by simp only [step, tickStep, htick]; rfl, ?_⟩
      dsimp only
      split_ifs
      · simp only [roundLength, List.length_append, List.length_singleton]
        omega
      · simp only [roundLength]
        omega
  | locking remove =>
      exact ⟨_, by simp only [step, tickStep, htick]; rfl, by simp [roundLength]⟩
  | reaping todo =>
      cases todo with
      | nil => exact ⟨_, by simp only [step, tickStep, htick]; rfl, by simp [roundLength]⟩
      | cons found todo =>
          cases hentry : s.forwarder.streamMap[found]? with
          | none =>
              refine ⟨_, by simp only [step, tickStep, htick, hentry]; rfl, ?_⟩
              simp [roundLength]
          | some k =>
              refine ⟨_, by simp only [step, tickStep, htick, hentry]; rfl, ?_⟩
              simp only [roundLength, List.length_cons]
              omega
  | comparing found k leave todo =>
      by_cases hlate : s.forwarder.TimedOut leave s.clock
      · exact ⟨_, by simp only [step, tickStep, htick, if_pos hlate]; rfl, by simp [roundLength]⟩
      · exact ⟨_, by simp only [step, tickStep, htick, if_neg hlate]; rfl, by simp [roundLength]⟩
  | closing found k leave todo =>
      exact ⟨_, by simp only [step, tickStep, htick]; rfl, by simp [roundLength]⟩
  | removing found k leave todo =>
      exact ⟨_, by simp only [step, tickStep, htick]; rfl, by simp [roundLength]⟩

/-- The steps of a round lead to its end. -/
lemma exists_asleep (s : PublishSystem) :
    ∃ n ≤ roundLength s.tick, ∃ t, publishMachine.exec s (List.replicate n .tick) = some t ∧
      t.tick = .sleeping := by
  induction hn : roundLength s.tick using Nat.strong_induction_on generalizing s with
  | _ n ih =>
      by_cases hs : s.tick = .sleeping
      · exact ⟨0, Nat.zero_le n, s, rfl, hs⟩
      · obtain ⟨r, hr, hless⟩ := exists_tick hs
        obtain ⟨m, hm, t, ht, hasleep⟩ := ih (roundLength r.tick) (hn ▸ hless) r rfl
        exact ⟨m + 1, by omega, t, Machine.exec_step hr ht, hasleep⟩

/-! ### No reaper -/

/-- A timeout that does not fit keeps the reaper asleep, and every entry in the table. -/
lemma asleep_step (hs : s.tick = .sleeping)
    (hlarge : Forwarder.i64Max < s.forwarder.publishLeaveTimeout) (hst : s.step a = some t) :
    t.tick = .sleeping := by
  rw [← hs]
  refine tick_of_step hst ?_ fun order hwake => ?_
  · rintro rfl
    simp [step, tickStep, hs] at hst
  · subst hwake
    obtain ⟨⟨-, hsmall, -⟩, -⟩ := Option.ite_none_right_eq_some.mp hst
    omega

lemma never_reaped {as : List PublishAction} (hs : s.tick = .sleeping)
    (hlarge : Forwarder.i64Max < s.forwarder.publishLeaveTimeout)
    (hentry : s.forwarder.streamMap[stream]? = some h)
    (hrun : publishMachine.exec s as = some t) : t.forwarder.streamMap[stream]? = some h := by
  have hkeeps : ∀ s a t, (s.tick = .sleeping ∧
      Forwarder.i64Max < s.forwarder.publishLeaveTimeout ∧
      s.forwarder.streamMap[stream]? = some h) → publishMachine.step s a = some t →
      (t.tick = .sleeping ∧ Forwarder.i64Max < t.forwarder.publishLeaveTimeout ∧
        t.forwarder.streamMap[stream]? = some h) := by
    rintro s a t ⟨hs, hlarge, hentry⟩ hst
    refine ⟨asleep_step hs hlarge hst, (spec_of_step hst).timeout ▸ hlarge, ?_⟩
    rcases streamMap_step hst stream with hmap | ⟨-, hnone⟩ | ⟨-, k, leave, todo, htick⟩
    · exact hmap.trans hentry
    · simp [hentry] at hnone
    · simp [hs] at htick
  exact (Machine.invariant_exec hkeeps ⟨hs, hlarge, hentry⟩ hrun).2.2

/-! ### The rounds -/

/-- **The reaper removes what is due**: a stream whose publisher has left for longer than the
timeout when the reaper wakes up is closed and removed by it before it sleeps again, whatever the
other calls do meanwhile, as long as no publisher of that stream comes or goes; from any state, the
round comes to its end by steps of the reaper alone, of which `roundLength` is a bound; and if the
timeout does not fit an `i64`, no stream is ever removed. -/
theorem reaper_rounds {s : PublishSystem} {stream : String} {h : ℕ}
    (hentry : s.forwarder.streamMap[stream]? = some h) :
    (∀ order as t, s.forwarder.Expired h s.clock →
      publishMachine.exec s (.wake order :: as) = some t → t.tick = .sleeping →
      publishMachine.Guarded (LeavesAlone h) s (.wake order :: as) →
      s.Reaps stream h (.wake order :: as)) ∧
    (∀ as t, publishMachine.exec s as = some t → ∃ n ≤ roundLength t.tick, ∃ u,
      publishMachine.exec t (List.replicate n .tick) = some u ∧ u.tick = .sleeping) ∧
    (s.tick = .sleeping → Forwarder.i64Max < s.forwarder.publishLeaveTimeout →
      ∀ as t, publishMachine.exec s as = some t → t.forwarder.streamMap[stream]? = some h) := by
  refine ⟨fun order as t hexpired hrun hasleep hok => ?_, fun as t _ => exists_asleep t,
    fun hs hlarge as t hrun => never_reaped hs hlarge hentry hrun⟩
  obtain ⟨r, hr, hrest⟩ := Option.bind_eq_some_iff.mp hrun
  have hwake : s.wakeStep order = some r := hr
  obtain ⟨⟨-, -, horder⟩, hscan⟩ := Option.ite_none_right_eq_some.mp hwake
  obtain rfl := Option.some.inj hscan
  have hmem : (stream, h) ∈ order := by
    rw [horder.mem_iff]
    exact ExtTreeMap.mem_toList_iff_getElem?_eq_some.mpr hentry
  have hlook : Looked { s with tick := .scanning order [] } := fun _ _ hk => by cases hk
  obtain ⟨before, after, w, leave, todo, rfl, hw, htick⟩ :=
    exists_removal (s := { s with tick := .scanning order [] }) ⟨hentry, hexpired⟩ hlook (.inl hmem)
      hrest hasleep (hok _ hr).2
  rw [Machine.exec_append, hw, Option.bind_some] at hrest
  obtain ⟨x, hx, -⟩ := Option.bind_eq_some_iff.mp hrest
  obtain ⟨before, between, u, v, rfl, hu, hopen, hv, hclose, hbetween⟩ :=
    exists_closing hlook (fun hk => by cases hk) hw htick
  exact ⟨.wake order :: before, between, after, u, v, w, x, rfl, Machine.exec_step hr hu, hopen, hv,
    hclose, hbetween, hx, streamMap_of_removing hx htick⟩

/-- A round with the one stream, in which a publisher of another one begins. -/
def busyRound : List PublishAction :=
  [.tick, .begin "other", .tick, .check 1, .tick, .tick, .tick, .tick, .tick, .tick, .tick]

/-- A publisher leaves, and its stream is removed in the round after the timeout. -/
theorem reaper_rounds_unused : ∃ s, publishMachine.exec unused (negotiates 0 "stream" ++
      publishes 0 ++ leaves 0 ++ [.stamp 0, .elapse 6]) = some s ∧
    s.Reaps "stream" 0 (.wake [("stream", 0)] :: busyRound) := by
  have hrun : ((publishMachine.exec unused (negotiates 0 "stream" ++ publishes 0 ++ leaves 0 ++
      [.stamp 0, .elapse 6])).bind fun s => some (decide
        (s.forwarder.streamMap["stream"]? = some 0 ∧ s.forwarder.Expired 0 s.clock ∧
          publishMachine.Guarded (LeavesAlone 0) s
            (.wake [("stream", 0)] :: busyRound) ∧
          ((publishMachine.exec s (.wake [("stream", 0)] :: busyRound)).map (·.tick)) =
            some .sleeping))) = some true := by
    decide
  obtain ⟨s, hs, hfacts⟩ := Option.bind_eq_some_iff.mp hrun
  obtain ⟨hentry, hexpired, hok, hlast⟩ := of_decide_eq_true (Option.some.inj hfacts)
  obtain ⟨t, ht, hasleep⟩ := Option.map_eq_some_iff.mp hlast
  exact ⟨s, hs, (reaper_rounds hentry).1 [("stream", 0)] busyRound t hexpired ht hasleep hok⟩

end SfuServer.PublishSystem
