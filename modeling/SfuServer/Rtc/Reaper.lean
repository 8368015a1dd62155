import SfuServer.Rtc.Publish

/-!
What the reaper removes, over all runs of `publishMachine`.

The leave time of a forward is written by the callback of a publisher that left, after the
slot was emptied, and set to zero by the call of a publisher that came, after the slot was
filled.  While no such call is between its two sections, a positive leave time says that the
slot is empty and since when; this breaks where a callback is late and writes the time into
a forward that another publisher has taken meanwhile.

* `Undisturbed`: the steps that keep the leave time true, and the reaper's reading of it;
* `Safe`: the invariant of such runs;
* `reapsVacant_of_undisturbed`: the reaper closes and removes only streams whose slot has
  been empty for longer than the timeout.
-/

open Std (ExtTreeMap)

namespace SfuServer.PublishSystem

variable {s t : PublishSystem} {a : PublishAction} {i h : ℕ}

/-! ### Forwards that are being filled -/

/-- A call has filled the slot of the forward and not yet reset its leave time. -/
def Settling (s : PublishSystem) (h : ℕ) : Prop :=
  ∃ c ∈ s.calls, c.stage = .resetting ∧ c.forward = h

instance (s : PublishSystem) (h : ℕ) : Decidable (s.Settling h) :=
  inferInstanceAs (Decidable (∃ c ∈ s.calls, _))

/-- A call that fills a slot has the leave time to reset. -/
lemma settling_fill {c : PublishCall} (hst : s.step (.fill i) = some t)
    (hc : s.calls[i]? = some c) (hempty : s.forwarder.slot c.forward = none) :
    t.Settling c.forward := by
  obtain ⟨d, hd, -, hst⟩ := onCall_eq_some_iff.mp hst
  obtain ⟨p, hp, rfl⟩ := Option.map_eq_some_iff.mp hst
  obtain rfl : c = d := by simpa [hc] using hd
  rw [Forwarder.fillSlot, hempty]
  refine ⟨{ c with stage := .resetting }, ?_, rfl, rfl⟩
  exact List.mem_of_getElem? (List.getElem?_set_self (List.getElem?_eq_some_iff.mp hc).1)

/-- A forward that is being filled stays so until its leave time is reset. -/
lemma settling_step (hst : s.step a = some t) (hs : s.Settling h) :
    t.Settling h ∨ ∃ i c, a = .reset i ∧ s.calls[i]? = some c ∧ c.forward = h := by
  obtain ⟨c, hc, hstage, rfl⟩ := hs
  rcases (spec_of_step hst).calls with hcalls | ⟨i, d, d', hd, hm, hcalls⟩ | ⟨d, -, hcalls, -, -⟩
  · exact .inl ⟨c, hcalls ▸ hc, hstage, rfl⟩
  · obtain ⟨j, hj⟩ := List.mem_iff_getElem?.mp hc
    by_cases hij : i = j
    · subst hij
      obtain rfl : c = d := by simpa [hj] using hd
      have hmem : d' ∈ t.calls := List.mem_of_getElem?
        (hcalls ▸ List.getElem?_set_self (List.getElem?_eq_some_iff.mp hj).1)
      cases hm with
      | callback leave => exact .inl ⟨_, hmem, hstage, rfl⟩
      | early peer before running after => exact absurd (hstage ▸ trivial) before.not_holding
      | filled before => exact absurd (hstage.symm.trans before) (by simp)
      | reset before => exact .inr ⟨i, c, rfl, hj, rfl⟩
      | returned result before => exact absurd (hstage.symm.trans before) (by simp)
    · have hmem : c ∈ t.calls :=
        List.mem_of_getElem? (hcalls ▸ (List.getElem?_set_ne hij).trans hj)
      exact .inl ⟨c, hmem, hstage, rfl⟩
  · exact .inl ⟨c, hcalls ▸ List.mem_append_left _ hc, hstage, rfl⟩

/-- The reset of a leave time sets it to zero. -/
lemma leaveTime_reset {c : PublishCall} (hst : s.step (.reset i) = some t)
    (hc : s.calls[i]? = some c) : t.forwarder.leaveTime c.forward = 0 := by
  obtain ⟨d, hd, -, hst⟩ := onCall_eq_some_iff.mp hst
  obtain rfl : c = d := by simpa [hc] using hd
  cases hst
  simp [setCall, Forwarder.leaveTime_resetLeaveTime]

/-! ### What the reaper removes -/

/-- The slot is empty, and has been for longer than the timeout. -/
def Vacated (s : PublishSystem) (h : ℕ) : Prop :=
  s.forwarder.slot h = none ∧ (s.forwarder.publishLeaveTimeout : ℤ) < s.clock - s.emptiedAt h

/-- If the reaper closes a forward, or an entry is removed from the table, then the slot has
been empty for longer than the timeout. -/
def ReapsVacant (s : PublishSystem) (a : PublishAction) (t : PublishSystem) : Prop :=
  (∀ stream h leave todo, a = .tick → s.tick = .closing stream h leave todo → s.Vacated h) ∧
    ∀ (stream : String) (h : ℕ), s.forwarder.streamMap[stream]? = some h →
      t.forwarder.streamMap[stream]? = none → s.Vacated h

/-- The steps that keep the leave time true, and the reaper's reading of it: the callback of
a publisher writes the leave time only while the slot is empty, or filled by a call that is
yet to reset the leave time; when the reaper decides to remove a forward, the leave time
that it has read is still there, and no call is yet to reset it; and from then on no call
fills the slot. -/
def Undisturbed (s : PublishSystem) : PublishAction → Prop
  | .stamp i => ∀ c ∈ s.calls[i]?, s.forwarder.slot c.forward = none ∨ s.Settling c.forward
  | .tick => ∀ x ∈ s.tick.comparison, s.forwarder.TimedOut x.2 s.clock →
      s.forwarder.leaveTime x.1 = x.2 ∧ ¬ s.Settling x.1
  | .fill i => ∀ c ∈ s.calls[i]?, s.tick.condemned c.forward = none
  | _ => True

instance (s : PublishSystem) (a : PublishAction) : Decidable (s.Undisturbed a) :=
  match a with
  | .stamp i => inferInstanceAs (Decidable (∀ c ∈ s.calls[i]?, _))
  | .tick => inferInstanceAs (Decidable (∀ x ∈ s.tick.comparison, _))
  | .fill i => inferInstanceAs (Decidable (∀ c ∈ s.calls[i]?, _))
  | .elapse _ | .create _ | .begin _ | .check _ | .recheck _ | .negotiate .. | .reset _
  | .finish _ | .connect _ | .close _ | .clear _ | .wake _ => isTrue trivial

/-- The invariant of undisturbed runs.  `vacant` is what the leave time stands for, and
`target` what the lock on the table is for. -/
structure Safe (s : PublishSystem) : Prop where
  past : ∀ h, s.emptiedAt h ≤ s.clock
  vacant : ∀ h, 0 < s.forwarder.leaveTime h → ¬ s.Settling h →
    s.forwarder.slot h = none ∧ s.emptiedAt h ≤ s.forwarder.leaveTime h
  target : ∀ stream h, s.tick.target = some (stream, h) →
    s.forwarder.streamMap[stream]? = some h
  condemned : ∀ h leave, s.tick.condemned h = some leave →
    s.forwarder.TimedOut leave s.clock ∧ s.forwarder.slot h = none ∧ s.emptiedAt h ≤ leave

lemma safe_init (h0 : publishMachine.init s) : s.Safe := by
  obtain ⟨hf, -, htick, hpast⟩ := h0
  refine ⟨hpast, fun h hL => ?_, fun stream h hk => ?_, fun h leave hk => ?_⟩
  · rw [hf] at hL
    simp [Forwarder.leaveTime, Forwarder.new] at hL
  · simp [htick, TickState.target] at hk
  · simp [htick, TickState.condemned] at hk

lemma past_step (hs : ∀ h, s.emptiedAt h ≤ s.clock) (hst : s.step a = some t) (h : ℕ) :
    t.emptiedAt h ≤ t.clock := by
  have hclock := (spec_of_step hst).clock
  rcases emptiedAt_step hst h with he | ⟨he, -⟩
  · exact he ▸ (hs h).trans hclock
  · exact he ▸ hclock

/-- An empty slot stays empty, and its time the same, until a call fills it. -/
lemma vacant_of_not_filled {L : ℤ} (hlt : h < s.forwarder.forwards.length)
    (hv : s.forwarder.slot h = none ∧ s.emptiedAt h ≤ L) (hst : s.step a = some t)
    (hfill : ∀ i c, a = .fill i → s.calls[i]? = some c → c.forward ≠ h) :
    t.forwarder.slot h = none ∧ t.emptiedAt h ≤ L := by
  constructor
  · rcases slot_step hst h with hslot | ⟨i, c, p, rfl, hc, -, rfl, -⟩ |
      ⟨i, c, p, -, -, -, -, hslot, -⟩
    · exact hslot.trans hv.1
    · exact absurd rfl (hfill i c rfl hc)
    · exact absurd (hv.1.symm.trans hslot) (by simp)
  · rcases emptiedAt_step hst h with he | ⟨-, hle | hsome⟩
    · exact he ▸ hv.2
    · omega
    · simp [hv.1] at hsome

/-- What the leave time stands for is kept. -/
lemma vacant_step (hwf : s.Wf) (hs : s.Safe) (hok : s.Undisturbed a)
    (hst : s.step a = some t) (h : ℕ) (hL : 0 < t.forwarder.leaveTime h) (hn : ¬ t.Settling h) :
    t.forwarder.slot h = none ∧ t.emptiedAt h ≤ t.forwarder.leaveTime h := by
  -- a forward that is being filled stays so, or its leave time is zero now
  have hsettling : ¬ s.Settling h := by
    intro hset
    rcases settling_step hst hset with ht | ⟨i, c, rfl, hc, rfl⟩
    · exact hn ht
    · exact hL.ne' (leaveTime_reset hst hc)
  have hfill : ∀ i c, a = .fill i → s.calls[i]? = some c → s.forwarder.slot h = none →
      c.forward ≠ h := by
    rintro i c rfl hc hempty rfl
    exact hn (settling_fill hst hc hempty)
  rcases leaveTime_step hst h with htime | ⟨-, -, -, -, -, htime⟩ |
    ⟨i, c, rfl, hc, -, rfl, htime⟩
  · rw [htime] at hL ⊢
    have hv := hs.vacant h hL hsettling
    have hlt : h < s.forwarder.forwards.length := Forwarder.lt_of_leaveTime hL
    exact vacant_of_not_filled hlt hv hst fun i c ha hc => hfill i c ha hc hv.1
  · omega
  · -- the callback writes the leave time, and the slot is empty
    have hempty := (hok c hc).resolve_right hsettling
    have hlt := hwf.calls c (List.mem_of_getElem? hc)
    rw [htime]
    exact vacant_of_not_filled hlt ⟨hempty, hs.past _⟩ hst (by simp)

/-- A turn of the reaper, as far as the entry goes that it is about: it is about none; it looks
an entry up; it decides to remove it; or it closes its forward. -/
inductive TickTurn (s t : PublishSystem) : Prop
  | idle (target : t.tick.target = none)
  | looked (stream : String) (h : ℕ) (leave : ℤ) (todo : List String)
      (entry : s.forwarder.streamMap[stream]? = some h)
      (after : t = { s with tick := .comparing stream h leave todo })
  | decided (stream : String) (h : ℕ) (leave : ℤ) (todo : List String)
      (before : s.tick = .comparing stream h leave todo)
      (late : s.forwarder.TimedOut leave s.clock)
      (after : t = { s with tick := .closing stream h leave todo })
  | closed (stream : String) (h : ℕ) (leave : ℤ) (todo : List String)
      (before : s.tick = .closing stream h leave todo)
      (after : t = { s with
        forwarder := s.forwarder.close h, tick := .removing stream h leave todo })

lemma tick_cases (hst : s.step .tick = some t) : s.TickTurn t := by
  simp only [step, tickStep] at hst
  split at hst
  · cases hst
  · cases hst
    refine .idle ?_
    dsimp only
    split_ifs <;> rfl
  · cases hst
    exact .idle rfl
  · cases hst
    exact .idle rfl
  · cases hst
    exact .idle rfl
  · cases hst
    exact .idle rfl
  · split at hst
    · cases hst
      exact .idle rfl
    · rename_i hmap
      cases hst
      exact .looked _ _ _ _ hmap rfl
  · rename_i htick
    split_ifs at hst with hout
    · cases hst
      exact .decided _ _ _ _ htick hout rfl
    · cases hst
      exact .idle rfl
  · rename_i htick
    cases hst
    exact .closed _ _ _ _ htick rfl
  · cases hst
    exact .idle rfl

/-- The table has what the reaper has looked up. -/
lemma target_step (hs : s.Safe) (hst : s.step a = some t) (stream : String) (h : ℕ)
    (hk : t.tick.target = some (stream, h)) : t.forwarder.streamMap[stream]? = some h := by
  by_cases ha : a = .tick
  · subst ha
    cases tick_cases hst with
    | idle target =>
        rw [target] at hk
        cases hk
    | looked stream k leave todo entry after =>
        subst after
        cases hk
        exact entry
    | decided stream k leave todo before late after =>
        subst after
        cases hk
        exact hs.target stream h (by rw [before]; rfl)
    | closed stream k leave todo before after =>
        subst after
        cases hk
        simpa using hs.target stream h (by rw [before]; rfl)
  · rw [((spec_of_step hst).round ha).1] at hk
    have hentry := hs.target stream h hk
    rcases streamMap_step hst stream with hmap | ⟨hw, -⟩ | ⟨rfl, -⟩
    · exact hmap.trans hentry
    · exact absurd hw (TickState.not_writable_of_target hk)
    · exact absurd rfl ha

/-- What the reaper has decided to remove stays empty. -/
lemma condemned_step (hwf : s.Wf) (hs : s.Safe) (hok : s.Undisturbed a)
    (hst : s.step a = some t) (h : ℕ) (leave : ℤ) (hk : t.tick.condemned h = some leave) :
    t.forwarder.TimedOut leave t.clock ∧ t.forwarder.slot h = none ∧ t.emptiedAt h ≤ leave := by
  have ⟨_, _, hclock, htimeout, hround⟩ := spec_of_step hst
  have hlate : s.forwarder.TimedOut leave s.clock → t.forwarder.TimedOut leave t.clock := by
    rintro ⟨hpos, hlate⟩
    exact ⟨hpos, by rw [htimeout]; omega⟩
  -- it was decided before, or it is decided now on a leave time that is true
  have hbefore : (∃ stream, s.tick.target = some (stream, h)) ∧
      s.forwarder.TimedOut leave s.clock ∧ s.forwarder.slot h = none ∧
        s.emptiedAt h ≤ leave := by
    by_cases ha : a = .tick
    · subst ha
      cases tick_cases hst with
      | idle target =>
          obtain ⟨stream, htarget⟩ := TickState.exists_target_of_condemned hk
          rw [target] at htarget
          cases htarget
      | looked stream k leave' todo entry after =>
          subst after
          cases hk
      | decided stream k leave' todo before late after =>
          subst after
          simp only [TickState.condemned, Option.ite_none_right_eq_some, Option.some.injEq] at hk
          obtain ⟨rfl, rfl⟩ := hk
          obtain ⟨htime, hset⟩ := hok (k, leave') (by rw [before]; rfl) late
          dsimp only at htime hset
          have hv := hs.vacant k (htime ▸ late.1) hset
          exact ⟨⟨stream, by rw [before]; rfl⟩, late, hv.1, htime ▸ hv.2⟩
      | closed stream k leave' todo before after =>
          subst after
          have hold : s.tick.condemned h = some leave := by rw [before]; exact hk
          exact ⟨TickState.exists_target_of_condemned hold, hs.condemned h leave hold⟩
    · have hold : s.tick.condemned h = some leave := (hround ha).2 h ▸ hk
      exact ⟨TickState.exists_target_of_condemned hold, hs.condemned h leave hold⟩
  obtain ⟨⟨stream, htarget⟩, hout, hv⟩ := hbefore
  refine ⟨hlate hout, vacant_of_not_filled ?_ hv hst ?_⟩
  · exact hwf.table stream h (hs.target stream h htarget)
  · rintro i c rfl hc rfl
    have hnone := hok c hc
    rw [((hround (by simp)).2 _).symm.trans hk] at hnone
    cases hnone

lemma safe_step (hwf : s.Wf) (hs : s.Safe) (hok : s.Undisturbed a) (hst : s.step a = some t) :
    t.Safe where
  past := past_step hs.past hst
  vacant := vacant_step hwf hs hok hst
  target := target_step hs hst
  condemned := condemned_step hwf hs hok hst

/-- A decision of the reaper is right. -/
lemma Safe.vacated {leave : ℤ} (hs : s.Safe) (hk : s.tick.condemned h = some leave) :
    s.Vacated h := by
  obtain ⟨hout, hempty, hle⟩ := hs.condemned h leave hk
  have hlate := hout.2
  exact ⟨hempty, by omega⟩

lemma Safe.reapsVacant (hs : s.Safe) (hst : s.step a = some t) : ReapsVacant s a t := by
  constructor
  · rintro stream h leave todo - htick
    have hk : s.tick.condemned h = some leave := by simp [htick, TickState.condemned]
    exact hs.vacated hk
  · intro stream h hsome hnone
    rcases streamMap_step hst stream with hmap | ⟨-, hs'⟩ | ⟨rfl, k, leave, todo, htick⟩
    · exact absurd (hsome.symm.trans (hmap.symm.trans hnone)) (by simp)
    · exact absurd (hsome.symm.trans hs') (by simp)
    · -- the entry that goes is the one that was looked up
      have htarget := hs.target stream k (by rw [htick]; rfl)
      obtain rfl : h = k := by simpa [hsome] using htarget
      have hk : s.tick.condemned h = some leave := by simp [htick, TickState.condemned]
      exact hs.vacated hk

/-- **The reaper is safe** in undisturbed runs: whenever it closes a forward, and whenever an
entry goes from the table, the slot is empty and has been for longer than the timeout. -/
theorem reapsVacant_of_undisturbed {s : PublishSystem} {as : List PublishAction}
    (h0 : publishMachine.init s) (hok : publishMachine.Guarded Undisturbed s as) :
    publishMachine.Along ReapsVacant s as := by
  refine Machine.along_of_guarded (I := fun s : PublishSystem => s.Wf ∧ s.Safe) ?_
    ⟨wf_init h0, safe_init h0⟩ hok
  rintro r a t ⟨hwf, hs⟩ hok hst
  exact ⟨⟨wf_step hwf hst, safe_step hwf hs hok hst⟩, hs.reapsVacant hst⟩

/-- A publisher leaves, and its stream is removed after the timeout. -/
theorem reapsVacant_unused :
    publishMachine.Along ReapsVacant unused
      (negotiates 0 "stream" ++ publishes 0 ++ leaves 0 ++ [.stamp 0, .elapse 6] ++
        round "stream" ++ [.tick, .tick]) :=
  reapsVacant_of_undisturbed init_unused (by decide)

/-- The callback of a publisher that left is late, and writes the leave time when another
publisher is in the slot: the reaper closes that publisher, and removes its stream. -/
theorem not_reapsVacant_unused :
    ¬ ∀ (s : PublishSystem) (as : List PublishAction), publishMachine.init s →
      publishMachine.Along ReapsVacant s as := by
  intro h
  have hlast := (h unused (negotiates 0 "stream" ++ publishes 0 ++ leaves 0 ++
    negotiates 1 "stream" ++ publishes 1 ++ [.stamp 0, .elapse 6] ++ round "stream" ++ [.tick] ++
    [.tick]) init_unused).last rfl rfl
  exact absurd (hlast.2 "stream" 0 rfl rfl).1 (by decide)

end SfuServer.PublishSystem
