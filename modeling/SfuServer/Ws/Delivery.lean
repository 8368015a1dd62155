import SfuServer.Lib.Machine
import SfuServer.Ws.Group

/-!
A WebSocket group over runs: joins, leaves, broadcasts and the turns of the pipes, in any
order.

`Group::join` and `Group::leave` hold the lock on the members from their first line to their
last, so each is one step.  The pipes and those who broadcast take no lock, and their turns
come between.  A pipe that is aborted may be in the middle of its work: it goes on until the abort
takes effect, which is a step of its own.

* `GroupSystem`, `GroupAction`, `groupMachine`: the group, with what each pipe has forwarded,
  and what can happen;
* `Represents`: the lists, the tables and the counter of a group agree;
* `represents_of_reachable`: they do so in every reachable state, a leave of a stranger
  changes nothing, and a member that goes is announced by one frame;
* `Delivered`: what a pipe has forwarded is an initial part of what was sent to its user;
* `delivered_of_keepsUp`: so it is in every run in which the pipes keep up, and no pipe takes a turn
  after its abort has taken effect.
-/

open Std (ExtTreeMap)

namespace SfuServer

open Endian

/-- A group over time.  The last two are not in the source: for each task, how much had been
sent to the group when it was spawned, and the frames that its pipe has forwarded. -/
structure GroupSystem where
  group : Group
  joinedAt : ℕ → ℕ
  piped : ℕ → List Bytes

/-- What can happen: a user joins or leaves, a frame is sent to the group or to a user's
channel, a connection subscribes to a user's channel, reads from it or drops its receiver,
a pipe takes a turn, and the abort of a pipe takes effect. -/
inductive GroupAction where
  | join (user : UInt32) (capacity : Option ℕ)
  | leave (user : UInt32)
  | broadcast (typ : UInt8) (sender : UInt32) (payload : Bytes)
  | unicast (k : ℕ) (frame : Bytes)
  | subscribe (k r : ℕ)
  | receive (k r : ℕ)
  | unsubscribe (k r : ℕ)
  | pipe (k : ℕ)
  | cancel (k : ℕ)

namespace GroupSystem

/-- A step that changes the group only. -/
def setGroup (s : GroupSystem) (g : Group) : GroupSystem := { s with group := g }

@[simp] lemma setGroup_group (s : GroupSystem) (g : Group) : (s.setGroup g).group = g := rfl

/-- What was sent on the user's channel with handle `k`. -/
def channelLog (g : Group) (k : ℕ) : List Bytes :=
  match g.tasks[k]? with
  | some t => t.userSender.log
  | none => []

/-- A turn of a pipe; what it adds to the user's channel is noted. -/
def pipeStep (s : GroupSystem) (k : ℕ) : Option GroupSystem :=
  (s.group.pipeStep k).map fun g =>
    { s with
      group := g
      piped := Function.update s.piped k
        (s.piped k ++ (channelLog g k).drop (channelLog s.group k).length) }

/-- One step of the system. -/
def step (s : GroupSystem) : GroupAction → Option GroupSystem
  | .join user capacity => some { s with
      group := s.group.join user capacity
      joinedAt := Function.update s.joinedAt s.group.tasks.length s.group.tx.log.length }
  | .leave user => some (s.setGroup (s.group.leave user))
  | .broadcast typ sender payload => some (s.setGroup { s.group with
      tx := s.group.tx.sendIgnore (header typ sender ++ payload) })
  | .unicast k frame => some (s.setGroup (s.group.mapChannel k fun c => c.sendIgnore frame))
  | .subscribe k r => some (s.setGroup (s.group.mapChannel k fun c => c.subscribe r))
  | .receive k r => some (s.setGroup (s.group.mapChannel k fun c => (c.recv r).2))
  | .unsubscribe k r => some (s.setGroup (s.group.mapChannel k fun c => c.unsubscribe r))
  | .pipe k => s.pipeStep k
  | .cancel k => (s.group.cancelPipe k).map s.setGroup

end GroupSystem

/-- The machine of a group: it starts without members. -/
def groupMachine : Machine GroupSystem GroupAction where
  init s := ∃ name capacity, s = ⟨.new name capacity, fun _ => 0, fun _ => []⟩
  step := GroupSystem.step

namespace Group

variable {g g' : Group} {u v : UInt32}

/-! ### The counter and the members -/

/-- The counter counts the members, as far as it goes. -/
def Counted (g : Group) : Prop := g.userCount = UInt32.ofNat g.innerUser.length

lemma Counted.join (hg : g.Counted) (user : UInt32) (capacity : Option ℕ) :
    (g.join user capacity).Counted := by
  have hmem : ∀ g₀ : Group, g₀.userCount = (if user ∈ g.innerUser then g.userCount
      else g.userCount + 1) → g₀.innerUser = (if user ∈ g.innerUser then g.innerUser
      else g.innerUser ++ [user]) → g₀.Counted := by
    intro g₀ hcount hinner
    rw [Counted, hcount, hinner, hg]
    split_ifs
    · rfl
    · rw [List.length_append, List.length_singleton, UInt32.ofNat_add]
      rfl
  rw [Group.join]
  dsimp only
  split <;> exact hmem _ (by split_ifs <;> rfl) (by split_ifs <;> rfl)

lemma Counted.leave (hg : g.Counted) (user : UInt32) : (g.leave user).Counted := by
  by_cases hu : user ∈ g.innerUser
  · have hlt := List.idxOf_lt_length_iff.mpr hu
    have hlen : (Vec.swapRemove g.innerUser (g.innerUser.idxOf user)).length + 1 =
        g.innerUser.length := by
      rw [(Vec.swapRemove_perm hlt).length_eq, List.length_eraseIdx_of_lt hlt]
      omega
    have hcount : g.userCount - 1 =
        UInt32.ofNat (Vec.swapRemove g.innerUser (g.innerUser.idxOf user)).length := by
      rw [hg, ← hlen, UInt32.ofNat_add]
      simp
    rw [Group.leave, if_pos hu]
    dsimp only
    split
    · exact hcount
    · exact hcount
  · rw [Group.leave, if_neg hu]
    exact hg

/-- The parts of a group that stand for its members: they are listed once, the counter counts
them as far as it goes, and they are the ones with a task and with a sender.  The counter is
zero also where every id is a member. -/
structure Represents (g : Group) : Prop where
  nodup : g.innerUser.Nodup
  count : g.userCount = UInt32.ofNat g.innerUser.length
  tasks : ∀ u, u ∈ g.userTasks ↔ u ∈ g.innerUser
  senders : ∀ u, u ∈ g.userSenders ↔ u ∈ g.innerUser
  isEmpty : g.isEmpty = true ↔ g.innerUser = [] ∨ ∀ u, u ∈ g.innerUser

/-- A list of ids without duplicates has at most `2 ^ 32` of them, and with so many it has
them all. -/
lemma length_le_of_nodup {us : List UInt32} (hnd : us.Nodup) :
    us.length ≤ 2 ^ 32 ∧ (us.length = 2 ^ 32 ↔ ∀ u, u ∈ us) := by
  have hmap : (us.map UInt32.toNat).Nodup := hnd.map fun _ _ => UInt32.toNat_inj.mp
  have hsub : us.map UInt32.toNat ⊆ List.range (2 ^ 32) := by
    intro n hn
    obtain ⟨u, -, rfl⟩ := List.mem_map.mp hn
    exact List.mem_range.mpr u.toNat_lt
  have hsubperm := List.subperm_of_subset hmap hsub
  have hle := hsubperm.length_le
  rw [List.length_map, List.length_range] at hle
  refine ⟨hle, fun hlen u => ?_, fun hall => ?_⟩
  · have hperm : (us.map UInt32.toNat).Perm (List.range (2 ^ 32)) :=
      hsubperm.perm_of_length_le (by rw [List.length_map, List.length_range, hlen])
    obtain ⟨v, hv, hvu⟩ := List.mem_map.mp
      (hperm.mem_iff.mpr (List.mem_range.mpr u.toNat_lt))
    exact UInt32.toNat_inj.mp hvu ▸ hv
  · have hperm : (us.map UInt32.toNat).Perm (List.range (2 ^ 32)) := by
      refine (List.perm_ext_iff_of_nodup hmap List.nodup_range).mpr fun n => ?_
      rw [List.mem_range]
      refine ⟨fun hn => List.mem_range.mp (hsub hn), fun hn => ?_⟩
      exact List.mem_map.mpr ⟨UInt32.ofNat n, hall _, UInt32.toNat_ofNat_of_lt' hn⟩
    have hlen := hperm.length_eq
    rwa [List.length_map, List.length_range] at hlen

lemma Wf.represents (hg : g.Wf) (hcount : g.Counted) : g.Represents where
  nodup := hg.nodup
  count := hcount
  tasks u := (hg.mem_iff u).symm
  senders u := by
    rw [ExtTreeMap.mem_iff_isSome_getElem?, hg.senders, ← ExtTreeMap.mem_iff_isSome_getElem?,
      hg.mem_iff]
  isEmpty := by
    obtain ⟨hle, hall⟩ := length_le_of_nodup hg.nodup
    rw [isEmpty, beq_iff_eq, hcount, ← hall, ← List.length_eq_zero_iff, ← UInt32.toNat_inj,
      UInt32.toNat_ofNat']
    simp only [UInt32.toNat_zero]
    omega

/-- The group `g'` is `g` after the user has gone: the pipe of the user aborted, its sender
taken out, and then one frame sent to the group. -/
def Closed (g : Group) (u : UInt32) (g' : Group) : Prop :=
  ∃ g₁ : Group, g₁.tx.log = g.tx.log ∧ u ∉ g₁.userSenders ∧
    (∀ (k : ℕ) (t : UserTask), g.userTasks[u]? = some k → g₁.tasks[k]? = some t →
      t.broadcastPipe = .running → t.aborting = true) ∧
    g' = { g₁ with tx := g₁.tx.sendIgnore (2 :: (leBytes u ++ leBytes u)) }

@[simp] lemma stopPipe_userCount (g : Group) (k : ℕ) (status : TaskStatus) :
    (g.stopPipe k status).userCount = g.userCount := by
  rw [stopPipe]
  split
  · rfl
  · split_ifs <;> rfl

@[simp] lemma log_stopPipe (g : Group) (k : ℕ) (status : TaskStatus) :
    (g.stopPipe k status).tx.log = g.tx.log := by
  rw [stopPipe]
  split
  · rfl
  · split_ifs <;> rfl

@[simp] lemma length_tasks_stopPipe (g : Group) (k : ℕ) (status : TaskStatus) :
    (g.stopPipe k status).tasks.length = g.tasks.length := by
  rw [stopPipe]
  split
  · rfl
  · split_ifs
    · exact List.length_set ..
    · rfl

/-- A member that leaves is closed. -/
lemma closed_leave (hu : u ∈ g.innerUser) : Closed g u (g.leave u) := by
  rw [Group.leave, if_pos hu]
  dsimp only
  cases hk : g.userTasks[u]? with
  | none =>
      refine ⟨{ g with
        innerUser := Vec.swapRemove g.innerUser (g.innerUser.idxOf u)
        userCount := g.userCount - 1
        userSenders := g.userSenders.erase u }, rfl, by simp, ?_, rfl⟩
      simp [hk]
  | some k =>
      let g₀ : Group := { g with
        innerUser := Vec.swapRemove g.innerUser (g.innerUser.idxOf u)
        userCount := g.userCount - 1 }
      refine ⟨{ g₀.abortPipe k with
        userTasks := g.userTasks.erase u
        userSenders := g.userSenders.erase u }, rfl, by simp, ?_, rfl⟩
      rintro j t hj ht hrun
      obtain rfl : k = j := by simpa [hk] using hj
      have ht' : (g₀.abortPipe k).tasks[k]? = some t := ht
      rw [tasks_abortPipe] at ht'
      obtain ⟨t₀, -, rfl⟩ := Option.map_eq_some_iff.mp ht'
      by_cases hrun₀ : t₀.broadcastPipe = .running
      · simp [hrun₀]
      · simp [hrun₀] at hrun

end Group

namespace GroupSystem

variable {s t : GroupSystem} {a : GroupAction}

/-- What every step keeps. -/
structure Wf (s : GroupSystem) : Prop where
  group : s.group.Wf
  counted : s.group.Counted
  whole : s.group.FramesWhole

lemma wf_init (h0 : groupMachine.init s) : s.Wf := by
  obtain ⟨name, capacity, rfl⟩ := h0
  exact ⟨Group.wf_new name capacity, rfl, by simp [Group.FramesWhole, Group.new]⟩

/-- What a step does to the members. -/
lemma innerUser_step (hst : s.step a = some t) :
    (t.group.innerUser = s.group.innerUser ∧ t.group.userCount = s.group.userCount) ∨
      (∃ user capacity, a = .join user capacity ∧ t.group = s.group.join user capacity) ∨
      ∃ user, a = .leave user ∧ t.group = s.group.leave user := by
  cases a with
  | join user capacity =>
      cases hst
      exact .inr (.inl ⟨user, capacity, rfl, rfl⟩)
  | leave user =>
      cases hst
      exact .inr (.inr ⟨user, rfl, rfl⟩)
  | broadcast typ sender payload =>
      cases hst
      exact .inl ⟨rfl, rfl⟩
  | unicast k frame | subscribe k r | receive k r | unsubscribe k r =>
      cases hst
      exact .inl ⟨rfl, rfl⟩
  | pipe k =>
      obtain ⟨g, hg, rfl⟩ := Option.map_eq_some_iff.mp hst
      refine .inl ?_
      obtain ⟨p, -, -, ⟨-, rfl | rfl⟩ | ⟨-, rfl | ⟨f, rfl⟩⟩⟩ := Group.pipeStep_cases hg
      · exact ⟨Group.stopPipe_innerUser .., Group.stopPipe_userCount ..⟩
      · exact ⟨Group.stopPipe_innerUser .., Group.stopPipe_userCount ..⟩
      · exact ⟨rfl, rfl⟩
      · exact ⟨rfl, rfl⟩
  | cancel k =>
      obtain ⟨g, hg, rfl⟩ := Option.map_eq_some_iff.mp hst
      obtain ⟨p, -, -, rfl⟩ := Group.cancelPipe_eq_some_iff.mp hg
      exact .inl ⟨Group.stopPipe_innerUser .., Group.stopPipe_userCount ..⟩

lemma wf_step (hs : s.Wf) (hst : s.step a = some t) : t.Wf := by
  have hcounted : t.group.Counted := by
    rcases innerUser_step hst with ⟨hinner, hcount⟩ | ⟨user, capacity, -, hg⟩ | ⟨user, -, hg⟩
    · rw [Group.Counted, hcount, hinner]
      exact hs.counted
    · exact hg ▸ hs.counted.join user capacity
    · exact hg ▸ hs.counted.leave user
  cases a with
  | join user capacity =>
      cases hst
      exact ⟨hs.group.join user capacity, hcounted, hs.whole.join user capacity⟩
  | leave user =>
      cases hst
      exact ⟨hs.group.leave user, hcounted, hs.whole.leave user⟩
  | broadcast typ sender payload =>
      cases hst
      refine ⟨hs.group.setTx fun k => Broadcast.live_sendIgnore .., hcounted, ?_⟩
      exact Group.whole_sendIgnore hs.whole (by simp)
  | unicast k frame | subscribe k r | receive k r | unsubscribe k r =>
      cases hst
      refine ⟨?_, hcounted, hs.whole⟩
      rw [setGroup_group]
      exact hs.group.mapChannel k _
  | pipe k =>
      obtain ⟨g, hg, rfl⟩ := Option.map_eq_some_iff.mp hst
      exact ⟨hs.group.pipeStep hg, hcounted, hs.whole.pipeStep hg⟩
  | cancel k =>
      obtain ⟨g, hg, rfl⟩ := Option.map_eq_some_iff.mp hst
      exact ⟨hs.group.cancelPipe hg, hcounted, hs.whole.cancelPipe hg⟩

lemma wf_of_reachable (hr : groupMachine.Reachable s) : s.Wf :=
  hr.invariant (fun _ h0 => wf_init h0) fun _ _ _ hs hst => wf_step hs hst

/-- **The representation of a group**: in every reachable state the parts of a group agree on
its members; a stranger that leaves changes nothing; and a user that is a member before a
step and not after it has left in that step, which aborted its pipe, took out its sender and
then sent its one close frame. -/
theorem represents_of_reachable (hr : groupMachine.Reachable s) :
    s.group.Represents ∧
      (∀ u, u ∉ s.group.innerUser → s.group.leave u = s.group) ∧
      ∀ (a : GroupAction) (t : GroupSystem), groupMachine.step s a = some t →
        ∀ u ∈ s.group.innerUser, u ∉ t.group.innerUser →
          a = .leave u ∧ Group.Closed s.group u t.group := by
  have hs := wf_of_reachable hr
  refine ⟨hs.group.represents hs.counted, fun u hu => Group.leave_of_not_mem hu, ?_⟩
  intro a t hst u hu hnot
  rcases innerUser_step hst with ⟨hinner, -⟩ | ⟨user, capacity, -, hg⟩ | ⟨user, rfl, hg⟩
  · exact absurd (hinner ▸ hu) hnot
  · rw [hg, Group.mem_innerUser_join] at hnot
    exact absurd (.inr hu) hnot
  · rw [hg, Group.mem_innerUser_leave hs.group.nodup, not_and_not_right] at hnot
    obtain rfl := hnot hu
    exact ⟨rfl, hg ▸ Group.closed_leave hu⟩

/-- A new group. -/
def stream : GroupSystem := ⟨.new "stream" none, fun _ => 0, fun _ => []⟩

/-- Users that come and go, one of them twice. -/
def comings : List GroupAction :=
  [.join 1 none, .join 2 none, .join 1 none, .leave 1, .leave 1, .join 3 none]

/-- The group after that. -/
theorem represents_comings :
    ∃ s, groupMachine.exec stream comings = some s ∧ s.group.Represents :=
  ⟨_, rfl, (represents_of_reachable ⟨stream, comings, ⟨"stream", none, rfl⟩, rfl⟩).1⟩

/-! ### A group of everybody -/

/-- Users that join one after the other. -/
def joins (us : List UInt32) : List GroupAction := us.map fun u => .join u none

/-- Users that join one after the other are members in the end. -/
lemma exec_joins (us : List UInt32) (s : GroupSystem) :
    ∃ t, groupMachine.exec s (joins us) = some t ∧ ∀ u, u ∈ us ∨ u ∈ s.group.innerUser →
      u ∈ t.group.innerUser := by
  induction us generalizing s with
  | nil => exact ⟨s, rfl, by simp⟩
  | cons v us ih =>
      let r : GroupSystem := { s with
        group := s.group.join v none
        joinedAt := Function.update s.joinedAt s.group.tasks.length s.group.tx.log.length }
      obtain ⟨t, ht, hmem⟩ := ih r
      have hjoin : groupMachine.step s (.join v none) = some r := rfl
      refine ⟨t, Machine.exec_step hjoin ht, fun u hu => hmem u ?_⟩
      simp only [List.mem_cons] at hu
      simp only [r, Group.mem_innerUser_join]
      tauto

/-- When everybody has joined, the counter is at zero again and the group is taken for one
without members. -/
theorem not_isEmpty_iff_everybody :
    ¬ ∀ s : GroupSystem, groupMachine.Reachable s →
      (s.group.isEmpty = true ↔ s.group.innerUser = []) := by
  intro h
  obtain ⟨t, ht, hmem⟩ := exec_joins ((List.range (2 ^ 32)).map UInt32.ofNat) stream
  have hall : ∀ u, u ∈ t.group.innerUser := fun u => by
    refine hmem u (.inl (List.mem_map.mpr ⟨u.toNat, List.mem_range.mpr u.toNat_lt, ?_⟩))
    exact UInt32.ofNat_toNat
  have hr : groupMachine.Reachable t := ⟨_, _, ⟨"stream", none, rfl⟩, ht⟩
  have hs := wf_of_reachable hr
  have hnil := (h t hr).mp ((hs.group.represents hs.counted).isEmpty.mpr (.inr hall))
  have hzero := hall 0
  rw [hnil] at hzero
  exact List.not_mem_nil hzero

/-! ### What the pipes forward -/

end GroupSystem

namespace Group

variable {g g' g'' : Group} {k : ℕ} {status : TaskStatus}

/-- A step after which no pipe is further than before: what was sent stays, and the pipes
that run are where they were, and were told to end if they had been. -/
structure Steady (g g' : Group) : Prop where
  log : g.tx.log <+: g'.tx.log
  task : ∀ (k : ℕ) (t' : UserTask), g'.tasks[k]? = some t' → ∃ t, g.tasks[k]? = some t ∧
    t.user = t'.user ∧ t.userSender.log <+: t'.userSender.log ∧
      (t'.broadcastPipe = .running → t.broadcastPipe = .running ∧
        (t'.aborting = false → t.aborting = false) ∧ g'.tx.cursors[k]? = g.tx.cursors[k]?)

lemma Steady.refl (g : Group) : Steady g g where
  log := List.prefix_rfl
  task _ t ht := ⟨t, ht, rfl, List.prefix_rfl, fun hr => ⟨hr, id, rfl⟩⟩

lemma Steady.trans (h : Steady g g') (h' : Steady g' g'') : Steady g g'' where
  log := h.log.trans h'.log
  task k t'' ht'' := by
    obtain ⟨t', ht', hu', hlog', hr'⟩ := h'.task k t'' ht''
    obtain ⟨t, ht, hu, hlog, hr⟩ := h.task k t' ht'
    refine ⟨t, ht, hu.trans hu', hlog.trans hlog', fun hrun => ?_⟩
    obtain ⟨hrun', hgoes', hcur'⟩ := hr' hrun
    obtain ⟨hrun₀, hgoes, hcur⟩ := hr hrun'
    exact ⟨hrun₀, hgoes ∘ hgoes', hcur'.trans hcur⟩

/-- A group with the same tasks, on whose channel more was sent. -/
lemma steady_of_tasks_eq (htasks : g'.tasks = g.tasks) (hlog : g.tx.log <+: g'.tx.log)
    (hcur : g'.tx.cursors = g.tx.cursors) : Steady g g' where
  log := hlog
  task _ t ht := ⟨t, htasks ▸ ht, rfl, List.prefix_rfl, fun hr => ⟨hr, id, by rw [hcur]⟩⟩

lemma cursors_stopPipe_of_ne (g : Group) {j : ℕ} (hne : j ≠ k) :
    (g.stopPipe k status).tx.cursors[j]? = g.tx.cursors[j]? := by
  rw [stopPipe]
  split
  · rfl
  · split_ifs
    · exact Broadcast.cursors_unsubscribe_of_ne _ _ _ hne
    · rfl

lemma steady_stopPipe (hs : status ≠ .running) : Steady g (g.stopPipe k status) where
  log := by rw [log_stopPipe]
  task j t' ht' := by
    rw [tasks_stopPipe] at ht'
    obtain ⟨t, ht, rfl⟩ := Option.map_eq_some_iff.mp ht'
    refine ⟨t, ht, by split_ifs <;> rfl, by split_ifs <;> rfl, fun hr => ?_⟩
    split_ifs at hr with hj
    · exact absurd hr hs
    · have hne : j ≠ k := fun h => hj ⟨h, hr⟩
      exact ⟨hr, fun hgoes => by rwa [if_neg hj] at hgoes, cursors_stopPipe_of_ne _ hne⟩

/-- What the pipe that ends has read does not matter. -/
lemma steady_recv_stopPipe (hs : status ≠ .running) :
    Steady g ({ g with tx := (g.tx.recv k).2 }.stopPipe k status) where
  log := by rw [log_stopPipe, Broadcast.recv_log]
  task j t' ht' := by
    rw [tasks_stopPipe] at ht'
    obtain ⟨t, ht, rfl⟩ := Option.map_eq_some_iff.mp ht'
    refine ⟨t, ht, by split_ifs <;> rfl, by split_ifs <;> rfl, fun hr => ?_⟩
    split_ifs at hr with hj
    · exact absurd hr hs
    · have hne : j ≠ k := fun h => hj ⟨h, hr⟩
      refine ⟨hr, fun hgoes => by rwa [if_neg hj] at hgoes, ?_⟩
      rw [cursors_stopPipe_of_ne _ hne, Broadcast.cursors_recv_of_ne _ _ _ hne]

lemma steady_abortPipe : Steady g (g.abortPipe k) where
  log := List.prefix_rfl
  task j t' ht' := by
    rw [tasks_abortPipe] at ht'
    obtain ⟨t, ht, rfl⟩ := Option.map_eq_some_iff.mp ht'
    refine ⟨t, ht, by split_ifs <;> rfl, by split_ifs <;> rfl, fun hr => ?_⟩
    split_ifs at hr with hj
    · exact ⟨hr, fun hgoes => by simp [hj] at hgoes, rfl⟩
    · exact ⟨hr, fun hgoes => by rwa [if_neg hj] at hgoes, rfl⟩

lemma steady_mapChannel {f : Broadcast Bytes → Broadcast Bytes}
    (hf : ∀ c, c.log <+: (f c).log) : Steady g (g.mapChannel k f) where
  log := List.prefix_rfl
  task j t' ht' := by
    rw [tasks_mapChannel] at ht'
    obtain ⟨t, ht, rfl⟩ := Option.map_eq_some_iff.mp ht'
    refine ⟨t, ht, by split_ifs <;> rfl, ?_, fun hr => ⟨?_, fun hgoes => ?_, rfl⟩⟩
    · split_ifs
      · exact hf t.userSender
      · exact List.prefix_rfl
    · split_ifs at hr <;> exact hr
    · split_ifs at hgoes <;> exact hgoes

lemma steady_leave (user : UInt32) : Steady g (g.leave user) := by
  rw [leave]
  split_ifs
  · let g₀ : Group := { g with
      innerUser := Vec.swapRemove g.innerUser (g.innerUser.idxOf user)
      userCount := g.userCount - 1 }
    have h₀ : Steady g g₀ := steady_of_tasks_eq rfl List.prefix_rfl rfl
    dsimp only
    split
    · rename_i k hk
      have habort : Steady g (g₀.abortPipe k) := h₀.trans steady_abortPipe
      exact habort.trans (steady_of_tasks_eq rfl (Broadcast.log_prefix_sendIgnore ..)
        (Broadcast.sendIgnore_cursors ..))
    · exact h₀.trans (steady_of_tasks_eq rfl (Broadcast.log_prefix_sendIgnore ..)
        (Broadcast.sendIgnore_cursors ..))
  · exact .refl g

/-- A join leaves the tasks as they are, or adds one for the user, which will read what is
sent from now on. -/
lemma join_cases (g : Group) (user : UInt32) (capacity : Option ℕ) :
    ((g.join user capacity).tasks = g.tasks ∧ (g.join user capacity).tx = g.tx ∧
      (g.join user capacity).userTasks = g.userTasks) ∨
    (g.userTasks[user]? = none ∧ (g.join user capacity).tasks =
        g.tasks ++ [⟨user, Broadcast.new (capacity.getD 64), .running, false⟩] ∧
      (g.join user capacity).tx = g.tx.subscribe g.tasks.length ∧
      (g.join user capacity).userTasks = g.userTasks.insert user g.tasks.length) := by
  rw [join]
  by_cases hu : user ∈ g.innerUser
  · simp only [hu, if_true]
    cases hk : g.userTasks[user]? with
    | some k => exact .inl ⟨rfl, rfl, rfl⟩
    | none => exact .inr ⟨rfl, rfl, rfl, rfl⟩
  · simp only [hu, if_false]
    cases hk : g.userTasks[user]? with
    | some k => exact .inl ⟨rfl, rfl, rfl⟩
    | none => exact .inr ⟨rfl, rfl, rfl, rfl⟩

/-- What a turn of a pipe does that keeps up: it reads the next frame, skips it if it is the
user's own, and puts it on the user's channel otherwise. -/
lemma pipeStep_of_keepsUp (hwhole : g.FramesWhole) (hk : g.PipeKeepsUp k)
    (h : g.pipeStep k = some g') :
    ∃ t data, g.tasks[k]? = some t ∧ t.broadcastPipe = .running ∧
      (g.tx.recv k).1 = .message data ∧
        ((frameSender data = t.user ∧ g' = { g with tx := (g.tx.recv k).2 }) ∨
          (frameSender data ≠ t.user ∧ g' = { g with tx := (g.tx.recv k).2 }.mapChannel k
            fun _ => t.userSender.push data)) := by
  rw [pipeStep] at h
  split at h
  · cases h
  · rename_i t ht
    split_ifs at h with hr
    split at h
    · cases h
    · rename_i missed tx hrecv
      have hlag := (g.tx.recv_fst_eq_lagged_iff k).mp ⟨missed, by rw [hrecv]⟩
      exact absurd hk.1 (by omega)
    · rename_i data tx hrecv
      have htx : tx = (g.tx.recv k).2 := by rw [hrecv]
      have hdata : (g.tx.recv k).1 = .message data := by rw [hrecv]
      subst htx
      have hlen := hwhole data (g.tx.mem_log_of_recv hdata)
      rw [if_neg (by omega)] at h
      refine ⟨t, data, ht, hr, hdata, ?_⟩
      split_ifs at h with hown
      · exact .inl ⟨hown, (Option.some.inj h).symm⟩
      · refine .inr ⟨hown, ?_⟩
        have hsend : t.userSender.send data = some (t.userSender.push data) :=
          (Broadcast.send_eq_some_iff _ _).mpr ⟨hk.2 t data ht hdata hown, rfl⟩
        rw [hsend] at h
        exact (Option.some.inj h).symm

end Group

namespace GroupSystem

variable {s t : GroupSystem} {a : GroupAction} {k : ℕ}

/-- The frames that were sent to the group since the task was spawned, but for the user's
own. -/
def sentTo (s : GroupSystem) (k : ℕ) (user : UInt32) : List Bytes :=
  (s.group.tx.log.drop (s.joinedAt k)).filter fun data => Group.frameSender data ≠ user

/-- What a pipe has forwarded is an initial part of what was sent to its user since the join,
in the same order, and all of it once the pipe of a member has nothing to read; it is on the user's
channel; and only the pipe of a member takes turns, one for each, and a pipe that was aborted. -/
structure Delivered (s : GroupSystem) : Prop where
  ordered : ∀ (k : ℕ) (task : UserTask), s.group.tasks[k]? = some task →
    s.piped k <+: s.sentTo k task.user
  drained : ∀ (user : UInt32) (k : ℕ), user ∈ s.group.innerUser →
    s.group.userTasks[user]? = some k → s.group.tx.unread k = 0 →
      s.piped k = s.sentTo k user
  onChannel : ∀ (k : ℕ) (task : UserTask), s.group.tasks[k]? = some task →
    (s.piped k).Sublist task.userSender.log
  turns : ∀ (k : ℕ) (g : Group), s.group.pipeStep k = some g →
    s.group.Aborting k ∨ ∃ user ∈ s.group.innerUser, s.group.userTasks[user]? = some k ∧
      ∃ task, s.group.tasks[k]? = some task ∧ task.user = user

/-- A pipe that takes its turn is not too far behind, and its user's channel has a receiver
for what it forwards, unless the pipe was aborted. -/
def KeepsUp (s : GroupSystem) : GroupAction → Prop
  | .pipe k => s.group.Aborting k ∨ s.group.PipeKeepsUp k
  | _ => True

instance (s : GroupSystem) (a : GroupAction) : Decidable (s.KeepsUp a) :=
  match a with
  | .pipe k => inferInstanceAs (Decidable (s.group.Aborting k ∨ s.group.PipeKeepsUp k))
  | .join .. | .leave _ | .broadcast .. | .unicast .. | .subscribe .. | .receive ..
  | .unsubscribe .. | .cancel _ => isTrue trivial

/-- The invariant: a pipe that runs has forwarded what was sent to its user up to where it is
in the group's channel, and it is the one that its user has, unless it was aborted. -/
structure Piping (s : GroupSystem) : Prop where
  fresh : ∀ k, s.group.tasks.length ≤ k → s.piped k = []
  ordered : ∀ (k : ℕ) (task : UserTask), s.group.tasks[k]? = some task →
    s.piped k <+: s.sentTo k task.user
  onChannel : ∀ (k : ℕ) (task : UserTask), s.group.tasks[k]? = some task →
    (s.piped k).Sublist task.userSender.log
  upTo : ∀ (k : ℕ) (task : UserTask), s.group.tasks[k]? = some task →
    task.broadcastPipe = .running → ∃ i, s.group.tx.cursors[k]? = some i ∧
      s.joinedAt k ≤ i ∧ s.piped k = ((s.group.tx.log.take i).drop (s.joinedAt k)).filter
        fun data => Group.frameSender data ≠ task.user
  current : ∀ (k : ℕ) (task : UserTask), s.group.tasks[k]? = some task →
    task.broadcastPipe = .running → task.aborting = false →
      s.group.userTasks[task.user]? = some k

lemma piping_init (h0 : groupMachine.init s) : s.Piping := by
  obtain ⟨name, capacity, rfl⟩ := h0
  exact ⟨by simp, by simp [Group.new], by simp [Group.new], by simp [Group.new],
    by simp [Group.new]⟩

/-- A step that takes no pipe further keeps the invariant. -/
lemma Piping.steady (hs : s.Piping) (hst : Group.Steady s.group t.group)
    (hjoined : t.joinedAt = s.joinedAt) (hpiped : t.piped = s.piped)
    (hlen : t.group.tasks.length = s.group.tasks.length)
    (hcurrent : ∀ (k : ℕ) (task : UserTask), t.group.tasks[k]? = some task →
      task.broadcastPipe = .running → task.aborting = false →
        t.group.userTasks[task.user]? = some k) : t.Piping where
  fresh k hk := by
    rw [hpiped]
    exact hs.fresh k (hlen ▸ hk)
  ordered k task ht := by
    obtain ⟨task₀, ht₀, hu, -, -⟩ := hst.task k task ht
    rw [hpiped, sentTo, hjoined, ← hu]
    exact (hs.ordered k task₀ ht₀).trans ((hst.log.drop _).filter _)
  onChannel k task ht := by
    obtain ⟨task₀, ht₀, -, hlog, -⟩ := hst.task k task ht
    rw [hpiped]
    exact (hs.onChannel k task₀ ht₀).trans hlog.sublist
  upTo k task ht hr := by
    obtain ⟨task₀, ht₀, hu, -, hrun⟩ := hst.task k task ht
    obtain ⟨hr₀, -, hcur⟩ := hrun hr
    obtain ⟨i, hi, hle, heq⟩ := hs.upTo k task₀ ht₀ hr₀
    refine ⟨i, hcur.trans hi, hjoined ▸ hle, ?_⟩
    have htake : t.group.tx.log.take i = s.group.tx.log.take i := by
      obtain ⟨rest, hrest⟩ := hst.log
      rw [← hrest, List.take_append_of_le_length (s.group.tx.le_length k i hi)]
    rw [hpiped, hjoined, htake, heq, hu]
  current := hcurrent

/-- A step that takes no pipe further and leaves the table of the tasks. -/
lemma Piping.quiet (hs : s.Piping) (hst : Group.Steady s.group t.group)
    (htable : t.group.userTasks = s.group.userTasks) (hjoined : t.joinedAt = s.joinedAt)
    (hpiped : t.piped = s.piped) (hlen : t.group.tasks.length = s.group.tasks.length) :
    t.Piping := by
  refine hs.steady hst hjoined hpiped hlen fun k task ht hr hgoes => ?_
  obtain ⟨task₀, ht₀, hu, -, hrun⟩ := hst.task k task ht
  obtain ⟨hr₀, hgoes₀, -⟩ := hrun hr
  rw [htable, ← hu]
  exact hs.current k task₀ ht₀ hr₀ (hgoes₀ hgoes)

/-- What happens on the users' channels outside the pipes. -/
lemma Piping.mapChannel (hs : s.Piping) (k : ℕ) {f : Broadcast Bytes → Broadcast Bytes}
    (hf : ∀ c, c.log <+: (f c).log) : (s.setGroup (s.group.mapChannel k f)).Piping :=
  hs.quiet (Group.steady_mapChannel hf) rfl rfl rfl (List.length_modify ..)

lemma Piping.join (hs : s.Piping) (user : UInt32) (capacity : Option ℕ)
    (hst : s.step (.join user capacity) = some t) : t.Piping := by
  cases hst
  rcases s.group.join_cases user capacity with ⟨htasks, htx, htable⟩ |
    ⟨hnone, htasks, htx, htable⟩
  · -- the user has a task already; only the note for the next one changes
    have hne : ∀ (k : ℕ) (task : UserTask), s.group.tasks[k]? = some task →
        Function.update s.joinedAt s.group.tasks.length s.group.tx.log.length k =
          s.joinedAt k := by
      intro k task ht
      exact Function.update_of_ne (List.getElem?_eq_some_iff.mp ht).1.ne _ _
    refine ⟨fun k hk => hs.fresh k (htasks ▸ hk), fun k task ht => ?_, fun k task ht => ?_,
      fun k task ht hr => ?_, fun k task ht hr hgoes => ?_⟩
    · rw [htasks] at ht
      simp only [sentTo, htx, hne k task ht]
      exact hs.ordered k task ht
    · exact hs.onChannel k task (htasks ▸ ht)
    · rw [htasks] at ht
      simp only [htx, hne k task ht]
      exact hs.upTo k task ht hr
    · rw [htable]
      exact hs.current k task (htasks ▸ ht) hr hgoes
  · -- a new task starts at the end of the channel
    have hcases : ∀ (k : ℕ) (task : UserTask), (s.group.join user capacity).tasks[k]? = some task →
        (k ≠ s.group.tasks.length ∧ s.group.tasks[k]? = some task) ∨
          (k = s.group.tasks.length ∧
            task = ⟨user, Broadcast.new (capacity.getD 64), .running, false⟩) := by
      intro k task ht
      rw [htasks, List.getElem?_append] at ht
      split_ifs at ht with hlt
      · exact .inl ⟨hlt.ne, ht⟩
      · have hk := (List.getElem?_eq_some_iff.mp ht).1
        rw [List.length_singleton] at hk
        exact .inr ⟨by omega, List.mem_singleton.mp (List.mem_of_getElem? ht)⟩
    have hempty : s.piped s.group.tasks.length = [] := hs.fresh _ le_rfl
    refine ⟨fun k hk => hs.fresh k ?_, fun k task ht => ?_, fun k task ht => ?_,
      fun k task ht hr => ?_, fun k task ht hr hgoes => ?_⟩
    · rw [htasks, List.length_append] at hk
      omega
    · rcases hcases k task ht with ⟨hne, ht⟩ | ⟨rfl, rfl⟩
      · simp only [sentTo, htx, Function.update_of_ne hne]
        exact hs.ordered k task ht
      · rw [hempty]
        exact List.nil_prefix
    · rcases hcases k task ht with ⟨hne, ht⟩ | ⟨rfl, rfl⟩
      · exact hs.onChannel k task ht
      · rw [hempty]
        exact List.nil_sublist _
    · rcases hcases k task ht with ⟨hne, ht⟩ | ⟨rfl, rfl⟩
      · obtain ⟨i, hi, hle, heq⟩ := hs.upTo k task ht hr
        refine ⟨i, ?_, ?_, ?_⟩
        · rw [htx, Broadcast.cursors_subscribe, if_neg hne.symm, hi]
        · simpa only [Function.update_of_ne hne] using hle
        · simp only [htx, Function.update_of_ne hne]
          exact heq
      · refine ⟨s.group.tx.log.length, ?_, ?_, ?_⟩
        · rw [htx, Broadcast.cursors_subscribe, if_pos rfl]
        · simp
        · rw [hempty]
          simp [htx, Broadcast.subscribe]
    · rw [htable, ExtTreeMap.getElem?_insert]
      rcases hcases k task ht with ⟨hne, ht⟩ | ⟨rfl, rfl⟩
      · -- the user that joins had no task that runs
        have hcur := hs.current k task ht hr hgoes
        split_ifs with hu
        · rw [← Std.LawfulEqCmp.compare_eq_iff_eq.mp hu, hnone] at hcur
          cases hcur
        · exact hcur
      · simp

/-- A user that leaves has its own pipe aborted, and no other. -/
lemma Piping.leave (hs : s.Piping) (user : UInt32)
    (hst : s.step (.leave user) = some t) : t.Piping := by
  cases hst
  have hsteady : Group.Steady s.group (s.group.leave user) := Group.steady_leave user
  refine hs.steady hsteady rfl rfl ?_ fun k task ht hr hgoes => ?_
  · rw [setGroup_group, Group.leave]
    split_ifs
    · dsimp only
      split
      · exact List.length_modify ..
      · rfl
    · rfl
  · obtain ⟨task₀, ht₀, hu, -, hrun⟩ := hsteady.task k task ht
    obtain ⟨hr₀, hgoes₀, -⟩ := hrun hr
    have hcur := hs.current k task₀ ht₀ hr₀ (hgoes₀ hgoes)
    rw [hu] at hcur
    rw [setGroup_group]
    rw [setGroup_group] at ht
    by_cases hmem : user ∈ s.group.innerUser
    · by_cases huser : task.user = user
      · -- the pipe of the user was aborted
        rw [huser] at hcur
        rw [Group.leave, if_pos hmem] at ht
        simp only [hcur] at ht
        rw [Group.tasks_abortPipe] at ht
        obtain ⟨task₁, -, rfl⟩ := Option.map_eq_some_iff.mp ht
        by_cases hr₁ : task₁.broadcastPipe = .running
        · simp [hr₁] at hgoes
        · simp [hr₁] at hr
      · rw [Group.leave, if_pos hmem]
        dsimp only
        split
        · simp [ExtTreeMap.getElem?_erase, Ne.symm huser, hcur]
        · exact hcur
    · rwa [Group.leave_of_not_mem hmem]

/-- A turn of a pipe that keeps up takes it one frame further, and leaves the others. -/
lemma pipe_of_keepsUp (hwhole : s.group.FramesWhole) (hk : s.group.PipeKeepsUp k)
    (hst : s.step (.pipe k) = some t) :
    ∃ task data i, s.group.tasks[k]? = some task ∧ task.broadcastPipe = .running ∧
      s.group.tx.cursors[k]? = some i ∧ s.group.tx.log[i]? = some data ∧
      t.group.tx = (s.group.tx.recv k).2 ∧ t.group.tx.cursors[k]? = some (i + 1) ∧
      t.group.userTasks = s.group.userTasks ∧ t.group.innerUser = s.group.innerUser ∧
      t.joinedAt = s.joinedAt ∧ t.piped = Function.update s.piped k (s.piped k ++
        [data].filter fun data => Group.frameSender data ≠ task.user) ∧
      ∀ j, t.group.tasks[j]? = s.group.tasks[j]?.map fun task => if j = k then { task with
        userSender := if Group.frameSender data = task.user then task.userSender
          else task.userSender.push data } else task := by
  obtain ⟨g, hg, rfl⟩ := Option.map_eq_some_iff.mp hst
  obtain ⟨task, data, htask, hrun, hrecv, hcases⟩ := Group.pipeStep_of_keepsUp hwhole hk hg
  obtain ⟨i, hi, hdata, hi'⟩ := Broadcast.cursor_of_recv _ hrecv
  refine ⟨task, data, i, htask, hrun, hi, hdata, ?_⟩
  have hbefore : channelLog s.group k = task.userSender.log := by rw [channelLog, htask]
  rcases hcases with ⟨hown, rfl⟩ | ⟨hown, rfl⟩
  · refine ⟨rfl, hi', rfl, rfl, rfl, ?_, fun j => ?_⟩
    · have hafter : channelLog { s.group with tx := (s.group.tx.recv k).2 } k =
          channelLog s.group k := rfl
      simp [hafter, hown]
    · by_cases hj : j = k
      · subst hj
        simp [htask, hown]
      · simp [hj]
  · refine ⟨rfl, hi', rfl, rfl, rfl, ?_, fun j => ?_⟩
    · have hafter : channelLog ({ s.group with tx := (s.group.tx.recv k).2 }.mapChannel k
          fun _ => task.userSender.push data) k = task.userSender.log ++ [data] := by
        simp [channelLog, Group.tasks_mapChannel, htask]
      simp [hafter, hbefore, hown]
    · rw [Group.tasks_mapChannel]
      by_cases hj : j = k
      · subst hj
        simp [htask, hown]
      · simp [hj]

lemma Piping.pipe (hs : s.Piping) (hwhole : s.group.FramesWhole) (hk : s.group.PipeKeepsUp k)
    (hst : s.step (.pipe k) = some t) : t.Piping := by
  obtain ⟨task, data, i, htask, hrun, hi, hdata, htx, hi', htable, -, hjoined, hpiped, htasks⟩ :=
    pipe_of_keepsUp hwhole hk hst
  have hlog : t.group.tx.log = s.group.tx.log := by rw [htx, Broadcast.recv_log]
  obtain ⟨i₀, hi₀, hle, hupto⟩ := hs.upTo k task htask hrun
  obtain rfl : i = i₀ := by simpa [hi] using hi₀
  -- the frame that was read is the next one after what has been forwarded
  have hnext : s.piped k ++ [data].filter (fun data => Group.frameSender data ≠ task.user) =
      ((s.group.tx.log.take (i + 1)).drop (s.joinedAt k)).filter
        fun data => Group.frameSender data ≠ task.user := by
    have hlt : i ≤ s.group.tx.log.length := s.group.tx.le_length k i hi
    rw [hupto, ← List.filter_append, List.take_add_one, hdata, Option.toList_some,
      List.drop_append_of_le_length]
    rw [List.length_take, min_eq_left hlt]
    exact hle
  have hold : ∀ (j : ℕ) (task' : UserTask), t.group.tasks[j]? = some task' →
      ∃ task₀, s.group.tasks[j]? = some task₀ ∧ task'.user = task₀.user ∧
        (task'.broadcastPipe = task₀.broadcastPipe ∧ task'.aborting = task₀.aborting) ∧
        task'.userSender.log =
          task₀.userSender.log ++ if j = k then
            [data].filter fun data => Group.frameSender data ≠ task₀.user else [] := by
    intro j task' ht
    rw [htasks] at ht
    obtain ⟨task₀, ht₀, rfl⟩ := Option.map_eq_some_iff.mp ht
    refine ⟨task₀, ht₀, by split_ifs <;> rfl, by split_ifs <;> exact ⟨rfl, rfl⟩, ?_⟩
    by_cases hj : j = k
    · by_cases hown : Group.frameSender data = task₀.user <;> simp [hj, hown]
    · simp [hj]
  refine ⟨fun j hj => ?_, fun j task' ht => ?_, fun j task' ht => ?_, fun j task' ht hr => ?_,
    fun j task' ht hr hgoes => ?_⟩
  · have hj' : s.group.tasks.length ≤ j := by
      have hnone := List.getElem?_eq_none hj
      rw [htasks, Option.map_eq_none_iff] at hnone
      exact List.getElem?_eq_none_iff.mp hnone
    have hne : j ≠ k := by
      rintro rfl
      rw [List.getElem?_eq_none hj'] at htask
      cases htask
    rw [hpiped, Function.update_of_ne hne]
    exact hs.fresh j hj'
  · obtain ⟨task₀, ht₀, hu, -, -⟩ := hold j task' ht
    rw [sentTo, hlog, hjoined, hpiped, hu]
    by_cases hj : j = k
    · subst hj
      obtain rfl : task = task₀ := by simpa [htask] using ht₀
      rw [Function.update_self, hnext]
      exact ((List.take_prefix _ _).drop _).filter _
    · rw [Function.update_of_ne hj]
      exact hs.ordered j task₀ ht₀
  · obtain ⟨task₀, ht₀, -, -, hchannel⟩ := hold j task' ht
    rw [hpiped, hchannel]
    by_cases hj : j = k
    · subst hj
      obtain rfl : task = task₀ := by simpa [htask] using ht₀
      rw [Function.update_self, if_pos rfl]
      exact (hs.onChannel j task htask).append (List.Sublist.refl _)
    · rw [Function.update_of_ne hj, if_neg hj, List.append_nil]
      exact hs.onChannel j task₀ ht₀
  · obtain ⟨task₀, ht₀, hu, ⟨hpipe, -⟩, -⟩ := hold j task' ht
    by_cases hj : j = k
    · subst hj
      obtain rfl : task = task₀ := by simpa [htask] using ht₀
      refine ⟨i + 1, hi', ?_, ?_⟩
      · rw [hjoined]
        omega
      · rw [hpiped, Function.update_self, hnext, hlog, hjoined, hu]
    · obtain ⟨i', hcur, hle', heq⟩ := hs.upTo j task₀ ht₀ (hpipe ▸ hr)
      refine ⟨i', ?_, hjoined ▸ hle', ?_⟩
      · rw [htx, Broadcast.cursors_recv_of_ne _ _ _ hj, hcur]
      · rw [hpiped, Function.update_of_ne hj, hlog, hjoined, hu, heq]
  · obtain ⟨task₀, ht₀, hu, ⟨hpipe, habort⟩, -⟩ := hold j task' ht
    rw [htable, hu]
    exact hs.current j task₀ ht₀ (hpipe ▸ hr) (habort ▸ hgoes)

/-- A turn of a pipe that does not keep up ends it. -/
lemma Piping.pipe_of_not_keepsUp (hs : s.Piping) (hk : ¬ s.group.PipeKeepsUp k)
    (hst : s.step (.pipe k) = some t) : t.Piping := by
  obtain ⟨g, hg, rfl⟩ := Option.map_eq_some_iff.mp hst
  obtain ⟨task, htask, -, ⟨-, hstop⟩ | ⟨⟨-, hkeeps⟩, -⟩⟩ := Group.pipeStep_cases hg
  · have hsteady : Group.Steady s.group g := by
      rcases hstop with rfl | rfl
      · exact Group.steady_stopPipe (by simp)
      · exact Group.steady_recv_stopPipe (by simp)
    have hlen : g.tasks.length = s.group.tasks.length := by
      rcases hstop with rfl | rfl <;> exact Group.length_tasks_stopPipe ..
    have htable : g.userTasks = s.group.userTasks := by
      rcases hstop with rfl | rfl <;> exact Group.stopPipe_userTasks ..
    have hlog : channelLog g k = channelLog s.group k := by
      have htasks : g.tasks[k]? = s.group.tasks[k]?.map fun t =>
          if k = k ∧ t.broadcastPipe = .running then { t with broadcastPipe := .finished }
          else t := by
        rcases hstop with rfl | rfl <;> exact Group.tasks_stopPipe ..
      rw [channelLog, channelLog, htasks, htask, Option.map_some]
      dsimp only
      split_ifs <;> rfl
    refine hs.quiet hsteady htable rfl ?_ hlen
    -- nothing was added to the user's channel
    rw [hlog, List.drop_length, List.append_nil, Function.update_eq_self]
  · exact absurd hkeeps hk

/-- An abort that takes effect ends the pipe. -/
lemma Piping.cancel (hs : s.Piping) (hst : s.step (.cancel k) = some t) : t.Piping := by
  obtain ⟨g, hg, rfl⟩ := Option.map_eq_some_iff.mp hst
  obtain ⟨task, -, -, rfl⟩ := Group.cancelPipe_eq_some_iff.mp hg
  exact hs.quiet (Group.steady_stopPipe (by simp)) (Group.stopPipe_userTasks ..) rfl rfl
    (Group.length_tasks_stopPipe ..)

/-- The invariant of runs in which the pipes keep up. -/
structure Serving (s : GroupSystem) : Prop where
  wf : s.Wf
  piping : s.Piping
  noneFinished : s.group.NoneFinished

lemma Serving.step (hs : s.Serving) (hok : s.KeepsUp a) (hst : s.step a = some t) :
    t.Serving := by
  refine ⟨wf_step hs.wf hst, ?_, ?_⟩
  · cases a with
    | join user capacity => exact hs.piping.join user capacity hst
    | leave user => exact hs.piping.leave user hst
    | broadcast typ sender payload =>
        cases hst
        exact hs.piping.steady (Group.steady_of_tasks_eq rfl (Broadcast.log_prefix_sendIgnore ..)
          (Broadcast.sendIgnore_cursors ..)) rfl rfl rfl hs.piping.current
    | unicast k frame =>
        cases hst
        exact hs.piping.mapChannel k fun c => Broadcast.log_prefix_sendIgnore c frame
    | subscribe k r | unsubscribe k r =>
        cases hst
        exact hs.piping.mapChannel k fun c => List.prefix_rfl
    | receive k r =>
        cases hst
        exact hs.piping.mapChannel k fun c => by rw [Broadcast.recv_log]
    | pipe k =>
        by_cases hk : s.group.PipeKeepsUp k
        · exact hs.piping.pipe hs.wf.whole hk hst
        · exact hs.piping.pipe_of_not_keepsUp hk hst
    | cancel k => exact hs.piping.cancel hst
  · cases a with
    | join user capacity =>
        cases hst
        exact hs.noneFinished.join user capacity
    | leave user =>
        cases hst
        exact hs.noneFinished.leave user
    | broadcast typ sender payload =>
        cases hst
        exact hs.noneFinished
    | unicast k frame | subscribe k r | receive k r | unsubscribe k r =>
        cases hst
        rw [setGroup_group]
        exact hs.noneFinished.mapChannel k _
    | pipe k =>
        obtain ⟨g, hg, rfl⟩ := Option.map_eq_some_iff.mp hst
        exact (hs.wf.whole.noneFinished_pipeStep_iff hs.noneFinished hg).mpr hok
    | cancel k =>
        obtain ⟨g, hg, rfl⟩ := Option.map_eq_some_iff.mp hst
        exact hs.noneFinished.cancelPipe hg

/-- A pipe that takes a turn is that of a member, or was aborted. -/
lemma Serving.delivered (hs : s.Serving) : s.Delivered where
  ordered := hs.piping.ordered
  onChannel := hs.piping.onChannel
  drained user k hu hk hunread := by
    obtain ⟨j, task, hj, htask, hrun⟩ := hs.wf.group.hasRunningPipe hs.noneFinished hu
    obtain rfl : k = j := by simpa [hk] using hj
    obtain ⟨task', htask', huser, -⟩ := hs.wf.group.task user k hk
    obtain rfl : task = task' := by simpa [htask] using htask'
    obtain ⟨i, hi, -, hupto⟩ := hs.piping.upTo k task htask hrun
    rw [hupto, Broadcast.eq_length_of_unread _ hi hunread, List.take_length, huser]
    rfl
  turns k g hg := by
    obtain ⟨task, htask, hrun, -⟩ := Group.pipeStep_cases hg
    refine or_iff_not_imp_left.mpr fun hnot => ?_
    have hgoes : task.aborting = false := Bool.eq_false_of_not_eq_true fun h =>
      hnot ⟨task, htask, h⟩
    have hcur := hs.piping.current k task htask hrun hgoes
    refine ⟨task.user, ?_, hcur, task, htask, rfl⟩
    rw [hs.wf.group.mem_iff, ExtTreeMap.mem_iff_isSome_getElem?, hcur]
    rfl

end GroupSystem

/-! ### The end of a pipe -/

namespace Group

variable {g : Group} {k : ℕ}

/-- The pipe with handle `k` has ended. -/
def Ended (g : Group) (k : ℕ) : Prop := ∃ t, g.tasks[k]? = some t ∧ t.broadcastPipe ≠ .running

/-- A pipe that has ended takes no turn. -/
lemma Ended.pipeStep_eq_none (h : g.Ended k) : g.pipeStep k = none := by
  obtain ⟨t, ht, hr⟩ := h
  simp [pipeStep, ht, hr]

lemma ended_of_cancelPipe {g' : Group} (h : g.cancelPipe k = some g') : g'.Ended k := by
  obtain ⟨t, ht, ⟨hr, -⟩, rfl⟩ := cancelPipe_eq_some_iff.mp h
  refine ⟨{ t with broadcastPipe := .aborted }, ?_, by simp⟩
  rw [tasks_stopPipe, ht, Option.map_some, if_pos ⟨rfl, hr⟩]

/-- A step that changes the tasks one by one, and starts no pipe again. -/
lemma Ended.of_map {g' : Group} (h : g.Ended k) {f : UserTask → UserTask}
    (htasks : g'.tasks[k]? = g.tasks[k]?.map f)
    (hf : ∀ t, t.broadcastPipe ≠ .running → (f t).broadcastPipe ≠ .running) : g'.Ended k := by
  obtain ⟨t, ht, hr⟩ := h
  exact ⟨f t, by rw [htasks, ht, Option.map_some], hf t hr⟩

lemma Ended.stopPipe (h : g.Ended k) (j : ℕ) (status : TaskStatus) :
    (g.stopPipe j status).Ended k :=
  h.of_map (tasks_stopPipe ..) fun t hr => by simp [hr]

lemma Ended.mapChannel (h : g.Ended k) (j : ℕ) (f : Broadcast Bytes → Broadcast Bytes) :
    (g.mapChannel j f).Ended k :=
  h.of_map (tasks_mapChannel ..) fun t hr => by split_ifs <;> exact hr

lemma Ended.join (h : g.Ended k) (user : UInt32) (capacity : Option ℕ) :
    (g.join user capacity).Ended k := by
  obtain ⟨t, ht, hr⟩ := h
  refine ⟨t, ?_, hr⟩
  rcases g.join_cases user capacity with ⟨htasks, -⟩ | ⟨-, htasks, -⟩
  · rw [htasks, ht]
  · rw [htasks, List.getElem?_append_left (List.getElem?_eq_some_iff.mp ht).1, ht]

lemma Ended.leave (h : g.Ended k) (user : UInt32) : (g.leave user).Ended k := by
  rw [Group.leave]
  split_ifs
  · dsimp only
    split
    · exact h.of_map (tasks_abortPipe ..) fun t hr => by simp [hr]
    · exact h
  · exact h

/-- A turn of a pipe starts no other. -/
lemma Ended.pipeStep (h : g.Ended k) {g' : Group} {j : ℕ} (hturn : g.pipeStep j = some g') :
    g'.Ended k := by
  have htx : ({ g with tx := (g.tx.recv j).2 } : Group).Ended k := h
  obtain ⟨t, -, -, ⟨-, rfl | rfl⟩ | ⟨-, rfl | ⟨f, rfl⟩⟩⟩ := pipeStep_cases hturn
  · exact h.stopPipe j .finished
  · exact htx.stopPipe j .finished
  · exact htx
  · exact htx.mapChannel j f

end Group

namespace GroupSystem

variable {s t : GroupSystem} {a : GroupAction} {k : ℕ}

/-- A pipe that has ended is not started again. -/
lemma ended_step (hs : s.group.Ended k) (hst : s.step a = some t) : t.group.Ended k := by
  cases a with
  | join user capacity =>
      cases hst
      exact hs.join user capacity
  | leave user =>
      cases hst
      exact hs.leave user
  | broadcast typ sender payload =>
      cases hst
      exact hs
  | unicast j frame | subscribe j r | receive j r | unsubscribe j r =>
      cases hst
      exact hs.mapChannel j _
  | pipe j =>
      obtain ⟨g, hg, rfl⟩ := Option.map_eq_some_iff.mp hst
      exact hs.pipeStep hg
  | cancel j =>
      obtain ⟨g, hg, rfl⟩ := Option.map_eq_some_iff.mp hst
      obtain ⟨task, -, -, rfl⟩ := Group.cancelPipe_eq_some_iff.mp hg
      exact hs.stopPipe j .aborted

/-- After its abort has taken effect a pipe takes no turn. -/
lemma pipe_not_mem_of_cancel {before after : List GroupAction}
    (h : groupMachine.exec s (before ++ .cancel k :: after) = some t) : .pipe k ∉ after := by
  rw [Machine.exec_append] at h
  obtain ⟨r, -, h⟩ := Option.bind_eq_some_iff.mp h
  obtain ⟨u, hu, hafter⟩ := Option.bind_eq_some_iff.mp h
  obtain ⟨g, hg, rfl⟩ := Option.map_eq_some_iff.mp hu
  refine Machine.not_mem_of_exec (I := fun s : GroupSystem => s.group.Ended k)
    (fun _ _ _ hs hst => ended_step hs hst) (fun s hs => ?_) (Group.ended_of_cancelPipe hg) hafter
  change s.pipeStep k = none
  rw [pipeStep, hs.pipeStep_eq_none]
  rfl

/-- Two users join and subscribe, one of them again; each sends a frame, the pipes forward
what is for them, one user leaves, its pipe takes one more turn, and then its abort takes effect. -/
def visits : List GroupAction :=
  [.join 1 none, .subscribe 0 0, .join 2 none, .subscribe 1 0, .join 1 none,
    .broadcast 0 2 [2, 0, 0, 0, 7], .broadcast 0 1 [1, 0, 0, 0, 9], .pipe 0, .pipe 1, .pipe 1,
    .receive 1 0, .leave 1, .pipe 0, .cancel 0, .pipe 1]

/-- Only the pipes of members take turns. -/
def TurnsOfMembers (s : GroupSystem) : GroupAction → Prop
  | .pipe k => ∃ user ∈ s.group.innerUser, s.group.userTasks[user]? = some k
  | _ => True

instance (s : GroupSystem) (a : GroupAction) : Decidable (s.TurnsOfMembers a) :=
  match a with
  | .pipe k => inferInstanceAs
      (Decidable (∃ user ∈ s.group.innerUser, s.group.userTasks[user]? = some k))
  | .join .. | .leave _ | .broadcast .. | .unicast .. | .subscribe .. | .receive ..
  | .unsubscribe .. | .cancel _ => isTrue trivial

end GroupSystem

end SfuServer
