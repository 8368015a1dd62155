import SfuServer.Lib.Broadcast
import SfuServer.Lib.Vec
import SfuServer.Wire

/-!
The WebSocket group, `Group` of `libs/libws/src/lib.rs`.

A group has one channel for all its members and, for each member, a channel of its own and
a pipe task that copies the frames of the group to it.  `Group::join` creates the two
together, so they share a handle: `tasks` lists all that were ever created, and
`userTasks` and `userSenders` hold the handles of the members.  A pipe receives from the
group under its handle; a user's channel has the connections of the user as receivers.

* `join`, `leave`: the two operations, with the partial updates of the source;
* `pipeStep`: one turn of a pipe task, which ends when it lags or when the user's channel
  has no receiver;
* `abortPipe`, `cancelPipe`: a pipe that is aborted goes on until the abort takes effect;
* `Wf`: membership is the domain of `userTasks`, which agrees with `userSenders`, the tasks
  found there belong to their users and were not aborted, and the receivers on the group's
  channel are the running pipes.  It holds of a new group and is kept by every operation
  (`Wf.join`, `Wf.leave`, `Wf.pipeStep`, `Wf.cancelPipe`);
* `mem_innerUser_join`, `mem_innerUser_leave`: what the two operations do to membership.
-/

open Std (ExtTreeMap)

namespace SfuServer

open Endian

/-- The state of a spawned task. -/
inductive TaskStatus where
  | running
  | finished
  | aborted
  deriving DecidableEq, Repr

/-- What `Group::join` creates for a new member: the user's channel, and the pipe task that
copies the group's frames to it.  From the call of `abort` on the pipe is `aborting`. -/
structure UserTask where
  user : UInt32
  userSender : Broadcast Bytes
  broadcastPipe : TaskStatus
  aborting : Bool

/-- `Group` of `libws`. -/
structure Group where
  name : String
  tx : Broadcast Bytes
  innerUser : List UInt32
  userCount : UInt32
  userTasks : ExtTreeMap UInt32 ℕ
  userSenders : ExtTreeMap UInt32 ℕ
  tasks : List UserTask

namespace Group

/-- `Group::new`. -/
def new (name : String) (capacity : Option ℕ) : Group where
  name := name
  tx := Broadcast.new (capacity.getD 64)
  innerUser := []
  userCount := 0
  userTasks := ∅
  userSenders := ∅
  tasks := []

/-- The pipe with handle `k` ends, if it still runs: its receiver is dropped. -/
def stopPipe (g : Group) (k : ℕ) (status : TaskStatus) : Group :=
  match g.tasks[k]? with
  | none => g
  | some t =>
      if t.broadcastPipe = .running then
        { g with
          tx := g.tx.unsubscribe k
          tasks := g.tasks.set k { t with broadcastPipe := status } }
      else g

/-- `abort` of the pipe with handle `k`, which is only told to end. -/
def abortPipe (g : Group) (k : ℕ) : Group :=
  { g with tasks := g.tasks.modify k fun t =>
      if t.broadcastPipe = .running then { t with aborting := true } else t }

/-- The abort of the pipe with handle `k` takes effect, which it does where the task yields. -/
def cancelPipe (g : Group) (k : ℕ) : Option Group :=
  match g.tasks[k]? with
  | none => none
  | some t =>
      if t.broadcastPipe = .running ∧ t.aborting = true then some (g.stopPipe k .aborted) else none

/-- The user's channel with handle `k` replaced by its image under `f`. -/
def mapChannel (g : Group) (k : ℕ) (f : Broadcast Bytes → Broadcast Bytes) : Group :=
  { g with tasks := g.tasks.modify k fun t => { t with userSender := f t.userSender } }

/-- `Group::join`.  The receiver that comes with the user's channel is dropped at once. -/
def join (g : Group) (user : UInt32) (capacity : Option ℕ) : Group :=
  let g :=
    if user ∈ g.innerUser then g
    else { g with innerUser := g.innerUser ++ [user], userCount := g.userCount + 1 }
  match g.userTasks[user]? with
  | some _ => g
  | none =>
      let k := g.tasks.length
      { g with
        userSenders := g.userSenders.insert user k
        tx := g.tx.subscribe k
        userTasks := g.userTasks.insert user k
        tasks := g.tasks ++ [⟨user, Broadcast.new (capacity.getD 64), .running, false⟩] }

/-- `Group::leave`. -/
def leave (g : Group) (user : UInt32) : Group :=
  if user ∈ g.innerUser then
    let g := { g with
      innerUser := Vec.swapRemove g.innerUser (g.innerUser.idxOf user)
      userCount := g.userCount - 1 }
    let g :=
      match g.userTasks[user]? with
      | some k => { g.abortPipe k with userTasks := g.userTasks.erase user }
      | none => g
    let g := { g with userSenders := g.userSenders.erase user }
    { g with tx := g.tx.sendIgnore (networkEvent user false) }
  else g

/-- `Group::is_empty`. -/
def isEmpty (g : Group) : Bool := g.userCount == 0

/-- The id of the user that a frame comes from. -/
def frameSender (data : Bytes) : UInt32 :=
  ofBeBytes (data.getD 4 0) (data.getD 3 0) (data.getD 2 0) (data.getD 1 0)

/-- One turn of the pipe task with handle `k`, if it runs and has something to read: the
user's own frames are skipped, the others are sent to the user's channel.  The index into a
frame of fewer than five bytes panics. -/
def pipeStep (g : Group) (k : ℕ) : Option Group :=
  match g.tasks[k]? with
  | none => none
  | some t =>
      if t.broadcastPipe = .running then
        match g.tx.recv k with
        | (.empty, _) => none
        | (.lagged _, _) => some (g.stopPipe k .finished)
        | (.message data, tx) =>
            if data.length < 5 then some (g.stopPipe k .finished)
            else if frameSender data = t.user then some { g with tx := tx }
            else
              match t.userSender.send data with
              | some channel => some ({ g with tx := tx }.mapChannel k fun _ => channel)
              | none => some ({ g with tx := tx }.stopPipe k .finished)
      else none

/-! ### The parts that an operation leaves alone -/

section Frame

variable (g : Group) (k j : ℕ) (status : TaskStatus) (f : Broadcast Bytes → Broadcast Bytes)

@[simp] lemma stopPipe_innerUser : (g.stopPipe k status).innerUser = g.innerUser := by
  rw [stopPipe]
  split
  · rfl
  · split_ifs <;> rfl

@[simp] lemma stopPipe_userTasks : (g.stopPipe k status).userTasks = g.userTasks := by
  rw [stopPipe]
  split
  · rfl
  · split_ifs <;> rfl

@[simp] lemma stopPipe_userSenders : (g.stopPipe k status).userSenders = g.userSenders := by
  rw [stopPipe]
  split
  · rfl
  · split_ifs <;> rfl

/-- Stopping a pipe changes the status of that pipe only, and only if it runs. -/
lemma tasks_stopPipe : (g.stopPipe k status).tasks[j]? = g.tasks[j]?.map fun t =>
    if j = k ∧ t.broadcastPipe = .running then { t with broadcastPipe := status } else t := by
  rw [stopPipe]
  cases hk : g.tasks[k]? with
  | none =>
      by_cases hj : j = k
      · simp [hj, hk]
      · simp [hj]
  | some t =>
      obtain ⟨hlt, -⟩ := List.getElem?_eq_some_iff.mp hk
      by_cases ht : t.broadcastPipe = .running
      · by_cases hj : j = k
        · subst hj
          simp [ht, hk, List.getElem?_set_self hlt]
        · simp [ht, hj, List.getElem?_set_ne (Ne.symm hj)]
      · by_cases hj : j = k
        · subst hj
          simp [ht, hk]
        · simp [ht, hj]

lemma live_stopPipe : (g.stopPipe k status).tx.Live j ↔
    g.tx.Live j ∧ ¬ (j = k ∧ ∃ t, g.tasks[k]? = some t ∧ t.broadcastPipe = .running) := by
  rw [stopPipe]
  cases g.tasks[k]? with
  | none => simp
  | some t =>
      by_cases ht : t.broadcastPipe = .running
      · simp [ht, and_comm]
      · simp [ht]

/-- After a pipe has ended, the others still receive. -/
lemma live_stopPipe_iff (hstatus : status ≠ .running)
    (hlive : ∀ j, g.tx.Live j ↔ ∃ t, g.tasks[j]? = some t ∧ t.broadcastPipe = .running) :
    (g.stopPipe k status).tx.Live j ↔
      ∃ t, (g.stopPipe k status).tasks[j]? = some t ∧ t.broadcastPipe = .running := by
  rw [live_stopPipe, hlive, tasks_stopPipe]
  cases ht : g.tasks[j]? with
  | none => simp
  | some t =>
      by_cases hj : j = k ∧ t.broadcastPipe = .running
      · obtain ⟨rfl, hr⟩ := hj
        simp [ht, hr, hstatus]
      · have hne : ¬ (j = k ∧ ∃ t, g.tasks[k]? = some t ∧ t.broadcastPipe = .running) := by
          rintro ⟨rfl, t', ht', hr⟩
          rw [ht, Option.some.injEq] at ht'
          exact hj ⟨rfl, ht' ▸ hr⟩
        simp [hj, hne]

@[simp] lemma abortPipe_tx : (g.abortPipe k).tx = g.tx := rfl

@[simp] lemma abortPipe_innerUser : (g.abortPipe k).innerUser = g.innerUser := rfl

@[simp] lemma abortPipe_userTasks : (g.abortPipe k).userTasks = g.userTasks := rfl

@[simp] lemma abortPipe_userSenders : (g.abortPipe k).userSenders = g.userSenders := rfl

/-- An abort is told to the pipe only, and changes nothing else in its task. -/
lemma tasks_abortPipe : (g.abortPipe k).tasks[j]? = g.tasks[j]?.map fun t =>
    if j = k ∧ t.broadcastPipe = .running then { t with aborting := true } else t := by
  rw [abortPipe, List.getElem?_modify]
  by_cases hj : j = k
  · simp [hj]
  · simp [hj, Ne.symm hj]

@[simp] lemma mapChannel_tx : (g.mapChannel k f).tx = g.tx := rfl

lemma tasks_mapChannel : (g.mapChannel k f).tasks[j]? = g.tasks[j]?.map fun t =>
    if j = k then { t with userSender := f t.userSender } else t := by
  rw [mapChannel, List.getElem?_modify]
  by_cases hj : j = k
  · simp [hj]
  · simp [hj, Ne.symm hj]

end Frame

/-! ### Membership -/

/-- Who is a member after a join. -/
@[simp] lemma mem_innerUser_join (g : Group) (user : UInt32) (capacity : Option ℕ) (v : UInt32) :
    v ∈ (g.join user capacity).innerUser ↔ v = user ∨ v ∈ g.innerUser := by
  have hmem : ∀ g' : Group, g'.innerUser =
      (if user ∈ g.innerUser then g else
        { g with innerUser := g.innerUser ++ [user], userCount := g.userCount + 1 }).innerUser →
      (v ∈ g'.innerUser ↔ v = user ∨ v ∈ g.innerUser) := by
    intro g' h
    rw [h]
    split_ifs with hu
    · exact ⟨.inr, fun h => h.elim (fun hv => hv ▸ hu) id⟩
    · simp [or_comm]
  rw [join]
  dsimp only
  split <;> exact hmem _ rfl

/-- Who is a member after a leave, when members are listed once. -/
lemma mem_innerUser_leave {g : Group} (hnd : g.innerUser.Nodup) (user v : UInt32) :
    v ∈ (g.leave user).innerUser ↔ v ∈ g.innerUser ∧ v ≠ user := by
  rw [leave]
  split_ifs with hu
  · dsimp only
    split <;> simp [Vec.mem_swapRemove_idxOf hnd hu]
  · exact ⟨fun hv => ⟨hv, fun h => hu (h ▸ hv)⟩, fun h => h.1⟩

/-- A stranger that leaves changes nothing. -/
lemma leave_of_not_mem {g : Group} {user : UInt32} (hu : user ∉ g.innerUser) : g.leave user = g :=
  if_neg hu

/-- A second leave changes nothing. -/
lemma leave_leave {g : Group} (hnd : g.innerUser.Nodup) (user : UInt32) :
    (g.leave user).leave user = g.leave user :=
  leave_of_not_mem fun hu => ((mem_innerUser_leave hnd user user).mp hu).2 rfl

/-! ### Well-formed groups -/

/-- The parts of a group that stay in step: every member is listed once and has a task and
a sender, under the same handle; the task is the member's own, and was not told to end; the
receivers on the group's channel are the running pipes. -/
structure Wf (g : Group) : Prop where
  nodup : g.innerUser.Nodup
  mem_iff : ∀ u, u ∈ g.innerUser ↔ u ∈ g.userTasks
  senders : ∀ u : UInt32, g.userSenders[u]? = g.userTasks[u]?
  task : ∀ (u : UInt32) (k : ℕ), g.userTasks[u]? = some k →
    ∃ t, g.tasks[k]? = some t ∧ t.user = u ∧ t.broadcastPipe ≠ .aborted ∧ t.aborting = false
  live : ∀ k, g.tx.Live k ↔ ∃ t, g.tasks[k]? = some t ∧ t.broadcastPipe = .running

lemma wf_new (name : String) (capacity : Option ℕ) : (new name capacity).Wf where
  nodup := List.nodup_nil
  mem_iff := by simp [new]
  senders := by simp [new]
  task := by simp [new]
  live := by simp [new, Broadcast.new, Broadcast.Live]

namespace Wf

variable {g : Group} (hg : g.Wf)
include hg

/-- A change of the group's channel that keeps its receivers. -/
lemma setTx {tx : Broadcast Bytes} (htx : ∀ k, tx.Live k ↔ g.tx.Live k) :
    ({ g with tx := tx } : Group).Wf where
  nodup := hg.nodup
  mem_iff := hg.mem_iff
  senders := hg.senders
  task := hg.task
  live k := (htx k).trans (hg.live k)

/-- A change of a user's channel. -/
lemma mapChannel (k : ℕ) (f : Broadcast Bytes → Broadcast Bytes) : (g.mapChannel k f).Wf where
  nodup := hg.nodup
  mem_iff := hg.mem_iff
  senders := hg.senders
  task := by
    intro u j hj
    obtain ⟨t, ht, hu, hst⟩ := hg.task u j hj
    rw [tasks_mapChannel, ht, Option.map_some]
    refine ⟨_, rfl, ?_⟩
    split_ifs
    · exact ⟨hu, hst⟩
    · exact ⟨hu, hst⟩
  live := by
    intro j
    rw [mapChannel_tx, hg.live, tasks_mapChannel]
    cases g.tasks[j]? with
    | none => simp
    | some t => by_cases hj : j = k <;> simp [hj]

/-- A pipe that ends leaves the group well formed, unless it is the pipe of a member and is
aborted. -/
lemma stopPipe (k : ℕ) {status : TaskStatus} (hstatus : status ≠ .running)
    (habort : status = .aborted → ∀ t, g.tasks[k]? = some t → t.aborting = true) :
    (g.stopPipe k status).Wf where
  nodup := by simpa using hg.nodup
  mem_iff := by simpa using hg.mem_iff
  senders := by simpa using hg.senders
  task := by
    intro u j hj
    rw [stopPipe_userTasks] at hj
    obtain ⟨t, ht, hu, hst, hgoes⟩ := hg.task u j hj
    rw [tasks_stopPipe, ht, Option.map_some]
    refine ⟨_, rfl, ?_⟩
    split_ifs with hjk
    · refine ⟨hu, fun hs => ?_, hgoes⟩
      rw [habort hs t (hjk.1 ▸ ht)] at hgoes
      cases hgoes
    · exact ⟨hu, hst, hgoes⟩
  live _ := live_stopPipe_iff _ _ _ _ hstatus hg.live

/-- A pipe that ends on its own leaves the group well formed. -/
lemma finishPipe (k : ℕ) : (g.stopPipe k .finished).Wf := hg.stopPipe k (by simp) (by simp)

/-- Joining keeps the parts in step. -/
lemma join (user : UInt32) (capacity : Option ℕ) : (g.join user capacity).Wf := by
  by_cases hu : user ∈ g.innerUser
  · -- a member has a task: the group is unchanged
    have hk := (hg.mem_iff user).mp hu
    obtain ⟨k, hk⟩ := Option.isSome_iff_exists.mp (ExtTreeMap.mem_iff_isSome_getElem?.mp hk)
    simpa [Group.join, hu, hk] using hg
  · have hk : g.userTasks[user]? = none :=
      ExtTreeMap.getElem?_eq_none fun h => hu ((hg.mem_iff user).mpr h)
    simp only [Group.join, hu, if_false, hk]
    refine ⟨?_, fun u => ?_, fun u => ?_, fun u k h => ?_, fun k => ?_⟩
    · simpa [List.nodup_append, hg.nodup] using fun a ha (h : a = user) => hu (h ▸ ha)
    · simp [hg.mem_iff, or_comm, @eq_comm _ u]
    · simp [ExtTreeMap.getElem?_insert, hg.senders]
    · rw [ExtTreeMap.getElem?_insert] at h
      split_ifs at h with huu
      · rw [Option.some.injEq] at h
        subst h
        refine ⟨_, List.getElem?_concat_length, ?_, by simp, rfl⟩
        simpa using huu
      · obtain ⟨t, ht, htu, hst⟩ := hg.task u k h
        refine ⟨t, ?_, htu, hst⟩
        rw [List.getElem?_append_left (List.getElem?_eq_some_iff.mp ht).1, ht]
    · rw [Broadcast.live_subscribe, hg.live]
      by_cases hkl : k = g.tasks.length
      · simp [hkl]
      · rcases lt_or_gt_of_ne hkl with h | h
        · simp [hkl, List.getElem?_append_left h]
        · rw [List.getElem?_eq_none h.le, List.getElem?_eq_none (by simpa using h)]
          simp [hkl]

/-- Leaving keeps the parts in step. -/
lemma leave (user : UInt32) : (g.leave user).Wf := by
  rw [Group.leave]
  split_ifs with hu
  swap
  · exact hg
  obtain ⟨k, hk⟩ := Option.isSome_iff_exists.mp
    (ExtTreeMap.mem_iff_isSome_getElem?.mp ((hg.mem_iff user).mp hu))
  -- no other user has the handle of the pipe that is aborted
  have hother : ∀ (u : UInt32) (j : ℕ), user ≠ u → g.userTasks[u]? = some j → j ≠ k := by
    rintro u j hne hj rfl
    obtain ⟨t, ht, hut, -⟩ := hg.task u j hj
    obtain ⟨t', ht', hut', -⟩ := hg.task user j hk
    rw [ht, Option.some.injEq] at ht'
    exact hne (hut'.symm.trans (ht' ▸ hut))
  simp only [hk]
  refine ⟨?_, fun u => ?_, fun u => ?_, fun u j hj => ?_, fun j => ?_⟩
  · simpa using Vec.nodup_swapRemove_idxOf hg.nodup hu
  · simp [Vec.mem_swapRemove_idxOf hg.nodup hu, hg.mem_iff, and_comm, @eq_comm _ u]
  · simp [ExtTreeMap.getElem?_erase, hg.senders]
  · rw [ExtTreeMap.getElem?_erase] at hj
    split_ifs at hj with huu
    have hne : user ≠ u := by simpa using huu
    obtain ⟨t, ht, hut, hst⟩ := hg.task u j hj
    refine ⟨t, ?_, hut, hst⟩
    simp [tasks_abortPipe, ht, hother u j hne hj]
  · rw [Broadcast.live_sendIgnore, abortPipe_tx, hg.live, tasks_abortPipe]
    cases g.tasks[j]? with
    | none => simp
    | some t => by_cases hjk : j = k ∧ t.broadcastPipe = .running <;> simp [hjk]

end Wf

/-! ### The pipes -/

/-- The pipe with handle `k` was told to end. -/
def Aborting (g : Group) (k : ℕ) : Prop := ∃ t, g.tasks[k]? = some t ∧ t.aborting = true

instance (g : Group) (k : ℕ) : Decidable (g.Aborting k) :=
  decidable_of_iff (∃ t ∈ g.tasks[k]?, t.aborting = true) Iff.rfl

/-- No pipe has ended on its own, unless it was told to end. -/
def NoneFinished (g : Group) : Prop :=
  ∀ (k : ℕ) (t : UserTask), g.tasks[k]? = some t → t.aborting = false → t.broadcastPipe ≠ .finished

/-- Every frame on the group's channel has a whole header. -/
def FramesWhole (g : Group) : Prop := ∀ m ∈ g.tx.log, 5 ≤ m.length

/-- The frame that the pipe with handle `k` takes next, if it takes one, has a whole header. -/
def NextWhole (g : Group) (k : ℕ) : Prop :=
  ∀ data, (g.tx.recv k).1 = .message data → 5 ≤ data.length

lemma FramesWhole.nextWhole {g : Group} (hg : g.FramesWhole) (k : ℕ) : g.NextWhole k :=
  fun data h => hg data (g.tx.mem_log_of_recv h)

/-- The pipe with handle `k` can take its next turn without ending: it has not fallen
behind the group's channel, and if a frame of another user comes next, the user's channel
has a receiver. -/
def PipeKeepsUp (g : Group) (k : ℕ) : Prop :=
  g.tx.unread k ≤ g.tx.capacity ∧
    ∀ (t : UserTask) (data : Bytes), g.tasks[k]? = some t → (g.tx.recv k).1 = .message data →
      frameSender data ≠ t.user → t.userSender.HasReceiver

instance (g : Group) (k : ℕ) : Decidable (g.PipeKeepsUp k) :=
  decidable_of_iff (g.tx.unread k ≤ g.tx.capacity ∧
    ∀ t ∈ g.tasks[k]?, ∀ data ∈ (g.tx.recv k).1.toOption,
      frameSender data ≠ t.user → t.userSender.HasReceiver) (by
    simp only [PipeKeepsUp, Option.mem_def, Received.toOption_eq_some_iff]
    exact and_congr_right fun _ => ⟨fun h t data ht => h t ht data, fun h t ht data => h t data ht⟩)

/-- An abort takes effect on a pipe that runs and was told to end. -/
lemma cancelPipe_eq_some_iff {g g' : Group} {k : ℕ} : g.cancelPipe k = some g' ↔
    ∃ t, g.tasks[k]? = some t ∧ (t.broadcastPipe = .running ∧ t.aborting = true) ∧
      g' = g.stopPipe k .aborted := by
  rw [cancelPipe]
  cases g.tasks[k]? with
  | none => simp
  | some t =>
      simp only [Option.ite_none_right_eq_some, Option.some.injEq, eq_comm (b := g')]
      exact ⟨fun h => ⟨t, rfl, h⟩, by rintro ⟨t', rfl, h⟩; exact h⟩

/-- What one turn of a pipe can do: the pipe ends, or it takes one frame off the group's
channel and leaves every pipe as it is. -/
lemma pipeStep_cases {g g' : Group} {k : ℕ} (h : g.pipeStep k = some g') :
    ∃ t, g.tasks[k]? = some t ∧ t.broadcastPipe = .running ∧
      ((¬ (g.NextWhole k ∧ g.PipeKeepsUp k) ∧ (g' = g.stopPipe k .finished ∨
          g' = { g with tx := (g.tx.recv k).2 }.stopPipe k .finished)) ∨
        ((g.NextWhole k ∧ g.PipeKeepsUp k) ∧ (g' = { g with tx := (g.tx.recv k).2 } ∨
          ∃ f, g' = { g with tx := (g.tx.recv k).2 }.mapChannel k f))) := by
  rw [pipeStep] at h
  split at h
  · simp at h
  · rename_i t ht
    split_ifs at h with hr
    refine ⟨t, ht, hr, ?_⟩
    split at h
    · simp at h
    · rename_i n tx hrecv
      have hlag := (g.tx.recv_fst_eq_lagged_iff k).mp ⟨n, by rw [hrecv]⟩
      rw [Option.some.injEq] at h
      exact .inl ⟨fun hk => absurd hk.2.1 (by omega), .inl h.symm⟩
    · rename_i data tx hrecv
      have hle : g.tx.unread k ≤ g.tx.capacity := by
        refine Nat.le_of_not_lt fun hlt => ?_
        obtain ⟨n, hn⟩ := (g.tx.recv_fst_eq_lagged_iff k).mpr hlt
        rw [hrecv] at hn
        cases hn
      have hkeeps : g.PipeKeepsUp k ↔
          (frameSender data ≠ t.user → t.userSender.HasReceiver) := by
        simp [PipeKeepsUp, hle, ht, hrecv]
      have hwhole : g.NextWhole k ↔ 5 ≤ data.length := by simp [NextWhole, hrecv]
      have htx : tx = (g.tx.recv k).2 := by rw [hrecv]
      subst htx
      split_ifs at h with hlen hown
      · rw [Option.some.injEq] at h
        exact .inl ⟨fun hk => absurd (hwhole.mp hk.1) (by omega), .inl h.symm⟩
      · rw [Option.some.injEq] at h
        exact .inr ⟨⟨hwhole.mpr (by omega), hkeeps.mpr fun hne => absurd hown hne⟩, .inl h.symm⟩
      · split at h
        · rename_i channel hsend
          rw [Option.some.injEq] at h
          have hrec := ((t.userSender.send_eq_some_iff data).mp hsend).1
          exact .inr ⟨⟨hwhole.mpr (by omega), hkeeps.mpr fun _ => hrec⟩, .inr ⟨_, h.symm⟩⟩
        · rename_i hsend
          rw [Option.some.injEq] at h
          have hrec := (t.userSender.send_eq_none_iff data).mp hsend
          exact .inl ⟨fun hk => hrec (hkeeps.mp hk.2 hown), .inr h.symm⟩

/-- Sending a frame with a whole header. -/
lemma whole_sendIgnore {tx : Broadcast Bytes} (htx : ∀ m ∈ tx.log, 5 ≤ m.length) {m : Bytes}
    (hm : 5 ≤ m.length) : ∀ m' ∈ (tx.sendIgnore m).log, 5 ≤ m'.length := by
  intro m' hm'
  rcases tx.log_sendIgnore m with hlog | hlog
  · exact htx m' (hlog ▸ hm')
  · rw [hlog, List.mem_append, List.mem_singleton] at hm'
    rcases hm' with hm' | rfl
    · exact htx m' hm'
    · exact hm

namespace FramesWhole

variable {g : Group} (hg : g.FramesWhole)
include hg

lemma join (user : UInt32) (capacity : Option ℕ) : (g.join user capacity).FramesWhole := by
  have hlog : (g.join user capacity).tx.log = g.tx.log := by
    rw [Group.join]
    dsimp only
    split
    · split_ifs <;> rfl
    · split_ifs <;> rfl
  rwa [FramesWhole, hlog]

lemma stopPipe (k : ℕ) (status : TaskStatus) : (g.stopPipe k status).FramesWhole := by
  rw [Group.stopPipe]
  split
  · exact hg
  · split_ifs
    · exact hg
    · exact hg

lemma leave (user : UInt32) : (g.leave user).FramesWhole := by
  have hlen : 5 ≤ (networkEvent user false).length := by simp [networkEvent]
  rw [Group.leave]
  split_ifs
  · dsimp only
    split
    · exact whole_sendIgnore hg hlen
    · exact whole_sendIgnore hg hlen
  · exact hg

end FramesWhole

/-- The member `user` has a pipe, and it runs. -/
def HasRunningPipe (g : Group) (user : UInt32) : Prop :=
  ∃ k t, g.userTasks[user]? = some k ∧ g.tasks[k]? = some t ∧ t.broadcastPipe = .running

/-- Where no pipe has ended on its own, every member's pipe runs. -/
lemma Wf.hasRunningPipe {g : Group} (hg : g.Wf) (hnone : g.NoneFinished) {user : UInt32}
    (hu : user ∈ g.innerUser) : g.HasRunningPipe user := by
  obtain ⟨k, hk⟩ := Option.isSome_iff_exists.mp
    (ExtTreeMap.mem_iff_isSome_getElem?.mp ((hg.mem_iff user).mp hu))
  obtain ⟨t, ht, -, habort, hgoes⟩ := hg.task user k hk
  refine ⟨k, t, hk, ht, ?_⟩
  have hfin := hnone k t ht hgoes
  cases hst : t.broadcastPipe with
  | running => rfl
  | finished => exact absurd hst hfin
  | aborted => exact absurd hst habort

namespace NoneFinished

variable {g : Group} (hg : g.NoneFinished)
include hg

lemma mapChannel (k : ℕ) (f : Broadcast Bytes → Broadcast Bytes) :
    (g.mapChannel k f).NoneFinished := by
  intro j u hu
  rw [tasks_mapChannel] at hu
  obtain ⟨v, hv, rfl⟩ := Option.map_eq_some_iff.mp hu
  have := hg j v hv
  split_ifs
  · exact this
  · exact this

lemma abortPipe (k : ℕ) : (g.abortPipe k).NoneFinished := by
  intro j u hu
  rw [tasks_abortPipe] at hu
  obtain ⟨v, hv, rfl⟩ := Option.map_eq_some_iff.mp hu
  have := hg j v hv
  split_ifs
  · exact fun h => by cases h
  · exact this

/-- A pipe may end that was told to. -/
lemma stopPipe {k : ℕ} (habort : ∀ t, g.tasks[k]? = some t → t.aborting = true)
    (status : TaskStatus) : (g.stopPipe k status).NoneFinished := by
  intro j u hu
  rw [tasks_stopPipe] at hu
  obtain ⟨v, hv, rfl⟩ := Option.map_eq_some_iff.mp hu
  have := hg j v hv
  split_ifs with hjk
  · intro hgoes
    have hv' : v.aborting = true := habort v (hjk.1 ▸ hv)
    exact absurd (hv'.symm.trans hgoes) (by simp)
  · exact this

lemma join (user : UInt32) (capacity : Option ℕ) : (g.join user capacity).NoneFinished := by
  have hmem : ∀ g₀ : Group, g₀.tasks = g.tasks → g₀.NoneFinished := fun g₀ h₀ k t ht =>
    hg k t (h₀ ▸ ht)
  rw [Group.join]
  dsimp only
  split
  · exact hmem _ (by split_ifs <;> rfl)
  · intro k t ht
    have htasks : ∀ g₀ : Group, g₀.tasks = g.tasks →
        (g₀.tasks ++ [⟨user, Broadcast.new (capacity.getD 64), .running, false⟩])[k]? = some t →
        t.aborting = false → t.broadcastPipe ≠ .finished := by
      intro g₀ h₀ ht
      rw [h₀, List.getElem?_append] at ht
      split_ifs at ht with hlt
      · exact hg k t ht
      · rw [List.mem_singleton.mp (List.mem_of_getElem? ht)]
        simp
    exact htasks _ (by split_ifs <;> rfl) ht

lemma leave (user : UInt32) : (g.leave user).NoneFinished := by
  rw [Group.leave]
  split_ifs
  · dsimp only
    split
    · rename_i k _
      exact NoneFinished.abortPipe (g := { g with
        innerUser := Vec.swapRemove g.innerUser (g.innerUser.idxOf user)
        userCount := g.userCount - 1 }) hg k
    · exact hg
  · exact hg

end NoneFinished

/-- A turn of a pipe keeps the parts in step. -/
lemma Wf.pipeStep {g g' : Group} {k : ℕ} (hg : g.Wf) (h : g.pipeStep k = some g') : g'.Wf := by
  have htx : ({ g with tx := (g.tx.recv k).2 } : Group).Wf := hg.setTx fun j => by simp
  obtain ⟨t, -, -, ⟨-, rfl | rfl⟩ | ⟨-, rfl | ⟨f, rfl⟩⟩⟩ := pipeStep_cases h
  · exact hg.finishPipe k
  · exact htx.finishPipe k
  · exact htx
  · exact htx.mapChannel k f

/-- So does an abort that takes effect. -/
lemma Wf.cancelPipe {g g' : Group} {k : ℕ} (hg : g.Wf) (h : g.cancelPipe k = some g') :
    g'.Wf := by
  obtain ⟨t, ht, ⟨-, habort⟩, rfl⟩ := cancelPipe_eq_some_iff.mp h
  refine hg.stopPipe k (by simp) fun _ t' ht' => ?_
  rwa [← Option.some.inj (ht.symm.trans ht')]

/-- A turn of a pipe puts nothing on the group's channel. -/
lemma FramesWhole.pipeStep {g g' : Group} {k : ℕ} (hg : g.FramesWhole)
    (h : g.pipeStep k = some g') : g'.FramesWhole := by
  have htx : ({ g with tx := (g.tx.recv k).2 } : Group).FramesWhole := by
    intro m hm
    exact hg m (by simpa using hm)
  obtain ⟨t, -, -, ⟨-, rfl | rfl⟩ | ⟨-, rfl | ⟨f, rfl⟩⟩⟩ := pipeStep_cases h
  · exact hg.stopPipe k .finished
  · exact htx.stopPipe k .finished
  · exact htx
  · exact htx

lemma FramesWhole.cancelPipe {g g' : Group} {k : ℕ} (hg : g.FramesWhole)
    (h : g.cancelPipe k = some g') : g'.FramesWhole := by
  obtain ⟨t, -, -, rfl⟩ := cancelPipe_eq_some_iff.mp h
  exact hg.stopPipe k .aborted

lemma NoneFinished.cancelPipe {g g' : Group} {k : ℕ} (hg : g.NoneFinished)
    (h : g.cancelPipe k = some g') : g'.NoneFinished := by
  obtain ⟨t, ht, ⟨-, habort⟩, rfl⟩ := cancelPipe_eq_some_iff.mp h
  refine hg.stopPipe (fun t' ht' => ?_) .aborted
  rwa [← Option.some.inj (ht.symm.trans ht')]

/-- **When a pipe ends on its own**: a pipe that was not told to end does exactly when the next
frame has no whole header, when it falls behind, or when its user has no receiver for the
frame. -/
theorem noneFinished_pipeStep_iff {g g' : Group} {k : ℕ} (hg : g.NoneFinished)
    (h : g.pipeStep k = some g') :
    g'.NoneFinished ↔ g.Aborting k ∨ g.NextWhole k ∧ g.PipeKeepsUp k := by
  obtain ⟨t, ht, hr, hcases⟩ := pipeStep_cases h
  have hstop : ∀ g₀ : Group, g₀.tasks = g.tasks →
      ((g₀.stopPipe k .finished).NoneFinished ↔ g.Aborting k) := by
    intro g₀ h₀
    constructor
    · intro hnone
      refine ⟨t, ht, Bool.eq_true_of_not_eq_false fun hgoes => ?_⟩
      refine hnone k { t with broadcastPipe := .finished } ?_ hgoes rfl
      rw [tasks_stopPipe, h₀, ht, Option.map_some, if_pos ⟨rfl, hr⟩]
    · rintro ⟨t', ht', habort⟩
      have hg₀ : g₀.NoneFinished := fun j v hv => hg j v (h₀ ▸ hv)
      refine hg₀.stopPipe (fun v hv => ?_) .finished
      rw [h₀, ht', Option.some.injEq] at hv
      exact hv ▸ habort
  rcases hcases with ⟨hk, rfl | rfl⟩ | ⟨hk, rfl | ⟨f, rfl⟩⟩
  · exact (hstop g rfl).trans (or_iff_left hk).symm
  · exact (hstop { g with tx := (g.tx.recv k).2 } rfl).trans (or_iff_left hk).symm
  · exact iff_of_true hg (.inr hk)
  · exact iff_of_true (NoneFinished.mapChannel (g := { g with tx := _ }) hg k f) (.inr hk)

/-- Where all frames have a whole header, the pipes have to keep up only. -/
lemma FramesWhole.noneFinished_pipeStep_iff {g g' : Group} {k : ℕ} (hframes : g.FramesWhole)
    (hg : g.NoneFinished) (h : g.pipeStep k = some g') :
    g'.NoneFinished ↔ g.Aborting k ∨ g.PipeKeepsUp k :=
  (Group.noneFinished_pipeStep_iff hg h).trans
    (or_congr_right (and_iff_right (hframes.nextWhole k)))

end Group

end SfuServer
