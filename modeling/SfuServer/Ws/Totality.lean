import SfuServer.Ws.Index

/-!
All public operations of `GroupsManager` of `libs/libws/src/lib.rs`, in any order and with any
arguments, beside the pipes that the joins started.

An operation may look up a group, which is answered, and a user of it, which is unwrapped.  A
group that is replaced by a new one of its name, or removed, is out of reach of the manager; but
the pipes of a replaced group still run, and senders that were handed out still reach it.

* `sendMessageToGroup`, `sendMessageToUser`, `getUserReceiver` and the like: the operations that
  use what is in the groups; `call`: all operations, where `none` is a panic;
* `GroupsSystem`: the manager with the groups it has given up; `groupsLife sizes`: the machine;
* `Group.PipePanics`: the turns of the pipes that panic, after which the pipe has ended;
* `call_eq_none_iff`: which calls panic; `forallGroups_call`: what a call does to the groups;
* `Total`: nothing panics, what is missing is answered by an error, and the pipes of all members
  run;
* `total_iff`: every step of a run is `Total` exactly if every step is `Careful`.
-/

open Std (ExtTreeMap)

namespace SfuServer

/-- What the library makes of the capacity that a channel is created with: how many messages the
channel retains, or a panic. -/
structure ChannelSizes where
  retained : ℕ → Option ℕ
  retained_64 : retained 64 = some 64

/-! ### What the operations do in a group -/

namespace Group

/-- `Group::send`: the number of receivers, or the failure where there is none. -/
def send (g : Group) (data : Bytes) : Option ℕ × Group :=
  match g.tx.send data with
  | some tx => (some tx.cursors.size, { g with tx := tx })
  | none => (none, g)

/-- `Group::send_to_user`; the outer `none` is the panic on a user without a sender. -/
def sendToUser (g : Group) (user : UInt32) (data : Bytes) : Option (Option ℕ × Group) :=
  g.userSenders[user]?.map fun k =>
    match g.tasks[k]?.bind fun t => t.userSender.send data with
    | some channel => (some channel.cursors.size, g.mapChannel k fun _ => channel)
    | none => (none, g)

/-- The end of `GroupsManager::remove_group`: the pipes of the members are aborted. -/
def abortPipes (g : Group) : Group :=
  g.userTasks.values.foldl abortPipe g

/-- The next turn of the pipe with handle `k` is the read of a header that is not there. -/
def PipePanics (g : Group) (k : ℕ) : Prop :=
  (∃ t, g.tasks[k]? = some t ∧ t.broadcastPipe = .running) ∧
    ∃ data, (g.tx.recv k).1 = .message data ∧ data.length < 5

variable {g g' : Group} {k : ℕ} {user : UInt32}

/-- A message that is sent to a group. -/
lemma eq_of_send {data : Bytes} {n : ℕ} (h : g.send data = (some n, g')) :
    g' = { g with tx := g.tx.sendIgnore data } := by
  rw [send] at h
  rw [Broadcast.sendIgnore]
  cases hsend : g.tx.send data with
  | none => simp [hsend] at h
  | some tx =>
      rw [hsend, Prod.mk.injEq] at h
      exact h.2.symm

/-- A message that is sent to a user. -/
lemma exists_of_sendToUser {data : Bytes} {n : ℕ}
    (h : g.sendToUser user data = some (some n, g')) : ∃ k f, g' = g.mapChannel k f := by
  obtain ⟨k, -, h⟩ := Option.map_eq_some_iff.mp h
  split at h
  · obtain ⟨-, rfl⟩ := Prod.mk.inj h
    exact ⟨k, _, rfl⟩
  · simp at h

/-- A pipe that panics has ended. -/
lemma PipePanics.pipeStep_eq (h : g.PipePanics k) :
    g.pipeStep k = some (g.stopPipe k .finished) := by
  obtain ⟨⟨t, ht, hrun⟩, data, hdata, hlt⟩ := h
  obtain ⟨tx, hrecv⟩ : ∃ tx, g.tx.recv k = (.message data, tx) := ⟨_, Prod.ext hdata rfl⟩
  rw [pipeStep, ht]
  simp [hrun, hrecv, hlt]

/-- A turn of a pipe is no panic exactly if the next frame has a whole header. -/
lemma not_pipePanics_iff (h : g.pipeStep k = some g') : ¬ g.PipePanics k ↔ g.NextWhole k := by
  obtain ⟨t, ht, hrun, -⟩ := pipeStep_cases h
  have hpipe : ∃ t, g.tasks[k]? = some t ∧ t.broadcastPipe = .running := ⟨t, ht, hrun⟩
  simp only [PipePanics, hpipe, true_and, not_exists, not_and, not_lt, NextWhole]

/-- The members are the users with a sender. -/
lemma Wf.mem_innerUser_iff (hg : g.Wf) : user ∈ g.innerUser ↔ g.userSenders[user]? ≠ none := by
  rw [hg.mem_iff, hg.senders, ExtTreeMap.mem_iff_isSome_getElem?, Option.isSome_iff_ne_none]

end Group

/-! ### The operations of the manager -/

namespace GroupsManager

/-- `GroupsManager::send_message_to_group`. -/
def sendMessageToGroup (m : GroupsManager) (group : String) (data : Bytes) :
    Except GroupError ℕ × GroupsManager :=
  match m.inner[group]? with
  | none => (.error .groupNotFound, m)
  | some g =>
      match g.send data with
      | (some n, g) => (.ok n, m.mapGroup group fun _ => g)
      | (none, _) => (.error .messageSendFail, m)

/-- `GroupsManager::send_message_to_user`; `none` is the panic on a user without a sender. -/
def sendMessageToUser (m : GroupsManager) (group : String) (user : UInt32) (data : Bytes) :
    Option (Except GroupError ℕ) × GroupsManager :=
  match m.inner[group]? with
  | none => (some (.error .groupNotFound), m)
  | some g =>
      match g.sendToUser user data with
      | none => (none, m)
      | some (some n, g) => (some (.ok n), m.mapGroup group fun _ => g)
      | some (none, _) => (some (.error .messageSendFail), m)

/-- `GroupsManager::is_group_empty`. -/
def isGroupEmpty (m : GroupsManager) (name : String) : Except GroupError Bool :=
  match m.inner[name]? with
  | none => .error .groupNotFound
  | some g => .ok g.isEmpty

/-- `GroupsManager::groups_count`. -/
def groupsCount (m : GroupsManager) : ℕ := m.inner.size

/-- `GroupsManager::get_user_receiver`, where the new receiver is named `r`; `none` is the panic
on a user without a sender. -/
def getUserReceiver (m : GroupsManager) (group : String) (user : UInt32) (r : ℕ) :
    Option (Except GroupError ℕ) × GroupsManager :=
  match m.getUserSender group user with
  | .error e => (some (.error e), m)
  | .ok none => (none, m)
  | .ok (some k) => (some (.ok k), m.mapGroup group fun g => g.mapChannel k (·.subscribe r))

/-- `GroupsManager::get_user_sender_map`: the handles of the channels of the users. -/
def getUserSenderMap (m : GroupsManager) (group : String) :
    Except GroupError (ExtTreeMap UInt32 ℕ) :=
  match m.inner[group]? with
  | none => .error .groupNotFound
  | some g => .ok g.userSenders

end GroupsManager

/-- A call of a public operation. -/
inductive GroupsCall where
  | newGroup (name : String) (capacity : Option ℕ)
  | groupExists (name : String)
  | joinOrCreate (user : UInt32) (group : String)
  | sendMessageToGroup (group : String) (data : Bytes)
  | sendMessageToUser (group : String) (user : UInt32) (data : Bytes)
  | initUser (user : UInt32)
  | endUser (user : UInt32)
  | joinGroup (name : String) (user : UInt32)
  | removeGroup (group : String)
  | leaveGroup (name : String) (user : UInt32)
  | isGroupEmpty (name : String)
  | groupsCount
  | getUserReceiver (group : String) (user : UInt32) (r : ℕ)
  | getUserSender (group : String) (user : UInt32)
  | getUserSenderMap (group : String)

namespace GroupsCall

/-- The group without which the call is answered by an error. -/
def addressed : GroupsCall → Option String
  | .sendMessageToGroup group _ | .sendMessageToUser group _ _ | .joinGroup group _
  | .leaveGroup group _ | .isGroupEmpty group | .getUserReceiver group _ _
  | .getUserSender group _ | .getUserSenderMap group => some group
  | .newGroup .. | .groupExists _ | .joinOrCreate .. | .initUser _ | .endUser _
  | .removeGroup _ | .groupsCount => none

/-- The user that the call looks up in a group. -/
def lookedUp : GroupsCall → Option (String × UInt32)
  | .sendMessageToUser group user _ | .getUserReceiver group user _
  | .getUserSender group user => some (group, user)
  | .newGroup .. | .groupExists _ | .joinOrCreate .. | .sendMessageToGroup .. | .initUser _
  | .endUser _ | .joinGroup .. | .removeGroup _ | .leaveGroup .. | .isGroupEmpty _
  | .groupsCount | .getUserSenderMap _ => none

/-- A user is looked up in a group that is looked up first. -/
lemma addressed_of_lookedUp {c : GroupsCall} {group : String} {user : UInt32}
    (h : c.lookedUp = some (group, user)) : c.addressed = some group := by
  cases c <;> simp_all [lookedUp, addressed]

end GroupsCall

/-- Whether there was an answer, without what is in it. -/
def answered {α : Type} : Except GroupError α → Except GroupError Unit
  | .ok _ => .ok ()
  | .error e => .error e

namespace GroupsManager

/-- A call: whether it is answered, where `none` is a panic, and the manager after it. -/
def call (sizes : ChannelSizes) (m : GroupsManager) :
    GroupsCall → Option (Except GroupError Unit) × GroupsManager
  | .newGroup name capacity =>
      match sizes.retained (capacity.getD 64) with
      | some n => (some (.ok ()), m.newGroup name (some n))
      | none => (none, m)
  | .groupExists name => (some (answered (.ok (m.groupExists name))), m)
  | .joinOrCreate user group =>
      (some (answered (m.joinOrCreate user group)), m.orElse (m.joinOrCreate user group))
  | .sendMessageToGroup group data =>
      (some (answered (m.sendMessageToGroup group data).1), (m.sendMessageToGroup group data).2)
  | .sendMessageToUser group user data =>
      ((m.sendMessageToUser group user data).1.map answered,
        (m.sendMessageToUser group user data).2)
  | .initUser user => (some (.ok ()), m.initUser user)
  | .endUser user => (some (.ok ()), m.endUser user)
  | .joinGroup name user =>
      (some (answered (m.joinGroup name user)), m.orElse (m.joinGroup name user))
  | .removeGroup group => (some (.ok ()), m.removeGroup group)
  | .leaveGroup name user =>
      (some (answered (m.leaveGroup name user)), m.orElse (m.leaveGroup name user))
  | .isGroupEmpty name => (some (answered (m.isGroupEmpty name)), m)
  | .groupsCount => (some (answered (.ok m.groupsCount)), m)
  | .getUserReceiver group user r =>
      ((m.getUserReceiver group user r).1.map answered, (m.getUserReceiver group user r).2)
  | .getUserSender group user =>
      match m.getUserSender group user with
      | .error e => (some (.error e), m)
      | .ok none => (none, m)
      | .ok (some _) => (some (.ok ()), m)
  | .getUserSenderMap group => (some (answered (m.getUserSenderMap group)), m)

/-- The group that a call gives up: the one whose name is taken by a new one, or the one that is
removed, with its pipes. -/
def givenUp (sizes : ChannelSizes) (m : GroupsManager) : GroupsCall → Option Group
  | .newGroup name capacity =>
      if (sizes.retained (capacity.getD 64)).isSome then m.inner[name]? else none
  | .removeGroup group => m.inner[group]?.map Group.abortPipes
  | _ => none

end GroupsManager

/-- What is done with a sender or a receiver that was handed out: a message is sent to the group,
or to a user's channel, or a receiver of that channel is set up, reads or is dropped. -/
inductive ChannelUse where
  | broadcast (data : Bytes)
  | unicast (k : ℕ) (data : Bytes)
  | subscribe (k r : ℕ)
  | receive (k r : ℕ)
  | unsubscribe (k r : ℕ)

/-- The group after that. -/
def ChannelUse.apply (g : Group) : ChannelUse → Group
  | .broadcast data => { g with tx := g.tx.sendIgnore data }
  | .unicast k data => g.mapChannel k (·.sendIgnore data)
  | .subscribe k r => g.mapChannel k (·.subscribe r)
  | .receive k r => g.mapChannel k fun c => (c.recv r).2
  | .unsubscribe k r => g.mapChannel k (·.unsubscribe r)

/-- A groups manager, and the groups that it has given up. -/
structure GroupsSystem where
  manager : GroupsManager
  retired : List Group

/-- What can happen: a call, the use of a channel of a group, a turn of a pipe, and the end of a
pipe that was aborted; the last three also in a group that was given up. -/
inductive GroupsEvent where
  | call (c : GroupsCall)
  | use (name : String) (use : ChannelUse)
  | pipe (name : String) (k : ℕ)
  | cancel (name : String) (k : ℕ)
  | useRetired (i : ℕ) (use : ChannelUse)
  | pipeRetired (i k : ℕ)
  | cancelRetired (i k : ℕ)

namespace GroupsSystem

/-- A manager without groups. -/
def new : GroupsSystem := ⟨.new, []⟩

/-- One step. -/
def step (sizes : ChannelSizes) (s : GroupsSystem) : GroupsEvent → Option GroupsSystem
  | .call c =>
      some ⟨(s.manager.call sizes c).2, s.retired ++ (s.manager.givenUp sizes c).toList⟩
  | .use name use => some { s with manager := s.manager.mapGroup name fun g => use.apply g }
  | .pipe name k =>
      s.manager.inner[name]?.bind fun g =>
        (g.pipeStep k).map fun g' => { s with manager := s.manager.mapGroup name fun _ => g' }
  | .cancel name k =>
      s.manager.inner[name]?.bind fun g =>
        (g.cancelPipe k).map fun g' => { s with manager := s.manager.mapGroup name fun _ => g' }
  | .useRetired i use => some { s with retired := s.retired.modify i fun g => use.apply g }
  | .pipeRetired i k =>
      s.retired[i]?.bind fun g =>
        (g.pipeStep k).map fun g' => { s with retired := s.retired.set i g' }
  | .cancelRetired i k =>
      s.retired[i]?.bind fun g =>
        (g.cancelPipe k).map fun g' => { s with retired := s.retired.set i g' }

end GroupsSystem

/-- The machine of a groups manager under all its operations. -/
def groupsLife (sizes : ChannelSizes) : Machine GroupsSystem GroupsEvent where
  init s := s = .new
  step := GroupsSystem.step sizes

namespace GroupsManager

variable {sizes : ChannelSizes} {m : GroupsManager} {c : GroupsCall} {P : Group → Prop}

/-! ### What a call does to the groups -/

lemma users_of_getElem? {name : String} {g : Group} (h : m.inner[name]? = some g) :
    m.users name = g.innerUser := by
  rw [users, h]

lemma ForallGroups.orElse_joinOrCreate (hm : ForallGroups P m) {user : UInt32} {name : String}
    (hnew : P (Group.new name none)) (hjoin : ∀ g, P g → P (g.join user none)) :
    ForallGroups P (m.orElse (m.joinOrCreate user name)) :=
  hm.joinOrCreate hnew hjoin (m.joinOrCreate_orElse user name)

/-- **What a call does to the groups**: it sets up new ones, lets users join and leave, and puts
messages and receivers on the channels that are there. -/
lemma forallGroups_call (hm : ForallGroups P m)
    (hnew : ∀ name capacity, P (Group.new name capacity))
    (hjoin : ∀ g user, P g → P (g.join user none)) (hleave : ∀ g user, P g → P (g.leave user))
    (hsend : ∀ g data, P g → P { g with tx := g.tx.sendIgnore data })
    (hchannel : ∀ g k f, P g → P (g.mapChannel k f)) : ForallGroups P (m.call sizes c).2 := by
  cases c with
  | newGroup name capacity =>
      rw [call]
      cases sizes.retained (capacity.getD 64) with
      | none => exact hm
      | some n =>
          intro k g hg
          change (m.inner.insert name _)[k]? = some g at hg
          rw [ExtTreeMap.getElem?_insert] at hg
          split_ifs at hg
          · exact Option.some.inj hg ▸ hnew name (some n)
          · exact hm k g hg
  | joinOrCreate user group => exact hm.orElse_joinOrCreate (hnew group none) fun g => hjoin g user
  | sendMessageToGroup group data =>
      change ForallGroups P (m.sendMessageToGroup group data).2
      rw [sendMessageToGroup]
      split
      · exact hm
      · rename_i g hg
        split
        · rename_i n g' hsent
          refine hm.mapGroup fun g₀ hg₀ hP => ?_
          obtain rfl := Option.some.inj (hg.symm.trans hg₀)
          rw [Group.eq_of_send hsent]
          exact hsend g data hP
        · exact hm
  | sendMessageToUser group user data =>
      change ForallGroups P (m.sendMessageToUser group user data).2
      rw [sendMessageToUser]
      split
      · exact hm
      · rename_i g hg
        split
        · exact hm
        · rename_i n g' hsent
          refine hm.mapGroup fun g₀ hg₀ hP => ?_
          obtain rfl := Option.some.inj (hg.symm.trans hg₀)
          obtain ⟨k, f, rfl⟩ := Group.exists_of_sendToUser hsent
          exact hchannel g k f hP
        · exact hm
  | initUser user => exact fun k g hg => hm k g (by rwa [call, inner_initUser] at hg)
  | endUser user => exact hm.endUser fun g => hleave g user
  | joinGroup name user =>
      change ForallGroups P (m.orElse (m.joinGroup name user))
      rcases m.orElse_joinGroup name user with h | h
      · rwa [h]
      · exact hm.joinOrCreate (hnew name none) (fun g => hjoin g user) h
  | removeGroup group =>
      intro k g hg
      change (m.removeGroup group).inner[k]? = some g at hg
      rw [removeGroup] at hg
      split at hg
      · exact hm k g hg
      · rw [ExtTreeMap.getElem?_erase] at hg
        split_ifs at hg
        exact hm k g hg
  | leaveGroup name user =>
      change ForallGroups P (m.orElse (m.leaveGroup name user))
      rw [orElse_leaveGroup]
      exact hm.leaveOrWarn fun g => hleave g user
  | getUserReceiver group user r =>
      change ForallGroups P (m.getUserReceiver group user r).2
      rw [getUserReceiver]
      split
      · exact hm
      · exact hm
      · exact hm.mapGroup fun g _ => hchannel g _ _
  | getUserSender group user =>
      rw [call]
      split <;> exact hm
  | groupExists name | isGroupEmpty name | groupsCount | getUserSenderMap group => exact hm

/-- A use of a channel does what a call could do. -/
lemma apply_use {g : Group} (use : ChannelUse) (hP : P g)
    (hsend : ∀ g data, P g → P { g with tx := g.tx.sendIgnore data })
    (hchannel : ∀ g k f, P g → P (g.mapChannel k f)) : P (use.apply g) := by
  cases use with
  | broadcast data => exact hsend g data hP
  | unicast k data => exact hchannel g k (·.sendIgnore data) hP
  | subscribe k r => exact hchannel g k (·.subscribe r) hP
  | receive k r => exact hchannel g k (fun c => (c.recv r).2) hP
  | unsubscribe k r => exact hchannel g k (·.unsubscribe r) hP

/-! ### Which calls panic -/

/-- The call is one that the manager can take: a new group has a capacity that a channel can be
created with, and a user is looked up in a group that is not there or has it. -/
def Accepts (sizes : ChannelSizes) (m : GroupsManager) (c : GroupsCall) : Prop :=
  (∀ name capacity, c = .newGroup name capacity →
    (sizes.retained (capacity.getD 64)).isSome = true) ∧
  ∀ group user, c.lookedUp = some (group, user) → group ∈ m.inner → user ∈ m.users group

/-- A user is looked up where it is not a member. -/
lemma getUserSender_eq_ok_none_iff (hm : ForallGroups Group.Wf m) {group : String}
    {user : UInt32} : m.getUserSender group user = .ok none ↔
      ¬ (group ∈ m.inner → user ∈ m.users group) := by
  rw [getUserSender]
  cases hg : m.inner[group]? with
  | none => simp [not_mem_inner_of_getElem? hg]
  | some g =>
      rw [users_of_getElem? hg, (hm group g hg).mem_innerUser_iff]
      simp [mem_inner_of_getElem? hg]

lemma sendMessageToUser_eq_none_iff {group : String} {user : UInt32} {data : Bytes} :
    (m.sendMessageToUser group user data).1 = none ↔ m.getUserSender group user = .ok none := by
  rw [sendMessageToUser, getUserSender]
  cases m.inner[group]? with
  | none => simp
  | some g =>
      dsimp only
      cases hk : g.userSenders[user]? with
      | none => simp [Group.sendToUser, hk]
      | some k =>
          obtain ⟨sent, hsent⟩ : ∃ sent, g.sendToUser user data = some sent :=
            ⟨_, congrArg (Option.map _) hk⟩
          rw [hsent]
          obtain ⟨sent, g'⟩ := sent
          cases sent <;> simp

lemma getUserReceiver_eq_none_iff {group : String} {user : UInt32} {r : ℕ} :
    (m.getUserReceiver group user r).1 = none ↔ m.getUserSender group user = .ok none := by
  rw [getUserReceiver]
  rcases m.getUserSender group user with e | _ | k <;> simp

/-- **Which calls panic**: exactly those that the manager cannot take. -/
theorem call_eq_none_iff (hm : ForallGroups Group.Wf m) :
    (m.call sizes c).1 = none ↔ ¬ m.Accepts sizes c := by
  -- a call that looks up a user is one that can be taken exactly if it finds the user
  have hlookup : ∀ group user, c.lookedUp = some (group, user) →
      (∀ name capacity, c ≠ .newGroup name capacity) →
      (m.getUserSender group user = .ok none ↔ ¬ m.Accepts sizes c) := by
    intro group user hc hne
    simp [getUserSender_eq_ok_none_iff hm, Accepts, hc, hne]
  cases c with
  | newGroup name capacity =>
      rw [call]
      cases hn : sizes.retained (capacity.getD 64) with
      | none => simp [Accepts, hn]
      | some n => simp [Accepts, hn, GroupsCall.lookedUp]
  | sendMessageToUser group user data =>
      rw [← hlookup group user rfl (by simp), call, Option.map_eq_none_iff,
        sendMessageToUser_eq_none_iff]
  | getUserReceiver group user r =>
      rw [← hlookup group user rfl (by simp), call, Option.map_eq_none_iff,
        getUserReceiver_eq_none_iff]
  | getUserSender group user =>
      rw [← hlookup group user rfl (by simp), call]
      rcases m.getUserSender group user with e | _ | k <;> simp
  | groupExists name | joinOrCreate user group | sendMessageToGroup group data | initUser user
  | endUser user | joinGroup name user | removeGroup group | leaveGroup name user
  | isGroupEmpty name | groupsCount | getUserSenderMap group =>
      simp [call, Accepts, GroupsCall.lookedUp]

/-- A call about a group that is not there. -/
lemma call_of_missing {name : String} (hc : c.addressed = some name) (hname : name ∉ m.inner) :
    (m.call sizes c).1 = some (.error .groupNotFound) := by
  have hnone : m.inner[name]? = none := ExtTreeMap.getElem?_eq_none hname
  cases c with
  | sendMessageToGroup group data | sendMessageToUser group user data | joinGroup group user
  | leaveGroup group user | isGroupEmpty group | getUserReceiver group user r
  | getUserSender group user | getUserSenderMap group =>
      obtain rfl := Option.some.inj hc
      simp [call, sendMessageToGroup, sendMessageToUser, joinGroup, leaveGroup, isGroupEmpty,
        getUserReceiver, getUserSender, getUserSenderMap, hnone, answered]
  | newGroup name capacity | groupExists name | joinOrCreate user group | initUser user
  | endUser user | removeGroup group | groupsCount => cases hc

end GroupsManager

/-! ### Totality -/

namespace GroupsSystem

variable {sizes : ChannelSizes} {s t : GroupsSystem} {e : GroupsEvent}

/-- The event is a turn of a pipe that panics. -/
def PipePanics (s : GroupsSystem) : GroupsEvent → Prop
  | .pipe name k => ∃ g, s.manager.inner[name]? = some g ∧ g.PipePanics k
  | .pipeRetired i k => ∃ g, s.retired[i]? = some g ∧ g.PipePanics k
  | .call _ | .use .. | .cancel .. | .useRetired .. | .cancelRetired .. => False

/-- The pipes of a group serve: none has ended on its own before it was aborted, and every member
has one that runs. -/
structure Serves (g : Group) : Prop where
  noneFinished : g.NoneFinished
  running : ∀ user ∈ g.innerUser, g.HasRunningPipe user

/-- A step is total: no call and no pipe panics, a call about a group that is not there, or one
that looks up a user who is not a member, is answered by an error, and after the step the pipes of
all members run. -/
structure Total (sizes : ChannelSizes) (s : GroupsSystem) (e : GroupsEvent) (t : GroupsSystem) :
    Prop where
  returns : ∀ c, e = .call c → (s.manager.call sizes c).1 ≠ none
  pipes : ¬ s.PipePanics e
  missing : ∀ c name, e = .call c → c.addressed = some name → name ∉ s.manager.inner →
    (s.manager.call sizes c).1 = some (.error .groupNotFound)
  strangers : ∀ c name user, e = .call c → c.lookedUp = some (name, user) →
    user ∉ s.manager.users name → ∃ error, (s.manager.call sizes c).1 = some (.error error)
  served : t.manager.ForallGroups Serves

/-- A step is careful: a new group has a capacity that a channel can be created with, a user is
looked up in a group that is not there or has it, and a pipe that takes a turn finds a whole
header, is not behind by more than the capacity, and has a receiver for the frame of another user.
Of a pipe that was aborted, and in a group that was given up, only the header matters. -/
def Careful (sizes : ChannelSizes) (s : GroupsSystem) : GroupsEvent → Prop
  | .call c => s.manager.Accepts sizes c
  | .pipe name k => ∀ g, s.manager.inner[name]? = some g →
      g.NextWhole k ∧ (g.Aborting k ∨ g.PipeKeepsUp k)
  | .pipeRetired i k => ∀ g, s.retired[i]? = some g → g.NextWhole k
  | .use .. | .cancel .. | .useRetired .. | .cancelRetired .. => True

/-- What careful steps keep. -/
structure Sound (s : GroupsSystem) : Prop where
  wf : s.manager.ForallGroups Group.Wf
  noneFinished : s.manager.ForallGroups Group.NoneFinished

lemma Sound.served (hs : s.Sound) : s.manager.ForallGroups Serves := fun name g hg =>
  ⟨hs.noneFinished name g hg, fun _ hmem =>
    (hs.wf name g hg).hasRunningPipe (hs.noneFinished name g hg) hmem⟩

/-- A turn of a pipe, and the group after it. -/
lemma pipe_eq_some_iff {name : String} {k : ℕ} :
    s.step sizes (.pipe name k) = some t ↔ ∃ g g', s.manager.inner[name]? = some g ∧
      g.pipeStep k = some g' ∧ t = { s with manager := s.manager.mapGroup name fun _ => g' } := by
  simp only [step, Option.bind_eq_some_iff, Option.map_eq_some_iff, eq_comm (a := t),
    exists_and_left]

lemma pipeRetired_eq_some_iff {i k : ℕ} :
    s.step sizes (.pipeRetired i k) = some t ↔ ∃ g g', s.retired[i]? = some g ∧
      g.pipeStep k = some g' ∧ t = { s with retired := s.retired.set i g' } := by
  simp only [step, Option.bind_eq_some_iff, Option.map_eq_some_iff, eq_comm (a := t),
    exists_and_left]

/-- An abort that takes effect, and the group after it. -/
lemma cancel_eq_some_iff {name : String} {k : ℕ} :
    s.step sizes (.cancel name k) = some t ↔ ∃ g g', s.manager.inner[name]? = some g ∧
      g.cancelPipe k = some g' ∧
        t = { s with manager := s.manager.mapGroup name fun _ => g' } := by
  simp only [step, Option.bind_eq_some_iff, Option.map_eq_some_iff, eq_comm (a := t),
    exists_and_left]

lemma manager_cancelRetired {i k : ℕ} (hst : s.step sizes (.cancelRetired i k) = some t) :
    t.manager = s.manager := by
  obtain ⟨g, -, hst⟩ := Option.bind_eq_some_iff.mp hst
  obtain ⟨g', -, rfl⟩ := Option.map_eq_some_iff.mp hst
  rfl

/-- A step keeps the groups well formed. -/
lemma wf_step (hs : s.manager.ForallGroups Group.Wf) (hst : s.step sizes e = some t) :
    t.manager.ForallGroups Group.Wf := by
  have hsend : ∀ (g : Group) (data : Bytes), g.Wf →
      ({ g with tx := g.tx.sendIgnore data } : Group).Wf := fun g data hg =>
    hg.setTx fun _ => Broadcast.live_sendIgnore ..
  cases e with
  | call c =>
      cases hst
      exact GroupsManager.forallGroups_call hs Group.wf_new (fun g user hg => hg.join user none)
        (fun g user hg => hg.leave user) hsend fun g k f hg => hg.mapChannel k f
  | use name use =>
      cases hst
      exact hs.mapGroup fun g _ hg =>
        GroupsManager.apply_use use hg hsend fun g k f hg => hg.mapChannel k f
  | pipe name k =>
      obtain ⟨g, g', hg, hpipe, rfl⟩ := pipe_eq_some_iff.mp hst
      exact hs.mapGroup fun _ _ _ => (hs name g hg).pipeStep hpipe
  | cancel name k =>
      obtain ⟨g, g', hg, hcancel, rfl⟩ := cancel_eq_some_iff.mp hst
      exact hs.mapGroup fun _ _ _ => (hs name g hg).cancelPipe hcancel
  | cancelRetired i k => exact manager_cancelRetired hst ▸ hs
  | useRetired i use =>
      cases hst
      exact hs
  | pipeRetired i k =>
      obtain ⟨g, g', -, -, rfl⟩ := pipeRetired_eq_some_iff.mp hst
      exact hs

/-- A step ends no pipe of the manager exactly if the pipe whose turn it is was aborted, or has a
whole header to read and keeps up. -/
lemma noneFinished_step_iff (hs : s.manager.ForallGroups Group.NoneFinished)
    (hst : s.step sizes e = some t) : t.manager.ForallGroups Group.NoneFinished ↔
      ∀ name k, e = .pipe name k → ∀ g, s.manager.inner[name]? = some g →
        g.Aborting k ∨ g.NextWhole k ∧ g.PipeKeepsUp k := by
  have hsend : ∀ (g : Group) (data : Bytes), g.NoneFinished →
      ({ g with tx := g.tx.sendIgnore data } : Group).NoneFinished := fun _ _ hg => hg
  cases e with
  | call c =>
      cases hst
      refine iff_of_true (GroupsManager.forallGroups_call hs ?_ (fun g user hg => hg.join user none)
        (fun g user hg => hg.leave user) hsend fun g k f hg => hg.mapChannel k f) (by simp)
      exact fun _ _ k u hu => by simp [Group.new] at hu
  | use name use =>
      cases hst
      refine iff_of_true (hs.mapGroup fun g _ hg => ?_) (by simp)
      exact GroupsManager.apply_use use hg hsend fun g k f hg => hg.mapChannel k f
  | pipe name k =>
      obtain ⟨g, g', hg, hpipe, rfl⟩ := pipe_eq_some_iff.mp hst
      have hiff := Group.noneFinished_pipeStep_iff (hs name g hg) hpipe
      constructor
      · rintro ht _ _ ⟨⟩ g₀ hg₀
        obtain rfl := Option.some.inj (hg.symm.trans hg₀)
        exact hiff.mp (ht name g' (by rw [GroupsManager.inner_mapGroup, hg]; simp))
      · exact fun hok => hs.mapGroup fun _ _ _ => hiff.mpr (hok name k rfl g hg)
  | cancel name k =>
      obtain ⟨g, g', hg, hcancel, rfl⟩ := cancel_eq_some_iff.mp hst
      exact iff_of_true (hs.mapGroup fun _ _ _ => (hs name g hg).cancelPipe hcancel) (by simp)
  | cancelRetired i k => exact iff_of_true (manager_cancelRetired hst ▸ hs) (by simp)
  | useRetired i use =>
      cases hst
      exact iff_of_true hs (by simp)
  | pipeRetired i k =>
      obtain ⟨g, g', -, -, rfl⟩ := pipeRetired_eq_some_iff.mp hst
      exact iff_of_true hs (by simp)

/-- A turn of a pipe is no panic exactly if a whole header is read. -/
lemma not_pipePanics_iff (hst : s.step sizes e = some t) : ¬ s.PipePanics e ↔
    (∀ name k, e = .pipe name k → ∀ g, s.manager.inner[name]? = some g → g.NextWhole k) ∧
      ∀ i k, e = .pipeRetired i k → ∀ g, s.retired[i]? = some g → g.NextWhole k := by
  cases e with
  | call c => simp [PipePanics]
  | use name use => simp [PipePanics]
  | useRetired i use => simp [PipePanics]
  | cancel name k => simp [PipePanics]
  | cancelRetired i k => simp [PipePanics]
  | pipe name k =>
      obtain ⟨g, g', hg, hpipe, -⟩ := pipe_eq_some_iff.mp hst
      simp [PipePanics, hg, Group.not_pipePanics_iff hpipe]
  | pipeRetired i k =>
      obtain ⟨g, g', hg, hpipe, -⟩ := pipeRetired_eq_some_iff.mp hst
      simp [PipePanics, hg, Group.not_pipePanics_iff hpipe]

/-- A step is total exactly if it is careful. -/
lemma total_step_iff (hs : s.Sound) (hst : s.step sizes e = some t) :
    Total sizes s e t ↔ Careful sizes s e := by
  have hnone := noneFinished_step_iff hs.noneFinished hst
  have hpanics := not_pipePanics_iff hst
  constructor
  · intro h
    have hwhole := hnone.mp fun name g hg => (h.served name g hg).noneFinished
    cases e with
    | call c =>
        by_contra hc
        exact h.returns c rfl ((GroupsManager.call_eq_none_iff hs.wf).mpr hc)
    | pipe name k =>
        exact fun g hg => ⟨(hpanics.mp h.pipes).1 name k rfl g hg,
          (hwhole name k rfl g hg).imp_right And.right⟩
    | pipeRetired i k => exact (hpanics.mp h.pipes).2 i k rfl
    | use name use => trivial
    | cancel name k => trivial
    | useRetired i use => trivial
    | cancelRetired i k => trivial
  · intro h
    have hok : ∀ c, e = .call c → s.manager.Accepts sizes c := by
      rintro c rfl
      exact h
    have hsound : t.Sound := by
      refine ⟨wf_step hs.wf hst, hnone.mpr ?_⟩
      rintro name k rfl g hg
      obtain ⟨hnext, hkeeps⟩ := h g hg
      exact hkeeps.imp_right fun hkeeps => ⟨hnext, hkeeps⟩
    refine ⟨fun c hc hpanic => ?_, hpanics.mpr ⟨?_, ?_⟩, fun c name _ haddr hname => ?_,
      fun c name user hc hlook huser => ?_, hsound.served⟩
    · exact (GroupsManager.call_eq_none_iff hs.wf).mp hpanic (hok c hc)
    · rintro name k rfl g hg
      exact (h g hg).1
    · rintro i k rfl
      exact h
    · exact GroupsManager.call_of_missing haddr hname
    · -- a user who is not there is looked up in a group that is not there
      have hname : name ∉ s.manager.inner := fun hmem => huser ((hok c hc).2 name user hlook hmem)
      exact ⟨_, GroupsManager.call_of_missing (GroupsCall.addressed_of_lookedUp hlook) hname⟩

/-- **Totality of a groups manager**: in a run of calls, of uses of channels that were handed out,
of turns of the pipes and of aborts that take effect, nothing panics, calls about groups that are
not there and users that are not members are answered by errors, and after every step the pipes of
all members run, if and only if every step is careful. -/
theorem total_iff (sizes : ChannelSizes) (es : List GroupsEvent) :
    (groupsLife sizes).Along (Total sizes) .new es ↔
      (groupsLife sizes).Guarded (Careful sizes) .new es := by
  refine Machine.along_iff_guarded (I := Sound) (fun s e t hs hst => ?_) ?_
  · have hiff := total_step_iff hs hst
    exact ⟨hiff, fun hok => ⟨wf_step hs.wf hst, fun name g hg =>
      ((hiff.mpr hok).served name g hg).noneFinished⟩⟩
  · exact ⟨fun name g hg => by simp [new, GroupsManager.new] at hg,
      fun name g hg => by simp [new, GroupsManager.new] at hg⟩

/-- The sender of user 5 is looked up in a group whose member is user 1, and the call panics; a
message of one byte is sent to the group, and the pipe of the member panics. -/
theorem not_total_stranger :
    (¬ ∃ sizes, (groupsLife sizes).Along (Total sizes) .new
      [.call (.joinOrCreate 1 "group"), .call (.getUserSender "group" 5)]) ∧
    ¬ ∃ sizes, (groupsLife sizes).Along (Total sizes) .new
      [.call (.joinOrCreate 1 "group"), .call (.sendMessageToGroup "group" [1]),
        .pipe "group" 0] := by
  constructor
  · rintro ⟨sizes, h⟩
    exact ((h _ rfl).2 _ rfl).1.returns _ rfl rfl
  · rintro ⟨sizes, h⟩
    exact (((h _ rfl).2 _ rfl).2 _ rfl).1.pipes
      ⟨_, rfl, ⟨_, rfl, rfl⟩, [1], rfl, by decide⟩

end GroupsSystem

end SfuServer
