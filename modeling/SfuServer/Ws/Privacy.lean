import SfuServer.Authenticity
import SfuServer.Ws.Delivery

/-!
Who can read what over the WebSocket relay: the frames that a connection takes from the channel of
its user, over all runs of `wsMachine`.

The channels are shared: everybody's frames for a group pass over one channel, every member has a
pipe from it to its own channel, and a message for one user is put on that user's channel by the
receive task of the sender.

* `ForUser`: what may stand on a user's channel, the presence of others, messages of others for
  everybody, and messages of others for this user;
* `Group.channels`: the users of a group and their channels, which a leave and the end of a pipe
  keep;
* `Group.Traced`: the channels of a group carry nothing else;
* `GroupMove`, `moved_of_step`, `kept_of_step`: what a step does to a group and to a connection;
* `traced_step`: every step keeps the groups traced, and the connections at the channels of their
  users;
* `frame_for_reader`: what a connection takes was meant for its user, and a message for one user
  is taken by the connections of that user only.
-/

open Std (ExtTreeMap)

namespace SfuServer

open Endian

/-! ### Frames for a group and frames for a user -/

section Frames

-- the account of a relay: `sent u d f` says that the user `u` sent a message for `d` of which the
-- relay made the frame `f`
variable (sent : UInt32 → UInt32 → Bytes → Prop)

/-- What may stand on the channel of a group: the presence of a user, or a message that a user
sent under its own id. -/
def ForGroup (f : Bytes) : Prop :=
  ∃ u, (∃ opened, f = networkEvent u opened) ∨ sent u u f

/-- What may stand on the channel of the user `v`. -/
def ForUser (v : UInt32) (f : Bytes) : Prop :=
  ∃ u, u ≠ v ∧ ((∃ opened, f = networkEvent u opened) ∨ sent u u f ∨ sent u v f)

/-- The frames of an account bear the ids of their senders. -/
def SignedBy : Prop := ∀ u d f, sent u d f → header 0 u <+: f

variable {sent} {sent' : UInt32 → UInt32 → Bytes → Prop}

lemma ForGroup.mono (hsent : ∀ u d f, sent u d f → sent' u d f) {f : Bytes}
    (h : ForGroup sent f) : ForGroup sent' f := by
  obtain ⟨u, hu⟩ := h
  exact ⟨u, hu.imp_right (hsent u u f)⟩

lemma ForUser.mono (hsent : ∀ u d f, sent u d f → sent' u d f) {v : UInt32} {f : Bytes}
    (h : ForUser sent v f) : ForUser sent' v f := by
  obtain ⟨u, hne, hu⟩ := h
  exact ⟨u, hne, hu.imp_right (Or.imp (hsent u u f) (hsent u v f))⟩

/-- A frame for the group that a pipe passes on is for the user of the pipe. -/
lemma ForGroup.forUser (hsigned : SignedBy sent) {v : UInt32} {f : Bytes} (h : ForGroup sent f)
    (hne : Group.frameSender f ≠ v) : ForUser sent v f := by
  obtain ⟨u, hu⟩ := h
  have hfrom : Group.frameSender f = u := by
    rcases hu with ⟨opened, rfl⟩ | hu
    · exact frameSender_of_prefix (List.prefix_append _ _)
    · exact frameSender_of_prefix (hsigned u u f hu)
  exact ⟨u, hfrom ▸ hne, hu.imp_right .inl⟩

end Frames

/-- A presence frame is no frame of a message. -/
lemma networkEvent_ne_header {u v : UInt32} {opened : Bool} {m : Bytes} :
    networkEvent u opened ≠ header 0 v ++ m := by
  cases opened <;> simp [networkEvent, header]

/-- A frame of a message tells its sender and the message. -/
lemma header_append_inj {u v : UInt32} {m m' : Bytes} (h : header 0 u ++ m = header 0 v ++ m') :
    u = v ∧ m = m' := by
  obtain ⟨hheader, hm⟩ := List.append_inj h (by simp)
  refine ⟨?_, hm⟩
  rw [header, header, List.cons.injEq] at hheader
  exact leBytes_inj.mp hheader.2

/-! ### The channels of a group -/

namespace Group

section Channels

variable {g g' : Group} {k : ℕ}

/-- The users of a group and their channels, by handle. -/
def channels (g : Group) : List (UInt32 × Broadcast Bytes) :=
  g.tasks.map fun t => (t.user, t.userSender)

lemma getElem?_channels : g.channels[k]? = g.tasks[k]?.map fun t => (t.user, t.userSender) :=
  List.getElem?_map

/-- Where the channels are the same, the tasks have the same users and channels. -/
lemma exists_task_of_channels (h : g'.channels = g.channels) {t' : UserTask}
    (ht' : g'.tasks[k]? = some t') :
    ∃ t, g.tasks[k]? = some t ∧ t'.user = t.user ∧ t'.userSender = t.userSender := by
  have hk : g.channels[k]? = some (t'.user, t'.userSender) := by
    rw [← h, getElem?_channels, ht', Option.map_some]
  rw [getElem?_channels] at hk
  obtain ⟨t, ht, heq⟩ := Option.map_eq_some_iff.mp hk
  exact ⟨t, ht, (Prod.mk.inj heq).1.symm, (Prod.mk.inj heq).2.symm⟩

/-- A change of the tasks, one by one, that keeps the channels. -/
lemma channels_of_map {F : ℕ → UserTask → UserTask}
    (htasks : ∀ j : ℕ, g'.tasks[j]? = g.tasks[j]?.map (F j))
    (hF : ∀ j t, ((F j t).user, (F j t).userSender) = (t.user, t.userSender)) :
    g'.channels = g.channels := by
  refine List.ext_getElem? fun j => ?_
  rw [getElem?_channels, getElem?_channels, htasks, Option.map_map]
  exact congrArg (Option.map · _) (funext (hF j))

@[simp] lemma channels_stopPipe (g : Group) (k : ℕ) (status : TaskStatus) :
    (g.stopPipe k status).channels = g.channels :=
  channels_of_map (fun j => tasks_stopPipe g k j status) fun j t => by split_ifs <;> rfl

@[simp] lemma channels_abortPipe (g : Group) (k : ℕ) : (g.abortPipe k).channels = g.channels :=
  channels_of_map (fun j => tasks_abortPipe g k j) fun j t => by split_ifs <;> rfl

lemma channels_cancelPipe (h : g.cancelPipe k = some g') : g'.channels = g.channels := by
  obtain ⟨t, -, -, rfl⟩ := cancelPipe_eq_some_iff.mp h
  exact channels_stopPipe _ _ _

@[simp] lemma channels_leave (g : Group) (user : UInt32) :
    (g.leave user).channels = g.channels := by
  rw [leave]
  split_ifs
  · dsimp only
    split
    · exact channels_abortPipe _ _
    · rfl
  · rfl

/-- A leave sends one frame to the group, or nothing. -/
lemma tx_leave (g : Group) (user : UInt32) :
    (g.leave user).tx = g.tx ∨ (g.leave user).tx = g.tx.push (networkEvent user false) := by
  have hnotice : ∀ f, g.tx.sendIgnore f = g.tx ∨ g.tx.sendIgnore f = g.tx.push f := by
    intro f
    rw [Broadcast.sendIgnore, Broadcast.send]
    split_ifs
    · exact .inr rfl
    · exact .inl rfl
  rw [leave]
  split_ifs
  · dsimp only
    split <;> exact hnotice _
  · exact .inl rfl

end Channels

variable {sent sent' : UInt32 → UInt32 → Bytes → Prop} {g g' : Group}

/-- The frames on the channels of a group are what they may be. -/
structure Traced (sent : UInt32 → UInt32 → Bytes → Prop) (g : Group) : Prop where
  log : ∀ f ∈ g.tx.log, ForGroup sent f
  channel : ∀ (k : ℕ) (t : UserTask), g.tasks[k]? = some t →
    ∀ f ∈ t.userSender.log, ForUser sent t.user f

lemma traced_new (name : String) (capacity : Option ℕ) : (Group.new name capacity).Traced sent where
  log := by simp [Group.new]
  channel := by simp [Group.new]

namespace Traced

lemma mono (hsent : ∀ u d f, sent u d f → sent' u d f) (hg : g.Traced sent) : g.Traced sent' where
  log f hf := (hg.log f hf).mono hsent
  channel k t ht f hf := (hg.channel k t ht f hf).mono hsent

/-- A new channel is empty. -/
lemma join (hg : g.Traced sent) (user : UInt32) (capacity : Option ℕ) :
    (g.join user capacity).Traced sent := by
  rcases g.join_cases user capacity with ⟨htasks, htx, -⟩ | ⟨-, htasks, htx, -⟩
  · exact ⟨htx ▸ hg.log, htasks ▸ hg.channel⟩
  · refine ⟨htx ▸ hg.log, fun k t ht => ?_⟩
    rw [htasks] at ht
    rcases Vec.getElem?_concat_cases ht with ⟨-, rfl⟩ | ht
    · simp
    · exact hg.channel k t ht

/-- A step that keeps the users' channels. -/
lemma of_channels (hg : g.Traced sent) (hlog : ∀ f ∈ g'.tx.log, ForGroup sent f)
    (hchannels : g'.channels = g.channels) : g'.Traced sent where
  log := hlog
  channel k t' ht' f hf := by
    obtain ⟨t, ht, huser, hsender⟩ := exists_task_of_channels hchannels ht'
    rw [huser]
    exact hg.channel k t ht f (hsender ▸ hf)

lemma stopPipe (hg : g.Traced sent) (k : ℕ) (status : TaskStatus) :
    (g.stopPipe k status).Traced sent :=
  hg.of_channels (by rw [log_stopPipe]; exact hg.log) (channels_stopPipe _ _ _)

lemma cancelPipe (hg : g.Traced sent) {k : ℕ} (h : g.cancelPipe k = some g') :
    g'.Traced sent := by
  obtain ⟨t, -, -, rfl⟩ := cancelPipe_eq_some_iff.mp h
  exact hg.stopPipe k .aborted

/-- A leave tells the group that the user has gone. -/
lemma leave (hg : g.Traced sent) (user : UInt32) : (g.leave user).Traced sent := by
  refine hg.of_channels (fun f hf => ?_) (channels_leave _ _)
  rcases g.tx_leave user with htx | htx
  · exact hg.log f (htx ▸ hf)
  · rw [htx, Broadcast.push_log, List.mem_append, List.mem_singleton] at hf
    rcases hf with hf | rfl
    · exact hg.log f hf
    · exact ⟨user, .inl ⟨false, rfl⟩⟩

/-- A frame for the group is sent. -/
lemma send (hg : g.Traced sent) {f : Bytes} {tx : Broadcast Bytes} (hf : ForGroup sent f)
    (htx : g.tx.send f = some tx) : ({ g with tx := tx } : Group).Traced sent := by
  obtain ⟨-, rfl⟩ := (g.tx.send_eq_some_iff f).mp htx
  refine ⟨fun f' hf' => ?_, hg.channel⟩
  rw [Broadcast.push_log, List.mem_append, List.mem_singleton] at hf'
  rcases hf' with hf' | rfl
  · exact hg.log f' hf'
  · exact hf

/-- What happens on the channel of one user. -/
lemma mapChannel (hg : g.Traced sent) {k : ℕ} {F : Broadcast Bytes → Broadcast Bytes}
    (hF : ∀ t, g.tasks[k]? = some t → ∀ f ∈ (F t.userSender).log,
      f ∈ t.userSender.log ∨ ForUser sent t.user f) : (g.mapChannel k F).Traced sent := by
  refine ⟨hg.log, fun j t' ht' => ?_⟩
  rw [tasks_mapChannel] at ht'
  obtain ⟨t, ht, rfl⟩ := Option.map_eq_some_iff.mp ht'
  split_ifs with hj
  · subst hj
    exact fun f hf => (hF t ht f hf).elim (hg.channel j t ht f) id
  · exact hg.channel j t ht

/-- A pipe passes on what is for its user. -/
lemma pipeStep (hsigned : SignedBy sent) (hg : g.Traced sent) {k : ℕ}
    (h : g.pipeStep k = some g') : g'.Traced sent := by
  rw [Group.pipeStep] at h
  split at h
  · cases h
  · rename_i t ht
    split_ifs at h
    split at h
    · cases h
    · cases h
      exact hg.stopPipe k .finished
    · rename_i data tx hrecv
      have htx : ({ g with tx := tx } : Group).Traced sent := by
        obtain rfl : (g.tx.recv k).2 = tx := by rw [hrecv]
        exact ⟨by simpa using hg.log, hg.channel⟩
      have hdata : ForGroup sent data := hg.log data (g.tx.mem_log_of_recv (by rw [hrecv]))
      split_ifs at h with hlen hown
      · cases h
        exact hg.stopPipe k .finished
      · cases h
        exact htx
      · split at h
        · rename_i channel hchannel
          cases h
          obtain ⟨-, rfl⟩ := (t.userSender.send_eq_some_iff data).mp hchannel
          refine htx.mapChannel fun t' ht' f hf => ?_
          obtain rfl := Option.some.inj (ht.symm.trans ht')
          rw [Broadcast.push_log, List.mem_append, List.mem_singleton] at hf
          rcases hf with hf | rfl
          · exact .inl hf
          · exact .inr (hdata.forUser hsigned hown)
        · cases h
          exact htx.stopPipe k .finished

end Traced

end Group

/-! ### The users of the channels -/

namespace Group

/-- The user of every channel, by its handle. -/
def channelUsers (g : Group) : List UInt32 := g.tasks.map UserTask.user

lemma channelUsers_eq {g g' : Group} (h : ∀ k : ℕ, (g'.tasks[k]?).map UserTask.user =
    (g.tasks[k]?).map UserTask.user) : g'.channelUsers = g.channelUsers := by
  refine List.ext_getElem? fun k => ?_
  rw [channelUsers, channelUsers, List.getElem?_map, List.getElem?_map, h]

/-- Where the channels are the same, so are their users. -/
lemma channelUsers_of_channels {g g' : Group} (h : g'.channels = g.channels) :
    g'.channelUsers = g.channelUsers := by
  refine channelUsers_eq fun k => ?_
  have hk := congrArg (fun channels => channels[k]?.map Prod.fst) h
  simp only [getElem?_channels, Option.map_map] at hk
  exact hk

@[simp] lemma channelUsers_mapChannel (g : Group) (k : ℕ)
    (F : Broadcast Bytes → Broadcast Bytes) :
    (g.mapChannel k F).channelUsers = g.channelUsers := by
  refine channelUsers_eq fun j => ?_
  rw [tasks_mapChannel, Option.map_map]
  congr 1
  funext t
  dsimp only [Function.comp]
  split_ifs <;> rfl

lemma channelUsers_join (g : Group) (user : UInt32) (capacity : Option ℕ) :
    g.channelUsers <+: (g.join user capacity).channelUsers := by
  rw [channelUsers, channelUsers]
  rcases g.join_cases user capacity with ⟨htasks, -, -⟩ | ⟨-, htasks, -, -⟩
  · rw [htasks]
  · rw [htasks, List.map_append]
    exact List.prefix_append _ _

lemma channelUsers_pipeStep {g g' : Group} {k : ℕ} (h : g.pipeStep k = some g') :
    g'.channelUsers = g.channelUsers := by
  obtain ⟨t, -, -, ⟨-, rfl | rfl⟩ | ⟨-, rfl | ⟨F, rfl⟩⟩⟩ := pipeStep_cases h
  · exact channelUsers_of_channels (channels_stopPipe _ _ _)
  · exact channelUsers_of_channels (channels_stopPipe _ _ _)
  · rfl
  · exact channelUsers_mapChannel _ _ _

end Group

/-! ### What a step of the WebSocket relay does to a group -/

namespace WsAction

/-- The connection whose receiver comes, goes or reads in an action. -/
def reader : WsAction → Option ℕ
  | subscribe i | deliver i _ | select i => some i
  | _ => none

end WsAction

/-- A message that the WebSocket relay broadcasts. -/
lemma recvStep_eq_broadcast {σ : Type*} {id : UInt32} {users : ExtTreeMap UInt32 σ} {m f : Bytes}
    (h : recvStep id users m = .broadcast f) :
    4 ≤ m.length ∧ addressee m = id ∧ f = header 0 id ++ m := by
  by_cases hm : 4 ≤ m.length
  · rw [recvStep_eq_route id users hm, route_eq id users hm] at h
    split_ifs at h with hid
    · exact ⟨hm, hid, (Routing.broadcast.inj h).symm⟩
    · split at h <;> cases h
  · rw [recvStep, if_pos (by omega)] at h
    cases h

/-- A message that the WebSocket relay sends to one user. -/
lemma recvStep_eq_unicast {σ : Type*} {id d : UInt32} {users : ExtTreeMap UInt32 σ} {m f : Bytes}
    {channel : σ} (h : recvStep id users m = .unicast d channel f) :
    4 ≤ m.length ∧ addressee m = d ∧ d ≠ id ∧ users[d]? = some channel ∧ f = header 0 id ++ m := by
  by_cases hm : 4 ≤ m.length
  · rw [recvStep_eq_route id users hm, route_eq id users hm] at h
    split_ifs at h with hid
    split at h
    · rename_i channel' hchannel
      cases h
      exact ⟨hm, rfl, hid, hchannel, rfl⟩
    · cases h
  · rw [recvStep, if_pos (by omega)] at h
    cases h

namespace WsSystem

variable {fnv : List UInt8 → UInt32} {s t : WsSystem} {a : WsAction}

/-- The frames that an action sends to the group of a name. -/
def SendsGroup (s : WsSystem) : WsAction → String → Bytes → Prop
  | .opened i, name, f => ∃ c, s.sessions[i]? = some c ∧ c.stream = name ∧
      f = networkEvent c.id true
  | .message i m, name, f => ∃ c, s.sessions[i]? = some c ∧ c.stream = name ∧ 4 ≤ m.length ∧
      addressee m = c.id ∧ f = header 0 c.id ++ m
  | _, _, _ => False

/-- The frames that an action sends to one user in the group of a name. -/
def SendsUser (s : WsSystem) : WsAction → String → UInt32 → Bytes → Prop
  | .message i m, name, d, f => ∃ c, s.sessions[i]? = some c ∧ c.stream = name ∧ 4 ≤ m.length ∧
      addressee m = d ∧ d ≠ c.id ∧ f = header 0 c.id ++ m
  | _, _, _, _ => False

/-- The user, a member of the group of a name, leaves it in an action: the action is the teardown of
a handler, or a request of the room to delete the user. -/
def Leaves (fnv : List UInt8 → UInt32) (s : WsSystem) (a : WsAction) (name : String)
    (user : UInt32) : Prop :=
  user ∈ s.groups.users name ∧
    match a with
    | .teardown i => ∃ c, s.sessions[i]? = some c ∧ c.stream = name ∧ c.id = user
    | .request (.exit r) =>
        s.room.authSharedKey fnv r.sharedKey = true ∧ r.userId.toUInt32 = user
    | _ => False

/-- What an action can do to a group: a user joins or leaves, it is sent a frame, a frame is put on
the channel of a member, receivers come, go and read there, a pipe takes a turn, and the abort of
a pipe takes effect. -/
inductive GroupMove (fnv : List UInt8 → UInt32) (s : WsSystem) (a : WsAction) (name : String)
    (g : Group) : Group → Prop
  | kept : GroupMove fnv s a name g g
  | joined (user : UInt32) : GroupMove fnv s a name g (g.join user none)
  | left (user : UInt32) (leaves : s.Leaves fnv a name user) :
      GroupMove fnv s a name g (g.leave user)
  | sent {f : Bytes} {tx : Broadcast Bytes} (sends : s.SendsGroup a name f)
      (taken : g.tx.send f = some tx) : GroupMove fnv s a name g { g with tx := tx }
  | unicast {d : UInt32} {k : ℕ} {t : UserTask} {f : Bytes} (sends : s.SendsUser a name d f)
      (registered : g.userSenders[d]? = some k) (task : g.tasks[k]? = some t) :
      GroupMove fnv s a name g (g.mapChannel k fun _ => t.userSender.push f)
  | channel {i k : ℕ} {F : Broadcast Bytes → Broadcast Bytes} (reads : a.reader = some i)
      (log : ∀ t, g.tasks[k]? = some t → (F t.userSender).log = t.userSender.log)
      (others : ∀ t, g.tasks[k]? = some t → ∀ q ≠ i,
        (F t.userSender).cursors[q]? = t.userSender.cursors[q]?) :
      GroupMove fnv s a name g (g.mapChannel k F)
  | piped {k : ℕ} {g' : Group} (action : a = .pipe name k) (turn : g.pipeStep k = some g') :
      GroupMove fnv s a name g g'
  | cancelled {k : ℕ} {g' : Group} (cancel : g.cancelPipe k = some g') :
      GroupMove fnv s a name g g'

/-- What a step does to the groups: those that are there stay, and a new one has one member. -/
structure GroupsMoved (fnv : List UInt8 → UInt32) (s : WsSystem) (a : WsAction)
    (m : GroupsManager) : Prop where
  old : ∀ (name : String) (g : Group), s.groups.inner[name]? = some g →
    ∃ g', m.inner[name]? = some g' ∧ s.GroupMove fnv a name g g'
  new : ∀ (name : String) (g' : Group), s.groups.inner[name]? = none → m.inner[name]? = some g' →
    ∃ user, g' = (Group.new name none).join user none

lemma groupsMoved_of_inner {m : GroupsManager} (h : m.inner = s.groups.inner) :
    s.GroupsMoved fnv a m where
  old name g hg := ⟨g, by rw [h, hg], .kept⟩
  new name g' hnone hg' := by rw [h, hnone] at hg'; cases hg'

/-- A step that changes one group. -/
lemma groupsMoved_mapGroup {name : String} {F : Group → Group}
    (hF : ∀ g, s.groups.inner[name]? = some g → s.GroupMove fnv a name g (F g)) :
    s.GroupsMoved fnv a (s.groups.mapGroup name F) where
  old n g hg := by
    rw [GroupsManager.inner_mapGroup, hg]
    refine ⟨_, rfl, ?_⟩
    split_ifs with hn
    · subst hn
      exact hF g hg
    · exact .kept
  new n g' hnone hg' := by
    rw [GroupsManager.inner_mapGroup, hnone] at hg'
    cases hg'

/-- Leaves of one user, from the groups of a list. -/
lemma groupsMoved_leaves {m : GroupsManager} (hwf : s.groups.Wf) (hm : m.inner = s.groups.inner)
    {user : UInt32} {names : List String}
    (hleaves : ∀ name ∈ names, user ∈ s.groups.users name → s.Leaves fnv a name user) :
    s.GroupsMoved fnv a (names.foldl (GroupsManager.leaveOrWarn user) m) := by
  have hgroups : m.ForallGroups Group.Wf := fun name g hg => hwf.groups name g (hm ▸ hg)
  have hinner := GroupsManager.inner_foldl_leaveOrWarn hgroups user names
  rw [hm] at hinner
  refine ⟨fun name g hg => ?_, fun name g' hnone hg' => ?_⟩
  · rw [hinner, hg]
    refine ⟨_, rfl, ?_⟩
    split_ifs with hname
    · by_cases hu : user ∈ g.innerUser
      · exact .left user (hleaves name hname (by rwa [GroupsManager.users, hg]))
      · dsimp only
        rw [Group.leave_of_not_mem hu]
        exact .kept
    · exact .kept
  · rw [hinner, hnone] at hg'
    cases hg'

/-- A join changes its group, or creates it. -/
lemma groupsMoved_join {user : UInt32} {name : String} {m : GroupsManager}
    (h : (s.groups.initUser user).joinOrCreate user name = .ok m) : s.GroupsMoved fnv a m := by
  rw [GroupsManager.joinOrCreate_eq, Except.ok.injEq] at h
  subst h
  simp only [GroupsManager.inner_initUser]
  refine ⟨fun n g hg => ?_, fun n g' hnone hg' => ?_⟩
  · rw [ExtTreeMap.getElem?_insert]
    split_ifs with hn
    · obtain rfl : name = n := by simpa using hn
      rw [hg]
      exact ⟨_, rfl, .joined user⟩
    · exact ⟨g, hg, .kept⟩
  · rw [ExtTreeMap.getElem?_insert] at hg'
    split_ifs at hg' with hn
    · obtain rfl : name = n := by simpa using hn
      rw [hnone, Option.getD_none, Option.some.injEq] at hg'
      exact ⟨user, hg'.symm⟩
    · rw [hnone] at hg'
      cases hg'

lemma groupsMoved_request (hwf : s.groups.Wf) (request : RoomRequest) :
    s.GroupsMoved fnv (.request request) (s.room.serve fnv request).groupManager := by
  by_cases hexit : ∃ r, request = .exit r
  · obtain ⟨r, rfl⟩ := hexit
    rw [groupManager_serve_exit]
    split_ifs with hauth
    · rw [GroupsManager.endUser]
      split
      · refine groupsMoved_leaves (m := { s.groups with
          usersGroup := s.groups.usersGroup.erase r.userId.toUInt32 }) hwf rfl fun name _ hu => ?_
        exact ⟨hu, hauth, rfl⟩
      · exact groupsMoved_of_inner rfl
    · exact groupsMoved_of_inner rfl
  · push Not at hexit
    rcases groupManager_serve_of_ne_exit fnv s.room hexit with hm | ⟨user, hm⟩
    · rw [hm]
      exact groupsMoved_of_inner rfl
    · rw [hm]
      exact groupsMoved_of_inner (GroupsManager.inner_initUser _ _)

/-- The end of a send task drops its receiver. -/
lemma groupsMoved_stopSend {i : ℕ} (ha : a.reader = some i) (k : ℕ) (c : Session) :
    s.GroupsMoved fnv a (s.stopSend i k c).groups :=
  groupsMoved_mapGroup fun _ _ => .channel ha (fun _ _ => rfl) fun t _ q hq =>
    t.userSender.cursors_unsubscribe_of_ne i q hq

lemma groupsMoved_message {i : ℕ} {binary : Bytes} (h : s.step fnv (.message i binary) = some t) :
    s.GroupsMoved fnv (.message i binary) t.groups := by
  simp only [step, messageStep, Option.bind_eq_some_iff, Option.ite_none_right_eq_some] at h
  obtain ⟨c, hc, -, g, hg, h⟩ := h
  split at h
  · rename_i frame hframe
    obtain ⟨hlen, hid, hf⟩ := recvStep_eq_broadcast hframe
    split at h
    · rename_i tx htx
      cases h
      refine groupsMoved_mapGroup fun g' hg' => ?_
      obtain rfl := Option.some.inj (hg.symm.trans hg')
      exact .sent ⟨c, hc, rfl, hlen, hid, hf⟩ htx
    · cases h
      exact groupsMoved_of_inner rfl
  · rename_i d k frame hframe
    obtain ⟨hlen, hd, hne, hk, hf⟩ := recvStep_eq_unicast hframe
    obtain ⟨u, hu, h⟩ := Option.bind_eq_some_iff.mp h
    split at h
    · rename_i channel hchannel
      cases h
      obtain ⟨-, rfl⟩ := (u.userSender.send_eq_some_iff frame).mp hchannel
      refine groupsMoved_mapGroup fun g' hg' => ?_
      obtain rfl := Option.some.inj (hg.symm.trans hg')
      exact .unicast ⟨c, hc, rfl, hlen, hd, hne, hf⟩ hk hu
    · cases h
      exact groupsMoved_of_inner rfl
  · cases h
    exact groupsMoved_of_inner rfl
  · cases h
    exact groupsMoved_of_inner rfl
  · cases h

lemma groupsMoved_deliver {i : ℕ} {written : Bool} (h : s.step fnv (.deliver i written) = some t) :
    s.GroupsMoved fnv (.deliver i written) t.groups := by
  simp only [step, deliverStep, Option.bind_eq_some_iff] at h
  obtain ⟨c, hc, k, -, g, hg, u, hu, h⟩ := h
  split at h
  · rename_i f channel hchannel
    split_ifs at h
    · cases h
      obtain rfl : (u.userSender.recv i).2 = channel := by rw [hchannel]
      refine groupsMoved_mapGroup fun g' hg' => ?_
      obtain rfl := Option.some.inj (hg.symm.trans hg')
      refine .channel rfl (fun u' hu' => ?_) fun u' hu' q hq => ?_
      · obtain rfl := Option.some.inj (hu.symm.trans hu')
        exact Broadcast.recv_log _ _
      · obtain rfl := Option.some.inj (hu.symm.trans hu')
        exact u.userSender.cursors_recv_of_ne i q hq
    · cases h
      exact groupsMoved_stopSend rfl k c
  · cases h
    exact groupsMoved_stopSend rfl k c
  · split_ifs at h
    cases h
    exact groupsMoved_stopSend rfl k c

/-- **What a step does to the groups.** -/
theorem moved_of_step (hwf : s.groups.Wf) (h : s.step fnv a = some t) :
    s.GroupsMoved fnv a t.groups := by
  cases a with
  | request request =>
      simp only [step, requestStep, Option.ite_none_left_eq_some, Option.some.injEq] at h
      obtain ⟨-, rfl⟩ := h
      exact groupsMoved_request hwf request
  | connect sharedKey userId token stream =>
      rw [step, connectStep] at h
      split at h
      · cases h
      · cases h
        exact groupsMoved_of_inner rfl
  | join i =>
      obtain ⟨c, -, hm⟩ := groups_step h
      exact groupsMoved_join hm
  | subscribe i =>
      simp only [step, subscribeStep, Option.bind_eq_some_iff, Option.ite_none_right_eq_some] at h
      obtain ⟨c, -, -, h⟩ := h
      split at h
      · cases h
        refine groupsMoved_mapGroup fun _ _ => .channel rfl (fun _ _ => rfl) fun t _ q hq => ?_
        rw [t.userSender.cursors_subscribe, if_neg (Ne.symm hq)]
      · cases h
        exact groupsMoved_of_inner rfl
  | opened i =>
      simp only [step, openedStep, Option.bind_eq_some_iff, Option.ite_none_right_eq_some] at h
      obtain ⟨c, hc, -, g, hg, h⟩ := h
      split at h
      · rename_i tx htx
        cases h
        refine groupsMoved_mapGroup fun g' hg' => ?_
        obtain rfl := Option.some.inj (hg.symm.trans hg')
        exact .sent ⟨c, hc, rfl, rfl⟩ htx
      · cases h
        exact groupsMoved_of_inner rfl
  | message i binary => exact groupsMoved_message h
  | hangup i =>
      simp only [step, hangupStep, Option.bind_eq_some_iff, Option.ite_none_right_eq_some,
        Option.some.injEq] at h
      obtain ⟨c, -, -, rfl⟩ := h
      exact groupsMoved_of_inner rfl
  | deliver i written => exact groupsMoved_deliver h
  | select i =>
      simp only [step, selectStep, Option.bind_eq_some_iff, Option.ite_none_right_eq_some] at h
      obtain ⟨c, -, -, h⟩ := h
      split at h
      · cases h
        exact groupsMoved_stopSend rfl _ _
      · cases h
        exact groupsMoved_of_inner rfl
      · cases h
        exact groupsMoved_of_inner rfl
      · cases h
  | teardown i =>
      obtain ⟨c, hc, hm⟩ := groups_step h
      rw [hm]
      have hleaves : ∀ name ∈ [c.stream], c.id ∈ s.groups.users name →
          s.Leaves fnv (.teardown i) name c.id := fun name hname hu =>
        ⟨hu, c, hc, (List.mem_singleton.mp hname).symm, rfl⟩
      exact groupsMoved_leaves hwf rfl hleaves
  | pipe group k =>
      obtain ⟨g, g', hg, hg', hm⟩ := groups_step h
      rw [hm]
      refine groupsMoved_mapGroup fun g₀ hg₀ => ?_
      obtain rfl := Option.some.inj (hg.symm.trans hg₀)
      exact .piped rfl hg'
  | cancel group k =>
      simp only [step, cancelStep, Option.bind_eq_some_iff, Option.some.injEq] at h
      obtain ⟨g, hg, g', hg', rfl⟩ := h
      refine groupsMoved_mapGroup fun g₀ hg₀ => ?_
      obtain rfl := Option.some.inj (hg.symm.trans hg₀)
      exact .cancelled hg'

/-! ### What a step of the WebSocket relay does to a connection -/

/-- The handler of a connection has subscribed to the channel of its user, or closed the
connection. -/
def Subscribed (c : Session) : Prop := c.phase ≠ .upgrading ∧ c.phase ≠ .joined

/-- A later stage of the connection `i`: its send task reads from the same channel, has ended, or
starts to read from the channel of its user. -/
structure SessionKept (s : WsSystem) (a : WsAction) (i : ℕ) (c c' : Session) : Prop where
  stream : c'.stream = c.stream
  id : c'.id = c.id
  receiver : c'.receiver = c.receiver ∨ c'.receiver = none ∨
    a = .subscribe i ∧ c.phase = .joined ∧ s.groups.getUserSender c.stream c.id = .ok c'.receiver
  subscribed : Subscribed c → Subscribed c'

/-- The connections that are there stay, and a new one reads from no channel. -/
structure SessionsKept (s : WsSystem) (a : WsAction) (sessions : List Session) : Prop where
  old : ∀ (i : ℕ) (c : Session), s.sessions[i]? = some c →
    ∃ c', sessions[i]? = some c' ∧ s.SessionKept a i c c'
  new : ∀ (i : ℕ) (c' : Session), s.sessions[i]? = none → sessions[i]? = some c' →
    c'.receiver = none

lemma SessionKept.refl (i : ℕ) (c : Session) : s.SessionKept a i c c :=
  ⟨rfl, rfl, .inl rfl, fun h => h⟩

lemma SessionsKept.refl : s.SessionsKept a s.sessions where
  old i c hc := ⟨c, hc, .refl i c⟩
  new i c' hnone hc' := by rw [hnone] at hc'; cases hc'

lemma SessionsKept.set {i : ℕ} {c c' : Session} (hc : s.sessions[i]? = some c)
    (hkept : s.SessionKept a i c c') : s.SessionsKept a (s.sessions.set i c') where
  old j d hd := by
    have hlt := (List.getElem?_eq_some_iff.mp hc).1
    by_cases hj : i = j
    · subst hj
      obtain rfl := Option.some.inj (hc.symm.trans hd)
      exact ⟨c', List.getElem?_set_self hlt, hkept⟩
    · exact ⟨d, by rw [List.getElem?_set_ne hj, hd], .refl j d⟩
  new j d hnone hd := by
    rw [List.getElem?_eq_none_iff] at hnone
    have hlt := (List.getElem?_eq_some_iff.mp hd).1
    rw [List.length_set] at hlt
    omega

/-- A change of a connection that leaves its receiver. -/
lemma SessionsKept.phase {i : ℕ} {c : Session} (hc : s.sessions[i]? = some c) (phase : Phase)
    (task : RecvTask) (hphase : Subscribed c → Subscribed { c with phase := phase }) :
    s.SessionsKept a (s.sessions.set i { c with phase := phase, recvTask := task }) :=
  .set hc ⟨rfl, rfl, .inl rfl, hphase⟩

/-- The end of a send task. -/
lemma SessionsKept.stopped {i : ℕ} {c : Session} (hc : s.sessions[i]? = some c) (phase : Phase)
    (hphase : Subscribed c → Subscribed { c with phase := phase }) :
    s.SessionsKept a (s.sessions.set i { c with phase := phase, receiver := none }) :=
  .set hc ⟨rfl, rfl, .inr (.inl rfl), hphase⟩

lemma sessionsKept_message {i : ℕ} {binary : Bytes} (h : s.step fnv (.message i binary) = some t) :
    s.SessionsKept (.message i binary) t.sessions := by
  simp only [step, messageStep, Option.bind_eq_some_iff, Option.ite_none_right_eq_some] at h
  obtain ⟨c, hc, -, g, -, h⟩ := h
  have hended : ∀ cause, s.SessionsKept (.message i binary)
      (s.sessions.set i { c with recvTask := .ended cause }) := fun cause => .phase hc _ _ id
  split at h
  · split at h
    · cases h
      exact .refl
    · cases h
      exact hended _
  · obtain ⟨u, -, h⟩ := Option.bind_eq_some_iff.mp h
    split at h
    · cases h
      exact .refl
    · cases h
      exact hended _
  · cases h
    exact .refl
  · cases h
    exact hended _
  · cases h

lemma sessionsKept_deliver {i : ℕ} {written : Bool} (h : s.step fnv (.deliver i written) = some t) :
    s.SessionsKept (.deliver i written) t.sessions := by
  simp only [step, deliverStep, Option.bind_eq_some_iff] at h
  obtain ⟨c, hc, k, -, g, -, u, -, h⟩ := h
  have hstopped : s.SessionsKept (.deliver i written) (s.stopSend i k c).sessions :=
    .stopped hc _ id
  split at h
  · split_ifs at h
    · cases h
      exact .refl
    · cases h
      exact hstopped
  · cases h
    exact hstopped
  · split_ifs at h
    cases h
    exact hstopped

/-- **What a step does to the connections.** -/
theorem kept_of_step (h : s.step fnv a = some t) : s.SessionsKept a t.sessions := by
  cases a with
  | request request =>
      simp only [step, requestStep, Option.ite_none_left_eq_some, Option.some.injEq] at h
      obtain ⟨-, rfl⟩ := h
      refine ⟨fun i c hc => ?_, fun i c' hnone hc' => ?_⟩
      · dsimp only
        rw [List.getElem?_map, hc]
        refine ⟨_, rfl, ?_⟩
        dsimp only
        split_ifs <;> exact ⟨rfl, rfl, .inl rfl, id⟩
      · dsimp only at hc'
        rw [List.getElem?_map, hnone] at hc'
        cases hc'
  | connect sharedKey userId token stream =>
      rw [step, connectStep] at h
      split at h
      · cases h
      · cases h
        refine ⟨fun i c hc => ⟨c, ?_, .refl i c⟩, fun i c' hnone hc' => ?_⟩
        · exact (List.getElem?_append_left (List.getElem?_eq_some_iff.mp hc).1).trans hc
        · rcases Vec.getElem?_concat_cases hc' with ⟨-, rfl⟩ | hc'
          · rfl
          · rw [hnone] at hc'
            cases hc'
  | join i =>
      simp only [step, joinStep, Option.bind_eq_some_iff, Option.ite_none_right_eq_some] at h
      obtain ⟨c, hc, hphase, h⟩ := h
      split at h
      · cases h
      · cases h
        exact .phase hc _ _ fun hsubscribed => absurd hphase.1 hsubscribed.1
  | subscribe i =>
      simp only [step, subscribeStep, Option.bind_eq_some_iff, Option.ite_none_right_eq_some] at h
      obtain ⟨c, hc, hphase, h⟩ := h
      split at h
      · rename_i k hk
        cases h
        exact .set hc ⟨rfl, rfl, .inr (.inr ⟨rfl, hphase, hk⟩), fun _ => by simp [Subscribed]⟩
      · cases h
        exact .phase hc _ _ fun _ => by simp [Subscribed]
  | opened i =>
      simp only [step, openedStep, Option.bind_eq_some_iff, Option.ite_none_right_eq_some] at h
      obtain ⟨c, hc, -, g, -, h⟩ := h
      split at h
      · cases h
        exact .phase hc _ _ id
      · cases h
        exact .phase hc _ _ id
  | message i binary => exact sessionsKept_message h
  | hangup i =>
      simp only [step, hangupStep, Option.bind_eq_some_iff, Option.ite_none_right_eq_some,
        Option.some.injEq] at h
      obtain ⟨c, hc, -, rfl⟩ := h
      exact .phase hc _ _ id
  | deliver i written => exact sessionsKept_deliver h
  | select i =>
      simp only [step, selectStep, Option.bind_eq_some_iff, Option.ite_none_right_eq_some] at h
      obtain ⟨c, hc, -, h⟩ := h
      split at h
      · cases h
        exact .stopped hc _ fun _ => by simp [Subscribed]
      · cases h
        exact .phase hc _ _ fun _ => by simp [Subscribed]
      · cases h
        exact .phase hc _ _ fun _ => by simp [Subscribed]
      · cases h
  | teardown i =>
      simp only [step, teardownStep, Option.bind_eq_some_iff, Option.ite_none_right_eq_some,
        Option.some.injEq] at h
      obtain ⟨c, hc, -, rfl⟩ := h
      exact .phase hc _ _ fun _ => by simp [Subscribed]
  | pipe group k =>
      simp only [step, pipeStep, Option.bind_eq_some_iff, Option.some.injEq] at h
      obtain ⟨g, -, g', -, rfl⟩ := h
      exact .refl
  | cancel group k =>
      simp only [step, cancelStep, Option.bind_eq_some_iff, Option.some.injEq] at h
      obtain ⟨g, -, g', -, rfl⟩ := h
      exact .refl

/-! ### The frames of the WebSocket relay -/

/-- A move keeps the users of the channels that are there. -/
lemma GroupMove.channelUsers {name : String} {g g' : Group} (h : s.GroupMove fnv a name g g') :
    g.channelUsers <+: g'.channelUsers := by
  cases h with
  | kept => exact List.prefix_rfl
  | joined user => exact g.channelUsers_join user none
  | left user => rw [Group.channelUsers_of_channels (g.channels_leave user)]
  | sent => exact List.prefix_rfl
  | unicast => rw [Group.channelUsers_mapChannel]
  | channel => rw [Group.channelUsers_mapChannel]
  | piped _ turn => rw [Group.channelUsers_pipeStep turn]
  | cancelled cancel => rw [Group.channelUsers_of_channels (Group.channels_cancelPipe cancel)]

/-- In the run so far, a connection of the user `u` to the stream read a message for `d`, of which
the relay makes the frame `f`. -/
def Wrote (s : WsSystem) (as : List WsAction) (stream : String) (u d : UInt32) (f : Bytes) : Prop :=
  ∃ i m c, WsAction.message i m ∈ as ∧ s.sessions[i]? = some c ∧ c.stream = stream ∧ c.id = u ∧
    4 ≤ m.length ∧ addressee m = d ∧ f = header 0 u ++ m

lemma signedBy_wrote (s : WsSystem) (as : List WsAction) (stream : String) :
    SignedBy (s.Wrote as stream) := by
  rintro u d f ⟨i, m, c, -, -, -, -, -, -, rfl⟩
  exact List.prefix_append _ _

/-- What was written stays written, and an action adds its own message. -/
lemma Wrote.step {as : List WsAction} {stream : String} {u d : UInt32} {f : Bytes}
    (hkept : s.SessionsKept a t.sessions) (h : s.Wrote as stream u d f) :
    t.Wrote (as ++ [a]) stream u d f := by
  obtain ⟨i, m, c, hm, hc, hstream, hid, hlen, hd, hf⟩ := h
  obtain ⟨c', hc', hsame⟩ := hkept.old i c hc
  exact ⟨i, m, c', List.mem_append_left _ hm, hc', hsame.stream.trans hstream, hsame.id.trans hid,
    hlen, hd, hf⟩

/-- The channels of every group carry only what they may, and every connection reads from a
channel of its user. -/
structure Traced (s : WsSystem) (as : List WsAction) : Prop where
  wf : s.groups.Wf
  groups : ∀ (stream : String) (g : Group), s.groups.inner[stream]? = some g →
    g.Traced (s.Wrote as stream)
  receivers : ∀ (i : ℕ) (c : Session) (k : ℕ), s.sessions[i]? = some c → c.receiver = some k →
    ∃ g, s.groups.inner[c.stream]? = some g ∧ g.channelUsers[k]? = some c.id

/-- What is sent to a group in a step is written in it. -/
lemma forGroup_of_sends {as : List WsAction} {stream : String} {f : Bytes}
    (hkept : s.SessionsKept a t.sessions) (h : s.SendsGroup a stream f) :
    ForGroup (t.Wrote (as ++ [a]) stream) f := by
  cases a with
  | opened i =>
      obtain ⟨c, -, -, rfl⟩ := h
      exact ⟨c.id, .inl ⟨true, rfl⟩⟩
  | message i m =>
      obtain ⟨c, hc, hstream, hlen, hid, rfl⟩ := h
      obtain ⟨c', hc', hsame⟩ := hkept.old i c hc
      exact ⟨c.id, .inr ⟨i, m, c', List.mem_append_right _ (List.mem_singleton_self _), hc',
        hsame.stream.trans hstream, hsame.id, hlen, hid, rfl⟩⟩
  | _ => exact h.elim

/-- What is sent to a user in a step is written in it, by another user. -/
lemma forUser_of_sends {as : List WsAction} {stream : String} {d : UInt32} {f : Bytes}
    (hkept : s.SessionsKept a t.sessions) (h : s.SendsUser a stream d f) :
    ForUser (t.Wrote (as ++ [a]) stream) d f := by
  cases a with
  | message i m =>
      obtain ⟨c, hc, hstream, hlen, hd, hne, rfl⟩ := h
      obtain ⟨c', hc', hsame⟩ := hkept.old i c hc
      exact ⟨c.id, hne.symm, .inr (.inr ⟨i, m, c', List.mem_append_right _
        (List.mem_singleton_self _), hc', hsame.stream.trans hstream, hsame.id, hlen, hd, rfl⟩)⟩
  | _ => exact h.elim

/-- A move keeps a group traced. -/
lemma Traced.move {as : List WsAction} (hs : s.Traced as) (hkept : s.SessionsKept a t.sessions)
    {stream : String} {g g' : Group} (hg : s.groups.inner[stream]? = some g)
    (h : s.GroupMove fnv a stream g g') : g'.Traced (t.Wrote (as ++ [a]) stream) := by
  have htraced : g.Traced (t.Wrote (as ++ [a]) stream) :=
    (hs.groups stream g hg).mono fun _ _ _ => Wrote.step hkept
  cases h with
  | kept => exact htraced
  | joined user => exact htraced.join user none
  | left user => exact htraced.leave user
  | sent sends taken => exact htraced.send (forGroup_of_sends hkept sends) taken
  | unicast sends registered task =>
      rename_i d k u f
      -- the channel that is registered for the addressee is the addressee's
      have huser : u.user = d := by
        have hwf := hs.wf.groups stream g hg
        rw [hwf.senders] at registered
        obtain ⟨u', hu', huser, -⟩ := hwf.task d k registered
        rwa [Option.some.inj (task.symm.trans hu')]
      refine htraced.mapChannel fun u' hu' f' hf' => ?_
      obtain rfl := Option.some.inj (task.symm.trans hu')
      rw [Broadcast.push_log, List.mem_append, List.mem_singleton] at hf'
      rcases hf' with hf' | rfl
      · exact .inl hf'
      · exact .inr (huser ▸ forUser_of_sends hkept sends)
  | channel _ log => exact htraced.mapChannel fun u hu f hf => .inl (log u hu ▸ hf)
  | piped _ turn => exact htraced.pipeStep (signedBy_wrote t _ stream) turn
  | cancelled cancel => exact htraced.cancelPipe cancel

/-- **A step keeps the frames where they may be.** -/
theorem traced_step {as : List WsAction} (hs : s.Traced as) (h : s.step fnv a = some t) :
    t.Traced (as ++ [a]) := by
  have hmoved := moved_of_step hs.wf h
  have hkept := kept_of_step h
  -- a channel keeps its user
  have huser : ∀ {stream : String} {k : ℕ} {u : UInt32},
      (∃ g, s.groups.inner[stream]? = some g ∧ g.channelUsers[k]? = some u) →
        ∃ g, t.groups.inner[stream]? = some g ∧ g.channelUsers[k]? = some u := by
    rintro stream k u ⟨g, hg, hk⟩
    obtain ⟨g', hg', hmove⟩ := hmoved.old stream g hg
    obtain ⟨rest, hrest⟩ := hmove.channelUsers
    exact ⟨g', hg', by
      rw [← hrest, List.getElem?_append_left (List.getElem?_eq_some_iff.mp hk).1, hk]⟩
  refine ⟨wf_step hs.wf h, fun stream g' hg' => ?_, fun i c' k hc' hk => ?_⟩
  · cases hg : s.groups.inner[stream]? with
    | none =>
        obtain ⟨user, rfl⟩ := hmoved.new stream g' hg hg'
        exact (Group.traced_new stream none).join user none
    | some g =>
        obtain ⟨g'', hg'', hmove⟩ := hmoved.old stream g hg
        obtain rfl := Option.some.inj (hg'.symm.trans hg'')
        exact hs.move hkept hg hmove
  · cases hc : s.sessions[i]? with
    | none =>
        rw [hkept.new i c' hc hc'] at hk
        cases hk
    | some c =>
        obtain ⟨c'', hc'', hsame⟩ := hkept.old i c hc
        obtain rfl := Option.some.inj (hc'.symm.trans hc'')
        rw [hsame.stream, hsame.id]
        refine huser ?_
        rcases hsame.receiver with hrec | hrec | ⟨-, -, hrec⟩
        · exact hs.receivers i c k hc (hrec ▸ hk)
        · rw [hrec] at hk
          cases hk
        · rw [hk, GroupsManager.getUserSender] at hrec
          split at hrec
          · cases hrec
          · rename_i g hg
            have hwf := hs.wf.groups c.stream g hg
            rw [Except.ok.injEq, hwf.senders] at hrec
            obtain ⟨u, hu, huser, -⟩ := hwf.task c.id k hrec
            exact ⟨g, hg, by rw [Group.channelUsers, List.getElem?_map, hu, ← huser]; rfl⟩

/-- The frame that the send task of a connection takes next from the channel of its user. -/
def nextFrame (s : WsSystem) (i : ℕ) : Option Bytes :=
  s.sessions[i]?.bind fun c => c.receiver.bind fun k =>
    s.groups.inner[c.stream]?.bind fun g => g.tasks[k]?.bind fun t =>
      (t.userSender.recv i).1.toOption

/-- **Only for its readers**: in every run, a frame that a connection takes from its channel, to
write it to its socket, is the presence of another user or a message that another user sent over
the same stream, unchanged behind its id, and addressed to everybody or to the connection's own
user.  So no connection of a third user, and none to another stream, takes a message for one
user. -/
theorem frame_for_reader (fnv : List UInt8 → UInt32) {s₀ s : WsSystem} {as : List WsAction}
    (h0 : (wsMachine fnv).init s₀) (h : (wsMachine fnv).exec s₀ as = some s) {i : ℕ} {c : Session}
    (hc : s.sessions[i]? = some c) {f : Bytes} (hf : s.nextFrame i = some f) :
    ForUser (s.Wrote as c.stream) c.id f ∧
      ∀ u m, f = header 0 u ++ m → u ≠ c.id ∧ (addressee m ≠ u → addressee m = c.id) := by
  have hs : s.Traced as := by
    refine (wsMachine fnv).exec_history (I := fun as s => s.Traced as) ?_
      (fun _ _ _ _ hr hstep => traced_step hr hstep) h
    obtain ⟨hgroups, hsessions⟩ := groups_of_init h0
    refine ⟨hgroups ▸ GroupsManager.wf_new, fun stream g hg => ?_, fun i c k hc => ?_⟩
    · rw [hgroups] at hg
      simp [GroupsManager.new] at hg
    · rw [hsessions] at hc
      cases hc
  have hfor : ForUser (s.Wrote as c.stream) c.id f := by
    simp only [nextFrame, Option.bind_eq_some_iff, Received.toOption_eq_some_iff] at hf
    obtain ⟨c', hc', k, hk, g, hg, t, ht, hf⟩ := hf
    obtain rfl := Option.some.inj (hc.symm.trans hc')
    obtain ⟨g', hg', huser⟩ := hs.receivers i c k hc hk
    obtain rfl := Option.some.inj (hg.symm.trans hg')
    rw [Group.channelUsers, List.getElem?_map, ht, Option.map_some, Option.some.injEq] at huser
    exact huser ▸ (hs.groups c.stream g hg).channel k t ht f (t.userSender.mem_log_of_recv hf)
  refine ⟨hfor, ?_⟩
  rintro u m rfl
  obtain ⟨v, hne, ⟨opened, hopened⟩ | hsent⟩ := hfor
  · exact absurd hopened.symm networkEvent_ne_header
  · rcases hsent with ⟨_, m', _, _, _, _, _, _, hd, hframe⟩ | ⟨_, m', _, _, _, _, _, _, hd, hframe⟩
    · obtain ⟨rfl, rfl⟩ := header_append_inj hframe
      exact ⟨hne, fun hother => absurd hd hother⟩
    · obtain ⟨rfl, rfl⟩ := header_append_inj hframe
      exact ⟨hne, fun _ => hd⟩

/-- The second client connects as well, and the first one sends it a byte. -/
def whispered : List WsAction :=
  connected ++ [.connect "key" 1 8 "stream", .join 1, .subscribe 1, .message 0 [1, 0, 0, 0, 9]]

theorem frame_for_reader_small : ∃ s, (wsMachine fnv1a).exec small whispered = some s ∧
    s.nextFrame 1 = some [0, 0, 0, 0, 0, 1, 0, 0, 0, 9] ∧
      ForUser (s.Wrote whispered "stream") 1 [0, 0, 0, 0, 0, 1, 0, 0, 0, 9] := by
  have hnext : ((wsMachine fnv1a).exec small whispered).bind (fun s => s.nextFrame 1) =
      some [0, 0, 0, 0, 0, 1, 0, 0, 0, 9] := by decide
  have hsession : ((wsMachine fnv1a).exec small whispered).bind (fun s =>
      s.sessions[1]?.map fun c => (c.stream, c.id)) = some ("stream", 1) := by decide
  obtain ⟨s, hs, hf⟩ := Option.bind_eq_some_iff.mp hnext
  rw [hs, Option.bind_some, Option.map_eq_some_iff] at hsession
  obtain ⟨c, hc, hc'⟩ := hsession
  obtain ⟨hstream, hid⟩ := Prod.mk.inj hc'
  exact ⟨s, hs, hf, hstream ▸ hid ▸ (frame_for_reader fnv1a init_small hs hc hf).1⟩

end WsSystem

end SfuServer
