import SfuServer.Room.History

/-!
The WebSocket connections of a room, the handler `stream` of `src/route/ws/mod.rs`.

Every connection is a session with a handler and, once it runs, a receive task and a send
task.  The handler joins the group of its stream under the write lock of the groups manager,
subscribes to the channel of its user before it releases the lock, starts the two tasks,
waits until one of them ends and leaves the group, again under the lock.

The tasks and the pipes of the group take no lock: they hold the channels.  So the steps of
a session are those between which other tasks can run, and the lock is part of the state.

* `WsSystem`: the room, the holder of the lock, and all sessions so far;
* `WsAction`, `WsSystem.step`: what can happen, in any order, together with the requests of
  the room; `wsMachine` is the machine;
* `Group.Traffic`: what passes over the channels of a group leaves its members and the
  states of its pipes as they are;
* `spec_of_step`, with `groups_step` and `sessions_step`: what each action does to the groups
  manager and to the sessions;
* `wf_step`: the groups manager stays well formed.
-/

open Std (ExtTreeMap)

namespace SfuServer

/-- Why a receive task has ended: its socket was closed, it panicked on a message without an
address, the handler aborted it, or a send failed. -/
inductive RecvEnd where
  | socketClosed
  | malformed
  | aborted
  | sendFailed
  deriving DecidableEq, Repr

/-- The receive task: it announces its user, and then relays messages until it ends. -/
inductive RecvTask where
  | opening
  | relaying
  | ended (cause : RecvEnd)
  deriving DecidableEq, Repr

/-- How far the handler of a session is: it waits for the upgrade of its connection, holds
the lock after the join, waits for its tasks, is about to leave the group, or is done. -/
inductive Phase where
  | upgrading
  | joined
  | running
  | closing
  | closed
  deriving DecidableEq, Repr

/-- A WebSocket connection.  `receiver` is the handle of the user's channel that the send
task reads, while it runs; `evicted` records that the user exited the room after the join,
which the program itself does not keep. -/
structure Session where
  stream : String
  id : UInt32
  phase : Phase
  recvTask : RecvTask
  receiver : Option ℕ
  evicted : Bool
  deriving DecidableEq, Repr

/-- The session has joined its group and not been torn down. -/
def Session.Live (c : Session) : Prop :=
  c.phase = .joined ∨ c.phase = .running ∨ c.phase = .closing

instance (c : Session) : Decidable c.Live := inferInstanceAs (Decidable (_ ∨ _))

/-- The room with its WebSocket connections. -/
structure WsSystem where
  room : Room
  lock : Option ℕ
  sessions : List Session

/-- What can happen: a request of the room, a step of the handler, the receive task or the
send task of the session `i`, or a turn of a pipe of a group, or the end of one that was
aborted. -/
inductive WsAction where
  | request (request : RoomRequest)
  | connect (sharedKey : String) (userId : Int32) (token : UInt32) (stream : String)
  | join (i : ℕ)
  | subscribe (i : ℕ)
  | opened (i : ℕ)
  | message (i : ℕ) (binary : Bytes)
  | hangup (i : ℕ)
  | deliver (i : ℕ) (written : Bool)
  | select (i : ℕ)
  | teardown (i : ℕ)
  | pipe (group : String) (k : ℕ)
  | cancel (group : String) (k : ℕ)

namespace WsSystem

variable (fnv : List UInt8 → UInt32)

/-- The groups manager of the room. -/
def groups (s : WsSystem) : GroupsManager := s.room.groupManager

/-- A change of the groups manager. -/
def setGroups (s : WsSystem) (m : GroupsManager) : WsSystem :=
  { s with room := { s.room with groupManager := m } }

/-- A change of a session. -/
def setSession (s : WsSystem) (i : ℕ) (c : Session) : WsSystem :=
  { s with sessions := s.sessions.set i c }

/-- The requests that take the lock of the groups manager. -/
def usesGroups : RoomRequest → Bool
  | .join _ _ => true
  | .exit _ => true
  | _ => false

/-- The request is an exit that takes the user out of the room. -/
def exits (room : Room) (request : RoomRequest) (user : UInt32) : Bool :=
  match request with
  | .exit r => r.userId.toUInt32 == user && room.authSharedKey fnv r.sharedKey &&
      decide ((room.userDelete r.userId r.token true).1 = .ok true)
  | _ => false

/-- A request of the room, as one step. -/
def requestStep (s : WsSystem) (request : RoomRequest) : Option WsSystem :=
  if usesGroups request = true ∧ s.lock ≠ none then none
  else
    some { s with
      room := s.room.serve fnv request
      sessions := s.sessions.map fun c =>
        if c.Live ∧ exits fnv s.room request c.id = true then { c with evicted := true } else c }

/-- A connection of a user that `auth_user` accepts. -/
def connectStep (s : WsSystem) (sharedKey : String) (userId : Int32) (token : UInt32)
    (stream : String) : Option WsSystem :=
  match authUser fnv s.room sharedKey userId token with
  | .error _ => none
  | .ok _ =>
      some { s with
        sessions := s.sessions ++
          [⟨stream, userId.toUInt32, .upgrading, .opening, none, false⟩] }

/-- The handler takes the lock and joins the group. -/
def joinStep (s : WsSystem) (i : ℕ) : Option WsSystem :=
  s.sessions[i]?.bind fun c =>
    if c.phase = .upgrading ∧ s.lock = none then
      match (s.groups.initUser c.id).joinOrCreate c.id c.stream with
      | .error _ => none
      | .ok m =>
          some ({ s.setGroups m with lock := some i }.setSession i { c with phase := .joined })
    else none

/-- The handler subscribes to the channel of its user, releases the lock and starts its
tasks.  Without a group the connection is closed, and without a channel the handler
panics. -/
def subscribeStep (s : WsSystem) (i : ℕ) : Option WsSystem :=
  s.sessions[i]?.bind fun c =>
    if c.phase = .joined then
      match s.groups.getUserSender c.stream c.id with
      | .ok (some k) =>
          some ({ s.setGroups (s.groups.mapGroup c.stream fun g =>
              g.mapChannel k (·.subscribe i)) with lock := none }.setSession i
            { c with phase := .running, receiver := some k })
      | _ => some ({ s with lock := none }.setSession i { c with phase := .closed })
    else none

/-- The receive task announces its user to the group. -/
def openedStep (s : WsSystem) (i : ℕ) : Option WsSystem :=
  s.sessions[i]?.bind fun c =>
    if c.phase = .running ∧ c.recvTask = .opening then
      s.groups.inner[c.stream]?.bind fun g =>
        match g.tx.send (networkEvent c.id true) with
        | some tx =>
            some ((s.setGroups (s.groups.mapGroup c.stream fun g => { g with tx := tx })).setSession
              i { c with recvTask := .relaying })
        | none => some (s.setSession i { c with recvTask := .ended .sendFailed })
    else none

/-- The receive task relays one binary message. -/
def messageStep (s : WsSystem) (i : ℕ) (binary : Bytes) : Option WsSystem :=
  s.sessions[i]?.bind fun c =>
    if c.recvTask = .relaying then
      s.groups.inner[c.stream]?.bind fun g =>
        match recvStep c.id g.userSenders binary with
        | .broadcast frame =>
            match g.tx.send frame with
            | some tx =>
                some (s.setGroups (s.groups.mapGroup c.stream fun g => { g with tx := tx }))
            | none => some (s.setSession i { c with recvTask := .ended .sendFailed })
        | .unicast _ k frame =>
            g.tasks[k]?.bind fun t =>
              match t.userSender.send frame with
              | some channel =>
                  some (s.setGroups (s.groups.mapGroup c.stream fun g =>
                    g.mapChannel k fun _ => channel))
              | none => some (s.setSession i { c with recvTask := .ended .sendFailed })
        | .unregistered _ => some s
        | .panic => some (s.setSession i { c with recvTask := .ended .malformed })
        | .stop => none
    else none

/-- The socket of the session ends, and with it the receive task. -/
def hangupStep (s : WsSystem) (i : ℕ) : Option WsSystem :=
  s.sessions[i]?.bind fun c =>
    if c.recvTask = .relaying then
      some (s.setSession i { c with recvTask := .ended .socketClosed })
    else none

/-- Nobody can send to the user's channel any more: it is not registered and its pipe has
ended. -/
def senderDropped (g : Group) (user : UInt32) (k : ℕ) : Bool :=
  decide (g.userSenders[user]? ≠ some k) &&
    g.tasks[k]?.all fun t => decide (t.broadcastPipe ≠ .running)

/-- The send task ends: its receiver is dropped. -/
def stopSend (s : WsSystem) (i k : ℕ) (c : Session) : WsSystem :=
  (s.setGroups (s.groups.mapGroup c.stream fun g => g.mapChannel k (·.unsubscribe i))).setSession
    i { c with receiver := none }

/-- The send task takes a frame from the user's channel and writes it to the socket, where
the write succeeds or not; it ends when it lags and when the channel is closed. -/
def deliverStep (s : WsSystem) (i : ℕ) (written : Bool) : Option WsSystem :=
  s.sessions[i]?.bind fun c =>
    c.receiver.bind fun k =>
      s.groups.inner[c.stream]?.bind fun g =>
        g.tasks[k]?.bind fun t =>
          match t.userSender.recv i with
          | (.message _, channel) =>
              if written then
                some (s.setGroups (s.groups.mapGroup c.stream fun g =>
                  g.mapChannel k fun _ => channel))
              else some (s.stopSend i k c)
          | (.lagged _, _) => some (s.stopSend i k c)
          | (.empty, _) => if senderDropped g c.id k then some (s.stopSend i k c) else none

/-- The handler sees that one of its tasks has ended and aborts the other. -/
def selectStep (s : WsSystem) (i : ℕ) : Option WsSystem :=
  s.sessions[i]?.bind fun c =>
    if c.phase = .running then
      match c.recvTask, c.receiver with
      | .ended _, some k =>
          let c := { c with phase := .closing }
          some (s.stopSend i k c)
      | .ended _, none => some (s.setSession i { c with phase := .closing })
      | _, none => some (s.setSession i { c with phase := .closing, recvTask := .ended .aborted })
      | _, some _ => none
    else none

/-- The handler takes the lock and leaves the group. -/
def teardownStep (s : WsSystem) (i : ℕ) : Option WsSystem :=
  s.sessions[i]?.bind fun c =>
    if c.phase = .closing ∧ s.lock = none then
      some ((s.setGroups (s.groups.leaveOrWarn c.id c.stream)).setSession i
        { c with phase := .closed })
    else none

/-- A turn of the pipe with handle `k` in a group. -/
def pipeStep (s : WsSystem) (group : String) (k : ℕ) : Option WsSystem :=
  s.groups.inner[group]?.bind fun g =>
    (g.pipeStep k).bind fun g' => some (s.setGroups (s.groups.mapGroup group fun _ => g'))

/-- The abort of the pipe with handle `k` in a group takes effect. -/
def cancelStep (s : WsSystem) (group : String) (k : ℕ) : Option WsSystem :=
  s.groups.inner[group]?.bind fun g =>
    (g.cancelPipe k).bind fun g' => some (s.setGroups (s.groups.mapGroup group fun _ => g'))

/-- One step of the system. -/
def step (s : WsSystem) : WsAction → Option WsSystem
  | .request request => s.requestStep fnv request
  | .connect sharedKey userId token stream => s.connectStep fnv sharedKey userId token stream
  | .join i => s.joinStep i
  | .subscribe i => s.subscribeStep i
  | .opened i => s.openedStep i
  | .message i binary => s.messageStep i binary
  | .hangup i => s.hangupStep i
  | .deliver i written => s.deliverStep i written
  | .select i => s.selectStep i
  | .teardown i => s.teardownStep i
  | .pipe group k => s.pipeStep group k
  | .cancel group k => s.cancelStep group k

end WsSystem

/-- The machine of the WebSocket connections of a room, from the room's creation on. -/
def wsMachine (fnv : List UInt8 → UInt32) : Machine WsSystem WsAction where
  init s := (history fnv).init s.room ∧ s.lock = none ∧ s.sessions = []
  step := WsSystem.step fnv

/-! ### What the steps do -/

/-- What passes over the channels of a group, and the end of a pipe that was aborted, leaves its
members, the well-formedness and the states of the other pipes as they are. -/
structure Group.Traffic (g g' : Group) : Prop where
  innerUser : g'.innerUser = g.innerUser
  wf : g.Wf → g'.Wf
  noneFinished : g.NoneFinished → g'.NoneFinished
  framesWhole : g.FramesWhole → g'.FramesWhole

namespace Group.Traffic

lemma send {g : Group} {m : Bytes} {tx : Broadcast Bytes} (h : g.tx.send m = some tx)
    (hm : 5 ≤ m.length) : g.Traffic { g with tx := tx } := by
  obtain ⟨-, rfl⟩ := (g.tx.send_eq_some_iff m).mp h
  refine ⟨rfl, fun hg => hg.setTx fun _ => Iff.rfl, fun hg => hg, fun hg m' hm' => ?_⟩
  rw [Broadcast.push_log, List.mem_append, List.mem_singleton] at hm'
  rcases hm' with hm' | rfl
  · exact hg m' hm'
  · exact hm

lemma mapChannel (g : Group) (k : ℕ) (f : Broadcast Bytes → Broadcast Bytes) :
    g.Traffic (g.mapChannel k f) :=
  ⟨rfl, fun hg => hg.mapChannel k f, fun hg => hg.mapChannel k f, fun hg => hg⟩

lemma cancelPipe {g g' : Group} {k : ℕ} (h : g.cancelPipe k = some g') : g.Traffic g' where
  innerUser := by
    obtain ⟨t, -, -, rfl⟩ := Group.cancelPipe_eq_some_iff.mp h
    exact Group.stopPipe_innerUser ..
  wf hg := hg.cancelPipe h
  noneFinished hg := hg.cancelPipe h
  framesWhole hg := hg.cancelPipe h

end Group.Traffic

/-- A deletion of a user ends it in the groups, whatever its outcome. -/
lemma groupManager_userDelete (room : Room) (userId : Int32) (token : UInt32)
    (checkToken : Bool) : (room.userDelete userId token checkToken).2.groupManager =
      room.groupManager.endUser userId.toUInt32 := by
  have hloop : ∀ (streams : List String) (client : Client) (room : Room),
      (Room.deleteStreams userId client room streams).2.groupManager = room.groupManager := by
    intro streams
    induction streams with
    | nil => exact fun _ _ => rfl
    | cons stream streams ih =>
        intro client room
        rw [Room.deleteStreams]
        cases room.forwarder.streamDelete stream with
        | error e => rfl
        | ok f =>
            dsimp only
            cases client.removeStream stream with
            | error e => rfl
            | ok client => exact ih client _
  rw [Room.userDelete]
  cases room.clientMap[userId]? with
  | none => rfl
  | some client =>
      dsimp only
      split_ifs
      · rfl
      · have := hloop client.getStreams client
          { room with groupManager := room.groupManager.endUser userId.toUInt32 }
        split <;> rename_i room' hroom' <;> rwa [hroom'] at this

lemma groupManager_serve_exit (fnv : List UInt8 → UInt32) (room : Room) (request : ExitRequest) :
    (room.serve fnv (.exit request)).groupManager =
      if room.authSharedKey fnv request.sharedKey = true then
        room.groupManager.endUser request.userId.toUInt32
      else room.groupManager := by
  rw [Room.serve, roomExit]
  by_cases hauth : room.authSharedKey fnv request.sharedKey = true
  · have := groupManager_userDelete room request.userId request.token true
    simp only [hauth, Bool.not_true, Bool.false_eq_true, if_false, if_true]
    split <;> rename_i room' hroom' <;> rwa [hroom'] at this
  · simp [hauth]

/-- A request other than an exit makes a user known to the groups, or does not touch them. -/
lemma groupManager_serve_of_ne_exit (fnv : List UInt8 → UInt32) (room : Room)
    {request : RoomRequest} (h : ∀ r, request ≠ .exit r) :
    (room.serve fnv request).groupManager = room.groupManager ∨
      ∃ user, (room.serve fnv request).groupManager = room.groupManager.initUser user := by
  cases request with
  | join request token =>
      rw [Room.serve, roomJoin]
      split_ifs
      · exact .inl rfl
      · have hjoin : (room.join fnv request.name request.masterKey token).2.groupManager =
            room.groupManager ∨ ∃ user,
              (room.join fnv request.name request.masterKey token).2.groupManager =
                room.groupManager.initUser user := by
          rw [Room.join]
          split_ifs
          · exact .inl rfl
          · exact .inr ⟨_, rfl⟩
          · exact .inl rfl
          · split
            · exact .inr ⟨_, rfl⟩
            · exact .inl rfl
          · split
            · exact .inr ⟨_, rfl⟩
            · exact .inl rfl
        split
        · rename_i room' hroom'
          rwa [hroom'] at hjoin
        · rename_i result room' _ hroom'
          rwa [hroom'] at hjoin
  | exit request => exact absurd rfl (h request)
  | create request =>
      refine .inl ?_
      rw [Room.serve, create]
      split
      · rfl
      · split
        · rfl
        · dsimp only
          split <;> rfl
  | destroy request =>
      refine .inl ?_
      rw [Room.serve, destroy]
      split
      · rfl
      · split
        · rfl
        · dsimp only
          split <;> rfl
  | whip request negotiated =>
      refine .inl ?_
      rw [Room.serve, whip]
      split
      · rfl
      · split
        · rfl
        · dsimp only
          split <;> rfl
  | depart forward peer now => exact .inl rfl
  | tick scan reap => exact .inl rfl

namespace WsSystem

variable {fnv : List UInt8 → UInt32} {s t : WsSystem}

/-- The groups manager changed at most by what passes over the channels of one group, or by the
end of a pipe that was aborted. -/
def GroupsTraffic (m m' : GroupsManager) : Prop :=
  m' = m ∨ ∃ name f, (∀ g, m.inner[name]? = some g → g.Traffic (f g)) ∧ m' = m.mapGroup name f

/-- What each action does to the groups manager. -/
def GroupsChange (fnv : List UInt8 → UInt32) (s : WsSystem) (m : GroupsManager) :
    WsAction → Prop
  | .request request => m = (s.room.serve fnv request).groupManager
  | .join i => ∃ c, s.sessions[i]? = some c ∧
      (s.groups.initUser c.id).joinOrCreate c.id c.stream = .ok m
  | .teardown i => ∃ c, s.sessions[i]? = some c ∧ m = s.groups.leaveOrWarn c.id c.stream
  | .pipe group k => ∃ g g', s.groups.inner[group]? = some g ∧ g.pipeStep k = some g' ∧
      m = s.groups.mapGroup group fun _ => g'
  | _ => GroupsTraffic s.groups m

lemma groupsTraffic_stopSend (s : WsSystem) (i k : ℕ) (c : Session) :
    GroupsTraffic s.groups (s.stopSend i k c).groups :=
  .inr ⟨c.stream, _, fun g _ => Group.Traffic.mapChannel g k _, rfl⟩

/-- A change of a group to what a send over its channel makes of it. -/
lemma groupsTraffic_send {m : GroupsManager} {name : String} {g : Group} {frame : Bytes}
    {tx : Broadcast Bytes} (hg : m.inner[name]? = some g) (h : g.tx.send frame = some tx)
    (hframe : 5 ≤ frame.length) :
    GroupsTraffic m (m.mapGroup name fun g => { g with tx := tx }) := by
  refine .inr ⟨name, _, fun g' hg' => ?_, rfl⟩
  rw [hg, Option.some.injEq] at hg'
  exact hg' ▸ Group.Traffic.send h hframe

/-- What is broadcast stands behind a whole header. -/
lemma length_of_recvStep {σ : Type*} {id : UInt32} {users : ExtTreeMap UInt32 σ}
    {binary frame : Bytes} (h : recvStep id users binary = .broadcast frame) :
    5 ≤ frame.length := by
  rw [recvStep] at h
  split_ifs at h
  · simp only [Routing.broadcast.injEq] at h
    simp [← h]
  · dsimp only at h
    split at h <;> cases h

/-- Two stages of one session: the user and the group are the same, and the later one is live
only if the earlier one is. -/
structure SameSession (c c' : Session) : Prop where
  stream : c'.stream = c.stream
  id : c'.id = c.id
  evicted : c'.evicted = c.evicted
  live : c'.Live → c.Live

/-- At most one session moved on, to another stage of itself. -/
def SessionMoved (l l' : List Session) : Prop :=
  l' = l ∨ ∃ i c c', l[i]? = some c ∧ SameSession c c' ∧ l' = l.set i c'

lemma SessionMoved.set {l l' : List Session} {i : ℕ} {c c' : Session} (hc : l[i]? = some c)
    (hl : l' = l.set i c') (hsame : SameSession c c') : SessionMoved l l' :=
  .inr ⟨i, c, c', hc, hsame, hl⟩

/-- What each action does to the sessions. -/
def SessionsChange (fnv : List UInt8 → UInt32) (s : WsSystem) (sessions : List Session) :
    WsAction → Prop
  | .request request => sessions = s.sessions.map fun c =>
      if c.Live ∧ exits fnv s.room request c.id = true then { c with evicted := true } else c
  | .connect _ userId _ stream => sessions =
      s.sessions ++ [⟨stream, userId.toUInt32, .upgrading, .opening, none, false⟩]
  | .join i => ∃ c, s.sessions[i]? = some c ∧
      sessions = s.sessions.set i { c with phase := .joined }
  | .teardown i => ∃ c, s.sessions[i]? = some c ∧ c.Live ∧
      sessions = s.sessions.set i { c with phase := .closed }
  | _ => SessionMoved s.sessions sessions

/-- What a step does to the groups and to the sessions. -/
structure StepSpec (fnv : List UInt8 → UInt32) (s : WsSystem) (a : WsAction) (t : WsSystem) :
    Prop where
  groups : GroupsChange fnv s t.groups a
  sessions : SessionsChange fnv s t.sessions a

/-- A message that is read goes over one channel, or ends the loop of its session. -/
lemma spec_message {i : ℕ} {binary : Bytes} (h : s.step fnv (.message i binary) = some t) :
    StepSpec fnv s (.message i binary) t := by
  simp only [step, messageStep, Option.bind_eq_some_iff, Option.ite_none_right_eq_some] at h
  obtain ⟨c, hc, -, g, hg, h⟩ := h
  have hmoved : ∀ cause, SessionMoved s.sessions
      (s.sessions.set i { c with recvTask := .ended cause }) := fun cause =>
    SessionMoved.set hc rfl ⟨rfl, rfl, rfl, id⟩
  split at h
  · rename_i frame hframe
    split at h
    · rename_i tx htx
      cases h
      exact ⟨groupsTraffic_send hg htx (length_of_recvStep hframe), .inl rfl⟩
    · cases h
      exact ⟨.inl rfl, hmoved _⟩
  · obtain ⟨u, -, h⟩ := Option.bind_eq_some_iff.mp h
    split at h
    · cases h
      exact ⟨.inr ⟨c.stream, _, fun g _ => Group.Traffic.mapChannel g _ _, rfl⟩, .inl rfl⟩
    · cases h
      exact ⟨.inl rfl, hmoved _⟩
  · cases h
    exact ⟨.inl rfl, .inl rfl⟩
  · cases h
    exact ⟨.inl rfl, hmoved _⟩
  · cases h

/-- A turn of the send task takes a frame from the user's channel, or stops. -/
lemma spec_deliver {i : ℕ} {written : Bool} (h : s.step fnv (.deliver i written) = some t) :
    StepSpec fnv s (.deliver i written) t := by
  simp only [step, deliverStep, Option.bind_eq_some_iff] at h
  obtain ⟨c, hc, k, -, g, -, u, -, h⟩ := h
  have hstopped : StepSpec fnv s (.deliver i written) (s.stopSend i k c) :=
    ⟨groupsTraffic_stopSend s i k c, SessionMoved.set hc rfl ⟨rfl, rfl, rfl, id⟩⟩
  split at h
  · split_ifs at h
    · cases h
      exact ⟨.inr ⟨c.stream, _, fun g _ => Group.Traffic.mapChannel g _ _, rfl⟩, .inl rfl⟩
    · cases h
      exact hstopped
  · cases h
    exact hstopped
  · split_ifs at h
    cases h
    exact hstopped

lemma spec_of_step {a : WsAction} (h : s.step fnv a = some t) : StepSpec fnv s a t := by
  cases a with
  | request request =>
      simp only [step, requestStep, Option.ite_none_left_eq_some, Option.some.injEq] at h
      obtain ⟨-, rfl⟩ := h
      exact ⟨rfl, rfl⟩
  | connect sharedKey userId token stream =>
      rw [step, connectStep] at h
      split at h
      · cases h
      · cases h
        exact ⟨.inl rfl, rfl⟩
  | join i =>
      simp only [step, joinStep, Option.bind_eq_some_iff, Option.ite_none_right_eq_some] at h
      obtain ⟨c, hc, -, h⟩ := h
      split at h
      · cases h
      · rename_i m hm
        cases h
        exact ⟨⟨c, hc, hm⟩, ⟨c, hc, rfl⟩⟩
  | subscribe i =>
      simp only [step, subscribeStep, Option.bind_eq_some_iff, Option.ite_none_right_eq_some] at h
      obtain ⟨c, hc, hphase, h⟩ := h
      have hlive : c.Live := .inl hphase
      split at h
      · cases h
        exact ⟨.inr ⟨c.stream, _, fun g _ => Group.Traffic.mapChannel g _ _, rfl⟩,
          SessionMoved.set hc rfl ⟨rfl, rfl, rfl, fun _ => hlive⟩⟩
      · cases h
        exact ⟨.inl rfl, SessionMoved.set hc rfl ⟨rfl, rfl, rfl, fun _ => hlive⟩⟩
  | opened i =>
      simp only [step, openedStep, Option.bind_eq_some_iff, Option.ite_none_right_eq_some] at h
      obtain ⟨c, hc, -, g, hg, h⟩ := h
      split at h
      · rename_i tx htx
        cases h
        exact ⟨groupsTraffic_send hg htx (by simp [networkEvent]),
          SessionMoved.set hc rfl ⟨rfl, rfl, rfl, id⟩⟩
      · cases h
        exact ⟨.inl rfl, SessionMoved.set hc rfl ⟨rfl, rfl, rfl, id⟩⟩
  | message i binary => exact spec_message h
  | hangup i =>
      simp only [step, hangupStep, Option.bind_eq_some_iff, Option.ite_none_right_eq_some,
        Option.some.injEq] at h
      obtain ⟨c, hc, -, rfl⟩ := h
      exact ⟨.inl rfl, SessionMoved.set hc rfl ⟨rfl, rfl, rfl, id⟩⟩
  | deliver i written => exact spec_deliver h
  | select i =>
      simp only [step, selectStep, Option.bind_eq_some_iff, Option.ite_none_right_eq_some] at h
      obtain ⟨c, hc, hphase, h⟩ := h
      have hlive : c.Live := .inr (.inl hphase)
      split at h
      · cases h
        exact ⟨groupsTraffic_stopSend s i _ _,
          SessionMoved.set hc rfl ⟨rfl, rfl, rfl, fun _ => hlive⟩⟩
      · cases h
        exact ⟨.inl rfl, SessionMoved.set hc rfl ⟨rfl, rfl, rfl, fun _ => hlive⟩⟩
      · cases h
        exact ⟨.inl rfl, SessionMoved.set hc rfl ⟨rfl, rfl, rfl, fun _ => hlive⟩⟩
      · cases h
  | teardown i =>
      simp only [step, teardownStep, Option.bind_eq_some_iff, Option.ite_none_right_eq_some,
        Option.some.injEq] at h
      obtain ⟨c, hc, hphase, rfl⟩ := h
      exact ⟨⟨c, hc, rfl⟩, ⟨c, hc, .inr (.inr hphase.1), rfl⟩⟩
  | pipe group k =>
      simp only [step, pipeStep, Option.bind_eq_some_iff, Option.some.injEq] at h
      obtain ⟨g, hg, g', hg', rfl⟩ := h
      exact ⟨⟨g, g', hg, hg', rfl⟩, .inl rfl⟩
  | cancel group k =>
      simp only [step, cancelStep, Option.bind_eq_some_iff, Option.some.injEq] at h
      obtain ⟨g, hg, g', hg', rfl⟩ := h
      refine ⟨.inr ⟨group, _, fun g₀ hg₀ => ?_, rfl⟩, .inl rfl⟩
      rw [hg, Option.some.injEq] at hg₀
      exact hg₀ ▸ Group.Traffic.cancelPipe hg'

/-- **What the steps do to the groups.** -/
theorem groups_step {a : WsAction} (h : s.step fnv a = some t) :
    GroupsChange fnv s t.groups a :=
  (spec_of_step h).groups

/-- **What the steps do to the sessions.** -/
theorem sessions_step {a : WsAction} (h : s.step fnv a = some t) :
    SessionsChange fnv s t.sessions a :=
  (spec_of_step h).sessions

/-- A property of all groups that members, traffic and turns of pipes respect is kept by a
step. -/
lemma forallGroups_step {P : Group → Prop} {a : WsAction} (hs : s.groups.ForallGroups P)
    (hnew : ∀ name, P (Group.new name none)) (hjoin : ∀ g user, P g → P (g.join user none))
    (hleave : ∀ g user, P g → P (g.leave user)) (htraffic : ∀ g g', g.Traffic g' → P g → P g')
    (hpipe : ∀ name k g g', a = .pipe name k → s.groups.inner[name]? = some g →
      g.pipeStep k = some g' → P g → P g')
    (h : s.step fnv a = some t) : t.groups.ForallGroups P := by
  have hchange := groups_step h
  have htraffic' : GroupsTraffic s.groups t.groups → t.groups.ForallGroups P := by
    rintro (hm | ⟨name, f, hf, hm⟩)
    · exact hm ▸ hs
    · exact hm ▸ hs.mapGroup fun g hg => htraffic g (f g) (hf g hg)
  cases a with
  | request request =>
      change t.groups = _ at hchange
      rw [hchange]
      by_cases hexit : ∃ r, request = .exit r
      · obtain ⟨r, rfl⟩ := hexit
        rw [groupManager_serve_exit]
        split_ifs
        · exact hs.endUser fun g => hleave g _
        · exact hs
      · push Not at hexit
        rcases groupManager_serve_of_ne_exit fnv s.room hexit with hm | ⟨user, hm⟩
        · exact hm ▸ hs
        · rw [hm]
          intro name g hg
          rw [GroupsManager.inner_initUser] at hg
          exact hs name g hg
  | join i =>
      obtain ⟨c, -, hm⟩ := hchange
      refine GroupsManager.ForallGroups.joinOrCreate (hnew c.stream) (fun g => hjoin g c.id) ?_ hm
      intro name g hg
      rw [GroupsManager.inner_initUser] at hg
      exact hs name g hg
  | teardown i =>
      obtain ⟨c, -, hm⟩ := hchange
      exact hm ▸ hs.leaveOrWarn fun g => hleave g c.id
  | pipe group k =>
      obtain ⟨g, g', hg, hg', hm⟩ := hchange
      refine hm ▸ hs.mapGroup fun g₀ hg₀ hP => ?_
      rw [hg, Option.some.injEq] at hg₀
      exact hpipe group k g g' rfl hg hg' (hg₀ ▸ hP)
  | connect sharedKey userId token stream => exact htraffic' hchange
  | subscribe i => exact htraffic' hchange
  | opened i => exact htraffic' hchange
  | message i binary => exact htraffic' hchange
  | hangup i => exact htraffic' hchange
  | deliver i written => exact htraffic' hchange
  | select i => exact htraffic' hchange
  | cancel group k => exact htraffic' hchange

/-- Traffic changes no membership. -/
lemma users_of_groupsTraffic {m m' : GroupsManager} (h : GroupsTraffic m m') (name : String) :
    m'.users name = m.users name := by
  rcases h with rfl | ⟨n, f, hf, rfl⟩
  · rfl
  · exact GroupsManager.users_mapGroup (fun g hg => (hf g hg).innerUser) name

/-- Traffic keeps a groups manager well formed. -/
lemma wf_of_groupsTraffic {m m' : GroupsManager} (h : GroupsTraffic m m') (hm : m.Wf) :
    m'.Wf := by
  rcases h with rfl | ⟨n, f, hf, rfl⟩
  · exact hm
  · exact hm.mapGroup fun g hg => ⟨(hf g hg).wf (hm.groups n g hg), (hf g hg).innerUser⟩

/-- A turn of a pipe changes no membership. -/
lemma innerUser_of_pipeStep {g g' : Group} {k : ℕ} (h : g.pipeStep k = some g') :
    g'.innerUser = g.innerUser := by
  obtain ⟨t, -, -, ⟨-, rfl | rfl⟩ | ⟨-, rfl | ⟨f, rfl⟩⟩⟩ := Group.pipeStep_cases h
  · simp
  · simp
  · rfl
  · rfl

/-- The groups manager stays well formed. -/
theorem wf_step {a : WsAction} (hs : s.groups.Wf) (h : s.step fnv a = some t) :
    t.groups.Wf := by
  have hchange := groups_step h
  cases a with
  | request request =>
      change t.groups = _ at hchange
      rw [hchange]
      by_cases hexit : ∃ r, request = .exit r
      · obtain ⟨r, rfl⟩ := hexit
        rw [groupManager_serve_exit]
        split_ifs
        · exact hs.endUser _
        · exact hs
      · push Not at hexit
        rcases groupManager_serve_of_ne_exit fnv s.room hexit with hm | ⟨user, hm⟩
        · exact hm ▸ hs
        · exact hm ▸ hs.initUser user
  | join i =>
      obtain ⟨c, -, hm⟩ := hchange
      exact (hs.initUser c.id).joinOrCreate c.id hm
  | teardown i =>
      obtain ⟨c, -, hm⟩ := hchange
      exact hm ▸ hs.leaveOrWarn c.id
  | pipe group k =>
      obtain ⟨g, g', hg, hg', hm⟩ := hchange
      refine hm ▸ hs.mapGroup fun g₀ hg₀ => ?_
      rw [hg, Option.some.injEq] at hg₀
      subst hg₀
      exact ⟨(hs.groups group g hg).pipeStep hg', innerUser_of_pipeStep hg'⟩
  | connect sharedKey userId token stream => exact wf_of_groupsTraffic hchange hs
  | subscribe i => exact wf_of_groupsTraffic hchange hs
  | opened i => exact wf_of_groupsTraffic hchange hs
  | message i binary => exact wf_of_groupsTraffic hchange hs
  | hangup i => exact wf_of_groupsTraffic hchange hs
  | deliver i written => exact wf_of_groupsTraffic hchange hs
  | select i => exact wf_of_groupsTraffic hchange hs
  | cancel group k => exact wf_of_groupsTraffic hchange hs

end WsSystem

end SfuServer
