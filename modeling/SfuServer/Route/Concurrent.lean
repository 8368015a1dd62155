import SfuServer.Lib.LockScope
import SfuServer.Rtc.AddSubscribe
import SfuServer.Route.Table
import SfuServer.Room.Settings

/-!
All tasks of the server as programs on the locks that they share.

The table of the rooms has a lock; so have, for each room, its clients, its forwarder with the
table of the streams, and its groups manager with its two tables; for each client the list of its
streams; for each group its members, its pipes and its senders; for each stream the fields of
`PeerForwardInternal`.  What is shared by pointers is kept under a name of `O`, also after its
entry in a table is gone; an object that a task creates has a name that comes with the task.

* `ServerLock`, `ServerData`: the locks, and what is behind them;
* `ServerSurroundings`: what the connections, the clock and the order of a map's entries tell;
* the operations of the groups manager, of a client, of the forwarder and of a room, and the
  handlers of the routes, up to the point where a WebSocket or a connection is served;
* `ServerCall`, `serverMachine`: the tasks, and the machine in which any of them run concurrently.

A panic ends its task and gives up its locks.  `user_senders` is a lock of the standard library, the
others are of `tokio`.
-/

open Std (ExtTreeMap)

namespace SfuServer

/-- The locks of a `Group`. -/
inductive GroupLock where
  | innerUser
  | userTasks
  | userSenders
  deriving DecidableEq, Repr

instance : Fintype GroupLock :=
  .ofList [.innerUser, .userTasks, .userSenders] fun l => by cases l <;> decide

/-- The locks of the server. -/
inductive ServerLock (O : Type) where
  | rooms
  | clientMap (room : O)
  | groupManager (room : O)
  | inner (room : O)
  | usersGroup (room : O)
  | group (group : O) (l : GroupLock)
  | forwarder (room : O)
  | streamMap (room : O)
  | streams (client : O)
  | trackBinding (session : O)
  | publishLock (stream : O)
  | stream (stream : O) (l : StreamLock)
  deriving DecidableEq, Fintype

/-- What is behind the locks. -/
structure ServerData (O : Type) where
  rooms : ExtTreeMap Int32 O
  settings : O → RoomSettings
  clientMap : O → ExtTreeMap Int32 O
  client : O → Client
  inner : O → ExtTreeMap String O
  usersGroup : O → ExtTreeMap UInt32 (List String)
  group : O → Group
  streamMap : O → ExtTreeMap String O
  stream : O → StreamData

/-- A server without rooms. -/
def ServerData.new {O : Type} : ServerData O where
  rooms := ∅
  settings _ := ⟨0, "", false, false, 0, 0, 0, ""⟩
  clientMap _ := ∅
  client _ := .new 0 0 ""
  inner _ := ∅
  usersGroup _ := ∅
  group _ := .new "" none
  streamMap _ := ∅
  stream _ := .new "" 0


namespace StreamProg

open LockProg

/-- `PeerForwardInternal::publish_is_svc`; `svc` tells of which connections the description has
layers. -/
def publishIsSvc (svc : String → Bool) : StreamProg Bool :=
  withLock .publish .read (read fun d => d.publish.any fun peer => svc peer.id)

/-- `PeerForwardInternal::publish_svc_rids`. -/
def publishSvcRids : StreamProg (List String) :=
  withLock .publishTracks .read
    (read fun d => (d.publishTracks.filter fun t => t.kind = .video).map (·.rid))

/-- `PeerForwardInternal::select_kind_rid`; `selected` tells what comes of the request to a
subscriber. -/
def selectKindRid (selected : String → Except AppError Unit) (id : String) :
    StreamProg (Except AppError Unit) :=
  withLock .subscribeGroup .read do
    match ← read fun d => d.subscribeGroup.find? fun subscribe => subscribe.id = id with
    | some subscribe => return selected subscribe.id
    | none => return .ok ()

/-- `PeerForwardInternal::publish_track_up`. -/
def publishTrackUp (track : PublishTrackRemote) : StreamProg Unit :=
  withLock .publishTracks .write (modify fun d => { d with
    publishTracks := (d.publishTracks ++ [track]).insertionSort fun a b => a.rid ≤ b.rid })

/-- `PeerForwardInternal::publish_data_channel` and `subscribe_data_channel`, where the channel of
the user is named `sender`. -/
def dataChannel (id : UInt32) (sender : ℕ) : StreamProg Unit :=
  withLock .userSenderMap .write
    (modify fun d => { d with userSenderMap := d.userSenderMap.insert id sender })

/-- The look-up of the addressee in `data_channel_read_loop`. -/
def addressee (user : UInt32) : StreamProg (Option ℕ) :=
  withLock .userSenderMap .read (read fun d => d.userSenderMap[user]?)

/-- What the loops of a subscriber read of the tracks. -/
def tracks : StreamProg (List PublishTrackRemote) :=
  withLock .publishTracks .read (read fun d => d.publishTracks)

end StreamProg

/-- What a task is told: the time, the states of the connections, the offer that it has, and what
comes of the calls on the connection `peer` that it sets up; which connections can be closed; which
remote descriptions have layers; what comes of a choice of a layer; and the orders in which the maps
list what is in them. -/
structure ServerSurroundings (O : Type) where
  offer : SubscribeOffer
  peer : String
  closed : String → Except AppError Unit
  svc : String → Bool
  selected : String → Except AppError Unit
  users : ExtTreeMap Int32 O → List Int32
  streams : ExtTreeMap String O → List (String × O)

/-- What the calls of a stream are told. -/
def ServerSurroundings.toSurroundings {O : Type} (o : ServerSurroundings O) : Surroundings where
  now := o.offer.now
  connectionState := o.offer.connectionState
  closed := o.closed
  built := o.offer.calls.publishConnection.map fun _ => ()

/-- What a task returns; `panic` is the end of a task that panics. -/
inductive ServerReply where
  | response (r : Except AppError Response)
  | rooms (r : Except Response (List RoomInfoJson))
  | joined (r : Except Response JoinResult)
  | infos (r : Except Response (List ForwardInfo))
  | layers (r : Except Response (Except AppError (List String)))
  | stream (r : StreamReply)
  | ended
  | panic

/-- A task of the server. -/
abbrev ServerProg (O : Type) := LockProg (ServerLock O) (ServerData O)

namespace ServerProg

open LockProg

variable {O : Type} [DecidableEq O] (fnv : List UInt8 → UInt32)

/-- A change of what is behind the locks of a stream. -/
def setStream (s : O) (x : StreamData) (d : ServerData O) : ServerData O :=
  { d with stream := Function.update d.stream s x }

/-- A change of a group. -/
def setGroup (g : O) (f : Group → Group) (d : ServerData O) : ServerData O :=
  { d with group := Function.update d.group g (f (d.group g)) }

/-- A change of a client. -/
def setClient (c : O) (x : Client) (d : ServerData O) : ServerData O :=
  { d with client := Function.update d.client c x }

/-- A change of the clients of a room. -/
def setClientMap (r : O) (f : ExtTreeMap Int32 O → ExtTreeMap Int32 O) (d : ServerData O) :
    ServerData O :=
  { d with clientMap := Function.update d.clientMap r (f (d.clientMap r)) }

/-- A change of the groups of a room. -/
def setInner (r : O) (f : ExtTreeMap String O → ExtTreeMap String O) (d : ServerData O) :
    ServerData O :=
  { d with inner := Function.update d.inner r (f (d.inner r)) }

/-- A change of the lists of the users of a room. -/
def setUsersGroup (r : O)
    (f : ExtTreeMap UInt32 (List String) → ExtTreeMap UInt32 (List String)) (d : ServerData O) :
    ServerData O :=
  { d with usersGroup := Function.update d.usersGroup r (f (d.usersGroup r)) }

/-- A change of the streams of a room. -/
def setStreamMap (r : O) (f : ExtTreeMap String O → ExtTreeMap String O) (d : ServerData O) :
    ServerData O :=
  { d with streamMap := Function.update d.streamMap r (f (d.streamMap r)) }

/-! ### Groups -/

/-- `Group::join`. -/
def groupJoin (g : O) (user : UInt32) : ServerProg O Unit :=
  withLock (.group g .innerUser) .write do
    withLock (.group g .userTasks) .write do
      if ← read fun d => (d.group g).userTasks.contains user then
        modify (setGroup g fun x => x.join user none)
      else
        withLock (.group g .userSenders) .write do
          modify (setGroup g fun x => x.join user none)

/-- `Group::leave`. -/
def groupLeave (g : O) (user : UInt32) : ServerProg O Unit :=
  withLock (.group g .innerUser) .write do
    if ← read fun d => (d.group g).innerUser.contains user then
      withLock (.group g .userTasks) .write do
        withLock (.group g .userSenders) .write do
          modify (setGroup g fun x => x.leave user)
    else return ()

/-- `GroupsManager::group_exists`. -/
def groupExists (r : O) (name : String) : ServerProg O Bool :=
  withLock (.inner r) .write (read fun d => (d.inner r).contains name)

/-- `GroupsManager::new_group`. -/
def newGroup (r g : O) (name : String) : ServerProg O Unit :=
  withLock (.inner r) .write do
    modify (setGroup g fun _ => .new name none)
    modify (setInner r fun m => m.insert name g)

/-- `GroupsManager::join_group`. -/
def joinGroup (r : O) (name : String) (user : UInt32) : ServerProg O (Except GroupError O) :=
  withLock (.inner r) .write do
    withLock (.usersGroup r) .write do
      match ← read fun d => (d.inner r)[name]? with
      | none => return .error .groupNotFound
      | some g => do
          groupJoin g user
          modify (setUsersGroup r fun m =>
            m.insert user (GroupsManager.addName (m[user]?.getD []) name))
          return .ok g

/-- `GroupsManager::join_or_create`. -/
def joinOrCreate (r g : O) (user : UInt32) (group : String) :
    ServerProg O (Except GroupError O) := do
  if ← groupExists r group then joinGroup r group user
  else do
    newGroup r g group
    joinGroup r group user

/-- `GroupsManager::leave_group`. -/
def leaveGroup (r : O) (name : String) (user : UInt32) : ServerProg O (Except GroupError Unit) :=
  withLock (.inner r) .write do
    match ← read fun d => (d.inner r)[name]? with
    | none => return .error .groupNotFound
    | some g => do
        groupLeave g user
        withLock (.usersGroup r) .write do
          modify (setUsersGroup r fun m => GroupsManager.removeName name m user)
        return .ok ()

/-- `GroupsManager::init_user`. -/
def initUser (r : O) (user : UInt32) : ServerProg O Unit :=
  withLock (.usersGroup r) .write do
    modify (setUsersGroup r fun m => m.insertIfNew user [])

/-- `GroupsManager::end_user`: the failure of a leave is only logged. -/
def endUser (r : O) (user : UInt32) : ServerProg O Unit := do
  let groupNames ← withLock (.usersGroup r) .write do
    let names ← read fun d => ((d.usersGroup r)[user]?).getD []
    modify (setUsersGroup r fun m => m.erase user)
    return names
  let _ ← collect (fun name => leaveGroup r name user) groupNames
  return ()

/-- `GroupsManager::get_user_receiver`, where the new receiver is named `receiver`; the inner `none`
is the panic on a user without a sender. -/
def getUserReceiver (r : O) (group : String) (user : UInt32) (receiver : ℕ) :
    ServerProg O (Except GroupError (Option ℕ)) :=
  withLock (.inner r) .write do
    match ← read fun d => (d.inner r)[group]? with
    | none => return .error .groupNotFound
    | some g => do
        let handle ← withLock (.group g .userSenders) .read
          (read fun d => (d.group g).userSenders[user]?)
        match handle with
        | none => return .ok none
        | some k => do
            modify (setGroup g fun x => x.mapChannel k (·.subscribe receiver))
            return .ok (some k)

/-- `GroupsManager::get_user_sender_map`. -/
def getUserSenderMap (r : O) (group : String) : ServerProg O (Except GroupError O) :=
  withLock (.inner r) .write do
    match ← read fun d => (d.inner r)[group]? with
    | none => return .error .groupNotFound
    | some g => return .ok g

/-! ### Clients -/

/-- `Client::add_stream`. -/
def addStream (c : O) (stream : String) : ServerProg O (Except AppError Unit) :=
  withLock (.streams c) .write do
    match ← read fun d => (d.client c).addStream stream with
    | .error e => return .error e
    | .ok x => do
        modify (setClient c x)
        return .ok ()

/-- `Client::remove_stream`. -/
def removeStream (c : O) (stream : String) : ServerProg O (Except AppError Unit) :=
  withLock (.streams c) .write do
    match ← read fun d => (d.client c).removeStream stream with
    | .error e => return .error e
    | .ok x => do
        modify (setClient c x)
        return .ok ()

/-- `Client::get_streams`. -/
def getStreams (c : O) : ServerProg O (List String) :=
  withLock (.streams c) .read (read fun d => (d.client c).getStreams)

/-! ### Streams -/

/-- A program of one stream. -/
def onStream {α : Type} (s : O) (p : StreamProg α) : ServerProg O α :=
  p.embed (.stream s) (fun d => d.stream s) (setStream s)

/-- `PeerForward::new`, under a name. -/
def newForward (o : ServerSurroundings O) (s : O) (stream : String) : ServerProg O Unit :=
  modify (setStream s (.new stream o.offer.now))

/-- `PeerForward::set_publish`; the guard of `publish_lock` is not bound and dropped at once. -/
def setPublish (o : ServerSurroundings O) (s : O) : ServerProg O (Except AppError String) := do
  if ← onStream s StreamProg.publishIsSome then
    return .error (.streamAlreadyExists "A connection has already been established")
  else do
    withLock (.publishLock s) .write (return ())
    if ← onStream s StreamProg.publishIsSome then
      return .error (.streamAlreadyExists "A connection has already been established")
    else
      match (do o.offer.calls.newPublishPeer (← MediaInfo.tryFrom (← o.offer.offer))) with
      | .error e => return .error e
      | .ok () =>
          match o.offer.calls.peerComplete with
          | .error e => return .error e
          | .ok _ => do
              match ← onStream s (StreamProg.setPublish o.toSurroundings o.peer) with
              | .error e => return .error e
              | .ok () => return .ok o.peer

/-- `PeerForward::layers`. -/
def layersOf (o : ServerSurroundings O) (s : O) : ServerProg O (Except AppError (List String)) := do
  if ← onStream s (StreamProg.publishIsSvc o.svc) then
    return .ok (← onStream s StreamProg.publishSvcRids)
  else return .error (.throw "not layers")

/-! ### The forwarder of a room -/

/-- The look-up that most operations begin with. -/
def forwardOf (r : O) (stream : String) : ServerProg O (Option O) :=
  withLock (.streamMap r) .read (read fun d => (d.streamMap r)[stream]?)

/-- `Forwarder::stream_create`. -/
def streamCreate (o : ServerSurroundings O) (r s : O) (stream : String) :
    ServerProg O (Except AppError Unit) :=
  withLock (.streamMap r) .write do
    if ← read fun d => (d.streamMap r).contains stream then
      return .error (.internalServerError "stream already exists")
    else do
      newForward o s stream
      modify (setStreamMap r fun m => m.insert stream s)
      return .ok ()

/-- `Forwarder::stream_delete`: the stream goes also if it cannot be closed. -/
def streamDelete (o : ServerSurroundings O) (r : O) (stream : String) :
    ServerProg O (Except AppError Unit) :=
  withLock (.streamMap r) .write do
    match ← read fun d => (d.streamMap r)[stream]? with
    | none => return .error (.internalServerError "stream not exists")
    | some s => do
        let _ ← onStream s (StreamProg.close o.toSurroundings)
        modify (setStreamMap r fun m => m.erase stream)
        return .ok ()

/-- `Forwarder::is_stream_exists`. -/
def isStreamExists (r : O) (stream : String) : ServerProg O Bool :=
  withLock (.streamMap r) .read (read fun d => (d.streamMap r).contains stream)

/-- `Forwarder::layers`. -/
def layers (o : ServerSurroundings O) (r : O) (stream : String) :
    ServerProg O (Except AppError (List String)) := do
  match ← forwardOf r stream with
  | some s => layersOf o s
  | none => return .error (.streamNotFound "stream not exists")

/-- `Forwarder::select_layer`, for the layer that is sent to the loops of the subscriber. -/
def selectLayer (o : ServerSurroundings O) (r : O) (stream session : String) :
    ServerProg O (Except AppError Unit) := do
  match ← forwardOf r stream with
  | some s => onStream s (StreamProg.selectKindRid o.selected session)
  | none => return .error (.streamNotFound "stream not exists")

/-- A stream that is set up without the table is entered into it, if there is none by then. -/
def enterForward (o : ServerSurroundings O) (r s : O) (stream : String) :
    ServerProg O (Except AppError String) :=
  withLock (.streamMap r) .write do
    if ← read fun d => (d.streamMap r).contains stream then do
      let _ ← onStream s (StreamProg.close o.toSurroundings)
      return .error (.streamAlreadyExists "stream already exists")
    else do
      modify (setStreamMap r fun m => m.insert stream s)
      return .ok o.peer

/-- `Forwarder::virtual_publish`; `s` is the stream that it may set up. -/
def virtualPublish (o : ServerSurroundings O) (r s : O) (stream : String) :
    ServerProg O (Except AppError String) := do
  match ← forwardOf r stream with
  | some _ => return o.offer.calls.genVirtualPublish.map fun _ => o.peer
  | none => do
      newForward o s stream
      match o.offer.calls.genVirtualPublish with
      | .error e => return .error e
      | .ok _ => enterForward o r s stream

/-- `Forwarder::publish`; `s` is the stream that it may set up. -/
def publish (o : ServerSurroundings O) (r s : O) (stream : String) :
    ServerProg O (Except AppError String) := do
  match ← forwardOf r stream with
  | some s' => setPublish o s'
  | none => do
      newForward o s stream
      match ← setPublish o s with
      | .error e => return .error e
      | .ok _ => enterForward o r s stream

/-- `Forwarder::publish_is_ok`. -/
def publishIsOk (o : ServerSurroundings O) (r : O) (stream : String) :
    ServerProg O (Except AppError Bool) := do
  match ← forwardOf r stream with
  | some s => return .ok (← onStream s (StreamProg.publishIsOk o.offer))
  | none => return .error (.streamNotFound "stream not exists")

/-- `Forwarder::subscribe`. -/
def subscribe (o : ServerSurroundings O) (r : O) (stream : String) :
    ServerProg O (Except AppError (String × String)) := do
  match ← forwardOf r stream with
  | some s => onStream s (StreamProg.addSubscribe o.offer o.peer)
  | none => return .error (.streamNotFound "stream not exists")

/-- The white space of `str::trim`. -/
def isWhitespace (c : Char) : Bool :=
  (0x9 ≤ c.toNat && c.toNat ≤ 0xd) || (0x2000 ≤ c.toNat && c.toNat ≤ 0x200a) ||
    c.toNat ∈ [0x20, 0x85, 0xa0, 0x1680, 0x2028, 0x2029, 0x202f, 0x205f, 0x3000]

/-- `Forwarder::forward_infos`: names without a text are left out, and without any name all streams
are asked for. -/
def forwardInfos (o : ServerSurroundings O) (r : O) (streams : List String) :
    ServerProg O (List ForwardInfo) :=
  withLock (.streamMap r) .read do
    let streams := streams.filter fun stream => ! stream.toList.all isWhitespace
    let all ← read fun d => o.streams (d.streamMap r)
    collect (fun entry => onStream entry.2 (StreamProg.info o.toSurroundings))
      (all.filter fun entry => streams.isEmpty || streams.contains entry.1)

/-- The time of the publisher's absence has run out. -/
def expired (o : ServerSurroundings O) (timeout : ℤ) (info : ForwardInfo) : Bool :=
  0 < info.publishLeaveTime ∧ timeout < o.offer.now - info.publishLeaveTime

/-- The turn of the second loop of `publish_check_tick`. -/
def reap (o : ServerSurroundings O) (timeout : ℤ) (r : O) (stream : String) :
    ServerProg O Unit := do
  match ← read fun d => (d.streamMap r)[stream]? with
  | none => return ()
  | some s => do
      if expired o timeout (← onStream s (StreamProg.info o.toSurroundings)) then do
        let _ ← onStream s (StreamProg.close o.toSurroundings)
        modify (setStreamMap r fun m => m.erase stream)
      else return ()

/-- A round of `publish_check_tick`, with what it is told at each stream, twice. -/
def publishCheckTick (order : ExtTreeMap String O → List (String × O))
    (o o' : String → ServerSurroundings O) (timeout : ℤ) (r : O) : ServerProg O Unit := do
  let removeStreams ← withLock (.streamMap r) .read do
    let all ← read fun d => order (d.streamMap r)
    let infos ← collect (fun entry => do
      let info ← onStream entry.2 (StreamProg.info (o entry.1).toSurroundings)
      return (entry.1, expired (o entry.1) timeout info)) all
    return (infos.filter (·.2)).map (·.1)
  if removeStreams.isEmpty then return ()
  else
    withLock (.streamMap r) .write do
      let _ ← collect (fun stream => reap (o' stream) timeout r stream) removeStreams
      return ()

/-! ### Rooms -/

/-- The id under which `Room::join` admits a user. -/
def seat (settings : RoomSettings) (clients : ExtTreeMap Int32 O) (masterKey : String)
    (token : UInt32) : JoinResult :=
  if settings.needsHost ∧ masterKey ≠ "" then
    if settings.masterKeyHash ≠ hashFromString fnv masterKey ∨ 0 ∈ clients then .rejected
    else .joined 0 token
  else if 2 ^ 31 ≤ settings.capacity.toNat then .panic
  else
    let lo := if settings.needsHost then 1 else 0
    match ((List.range' lo (settings.capacity.toNat - lo)).map Int32.ofNat).find? fun i =>
        decide (i ∉ clients) with
    | some userId => .joined userId token
    | none => .rejected

/-- `Room::join`, where `c` is the client that it may set up. -/
def join (r c : O) (userName masterKey : String) (token : UInt32) : ServerProg O JoinResult :=
  withLock (.clientMap r) .write do
    match ← read fun d => seat fnv (d.settings r) (d.clientMap r) masterKey token with
    | .panic => return .panic
    | .rejected => return .rejected
    | .joined userId token => do
        modify (setClient c (.new userId token userName))
        modify (setClientMap r fun m => m.insert userId c)
        withLock (.groupManager r) .write (initUser r userId.toUInt32)
        return .joined userId token

/-- The turn of the loop of `Room::user_delete` over the streams of the client. -/
def deleteStream (o : ServerSurroundings O) (r c : O) (stream : String) :
    ServerProg O (Except AppError Unit) := do
  match ← withLock (.forwarder r) .write (streamDelete o r stream) with
  | .error e => return .error e
  | .ok () => removeStream c stream

/-- `Room::user_delete`. -/
def userDelete (o : ServerSurroundings O) (r : O) (userId : Int32) (token : UInt32)
    (checkToken : Bool) : ServerProg O (Except AppError Bool) := do
  let client ← withLock (.clientMap r) .read (read fun d => (d.clientMap r)[userId]?)
  withLock (.groupManager r) .write (endUser r userId.toUInt32)
  match client with
  | none => return .ok false
  | some c => do
      if ← read fun d => checkToken && ! (d.client c).checkToken token then return .ok false
      else do
        let streams ← getStreams c
        match ← each (deleteStream o r c) streams with
        | .error e => return .error e
        | .ok () => do
            withLock (.clientMap r) .write (modify (setClientMap r fun m => m.erase userId))
            return .ok true

/-- `Room::all_user_delete`. -/
def allUserDelete (o : ServerSurroundings O) (r : O) : ServerProg O (Except AppError Unit) := do
  let userIds ← withLock (.clientMap r) .read (read fun d => o.users (d.clientMap r))
  each (fun userId => do
    match ← userDelete o r userId 0 false with
    | .error e => return .error e
    | .ok _ => return .ok ()) userIds

/-! ### The handlers of the rooms -/

/-- `RoomSettings` as `Room::info` shows them. -/
def roomInfo (x : RoomSettings) : RoomInfoJson := ⟨x.id, x.name, x.capacity, x.description⟩

/-- `Room::auth_shared_key`. -/
def authSharedKey (x : RoomSettings) (key : String) : Bool :=
  x.sharedKeyHash == hashFromString fnv key

/-- `room`. -/
def room : ServerProg O (List RoomInfoJson) :=
  withLock .rooms .write
    (read fun d => (d.rooms.values.filter fun r => (d.settings r).isPublic).map fun r =>
      roomInfo (d.settings r))

/-- What the handlers do that keep the table of the rooms, with the room and its settings. -/
def withRoom {α : Type} (roomId : Int32) (missing : α)
    (handler : O → RoomSettings → ServerProg O α) : ServerProg O α :=
  withLock .rooms .write do
    match ← read fun d => d.rooms[roomId]?.map fun r => (r, d.settings r) with
    | none => return missing
    | some (r, x) => handler r x

/-- `room_specific`. -/
def roomSpecific (roomId : Int32) (sharedKey : String) :
    ServerProg O (Except Response (List RoomInfoJson)) :=
  withRoom roomId (.error ⟨BodyUtil.roomIdNotfound, .notAcceptable⟩) fun _ x =>
    if authSharedKey fnv x sharedKey then return .ok [roomInfo x]
    else return .error ⟨BodyUtil.inviledPassword, .notAcceptable⟩

/-- `create_room`, where `r` is the new room and `roomId` the random number that is drawn. -/
def createRoom (request : CreateRequest) (roomId : Int32) (r : O) : ServerProg O RoomInfoJson :=
  withLock .rooms .write do
    let x : RoomSettings := (request.room fnv 0 roomId).settings
    modify fun d => { d with
      rooms := d.rooms.insert roomId r
      settings := Function.update d.settings r x
      clientMap := Function.update d.clientMap r ∅
      inner := Function.update d.inner r ∅
      usersGroup := Function.update d.usersGroup r ∅
      streamMap := Function.update d.streamMap r ∅ }
    return roomInfo x

/-- `room_join`. -/
def roomJoin (roomId : Int32) (request : JoinRequest) (token : UInt32) (c : O) :
    ServerProg O (Except Response JoinResult) :=
  withRoom roomId (.error ⟨BodyUtil.roomIdNotfound, .notAcceptable⟩) fun r x => do
    if authSharedKey fnv x request.sharedKey then
      match ← join fnv r c request.name request.masterKey token with
      | .rejected => return .error ⟨BodyUtil.rejected, .notAcceptable⟩
      | .panic => return .ok .panic
      | .joined userId token => return .ok (.joined userId token)
    else return .error ⟨BodyUtil.inviledPassword, .notAcceptable⟩

/-- `room_exit`. -/
def roomExit (o : ServerSurroundings O) (roomId : Int32) (request : ExitRequest) :
    ServerProg O (Except AppError Response) :=
  withRoom roomId (.ok ⟨BodyUtil.roomIdNotfound, .notAcceptable⟩) fun r x => do
    if authSharedKey fnv x request.sharedKey then
      match ← userDelete o r request.userId request.token true with
      | .error e => return .error e
      | .ok true => return .ok ⟨BodyUtil.succeed, .ok⟩
      | .ok false => return .ok ⟨BodyUtil.rejected, .notAcceptable⟩
    else return .ok ⟨BodyUtil.inviledPassword, .notAcceptable⟩

/-- `delete_room`; a room that is not there is answered as a wrong key. -/
def deleteRoom (o : ServerSurroundings O) (request : DeleteRequest) :
    ServerProg O (Except AppError Response) :=
  withRoom request.id (.ok ⟨BodyUtil.inviledPassword, .notAcceptable⟩) fun r x => do
    if x.masterKeyHash == hashFromString fnv request.masterKey then
      match ← allUserDelete o r with
      | .error e => return .error e
      | .ok () => do
          modify fun d => { d with rooms := d.rooms.erase request.id }
          return .ok ⟨BodyUtil.succeed, .ok⟩
    else return .ok ⟨BodyUtil.rejected, .notAcceptable⟩

/-! ### The handlers of the streams -/

/-- `auth_user`. -/
def authUser (roomId : Int32) (sharedKey : String) (userId : Int32) (token : UInt32) :
    ServerProg O (Except Response (O × O)) :=
  withRoom roomId (.error ⟨BodyUtil.roomIdNotfound, .notAcceptable⟩) fun r x => do
    if authSharedKey fnv x sharedKey then
      match ← withLock (.clientMap r) .read (read fun d => (d.clientMap r)[userId]?) with
      | none => return .error ⟨BodyUtil.unknownError, .notAcceptable⟩
      | some c => do
          if ← read fun d => (d.client c).checkToken token then return .ok (r, c)
          else return .error ⟨BodyUtil.inviledToken, .notAcceptable⟩
    else return .error ⟨BodyUtil.inviledPassword, .notAcceptable⟩

/-- What the handlers do that begin with `auth_user`. -/
def withUser {α : Type} (roomId : Int32) (request : StreamRequest) (refused : Response → α)
    (handler : O → O → ServerProg O α) : ServerProg O α := do
  match ← authUser fnv roomId request.sharedKey request.userId request.token with
  | .error response => return refused response
  | .ok (r, c) => handler r c

/-- `create`: the failure of the forwarder is not answered. -/
def create (o : ServerSurroundings O) (roomId : Int32) (request : StreamRequest) (s : O) :
    ServerProg O (Except AppError Response) :=
  withUser fnv roomId request .ok fun r c =>
    withLock (.forwarder r) .write do
      match ← streamCreate o r s request.stream with
      | .error _ => return .ok ⟨"", .ok⟩
      | .ok () => do
          match ← addStream c request.stream with
          | .error e => return .error e
          | .ok () => return .ok ⟨"", .ok⟩

/-- `destroy`: the failure of the forwarder is not answered. -/
def destroy (o : ServerSurroundings O) (roomId : Int32) (request : StreamRequest) :
    ServerProg O (Except AppError Response) :=
  withUser fnv roomId request .ok fun r c =>
    withLock (.forwarder r) .write do
      match ← streamDelete o r request.stream with
      | .error _ => return .ok ⟨"", .ok⟩
      | .ok () => do
          match ← removeStream c request.stream with
          | .error e => return .error e
          | .ok () => return .ok ⟨"", .ok⟩

/-- `get_layer`. -/
def getLayer (o : ServerSurroundings O) (roomId : Int32) (request : StreamRequest) :
    ServerProg O (Except Response (Except AppError (List String))) :=
  withUser fnv roomId request .error fun r _ =>
    withLock (.forwarder r) .write do
      return .ok (← layers o r request.stream)

/-- `select_layer` and `un_select_layer`, which differ in the layer alone. -/
def chooseLayer (o : ServerSurroundings O) (roomId : Int32) (request : StreamRequest)
    (session : String) : ServerProg O (Except AppError Response) :=
  withUser fnv roomId request .ok fun r _ =>
    withLock (.forwarder r) .write do
      match ← selectLayer o r request.stream session with
      | .error e => return .error e
      | .ok () => return .ok ⟨"", .ok⟩

/-- `infos`; the token is checked once more, which no request notices. -/
def infos (o : ServerSurroundings O) (roomId : Int32) (request : StreamRequest) :
    ServerProg O (Except Response (List ForwardInfo)) :=
  withUser fnv roomId request .error fun r c => do
    if ← read fun d => (d.client c).checkToken request.token then do
      let streams ← getStreams c
      return .ok (← withLock (.forwarder r) .write (forwardInfos o r streams))
    else return .error ⟨BodyUtil.inviledToken, .notAcceptable⟩

/-- The end of the look-up of an upgraded request: another lock is taken, then the table of the
rooms is given up. -/
def handOver {α : Type} (l : O → ServerLock O) (roomId : Int32) (panic : α)
    (upgraded : O → ServerProg O α) : ServerProg O α := do
  lock .rooms .write
  match ← read fun d => d.rooms[roomId]? with
  | none => do
      unlock .rooms
      return panic
  | some r => do
      lock (l r) .write
      unlock .rooms
      let a ← upgraded r
      unlock (l r)
      return a

/-- `whip`: what is done before the connection is served. -/
def whip (o : ServerSurroundings O) (roomId : Int32) (request : StreamRequest) (s : O) :
    ServerProg O ServerReply :=
  withUser fnv roomId request (fun response => .response (.ok response)) fun _ c => do
    let published ← handOver .forwarder roomId none fun r => do
      return (← publish o r s request.stream).toOption
    match published with
    | none => return .panic
    | some _ => do
        let _ ← addStream c request.stream
        return .ended

/-- The wait of `whep` for the publisher, as the number of turns that it takes. -/
def awaitPublish (o : ServerSurroundings O) (r : O) (stream : String) :
    ℕ → ServerProg O (Except AppError Unit)
  | 0 => return .ok ()
  | turns + 1 => do
      match ← publishIsOk o r stream with
      | .error e => return .error e
      | .ok true => return .ok ()
      | .ok false => awaitPublish o r stream turns

/-- The virtual publisher of `whep`; `s` and `s'` are the streams that may be set up. -/
def virtualHost (o o' : ServerSurroundings O) (r s s' : O) (stream : String) :
    ServerProg O (Except AppError Unit) :=
  withLock (.forwarder r) .write do
    if ← isStreamExists r stream then return .ok ()
    else do
      match ← virtualPublish o r s stream with
      | .error e => return .error e
      | .ok _ => do
          match ← publish o' r s' stream with
          | .error e => return .error e
          | .ok _ => return o.offer.calls.setRemoteDescription

/-- `whep`: what is done before the connection is served, with what it is told at the virtual
publisher's two ends and at the subscriber. -/
def whep (o o' o'' : ServerSurroundings O) (roomId : Int32) (request : StreamRequest) (s s' : O)
    (turns : ℕ) : ServerProg O ServerReply :=
  withUser fnv roomId request (fun response => .response (.ok response)) fun r _ => do
    match ← virtualHost o o' r s s' request.stream with
    | .error e => return .response (.error e)
    | .ok () => do
        let subscribed ← handOver .forwarder roomId none fun r => do
          match ← awaitPublish o'' r request.stream turns with
          | .error _ => return none
          | .ok () => return (← subscribe o'' r request.stream).toOption
        match subscribed with
        | none => return .panic
        | some _ => return .ended

/-- `stream` of `src/route/ws/mod.rs`: what is done before the connection is served; `g` is the
group that it may set up. -/
def connect (roomId : Int32) (request : StreamRequest) (g : O) (receiver : ℕ) :
    ServerProg O ServerReply :=
  withUser fnv roomId request (fun response => .response (.ok response)) fun _ _ =>
    let id := request.userId.toUInt32
    handOver .groupManager roomId .panic fun r => do
      initUser r id
      match ← joinOrCreate r g id request.stream with
      | .error _ => return .panic
      | .ok _ => do
          match ← getUserReceiver r request.stream id receiver with
          | .error _ => return .ended
          | .ok none => return .panic
          | .ok (some _) => do
              let _ ← getUserSenderMap r request.stream
              return .ended

/-- The end of a WebSocket connection, which keeps the table of the rooms. -/
def disconnect (roomId : Int32) (stream : String) (id : UInt32) : ServerProg O ServerReply :=
  withRoom roomId .panic fun r _ => do
    let _ ← withLock (.groupManager r) .write (leaveGroup r stream id)
    return .ended

/-- The look-up of the addressee of a message on a WebSocket, which is sent under the lock. -/
def unicast (g : O) (user : UInt32) (data : Bytes) : ServerProg O Unit :=
  withLock (.group g .userSenders) .read do
    modify (setGroup g fun x =>
      match x.userSenders[user]? with
      | some k => x.mapChannel k (·.sendIgnore data)
      | none => x)

/-- The locks of the loop of a subscriber at a change of the tracks or of its layer. -/
def bindTrack (b s : O) : ServerProg O (List PublishTrackRemote) :=
  withLock (.trackBinding b) .write (onStream s StreamProg.tracks)

/-- The locks of `sender_forward_rtcp` at a batch of packets, of which `messages` are feedback. -/
def forwardFeedback (b s : O) (messages : ℕ) : ServerProg O Unit :=
  withLock (.trackBinding b) .read do
    let _ ← collect (fun _ => onStream s StreamProg.tracks) (List.range messages)
    return ()

end ServerProg

/-! ### The tasks -/

/-- What happens on a stream beside the requests: the callbacks of its connections, and the turns of
the loops on its data channels. -/
inductive StreamTask where
  | call (c : StreamCall)
  | publishTrackUp (track : PublishTrackRemote)
  | dataChannel (id : UInt32) (sender : ℕ)
  | addressee (user : UInt32)

/-- The program of such a task. -/
def StreamTask.prog : StreamTask → StreamProg StreamReply
  | .call c => c.prog
  | .publishTrackUp track => return .done (.ok (← StreamProg.publishTrackUp track))
  | .dataChannel id sender => return .done (.ok (← StreamProg.dataChannel id sender))
  | .addressee user => do
      let _ ← StreamProg.addressee user
      return .done (.ok ())

/-- The tasks of the server. -/
inductive ServerCall (O : Type) where
  | room
  | roomSpecific (roomId : Int32) (sharedKey : String)
  | createRoom (request : CreateRequest) (roomId : Int32) (r : O)
  | roomJoin (roomId : Int32) (request : JoinRequest) (token : UInt32) (c : O)
  | roomExit (o : ServerSurroundings O) (roomId : Int32) (request : ExitRequest)
  | deleteRoom (o : ServerSurroundings O) (request : DeleteRequest)
  | create (o : ServerSurroundings O) (roomId : Int32) (request : StreamRequest) (s : O)
  | destroy (o : ServerSurroundings O) (roomId : Int32) (request : StreamRequest)
  | getLayer (o : ServerSurroundings O) (roomId : Int32) (request : StreamRequest)
  | chooseLayer (o : ServerSurroundings O) (roomId : Int32) (request : StreamRequest)
      (session : String)
  | infos (o : ServerSurroundings O) (roomId : Int32) (request : StreamRequest)
  | whip (o : ServerSurroundings O) (roomId : Int32) (request : StreamRequest) (s : O)
  | whep (o o' o'' : ServerSurroundings O) (roomId : Int32) (request : StreamRequest) (s s' : O)
      (turns : ℕ)
  | connect (roomId : Int32) (request : StreamRequest) (g : O) (receiver : ℕ)
  | disconnect (roomId : Int32) (stream : String) (id : UInt32)
  | unicast (g : O) (user : UInt32) (data : Bytes)
  | publishCheckTick (order : ExtTreeMap String O → List (String × O))
      (o o' : String → ServerSurroundings O) (timeout : ℤ) (r : O)
  | bindTrack (b s : O)
  | forwardFeedback (b s : O) (messages : ℕ)
  | onStream (s : O) (t : StreamTask)

/-- The program of a task. -/
def ServerCall.prog {O : Type} [DecidableEq O] (fnv : List UInt8 → UInt32) :
    ServerCall O → ServerProg O ServerReply
  | .room => return .rooms (.ok (← ServerProg.room))
  | .roomSpecific roomId sharedKey =>
      return .rooms (← ServerProg.roomSpecific fnv roomId sharedKey)
  | .createRoom request roomId r =>
      return .rooms (.ok [← ServerProg.createRoom fnv request roomId r])
  | .roomJoin roomId request token c =>
      return .joined (← ServerProg.roomJoin fnv roomId request token c)
  | .roomExit o roomId request => return .response (← ServerProg.roomExit fnv o roomId request)
  | .deleteRoom o request => return .response (← ServerProg.deleteRoom fnv o request)
  | .create o roomId request s => return .response (← ServerProg.create fnv o roomId request s)
  | .destroy o roomId request => return .response (← ServerProg.destroy fnv o roomId request)
  | .getLayer o roomId request => return .layers (← ServerProg.getLayer fnv o roomId request)
  | .chooseLayer o roomId request session =>
      return .response (← ServerProg.chooseLayer fnv o roomId request session)
  | .infos o roomId request => return .infos (← ServerProg.infos fnv o roomId request)
  | .whip o roomId request s => ServerProg.whip fnv o roomId request s
  | .whep o o' o'' roomId request s s' turns =>
      ServerProg.whep fnv o o' o'' roomId request s s' turns
  | .connect roomId request g receiver => ServerProg.connect fnv roomId request g receiver
  | .disconnect roomId stream id => ServerProg.disconnect roomId stream id
  | .unicast g user data => do
      ServerProg.unicast g user data
      return .ended
  | .publishCheckTick order o o' timeout r => do
      ServerProg.publishCheckTick order o o' timeout r
      return .ended
  | .bindTrack b s => do
      let _ ← ServerProg.bindTrack b s
      return .ended
  | .forwardFeedback b s messages => do
      ServerProg.forwardFeedback b s messages
      return .ended
  | .onStream s t => return .stream (← ServerProg.onStream s t.prog)

/-- The tasks of a server, with its locks and its data. -/
abbrev ServerSystem (O : Type) := LockSystem (ServerLock O) (ServerData O) ServerReply

/-- The machine of a server without rooms, on which the tasks run concurrently. -/
def serverMachine (O : Type) [Fintype O] [DecidableEq O] (fnv : List UInt8 → UInt32) :
    Machine (ServerSystem O) (LockAction (ServerCall O)) :=
  lockMachine (ServerCall.prog fnv) fun d => d.rooms = ∅

end SfuServer
