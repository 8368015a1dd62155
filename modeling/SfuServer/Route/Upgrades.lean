import SfuServer.Room.Deletion
import SfuServer.Ws.Members

/-!
The upgrade callbacks of `whip`, `whep` and `ws/connect`, of `src/route/rtc/whip.rs`,
`src/route/rtc/whep.rs` and `src/route/ws/mod.rs`, next to everything else that happens on the
server: rooms are created and deleted, clients come and go, publishers leave.

A callback runs at some time after its request was accepted by `auth_user`.  It looks its room
up again, and at the end of a WebSocket connection once more; it unwraps the lookups, the outcome
of the publish or subscription, and what it parses of the client's texts.  A failed unwrap ends
the task, and nothing of the rest of the callback is run.

`ROOMS` is locked during a deletion, but a callback that has looked its room up goes on.
`isOffer` and `isSignaling` stand for the parsers of the packages `webrtc` and `serde_json`: the
text is a session description, or the JSON of a `SignalingJson`.

* `UpgradeSystem`, `UpgradeAction`, `upgradeMachine`: the rooms and the callbacks, and what can
  happen;
* `exec_deleteRoom`, `exec_roomExit`: the handlers that hold `ROOMS`, in one piece;
* `Upgrade.Fine`, `Served`: no callback has panicked, and where one has ended that had joined a
  group, it has left it;
* `Meets`: what a step of a callback finds where its unwraps go well;
* `served_iff`: all states of a run are `Served` exactly if all of its steps meet this.
-/

open Std (ExtTreeMap)

namespace SfuServer

/-- The routes whose connections are upgraded. -/
inductive UpgradeRoute where
  | whip
  | whep
  | connect
  deriving DecidableEq

/-- Where an upgrade is: accepted by `auth_user`; with the callback begun; with the room looked
up; after the loop of `whep`; after the publish of `whip`; after the subscription of `whep`, or
with the stream in the list of the client; in the tasks that exchange candidates, or in those that
relay messages; after these; with the room looked up again; at its end; or ended by a failed
unwrap. -/
inductive UpgradeStage where
  | accepted
  | upgraded
  | entered (room : ℕ)
  | polled (room : ℕ)
  | published (room peer : ℕ)
  | answering (room peer : ℕ)
  | signaling (room peer : ℕ)
  | relaying (room : ℕ)
  | closing
  | leaving (room : ℕ)
  | ended
  | panicked
  deriving DecidableEq

/-- A connection that is upgraded, with what its request says and the room in which it was
accepted.  `joined` and `left` are not in the source: the callback has joined the group of its
stream, and left it. -/
structure Upgrade where
  route : UpgradeRoute
  roomId : Int32
  userId : Int32
  token : UInt32
  stream : String
  offer : String
  authed : ℕ
  stage : UpgradeStage
  joined : Bool
  left : Bool

/-- The handler that deletes users of a room, and at the end the entry of the room in `ROOMS`, if
this is `delete_room`. -/
structure RoomDeletion where
  room : ℕ
  roomId : Option Int32
  rest : Deletion

/-- The rooms, of which `ROOMS` has the handles, the handler that holds `ROOMS` over more than one
step, and the upgrades.  A room stays in `objects` when it has been deleted, for those who have
looked it up before. -/
structure UpgradeSystem where
  rooms : ExtTreeMap Int32 ℕ
  objects : List Room
  deleting : Option RoomDeletion
  upgrades : List Upgrade

/-- What others can do to a room that they have looked up before: the handlers of `create` and
`destroy` enter or delete a stream, and then change the list of the client; the callback of a
publisher that leaves and the reaper do their work; the first part of `whep` sets up a publisher
of its own; and a connection comes up or closes. -/
inductive RoomChange where
  | streamCreate (stream : String)
  | streamDelete (stream : String)
  | addStream (userId : Int32) (token : UInt32) (stream : String)
  | removeStream (userId : Int32) (token : UInt32) (stream : String)
  | removePublish (forward peer : ℕ) (now : ℤ)
  | publishCheckTick (scan reap : String → ℤ)
  | dummyPublish (stream : String) (negotiated : Except AppError Unit)
  | connection (peer : ℕ) (up : Bool)

/-- What can happen: a room is created, a user joins it or begins to exit it, or its deletion
begins; a deletion goes on; others change a room; a request for an upgrade is accepted, or an
upgrade takes its next step, where what is left to other code succeeds or not. -/
inductive UpgradeAction where
  | createRoom (id : Int32) (name : String) (needsHost isPublic : Bool) (capacity : UInt32)
      (sharedKey masterKey description : String) (timeout : ℕ)
  | roomJoin (id : Int32) (request : JoinRequest) (token : UInt32)
  | roomExit (id : Int32) (request : ExitRequest)
  | deleteRoom (request : DeleteRequest) (keys : List Int32)
  | proceed
  | change (room : ℕ) (c : RoomChange)
  | accept (route : UpgradeRoute) (id : Int32) (request : StreamRequest) (offer : String)
  | upgrade (k : ℕ)
  | lookup (k : ℕ)
  | publish (k : ℕ) (negotiated : Except AppError Unit)
  | list (k : ℕ)
  | poll (k : ℕ)
  | subscribe (k : ℕ) (negotiated : Except AppError Unit)
  | answer (k : ℕ) (sent : Bool)
  | text (k : ℕ) (message : String)
  | join (k : ℕ)
  | hangup (k : ℕ)
  | relook (k : ℕ)
  | leave (k : ℕ)

namespace Forwarder

/-- `Forwarder::subscribe`: `negotiated` is the outcome of setting up the connection and of the
negotiation with it. -/
def subscribe (f : Forwarder) (stream : String) (negotiated : Except AppError Unit) :
    Except AppError ℕ × Forwarder :=
  match f.streamMap[stream]? with
  | none => (.error (.streamNotFound "stream not exists"), f)
  | some h =>
      if f.slotIsOk h then
        match negotiated with
        | .error e => (.error e, f)
        | .ok () => (.ok f.peers.length, f.newPeer)
      else (.error (.throw "publish is not ok"), f)

/-- The first part of `whep`: on a stream that is not in the table a forward is entered by
`virtual_publish`, and a publisher is set up on it. -/
def dummyPublish (f : Forwarder) (stream : String) (negotiated : Except AppError Unit) :
    Forwarder :=
  match f.streamCreate stream with
  | .error _ => f
  | .ok f => (f.publish stream negotiated).2

/-- A connection comes up or closes. -/
def setConnection (f : Forwarder) (peer : ℕ) (up : Bool) : Forwarder :=
  { f with peers := f.peers.set peer (if up then .connected else .closed) }

/-- What others do to the forwarder of a room. -/
def change (f : Forwarder) : RoomChange → Forwarder
  | .streamCreate stream => (f.streamCreate stream).toOption.getD f
  | .streamDelete stream => (f.streamDelete stream).toOption.getD f
  | .removePublish forward peer now => (f.removePublish forward peer now).toOption.getD f
  | .publishCheckTick scan reap => f.publishCheckTick scan reap
  | .dummyPublish stream negotiated => f.dummyPublish stream negotiated
  | .connection peer up => f.setConnection peer up
  | .addStream .. | .removeStream .. => f

end Forwarder

namespace Room

/-- A change of the list of the client that a request was accepted for, which is the one of the
room as long as it has the token. -/
def updateClient (room : Room) (userId : Int32) (token : UInt32)
    (f : Client → Except AppError Client) : Room :=
  match room.clientMap[userId]? with
  | none => room
  | some client =>
      if client.checkToken token then
        match f client with
        | .error _ => room
        | .ok client => room.setClient userId client
      else room

/-- What others do to a room. -/
def change (room : Room) : RoomChange → Room
  | .addStream userId token stream => room.updateClient userId token (·.addStream stream)
  | .removeStream userId token stream => room.updateClient userId token (·.removeStream stream)
  | c => { room with forwarder := room.forwarder.change c }

end Room

namespace UpgradeSystem

variable (fnv : List UInt8 → UInt32) (isOffer isSignaling : String → Bool)

/-- A change of a room. -/
def modifyRoom (s : UpgradeSystem) (o : ℕ) (f : Room → Room) : UpgradeSystem :=
  { s with objects := s.objects.modify o f }

/-- A room after a turn of a deletion. -/
def setRoom (s : UpgradeSystem) (o : ℕ) (room : Room) : UpgradeSystem :=
  { s with objects := s.objects.set o room }

/-- A change of the forwarder of a room. -/
def setForwarder (s : UpgradeSystem) (o : ℕ) (f : Forwarder) : UpgradeSystem :=
  s.modifyRoom o fun room => { room with forwarder := f }

/-- A change of the groups of a room. -/
def setGroups (s : UpgradeSystem) (o : ℕ) (m : GroupsManager) : UpgradeSystem :=
  s.modifyRoom o fun room => { room with groupManager := m }

/-- A change of an upgrade. -/
def setUpgrade (s : UpgradeSystem) (k : ℕ) (u : Upgrade) : UpgradeSystem :=
  { s with upgrades := s.upgrades.set k u }

/-- The next stage of an upgrade. -/
def goto (s : UpgradeSystem) (k : ℕ) (u : Upgrade) (stage : UpgradeStage) : UpgradeSystem :=
  s.setUpgrade k { u with stage := stage }

/-- `create_room`. -/
def createRoomStep (s : UpgradeSystem) (id : Int32) (room : Room) : Option UpgradeSystem :=
  if s.deleting = none then
    some { s with rooms := s.rooms.insert id s.objects.length, objects := s.objects ++ [room] }
  else none

/-- `room_join`. -/
def roomJoinStep (s : UpgradeSystem) (id : Int32) (request : JoinRequest) (token : UInt32) :
    Option UpgradeSystem :=
  if s.deleting = none then
    s.rooms[id]?.map fun o => s.modifyRoom o (·.serve fnv (.join request token))
  else none

/-- `room_exit`, with the right shared key: the deletion of the user is begun. -/
def roomExitStep (s : UpgradeSystem) (id : Int32) (request : ExitRequest) :
    Option UpgradeSystem :=
  if s.deleting = none then
    s.rooms[id]?.bind fun o =>
      s.objects[o]?.bind fun room =>
        if room.authSharedKey fnv request.sharedKey = true then
          some { s with
            deleting := some ⟨o, none, ⟨none, [⟨request.userId, request.token, true⟩]⟩⟩ }
        else none
  else none

/-- `delete_room`, with the right master key: the deletion of all users is begun. -/
def deleteRoomStep (s : UpgradeSystem) (request : DeleteRequest) (keys : List Int32) :
    Option UpgradeSystem :=
  if s.deleting = none then
    s.rooms[request.id]?.bind fun o =>
      s.objects[o]?.bind fun room =>
        if room.authMasterKey fnv request.masterKey = true ∧ keys.Perm room.clientMap.keys then
          some { s with
            deleting := some ⟨o, some request.id, ⟨none, keys.map (⟨·, 0, false⟩)⟩⟩ }
        else none
  else none

/-- `ROOMS` after a deletion: `delete_room` takes the room out if nothing has failed. -/
def roomsAfter (s : UpgradeSystem) (roomId : Option Int32) :
    Except AppError Unit → ExtTreeMap Int32 ℕ
  | .ok () => roomId.elim s.rooms s.rooms.erase
  | .error _ => s.rooms

/-- A deletion goes on, or ends. -/
def proceedStep (s : UpgradeSystem) : Option UpgradeSystem :=
  s.deleting.bind fun d =>
    s.objects[d.room]?.map fun room =>
      match d.rest.turn room with
      | none => { s with deleting := none, rooms := s.roomsAfter d.roomId (.ok ()) }
      | some (.error e, room) =>
          { s.setRoom d.room room with deleting := none, rooms := s.roomsAfter d.roomId (.error e) }
      | some (.ok rest, room) =>
          { s.setRoom d.room room with deleting := some { d with rest := rest } }

/-- A request for an upgrade passes `auth_user`. -/
def acceptStep (s : UpgradeSystem) (route : UpgradeRoute) (id : Int32) (request : StreamRequest)
    (offer : String) : Option UpgradeSystem :=
  if s.deleting = none then
    s.rooms[id]?.bind fun o =>
      s.objects[o]?.bind fun room =>
        match authUser fnv room request.sharedKey request.userId request.token with
        | .error _ => none
        | .ok _ =>
            some { s with upgrades := s.upgrades ++ [⟨route, id, request.userId, request.token,
              request.stream, offer, o, .accepted, false, false⟩] }
  else none

/-- The callback begins: `whip` and `whep` unwrap the offer. -/
def upgradeStep (s : UpgradeSystem) (k : ℕ) : Option UpgradeSystem :=
  s.upgrades[k]?.bind fun u =>
    if u.stage = .accepted then some <|
      if u.route = .connect ∨ isOffer u.offer = true then s.goto k u .upgraded
      else s.goto k u .panicked
    else none

/-- The room is looked up in `ROOMS`; that it is not there is logged, and unwrapped. -/
def lookupStep (s : UpgradeSystem) (k : ℕ) : Option UpgradeSystem :=
  s.upgrades[k]?.bind fun u =>
    if s.deleting = none ∧ u.stage = .upgraded then some <|
      match s.rooms[u.roomId]? with
      | none => s.goto k u .panicked
      | some o => s.goto k u (.entered o)
    else none

/-- `whip` publishes, and unwraps the outcome; it holds the forwarder for writing meanwhile, so
that nobody else fills a slot or enters a stream. -/
def publishStep (s : UpgradeSystem) (k : ℕ) (negotiated : Except AppError Unit) :
    Option UpgradeSystem :=
  s.upgrades[k]?.bind fun u =>
    match u.route, u.stage with
    | .whip, .entered o =>
        s.objects[o]?.map fun room =>
          match room.forwarder.publish u.stream negotiated with
          | (.error _, f) => (s.setForwarder o f).goto k u .panicked
          | (.ok peer, f) => (s.setForwarder o f).goto k u (.published o peer)
    | _, _ => none

/-- `whip` adds the stream to the list of its client, and ignores the outcome. -/
def listStep (s : UpgradeSystem) (k : ℕ) : Option UpgradeSystem :=
  s.upgrades[k]?.bind fun u =>
    match u.route, u.stage with
    | .whip, .published o peer =>
        some ((s.modifyRoom u.authed (·.change (.addStream u.userId u.token u.stream))).goto k u
          (.answering o peer))
    | _, _ => none

/-- One turn of the loop of `whep`, which unwraps the error on a stream that is not there. -/
def pollStep (s : UpgradeSystem) (k : ℕ) : Option UpgradeSystem :=
  s.upgrades[k]?.bind fun u =>
    match u.route, u.stage with
    | .whep, .entered o =>
        s.objects[o]?.map fun room =>
          match room.forwarder.publishIsOk u.stream with
          | .error _ => s.goto k u .panicked
          | .ok true => s.goto k u (.polled o)
          | .ok false => s
    | _, _ => none

/-- `whep` subscribes, and unwraps the outcome. -/
def subscribeStep (s : UpgradeSystem) (k : ℕ) (negotiated : Except AppError Unit) :
    Option UpgradeSystem :=
  s.upgrades[k]?.bind fun u =>
    match u.route, u.stage with
    | .whep, .polled o =>
        s.objects[o]?.map fun room =>
          match room.forwarder.subscribe u.stream negotiated with
          | (.error _, f) => (s.setForwarder o f).goto k u .panicked
          | (.ok peer, f) => (s.setForwarder o f).goto k u (.answering o peer)
    | _, _ => none

/-- The answer is sent; where it cannot be, the callback ends. -/
def answerStep (s : UpgradeSystem) (k : ℕ) (sent : Bool) : Option UpgradeSystem :=
  s.upgrades[k]?.bind fun u =>
    match u.route, u.stage with
    | .connect, _ => none
    | _, .answering o peer => some (s.goto k u (if sent then .signaling o peer else .ended))
    | _, _ => none

/-- The receive task of `whip` and `whep` takes a text: the task ends if the connection is up, and
else it unwraps what it parses. -/
def textStep (s : UpgradeSystem) (k : ℕ) (message : String) : Option UpgradeSystem :=
  s.upgrades[k]?.bind fun u =>
    match u.route, u.stage with
    | .connect, _ => none
    | _, .signaling o peer =>
        s.objects[o]?.map fun room =>
          if room.forwarder.peers[peer]? = some .connected then s.goto k u .ended
          else if isSignaling message then s
          else s.goto k u .panicked
    | _, _ => none

/-- `ws/connect` joins the group of its stream and looks its receiver up, with the groups held;
it unwraps the outcome of the join. -/
def joinStep (s : UpgradeSystem) (k : ℕ) : Option UpgradeSystem :=
  s.upgrades[k]?.bind fun u =>
    match u.route, u.stage with
    | .connect, .entered o =>
        s.objects[o]?.map fun room =>
          match (room.groupManager.initUser u.userId.toUInt32).joinOrCreate u.userId.toUInt32
            u.stream with
          | .error _ => s.goto k u .panicked
          | .ok m =>
              match m.getUserSender u.stream u.userId.toUInt32 with
              | .ok (some channel) =>
                  (s.setGroups o (m.mapGroup u.stream fun g =>
                    g.mapChannel channel (·.subscribe k))).setUpgrade k
                      { u with stage := .relaying o, joined := true }
              | .ok none => (s.setGroups o m).setUpgrade k
                  { u with stage := .panicked, joined := true }
              | .error _ => (s.setGroups o m).setUpgrade k
                  { u with stage := .ended, joined := true }
    | _, _ => none

/-- The tasks of a connection end. -/
def hangupStep (s : UpgradeSystem) (k : ℕ) : Option UpgradeSystem :=
  s.upgrades[k]?.bind fun u =>
    match u.route, u.stage with
    | .connect, .relaying _ => some (s.goto k u .closing)
    | .whip, .signaling .. | .whep, .signaling .. => some (s.goto k u .ended)
    | _, _ => none

/-- `ws/connect` looks the room up again, and unwraps the lookup. -/
def relookStep (s : UpgradeSystem) (k : ℕ) : Option UpgradeSystem :=
  s.upgrades[k]?.bind fun u =>
    if s.deleting = none ∧ u.stage = .closing then some <|
      match s.rooms[u.roomId]? with
      | none => s.goto k u .panicked
      | some o => s.goto k u (.leaving o)
    else none

/-- `ws/connect` leaves the group. -/
def leaveStep (s : UpgradeSystem) (k : ℕ) : Option UpgradeSystem :=
  s.upgrades[k]?.bind fun u =>
    match u.stage with
    | .leaving o =>
        s.objects[o]?.map fun room =>
          (s.setGroups o (room.groupManager.leaveOrWarn u.userId.toUInt32 u.stream)).setUpgrade k
            { u with stage := .ended, left := true }
    | _ => none

/-- One step of the system. -/
def step (s : UpgradeSystem) : UpgradeAction → Option UpgradeSystem
  | .createRoom id name needsHost isPublic capacity sharedKey masterKey description timeout =>
      s.createRoomStep id (.new fnv id name needsHost isPublic capacity sharedKey masterKey
        description timeout)
  | .roomJoin id request token => s.roomJoinStep fnv id request token
  | .roomExit id request => s.roomExitStep fnv id request
  | .deleteRoom request keys => s.deleteRoomStep fnv request keys
  | .proceed => s.proceedStep
  | .change o c => some (s.modifyRoom o (·.change c))
  | .accept route id request offer => s.acceptStep fnv route id request offer
  | .upgrade k => s.upgradeStep isOffer k
  | .lookup k => s.lookupStep k
  | .publish k negotiated => s.publishStep k negotiated
  | .list k => s.listStep k
  | .poll k => s.pollStep k
  | .subscribe k negotiated => s.subscribeStep k negotiated
  | .answer k sent => s.answerStep k sent
  | .text k message => s.textStep isSignaling k message
  | .join k => s.joinStep k
  | .hangup k => s.hangupStep k
  | .relook k => s.relookStep k
  | .leave k => s.leaveStep k

end UpgradeSystem

/-- The machine of the upgrades of a server, which has no rooms at first. -/
def upgradeMachine (fnv : List UInt8 → UInt32) (isOffer isSignaling : String → Bool) :
    Machine UpgradeSystem UpgradeAction where
  init s := s = ⟨∅, [], none, []⟩
  step := UpgradeSystem.step fnv isOffer isSignaling

/-! ### Upgrades that go well -/

/-- The room that an upgrade works in. -/
def UpgradeStage.room : UpgradeStage → Option ℕ
  | .entered o | .polled o | .published o _ | .answering o _ | .signaling o _ | .relaying o
  | .leaving o => some o
  | .accepted | .upgraded | .closing | .ended | .panicked => none

/-- The connection whose candidates are exchanged. -/
def UpgradeStage.peer : UpgradeStage → Option ℕ
  | .signaling _ peer => some peer
  | .accepted | .upgraded | .entered _ | .polled _ | .published .. | .answering .. | .relaying _
  | .closing | .leaving _ | .ended | .panicked => none

/-- No unwrap has failed, and an upgrade that has ended has left the group that it joined. -/
def Upgrade.Fine (u : Upgrade) : Prop :=
  u.stage ≠ .panicked ∧ (u.joined = true → u.stage = .ended → u.left = true)

instance (u : Upgrade) : Decidable u.Fine := inferInstanceAs (Decidable (_ ∧ _))

namespace Forwarder

/-- Nobody publishes under the name. -/
def Vacant (f : Forwarder) (stream : String) : Prop :=
  ∀ h ∈ f.streamMap[stream]?, f.slot h = none

/-- There is a publisher under the name, whose connection is up. -/
def Publishing (f : Forwarder) (stream : String) : Prop :=
  ∃ h ∈ f.streamMap[stream]?, f.slotIsOk h = true

instance (f : Forwarder) (stream : String) : Decidable (f.Vacant stream) :=
  inferInstanceAs (Decidable (∀ h ∈ f.streamMap[stream]?, f.slot h = none))

instance (f : Forwarder) (stream : String) : Decidable (f.Publishing stream) :=
  inferInstanceAs (Decidable (∃ h ∈ f.streamMap[stream]?, f.slotIsOk h = true))

end Forwarder

namespace UpgradeSystem

/-- All upgrades are fine. -/
def Served (s : UpgradeSystem) : Prop := ∀ u ∈ s.upgrades, u.Fine

instance (s : UpgradeSystem) : Decidable s.Served :=
  inferInstanceAs (Decidable (∀ u ∈ s.upgrades, u.Fine))

/-- The room that an upgrade works in. -/
def roomOf (s : UpgradeSystem) (u : Upgrade) : Option Room :=
  u.stage.room.bind fun o => s.objects[o]?

/-- What a step of an upgrade finds: an offer that is one; its room among the rooms; for a
publish, that nobody publishes under the name, and a negotiation that succeeds; for a turn of the
loop of `whep`, the stream in the table; for a subscription, a publisher whose connection is up,
and a negotiation that succeeds; and in a text, as long as the connection is not up, the JSON that
it expects. -/
def Meets (isOffer isSignaling : String → Bool) (s : UpgradeSystem) : UpgradeAction → Prop
  | .upgrade k => ∀ u ∈ s.upgrades[k]?, u.route = .connect ∨ isOffer u.offer = true
  | .lookup k | .relook k => ∀ u ∈ s.upgrades[k]?, u.roomId ∈ s.rooms
  | .publish k negotiated => negotiated = .ok () ∧
      ∀ u ∈ s.upgrades[k]?, ∀ room ∈ s.roomOf u, room.forwarder.Vacant u.stream
  | .poll k =>
      ∀ u ∈ s.upgrades[k]?, ∀ room ∈ s.roomOf u, u.stream ∈ room.forwarder.streamMap
  | .subscribe k negotiated => negotiated = .ok () ∧
      ∀ u ∈ s.upgrades[k]?, ∀ room ∈ s.roomOf u, room.forwarder.Publishing u.stream
  | .text k message => ∀ u ∈ s.upgrades[k]?, ∀ room ∈ s.roomOf u, ∀ peer ∈ u.stage.peer,
      room.forwarder.peers[peer]? = some .connected ∨ isSignaling message = true
  | .createRoom .. | .roomJoin .. | .roomExit .. | .deleteRoom .. | .proceed | .change ..
  | .accept .. | .list _ | .answer .. | .join _ | .hangup _ | .leave _ => True

instance (isOffer isSignaling : String → Bool) (s : UpgradeSystem) (a : UpgradeAction) :
    Decidable (s.Meets isOffer isSignaling a) :=
  match a with
  | .upgrade k => inferInstanceAs
      (Decidable (∀ u ∈ s.upgrades[k]?, u.route = .connect ∨ isOffer u.offer = true))
  | .lookup k | .relook k =>
      inferInstanceAs (Decidable (∀ u ∈ s.upgrades[k]?, u.roomId ∈ s.rooms))
  | .publish k negotiated => inferInstanceAs (Decidable (negotiated = .ok () ∧
      ∀ u ∈ s.upgrades[k]?, ∀ room ∈ s.roomOf u, room.forwarder.Vacant u.stream))
  | .poll k => inferInstanceAs (Decidable
      (∀ u ∈ s.upgrades[k]?, ∀ room ∈ s.roomOf u, u.stream ∈ room.forwarder.streamMap))
  | .subscribe k negotiated => inferInstanceAs (Decidable (negotiated = .ok () ∧
      ∀ u ∈ s.upgrades[k]?, ∀ room ∈ s.roomOf u, room.forwarder.Publishing u.stream))
  | .text k message => inferInstanceAs (Decidable
      (∀ u ∈ s.upgrades[k]?, ∀ room ∈ s.roomOf u, ∀ peer ∈ u.stage.peer,
        room.forwarder.peers[peer]? = some .connected ∨ isSignaling message = true))
  | .createRoom .. | .roomJoin .. | .roomExit .. | .deleteRoom .. | .proceed | .change ..
  | .accept .. | .list _ | .answer .. | .join _ | .hangup _ | .leave _ =>
      inferInstanceAs (Decidable True)

end UpgradeSystem

/-! ### The outcomes that are unwrapped -/

namespace Forwarder

variable {f : Forwarder} {stream : String} {h : ℕ} {negotiated : Except AppError Unit}

/-- When `set_publish` returns a connection. -/
lemma setPublish_cases (f : Forwarder) (h : ℕ) (negotiated : Except AppError Unit) :
    (∃ peer g, f.setPublish h negotiated = (.ok peer, g) ∧ negotiated = .ok () ∧ f.slot h = none) ∨
      ∃ e g, f.setPublish h negotiated = (.error e, g) ∧
        ¬ (negotiated = .ok () ∧ f.slot h = none) := by
  rw [setPublish]
  cases hslot : f.slot h with
  | some p => exact .inr ⟨_, _, rfl, by simp⟩
  | none =>
      cases negotiated with
      | error e => exact .inr ⟨e, _, rfl, by simp⟩
      | ok _ =>
          have hnew : f.newPeer.slot h = none := hslot
          left
          simp [setPublishInternal, fillSlot, hnew, Except.map]

/-- **When a publish goes through**: the negotiation succeeds and nobody publishes yet. -/
lemma publish_cases (f : Forwarder) (stream : String) (negotiated : Except AppError Unit) :
    (∃ peer g, f.publish stream negotiated = (.ok peer, g) ∧
        negotiated = .ok () ∧ f.Vacant stream) ∨
      ∃ e g, f.publish stream negotiated = (.error e, g) ∧
        ¬ (negotiated = .ok () ∧ f.Vacant stream) := by
  rw [publish]
  cases hh : f.streamMap[stream]? with
  | some h => simpa [Vacant, hh] using f.setPublish_cases h negotiated
  | none =>
      have hvacant : f.Vacant stream := by simp [Vacant, hh]
      have hslot : (f.newForward stream).slot f.forwards.length = none := by
        rw [slot_newForward, slot, List.getElem?_eq_none le_rfl, Option.bind_none]
      have hmap := streamMap_setPublish (f.newForward stream) f.forwards.length negotiated
      have hnew : stream ∉ f.streamMap := by
        rw [ExtTreeMap.mem_iff_isSome_getElem?, hh]
        simp
      rcases (f.newForward stream).setPublish_cases f.forwards.length negotiated with
        ⟨peer, g, hg, hok, -⟩ | ⟨e, g, hg, hnot⟩
      · left
        rw [hg] at hmap
        have hnot : stream ∉ g.streamMap := by
          rw [hmap]
          exact hnew
        dsimp only
        rw [hg]
        simp [hnot, hok, hvacant]
      · right
        simp only [hslot, and_true] at hnot
        dsimp only
        rw [hg]
        exact ⟨e, g, rfl, fun h => hnot h.1⟩

/-- **When a subscription goes through**: the negotiation succeeds and there is a publisher whose
connection is up. -/
lemma subscribe_cases (f : Forwarder) (stream : String) (negotiated : Except AppError Unit) :
    (∃ peer g, f.subscribe stream negotiated = (.ok peer, g) ∧
        negotiated = .ok () ∧ f.Publishing stream) ∨
      ∃ e g, f.subscribe stream negotiated = (.error e, g) ∧
        ¬ (negotiated = .ok () ∧ f.Publishing stream) := by
  unfold subscribe
  cases hh : f.streamMap[stream]? with
  | none => exact .inr ⟨_, _, rfl, by simp [Publishing, hh]⟩
  | some h =>
      cases hok : f.slotIsOk h with
      | false => exact .inr ⟨.throw "publish is not ok", f, by simp [hok], by
          simp [Publishing, hh, hok]⟩
      | true =>
          cases negotiated with
          | error e => exact .inr ⟨e, f, by simp [hok], by simp⟩
          | ok _ => exact .inl ⟨f.peers.length, f.newPeer, by simp [hok], rfl, by
              simp [Publishing, hh, hok]⟩

/-- The loop of `whep` fails on a stream that is not in the table. -/
lemma publishIsOk_cases (f : Forwarder) (stream : String) :
    (∃ b, f.publishIsOk stream = .ok b ∧ stream ∈ f.streamMap) ∨
      ∃ e, f.publishIsOk stream = .error e ∧ stream ∉ f.streamMap := by
  rw [publishIsOk]
  cases hh : f.streamMap[stream]? with
  | none => exact .inr ⟨_, rfl, by simp [ExtTreeMap.mem_iff_isSome_getElem?, hh]⟩
  | some h => exact .inl ⟨_, rfl, by simp [ExtTreeMap.mem_iff_isSome_getElem?, hh]⟩

end Forwarder

namespace Room

variable {fnv : List UInt8 → UInt32} {room : Room}

/-- A join keeps the groups well formed. -/
lemma wf_serve_join (hr : room.groupManager.Wf) (request : JoinRequest) (token : UInt32) :
    (room.serve fnv (.join request token)).groupManager.Wf := by
  have hne : ∀ r, RoomRequest.join request token ≠ .exit r := by simp
  rcases groupManager_serve_of_ne_exit fnv room hne with hm | ⟨user, hm⟩
  · rw [hm]
    exact hr
  · rw [hm]
    exact hr.initUser user

lemma groupManager_updateClient (room : Room) (userId : Int32) (token : UInt32)
    (f : Client → Except AppError Client) :
    (room.updateClient userId token f).groupManager = room.groupManager := by
  rw [updateClient]
  split
  · rfl
  · split_ifs
    · split <;> rfl
    · rfl

/-- The changes of others leave the groups alone. -/
lemma groupManager_change (room : Room) (c : RoomChange) :
    (room.change c).groupManager = room.groupManager := by
  cases c with
  | addStream userId token stream => exact groupManager_updateClient ..
  | removeStream userId token stream => exact groupManager_updateClient ..
  | _ => rfl

end Room

namespace UpgradeSystem

variable {fnv : List UInt8 → UInt32} {isOffer isSignaling : String → Bool}
  {s t : UpgradeSystem} {a : UpgradeAction} {k o : ℕ} {u : Upgrade}

/-! ### Deletions in one piece -/

/-- What a deletion that is not interrupted comes to. -/
def deleted (s : UpgradeSystem) (o : ℕ) (roomId : Option Int32) (r : Except AppError Unit)
    (room : Room) : UpgradeSystem :=
  { s.setRoom o room with deleting := none, rooms := s.roomsAfter roomId r }

/-- The steps of a handler that deletes users, when nobody else moves. -/
lemma exec_of_ends {roomId : Option Int32} {rest : Deletion} {room room' : Room}
    {r : Except AppError Unit} (h : rest.Ends room r room')
    (hd : s.deleting = some ⟨o, roomId, rest⟩) (hroom : s.objects[o]? = some room) :
    ∃ n, (upgradeMachine fnv isOffer isSignaling).exec s (List.replicate n .proceed) =
      some (s.deleted o roomId r room') := by
  induction h generalizing s with
  | @done rest room last =>
      have hsame : s.objects.set o room = s.objects := by
        obtain ⟨hlt, rfl⟩ := List.getElem?_eq_some_iff.mp hroom
        exact List.set_getElem_self hlt
      refine ⟨1, Machine.exec_step ?_ rfl⟩
      simp [upgradeMachine, step, proceedStep, hd, hroom, last, deleted, setRoom, hsame]
  | failed turn =>
      refine ⟨1, Machine.exec_step ?_ rfl⟩
      simp [upgradeMachine, step, proceedStep, hd, hroom, turn, deleted]
  | @next rest rest' room room' room'' r turn ends ih =>
      have hlt := (List.getElem?_eq_some_iff.mp hroom).1
      obtain ⟨n, hn⟩ := @ih { s.setRoom o room' with deleting := some ⟨o, roomId, rest'⟩ } rfl
        (List.getElem?_set_self hlt)
      refine ⟨n + 1, Machine.exec_step ?_ (hn.trans ?_)⟩
      · simp [upgradeMachine, step, proceedStep, hd, hroom, turn]
      · cases r <;> simp [deleted, setRoom, roomsAfter]

/-- **`delete_room` in one piece**: when nobody else moves, it leaves the room that
`all_user_delete` leaves, and takes it out of `ROOMS` if that succeeds. -/
theorem exec_deleteRoom {request : DeleteRequest} {keys : List Int32} {room : Room}
    (hidle : s.deleting = none) (ho : s.rooms[request.id]? = some o)
    (hroom : s.objects[o]? = some room) (hkey : room.authMasterKey fnv request.masterKey = true)
    (hkeys : keys.Perm room.clientMap.keys) :
    ∃ n, (upgradeMachine fnv isOffer isSignaling).exec s
        (.deleteRoom request keys :: List.replicate n .proceed) =
      some (s.deleted o (some request.id) ((room.allUserDelete keys).1.map fun _ => ())
        (room.allUserDelete keys).2) := by
  have hbegin : (upgradeMachine fnv isOffer isSignaling).step s (.deleteRoom request keys) =
      some { s with
        deleting := some ⟨o, some request.id, ⟨none, keys.map (⟨·, 0, false⟩)⟩⟩ } := by
    simp [upgradeMachine, step, deleteRoomStep, hidle, ho, hroom, hkey, hkeys]
  obtain ⟨n, hn⟩ := exec_of_ends (Deletion.ends_allUserDelete room keys)
    (s := { s with deleting := some ⟨o, some request.id, ⟨none, keys.map (⟨·, 0, false⟩)⟩⟩ })
    rfl hroom
  exact ⟨n, Machine.exec_step hbegin hn⟩

/-- **`room_exit` in one piece**: it leaves the room that `user_delete` leaves. -/
theorem exec_roomExit {id : Int32} {request : ExitRequest} {room : Room}
    (hidle : s.deleting = none) (ho : s.rooms[id]? = some o)
    (hroom : s.objects[o]? = some room) (hkey : room.authSharedKey fnv request.sharedKey = true) :
    ∃ n, (upgradeMachine fnv isOffer isSignaling).exec s
        (.roomExit id request :: List.replicate n .proceed) =
      some (s.setRoom o (room.userDelete request.userId request.token true).2) := by
  have hbegin : (upgradeMachine fnv isOffer isSignaling).step s (.roomExit id request) =
      some { s with
        deleting := some ⟨o, none, ⟨none, [⟨request.userId, request.token, true⟩]⟩⟩ } := by
    simp [upgradeMachine, step, roomExitStep, hidle, ho, hroom, hkey]
  obtain ⟨n, hn⟩ := exec_of_ends
    (Deletion.ends_userDelete room ⟨request.userId, request.token, true⟩)
    (s := { s with
      deleting := some ⟨o, none, ⟨none, [⟨request.userId, request.token, true⟩]⟩⟩ }) rfl hroom
  refine ⟨n, Machine.exec_step hbegin (hn.trans ?_)⟩
  cases (room.userDelete request.userId request.token true).1 <;>
    simp [deleted, setRoom, roomsAfter, Except.map, hidle]

/-! ### The groups of the rooms -/

/-- The groups of all rooms are well formed. -/
def GroupsWf (s : UpgradeSystem) : Prop := ∀ room ∈ s.objects, room.groupManager.Wf

namespace GroupsWf

variable {room : Room} (hs : s.GroupsWf)
include hs

lemma of_getElem? (hroom : s.objects[o]? = some room) : room.groupManager.Wf :=
  hs room (List.mem_of_getElem? hroom)

lemma modifyRoom {f : Room → Room}
    (hf : ∀ room, room.groupManager.Wf → (f room).groupManager.Wf) :
    (s.modifyRoom o f).GroupsWf := by
  intro room' hroom'
  rcases Vec.mem_modify_cases hroom' with hmem | ⟨room, hroom, rfl⟩
  · exact hs room' hmem
  · exact hf room (hs.of_getElem? hroom)

lemma setForwarder (o : ℕ) (f : Forwarder) : (s.setForwarder o f).GroupsWf :=
  hs.modifyRoom fun _ hroom => hroom

lemma setGroups {m : GroupsManager} (hm : m.Wf) : (s.setGroups o m).GroupsWf :=
  hs.modifyRoom fun _ _ => hm

lemma change (o : ℕ) (c : RoomChange) : (s.modifyRoom o (·.change c)).GroupsWf :=
  hs.modifyRoom fun room hroom => (room.groupManager_change c).symm ▸ hroom

lemma setRoom (hroom : room.groupManager.Wf) : (s.setRoom o room).GroupsWf := by
  intro room' hroom'
  rcases List.mem_or_eq_of_mem_set hroom' with hmem | rfl
  · exact hs room' hmem
  · exact hroom

end GroupsWf

/-! ### What a step does -/

/-- The groups of all rooms are well formed, and only `ws/connect` joins a group. -/
structure Wf (s : UpgradeSystem) : Prop where
  groups : s.GroupsWf
  route : ∀ u ∈ s.upgrades, u.joined = true → u.route = .connect

/-- What a step does to the upgrades: they stay; one of them moves on, and is fine exactly if the
step has met what it needs; or another one is accepted. -/
inductive Moves (isOffer isSignaling : String → Bool) (s : UpgradeSystem) (a : UpgradeAction)
    (t : UpgradeSystem) : Prop
  | quiet (upgrades : t.upgrades = s.upgrades) (meets : s.Meets isOffer isSignaling a)
  | moved (k : ℕ) (u u' : Upgrade) (before : s.upgrades[k]? = some u)
      (after : t.upgrades = s.upgrades.set k u') (route : u'.joined = true → u'.route = .connect)
      (fine : u'.Fine ↔ s.Meets isOffer isSignaling a)
  | accepted (u : Upgrade) (after : t.upgrades = s.upgrades ++ [u]) (joined : u.joined = false)
      (fine : u.Fine) (meets : s.Meets isOffer isSignaling a)

/-- What a step does to the upgrades, and that the groups stay well formed. -/
structure StepSpec (isOffer isSignaling : String → Bool) (s : UpgradeSystem) (a : UpgradeAction)
    (t : UpgradeSystem) : Prop where
  moves : s.Moves isOffer isSignaling a t
  groups : t.GroupsWf

/-- A step that leaves the upgrades alone. -/
lemma spec_quiet (hgroups : t.GroupsWf) (hupgrades : t.upgrades = s.upgrades)
    (hmeets : s.Meets isOffer isSignaling a) : s.StepSpec isOffer isSignaling a t :=
  ⟨.quiet hupgrades hmeets, hgroups⟩

/-- A step that leads one upgrade to another stage. -/
lemma Wf.spec_goto (hs : s.Wf) (hu : s.upgrades[k]? = some u) (stage : UpgradeStage)
    {r : UpgradeSystem} (hgroups : r.GroupsWf) (hr : r.upgrades = s.upgrades)
    (hfine : Upgrade.Fine { u with stage := stage } ↔ s.Meets isOffer isSignaling a) :
    s.StepSpec isOffer isSignaling a (r.goto k u stage) where
  moves := .moved k u { u with stage := stage } hu (by rw [goto, setUpgrade, hr])
    (hs.route u (List.mem_of_getElem? hu)) hfine
  groups := hgroups

/-- An upgrade goes on to a stage that is not its end. -/
lemma Wf.spec_running (hs : s.Wf) (hu : s.upgrades[k]? = some u) {stage : UpgradeStage}
    (hpanicked : stage ≠ .panicked) (hended : stage ≠ .ended) {r : UpgradeSystem}
    (hgroups : r.GroupsWf) (hr : r.upgrades = s.upgrades)
    (hmeets : s.Meets isOffer isSignaling a) :
    s.StepSpec isOffer isSignaling a (r.goto k u stage) :=
  hs.spec_goto hu stage hgroups hr (iff_of_true ⟨hpanicked, fun _ h => absurd h hended⟩ hmeets)

/-- An upgrade of `whip` or `whep` ends. -/
lemma Wf.spec_ended (hs : s.Wf) (hu : s.upgrades[k]? = some u) (hroute : u.route ≠ .connect)
    (hmeets : s.Meets isOffer isSignaling a) :
    s.StepSpec isOffer isSignaling a (s.goto k u .ended) := by
  have hnot : u.joined = true → False := fun h => hroute (hs.route u (List.mem_of_getElem? hu) h)
  exact hs.spec_goto hu .ended hs.groups rfl
    (iff_of_true ⟨by simp, fun hjoined _ => (hnot hjoined).elim⟩ hmeets)

/-- An unwrap fails. -/
lemma Wf.spec_panicked (hs : s.Wf) (hu : s.upgrades[k]? = some u) {r : UpgradeSystem}
    (hgroups : r.GroupsWf) (hr : r.upgrades = s.upgrades)
    (hnot : ¬ s.Meets isOffer isSignaling a) :
    s.StepSpec isOffer isSignaling a (r.goto k u .panicked) :=
  hs.spec_goto hu .panicked hgroups hr (iff_of_false (fun h => h.1 rfl) hnot)

/-- The room of an upgrade, where it works in one. -/
lemma roomOf_eq {room : Room} (hstage : u.stage.room = some o) (hroom : s.objects[o]? = some room) :
    s.roomOf u = some room := by
  rw [roomOf, hstage, Option.bind_some, hroom]

/-- The beginning of a callback. -/
lemma spec_upgrade (hs : s.Wf) (h : s.upgradeStep isOffer k = some t) :
    s.StepSpec isOffer isSignaling (.upgrade k) t := by
  simp only [upgradeStep, Option.bind_eq_some_iff, Option.ite_none_right_eq_some,
    Option.some.injEq] at h
  obtain ⟨u, hu, -, rfl⟩ := h
  have hmeets : s.Meets isOffer isSignaling (.upgrade k) ↔
      (u.route = .connect ∨ isOffer u.offer = true) := by
    simp [Meets, hu]
  split_ifs with hoffer
  · exact hs.spec_running hu (by simp) (by simp) hs.groups rfl (hmeets.mpr hoffer)
  · exact hs.spec_panicked hu hs.groups rfl (hoffer ∘ hmeets.mp)

/-- A lookup of the room, before and after the tasks. -/
lemma spec_lookup (hs : s.Wf) (hu : s.upgrades[k]? = some u) {next : ℕ → UpgradeStage}
    (hpanicked : ∀ o, next o ≠ .panicked) (hended : ∀ o, next o ≠ .ended)
    (hmeets : s.Meets isOffer isSignaling a ↔ u.roomId ∈ s.rooms) :
    s.StepSpec isOffer isSignaling a
      (match s.rooms[u.roomId]? with
      | none => s.goto k u .panicked
      | some o => s.goto k u (next o)) := by
  rw [ExtTreeMap.mem_iff_isSome_getElem?] at hmeets
  cases hroom : s.rooms[u.roomId]? with
  | none =>
      rw [hroom] at hmeets
      exact hs.spec_panicked hu hs.groups rfl (by simp [hmeets])
  | some o =>
      rw [hroom] at hmeets
      exact hs.spec_running hu (hpanicked o) (hended o) hs.groups rfl (hmeets.mpr rfl)

/-- The publish of `whip`. -/
lemma spec_publish (hs : s.Wf) {negotiated : Except AppError Unit}
    (h : s.publishStep k negotiated = some t) :
    s.StepSpec isOffer isSignaling (.publish k negotiated) t := by
  simp only [publishStep, Option.bind_eq_some_iff] at h
  obtain ⟨u, hu, h⟩ := h
  split at h
  · rename_i o hroute hstage
    obtain ⟨room, hroom, rfl⟩ := Option.map_eq_some_iff.mp h
    have hof : s.roomOf u = some room := roomOf_eq (by rw [hstage]; rfl) hroom
    have hmeets : s.Meets isOffer isSignaling (.publish k negotiated) ↔
        negotiated = .ok () ∧ room.forwarder.Vacant u.stream := by
      simp [Meets, hu, hof]
    rcases room.forwarder.publish_cases u.stream negotiated with
      ⟨peer, f, hf, hok⟩ | ⟨e, f, hf, hnot⟩
    · rw [hf]
      exact hs.spec_running hu (by simp) (by simp) (hs.groups.setForwarder o f) rfl
        (hmeets.mpr hok)
    · rw [hf]
      exact hs.spec_panicked hu (hs.groups.setForwarder o f) rfl (hnot ∘ hmeets.mp)
  · cases h

/-- The stream is added to the list of the client. -/
lemma spec_list (hs : s.Wf) (h : s.listStep k = some t) :
    s.StepSpec isOffer isSignaling (.list k) t := by
  simp only [listStep, Option.bind_eq_some_iff] at h
  obtain ⟨u, hu, h⟩ := h
  split at h
  · cases h
    exact hs.spec_running hu (by simp) (by simp) (hs.groups.change _ _) rfl trivial
  · cases h

/-- A turn of the loop of `whep`. -/
lemma spec_poll (hs : s.Wf) (h : s.pollStep k = some t) :
    s.StepSpec isOffer isSignaling (.poll k) t := by
  simp only [pollStep, Option.bind_eq_some_iff] at h
  obtain ⟨u, hu, h⟩ := h
  split at h
  · rename_i o hroute hstage
    obtain ⟨room, hroom, rfl⟩ := Option.map_eq_some_iff.mp h
    have hof : s.roomOf u = some room := roomOf_eq (by rw [hstage]; rfl) hroom
    have hmeets : s.Meets isOffer isSignaling (.poll k) ↔
        u.stream ∈ room.forwarder.streamMap := by
      simp [Meets, hu, hof]
    rcases room.forwarder.publishIsOk_cases u.stream with ⟨b, hb, hmem⟩ | ⟨e, he, hmem⟩
    · rw [hb]
      cases b with
      | true => exact hs.spec_running hu (by simp) (by simp) hs.groups rfl (hmeets.mpr hmem)
      | false => exact spec_quiet hs.groups rfl (hmeets.mpr hmem)
    · rw [he]
      exact hs.spec_panicked hu hs.groups rfl (hmem ∘ hmeets.mp)
  · cases h

/-- The subscription of `whep`. -/
lemma spec_subscribe (hs : s.Wf) {negotiated : Except AppError Unit}
    (h : s.subscribeStep k negotiated = some t) :
    s.StepSpec isOffer isSignaling (.subscribe k negotiated) t := by
  simp only [subscribeStep, Option.bind_eq_some_iff] at h
  obtain ⟨u, hu, h⟩ := h
  split at h
  · rename_i o hroute hstage
    obtain ⟨room, hroom, rfl⟩ := Option.map_eq_some_iff.mp h
    have hof : s.roomOf u = some room := roomOf_eq (by rw [hstage]; rfl) hroom
    have hmeets : s.Meets isOffer isSignaling (.subscribe k negotiated) ↔
        negotiated = .ok () ∧ room.forwarder.Publishing u.stream := by
      simp [Meets, hu, hof]
    rcases room.forwarder.subscribe_cases u.stream negotiated with
      ⟨peer, f, hf, hok⟩ | ⟨e, f, hf, hnot⟩
    · rw [hf]
      exact hs.spec_running hu (by simp) (by simp) (hs.groups.setForwarder o f) rfl
        (hmeets.mpr hok)
    · rw [hf]
      exact hs.spec_panicked hu (hs.groups.setForwarder o f) rfl (hnot ∘ hmeets.mp)
  · cases h

/-- The answer of `whip` or `whep`. -/
lemma spec_answer (hs : s.Wf) {sent : Bool} (h : s.answerStep k sent = some t) :
    s.StepSpec isOffer isSignaling (.answer k sent) t := by
  simp only [answerStep, Option.bind_eq_some_iff] at h
  obtain ⟨u, hu, h⟩ := h
  split at h
  · cases h
  · rename_i hroute
    cases h
    cases sent with
    | true => exact hs.spec_running hu (by simp) (by simp) hs.groups rfl trivial
    | false => exact hs.spec_ended hu hroute trivial
  · cases h

/-- A text that the receive task of `whip` or `whep` takes. -/
lemma spec_text (hs : s.Wf) {message : String} (h : s.textStep isSignaling k message = some t) :
    s.StepSpec isOffer isSignaling (.text k message) t := by
  simp only [textStep, Option.bind_eq_some_iff] at h
  obtain ⟨u, hu, h⟩ := h
  split at h
  · cases h
  · rename_i o peer hstage hroute
    obtain ⟨room, hroom, rfl⟩ := Option.map_eq_some_iff.mp h
    have hof : s.roomOf u = some room := roomOf_eq (by rw [hstage]; rfl) hroom
    have hpeer : u.stage.peer = some peer := by
      rw [hstage]
      rfl
    have hmeets : s.Meets isOffer isSignaling (.text k message) ↔
        room.forwarder.peers[peer]? = some .connected ∨ isSignaling message = true := by
      simp [Meets, hu, hof, hpeer]
    split_ifs with hup htext
    · exact hs.spec_ended hu hroute (hmeets.mpr (.inl hup))
    · exact spec_quiet hs.groups rfl (hmeets.mpr (.inr htext))
    · exact hs.spec_panicked hu hs.groups rfl (by simp [hmeets, hup, htext])
  · cases h

/-- The join of `ws/connect`, which goes well. -/
lemma spec_join (hs : s.Wf) (h : s.joinStep k = some t) :
    s.StepSpec isOffer isSignaling (.join k) t := by
  simp only [joinStep, Option.bind_eq_some_iff] at h
  obtain ⟨u, hu, h⟩ := h
  split at h
  · rename_i o hroute hstage
    obtain ⟨room, hroom, rfl⟩ := Option.map_eq_some_iff.mp h
    have hwf := (hs.groups.of_getElem? hroom).initUser u.userId.toUInt32
    set m := room.groupManager.initUser u.userId.toUInt32
    obtain ⟨m', hm'⟩ : ∃ m', m.joinOrCreate u.userId.toUInt32 u.stream = .ok m' :=
      ⟨_, GroupsManager.joinOrCreate_eq m _ _⟩
    have hjoined := hwf.joinOrCreate _ hm'
    have hmem : u.userId.toUInt32 ∈ m'.users u.stream :=
      (GroupsManager.mem_users_joinOrCreate hm' _ _).mpr (.inl ⟨rfl, rfl⟩)
    obtain ⟨channel, hchannel⟩ := hjoined.exists_getUserSender _ hmem
    simp only [hm', hchannel]
    constructor
    · exact .moved k u { u with stage := .relaying o, joined := true } hu rfl (fun _ => hroute)
        (iff_of_true ⟨by simp, by simp⟩ trivial)
    · exact hs.groups.setGroups (hjoined.mapGroup fun g hg =>
        ⟨(hjoined.groups _ g hg).mapChannel _ _, rfl⟩)
  · cases h

/-- The end of the tasks. -/
lemma spec_hangup (hs : s.Wf) (h : s.hangupStep k = some t) :
    s.StepSpec isOffer isSignaling (.hangup k) t := by
  simp only [hangupStep, Option.bind_eq_some_iff] at h
  obtain ⟨u, hu, h⟩ := h
  split at h
  · cases h
    exact hs.spec_running hu (by simp) (by simp) hs.groups rfl trivial
  · rename_i hroute _
    cases h
    exact hs.spec_ended hu (by simp [hroute]) trivial
  · rename_i hroute _
    cases h
    exact hs.spec_ended hu (by simp [hroute]) trivial
  · cases h

/-- The end of `ws/connect`. -/
lemma spec_leave (hs : s.Wf) (h : s.leaveStep k = some t) :
    s.StepSpec isOffer isSignaling (.leave k) t := by
  simp only [leaveStep, Option.bind_eq_some_iff] at h
  obtain ⟨u, hu, h⟩ := h
  split at h
  · obtain ⟨room, hroom, rfl⟩ := Option.map_eq_some_iff.mp h
    constructor
    · exact .moved k u { u with stage := .ended, left := true } hu rfl
        (hs.route u (List.mem_of_getElem? hu)) (iff_of_true ⟨by simp, by simp⟩ trivial)
    · exact hs.groups.setGroups ((hs.groups.of_getElem? hroom).leaveOrWarn _)
  · cases h

/-- **What a step does.** -/
theorem spec_of_step (hs : s.Wf) (h : s.step fnv isOffer isSignaling a = some t) :
    s.StepSpec isOffer isSignaling a t := by
  cases a with
  | createRoom id name needsHost isPublic capacity sharedKey masterKey description timeout =>
      simp only [step, createRoomStep, Option.ite_none_right_eq_some] at h
      obtain ⟨-, h⟩ := h
      cases h
      refine spec_quiet (fun room hroom => ?_) rfl trivial
      rcases List.mem_append.mp hroom with hmem | hmem
      · exact hs.groups room hmem
      · obtain rfl := List.mem_singleton.mp hmem
        exact GroupsManager.wf_new
  | roomJoin id request token =>
      simp only [step, roomJoinStep, Option.ite_none_right_eq_some, Option.map_eq_some_iff] at h
      obtain ⟨-, o, -, rfl⟩ := h
      exact spec_quiet (hs.groups.modifyRoom fun _ hroom => Room.wf_serve_join hroom request token)
        rfl trivial
  | roomExit id request =>
      simp only [step, roomExitStep, Option.ite_none_right_eq_some, Option.bind_eq_some_iff] at h
      obtain ⟨-, o, -, room, -, -, h⟩ := h
      cases h
      exact spec_quiet hs.groups rfl trivial
  | deleteRoom request keys =>
      simp only [step, deleteRoomStep, Option.ite_none_right_eq_some, Option.bind_eq_some_iff] at h
      obtain ⟨-, o, -, room, -, -, h⟩ := h
      cases h
      exact spec_quiet hs.groups rfl trivial
  | proceed =>
      simp only [step, proceedStep, Option.bind_eq_some_iff, Option.map_eq_some_iff] at h
      obtain ⟨d, -, room, hroom, rfl⟩ := h
      have hwf := hs.groups.of_getElem? hroom
      split
      · exact spec_quiet hs.groups rfl trivial
      · rename_i hturn
        exact spec_quiet (hs.groups.setRoom (Deletion.wf_turn hwf hturn)) rfl trivial
      · rename_i hturn
        exact spec_quiet (hs.groups.setRoom (Deletion.wf_turn hwf hturn)) rfl trivial
  | change o c =>
      cases h
      exact spec_quiet (hs.groups.change o c) rfl trivial
  | accept route id request offer =>
      simp only [step, acceptStep, Option.ite_none_right_eq_some, Option.bind_eq_some_iff] at h
      obtain ⟨-, o, -, room, -, h⟩ := h
      split at h
      · cases h
      · cases h
        exact ⟨.accepted _ rfl rfl ⟨by simp, by simp⟩ trivial, hs.groups⟩
  | upgrade k => exact spec_upgrade hs h
  | lookup k =>
      simp only [step, lookupStep, Option.bind_eq_some_iff, Option.ite_none_right_eq_some,
        Option.some.injEq] at h
      obtain ⟨u, hu, -, rfl⟩ := h
      exact spec_lookup hs hu (by simp) (by simp) (by simp [Meets, hu])
  | publish k negotiated => exact spec_publish hs h
  | list k => exact spec_list hs h
  | poll k => exact spec_poll hs h
  | subscribe k negotiated => exact spec_subscribe hs h
  | answer k sent => exact spec_answer hs h
  | text k message => exact spec_text hs h
  | join k => exact spec_join hs h
  | hangup k => exact spec_hangup hs h
  | relook k =>
      simp only [step, relookStep, Option.bind_eq_some_iff, Option.ite_none_right_eq_some,
        Option.some.injEq] at h
      obtain ⟨u, hu, -, rfl⟩ := h
      exact spec_lookup hs hu (by simp) (by simp) (by simp [Meets, hu])
  | leave k => exact spec_leave hs h

/-! ### Whole runs -/

/-- **The invariant of a run**: every step keeps it. -/
theorem Wf.step (hs : s.Wf) (h : s.step fnv isOffer isSignaling a = some t) : t.Wf where
  groups := (spec_of_step hs h).groups
  route := by
    cases (spec_of_step hs h).moves with
    | quiet upgrades meets => exact upgrades ▸ hs.route
    | moved k u u' before after route fine =>
        intro v hv
        rw [after] at hv
        rcases List.mem_or_eq_of_mem_set hv with hv | rfl
        · exact hs.route v hv
        · exact route
    | accepted u after joined fine meets =>
        intro v hv hjoined
        rw [after] at hv
        rcases List.mem_append.mp hv with hv | hv
        · exact hs.route v hv hjoined
        · obtain rfl := List.mem_singleton.mp hv
          exact absurd hjoined (by simp [joined])

/-- Between states without failures, a step is one that has met what it needs. -/
theorem served_step_iff (hwf : s.Wf) (hs : s.Served)
    (h : s.step fnv isOffer isSignaling a = some t) :
    t.Served ↔ s.Meets isOffer isSignaling a := by
  cases (spec_of_step hwf h).moves with
  | quiet upgrades meets => exact iff_of_true (fun u hu => hs u (upgrades ▸ hu)) meets
  | moved k u u' before after route fine =>
      rw [← fine, Served, after]
      constructor
      · intro ht
        exact ht u' (List.mem_set (List.getElem?_eq_some_iff.mp before).1 u')
      · intro hu' v hv
        rcases List.mem_or_eq_of_mem_set hv with hv | rfl
        · exact hs v hv
        · exact hu'
  | accepted u after joined fine meets =>
      refine iff_of_true (fun v hv => ?_) meets
      rw [after] at hv
      rcases List.mem_append.mp hv with hv | hv
      · exact hs v hv
      · exact List.mem_singleton.mp hv ▸ fine

/-- **When no upgrade fails**: in all states of a run, no callback has panicked, and one that has
ended has left the group it had joined, exactly if each offer is one, each lookup finds the room
among the rooms, each publish finds nobody under the name, each turn of the loop finds the stream,
each subscription finds a publisher whose connection is up, the negotiations succeed, and each text
is the expected JSON as long as the connection is not up. -/
theorem served_iff (fnv : List UInt8 → UInt32) (isOffer isSignaling : String → Bool)
    {s : UpgradeSystem} (hs : (upgradeMachine fnv isOffer isSignaling).init s)
    {as : List UpgradeAction} :
    (upgradeMachine fnv isOffer isSignaling).Always Served s as ↔
      (upgradeMachine fnv isOffer isSignaling).Guarded (Meets isOffer isSignaling) s as := by
  obtain rfl : s = ⟨∅, [], none, []⟩ := hs
  have hwf : Wf ⟨∅, [], none, []⟩ := ⟨by simp [GroupsWf], by simp⟩
  have hserved : Served ⟨∅, [], none, []⟩ := by simp [Served]
  refine Machine.always_iff_guarded (I := fun s => s.Wf ∧ s.Served) (fun r a t hr hstep => ?_)
    ⟨hwf, hserved⟩ hserved
  have hiff := served_step_iff hr.1 hr.2 hstep
  exact ⟨hiff, fun hmeets => ⟨hr.1.step hstep, hiff.mpr hmeets⟩⟩

/-- A session description. -/
def offerText : String := "v=0\r\no=- 0 0 IN IP4 127.0.0.1\r\ns=-\r\nt=0 0\r\n"

/-- A candidate, as the clients send it. -/
def candidateText : String :=
  "\x7b\"is_candidate\":true,\"sdp\":\"\",\"session\":\"\",\"candidate\":\"a\"\x7d"

/-- A room with two clients. -/
def opening : List UpgradeAction :=
  [.createRoom 0 "room" false true 2 "key" "master" "" 0, .roomJoin 0 ⟨"first", "key", ""⟩ 7,
    .roomJoin 0 ⟨"second", "key", ""⟩ 8]

/-- The first client publishes a stream. -/
def whipActions : List UpgradeAction :=
  [.accept .whip 0 ⟨0, 7, "a", "key"⟩ offerText, .upgrade 0, .lookup 0, .publish 0 (.ok ()),
    .list 0, .answer 0 true, .text 0 candidateText, .change 0 (.connection 0 true), .hangup 0]

/-- The second client subscribes to it. -/
def whepActions : List UpgradeAction :=
  [.accept .whep 0 ⟨1, 8, "a", "key"⟩ offerText, .upgrade 1, .lookup 1, .poll 1,
    .subscribe 1 (.ok ()), .answer 1 true, .text 1 candidateText,
    .change 0 (.connection 1 true), .text 1 "", .change 0 (.connection 1 false)]

/-- The first client is connected to the group of the stream. -/
def connectActions (k : ℕ) : List UpgradeAction :=
  [.accept .connect 0 ⟨0, 7, "a", "key"⟩ "", .upgrade k, .lookup k, .join k, .hangup k]

/-- All of this, and the room is deleted. -/
def fullRun : List UpgradeAction :=
  opening ++ whipActions ++ whepActions ++ connectActions 2 ++
    [.relook 2, .leave 2, .deleteRoom ⟨0, "master"⟩ [0, 1]] ++ List.replicate 6 .proceed

/-- A client publishes, another one subscribes, and the first one is connected to the group of
the stream and leaves it, before the room is deleted. -/
theorem served_beforeDelete :
    (upgradeMachine fnv1a (· == offerText) (· == candidateText)).Always Served ⟨∅, [], none, []⟩
        fullRun ∧
      ((upgradeMachine fnv1a (· == offerText) (· == candidateText)).exec ⟨∅, [], none, []⟩
        fullRun).any fun t => t.rooms.isEmpty ∧ t.upgrades.map (·.left) = [false, false, true] :=
  ⟨(served_iff fnv1a _ _ rfl).mpr (by decide), by decide⟩

/-- The room is deleted while a client is connected to a group: the handler does not get to leave
the group. -/
theorem not_served_deletedRoom :
    ¬ ∀ (s : UpgradeSystem) (as : List UpgradeAction),
      (upgradeMachine fnv1a (· == offerText) (· == candidateText)).init s →
        (upgradeMachine fnv1a (· == offerText) (· == candidateText)).Always Served s as := by
  intro h
  have hserved := (h ⟨∅, [], none, []⟩ (opening ++ connectActions 0 ++
    .deleteRoom ⟨0, "master"⟩ [0, 1] :: List.replicate 5 .proceed ++ [.relook 0])
      rfl).of_exec rfl
  exact absurd hserved (by decide)

end UpgradeSystem

end SfuServer
