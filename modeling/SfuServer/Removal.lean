import SfuServer.Rtc.Sessions
import SfuServer.Ws.Members

/-!
What is left of a user whom `Room::user_delete` has taken out of a room.

A user is known to the groups, by its entry among the clients with the list of its streams, and
to the streams, its own and those of others, where it has subscribed or opened a data channel.
`user_delete` ends the user in the groups and deletes the streams of its list, with all of their
connections; the streams of others it does not look at.

* `RemovalSystem`, `removalMachine`: a room with its WebSocket connections and the sessions of
  its streams, and what can happen to them;
* `Serves`: a stream has a session of a user among its subscribers, or a sender of it;
* `Removed`: the user is in no group, its streams are gone, and no stream that remains serves it;
* `removed_iff`: after a deletion this holds exactly if the user was served by streams of its own
  list only.
-/

open Std (ExtTreeMap)

namespace SfuServer

namespace RtcSystem

/-- The connection of a session is closed; a second time changes nothing. -/
def shutOne (s : RtcSystem) (k : ℕ) : RtcSystem := (s.closeStep k).getD s

/-- The loop of `PeerForwardInternal::close`: the first connection that fails to close ends it. -/
def shutAll (fails : ℕ → Bool) : List ℕ → RtcSystem → RtcSystem
  | [], s => s
  | k :: ks, s => if fails k then s.shutOne k else shutAll fails ks (s.shutOne k)

/-- `PeerForwardInternal::close`: the connection of the publisher is closed, and then those of
the subscribers. -/
def shut (fails : ℕ → Bool) (s : RtcSystem) : RtcSystem :=
  shutAll fails (s.publish.toList ++ s.subscribeGroup) s

/-- The stream has a session of the user among its subscribers, or a sender of the user. -/
def Serves (s : RtcSystem) (id : UInt32) : Prop :=
  (∃ k ∈ s.subscribeGroup, ∃ c, s.sessions[k]? = some c ∧ c.id = id) ∨
    id ∈ s.channels.userSenderMap

instance (s : RtcSystem) (id : UInt32) : Decidable (s.Serves id) :=
  decidable_of_iff ((∃ k ∈ s.subscribeGroup, (s.sessions[k]?.any fun c => c.id == id) = true) ∨
      id ∈ s.channels.userSenderMap)
    (by simp only [Serves, Option.any_eq_true, beq_iff_eq])

end RtcSystem

/-- A room with its WebSocket connections, and the sessions of its streams, by the handles of
the forwards. -/
structure RemovalSystem where
  ws : WsSystem
  streams : ℕ → RtcSystem

/-- What can happen: a step of the WebSocket connections or a request of the room; a step of the
sessions of a forward; a call of `user_delete`, by an exit or by the deletion of the room.  In the
first and the last the argument says which connections fail to close. -/
inductive RemovalAction where
  | ws (a : WsAction) (fails : ℕ → ℕ → Bool)
  | session (h : ℕ) (a : RtcAction)
  | delete (userId : Int32) (token : UInt32) (checkToken : Bool) (fails : ℕ → ℕ → Bool)

namespace RemovalSystem

variable (fnv : List UInt8 → UInt32)

/-- The table of the streams. -/
def table (s : RemovalSystem) : ExtTreeMap String ℕ := s.ws.room.forwarder.streamMap

/-- The forward leaves the table. -/
def Leaves (s : RemovalSystem) (ws : WsSystem) (h : ℕ) : Prop :=
  ∃ x ∈ s.table.toList, x.2 = h ∧ ws.room.forwarder.streamMap[x.1]? ≠ some h

instance (s : RemovalSystem) (ws : WsSystem) (h : ℕ) : Decidable (s.Leaves ws h) :=
  inferInstanceAs (Decidable (∃ x ∈ s.table.toList, _))

/-- The forwards that a step of the room takes out of the table have been closed before, as in
`Forwarder::stream_delete` and `publish_check_tick`. -/
def closing (s : RemovalSystem) (fails : ℕ → ℕ → Bool) (ws : WsSystem) : RemovalSystem :=
  ⟨ws, fun h => if s.Leaves ws h then (s.streams h).shut (fails h) else s.streams h⟩

/-- A step of the WebSocket connections or a request. -/
def wsStep (s : RemovalSystem) (a : WsAction) (fails : ℕ → ℕ → Bool) : Option RemovalSystem :=
  (s.ws.step fnv a).map (s.closing fails)

/-- A step of the sessions of a forward.  Which sessions the requests of publishers and
subscribers set up is left open. -/
def sessionStep (s : RemovalSystem) (h : ℕ) (a : RtcAction) : Option RemovalSystem :=
  ((s.streams h).step a).map fun r => { s with streams := Function.update s.streams h r }

/-- `Room::user_delete`, which needs the groups; the WebSocket connections of a user that is
taken out have lost their membership. -/
def deleteStep (s : RemovalSystem) (userId : Int32) (token : UInt32) (checkToken : Bool)
    (fails : ℕ → ℕ → Bool) : Option RemovalSystem :=
  if s.ws.lock = none then
    let (result, room) := s.ws.room.userDelete userId token checkToken
    some (s.closing fails { s.ws with
      room := room
      sessions := s.ws.sessions.map fun c =>
        if c.Live ∧ c.id = userId.toUInt32 ∧ result = .ok true then { c with evicted := true }
        else c })
  else none

/-- One step of the system. -/
def step (s : RemovalSystem) : RemovalAction → Option RemovalSystem
  | .ws a fails => s.wsStep fnv a fails
  | .session h a => s.sessionStep h a
  | .delete userId token checkToken fails => s.deleteStep userId token checkToken fails

end RemovalSystem

/-- The machine of a room with the sessions of its streams, from the creation of the room on. -/
def removalMachine (fnv : List UInt8 → UInt32) : Machine RemovalSystem RemovalAction where
  init s := (wsMachine fnv).init s.ws ∧ ∀ h, s.streams h = .new
  step := RemovalSystem.step fnv

namespace RemovalSystem

variable {fnv : List UInt8 → UInt32} {s t : RemovalSystem} {a : RemovalAction} {userId : Int32}
  {stream : String} {h k : ℕ}

/-- The forward is that of a stream in the user's list. -/
def Owns (s : RemovalSystem) (userId : Int32) (h : ℕ) : Prop :=
  ∃ stream ∈ s.ws.room.streamsOf userId, s.table[stream]? = some h

/-- What a deletion of the user in the state `s` triggers: the steps of the tasks and the
teardowns of the WebSocket connections, and the steps of the sessions of the forwards that are
deleted, with the callbacks of the connections that it has closed. -/
def Triggers (s : RemovalSystem) (userId : Int32) : RemovalAction → Prop
  | .ws a _ => WsSystem.TaskTurn a ∨ ∃ i, a = .teardown i
  | .session h _ => s.Owns userId h
  | .delete .. => False

/-- The user is in no group, the streams that it listed are gone, and no stream that remains
serves it. -/
structure Removed (s : RemovalSystem) (userId : Int32) (listed : List String) : Prop where
  groups : ∀ name, userId.toUInt32 ∉ s.ws.groups.users name
  streams : ∀ stream ∈ listed, stream ∉ s.table
  sessions : ∀ (stream : String) (h : ℕ), s.table[stream]? = some h →
    ¬ (s.streams h).Serves userId.toUInt32

/-- No stream but those of its own list serves the user. -/
def OnlyOwn (s : RemovalSystem) (userId : Int32) : Prop :=
  ∀ (stream : String) (h : ℕ), s.table[stream]? = some h →
    stream ∉ s.ws.room.streamsOf userId → ¬ (s.streams h).Serves userId.toUInt32

instance (s : RemovalSystem) (userId : Int32) (h : ℕ) : Decidable (s.Owns userId h) :=
  inferInstanceAs (Decidable (∃ stream ∈ s.ws.room.streamsOf userId, s.table[stream]? = some h))

instance (s : RemovalSystem) (userId : Int32) : Decidable (s.OnlyOwn userId) :=
  decidable_of_iff (∀ x ∈ s.table.toList, x.1 ∉ s.ws.room.streamsOf userId →
      ¬ (s.streams x.2).Serves userId.toUInt32)
    ⟨fun hall stream h hh =>
      hall (stream, h) (ExtTreeMap.mem_toList_iff_getElem?_eq_some.mpr hh),
      fun honly x hx => honly x.1 x.2 (ExtTreeMap.mem_toList_iff_getElem?_eq_some.mp hx)⟩

end RemovalSystem

/-! ### Forwards and their names -/

namespace Forwarder

variable {f g : Forwarder} {stream : String} {h : ℕ}

/-- The names that the forwards were set up with. -/
def names (f : Forwarder) : List String := f.forwards.map (·.stream)

/-- Every entry of the table has a forward of its name. -/
def Named (f : Forwarder) : Prop :=
  ∀ (stream : String) (h : ℕ), f.streamMap[stream]? = some h → f.names[h]? = some stream

/-- Two names do not share a forward. -/
lemma Named.eq_of_getElem? (hf : f.Named) {stream' : String} (hs : f.streamMap[stream]? = some h)
    (hs' : f.streamMap[stream']? = some h) : stream = stream' :=
  Option.some.inj ((hf stream h hs).symm.trans (hf stream' h hs'))

/-- Forwards are added, and entries only with their names. -/
lemma Named.of_append (hf : f.Named) {new : List String} (hnames : g.names = f.names ++ new)
    (hmap : ∀ (stream : String) (h : ℕ), g.streamMap[stream]? = some h →
      f.streamMap[stream]? = some h ∨ g.names[h]? = some stream) : g.Named := by
  intro stream h hh
  rcases hmap stream h hh with hold | hnew
  · have hname := hf stream h hold
    have hlt := (List.getElem?_eq_some_iff.mp hname).1
    rw [hnames, List.getElem?_append_left hlt]
    exact hname
  · exact hnew

/-- The forwards stay, and entries are at most removed. -/
lemma Named.of_subset (hf : f.Named) (hnames : g.names = f.names)
    (hmap : ∀ (stream : String) (h : ℕ), g.streamMap[stream]? = some h →
      f.streamMap[stream]? = some h) : g.Named :=
  have hnil : g.names = f.names ++ [] := hnames.trans f.names.append_nil.symm
  hf.of_append hnil fun s k hk => .inl (hmap s k hk)

lemma names_modifyForward {u : PeerForwardInternal → PeerForwardInternal}
    (hu : ∀ w, (u w).stream = w.stream) : (f.modifyForward h u).names = f.names := by
  apply List.ext_getElem?
  intro k
  simp only [names, modifyForward, List.getElem?_map, List.getElem?_modify]
  cases f.forwards[k]? with
  | none => rfl
  | some w =>
      by_cases hk : h = k
      · simp [hk, hu]
      · simp [hk]

lemma names_modify_publish (f : Forwarder) (h : ℕ) (x : Option ℕ) :
    (f.modifyForward h fun w => { w with publish := x }).names = f.names :=
  names_modifyForward fun _ => rfl

lemma names_resetLeaveTime (f : Forwarder) (h : ℕ) : (f.resetLeaveTime h).names = f.names :=
  names_modifyForward fun _ => rfl

lemma names_stampLeaveTime (f : Forwarder) (h : ℕ) (now : ℤ) :
    (f.stampLeaveTime h now).names = f.names :=
  names_modifyForward fun _ => rfl

lemma names_newForward (f : Forwarder) (stream : String) :
    (f.newForward stream).names = f.names ++ [stream] := by
  simp [names, newForward]

lemma names_close : (f.close h).names = f.names := by rw [names, close_forwards, names]

lemma names_setPublish {negotiated : Except AppError Unit} :
    (f.setPublish h negotiated).2.names = f.names := by
  rw [setPublish]
  split_ifs with hslot
  · rfl
  · cases negotiated with
    | error e => rfl
    | ok _ =>
        dsimp only
        split
        · rfl
        · rename_i f' hf'
          rw [setPublishInternal] at hf'
          cases hfill : f.newPeer.fillSlot h f.peers.length with
          | error e =>
              rw [hfill] at hf'
              cases hf'
          | ok g =>
              rw [hfill] at hf'
              obtain ⟨-, rfl⟩ := fillSlot_eq_ok_iff.mp hfill
              cases hf'
              exact (names_resetLeaveTime _ h).trans (names_modify_publish ..)

lemma Named.streamCreate (hf : f.Named) (h : f.streamCreate stream = .ok g) : g.Named := by
  obtain ⟨-, rfl⟩ := streamCreate_eq_ok_iff.mp h
  refine hf.of_append (names_newForward f stream) fun s k hk => ?_
  rw [ExtTreeMap.getElem?_insert] at hk
  split_ifs at hk with hs
  · right
    rw [Std.LawfulEqCmp.compare_eq_iff_eq] at hs
    obtain rfl := Option.some.inj hk
    have hlength : f.forwards.length = f.names.length := by simp [names]
    change (f.newForward stream).names[_]? = _
    rw [names_newForward, hlength, List.getElem?_concat_length, hs]
  · exact .inl hk

/-- A deletion removes its entry. -/
lemma streamDelete_cases (h : f.streamDelete stream = .ok g) :
    g.names = f.names ∧ ∀ s : String,
      g.streamMap[s]? = if s = stream then none else f.streamMap[s]? := by
  have hmap := streamMap_of_streamDelete h
  obtain ⟨k, -, rfl⟩ := streamDelete_eq_ok_iff.mp h
  refine ⟨names_close, fun s => ?_⟩
  rw [hmap, ExtTreeMap.getElem?_erase]
  simp only [Std.LawfulEqCmp.compare_eq_iff_eq, @eq_comm _ stream]

lemma Named.streamDelete (hf : f.Named) (h : f.streamDelete stream = .ok g) : g.Named := by
  obtain ⟨hnames, hmap⟩ := streamDelete_cases h
  refine hf.of_subset hnames fun s k hk => ?_
  rw [hmap] at hk
  split_ifs at hk
  exact hk

lemma Named.publish (hf : f.Named) (stream : String) (negotiated : Except AppError Unit) :
    (f.publish stream negotiated).2.Named := by
  rw [Forwarder.publish]
  split
  · exact hf.of_subset names_setPublish fun s k hk => by rwa [streamMap_setPublish] at hk
  · dsimp only
    have hnames : ((f.newForward stream).setPublish f.forwards.length negotiated).2.names =
        f.names ++ [stream] := names_setPublish.trans (names_newForward f stream)
    have hmap := streamMap_setPublish (f.newForward stream) f.forwards.length negotiated
    split
    · rename_i e g hg
      rw [hg] at hnames hmap
      exact hf.of_append hnames fun s k hk => .inl (by rw [← hk, hmap]; rfl)
    · rename_i peer g hg
      rw [hg] at hnames hmap
      split_ifs
      · exact hf.of_append (names_close.trans hnames) fun s k hk => .inl (by
          rw [← hk, close_streamMap, hmap]
          rfl)
      · refine hf.of_append hnames fun s k hk => ?_
        rw [ExtTreeMap.getElem?_insert] at hk
        split_ifs at hk with hs
        · right
          rw [Std.LawfulEqCmp.compare_eq_iff_eq] at hs
          obtain rfl := Option.some.inj hk
          have hlength : f.forwards.length = f.names.length := by simp [names]
          change g.names[_]? = _
          rw [hnames, hlength, List.getElem?_concat_length, hs]
        · exact .inl (by rw [← hk, hmap]; rfl)

lemma Named.removePublish (hf : f.Named) {peer : ℕ} {now : ℤ}
    (h : f.removePublish h peer now = .ok g) : g.Named := by
  rw [Forwarder.removePublish] at h
  cases hclear : f.clearSlot _ peer with
  | error e =>
      rw [hclear] at h
      cases h
  | ok f' =>
      rw [hclear] at h
      obtain ⟨-, rfl⟩ := clearSlot_eq_ok_iff.mp hclear
      cases h
      exact hf.of_subset ((names_stampLeaveTime _ _ now).trans (names_modify_publish ..))
        fun _ _ hk => hk

lemma names_reapStream (f : Forwarder) (stream : String) (now : ℤ) :
    (f.reapStream stream now).names = f.names := by
  rw [reapStream]
  split
  · rfl
  · split_ifs
    · exact names_close
    · rfl

lemma Named.publishCheckTick (hf : f.Named) (scan reap : String → ℤ) :
    (f.publishCheckTick scan reap).Named := by
  refine hf.of_subset ?_ fun s k hk =>
    ((f.streamMap_publishCheckTick scan reap s k).mp hk).1
  have hloop : ∀ (streams : List String) (g : Forwarder),
      (streams.foldl (fun f s => f.reapStream s (reap s)) g).names = g.names := by
    intro streams
    induction streams with
    | nil => exact fun _ => rfl
    | cons stream streams ih => exact fun g => (ih _).trans (names_reapStream g stream _)
  rw [Forwarder.publishCheckTick]
  split_ifs
  · exact hloop _ f
  · rfl

end Forwarder

namespace Room

variable {fnv : List UInt8 → UInt32} {room : Room}

/-- The loop of `user_delete` over the streams keeps the names, and where it goes through, it
has taken exactly these streams out of the table. -/
lemma deleteStreams_cases (userId : Int32) (streams : List String) (client : Client) (room : Room)
    (hr : room.forwarder.Named) :
    (deleteStreams userId client room streams).2.forwarder.Named ∧
      ((deleteStreams userId client room streams).1 = .ok () → ∀ s : String,
        (deleteStreams userId client room streams).2.forwarder.streamMap[s]? =
          if s ∈ streams then none else room.forwarder.streamMap[s]?) := by
  induction streams generalizing client room with
  | nil => exact ⟨hr, fun _ s => by simp [deleteStreams]⟩
  | cons stream streams ih =>
      rw [deleteStreams]
      cases hf : room.forwarder.streamDelete stream with
      | error e => exact ⟨hr, by simp⟩
      | ok f =>
          have hmap := (Forwarder.streamDelete_cases hf).2
          dsimp only
          cases client.removeStream stream with
          | error e => exact ⟨hr.streamDelete hf, by simp⟩
          | ok client =>
              obtain ⟨hnamed, hrest⟩ := ih client
                ({ room with forwarder := f }.setClient userId client) (hr.streamDelete hf)
              refine ⟨hnamed, fun hok s => ?_⟩
              rw [hrest hok s]
              simp only [setClient, hmap, List.mem_cons]
              by_cases hs : s ∈ streams <;> simp [hs]

/-- **What a deletion takes out of the table**: where it is answered with `true`, exactly the
streams of the user's list. -/
lemma userDelete_cases (hr : room.forwarder.Named) (userId : Int32) (token : UInt32)
    (checkToken : Bool) :
    (room.userDelete userId token checkToken).2.forwarder.Named ∧
      ((room.userDelete userId token checkToken).1 = .ok true → ∀ s : String,
        (room.userDelete userId token checkToken).2.forwarder.streamMap[s]? =
          if s ∈ room.streamsOf userId then none else room.forwarder.streamMap[s]?) := by
  rw [userDelete, streamsOf]
  cases hc : room.clientMap[userId]? with
  | none => exact ⟨hr, by simp⟩
  | some client =>
      dsimp only
      split_ifs
      · exact ⟨hr, by simp⟩
      · have hloop := deleteStreams_cases userId client.getStreams client
          { room with groupManager := room.groupManager.endUser userId.toUInt32 } hr
        split
        · rename_i e room' hroom'
          rw [hroom'] at hloop
          exact ⟨hloop.1, by simp⟩
        · rename_i room' hroom'
          rw [hroom'] at hloop
          exact ⟨hloop.1, fun _ => hloop.2 rfl⟩

/-- **Requests keep the names.** -/
lemma named_serve (hr : room.forwarder.Named) (request : RoomRequest) :
    (room.serve fnv request).forwarder.Named := by
  cases request with
  | join request token =>
      have hjoin : (room.join fnv request.name request.masterKey token).2.forwarder =
          room.forwarder := by
        rw [Room.join]
        split_ifs
        · rfl
        · rfl
        · rfl
        · split <;> rfl
        · split <;> rfl
      rw [serve, roomJoin]
      split_ifs
      · exact hr
      · split <;> rename_i room' hroom' <;> rw [hroom'] at hjoin <;> exact hjoin ▸ hr
  | exit request =>
      have hdelete := (userDelete_cases hr request.userId request.token true).1
      rw [serve, roomExit]
      split_ifs
      · exact hr
      · split <;> rename_i room' hroom' <;> rwa [hroom'] at hdelete
  | create request =>
      rw [serve, SfuServer.create]
      split
      · exact hr
      · split
        · exact hr
        · rename_i f hf
          dsimp only
          split <;> exact hr.streamCreate hf
  | destroy request =>
      rw [serve, SfuServer.destroy]
      split
      · exact hr
      · split
        · exact hr
        · rename_i f hf
          dsimp only
          split <;> exact hr.streamDelete hf
  | whip request negotiated =>
      have hpublish := hr.publish request.stream negotiated
      rw [serve, SfuServer.whip]
      split
      · exact hr
      · split <;> rename_i f hf <;> rw [hf] at hpublish
        · exact hpublish
        · dsimp only
          split <;> exact hpublish
  | depart forward peer now =>
      simp only [serve]
      cases hf : room.forwarder.removePublish forward peer now with
      | error e => exact hr
      | ok f => exact hr.removePublish hf
  | tick scan reap => exact hr.publishCheckTick scan reap

end Room

namespace WsSystem

variable {fnv : List UInt8 → UInt32} {s t : WsSystem} {a : WsAction}

/-- Only requests change the forwarder. -/
lemma forwarder_step (ha : ∀ request, a ≠ .request request) (h : s.step fnv a = some t) :
    t.room.forwarder = s.room.forwarder := by
  cases a with
  | request request => exact absurd rfl (ha request)
  | connect sharedKey userId token stream =>
      rw [connect_cases h]
  | join i =>
      simp only [step, joinStep, Option.bind_eq_some_iff, Option.ite_none_right_eq_some] at h
      obtain ⟨c, -, -, h⟩ := h
      split at h <;> cases h
      rfl
  | subscribe i =>
      simp only [step, subscribeStep, Option.bind_eq_some_iff, Option.ite_none_right_eq_some] at h
      obtain ⟨c, -, -, h⟩ := h
      split at h <;> cases h <;> rfl
  | opened i =>
      simp only [step, openedStep, Option.bind_eq_some_iff, Option.ite_none_right_eq_some] at h
      obtain ⟨c, -, -, g, -, h⟩ := h
      split at h <;> cases h <;> rfl
  | message i binary =>
      simp only [step, messageStep, Option.bind_eq_some_iff, Option.ite_none_right_eq_some] at h
      obtain ⟨c, -, -, g, -, h⟩ := h
      split at h
      · split at h <;> cases h <;> rfl
      · obtain ⟨u, -, h⟩ := Option.bind_eq_some_iff.mp h
        split at h <;> cases h <;> rfl
      · cases h
        rfl
      · cases h
        rfl
      · cases h
  | hangup i =>
      simp only [step, hangupStep, Option.bind_eq_some_iff, Option.ite_none_right_eq_some] at h
      obtain ⟨c, -, -, h⟩ := h
      cases h
      rfl
  | deliver i written =>
      simp only [step, deliverStep, Option.bind_eq_some_iff] at h
      obtain ⟨c, -, k, -, g, -, u, -, h⟩ := h
      split at h
      · split_ifs at h <;> cases h <;> rfl
      · cases h
        rfl
      · split_ifs at h
        cases h
        rfl
  | select i =>
      simp only [step, selectStep, Option.bind_eq_some_iff, Option.ite_none_right_eq_some] at h
      obtain ⟨c, -, -, h⟩ := h
      split at h <;> cases h <;> rfl
  | teardown i =>
      simp only [step, teardownStep, Option.bind_eq_some_iff, Option.ite_none_right_eq_some] at h
      obtain ⟨c, -, -, h⟩ := h
      cases h
      rfl
  | pipe group k =>
      simp only [step, pipeStep, Option.bind_eq_some_iff] at h
      obtain ⟨g, -, g', -, h⟩ := h
      cases h
      rfl
  | cancel group k =>
      simp only [step, cancelStep, Option.bind_eq_some_iff] at h
      obtain ⟨g, -, g', -, h⟩ := h
      cases h
      rfl

end WsSystem

namespace RemovalSystem

variable {fnv : List UInt8 → UInt32} {s t r v : RemovalSystem} {a : RemovalAction}
  {userId : Int32} {stream : String} {h : ℕ}

/-! ### What holds in every room -/

/-- The groups are well formed, a handler that has joined holds their lock, and the entries of
the table have forwards of their names. -/
structure Inv (s : RemovalSystem) : Prop where
  wf : s.ws.groups.Wf
  locked : s.ws.Locked
  named : s.ws.room.forwarder.Named

lemma inv_init (h0 : (removalMachine fnv).init s) : s.Inv := by
  obtain ⟨hws, -⟩ := h0
  obtain ⟨hgroups, hsessions⟩ := WsSystem.groups_of_init hws
  obtain ⟨⟨_, _, _, _, _, _, _, _, _, hroom⟩, -⟩ := hws
  refine ⟨hgroups ▸ GroupsManager.wf_new, ⟨by simp [hsessions], by simp [hsessions]⟩, ?_⟩
  intro stream h hh
  rw [hroom] at hh
  simp [Room.new, Forwarder.new] at hh

/-- What a deletion does to the room and its connections. -/
lemma deleteStep_cases {token : UInt32} {checkToken : Bool} {fails : ℕ → ℕ → Bool}
    (hst : s.deleteStep userId token checkToken fails = some t) : s.ws.lock = none ∧
      t.ws.lock = none ∧ t.ws.room = (s.ws.room.userDelete userId token checkToken).2 ∧
      (∀ (i : ℕ) (d : Session), t.ws.sessions[i]? = some d →
        ∃ c, s.ws.sessions[i]? = some c ∧ (d = c ∨ c.Live ∧ d = { c with evicted := true })) ∧
      t = s.closing fails t.ws := by
  simp only [deleteStep, Option.ite_none_right_eq_some, Option.some.injEq] at hst
  obtain ⟨hlock, rfl⟩ := hst
  refine ⟨hlock, hlock, rfl, fun i d hd => ?_, rfl⟩
  simp only [closing, List.getElem?_map, Option.map_eq_some_iff] at hd
  obtain ⟨c, hc, rfl⟩ := hd
  split_ifs with hevict
  · exact ⟨c, hc, .inr ⟨hevict.1, rfl⟩⟩
  · exact ⟨c, hc, .inl rfl⟩

/-- A deletion leaves no handler between its join and its subscription. -/
lemma locked_delete {token : UInt32} {checkToken : Bool} {fails : ℕ → ℕ → Bool}
    (hs : s.ws.Locked) (hst : s.deleteStep userId token checkToken fails = some t) :
    t.ws.Locked := by
  obtain ⟨hlock, -, -, hsessions, -⟩ := deleteStep_cases hst
  constructor
  · intro i d hd hjoined
    obtain ⟨c, hc, rfl | ⟨-, rfl⟩⟩ := hsessions i d hd
    · exact absurd hjoined (hs.not_joined hlock hc)
    · exact absurd (show c.phase = .joined from hjoined) (hs.not_joined hlock hc)
  · intro i d hd hevicted
    obtain ⟨c, hc, rfl | ⟨hlive, rfl⟩⟩ := hsessions i d hd
    · exact hs.evicted i _ hc hevicted
    · intro hup
      change c.phase = .upgrading at hup
      rcases hlive with hphase | hphase | hphase <;> rw [hphase] at hup <;> cases hup

/-- Every step keeps the room in shape. -/
lemma inv_step (hs : s.Inv) (hst : s.step fnv a = some t) : t.Inv := by
  cases a with
  | ws a fails =>
      obtain ⟨ws, hws, rfl⟩ := Option.map_eq_some_iff.mp hst
      refine ⟨WsSystem.wf_step hs.wf hws, WsSystem.locked_step hs.wf hs.locked hws, ?_⟩
      change ws.room.forwarder.Named
      by_cases ha : ∀ request, a ≠ .request request
      · rw [WsSystem.forwarder_step ha hws]
        exact hs.named
      · push Not at ha
        obtain ⟨request, rfl⟩ := ha
        simp only [WsSystem.step, WsSystem.requestStep, Option.ite_none_left_eq_some,
          Option.some.injEq] at hws
        obtain ⟨-, rfl⟩ := hws
        exact Room.named_serve hs.named request
  | session h a =>
      obtain ⟨r, -, rfl⟩ := Option.map_eq_some_iff.mp hst
      exact ⟨hs.wf, hs.locked, hs.named⟩
  | delete userId token checkToken fails =>
      obtain ⟨-, -, hroom, -, -⟩ := deleteStep_cases hst
      refine ⟨?_, locked_delete hs.locked hst, ?_⟩
      · rw [WsSystem.groups, hroom, groupManager_userDelete]
        exact hs.wf.endUser _
      · rw [hroom]
        exact (Room.userDelete_cases hs.named userId token checkToken).1

/-! ### After a deletion -/

/-- Which forwards leave the table. -/
lemma leaves_iff {ws : WsSystem} : s.Leaves ws h ↔ ∃ stream : String, s.table[stream]? = some h ∧
    ws.room.forwarder.streamMap[stream]? ≠ some h := by
  constructor
  · rintro ⟨⟨stream, k⟩, hmem, rfl, hne⟩
    exact ⟨stream, ExtTreeMap.mem_toList_iff_getElem?_eq_some.mp hmem, hne⟩
  · rintro ⟨stream, hh, hne⟩
    exact ⟨(stream, h), ExtTreeMap.mem_toList_iff_getElem?_eq_some.mpr hh, rfl, hne⟩

/-- What holds from a deletion of the user in the state `s` on: the user is in no group, the
streams of its list are gone from the table, and the other forwards are as they were. -/
structure Deleted (s : RemovalSystem) (userId : Int32) (t : RemovalSystem) : Prop where
  wf : t.ws.groups.Wf
  locked : t.ws.Locked
  groups : ∀ name, userId.toUInt32 ∉ t.ws.groups.users name
  table : ∀ stream : String, t.table[stream]? =
    if stream ∈ s.ws.room.streamsOf userId then none else s.table[stream]?
  streams : ∀ h, ¬ s.Owns userId h → t.streams h = s.streams h

lemma deleted_of_step {token : UInt32} {checkToken : Bool} {fails : ℕ → ℕ → Bool} (hs : s.Inv)
    (hst : s.deleteStep userId token checkToken fails = some t)
    (hok : (s.ws.room.userDelete userId token checkToken).1 = .ok true) : s.Deleted userId t := by
  have hstep : s.step (fun _ => 0) (.delete userId token checkToken fails) = some t := hst
  have ht : t.Inv := inv_step hs hstep
  obtain ⟨-, -, hroom, -, hclosing⟩ := deleteStep_cases hst
  have hmap : ∀ stream : String, t.table[stream]? =
      if stream ∈ s.ws.room.streamsOf userId then none else s.table[stream]? := by
    intro stream
    rw [table, hroom]
    exact (Room.userDelete_cases hs.named userId token checkToken).2 hok stream
  refine ⟨ht.wf, ht.locked, fun name => ?_, hmap, fun h howns => ?_⟩
  · rw [WsSystem.groups, hroom, groupManager_userDelete]
    intro hmem
    exact ((GroupsManager.mem_users_endUser hs.wf _ name _).mp hmem).2 rfl
  · rw [hclosing]
    refine if_neg fun hleaves => howns ?_
    obtain ⟨stream, hh, hne⟩ := leaves_iff.mp hleaves
    change t.table[stream]? ≠ some h at hne
    rw [hmap] at hne
    split_ifs at hne with hlisted
    · exact ⟨stream, hlisted, hh⟩
    · exact absurd hh hne

/-- What a deletion triggers leaves the user outside. -/
lemma Deleted.step (ht : s.Deleted userId t) (ha : s.Triggers userId a)
    (hst : t.step fnv a = some r) : s.Deleted userId r := by
  cases a with
  | ws a fails =>
      obtain ⟨ws, hws, rfl⟩ := Option.map_eq_some_iff.mp hst
      have hrequest : ∀ request, a ≠ .request request := by
        rintro request rfl
        rcases ha with ha | ⟨i, ha⟩
        · exact ha
        · cases ha
      have hforwarder := WsSystem.forwarder_step hrequest hws
      refine ⟨WsSystem.wf_step ht.wf hws, WsSystem.locked_step ht.wf ht.locked hws,
        fun name hmem => ?_, fun stream => ?_, fun h howns => ?_⟩
      · rcases ha with ha | ⟨i, rfl⟩
        · rw [closing, (WsSystem.turned_of_step ht.wf ht.locked ha hws).users] at hmem
          exact ht.groups name hmem
        · obtain ⟨c, -, -, -, -, -, -, husers⟩ := WsSystem.teardown_cases ht.wf hws
          exact ht.groups name ((husers name _).mp hmem).1
      · rw [← ht.table stream]
        change ws.room.forwarder.streamMap[stream]? = _
        rw [hforwarder]
        rfl
      · -- no forward leaves the table
        rw [← ht.streams h howns]
        refine if_neg fun hleaves => ?_
        obtain ⟨stream, hh, hne⟩ := leaves_iff.mp hleaves
        rw [hforwarder] at hne
        exact hne hh
  | session k a =>
      obtain ⟨q, -, rfl⟩ := Option.map_eq_some_iff.mp hst
      refine ⟨ht.wf, ht.locked, ht.groups, ht.table, fun h howns => ?_⟩
      have hne : h ≠ k := by
        rintro rfl
        exact howns ha
      exact (Function.update_of_ne hne _ _).trans (ht.streams h howns)
  | delete userId token checkToken fails => exact ha.elim

/-- The same after any number of such steps. -/
lemma Deleted.exec {as : List RemovalAction} (ht : s.Deleted userId t)
    (has : ∀ a ∈ as, s.Triggers userId a) (hst : (removalMachine fnv).exec t as = some r) :
    s.Deleted userId r := by
  induction as generalizing t with
  | nil =>
      rw [Machine.exec_nil, Option.some.injEq] at hst
      exact hst ▸ ht
  | cons a as ih =>
      obtain ⟨ha, has⟩ := List.forall_mem_cons.mp has
      obtain ⟨q, hq, hst⟩ := Option.bind_eq_some_iff.mp hst
      exact ih (ht.step ha hq) has hst

/-- What is left of a user that has been deleted is what streams of others had of it. -/
lemma Deleted.removed_iff_onlyOwn (hs : s.Inv) (ht : s.Deleted userId t) :
    t.Removed userId (s.ws.room.streamsOf userId) ↔ s.OnlyOwn userId := by
  -- a forward that remains is that of no stream of the list
  have hnot : ∀ {stream : String} {h : ℕ}, s.table[stream]? = some h →
      stream ∉ s.ws.room.streamsOf userId → ¬ s.Owns userId h := by
    rintro stream h hh hunlisted ⟨stream', hlisted, hh'⟩
    exact hunlisted (hs.named.eq_of_getElem? hh hh' ▸ hlisted)
  constructor
  · intro hremoved stream h hh hunlisted hserves
    refine hremoved.sessions stream h ?_ ?_
    · rw [ht.table, if_neg hunlisted]
      exact hh
    · rwa [ht.streams h (hnot hh hunlisted)]
  · intro honly
    refine ⟨ht.groups, fun stream hlisted hmem => ?_, fun stream h hh hserves => ?_⟩
    · rw [ExtTreeMap.mem_iff_isSome_getElem?, ht.table, if_pos hlisted] at hmem
      cases hmem
    · rw [ht.table] at hh
      split_ifs at hh with hlisted
      rw [ht.streams h (hnot hh hlisted)] at hserves
      exact honly stream h hh hlisted hserves

/-- **When a deletion is complete**: after any run, a call of `user_delete` that is answered with
`true`, and what it triggers, the user is in no group, its streams are gone, and no stream that
remains serves it, if and only if no stream but those of its own list served it before. -/
theorem removed_iff (fnv : List UInt8 → UInt32) {s t r v : RemovalSystem}
    {as bs : List RemovalAction} {userId : Int32} {token : UInt32} {checkToken : Bool}
    {fails : ℕ → ℕ → Bool} (h0 : (removalMachine fnv).init s)
    (hst : (removalMachine fnv).exec s as = some t)
    (hdelete : (removalMachine fnv).step t (.delete userId token checkToken fails) = some r)
    (hok : (t.ws.room.userDelete userId token checkToken).1 = .ok true)
    (hrv : (removalMachine fnv).exec r bs = some v) (hbs : ∀ a ∈ bs, t.Triggers userId a) :
    v.Removed userId (t.ws.room.streamsOf userId) ↔ t.OnlyOwn userId := by
  have ht : t.Inv := Machine.invariant_exec (I := Inv) (fun _ _ _ hr => inv_step hr)
    (inv_init h0) hst
  exact ((deleted_of_step ht hdelete hok).exec hbs hrv).removed_iff_onlyOwn ht

/-- The room after an exit request with the right shared key. -/
lemma serve_exit {room : Room} {request : ExitRequest}
    (hkey : room.authSharedKey fnv request.sharedKey = true) :
    room.serve fnv (.exit request) =
      (room.userDelete request.userId request.token true).2 := by
  simp only [Room.serve, roomExit, hkey, Bool.not_true, Bool.false_eq_true, if_false]
  split <;> rename_i room' hroom' <;> rw [hroom']

/-- An exit request with the right shared key is a deletion with a checked token. -/
lemma step_exit (s : RemovalSystem) {request : ExitRequest}
    (hkey : s.ws.room.authSharedKey fnv request.sharedKey = true) (fails : ℕ → ℕ → Bool) :
    s.step fnv (.ws (.request (.exit request)) fails) =
      s.step fnv (.delete request.userId request.token true fails) := by
  have hevicts : ∀ c : Session, (c.Live ∧
      WsSystem.exits fnv s.ws.room (.exit request) c.id = true) ↔ c.Live ∧
        c.id = request.userId.toUInt32 ∧
          (s.ws.room.userDelete request.userId request.token true).1 = .ok true := by
    intro c
    simp only [WsSystem.exits, hkey, Bool.and_true, Bool.and_eq_true, beq_iff_eq,
      decide_eq_true_eq, @eq_comm _ c.id]
  simp only [step, wsStep, WsSystem.step, WsSystem.requestStep, WsSystem.usesGroups, true_and,
    deleteStep, ne_eq, ite_not, hevicts, serve_exit hkey]
  split_ifs <;> rfl

/-- The small room without connections and sessions. -/
def small : RemovalSystem := ⟨WsSystem.small, fun _ => .new⟩

lemma init_small : (removalMachine fnv1a).init small := ⟨WsSystem.init_small, fun _ => rfl⟩

/-- Every connection can be closed. -/
def noneFails : ℕ → ℕ → Bool := fun _ _ => false

/-- Two clients, the first of whom is connected to a group, and creates and publishes a stream,
with a data channel. -/
def publishing : List RemovalAction :=
  (WsSystem.connected ++ [WsAction.request (.create ⟨0, 7, "a", "key"⟩)]).map (.ws · noneFails) ++
    [.join 0 .publisher, .setPublish 0, .register 0].map (.session 0)

/-- The callback of the connection of the publisher. -/
def leaving : List RtcAction := [.notice 0, .leave 0, .remove 0]

/-- The first client, who publishes a stream of its own, is taken out of the room. -/
theorem removed_publishing : ∃ t r v, (removalMachine fnv1a).exec small publishing = some t ∧
    (removalMachine fnv1a).step t (.delete 0 7 true noneFails) = some r ∧
      (removalMachine fnv1a).exec r (leaving.map (.session 0)) = some v ∧
        v.Removed 0 (t.ws.room.streamsOf 0) := by
  obtain ⟨t, ht⟩ : ∃ t, (removalMachine fnv1a).exec small publishing = some t := ⟨_, rfl⟩
  obtain ⟨r, hr⟩ : ∃ r, (removalMachine fnv1a).step t (.delete 0 7 true noneFails) = some r := by
    cases ht
    exact ⟨_, rfl⟩
  obtain ⟨v, hv⟩ : ∃ v, (removalMachine fnv1a).exec r (leaving.map (.session 0)) = some v := by
    cases ht
    cases hr
    exact ⟨_, rfl⟩
  refine ⟨t, r, v, ht, hr, hv, (removed_iff fnv1a init_small ht hr ?_ hv ?_).mpr ?_⟩
  · cases ht
    decide
  · intro a ha
    obtain ⟨b, -, rfl⟩ := List.mem_map.mp ha
    cases ht
    change Owns _ 0 0
    decide
  · cases ht
    decide

/-- The second client, who has subscribed to the stream of the first, is taken out of the room:
the stream keeps its session and its sender. -/
theorem not_removed_publishing :
    ¬ ∀ (s t r v : RemovalSystem) (as bs : List RemovalAction) (userId : Int32) (token : UInt32)
      (checkToken : Bool) (fails : ℕ → ℕ → Bool), (removalMachine fnv1a).init s →
        (removalMachine fnv1a).exec s as = some t →
          (removalMachine fnv1a).step t (.delete userId token checkToken fails) = some r →
            (t.ws.room.userDelete userId token checkToken).1 = .ok true →
              (removalMachine fnv1a).exec r bs = some v → (∀ a ∈ bs, t.Triggers userId a) →
                v.Removed userId (t.ws.room.streamsOf userId) := by
  intro h
  obtain ⟨t, ht⟩ : ∃ t, (removalMachine fnv1a).exec small (publishing ++
      [.join 1 .subscriber, .register 1].map (.session 0)) = some t := ⟨_, rfl⟩
  obtain ⟨r, hr⟩ : ∃ r, (removalMachine fnv1a).step t (.delete 1 8 true noneFails) = some r := by
    cases ht
    exact ⟨_, rfl⟩
  have hremoved := h small t r r _ [] 1 8 true noneFails init_small ht hr
    (by cases ht; decide) rfl (by simp)
  cases ht
  cases hr
  exact hremoved.sessions "a" 0 (by decide) (by decide)

end RemovalSystem

end SfuServer
