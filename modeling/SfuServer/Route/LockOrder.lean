import SfuServer.Route.Concurrent

/-!
The order in which the tasks of the server take its locks, and the deadlocks that it leaves.

Above a stream there is one order, from the table of the rooms down to the groups and to the table
of the streams.  The calls of a stream take its locks as `Takes` says, which is no order.

* `ServerLock.level`, `ServerLock.Takes`: the order, and what a task holds when it takes a lock;
* `Clear n`: a program that can run where locks below the level `n` are held;
  `clear_prog` of all tasks;
* `Crossed`: a task of a stream waits for the slot of the publisher while it holds the group of the
  subscribers, and another one for the group while it holds the slot;
* `deadlock_iff_stream`: the server has a deadlock exactly if a stream is crossed, and else some
  task can go on.
-/

namespace SfuServer

open LockProg
open Std (ExtTreeMap)

variable {O : Type} [DecidableEq O]

namespace ServerLock

/-- The place of a lock in the order. -/
def level : ServerLock O → ℕ
  | .rooms => 0
  | .clientMap _ => 1
  | .groupManager _ => 2
  | .inner _ => 3
  | .usersGroup _ => 4
  | .group _ .innerUser => 5
  | .group _ .userTasks => 6
  | .group _ .userSenders => 7
  | .forwarder _ => 8
  | .streamMap _ => 9
  | .streams _ => 10
  | .trackBinding _ => 11
  | .publishLock _ => 12
  | .stream .. => 13

/-- The lock `l` is taken while `held` are held: those of a lower level, and beside them those after
which the calls of its stream take it. -/
def Takes (held : List (ServerLock O)) (l : ServerLock O) : Prop :=
  ∀ l' ∈ held, l'.level < l.level ∨
    ∃ s x xs, l = .stream s x ∧ StreamProg.Takes xs x ∧ (∀ y ∈ xs, .stream s y ∈ held) ∧
      ∃ y ∈ xs, l' = .stream s y

omit [DecidableEq O] in
lemma level_le (l : ServerLock O) : l.level ≤ 13 := by
  cases l with
  | group g l => cases l <;> simp [level]
  | rooms | clientMap | groupManager | inner | usersGroup | forwarder | streamMap | streams
  | trackBinding | publishLock | stream => simp [level]

end ServerLock

namespace StreamProg

variable {α : Type}

/-- One lock of a stream, and one look at what is behind it. -/
lemma obeys_withLock_read (l : StreamLock) (m : LockMode) (f : StreamData → α) :
    (withLock l m (read f)).Obeys Takes [] := by
  simp [withLock, Takes.alone]

lemma obeys_withLock_modify (l : StreamLock) (m : LockMode) (f : StreamData → StreamData) :
    (withLock l m (modify f)).Obeys Takes [] := by
  simp [withLock, Takes.alone]

lemma obeys_publishIsSome : publishIsSome.Obeys Takes [] := by
  simp [publishIsSome, Takes.alone]

lemma obeys_publishIsOk (o : SubscribeOffer) : (publishIsOk o).Obeys Takes [] := by
  simp [publishIsOk, Takes.alone]

lemma obeys_selectKindRid (selected : String → Except AppError Unit) (id : String) :
    (selectKindRid selected id).Obeys Takes [] := by
  refine ⟨.alone _, List.not_mem_nil, fun d => ?_⟩
  dsimp only
  cases d.subscribeGroup.find? fun subscribe => subscribe.id = id with
  | none => exact ⟨List.mem_singleton_self _, rfl⟩
  | some subscribe => exact ⟨List.mem_singleton_self _, rfl⟩

lemma obeys_streamTask (t : StreamTask) : t.prog.Obeys Takes [] := by
  cases t with
  | call c => exact obeys_prog c
  | publishTrackUp track => exact (obeys_withLock_modify ..).bind fun _ => rfl
  | dataChannel id sender => exact (obeys_withLock_modify ..).bind fun _ => rfl
  | addressee user => exact (obeys_withLock_read ..).bind fun _ => rfl

end StreamProg

namespace ServerProg

/-- The program can run where locks below the level `n` are held. -/
def Clear {α : Type} (n : ℕ) (p : ServerProg O α) : Prop :=
  p.Neutral ServerLock.Takes fun l => l.level < n

section Rules

variable {α β : Type} {n m : ℕ} {p : ServerProg O α} {k : α → ServerProg O β}

lemma Clear.mono (hp : Clear n p) (h : Nat.ble m n = true) : Clear m p :=
  Neutral.mono hp fun _ hl => hl.trans_le (Nat.le_of_ble_eq_true h)

lemma clear_return (a : α) : Clear n (return a : ServerProg O α) := neutral_pure a

lemma clear_read (f : ServerData O → α) : Clear n (read f) := neutral_read f

lemma clear_modify (f : ServerData O → ServerData O) : Clear n (modify f) := neutral_modify f

lemma Clear.bind (hp : Clear n p) (hk : ∀ a, Clear n (k a)) : Clear n (p >>= k) :=
  neutral_bind hp hk

/-- A scope of a lock, with what runs within it. -/
lemma Clear.scope {l : ServerLock O} {mode : LockMode} (h : Nat.ble n l.level = true)
    (hp : Clear (l.level + 1) p) : Clear n (withLock l mode p) := by
  have hn := Nat.le_of_ble_eq_true h
  refine neutral_withLock (fun held hheld x hx => .inl ((hheld x hx).trans_le hn)) hn.not_gt
    (Neutral.mono hp fun x hx => ?_)
  rcases hx with rfl | hx
  · exact Nat.lt_succ_self _
  · exact hx.trans_le (hn.trans (Nat.le_succ _))

lemma clear_collect {ι : Type} {f : ι → ServerProg O β} (hf : ∀ i, Clear n (f i)) (is : List ι) :
    Clear n (collect f is) := neutral_collect hf is

lemma clear_each {ε ι : Type} {f : ι → ServerProg O (Except ε Unit)} (hf : ∀ i, Clear n (f i))
    (is : List ι) : Clear n (each f is) := neutral_each hf is

/-- What runs on a stream can run where any locks but those of the streams are held. -/
lemma clear_onStream (s : O) {q : StreamProg α} (hq : q.Obeys StreamProg.Takes []) :
    Clear 13 (onStream s q) := by
  refine neutral_embed (fun x y h => (ServerLock.stream.inj h).2) (fun l => lt_irrefl _)
    (fun held l base hR hbase l' hl' => ?_) hq
  rcases List.mem_append.mp hl' with hl' | hl'
  · obtain ⟨y, hy, rfl⟩ := List.mem_map.mp hl'
    refine .inr ⟨s, l, held, rfl, hR, fun z hz => ?_, y, hy, rfl⟩
    exact List.mem_append_left _ (List.mem_map_of_mem hz)
  · exact .inl (hbase l' hl')

end Rules

/-! ### The operations -/

section Groups

variable (r g : O) (name : String) (user : UInt32)

lemma clear_groupJoin : Clear 5 (groupJoin g user) := by
  refine .scope rfl (.scope rfl (.bind (clear_read _) fun known => ?_))
  split_ifs
  · exact clear_modify _
  · exact .scope rfl (clear_modify _)

lemma clear_groupLeave : Clear 5 (groupLeave g user) := by
  refine .scope rfl (.bind (clear_read _) fun member => ?_)
  split_ifs
  · exact .scope rfl (.scope rfl (clear_modify _))
  · exact clear_return _

lemma clear_groupExists : Clear 3 (groupExists r name) := .scope rfl (clear_read _)

lemma clear_newGroup : Clear 3 (newGroup r g name) :=
  .scope rfl (.bind (clear_modify _) fun _ => clear_modify _)

lemma clear_joinGroup : Clear 3 (joinGroup r name user) := by
  refine .scope rfl (.scope rfl (.bind (clear_read _) fun found => ?_))
  cases found with
  | none => exact clear_return _
  | some g =>
      refine .bind (clear_groupJoin g user) fun _ => ?_
      exact .bind (clear_modify _) fun _ => clear_return _

lemma clear_joinOrCreate : Clear 3 (joinOrCreate r g user name) := by
  refine .bind (clear_groupExists r name) fun known => ?_
  split_ifs
  · exact clear_joinGroup r name user
  · exact .bind (clear_newGroup r g name) fun _ => clear_joinGroup r name user

lemma clear_leaveGroup : Clear 3 (leaveGroup r name user) := by
  refine .scope rfl (.bind (clear_read _) fun found => ?_)
  cases found with
  | none => exact clear_return _
  | some g =>
      refine .bind ((clear_groupLeave g user).mono rfl) fun _ => ?_
      exact .bind (.scope rfl (clear_modify _)) fun _ => clear_return _

lemma clear_initUser : Clear 4 (initUser r user) := .scope rfl (clear_modify _)

lemma clear_endUser : Clear 3 (endUser r user) := by
  refine .bind (.scope rfl ?_) fun names => ?_
  · exact .bind (clear_read _) fun _ => .bind (clear_modify _) fun _ => clear_return _
  · exact .bind (clear_collect (fun name => clear_leaveGroup r name user) names) fun _ =>
      clear_return _

lemma clear_getUserReceiver (receiver : ℕ) : Clear 3 (getUserReceiver r name user receiver) := by
  refine .scope rfl (.bind (clear_read _) fun found => ?_)
  cases found with
  | none => exact clear_return _
  | some g =>
      refine .bind (.scope rfl (clear_read _)) fun handle => ?_
      cases handle with
      | none => exact clear_return _
      | some k => exact .bind (clear_modify _) fun _ => clear_return _

lemma clear_getUserSenderMap : Clear 3 (getUserSenderMap r name) := by
  refine .scope rfl (.bind (clear_read _) fun found => ?_)
  cases found <;> exact clear_return _

end Groups

section Forwarder

variable (o : ServerSurroundings O) (r s c : O) (stream session : String)

lemma clear_addStream : Clear 10 (addStream c stream) := by
  refine .scope rfl (.bind (clear_read _) fun result => ?_)
  cases result with
  | error e => exact clear_return _
  | ok x => exact .bind (clear_modify _) fun _ => clear_return _

lemma clear_removeStream : Clear 10 (removeStream c stream) := by
  refine .scope rfl (.bind (clear_read _) fun result => ?_)
  cases result with
  | error e => exact clear_return _
  | ok x => exact .bind (clear_modify _) fun _ => clear_return _

lemma clear_getStreams : Clear 10 (getStreams c) := .scope rfl (clear_read _)

lemma clear_close : Clear 13 (onStream s (StreamProg.close o.toSurroundings)) :=
  clear_onStream s (StreamProg.obeys_close _)

lemma clear_info : Clear 13 (onStream s (StreamProg.info o.toSurroundings)) :=
  clear_onStream s (StreamProg.obeys_info _)

lemma clear_setPublish : Clear 12 (setPublish o s) := by
  have hsome : Clear 12 (onStream s StreamProg.publishIsSome) :=
    (clear_onStream s StreamProg.obeys_publishIsSome).mono rfl
  refine .bind hsome fun taken => ?_
  split_ifs
  · exact clear_return _
  refine .bind (.scope rfl (clear_return _)) fun _ => .bind hsome fun taken' => ?_
  split_ifs
  · exact clear_return _
  split
  · exact clear_return _
  · cases o.offer.calls.peerComplete with
    | error e => exact clear_return _
    | ok sdp =>
        have hset := clear_onStream s (StreamProg.obeys_setPublish o.toSurroundings o.peer)
        refine .bind (hset.mono rfl) fun result => ?_
        cases result <;> exact clear_return _

lemma clear_layersOf : Clear 13 (layersOf o s) := by
  refine .bind (clear_onStream s (StreamProg.obeys_withLock_read ..)) fun isSvc => ?_
  split_ifs
  · exact .bind (clear_onStream s (StreamProg.obeys_withLock_read ..)) fun _ => clear_return _
  · exact clear_return _

lemma clear_forwardOf : Clear 9 (forwardOf r stream) := .scope rfl (clear_read _)

lemma clear_streamCreate : Clear 9 (streamCreate o r s stream) := by
  refine .scope rfl (.bind (clear_read _) fun known => ?_)
  split_ifs
  · exact clear_return _
  · exact .bind (clear_modify _) fun _ => .bind (clear_modify _) fun _ => clear_return _

lemma clear_streamDelete : Clear 9 (streamDelete o r stream) := by
  refine .scope rfl (.bind (clear_read _) fun found => ?_)
  cases found with
  | none => exact clear_return _
  | some s =>
      refine .bind ((clear_close o s).mono rfl) fun _ => ?_
      exact .bind (clear_modify _) fun _ => clear_return _

lemma clear_isStreamExists : Clear 9 (isStreamExists r stream) := .scope rfl (clear_read _)

lemma clear_layers : Clear 9 (layers o r stream) := by
  refine .bind (clear_forwardOf r stream) fun found => ?_
  cases found with
  | none => exact clear_return _
  | some s => exact (clear_layersOf o s).mono rfl

lemma clear_selectLayer : Clear 9 (selectLayer o r stream session) := by
  refine .bind (clear_forwardOf r stream) fun found => ?_
  cases found with
  | none => exact clear_return _
  | some s => exact (clear_onStream s (StreamProg.obeys_selectKindRid _ _)).mono rfl

lemma clear_enterForward : Clear 9 (enterForward o r s stream) := by
  refine .scope rfl (.bind (clear_read _) fun known => ?_)
  split_ifs
  · exact .bind ((clear_close o s).mono rfl) fun _ => clear_return _
  · exact .bind (clear_modify _) fun _ => clear_return _

lemma clear_virtualPublish : Clear 9 (virtualPublish o r s stream) := by
  refine .bind (clear_forwardOf r stream) fun found => ?_
  cases found with
  | some s => exact clear_return _
  | none =>
      refine .bind (clear_modify _) fun _ => ?_
      cases o.offer.calls.genVirtualPublish with
      | error e => exact clear_return _
      | ok offer => exact clear_enterForward o r s stream

lemma clear_publish : Clear 9 (publish o r s stream) := by
  refine .bind (clear_forwardOf r stream) fun found => ?_
  cases found with
  | some s => exact (clear_setPublish o s).mono rfl
  | none =>
      refine .bind (clear_modify _) fun _ => ?_
      refine .bind ((clear_setPublish o s).mono rfl) fun result => ?_
      cases result with
      | error e => exact clear_return _
      | ok peer => exact clear_enterForward o r s stream

lemma clear_publishIsOk : Clear 9 (publishIsOk o r stream) := by
  refine .bind (clear_forwardOf r stream) fun found => ?_
  cases found with
  | none => exact clear_return _
  | some s =>
      have hok := clear_onStream s (StreamProg.obeys_publishIsOk o.offer)
      exact .bind (hok.mono rfl) fun _ => clear_return _

lemma clear_subscribe : Clear 9 (subscribe o r stream) := by
  refine .bind (clear_forwardOf r stream) fun found => ?_
  cases found with
  | none => exact clear_return _
  | some s =>
      exact (clear_onStream s (StreamProg.obeys_addSubscribe o.offer o.peer)).mono rfl

lemma clear_forwardInfos (streams : List String) : Clear 9 (forwardInfos o r streams) := by
  refine .scope rfl (.bind (clear_read _) fun all => ?_)
  exact clear_collect (fun entry : String × O => (clear_info o entry.2).mono rfl) _

lemma clear_reap (timeout : ℤ) : Clear 10 (reap o timeout r stream) := by
  refine .bind (clear_read _) fun found => ?_
  cases found with
  | none => exact clear_return _
  | some s =>
      refine .bind ((clear_info o s).mono rfl) fun info => ?_
      split_ifs
      · exact .bind ((clear_close o s).mono rfl) fun _ => clear_modify _
      · exact clear_return _

lemma clear_publishCheckTick (order : ExtTreeMap String O → List (String × O))
    (o o' : String → ServerSurroundings O) (timeout : ℤ) :
    Clear 9 (publishCheckTick order o o' timeout r) := by
  refine .bind (.scope rfl (.bind (clear_read _) fun all => ?_)) fun removeStreams => ?_
  · refine .bind (clear_collect (fun entry => ?_) all) fun infos => clear_return _
    exact .bind ((clear_info (o entry.1) entry.2).mono rfl) fun _ => clear_return _
  · split_ifs
    · exact clear_return _
    · refine .scope rfl (.bind (clear_collect (fun stream => ?_) removeStreams) fun _ => ?_)
      · exact clear_reap (o' stream) r stream timeout
      · exact clear_return _

end Forwarder

section Handlers

variable (fnv : List UInt8 → UInt32) (o o' o'' : ServerSurroundings O) (r c s s' g : O)
  (roomId userId : Int32) (token : UInt32) (stream : String) (request : StreamRequest)

lemma clear_join (userName masterKey : String) :
    Clear 1 (join fnv r c userName masterKey token) := by
  refine .scope rfl (.bind (clear_read _) fun result => ?_)
  cases result with
  | panic => exact clear_return _
  | rejected => exact clear_return _
  | joined userId token =>
      refine .bind (clear_modify _) fun _ => .bind (clear_modify _) fun _ => ?_
      exact .bind (.scope rfl ((clear_initUser r _).mono rfl)) fun _ => clear_return _

lemma clear_deleteStream : Clear 8 (deleteStream o r c stream) := by
  refine .bind (.scope rfl ((clear_streamDelete o r stream).mono rfl)) fun result => ?_
  cases result with
  | error e => exact clear_return _
  | ok u => exact (clear_removeStream c stream).mono rfl

lemma clear_userDelete (checkToken : Bool) :
    Clear 1 (userDelete o r userId token checkToken) := by
  refine .bind (.scope rfl (clear_read _)) fun client => ?_
  refine .bind (.scope rfl ((clear_endUser r _).mono rfl)) fun _ => ?_
  cases client with
  | none => exact clear_return _
  | some c =>
      refine .bind (clear_read _) fun refused => ?_
      split_ifs
      · exact clear_return _
      refine .bind ((clear_getStreams c).mono rfl) fun streams => ?_
      have heach := clear_each (fun stream => clear_deleteStream o r c stream) streams
      refine .bind (heach.mono rfl) fun result => ?_
      cases result with
      | error e => exact clear_return _
      | ok u => exact .bind (.scope rfl (clear_modify _)) fun _ => clear_return _

lemma clear_allUserDelete : Clear 1 (allUserDelete o r) := by
  refine .bind (.scope rfl (clear_read _)) fun userIds => clear_each (fun userId => ?_) userIds
  refine .bind (clear_userDelete o r userId 0 false) fun result => ?_
  cases result <;> exact clear_return _

lemma clear_room : Clear 0 (room : ServerProg O _) := .scope rfl (clear_read _)

/-- What keeps the table of the rooms to its end. -/
lemma clear_withRoom {α : Type} {missing : α} {handler : O → RoomSettings → ServerProg O α}
    (h : ∀ r x, Clear 1 (handler r x)) : Clear 0 (withRoom roomId missing handler) := by
  refine .scope rfl (.bind (clear_read _) fun found => ?_)
  cases found with
  | none => exact clear_return _
  | some found => exact h found.1 found.2

lemma clear_roomSpecific (sharedKey : String) :
    Clear 0 (roomSpecific fnv roomId sharedKey : ServerProg O _) := by
  refine clear_withRoom roomId fun r x => ?_
  split_ifs <;> exact clear_return _

lemma clear_createRoom (request : CreateRequest) : Clear 0 (createRoom fnv request roomId r) :=
  .scope rfl (.bind (clear_modify _) fun _ => clear_return _)

lemma clear_roomJoin (request : JoinRequest) :
    Clear 0 (roomJoin fnv roomId request token c) := by
  refine clear_withRoom roomId fun r x => ?_
  split_ifs
  · refine .bind (clear_join fnv r c token _ _) fun result => ?_
    cases result <;> exact clear_return _
  · exact clear_return _

lemma clear_roomExit (request : ExitRequest) : Clear 0 (roomExit fnv o roomId request) := by
  refine clear_withRoom roomId fun r x => ?_
  split_ifs
  · refine .bind (clear_userDelete o r _ _ _) fun result => ?_
    split <;> exact clear_return _
  · exact clear_return _

lemma clear_deleteRoom (request : DeleteRequest) : Clear 0 (deleteRoom fnv o request) := by
  refine clear_withRoom _ fun r x => ?_
  split_ifs
  · refine .bind (clear_allUserDelete o r) fun result => ?_
    cases result with
    | error e => exact clear_return _
    | ok u => exact .bind (clear_modify _) fun _ => clear_return _
  · exact clear_return _

lemma clear_authUser (sharedKey : String) :
    Clear 0 (authUser fnv roomId sharedKey userId token : ServerProg O _) := by
  refine clear_withRoom roomId fun r x => ?_
  split_ifs
  · refine .bind (.scope rfl (clear_read _)) fun client => ?_
    cases client with
    | none => exact clear_return _
    | some c =>
        refine .bind (clear_read _) fun known => ?_
        split_ifs <;> exact clear_return _
  · exact clear_return _

/-- What begins with a look-up of the user, for which the table of the rooms is given up again. -/
lemma clear_withUser {α : Type} {refused : Response → α} {handler : O → O → ServerProg O α}
    (h : ∀ r c, Clear 0 (handler r c)) : Clear 0 (withUser fnv roomId request refused handler) := by
  refine .bind (clear_authUser fnv roomId _ _ _) fun found => ?_
  cases found with
  | error response => exact clear_return _
  | ok found => exact h found.1 found.2

lemma clear_create : Clear 0 (create fnv o roomId request s) := by
  refine clear_withUser fnv roomId request fun r c => .scope rfl ?_
  refine .bind ((clear_streamCreate o r s _).mono rfl) fun result => ?_
  cases result with
  | error e => exact clear_return _
  | ok u =>
      refine .bind ((clear_addStream c _).mono rfl) fun result => ?_
      cases result <;> exact clear_return _

lemma clear_destroy : Clear 0 (destroy fnv o roomId request) := by
  refine clear_withUser fnv roomId request fun r c => .scope rfl ?_
  refine .bind ((clear_streamDelete o r _).mono rfl) fun result => ?_
  cases result with
  | error e => exact clear_return _
  | ok u =>
      refine .bind ((clear_removeStream c _).mono rfl) fun result => ?_
      cases result <;> exact clear_return _

lemma clear_getLayer : Clear 0 (getLayer fnv o roomId request) := by
  refine clear_withUser fnv roomId request fun r c => .scope rfl ?_
  exact .bind ((clear_layers o r _).mono rfl) fun _ => clear_return _

lemma clear_chooseLayer (session : String) :
    Clear 0 (chooseLayer fnv o roomId request session) := by
  refine clear_withUser fnv roomId request fun r c => .scope rfl ?_
  refine .bind ((clear_selectLayer o r _ session).mono rfl) fun result => ?_
  cases result <;> exact clear_return _

lemma clear_infos : Clear 0 (infos fnv o roomId request) := by
  refine clear_withUser fnv roomId request fun r c => .bind (clear_read _) fun known => ?_
  split_ifs
  · refine .bind ((clear_getStreams c).mono rfl) fun streams => ?_
    refine .bind (.scope rfl ((clear_forwardInfos o r streams).mono rfl)) fun _ => clear_return _
  · exact clear_return _

/-- What takes a lock before it gives up the table of the rooms. -/
lemma clear_handOver {α : Type} {l : O → ServerLock O} {panic : α} {upgraded : O → ServerProg O α}
    (hl : ∀ r, 0 < (l r).level) (h : ∀ r, Clear ((l r).level + 1) (upgraded r)) :
    Clear 0 (handOver l roomId panic upgraded) := by
  refine neutral_lock_bind (fun held hheld x hx => absurd (hheld x hx) (Nat.not_lt_zero _))
    (lt_irrefl _) ?_
  refine gives_bind (neutral_read _) fun found => ?_
  cases found with
  | none => exact gives_unlock_bind (neutral_pure _)
  | some r =>
      refine gives_handOver (fun held hheld x hx => .inl ?_) ?_ ?_
      · rcases hheld x hx with rfl | hx
        · exact hl r
        · exact absurd hx (Nat.not_lt_zero _)
      · rintro (heq | hlt)
        · exact absurd (heq ▸ hl r) (lt_irrefl _)
        · exact Nat.not_lt_zero _ hlt
      · refine gives_bind (Neutral.mono (h r) fun x hx => ?_) fun a =>
          gives_unlock_bind (neutral_pure a)
        rcases hx with rfl | hx
        · exact Nat.lt_succ_self _
        · exact absurd hx (Nat.not_lt_zero _)

lemma clear_whip : Clear 0 (whip fnv o roomId request s) := by
  refine clear_withUser fnv roomId request fun r c => ?_
  refine .bind (clear_handOver roomId (fun r => Nat.succ_pos _) fun r => ?_) fun published => ?_
  · exact .bind ((clear_publish o r s _).mono rfl) fun _ => clear_return _
  · cases published with
    | none => exact clear_return _
    | some peer => exact .bind ((clear_addStream c _).mono rfl) fun _ => clear_return _

lemma clear_awaitPublish (turns : ℕ) : Clear 9 (awaitPublish o r stream turns) := by
  induction turns with
  | zero => exact clear_return _
  | succ turns ih =>
      refine .bind (clear_publishIsOk o r stream) fun result => ?_
      split
      · exact clear_return _
      · exact clear_return _
      · exact ih

lemma clear_virtualHost : Clear 8 (virtualHost o o' r s s' stream) := by
  refine .scope rfl (.bind ((clear_isStreamExists r stream).mono rfl) fun known => ?_)
  split_ifs
  · exact clear_return _
  refine .bind ((clear_virtualPublish o r s stream).mono rfl) fun result => ?_
  cases result with
  | error e => exact clear_return _
  | ok peer =>
      refine .bind ((clear_publish o' r s' stream).mono rfl) fun result => ?_
      cases result <;> exact clear_return _

lemma clear_whep (turns : ℕ) : Clear 0 (whep fnv o o' o'' roomId request s s' turns) := by
  refine clear_withUser fnv roomId request fun r c => ?_
  refine .bind ((clear_virtualHost o o' r s s' _).mono rfl) fun hosted => ?_
  cases hosted with
  | error e => exact clear_return _
  | ok u =>
      refine .bind (clear_handOver roomId (fun r => Nat.succ_pos _) fun r => ?_)
        fun subscribed => ?_
      · refine .bind ((clear_awaitPublish o'' r _ turns).mono rfl) fun result => ?_
        cases result with
        | error e => exact clear_return _
        | ok u => exact .bind ((clear_subscribe o'' r _).mono rfl) fun _ => clear_return _
      · cases subscribed <;> exact clear_return _

lemma clear_connect (receiver : ℕ) : Clear 0 (connect fnv roomId request g receiver) := by
  refine clear_withUser fnv roomId request fun r c => ?_
  refine clear_handOver roomId (fun r => Nat.succ_pos _) fun r => ?_
  refine .bind ((clear_initUser r _).mono rfl) fun _ => ?_
  refine .bind ((clear_joinOrCreate r g _ _).mono rfl) fun joined => ?_
  cases joined with
  | error e => exact clear_return _
  | ok g =>
      refine .bind ((clear_getUserReceiver r _ _ receiver).mono rfl) fun found => ?_
      split
      · exact clear_return _
      · exact clear_return _
      · exact .bind ((clear_getUserSenderMap r _).mono rfl) fun _ => clear_return _

lemma clear_disconnect (id : UInt32) : Clear 0 (disconnect roomId stream id : ServerProg O _) := by
  refine clear_withRoom roomId fun r x => ?_
  exact .bind (.scope rfl ((clear_leaveGroup r stream id).mono rfl)) fun _ => clear_return _

lemma clear_unicast (user : UInt32) (data : Bytes) : Clear 0 (unicast g user data) :=
  .scope rfl (clear_modify _)

lemma clear_bindTrack (b : O) : Clear 0 (bindTrack b s) :=
  .scope rfl ((clear_onStream s (StreamProg.obeys_withLock_read ..)).mono rfl)

lemma clear_forwardFeedback (b : O) (messages : ℕ) : Clear 0 (forwardFeedback b s messages) := by
  have htracks := clear_onStream s (StreamProg.obeys_withLock_read .publishTracks .read fun d =>
    d.publishTracks)
  exact .scope rfl (.bind (clear_collect (fun _ => htracks.mono rfl) _) fun _ => clear_return _)

end Handlers

/-- **Every task** takes its locks in the order, and gives up all of them. -/
theorem clear_prog (fnv : List UInt8 → UInt32) (c : ServerCall O) : Clear 0 (c.prog fnv) := by
  cases c with
  | room => exact clear_room.bind fun _ => clear_return _
  | roomSpecific roomId sharedKey =>
      exact (clear_roomSpecific fnv roomId sharedKey).bind fun _ => clear_return _
  | createRoom request roomId r =>
      exact (clear_createRoom fnv r roomId request).bind fun _ => clear_return _
  | roomJoin roomId request token c =>
      exact (clear_roomJoin fnv c roomId token request).bind fun _ => clear_return _
  | roomExit o roomId request =>
      exact (clear_roomExit fnv o roomId request).bind fun _ => clear_return _
  | deleteRoom o request => exact (clear_deleteRoom fnv o request).bind fun _ => clear_return _
  | create o roomId request s =>
      exact (clear_create fnv o s roomId request).bind fun _ => clear_return _
  | destroy o roomId request =>
      exact (clear_destroy fnv o roomId request).bind fun _ => clear_return _
  | getLayer o roomId request =>
      exact (clear_getLayer fnv o roomId request).bind fun _ => clear_return _
  | chooseLayer o roomId request session =>
      exact (clear_chooseLayer fnv o roomId request session).bind fun _ => clear_return _
  | infos o roomId request => exact (clear_infos fnv o roomId request).bind fun _ => clear_return _
  | whip o roomId request s => exact clear_whip fnv o s roomId request
  | whep o o' o'' roomId request s s' turns =>
      exact clear_whep fnv o o' o'' s s' roomId request turns
  | connect roomId request g receiver => exact clear_connect fnv g roomId request receiver
  | disconnect roomId stream id => exact clear_disconnect roomId stream id
  | unicast g user data => exact (clear_unicast g user data).bind fun _ => clear_return _
  | publishCheckTick order o o' timeout r =>
      exact ((clear_publishCheckTick r order o o' timeout).mono rfl).bind fun _ => clear_return _
  | bindTrack b s => exact (clear_bindTrack s b).bind fun _ => clear_return _
  | forwardFeedback b s messages =>
      exact (clear_forwardFeedback s b messages).bind fun _ => clear_return _
  | onStream s t =>
      have ht := clear_onStream s (StreamProg.obeys_streamTask t)
      exact (ht.mono rfl).bind fun _ => clear_return _

/-! ### Deadlocks -/

section Deadlock

variable [Fintype O] {fnv : List UInt8 → UInt32} {t : ServerSystem O}

/-- On the stream `s` a task waits for the slot of the publisher while it holds the group of the
subscribers, and another one for the group while it holds the slot. -/
def Crossed (t : ServerSystem O) (s : O) : Prop :=
  t.WaitsHolding (.stream s .publish) (.stream s .subscribeGroup) ∧
    t.WaitsHolding (.stream s .subscribeGroup) (.stream s .publish)

omit [DecidableEq O] [Fintype O] in
lemma deadlock_of_crossed {s : O} (h : Crossed t s) : Deadlock t.locks := by
  obtain ⟨⟨i, hi, hi'⟩, c, hc, hc'⟩ := h
  have hic : BlockedBy t.locks i c := ⟨.stream s .publish, hi, .inl hc'⟩
  have hci : BlockedBy t.locks c i := ⟨.stream s .subscribeGroup, hc, .inl hi'⟩
  exact ⟨i, .head hic (.single hci)⟩

open Classical in
/-- A rank of the locks, where no stream is crossed: on a stream on which a task waits for the slot
with the group in its hands no task waits the other way round. -/
noncomputable def rank (t : ServerSystem O) : ServerLock O → ℕ
  | .stream s x =>
      13 + if t.WaitsHolding (.stream s .publish) (.stream s .subscribeGroup) then
        StreamProg.infoRank x else StreamProg.closeRank x
  | l => l.level

omit [DecidableEq O] [Fintype O] in
lemma level_le_rank (l : ServerLock O) : l.level ≤ rank t l := by
  cases l with
  | stream s x => exact Nat.le_add_right ..
  | group | rooms | clientMap | groupManager | inner | usersGroup | forwarder | streamMap | streams
  | trackBinding | publishLock => exact le_rfl

omit [DecidableEq O] [Fintype O] in
lemma rank_eq_level {l : ServerLock O} (h : l.level < 13) : rank t l = l.level := by
  cases l with
  | stream s x => exact absurd h (lt_irrefl _)
  | group | rooms | clientMap | groupManager | inner | usersGroup | forwarder | streamMap | streams
  | trackBinding | publishLock => rfl

omit [Fintype O] in
/-- Where no stream is crossed, whoever waits for a lock holds only locks of a lower rank. -/
lemma rank_lt_of_waits (ho : t.Orderly ServerLock.Takes) (hno : ∀ s, ¬ Crossed t s) {k : ℕ}
    {l l' : ServerLock O} (hw : (t.locks l).Waits k) (hholds : (t.locks l').Holds k) :
    rank t l' < rank t l := by
  obtain ⟨held, htakes, hheld⟩ := ho.exists_of_waits hw
  rcases htakes l' ((hheld l').mp hholds) with hlt | ⟨s, x, xs, rfl, hxs, hmem, y, hy, rfl⟩
  · calc rank t l' = l'.level := rank_eq_level (hlt.trans_le l.level_le)
      _ < l.level := hlt
      _ ≤ rank t l := level_le_rank l
  · have hholds' : ∀ z ∈ xs, (t.locks (.stream s z)).Holds k :=
      fun z hz => (hheld _).mpr (hmem z hz)
    rw [rank, rank]
    refine Nat.add_lt_add_left ?_ 13
    split_ifs with hinfo
    · refine StreamProg.infoRank_lt hxs hy fun hclose => hno s ⟨hinfo, k, ?_⟩
      exact ⟨hclose.1 ▸ hw, hholds' _ hclose.2⟩
    · refine StreamProg.closeRank_lt hxs hy fun hslot => hinfo ⟨k, ?_⟩
      exact ⟨hslot.1 ▸ hw, hholds' _ hslot.2⟩

/-- What holds of the locks in all states of a run. -/
lemma orderly_of_reachable (ht : (serverMachine O fnv).Reachable t) :
    t.Orderly ServerLock.Takes ∧ t.Served := by
  refine ht.invariant (I := fun t => t.Orderly ServerLock.Takes ∧ t.Served) ?_ ?_
  · rintro _ ⟨d, -, rfl⟩
    exact ⟨LockSystem.orderly_new d, LockSystem.served_new d⟩
  · intro s a t hs hst
    refine ⟨LockSystem.orderly_step (fun c => (clear_prog fnv c).obeys) hs.1 hst, ?_⟩
    exact LockSystem.served_step hs.2 hst

/-- **The deadlocks of the server**: whatever tasks run, and however their steps interleave, there
is a cycle of tasks each of which waits for a lock that the next one holds, or waits for ahead of
it, if and only if on some stream one task waits for the slot of the publisher while it holds the
group of the subscribers and another one waits for the group while it holds the slot.  Where there
is no such stream, some task takes its next step, as long as not all are at their end. -/
theorem deadlock_iff_stream (ht : (serverMachine O fnv).Reachable t) :
    (Deadlock t.locks ↔ ∃ s, Crossed t s) ∧
      ((¬ ∃ s, Crossed t s) → ∀ k, t.Unfinished k →
        ∃ j u, (serverMachine O fnv).step t (.run j) = some u) := by
  obtain ⟨ho, hserved⟩ := orderly_of_reachable ht
  have hnot : (¬ ∃ s, Crossed t s) → ¬ Deadlock t.locks := by
    intro hno
    exact not_deadlock_of_rank (rank t)
      (fun c l l' => rank_lt_of_waits ho (not_exists.mp hno)) fun c l l' => ho.waits_unique
  refine ⟨⟨fun hd => not_imp_comm.mp hnot (not_not_intro hd), fun ⟨s, hs⟩ => ?_⟩,
    fun hno k hk => ?_⟩
  · exact deadlock_of_crossed hs
  · exact LockSystem.exists_step_of_not_deadlock (ServerCall.prog fnv) ho hserved (hnot hno) hk

/-- The actions of a stream by itself, as those of a server whose streams are the `()`. -/
def onServer : LockAction StreamCall → LockAction (ServerCall Unit)
  | .start c => .start (.onStream () (.call c))
  | .run k => .run k

/-- The tasks of `StreamProg.crossedStream`, on a server: while they come there is no deadlock, and
in the end they are deadlocked. -/
theorem deadlock_iff_stream_crossed :
    ∃ s t, (serverMachine Unit fun _ => 0).exec (.new .new) (StreamProg.busyStream.map onServer) =
        some s ∧ ¬ Deadlock s.locks ∧
      (serverMachine Unit fun _ => 0).exec (.new .new) (StreamProg.crossedStream.map onServer) =
        some t ∧ Deadlock t.locks := by
  have hbusy : ((serverMachine Unit fun _ => 0).exec (.new .new)
      (StreamProg.busyStream.map onServer)).any (fun s : ServerSystem Unit =>
        ¬ s.WaitsHolding (.stream () .publish) (.stream () .subscribeGroup)) := by
    decide +kernel
  have hcrossed : ((serverMachine Unit fun _ => 0).exec (.new .new)
      (StreamProg.crossedStream.map onServer)).any (fun t : ServerSystem Unit =>
        t.WaitsHolding (.stream () .publish) (.stream () .subscribeGroup) ∧
          t.WaitsHolding (.stream () .subscribeGroup) (.stream () .publish)) := by
    decide +kernel
  obtain ⟨s, hs, hnot⟩ := (Option.any_eq_true _ _).mp hbusy
  obtain ⟨t, ht, hboth⟩ := (Option.any_eq_true _ _).mp hcrossed
  refine ⟨s, t, hs, fun hd => ?_, ht, ?_⟩
  · obtain ⟨o, hcross, -⟩ := (deadlock_iff_stream ⟨_, _, ⟨.new, rfl, rfl⟩, hs⟩).1.mp hd
    exact of_decide_eq_true hnot hcross
  · obtain ⟨hinfo, hclose⟩ := of_decide_eq_true hboth
    exact (deadlock_iff_stream ⟨_, _, ⟨.new, rfl, rfl⟩, ht⟩).1.mpr ⟨(), hinfo, hclose⟩

end Deadlock

end ServerProg

end SfuServer
