import SfuServer.Room.Admission
import SfuServer.Ws.Isolation

/-!
Who is a member of a WebSocket group, and with which right: `auth_user` runs before the upgrade
of a connection, and the join comes after it, without a second look.

* `TaskTurn`, `turned_of_step`: what the steps of the tasks leave alone;
* `Locked`: between its join and its subscription a handler holds the lock and its user is a
  member, so that the subscription never fails (`locked_step`);
* `CredentialSystem`, `credentialMachine`: the connections of a room, with the tokens that they
  were authenticated with;
* `MembersAdmitted`: every member is a client of the room, and the connections that hold the
  membership were authenticated with that client's token;
* `membersAdmitted_iff`: this holds in all states of a run exactly if every join happens while the
  client that was authenticated is still there.
-/

open Std (ExtTreeMap)

namespace SfuServer.WsSystem

variable {fnv : List UInt8 → UInt32} {s t : WsSystem} {a : WsAction}

/-! ### The steps of the tasks -/

/-- The steps that are neither requests nor joins nor teardowns, and bring no connection. -/
def TaskTurn : WsAction → Prop
  | .subscribe _ | .opened _ | .message .. | .hangup _ | .deliver .. | .select _ | .pipe ..
  | .cancel .. => True
  | .request _ | .connect .. | .join _ | .teardown _ => False

/-- Two stages of one session, where both are live or none is. -/
structure Continues (c c' : Session) : Prop where
  stream : c'.stream = c.stream
  id : c'.id = c.id
  evicted : c'.evicted = c.evicted
  live : c'.Live ↔ c.Live
  upgrading : c'.phase = .upgrading ↔ c.phase = .upgrading
  joined : c'.phase = .joined → c.phase = .joined

lemma Continues.refl (c : Session) : Continues c c := ⟨rfl, rfl, rfl, .rfl, .rfl, fun h => h⟩

/-- The tasks of a session moved on. -/
lemma continues_tasks (c : Session) (task : RecvTask) (receiver : Option ℕ) :
    Continues c { c with recvTask := task, receiver := receiver } :=
  ⟨rfl, rfl, rfl, .rfl, .rfl, fun h => h⟩

/-- The handler of a session that is live moved on to its loop, or beyond. -/
lemma continues_phase {c : Session} (hc : c.Live) {phase : Phase}
    (hphase : phase = .running ∨ phase = .closing) (task : RecvTask) (receiver : Option ℕ) :
    Continues c { c with phase := phase, recvTask := task, receiver := receiver } := by
  refine ⟨rfl, rfl, rfl, iff_of_true ?_ hc, iff_of_false ?_ ?_, ?_⟩
  · exact .inr hphase
  · rcases hphase with rfl | rfl <;> simp
  · intro hup
    rcases hc with h | h | h <;> simp [h] at hup
  · rcases hphase with rfl | rfl <;> simp

/-- A session that continues holds its membership as before. -/
lemma Continues.holds {c c' : Session} (h : Continues c c') : Holds c' ↔ Holds c := by
  rw [Holds, Holds, h.live, h.evicted]

/-- The sessions continue, and no handler that has joined loses the lock. -/
structure Turned (s t : WsSystem) : Prop where
  lock : ∀ (j : ℕ) (d : Session), t.sessions[j]? = some d → d.phase = .joined → t.lock = s.lock
  users : ∀ name, t.groups.users name = s.groups.users name
  clientMap : t.room.clientMap = s.room.clientMap
  length : t.sessions.length = s.sessions.length
  sessions : ∀ (j : ℕ) (d : Session), t.sessions[j]? = some d →
    ∃ c, s.sessions[j]? = some c ∧ Continues c d

/-- The sessions that were there are there. -/
lemma Turned.exists_session (h : s.Turned t) {j : ℕ} {c : Session}
    (hc : s.sessions[j]? = some c) : ∃ d, t.sessions[j]? = some d ∧ Continues c d := by
  have hlt := (List.getElem?_eq_some_iff.mp hc).1
  rw [← h.length] at hlt
  obtain ⟨c', hc', hcont⟩ := h.sessions j _ (List.getElem?_eq_getElem hlt)
  obtain rfl := Option.some.inj (hc.symm.trans hc')
  exact ⟨_, List.getElem?_eq_getElem hlt, hcont⟩

lemma turned_of_same (hlock : t.lock = s.lock)
    (husers : ∀ name, t.groups.users name = s.groups.users name)
    (hclients : t.room.clientMap = s.room.clientMap) (hsessions : t.sessions = s.sessions) :
    s.Turned t :=
  ⟨fun _ _ _ _ => hlock, husers, hclients, by rw [hsessions],
    fun _ d hd => ⟨d, hsessions ▸ hd, .refl d⟩⟩

lemma turned_of_set (hlock : ∀ (j : ℕ) (d : Session), t.sessions[j]? = some d →
      d.phase = .joined → t.lock = s.lock)
    (husers : ∀ name, t.groups.users name = s.groups.users name)
    (hclients : t.room.clientMap = s.room.clientMap) {i : ℕ} {c c' : Session}
    (hc : s.sessions[i]? = some c) (hcont : Continues c c')
    (hsessions : t.sessions = s.sessions.set i c') : s.Turned t := by
  refine ⟨hlock, husers, hclients, by rw [hsessions, List.length_set], fun j d hd => ?_⟩
  rw [hsessions] at hd
  rcases Vec.getElem?_set_cases hd with ⟨rfl, rfl⟩ | ⟨-, hd⟩
  · exact ⟨c, hc, hcont⟩
  · exact ⟨d, hd, .refl d⟩

/-- A handler that has joined and not yet subscribed holds the lock, and its user is a member;
who has been evicted has joined. -/
structure Locked (s : WsSystem) : Prop where
  joined : ∀ (i : ℕ) (c : Session), s.sessions[i]? = some c → c.phase = .joined →
    s.lock = some i ∧ c.id ∈ s.groups.users c.stream
  evicted : ∀ (i : ℕ) (c : Session), s.sessions[i]? = some c → c.evicted = true →
    c.phase ≠ .upgrading

/-- The handler that holds the lock finds the channel of its user. -/
lemma subscribe_cases (hwf : s.groups.Wf) (hs : s.Locked) {i : ℕ}
    (h : s.step fnv (.subscribe i) = some t) :
    ∃ c k, s.sessions[i]? = some c ∧ c.phase = .joined ∧
      t = ({ s.setGroups (s.groups.mapGroup c.stream fun g =>
          g.mapChannel k (·.subscribe i)) with lock := none }.setSession i
        { c with phase := .running, receiver := some k }) := by
  simp only [step, subscribeStep, Option.bind_eq_some_iff, Option.ite_none_right_eq_some] at h
  obtain ⟨c, hc, hphase, h⟩ := h
  obtain ⟨k, hk⟩ := hwf.exists_getUserSender _ (hs.joined i c hc hphase).2
  rw [hk] at h
  exact ⟨c, k, hc, hphase, (Option.some.inj h).symm⟩

/-- A pipe's turn changes no membership. -/
lemma users_pipe {group : String} {k : ℕ} (h : s.step fnv (.pipe group k) = some t)
    (name : String) : t.groups.users name = s.groups.users name := by
  obtain ⟨g, g', hg, hg', hm⟩ := groups_step h
  rw [hm]
  refine GroupsManager.users_mapGroup (fun g₀ hg₀ => ?_) name
  rw [hg, Option.some.injEq] at hg₀
  exact hg₀ ▸ innerUser_of_pipeStep hg'

/-- **The steps of the tasks** leave the members, the clients and the sessions. -/
theorem turned_of_step (hwf : s.groups.Wf) (hs : s.Locked) (ha : TaskTurn a)
    (h : s.step fnv a = some t) : s.Turned t := by
  cases a with
  | subscribe i =>
      have husers := users_of_groupsTraffic (groups_step h)
      obtain ⟨c, k, hc, hphase, rfl⟩ := subscribe_cases hwf hs h
      refine turned_of_set (fun j d hd hjoined => ?_) husers rfl hc
        (continues_phase (.inl hphase) (.inl rfl) c.recvTask (some k)) rfl
      -- only one handler can have joined, and it has gone on
      exfalso
      rcases Vec.getElem?_set_cases hd with ⟨-, rfl⟩ | ⟨hj, hd⟩
      · cases hjoined
      · change s.sessions[j]? = some d at hd
        have hlock := (hs.joined i c hc hphase).1
        rw [(hs.joined j d hd hjoined).1] at hlock
        exact hj (Option.some.inj hlock)
  | opened i =>
      have husers := users_of_groupsTraffic (groups_step h)
      simp only [step, openedStep, Option.bind_eq_some_iff, Option.ite_none_right_eq_some] at h
      obtain ⟨c, hc, -, g, -, h⟩ := h
      split at h
      · cases h
        exact turned_of_set (fun _ _ _ _ => rfl) husers rfl hc (continues_tasks c _ c.receiver) rfl
      · cases h
        exact turned_of_set (fun _ _ _ _ => rfl) husers rfl hc (continues_tasks c _ c.receiver) rfl
  | message i binary =>
      have husers := users_of_groupsTraffic (groups_step h)
      simp only [step, messageStep, Option.bind_eq_some_iff, Option.ite_none_right_eq_some] at h
      obtain ⟨c, hc, -, g, -, h⟩ := h
      have hended := fun cause => continues_tasks c (.ended cause) c.receiver
      split at h
      · split at h
        · cases h
          exact turned_of_same rfl husers rfl rfl
        · cases h
          exact turned_of_set (fun _ _ _ _ => rfl) husers rfl hc (hended _) rfl
      · obtain ⟨u, -, h⟩ := Option.bind_eq_some_iff.mp h
        split at h
        · cases h
          exact turned_of_same rfl husers rfl rfl
        · cases h
          exact turned_of_set (fun _ _ _ _ => rfl) husers rfl hc (hended _) rfl
      · cases h
        exact turned_of_same rfl husers rfl rfl
      · cases h
        exact turned_of_set (fun _ _ _ _ => rfl) husers rfl hc (hended _) rfl
      · cases h
  | hangup i =>
      have husers := users_of_groupsTraffic (groups_step h)
      simp only [step, hangupStep, Option.bind_eq_some_iff, Option.ite_none_right_eq_some,
        Option.some.injEq] at h
      obtain ⟨c, hc, -, rfl⟩ := h
      exact turned_of_set (fun _ _ _ _ => rfl) husers rfl hc (continues_tasks c _ c.receiver) rfl
  | deliver i written =>
      have husers := users_of_groupsTraffic (groups_step h)
      simp only [step, deliverStep, Option.bind_eq_some_iff] at h
      obtain ⟨c, hc, k, -, g, -, u, -, h⟩ := h
      have hstopped := continues_tasks c c.recvTask none
      split at h
      · split_ifs at h
        · cases h
          exact turned_of_same rfl husers rfl rfl
        · cases h
          exact turned_of_set (fun _ _ _ _ => rfl) husers rfl hc hstopped rfl
      · cases h
        exact turned_of_set (fun _ _ _ _ => rfl) husers rfl hc hstopped rfl
      · split_ifs at h
        cases h
        exact turned_of_set (fun _ _ _ _ => rfl) husers rfl hc hstopped rfl
  | select i =>
      have husers := users_of_groupsTraffic (groups_step h)
      simp only [step, selectStep, Option.bind_eq_some_iff, Option.ite_none_right_eq_some] at h
      obtain ⟨c, hc, hphase, h⟩ := h
      have hclosing := continues_phase (.inr (.inl hphase)) (.inr rfl)
      split at h
      · cases h
        exact turned_of_set (fun _ _ _ _ => rfl) husers rfl hc (hclosing _ _) rfl
      · cases h
        exact turned_of_set (fun _ _ _ _ => rfl) husers rfl hc (hclosing _ _) rfl
      · cases h
        exact turned_of_set (fun _ _ _ _ => rfl) husers rfl hc (hclosing _ _) rfl
      · cases h
  | pipe group k =>
      have husers := users_pipe h
      simp only [step, pipeStep, Option.bind_eq_some_iff, Option.some.injEq] at h
      obtain ⟨g, -, g', -, rfl⟩ := h
      exact turned_of_same rfl husers rfl rfl
  | cancel group k =>
      have husers := users_of_groupsTraffic (groups_step h)
      simp only [step, cancelStep, Option.bind_eq_some_iff, Option.some.injEq] at h
      obtain ⟨g, -, g', -, rfl⟩ := h
      exact turned_of_same rfl husers rfl rfl
  | request request => exact ha.elim
  | connect sharedKey userId token stream => exact ha.elim
  | join i => exact ha.elim
  | teardown i => exact ha.elim

/-! ### The other steps -/

/-- A join is made by a connection that waits for its upgrade, under the lock. -/
lemma join_cases {i : ℕ} (h : s.step fnv (.join i) = some t) :
    ∃ c, s.sessions[i]? = some c ∧ c.phase = .upgrading ∧ s.lock = none ∧ t.lock = some i ∧
      t.room.clientMap = s.room.clientMap ∧
      t.sessions = s.sessions.set i { c with phase := .joined } ∧
      ∀ name v, v ∈ t.groups.users name ↔
        name = c.stream ∧ v = c.id ∨ v ∈ s.groups.users name := by
  simp only [step, joinStep, Option.bind_eq_some_iff, Option.ite_none_right_eq_some] at h
  obtain ⟨c, hc, ⟨hphase, hlock⟩, h⟩ := h
  split at h
  · cases h
  · rename_i m hm
    cases h
    refine ⟨c, hc, hphase, hlock, rfl, rfl, rfl, fun name v => ?_⟩
    have hmem := GroupsManager.mem_users_joinOrCreate hm name v
    rwa [GroupsManager.users_initUser] at hmem

/-- A teardown takes the lock, and the membership of its user in the group. -/
lemma teardown_cases (hwf : s.groups.Wf) {i : ℕ} (h : s.step fnv (.teardown i) = some t) :
    ∃ c, s.sessions[i]? = some c ∧ c.phase = .closing ∧ s.lock = none ∧ t.lock = s.lock ∧
      t.room.clientMap = s.room.clientMap ∧
      t.sessions = s.sessions.set i { c with phase := .closed } ∧
      ∀ name v, v ∈ t.groups.users name ↔
        v ∈ s.groups.users name ∧ ¬ (name = c.stream ∧ v = c.id) := by
  simp only [step, teardownStep, Option.bind_eq_some_iff, Option.ite_none_right_eq_some,
    Option.some.injEq] at h
  obtain ⟨c, hc, ⟨hphase, hlock⟩, rfl⟩ := h
  exact ⟨c, hc, hphase, hlock, rfl, rfl, rfl, fun name v =>
    GroupsManager.mem_users_leaveOrWarn hwf.groups c.id c.stream name v⟩

/-- A connection that was accepted waits for its upgrade. -/
lemma connect_cases {sharedKey stream : String} {userId : Int32} {token : UInt32}
    (h : s.step fnv (.connect sharedKey userId token stream) = some t) :
    t = { s with sessions :=
      s.sessions ++ [⟨stream, userId.toUInt32, .upgrading, .opening, none, false⟩] } := by
  rw [step, connectStep] at h
  split at h
  · cases h
  · exact (Option.some.inj h).symm

/-- A request that is no exit changes no membership and no session. -/
lemma request_cases {request : RoomRequest} (hne : ∀ r, request ≠ .exit r)
    (h : s.step fnv (.request request) = some t) :
    t.lock = s.lock ∧ t.sessions = s.sessions ∧ t.room = s.room.serve fnv request ∧
      ∀ name, t.groups.users name = s.groups.users name := by
  simp only [step, requestStep, Option.ite_none_left_eq_some, Option.some.injEq] at h
  obtain ⟨-, rfl⟩ := h
  have hnot : ∀ user, exits fnv s.room request user = false := by
    intro user
    cases request with
    | exit r => exact absurd rfl (hne r)
    | _ => rfl
  refine ⟨rfl, by simp [hnot], rfl, fun name => ?_⟩
  change (s.room.serve fnv request).groupManager.users name = _
  rcases groupManager_serve_of_ne_exit fnv s.room hne with hm | ⟨user, hm⟩
  · rw [hm]
    rfl
  · rw [hm, GroupsManager.users_initUser]
    rfl

/-- An exit takes the lock, and, if the shared key is right, the memberships of its user. -/
lemma exit_cases (hwf : s.groups.Wf) {r : ExitRequest}
    (h : s.step fnv (.request (.exit r)) = some t) :
    s.lock = none ∧ t.lock = s.lock ∧ t.room = s.room.serve fnv (.exit r) ∧
      t.sessions = s.sessions.map (fun c =>
        if c.Live ∧ exits fnv s.room (.exit r) c.id = true then { c with evicted := true } else c) ∧
      ∀ name v, v ∈ t.groups.users name ↔ v ∈ s.groups.users name ∧
        ¬ (s.room.authSharedKey fnv r.sharedKey = true ∧ v = r.userId.toUInt32) := by
  simp only [step, requestStep, Option.ite_none_left_eq_some, Option.some.injEq] at h
  obtain ⟨hlock, rfl⟩ := h
  refine ⟨by simpa [usesGroups] using hlock, rfl, rfl, rfl, fun name v => ?_⟩
  change v ∈ (s.room.serve fnv (.exit r)).groupManager.users name ↔ _
  rw [groupManager_serve_exit]
  by_cases hauth : s.room.authSharedKey fnv r.sharedKey = true
  · rw [if_pos hauth]
    refine (GroupsManager.mem_users_endUser hwf _ name v).trans ?_
    simp [hauth, groups]
  · rw [if_neg hauth]
    simp [hauth, groups]

/-- While nobody holds the lock, no handler is between its join and its subscription. -/
lemma Locked.not_joined (hs : s.Locked) (hlock : s.lock = none) {i : ℕ} {c : Session}
    (hc : s.sessions[i]? = some c) : c.phase ≠ .joined := by
  intro hphase
  have := (hs.joined i c hc hphase).1
  rw [hlock] at this
  cases this

/-- While nobody holds the lock, a handler goes on to a phase after its upgrade. -/
lemma Locked.of_set (hs : s.Locked) (hlock : s.lock = none) {i : ℕ} {c : Session}
    (hsessions : t.sessions = s.sessions.set i c) (hup : c.phase ≠ .upgrading)
    (hjoined : c.phase = .joined → t.lock = some i ∧ c.id ∈ t.groups.users c.stream) :
    t.Locked := by
  refine ⟨fun j d hd hphase => ?_, fun j d hd hevicted => ?_⟩
  · rw [hsessions] at hd
    rcases Vec.getElem?_set_cases hd with ⟨rfl, rfl⟩ | ⟨-, hd⟩
    · exact hjoined hphase
    · exact absurd hphase (hs.not_joined hlock hd)
  · rw [hsessions] at hd
    rcases Vec.getElem?_set_cases hd with ⟨-, rfl⟩ | ⟨-, hd⟩
    · exact hup
    · exact hs.evicted j d hd hevicted

/-- The handlers keep the lock from the join to the subscription. -/
theorem locked_step (hwf : s.groups.Wf) (hs : s.Locked) (h : s.step fnv a = some t) :
    t.Locked := by
  have hturn : TaskTurn a → t.Locked := by
    intro ha
    have hturned := turned_of_step hwf hs ha h
    constructor
    · intro j d hd hphase
      obtain ⟨c, hc, hcont⟩ := hturned.sessions j d hd
      obtain ⟨hlock, hmem⟩ := hs.joined j c hc (hcont.joined hphase)
      rw [hturned.lock j d hd hphase, hturned.users, hcont.id, hcont.stream]
      exact ⟨hlock, hmem⟩
    · intro j d hd hevicted
      obtain ⟨c, hc, hcont⟩ := hturned.sessions j d hd
      rw [Ne, hcont.upgrading]
      exact hs.evicted j c hc (hcont.evicted ▸ hevicted)
  cases a with
  | request request =>
      by_cases hexit : ∃ r, request = .exit r
      · obtain ⟨r, rfl⟩ := hexit
        obtain ⟨hlock, -, -, hsessions, -⟩ := exit_cases hwf h
        refine ⟨fun j d hd hphase => ?_, fun j d hd hevicted => ?_⟩
        · rw [hsessions, List.getElem?_map] at hd
          obtain ⟨c, hc, hdc⟩ := Option.map_eq_some_iff.mp hd
          refine absurd ?_ (hs.not_joined hlock hc)
          split_ifs at hdc
          · rwa [← hdc] at hphase
          · rwa [hdc]
        · rw [hsessions, List.getElem?_map] at hd
          obtain ⟨c, hc, hdc⟩ := Option.map_eq_some_iff.mp hd
          split_ifs at hdc with hexits
          · rw [← hdc]
            intro hup
            rcases hexits.1 with h | h | h <;> simp [h] at hup
          · subst hdc
            exact hs.evicted j c hc hevicted
      · push Not at hexit
        obtain ⟨hlock, hsessions, -, husers⟩ := request_cases hexit h
        refine ⟨fun j d hd hphase => ?_, fun j d hd => hs.evicted j d (hsessions ▸ hd)⟩
        rw [hlock, husers]
        exact hs.joined j d (hsessions ▸ hd) hphase
  | connect sharedKey userId token stream =>
      rw [connect_cases h]
      refine ⟨fun j d hd hphase => ?_, fun j d hd hevicted => ?_⟩
      · rcases Vec.getElem?_concat_cases hd with ⟨-, rfl⟩ | hd
        · cases hphase
        · exact hs.joined j d hd hphase
      · rcases Vec.getElem?_concat_cases hd with ⟨-, rfl⟩ | hd
        · cases hevicted
        · exact hs.evicted j d hd hevicted
  | join i =>
      obtain ⟨c, -, -, hlock, hlock', -, hsessions, husers⟩ := join_cases h
      have hmem : c.id ∈ t.groups.users c.stream := (husers _ _).mpr (.inl ⟨rfl, rfl⟩)
      exact hs.of_set hlock hsessions (by simp) fun _ => ⟨hlock', hmem⟩
  | teardown i =>
      obtain ⟨c, -, -, hlock, -, -, hsessions, -⟩ := teardown_cases hwf h
      exact hs.of_set hlock hsessions (by simp) (by simp)
  | _ => exact hturn trivial

end SfuServer.WsSystem

/-! ### The tokens of the connections -/

namespace SfuServer

open WsSystem

/-- The user is a client of the room that has the token. -/
def Room.HasToken (room : Room) (user token : UInt32) : Prop :=
  ∃ client ∈ room.clientMap[user.toInt32]?, client.token = token

instance (room : Room) (user token : UInt32) : Decidable (room.HasToken user token) :=
  decidable_of_iff (room.clientMap[user.toInt32]?.any (·.token = token) = true) (by
    simp [Room.HasToken, Option.any_eq_true])

/-- The connections of a room, with the token that each was authenticated with; the program does
not keep it. -/
structure CredentialSystem where
  ws : WsSystem
  tokens : List UInt32

namespace CredentialSystem

/-- The tokens after a step: a connection that is accepted brings its own. -/
def tokensAfter (s : CredentialSystem) : WsAction → List UInt32
  | .connect _ _ token _ => s.tokens ++ [token]
  | _ => s.tokens

/-- One step of the system. -/
def step (fnv : List UInt8 → UInt32) (s : CredentialSystem) (a : WsAction) :
    Option CredentialSystem :=
  (s.ws.step fnv a).map fun ws => ⟨ws, s.tokensAfter a⟩

end CredentialSystem

/-- The machine of the connections of a room and their tokens. -/
def credentialMachine (fnv : List UInt8 → UInt32) : Machine CredentialSystem WsAction where
  init s := (wsMachine fnv).init s.ws ∧ s.tokens = []
  step := CredentialSystem.step fnv

namespace CredentialSystem

variable {fnv : List UInt8 → UInt32} {s t : CredentialSystem} {a : WsAction}

/-- The connection `i` holds the membership of the user in the group. -/
def Connects (s : CredentialSystem) (i : ℕ) (name : String) (user : UInt32) : Prop :=
  ∃ c, s.ws.sessions[i]? = some c ∧ Holds c ∧ c.stream = name ∧ c.id = user

/-- Every member of a group is a client of the room and has a connection that holds the
membership, and every such connection was authenticated with the client's token. -/
def MembersAdmitted (s : CredentialSystem) : Prop :=
  ∀ (name : String) (user : UInt32), user ∈ s.ws.groups.users name →
    ∃ client, s.ws.room.clientMap[user.toInt32]? = some client ∧
      (∃ i, s.Connects i name user) ∧
      ∀ i, s.Connects i name user → s.tokens[i]? = some client.token

/-- A join happens while the client that was authenticated is there. -/
def StillAdmitted (s : CredentialSystem) : WsAction → Prop
  | .join i => ∀ c ∈ s.ws.sessions[i]?, ∃ token ∈ s.tokens[i]?, s.ws.room.HasToken c.id token
  | _ => True

instance (s : CredentialSystem) (a : WsAction) : Decidable (s.StillAdmitted a) :=
  match a with
  | .join i =>
      decidable_of_iff (∀ c ∈ s.ws.sessions[i]?,
        s.tokens[i]?.any (fun token => s.ws.room.HasToken c.id token) = true) (by
          simp [StillAdmitted, Option.any_eq_true])
  | .request _ | .connect .. | .subscribe _ | .opened _ | .message .. | .hangup _ | .deliver ..
  | .select _ | .teardown _ | .pipe .. | .cancel .. => isTrue trivial

/-! ### The clients -/

lemma hasToken_iff_admitted {room : Room} {user token : UInt32} :
    room.HasToken user token ↔ (room.admitted user.toInt32).map (·.2.2) = some token := by
  rw [Room.HasToken, Room.admitted]
  cases room.clientMap[user.toInt32]? with
  | none => simp
  | some client => simp [Client.credentials]

lemma hasToken_congr {room room' : Room} {user token : UInt32}
    (h : room'.clientMap = room.clientMap) :
    room'.HasToken user token ↔ room.HasToken user token := by
  rw [Room.HasToken, Room.HasToken, h]

/-- A client who stays admitted keeps its token. -/
lemma HasToken.of_admitted {room room' : Room} {user token : UInt32}
    (h : room.HasToken user token)
    (hadmitted : room'.admitted user.toInt32 = room.admitted user.toInt32) :
    room'.HasToken user token := by
  rw [hasToken_iff_admitted, hadmitted]
  exact hasToken_iff_admitted.mp h

/-- A request takes the client only if it is its exit. -/
lemma hasToken_serve {room : Room} {request : RoomRequest} {user token : UInt32}
    (h : room.HasToken user token) (hexit : exits fnv room request user = false) :
    (room.serve fnv request).HasToken user token := by
  have hstreams : request.OnStreams → (room.serve fnv request).HasToken user token := fun hon =>
    HasToken.of_admitted h ((Room.serve_clients fnv room hon).2 _)
  cases request with
  | join request drawn =>
      rw [Room.serve, roomJoin]
      by_cases hauth : room.authSharedKey fnv request.sharedKey = true
      · simp only [hauth, Bool.not_true, Bool.false_eq_true, if_false]
        rcases Room.join_cases fnv room request.name request.masterKey drawn with
          hjoin | hjoin | ⟨userId, hfree, -, hjoin⟩
        · rw [hjoin]
          exact h
        · rw [hjoin]
          exact h
        · rw [hjoin]
          refine HasToken.of_admitted h ?_
          -- the new client has another id
          have hne : user.toInt32 ≠ userId := by
            rintro rfl
            obtain ⟨client, hclient, -⟩ := h
            exact hfree (ExtTreeMap.mem_iff_isSome_getElem?.mpr (by rw [hclient]; rfl))
          rw [Room.admitted_enter, if_neg hne]
      · simpa [hauth] using h
  | exit r =>
      rw [Room.serve, roomExit]
      by_cases hauth : room.authSharedKey fnv r.sharedKey = true
      · obtain ⟨-, hothers, huser⟩ := Room.userDelete_clients room r.userId r.token true
        have hkept : (room.userDelete r.userId r.token true).2.HasToken user token := by
          refine HasToken.of_admitted h ?_
          by_cases hid : user.toInt32 = r.userId
          · have hnot : (room.userDelete r.userId r.token true).1 ≠ .ok true := by
              intro hdone
              have huid : r.userId.toUInt32 = user := by rw [← hid, UInt32.toUInt32_toInt32]
              simp [exits, hauth, hdone, huid] at hexit
            rw [hid, huser, if_neg hnot]
          · rw [Room.admitted, Room.admitted, hothers _ hid]
        simp only [hauth, Bool.not_true, Bool.false_eq_true, if_false]
        split <;> rename_i room' hroom' <;> rwa [hroom'] at hkept
      · simpa [hauth] using h
  | create request => exact hstreams trivial
  | destroy request => exact hstreams trivial
  | whip request negotiated => exact hstreams trivial
  | depart forward peer now => exact hstreams trivial
  | tick scan reap => exact hstreams trivial

/-! ### The invariant -/

/-- Every connection that holds a membership was authenticated with the token of a client, and
every member has such a connection. -/
structure Sound (s : CredentialSystem) : Prop where
  wf : s.ws.groups.Wf
  locked : s.ws.Locked
  length : s.tokens.length = s.ws.sessions.length
  holds : ∀ (i : ℕ) (c : Session), s.ws.sessions[i]? = some c → Holds c →
    ∃ token, s.tokens[i]? = some token ∧ s.ws.room.HasToken c.id token
  connected : ∀ (name : String) (user : UInt32), user ∈ s.ws.groups.users name →
    ∃ i, s.Connects i name user

lemma Sound.membersAdmitted (hs : s.Sound) : s.MembersAdmitted := by
  intro name user hmem
  obtain ⟨i, c, hc, hholds, hstream, hid⟩ := hs.connected name user hmem
  obtain ⟨token, -, client, hclient, -⟩ := hs.holds i c hc hholds
  rw [hid] at hclient
  refine ⟨client, hclient, ⟨i, c, hc, hholds, hstream, hid⟩, ?_⟩
  rintro j ⟨d, hd, hholds', -, hid'⟩
  obtain ⟨token', htoken', client', hclient', rfl⟩ := hs.holds j d hd hholds'
  rw [hid', hclient] at hclient'
  rw [htoken', Option.some.inj hclient']

/-- A turn of the tasks keeps the invariant. -/
lemma sound_turn {ws : WsSystem} (hs : s.Sound) (ha : TaskTurn a) (h : s.ws.step fnv a = some ws) :
    Sound ⟨ws, s.tokens⟩ := by
  have hturned := turned_of_step hs.wf hs.locked ha h
  refine ⟨wf_step hs.wf h, locked_step hs.wf hs.locked h, hs.length.trans hturned.length.symm,
    fun j d hd hholds => ?_, fun name user hmem => ?_⟩
  · obtain ⟨c, hc, hcont⟩ := hturned.sessions j d hd
    obtain ⟨token, htoken, hhas⟩ := hs.holds j c hc (hcont.holds.mp hholds)
    exact ⟨token, htoken, (hasToken_congr hturned.clientMap).mpr (hcont.id.symm ▸ hhas)⟩
  · change user ∈ ws.groups.users name at hmem
    rw [hturned.users] at hmem
    obtain ⟨i, c, hc, hholds, rfl, rfl⟩ := hs.connected name user hmem
    obtain ⟨d, hd, hcont⟩ := hturned.exists_session hc
    exact ⟨i, d, hd, hcont.holds.mpr hholds, hcont.stream, hcont.id⟩

/-- An exit keeps the invariant: the connections of the user no longer hold memberships. -/
lemma sound_exit {ws : WsSystem} (hs : s.Sound) {r : ExitRequest}
    (h : s.ws.step fnv (.request (.exit r)) = some ws) : Sound ⟨ws, s.tokens⟩ := by
  obtain ⟨-, -, hroom, hsessions, husers⟩ := exit_cases hs.wf h
  refine ⟨wf_step hs.wf h, locked_step hs.wf hs.locked h, by simp [hsessions, hs.length],
    fun j d hd hholds => ?_, fun name user hmem => ?_⟩
  · change ws.sessions[j]? = some d at hd
    rw [hsessions, List.getElem?_map] at hd
    obtain ⟨c, hc, hdc⟩ := Option.map_eq_some_iff.mp hd
    split_ifs at hdc with hexit
    · subst hdc
      cases hholds.2
    · subst hdc
      obtain ⟨token, htoken, hhas⟩ := hs.holds j c hc hholds
      refine ⟨token, htoken, ?_⟩
      change ws.room.HasToken c.id token
      rw [hroom]
      exact hasToken_serve hhas (Bool.eq_false_of_not_eq_true fun h => hexit ⟨hholds.1, h⟩)
  · obtain ⟨hmem, hother⟩ := (husers name user).mp hmem
    obtain ⟨i, c, hc, hholds, rfl, rfl⟩ := hs.connected name user hmem
    refine ⟨i, c, ?_, hholds, rfl, rfl⟩
    change ws.sessions[i]? = some c
    rw [hsessions, List.getElem?_map, hc, Option.map_some, if_neg]
    rintro ⟨-, hexits⟩
    simp only [exits, Bool.and_eq_true, beq_iff_eq] at hexits
    exact hother ⟨hexits.1.2, hexits.1.1.symm⟩

/-- A handler joins a group while the client is there. -/
lemma sound_join (hs : s.Sound) {i : ℕ} {ws : WsSystem} (hok : s.StillAdmitted (.join i))
    (hws : s.ws.step fnv (.join i) = some ws) : Sound ⟨ws, s.tokens⟩ := by
  obtain ⟨c, hc, hphase, -, -, hclients, hsessions, husers⟩ := join_cases hws
  have hlt := (List.getElem?_eq_some_iff.mp hc).1
  have hnew : Holds { c with phase := .joined } := by
    refine ⟨.inl rfl, Bool.eq_false_of_not_eq_true fun hevicted => ?_⟩
    exact hs.locked.evicted i c hc hevicted hphase
  refine ⟨wf_step hs.wf hws, locked_step hs.wf hs.locked hws,
    by simp [hsessions, hs.length], fun j d hd hholds => ?_,
    fun name user hmem => ?_⟩
  · change ws.sessions[j]? = some d at hd
    rw [hsessions] at hd
    change ∃ token, s.tokens[j]? = some token ∧ ws.room.HasToken d.id token
    simp only [hasToken_congr hclients]
    rcases Vec.getElem?_set_cases hd with ⟨rfl, rfl⟩ | ⟨-, hd⟩
    · exact hok c hc
    · exact hs.holds j d hd hholds
  · rcases (husers name user).mp hmem with ⟨rfl, rfl⟩ | hmem
    · exact ⟨i, _, by rw [hsessions, List.getElem?_set_self hlt], hnew, rfl, rfl⟩
    · obtain ⟨j, d, hd, hholds, hrest⟩ := hs.connected name user hmem
      have hj : i ≠ j := by
        rintro rfl
        rw [hc, Option.some.injEq] at hd
        subst hd
        rcases hholds.1 with h | h | h <;> rw [hphase] at h <;> cases h
      exact ⟨j, d, by rw [hsessions, List.getElem?_set_ne hj, hd], hholds, hrest⟩

/-- A handler leaves its group. -/
lemma sound_teardown (hs : s.Sound) {i : ℕ} {ws : WsSystem}
    (hws : s.ws.step fnv (.teardown i) = some ws) : Sound ⟨ws, s.tokens⟩ := by
  obtain ⟨c, hc, -, -, -, hclients, hsessions, husers⟩ := teardown_cases hs.wf hws
  refine ⟨wf_step hs.wf hws, locked_step hs.wf hs.locked hws,
    by simp [hsessions, hs.length], fun j d hd hholds => ?_,
    fun name user hmem => ?_⟩
  · change ws.sessions[j]? = some d at hd
    rw [hsessions] at hd
    change ∃ token, s.tokens[j]? = some token ∧ ws.room.HasToken d.id token
    simp only [hasToken_congr hclients]
    rcases Vec.getElem?_set_cases hd with ⟨rfl, rfl⟩ | ⟨-, hd⟩
    · rcases hholds.1 with h | h | h <;> cases h
    · exact hs.holds j d hd hholds
  · obtain ⟨hmem, hother⟩ := (husers name user).mp hmem
    obtain ⟨j, d, hd, hholds, rfl, rfl⟩ := hs.connected name user hmem
    have hj : i ≠ j := by
      rintro rfl
      rw [hc, Option.some.injEq] at hd
      exact hother (hd ▸ ⟨rfl, rfl⟩)
    exact ⟨j, d, by rw [hsessions, List.getElem?_set_ne hj, hd], hholds, rfl, rfl⟩

/-- A step keeps the invariant, where a join happens while the client is there. -/
lemma sound_step (hs : s.Sound) (hok : s.StillAdmitted a) (h : s.step fnv a = some t) :
    t.Sound := by
  obtain ⟨ws, hws, rfl⟩ := Option.map_eq_some_iff.mp h
  have hturn : TaskTurn a → Sound ⟨ws, s.tokens⟩ := fun ha => sound_turn hs ha hws
  cases a with
  | request request =>
      by_cases hexit : ∃ r, request = .exit r
      · obtain ⟨r, rfl⟩ := hexit
        exact sound_exit hs hws
      · push Not at hexit
        obtain ⟨-, hsessions, hroom, husers⟩ := request_cases hexit hws
        refine ⟨wf_step hs.wf hws, locked_step hs.wf hs.locked hws, hsessions ▸ hs.length,
          fun j d hd hholds => ?_, fun name user hmem => ?_⟩
        · obtain ⟨token, htoken, hhas⟩ := hs.holds j d (hsessions ▸ hd) hholds
          refine ⟨token, htoken, ?_⟩
          change ws.room.HasToken d.id token
          rw [hroom]
          refine hasToken_serve hhas ?_
          cases request with
          | exit r => exact absurd rfl (hexit r)
          | _ => rfl
        · obtain ⟨i, c, hc, hrest⟩ := hs.connected name user (husers name ▸ hmem)
          exact ⟨i, c, hsessions.symm ▸ hc, hrest⟩
  | connect sharedKey userId token stream =>
      obtain rfl := connect_cases hws
      refine ⟨wf_step hs.wf hws, locked_step hs.wf hs.locked hws, by simp [tokensAfter, hs.length],
        fun j d hd hholds => ?_, fun name user hmem => ?_⟩
      · rcases Vec.getElem?_concat_cases hd with ⟨-, rfl⟩ | hd
        · rcases hholds.1 with h | h | h <;> cases h
        · obtain ⟨token, htoken, hhas⟩ := hs.holds j d hd hholds
          exact ⟨token, List.getElem?_append_left (List.getElem?_eq_some_iff.mp htoken).1 ▸ htoken,
            hhas⟩
      · obtain ⟨i, c, hc, hrest⟩ := hs.connected name user hmem
        exact ⟨i, c, List.getElem?_append_left (List.getElem?_eq_some_iff.mp hc).1 ▸ hc, hrest⟩
  | join i => exact sound_join hs hok hws
  | teardown i => exact sound_teardown hs hws
  | _ => exact hturn trivial

/-- After a join, the member is admitted only if the client is still there. -/
lemma stillAdmitted_of_membersAdmitted (hs : s.Sound) (h : s.step fnv a = some t)
    (ht : t.MembersAdmitted) : s.StillAdmitted a := by
  obtain ⟨ws, hws, rfl⟩ := Option.map_eq_some_iff.mp h
  cases a with
  | join i =>
      obtain ⟨c, hc, hphase, -, -, hclients, hsessions, husers⟩ := join_cases hws
      have hlt := (List.getElem?_eq_some_iff.mp hc).1
      obtain ⟨client, hclient, -, htokens⟩ :=
        ht c.stream c.id ((husers _ _).mpr (.inl ⟨rfl, rfl⟩))
      have hevicted : c.evicted = false :=
        Bool.eq_false_of_not_eq_true fun hevicted => hs.locked.evicted i c hc hevicted hphase
      have htoken : s.tokens[i]? = some client.token := htokens i
        ⟨{ c with phase := .joined }, by rw [hsessions, List.getElem?_set_self hlt],
          ⟨.inl rfl, hevicted⟩, rfl, rfl⟩
      intro c' hc'
      obtain rfl := Option.some.inj (hc.symm.trans hc')
      exact ⟨client.token, htoken, client, hclients ▸ hclient, rfl⟩
  | _ => trivial

/-- **When the members of the groups are admitted**: in a run, every member of a WebSocket group
is a client of the room in every state, and the connections that hold the membership were
authenticated with that client's token, if and only if every join happens while the client is
there that the connection was authenticated as, with its token. -/
theorem membersAdmitted_iff (fnv : List UInt8 → UInt32) {s : CredentialSystem}
    {as : List WsAction} (h0 : (credentialMachine fnv).init s) :
    (credentialMachine fnv).Always MembersAdmitted s as ↔
      (credentialMachine fnv).Guarded StillAdmitted s as := by
  obtain ⟨hws, htokens⟩ := h0
  obtain ⟨hgroups, hsessions⟩ := groups_of_init hws
  have hs : s.Sound := {
    wf := hgroups ▸ GroupsManager.wf_new
    locked := ⟨by simp [hsessions], by simp [hsessions]⟩
    length := by simp [hsessions, htokens]
    holds := by simp [hsessions]
    connected := by simp [hgroups, GroupsManager.users, GroupsManager.new] }
  refine Machine.always_iff_guarded (I := Sound) (fun r a t hr hstep => ?_) hs hs.membersAdmitted
  refine ⟨⟨stillAdmitted_of_membersAdmitted hr hstep, fun hok => ?_⟩, fun hok =>
    sound_step hr hok hstep⟩
  exact (sound_step hr hok hstep).membersAdmitted

/-- The small room without connections. -/
def small : CredentialSystem := ⟨WsSystem.small, []⟩

lemma init_small : (credentialMachine fnv1a).init small := ⟨WsSystem.init_small, rfl⟩

/-- The first client connects, exits the room and joins it again under the same id with another
token, and connects again. -/
theorem membersAdmitted_small :
    (credentialMachine fnv1a).Always MembersAdmitted small
      (connected ++ [.request (.exit ⟨0, 7, "key"⟩), .deliver 0 true, .select 0, .teardown 0,
        .request (.join ⟨"third", "key", ""⟩ 9), .connect "key" 0 9 "stream", .join 1,
        .subscribe 1]) :=
  (membersAdmitted_iff fnv1a init_small).mpr (by decide)

/-- The first client exits the room between the check of its token and the join. -/
theorem not_membersAdmitted_small :
    ¬ ∀ (s : CredentialSystem) (as : List WsAction), (credentialMachine fnv1a).init s →
      (credentialMachine fnv1a).Always MembersAdmitted s as := by
  intro h
  have hend := (h small [.request (.join ⟨"first", "key", ""⟩ 7), .connect "key" 0 7 "stream",
    .request (.exit ⟨0, 7, "key"⟩), .join 0] init_small).of_exec rfl
  obtain ⟨client, hclient, -⟩ := hend "stream" 0 (by decide)
  cases hclient

end CredentialSystem

end SfuServer
