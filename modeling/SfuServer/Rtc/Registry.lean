import SfuServer.Http
import SfuServer.Lib.Machine
import SfuServer.Lib.Vec

/-!
The subscribers of a stream over runs: `new_subscription_peer` and `remove_subscribe` of
`src/forward/rtc/internal.rs`, called for any number of sessions at once.

The group of the subscribers and the time at which the last one left have locks of their own.
An addition writes the group and then the time, in two sections; a removal writes the time
inside of its section on the group, and so it keeps the group while it waits for the time.

* `RegistrySystem`, `RegistryAction`, `registryMachine`: the group, the time and the calls, and
  what can happen between two acquisitions of a lock;
* `RegistrySystem.info`: what can be read of the group and the time together;
* `registry_sound`: every session that was added and not removed is in the group once, a
  removal finds its session exactly if it is there and takes out nothing else, and while no
  addition is in progress the time is zero exactly if there are subscribers.
-/

namespace SfuServer

/-- The values of the clock, which are positive. -/
abbrev Millis := {t : ℤ // 0 < t}

/-- How far a call of `new_subscription_peer` is: it sets the connection up, has entered it
into the group, or has returned the connection or an error. -/
inductive AdditionStage where
  | building
  | pushed
  | returned (ok : Bool)
  deriving DecidableEq

/-- The session has been entered into the group. -/
def AdditionStage.Entered : AdditionStage → Prop
  | .pushed | .returned true => True
  | .building | .returned false => False

/-- How far a call of `remove_subscribe` is: it waits for the group, holds it and waits for the
time, or has returned. -/
inductive RemovalStage where
  | waiting
  | stamping (flag : Bool)
  | returned (result : Except AppError Unit)
  deriving DecidableEq

/-- The session was in the group. -/
def RemovalStage.Found : RemovalStage → Prop
  | .stamping true | .returned (.ok ()) => True
  | .waiting | .stamping false | .returned (.error _) => False

/-- A call of `new_subscription_peer`, for a session of that id. -/
structure AddCall where
  id : String
  stage : AdditionStage
  deriving DecidableEq

/-- A call of `remove_subscribe`. -/
structure RemoveCall where
  id : String
  stage : RemovalStage
  deriving DecidableEq

/-- The subscribers of a stream: the group, by the ids of the sessions, the time at which the
last one left, zero while there are some, the removal that holds the group, and the calls. -/
structure RegistrySystem where
  subscribeGroup : List String
  subscribeLeaveTime : ℤ
  groupLock : Option ℕ
  adds : List AddCall
  removes : List RemoveCall

/-- What can happen: a call begins, setting up a connection fails, or a call takes its next
section: an addition enters its session and resets the time, a removal takes its session out
and writes the time. -/
inductive RegistryAction where
  | add (id : String)
  | fail (k : ℕ)
  | push (k : ℕ)
  | reset (k : ℕ)
  | remove (id : String)
  | erase (k : ℕ)
  | stamp (k : ℕ) (now : Millis)

/-- The loop of `remove_subscribe`: the first subscriber with the id of the session is taken
out, and the flag says whether there was one. -/
def removeSession (subscribePeers : List String) (session : String) : Bool × List String :=
  match subscribePeers.findIdx? (· == session) with
  | some i => (true, subscribePeers.eraseIdx i)
  | none => (false, subscribePeers)

/-- What `remove_subscribe` returns. -/
def removeResult (flag : Bool) : Except AppError Unit :=
  if flag then .ok () else .error (.throw "not found session")

namespace RegistrySystem

/-- What can be read of the group and the time together, as in `info`: nothing while a removal
holds the group. -/
def info (s : RegistrySystem) : Option (List String × ℤ) :=
  if s.groupLock = none then some (s.subscribeGroup, s.subscribeLeaveTime) else none

/-- The next stage of an addition. -/
def setAdd (s : RegistrySystem) (k : ℕ) (c : AddCall) (stage : AdditionStage) : RegistrySystem :=
  { s with adds := s.adds.set k { c with stage := stage } }

/-- The next stage of a removal. -/
def setRemove (s : RegistrySystem) (k : ℕ) (c : RemoveCall) (stage : RemovalStage) :
    RegistrySystem :=
  { s with removes := s.removes.set k { c with stage := stage } }

/-- A call of `new_subscription_peer`; the id of the session is a new one. -/
def addStep (s : RegistrySystem) (id : String) : Option RegistrySystem :=
  if id ∈ s.adds.map (·.id) then none
  else some { s with adds := s.adds ++ [⟨id, .building⟩] }

/-- The connection cannot be set up. -/
def failStep (s : RegistrySystem) (k : ℕ) : Option RegistrySystem :=
  s.adds[k]?.bind fun c =>
    if c.stage = .building then some (s.setAdd k c (.returned false)) else none

/-- The first section of an addition: the session is entered into the group. -/
def pushStep (s : RegistrySystem) (k : ℕ) : Option RegistrySystem :=
  s.adds[k]?.bind fun c =>
    if c.stage = .building ∧ s.groupLock = none then
      some ({ s with subscribeGroup := s.subscribeGroup ++ [c.id] }.setAdd k c .pushed)
    else none

/-- The second section of an addition: the time is reset. -/
def resetStep (s : RegistrySystem) (k : ℕ) : Option RegistrySystem :=
  s.adds[k]?.bind fun c =>
    if c.stage = .pushed then
      some ({ s with subscribeLeaveTime := 0 }.setAdd k c (.returned true))
    else none

/-- A call of `remove_subscribe`, by the callback that was registered when the addition had
returned. -/
def removeStep (s : RegistrySystem) (id : String) : Option RegistrySystem :=
  if ⟨id, .returned true⟩ ∈ s.adds then
    some { s with removes := s.removes ++ [⟨id, .waiting⟩] }
  else none

/-- A removal takes the group and its session out of it; if nobody is left it keeps the group
until it has written the time. -/
def eraseStep (s : RegistrySystem) (k : ℕ) : Option RegistrySystem :=
  s.removes[k]?.bind fun c =>
    if c.stage = .waiting ∧ s.groupLock = none then
      let (flag, subscribePeers) := removeSession s.subscribeGroup c.id
      let s := { s with subscribeGroup := subscribePeers }
      if subscribePeers.isEmpty then
        some ({ s with groupLock := some k }.setRemove k c (.stamping flag))
      else some (s.setRemove k c (.returned (removeResult flag)))
    else none

/-- A removal writes the time and gives the group free. -/
def stampStep (s : RegistrySystem) (k : ℕ) (now : Millis) : Option RegistrySystem :=
  s.removes[k]?.bind fun c =>
    match c.stage with
    | .stamping flag =>
        some ({ s with subscribeLeaveTime := now, groupLock := none }.setRemove k c
          (.returned (removeResult flag)))
    | .waiting | .returned _ => none

/-- One step of the system. -/
def step (s : RegistrySystem) : RegistryAction → Option RegistrySystem
  | .add id => s.addStep id
  | .fail k => s.failStep k
  | .push k => s.pushStep k
  | .reset k => s.resetStep k
  | .remove id => s.removeStep id
  | .erase k => s.eraseStep k
  | .stamp k now => s.stampStep k now

/-- `PeerForwardInternal::new`: there are no subscribers, and the time is that of the clock. -/
def new (now : Millis) : RegistrySystem where
  subscribeGroup := []
  subscribeLeaveTime := now
  groupLock := none
  adds := []
  removes := []

end RegistrySystem

/-- The machine of the subscribers of a stream. -/
def registryMachine : Machine RegistrySystem RegistryAction where
  init s := ∃ now, s = .new now
  step := RegistrySystem.step

/-! ### Removing a session from a list -/

/-- A session is found if it is in the list. -/
lemma removeSession_fst (subscribePeers : List String) (session : String) :
    (removeSession subscribePeers session).1 = decide (session ∈ subscribePeers) := by
  rw [removeSession]
  cases hfind : subscribePeers.findIdx? (· == session) with
  | none =>
      have hnot : session ∉ subscribePeers := fun hmem => by
        have := List.findIdx?_eq_none_iff.mp hfind session hmem
        simp at this
      simp [hnot]
  | some i =>
      obtain ⟨hi, hfound, -⟩ := List.findIdx?_eq_some_iff_getElem.mp hfind
      have hmem : session ∈ subscribePeers := by
        rw [← beq_iff_eq.mp hfound]
        exact List.getElem_mem hi
      simp [hmem]

/-- The first occurrence of the session is taken out. -/
lemma removeSession_snd (subscribePeers : List String) (session : String) :
    (removeSession subscribePeers session).2 = subscribePeers.erase session := by
  rw [removeSession, List.erase_eq_eraseP', List.eraseP_eq_eraseIdx]
  cases subscribePeers.findIdx? (· == session) with
  | none => rfl
  | some i => rfl

namespace RegistrySystem

variable {s t : RegistrySystem} {a : RegistryAction} {k : ℕ} {id : String}

/-! ### Who is registered -/

/-- The session has been entered into the group. -/
def Pushed (s : RegistrySystem) (id : String) : Prop := ∃ c ∈ s.adds, c.id = id ∧ c.stage.Entered

/-- The session has been taken out of the group. -/
def Removed (s : RegistrySystem) (id : String) : Prop :=
  ∃ c ∈ s.removes, c.id = id ∧ c.stage.Found

/-- The session has been entered into the group and not taken out. -/
def Registered (s : RegistrySystem) (id : String) : Prop := s.Pushed id ∧ ¬ s.Removed id

/-- What holds between the sections: the group has the sessions that are registered, each once;
a session is removed only after its addition has returned; a removal that holds the group found
nobody left in it; and a group that nobody holds is empty only while a time is set, and not
empty only while it is zero or an addition is about to reset it. -/
structure Wf (s : RegistrySystem) : Prop where
  ids : (s.adds.map (·.id)).Nodup
  nodup : s.subscribeGroup.Nodup
  mem_iff : ∀ id, id ∈ s.subscribeGroup ↔ s.Registered id
  added : ∀ c ∈ s.removes, ⟨c.id, .returned true⟩ ∈ s.adds
  held : ∀ (k : ℕ) (c : RemoveCall) (flag : Bool), s.removes[k]? = some c →
    c.stage = .stamping flag → s.groupLock = some k
  left : s.groupLock ≠ none → s.subscribeGroup = []
  empty : s.groupLock = none → s.subscribeGroup = [] → 0 < s.subscribeLeaveTime
  occupied : s.subscribeGroup ≠ [] →
    s.subscribeLeaveTime = 0 ∨ ∃ c ∈ s.adds, c.stage = .pushed

/-- Two additions for the same session are the same. -/
lemma Wf.eq_of_id_eq (hs : s.Wf) {c d : AddCall} (hc : c ∈ s.adds) (hd : d ∈ s.adds)
    (h : c.id = d.id) : c = d :=
  List.inj_on_of_nodup_map hs.ids hc hd h

/-- What was entered by an addition in progress has not been taken out. -/
lemma Wf.not_removed (hs : s.Wf) {c : AddCall} (hc : c ∈ s.adds)
    (hstage : c.stage ≠ .returned true) : ¬ s.Removed c.id := by
  rintro ⟨d, hd, hid, -⟩
  have heq := hs.eq_of_id_eq hc (hs.added d hd) hid.symm
  rw [heq] at hstage
  exact hstage rfl

/-- The session of an addition that is about to reset the time is in the group. -/
lemma Wf.mem_of_pushed (hs : s.Wf) {c : AddCall} (hc : c ∈ s.adds) (hstage : c.stage = .pushed) :
    c.id ∈ s.subscribeGroup := by
  refine (hs.mem_iff c.id).mpr ⟨⟨c, hc, rfl, ?_⟩, hs.not_removed hc (by simp [hstage])⟩
  rw [hstage]
  trivial

/-! ### What the sections do -/

lemma pushed_setAdd {c : AddCall} (stage : AdditionStage) (hc : s.adds[k]? = some c)
    (hstage : c.stage.Entered → stage.Entered) (id : String) :
    (s.setAdd k c stage).Pushed id ↔ c.id = id ∧ stage.Entered ∨ s.Pushed id := by
  rw [Pushed, Pushed, setAdd]
  exact Vec.exists_mem_set_iff hc fun h => ⟨h.1, hstage h.2⟩

lemma removed_setRemove {c : RemoveCall} {stage : RemovalStage} (hc : s.removes[k]? = some c)
    (hstage : c.stage.Found → stage.Found) (id : String) :
    (s.setRemove k c stage).Removed id ↔ c.id = id ∧ stage.Found ∨ s.Removed id := by
  rw [Removed, Removed, setRemove]
  exact Vec.exists_mem_set_iff hc fun h => ⟨h.1, hstage h.2⟩

/-- The ids of the additions stay. -/
lemma map_id_setAdd {c : AddCall} (stage : AdditionStage) (hc : s.adds[k]? = some c) :
    (s.setAdd k c stage).adds.map (·.id) = s.adds.map (·.id) := by
  obtain ⟨hlt, rfl⟩ := List.getElem?_eq_some_iff.mp hc
  refine List.ext_getElem (by simp [setAdd]) fun j hj hj' => ?_
  simp only [setAdd, List.getElem_map, List.getElem_set]
  split_ifs with hkj
  · subst hkj
    rfl
  · rfl

/-- An addition that moves on leaves those that have returned. -/
lemma added_setAdd {c : AddCall} {stage : AdditionStage} (hc : s.adds[k]? = some c)
    (hstage : c.stage ≠ .returned true) {d : AddCall} (hd : d ∈ s.adds)
    (hreturned : d.stage = .returned true) : d ∈ (s.setAdd k c stage).adds := by
  refine Vec.mem_set_of_ne hc hd ?_
  rintro rfl
  exact hstage hreturned

/-- A removal that moves on leaves the ids of the removals. -/
lemma exists_of_mem_setRemove {c : RemoveCall} {stage : RemovalStage}
    (hc : s.removes[k]? = some c) {d : RemoveCall} (hd : d ∈ (s.setRemove k c stage).removes) :
    ∃ e ∈ s.removes, e.id = d.id := by
  rcases List.mem_or_eq_of_mem_set hd with hd | rfl
  · exact ⟨d, hd, rfl⟩
  · exact ⟨c, List.mem_of_getElem? hc, rfl⟩

lemma wf_add (hs : s.Wf) (h : s.addStep id = some t) : t.Wf := by
  rw [addStep] at h
  split_ifs at h with hid
  rw [Option.some.injEq] at h
  subst h
  have hpushed : ∀ u, (∃ c ∈ s.adds ++ [⟨id, .building⟩], c.id = u ∧ c.stage.Entered) ↔
      s.Pushed u := by
    exact fun u => Vec.exists_mem_concat_iff fun h => h.2.elim
  exact {
    ids := by
      rw [List.map_append, List.nodup_append]
      refine ⟨hs.ids, List.nodup_singleton _, ?_⟩
      rintro u hu v hv rfl
      obtain rfl : u = id := List.mem_singleton.mp hv
      exact hid hu
    nodup := hs.nodup
    mem_iff := fun u => (hs.mem_iff u).trans (and_congr_left fun _ => (hpushed u).symm)
    added := fun c hc => List.mem_append_left _ (hs.added c hc)
    held := hs.held
    left := hs.left
    empty := hs.empty
    occupied := fun hne => (hs.occupied hne).imp_right fun ⟨c, hc, hstage⟩ =>
      ⟨c, List.mem_append_left _ hc, hstage⟩ }

lemma wf_fail (hs : s.Wf) (h : s.failStep k = some t) : t.Wf := by
  simp only [failStep, Option.bind_eq_some_iff, Option.ite_none_right_eq_some,
    Option.some.injEq] at h
  obtain ⟨c, hc, hstage, rfl⟩ := h
  have hpushed := pushed_setAdd (.returned false) hc
    (by simp [hstage, AdditionStage.Entered])
  exact {
    ids := map_id_setAdd _ hc ▸ hs.ids
    nodup := hs.nodup
    mem_iff := fun u => (hs.mem_iff u).trans (and_congr_left fun _ => by
      simp [hpushed u, AdditionStage.Entered])
    added := fun d hd => added_setAdd hc (by simp [hstage]) (hs.added d hd) rfl
    held := hs.held
    left := hs.left
    empty := hs.empty
    occupied := fun hne => (hs.occupied hne).imp_right fun ⟨d, hd, hpending⟩ =>
      ⟨d, Vec.mem_set_of_ne hc hd (by rintro rfl; simp [hstage] at hpending), hpending⟩ }

lemma wf_push (hs : s.Wf) (h : s.pushStep k = some t) : t.Wf := by
  simp only [pushStep, Option.bind_eq_some_iff, Option.ite_none_right_eq_some,
    Option.some.injEq] at h
  obtain ⟨c, hc, ⟨hstage, hlock⟩, rfl⟩ := h
  have hmem := List.mem_of_getElem? hc
  have hlt := (List.getElem?_eq_some_iff.mp hc).1
  have hpushed := pushed_setAdd .pushed hc (fun _ => trivial)
  have hremoved : ¬ s.Removed c.id := hs.not_removed hmem (by simp [hstage])
  -- the session is not in the group yet, for its addition is the only one for it
  have hnew : c.id ∉ s.subscribeGroup := by
    intro hin
    obtain ⟨⟨d, hd, hid, hentered⟩, -⟩ := (hs.mem_iff c.id).mp hin
    rw [hs.eq_of_id_eq hd hmem hid, hstage] at hentered
    exact hentered.elim
  exact {
    ids := map_id_setAdd (s := s) _ hc ▸ hs.ids
    nodup := by
      refine List.nodup_append.mpr ⟨hs.nodup, List.nodup_singleton _, ?_⟩
      rintro u hu v hv rfl
      exact hnew (List.mem_singleton.mp hv ▸ hu)
    mem_iff := fun u => by
      change u ∈ s.subscribeGroup ++ [c.id] ↔ (s.setAdd k c .pushed).Pushed u ∧ ¬ s.Removed u
      rw [List.mem_append, List.mem_singleton, hs.mem_iff, Registered, hpushed]
      by_cases hu : u = c.id
      · subst hu
        simp [hremoved, AdditionStage.Entered]
      · simp [hu, Ne.symm hu]
    added := fun d hd => added_setAdd hc (by simp [hstage]) (hs.added d hd) rfl
    held := hs.held
    left := fun hne => absurd hlock hne
    empty := fun _ hnil => by simp [setAdd] at hnil
    occupied := fun _ => .inr ⟨_, List.mem_set hlt _, rfl⟩ }

lemma wf_reset (hs : s.Wf) (h : s.resetStep k = some t) : t.Wf := by
  simp only [resetStep, Option.bind_eq_some_iff, Option.ite_none_right_eq_some,
    Option.some.injEq] at h
  obtain ⟨c, hc, hstage, rfl⟩ := h
  have hmem := List.mem_of_getElem? hc
  have hin := hs.mem_of_pushed hmem hstage
  have hpushed := pushed_setAdd (.returned true) hc (fun _ => trivial)
  exact {
    ids := map_id_setAdd (s := s) _ hc ▸ hs.ids
    nodup := hs.nodup
    mem_iff := fun u => by
      refine (hs.mem_iff u).trans (and_congr_left fun _ => ?_)
      change _ ↔ (s.setAdd k c (.returned true)).Pushed u
      rw [hpushed, or_iff_right_of_imp]
      rintro ⟨rfl, -⟩
      exact ⟨c, hmem, rfl, by rw [hstage]; trivial⟩
    added := fun d hd => added_setAdd hc (by simp [hstage]) (hs.added d hd) rfl
    held := hs.held
    left := hs.left
    -- the session is in the group, which therefore is not empty
    empty := fun _ hnil => by
      rw [show s.subscribeGroup = [] from hnil] at hin
      cases hin
    occupied := fun _ => .inl rfl }

lemma wf_remove (hs : s.Wf) (h : s.removeStep id = some t) : t.Wf := by
  rw [removeStep] at h
  split_ifs at h with hadded
  rw [Option.some.injEq] at h
  subst h
  have hremoved : ∀ u, (∃ c ∈ s.removes ++ [⟨id, .waiting⟩], c.id = u ∧ c.stage.Found) ↔
      s.Removed u := by
    exact fun u => Vec.exists_mem_concat_iff fun h => h.2.elim
  exact {
    ids := hs.ids
    nodup := hs.nodup
    mem_iff := fun u =>
      (hs.mem_iff u).trans (and_congr_right fun _ => not_congr (hremoved u).symm)
    added := fun c hc => by
      rcases List.mem_append.mp hc with hc | hc
      · exact hs.added c hc
      · rw [List.mem_singleton.mp hc]
        exact hadded
    held := fun j c flag hj hstage => by
      rw [List.getElem?_append] at hj
      split_ifs at hj
      · exact hs.held j c flag hj hstage
      · rw [List.mem_singleton.mp (List.mem_of_getElem? hj)] at hstage
        cases hstage
    left := hs.left
    empty := hs.empty
    occupied := hs.occupied }

/-- The group without a session has the others, and the session is taken out if it was there. -/
lemma mem_erase_iff_registered (hs : s.Wf) (id u : String) :
    u ∈ s.subscribeGroup.erase id ↔
      s.Pushed u ∧ ¬ (id = u ∧ id ∈ s.subscribeGroup ∨ s.Removed u) := by
  rw [hs.nodup.mem_erase_iff, hs.mem_iff, Registered]
  by_cases hu : u = id
  · subst hu
    have := hs.mem_iff u
    rw [Registered] at this
    tauto
  · simp [hu, Ne.symm hu]

/-- A removal that moves on, and does not begin to wait for the time, holds nothing. -/
lemma held_setRemove (hs : s.Wf) {c : RemoveCall} {stage : RemovalStage}
    (hc : s.removes[k]? = some c) {j : ℕ} {d : RemoveCall} {flag : Bool}
    (hj : (s.setRemove k c stage).removes[j]? = some d) (hstage : d.stage = .stamping flag) :
    j = k ∧ stage = .stamping flag ∨ j ≠ k ∧ s.groupLock = some j := by
  have hlt := (List.getElem?_eq_some_iff.mp hc).1
  by_cases hjk : j = k
  · subst hjk
    rw [setRemove, List.getElem?_set_self hlt, Option.some.injEq] at hj
    subst hj
    exact .inl ⟨rfl, hstage⟩
  · rw [setRemove, List.getElem?_set_ne (Ne.symm hjk)] at hj
    exact .inr ⟨hjk, hs.held j d flag hj hstage⟩

/-- What a removal finds, and leaves of the group. -/
lemma eraseStep_cases (h : s.eraseStep k = some t) :
    ∃ c, s.removes[k]? = some c ∧ c.stage = .waiting ∧ s.groupLock = none ∧
      (s.subscribeGroup.erase c.id = [] ∧
        t = { s with subscribeGroup := s.subscribeGroup.erase c.id
                     groupLock := some k }.setRemove k c
          (.stamping (decide (c.id ∈ s.subscribeGroup))) ∨
      s.subscribeGroup.erase c.id ≠ [] ∧
        t = { s with subscribeGroup := s.subscribeGroup.erase c.id }.setRemove k c
          (.returned (removeResult (decide (c.id ∈ s.subscribeGroup))))) := by
  simp only [eraseStep, Option.bind_eq_some_iff, Option.ite_none_right_eq_some,
    removeSession_fst, removeSession_snd, List.isEmpty_iff] at h
  obtain ⟨c, hc, ⟨hstage, hlock⟩, h⟩ := h
  refine ⟨c, hc, hstage, hlock, ?_⟩
  split_ifs at h with hempty
  · exact .inl ⟨hempty, (Option.some.inj h).symm⟩
  · exact .inr ⟨hempty, (Option.some.inj h).symm⟩

lemma found_removeResult (flag : Bool) :
    (RemovalStage.returned (removeResult flag)).Found ↔ flag = true := by
  cases flag <;> simp [removeResult, RemovalStage.Found]

lemma found_stamping (flag : Bool) : (RemovalStage.stamping flag).Found ↔ flag = true := by
  cases flag <;> simp [RemovalStage.Found]

lemma wf_erase (hs : s.Wf) (h : s.eraseStep k = some t) : t.Wf := by
  obtain ⟨c, hc, hstage, hlock, h⟩ := eraseStep_cases h
  have hwaiting : ¬ c.stage.Found := by rw [hstage]; exact id
  have hadded : ∀ stage, ∀ d ∈ (s.setRemove k c stage).removes,
      ⟨d.id, .returned true⟩ ∈ s.adds := by
    intro stage d hd
    obtain ⟨e, he, hid⟩ := exists_of_mem_setRemove hc hd
    exact hid ▸ hs.added e he
  rcases h with ⟨hnil, rfl⟩ | ⟨hne, rfl⟩
  · exact {
      ids := hs.ids
      nodup := hs.nodup.erase c.id
      mem_iff := fun u => by
        refine (mem_erase_iff_registered hs c.id u).trans (and_congr_right fun _ => ?_)
        change _ ↔ ¬ (s.setRemove k c _).Removed u
        rw [removed_setRemove hc (fun h => absurd h hwaiting), found_stamping, decide_eq_true_eq]
      added := hadded _
      held := fun j d flag hj hd => by
        rcases held_setRemove hs hc hj hd with ⟨rfl, -⟩ | ⟨-, hj⟩
        · rfl
        · rw [hlock] at hj
          cases hj
      left := fun _ => hnil
      empty := fun hnone => by cases hnone
      occupied := fun hne => absurd hnil hne }
  · have hold : s.subscribeGroup ≠ [] := by
      intro hnil
      rw [hnil] at hne
      exact hne rfl
    exact {
      ids := hs.ids
      nodup := hs.nodup.erase c.id
      mem_iff := fun u => by
        refine (mem_erase_iff_registered hs c.id u).trans (and_congr_right fun _ => ?_)
        change _ ↔ ¬ (s.setRemove k c _).Removed u
        rw [removed_setRemove hc (fun h => absurd h hwaiting), found_removeResult,
          decide_eq_true_eq]
      added := hadded _
      held := fun j d flag hj hd => by
        rcases held_setRemove hs hc hj hd with ⟨-, hstamping⟩ | ⟨-, hj⟩
        · cases hstamping
        · exact hj
      left := fun hsome => absurd hlock hsome
      empty := fun _ hnil => absurd hnil hne
      occupied := fun _ => hs.occupied hold }

lemma wf_stamp (hs : s.Wf) {now : Millis} (h : s.stampStep k now = some t) : t.Wf := by
  simp only [stampStep, Option.bind_eq_some_iff] at h
  obtain ⟨c, hc, h⟩ := h
  split at h
  · rename_i flag hstage
    rw [Option.some.injEq] at h
    subst h
    have hheld := hs.held k c flag hc hstage
    have hnil := hs.left (by simp [hheld])
    exact {
      ids := hs.ids
      nodup := hs.nodup
      mem_iff := fun u => by
        refine (hs.mem_iff u).trans (and_congr_right fun _ => ?_)
        change _ ↔ ¬ (s.setRemove k c _).Removed u
        rw [removed_setRemove hc (by rw [hstage, found_stamping, found_removeResult]; exact id),
          or_iff_right_of_imp]
        rintro ⟨rfl, hfound⟩
        refine ⟨c, List.mem_of_getElem? hc, rfl, ?_⟩
        rwa [hstage, found_stamping, ← found_removeResult]
      added := fun d hd => by
        obtain ⟨e, he, hid⟩ := exists_of_mem_setRemove hc hd
        exact hid ▸ hs.added e he
      held := fun j d flag' hj hd => by
        rcases held_setRemove hs hc hj hd with ⟨-, hstamping⟩ | ⟨hne, hj⟩
        · cases hstamping
        · rw [hheld, Option.some.injEq] at hj
          exact absurd hj.symm hne
      left := fun _ => hnil
      empty := fun _ _ => now.2
      occupied := fun hne => absurd hnil hne }
  · cases h
  · cases h

/-- **The invariant of the registry**: every section keeps it. -/
theorem wf_step (hs : s.Wf) (h : s.step a = some t) : t.Wf := by
  cases a with
  | add id => exact wf_add hs h
  | fail k => exact wf_fail hs h
  | push k => exact wf_push hs h
  | reset k => exact wf_reset hs h
  | remove id => exact wf_remove hs h
  | erase k => exact wf_erase hs h
  | stamp k now => exact wf_stamp hs h

lemma wf_of_init (h : registryMachine.init s) : s.Wf := by
  obtain ⟨now, rfl⟩ := h
  exact {
    ids := List.nodup_nil
    nodup := List.nodup_nil
    mem_iff := by simp [new, Registered, Pushed]
    added := by simp [new]
    held := by simp [new]
    left := fun _ => rfl
    empty := fun _ _ => now.2
    occupied := fun hne => absurd rfl hne }

/-! ### What is promised -/

/-- An addition is in progress. -/
def Adding (s : RegistrySystem) : Prop :=
  ∃ c ∈ s.adds, c.stage = .building ∨ c.stage = .pushed

/-- What a section does to the group: that of an addition enters its session at the end, and that
of a removal takes its own session out, finding it exactly if it is there, and keeps the others in
their order; the time is written without a change of the group, and of what was found. -/
def GroupChange (s : RegistrySystem) (t : RegistrySystem) : RegistryAction → Prop
  | .push k => ∃ c, s.adds[k]? = some c ∧ t.subscribeGroup = s.subscribeGroup ++ [c.id]
  | .erase k => ∃ c d, s.removes[k]? = some c ∧ t.removes[k]? = some d ∧ d.id = c.id ∧
      t.subscribeGroup = s.subscribeGroup.filter (· ≠ c.id) ∧
      (d.stage.Found ↔ c.id ∈ s.subscribeGroup)
  | .stamp k _ => ∃ c d, s.removes[k]? = some c ∧ t.removes[k]? = some d ∧ d.id = c.id ∧
      t.subscribeGroup = s.subscribeGroup ∧ (d.stage.Found ↔ c.stage.Found) ∧
      ∃ result, d.stage = .returned result
  | .add _ | .fail _ | .reset _ | .remove _ => t.subscribeGroup = s.subscribeGroup

/-- **What the sections do to the group.** -/
theorem groupChange_step (hs : s.Wf) (h : s.step a = some t) : s.GroupChange t a := by
  cases a with
  | add id =>
      simp only [step, addStep, Option.ite_none_left_eq_some, Option.some.injEq] at h
      obtain ⟨-, rfl⟩ := h
      rfl
  | fail k =>
      simp only [step, failStep, Option.bind_eq_some_iff, Option.ite_none_right_eq_some,
        Option.some.injEq] at h
      obtain ⟨c, -, -, rfl⟩ := h
      rfl
  | push k =>
      simp only [step, pushStep, Option.bind_eq_some_iff, Option.ite_none_right_eq_some,
        Option.some.injEq] at h
      obtain ⟨c, hc, -, rfl⟩ := h
      exact ⟨c, hc, rfl⟩
  | reset k =>
      simp only [step, resetStep, Option.bind_eq_some_iff, Option.ite_none_right_eq_some,
        Option.some.injEq] at h
      obtain ⟨c, -, -, rfl⟩ := h
      rfl
  | remove id =>
      simp only [step, removeStep, Option.ite_none_right_eq_some, Option.some.injEq] at h
      obtain ⟨-, rfl⟩ := h
      rfl
  | erase k =>
      obtain ⟨c, hc, -, -, h⟩ := eraseStep_cases h
      have hlt := (List.getElem?_eq_some_iff.mp hc).1
      have hfilter : s.subscribeGroup.erase c.id = s.subscribeGroup.filter (· ≠ c.id) := by
        rw [hs.nodup.erase_eq_filter]
        exact List.filter_congr fun u _ => by by_cases hu : u = c.id <;> simp [hu]
      rcases h with ⟨-, rfl⟩ | ⟨-, rfl⟩
      · exact ⟨c, _, hc, List.getElem?_set_self hlt, rfl, hfilter, by
          rw [found_stamping, decide_eq_true_eq]⟩
      · exact ⟨c, _, hc, List.getElem?_set_self hlt, rfl, hfilter, by
          rw [found_removeResult, decide_eq_true_eq]⟩
  | stamp k now =>
      simp only [step, stampStep, Option.bind_eq_some_iff] at h
      obtain ⟨c, hc, h⟩ := h
      have hlt := (List.getElem?_eq_some_iff.mp hc).1
      split at h
      · rename_i flag hstage
        cases h
        refine ⟨c, _, hc, List.getElem?_set_self hlt, rfl, rfl, ?_, _, rfl⟩
        rw [hstage, found_stamping, found_removeResult]
      · cases h
      · cases h

/-- Every session is in the group once, or not at all. -/
lemma Wf.count (hs : s.Wf) (id : String) :
    (s.Registered id → s.subscribeGroup.count id = 1) ∧
      (¬ s.Registered id → s.subscribeGroup.count id = 0) := by
  rw [← hs.mem_iff]
  exact ⟨List.count_eq_one_of_mem hs.nodup, List.count_eq_zero.mpr⟩

/-- The time says whether there are subscribers, unless an addition is in progress. -/
lemma Wf.leaveTime (hs : s.Wf) (hidle : ¬ s.Adding) {group : List String} {time : ℤ}
    (hinfo : s.info = some (group, time)) : time = 0 ↔ group ≠ [] := by
  rw [info, Option.ite_none_right_eq_some, Option.some.injEq, Prod.mk.injEq] at hinfo
  obtain ⟨hlock, rfl, rfl⟩ := hinfo
  constructor
  · intro htime hnil
    have hpos := hs.empty hlock hnil
    omega
  · intro hne
    rcases hs.occupied hne with htime | ⟨c, hc, hpushed⟩
    · exact htime
    · exact absurd ⟨c, hc, .inr hpushed⟩ hidle

end RegistrySystem

open RegistrySystem in
/-- **The registry of the subscribers**: in every state that the calls reach, a session is in the
group once if it was added and not removed, and else not at all; what can be read of the group
and the time is, while no addition is in progress, the time zero exactly if there are subscribers;
and a removal finds its session exactly if it is in the group, of which it takes out nothing
else. -/
theorem registry_sound {s : RegistrySystem} (h : registryMachine.Reachable s) :
    (∀ id, (s.Registered id → s.subscribeGroup.count id = 1) ∧
      (¬ s.Registered id → s.subscribeGroup.count id = 0)) ∧
    (¬ s.Adding → ∀ group time, s.info = some (group, time) → (time = 0 ↔ group ≠ [])) ∧
    ∀ a t, s.step a = some t → s.GroupChange t a :=
  have hs : s.Wf := h.invariant (fun _ => wf_of_init) fun _ _ _ hs h => wf_step hs h
  ⟨hs.count, fun hidle _ _ hinfo => hs.leaveTime hidle hinfo, fun _ _ h => groupChange_step hs h⟩

/-- Two sessions are added, and the first one is removed while the second one is entered. -/
def overlappingCalls : List RegistryAction :=
  [.add "a", .push 0, .reset 0, .add "b", .push 1, .remove "a", .erase 0, .reset 1]

/-- After it the second session is in the group, and the time is zero. -/
theorem registry_overlappingCalls :
    ∃ s, registryMachine.exec (.new ⟨1, by decide⟩) overlappingCalls = some s ∧
      s.subscribeGroup.count "b" = 1 ∧ s.subscribeLeaveTime = 0 := by
  have hend : (registryMachine.exec (.new ⟨1, by decide⟩) overlappingCalls).any
      (fun s => decide (s.groupLock = none ∧ s.subscribeGroup = ["b"] ∧
        s.adds = [⟨"a", .returned true⟩, ⟨"b", .returned true⟩] ∧
        s.removes = [⟨"a", .returned (.ok ())⟩])) = true := by decide
  obtain ⟨s, h, hs⟩ := (Option.any_eq_true _ _).mp hend
  obtain ⟨hlock, hgroup, hadds, hremoves⟩ := of_decide_eq_true hs
  obtain ⟨hcount, htime, -⟩ := registry_sound ⟨_, overlappingCalls, ⟨⟨1, by decide⟩, rfl⟩, h⟩
  refine ⟨s, h, (hcount "b").1 ?_, (htime ?_ s.subscribeGroup s.subscribeLeaveTime ?_).mpr ?_⟩
  · simp [RegistrySystem.Registered, RegistrySystem.Pushed, RegistrySystem.Removed, hadds, hremoves,
      AdditionStage.Entered]
  · simp [RegistrySystem.Adding, hadds]
  · simp [RegistrySystem.info, hlock]
  · simp [hgroup]

end SfuServer
