import SfuServer.Ws.Privacy

/-!
Who can read what over the data channels of a stream: the frames that the write loop of a user
takes from the user's channel, over all runs of `dataChannelMachine`.

`data_channel_read_loop` reads every message into the same buffer and takes the address from the
buffer, not from the message.  So a message that is shorter than an address is completed by the
bytes that earlier messages of the same user have left there.

* `overlay`, `payloadAfter`: the buffer behind its header, after a list of messages; a byte of the
  address is that of the last message that has one (`getElem?_payloadAfter`);
* `dataChannelReadStep_eq`: a turn of the read loop on a message of any length;
* `Became`, `became_of_step`: what a step does to a session;
* `traced_step`: every step keeps the frames where they may be;
* `frame_for_writer`: what a write loop takes was addressed to its user, or to everybody.
-/

open Std (ExtTreeMap)

namespace SfuServer

open Endian

/-! ### The buffer of a read loop -/

/-- A message is copied over what stands in the buffer. -/
def overlay (old m : Bytes) : Bytes := m ++ old.drop m.length

/-- The buffer of a user's read loop behind the header, after a list of messages. -/
def payloadAfter (id : UInt32) (ms : List Bytes) : Bytes :=
  ms.foldl overlay (leBytes id ++ List.replicate messageSize 0)

/-- A message of at least four bytes has its own address. -/
lemma addressee_overlay {old m : Bytes} (hm : 4 ≤ m.length) :
    addressee (overlay old m) = addressee m := by
  have hget : ∀ i < 4, (overlay old m).getD i 0 = m.getD i 0 := by
    intro i hi
    rw [overlay, List.getD_eq_getElem?_getD, List.getElem?_append_left (by omega),
      List.getD_eq_getElem?_getD]
  rw [addressee, addressee, hget 0 (by omega), hget 1 (by omega), hget 2 (by omega),
    hget 3 (by omega)]

/-- A byte of the buffer is that of the message, if the message is long enough. -/
lemma getElem?_overlay (old m : Bytes) (i : ℕ) :
    (overlay old m)[i]? = if i < m.length then m[i]? else old[i]? := by
  rw [overlay]
  split_ifs with hi
  · exact List.getElem?_append_left hi
  · rw [List.getElem?_append_right (by omega), List.getElem?_drop]
    congr 1
    omega

/-- **What is left in the buffer**: each of the four bytes of the address is that of the last
message that is long enough to have it, and the byte of the user's own id if there is none. -/
theorem getElem?_payloadAfter (id : UInt32) (ms : List Bytes) {i : ℕ} (hi : i < 4) :
    (payloadAfter id ms)[i]? =
      ((ms.filter fun m => decide (i < m.length)).getLast?.getD (leBytes id))[i]? := by
  induction ms using List.reverseRecOn with
  | nil => exact List.getElem?_append_left hi
  | append_singleton ms m ih =>
      rw [payloadAfter, List.foldl_concat, getElem?_overlay, List.filter_append,
        List.getLast?_append]
      split_ifs with hm
      · simp [hm]
      · rw [← payloadAfter, ih]
        simp [hm]

namespace ReadBuffer

variable {id : UInt32}

/-- What stands in the buffer behind the header. -/
def payload (b : ReadBuffer id) : Bytes := b.bytes.drop 5

lemma payload_new (id : UInt32) : (ReadBuffer.new id).payload = payloadAfter id [] := by
  have hbytes : (ReadBuffer.new id).bytes =
      header 0 id ++ (leBytes id ++ List.replicate messageSize 0) := List.append_assoc _ _ _
  rw [payload, hbytes, List.drop_left' (header_length 0 id)]
  rfl

lemma payload_read (b : ReadBuffer id) (m : Bytes) (hm : m.length ≤ 4 + messageSize) :
    (b.read m hm).payload = overlay b.payload m := by
  rw [payload, read_bytes, List.drop_left' (header_length 0 id), overlay, payload, List.drop_drop,
    Nat.add_comm]

end ReadBuffer

/-- A turn of the data-channel loop on a message of any length that fits: the address is what the
buffer has in its place. -/
lemma dataChannelReadStep_eq {σ : Type*} {id : UInt32} (users : ExtTreeMap UInt32 σ)
    (b : ReadBuffer id) {m : Bytes} (hm : m.length ≤ 4 + messageSize) (hpos : 0 < m.length) :
    dataChannelReadStep users b m =
      ((if addressee (overlay b.payload m) = id then .broadcast (header 0 id ++ m)
      else
        match users[addressee (overlay b.payload m)]? with
        | some channel =>
            .unicast (addressee (overlay b.payload m)) channel (header 0 id ++ m.dropLast)
        | none => .unregistered (addressee (overlay b.payload m)) : Routing σ), b.read m hm) := by
  set p := overlay b.payload m with hp
  have hpm : p = m ++ b.payload.drop m.length := rfl
  have hbuf : (b.read m hm).bytes = header 0 id ++ p := by
    rw [b.read_bytes m hm, hpm, ReadBuffer.payload, List.drop_drop]
  have hlen : 4 ≤ p.length := by
    have := congrArg List.length hbuf
    rw [(b.read m hm).length_eq, List.length_append, header_length] at this
    omega
  have hfrom : slice (header 0 id ++ p) 1 5 = leBytes id := by simp [slice, header]
  have hto : slice (header 0 id ++ p) 5 9 = p.take 4 := by
    rw [slice, List.drop_left' (header_length 0 id)]
  have hget : ∀ i, (header 0 id ++ p).getD (5 + i) 0 = p.getD i 0 := by
    intro i
    rw [List.getD_eq_getElem?_getD, List.getElem?_append_right (by simp), header_length,
      Nat.add_sub_cancel_left, List.getD_eq_getElem?_getD]
  have haddr : ofBeBytes ((header 0 id ++ p).getD 8 0) ((header 0 id ++ p).getD 7 0)
      ((header 0 id ++ p).getD 6 0) ((header 0 id ++ p).getD 5 0) = addressee p := by
    rw [addressee, ← hget 0, ← hget 1, ← hget 2, ← hget 3]
  have hwhole : (header 0 id ++ p).take (m.length + 5) = header 0 id ++ m := by
    rw [hpm, ← List.append_assoc,
      List.take_left' (by rw [List.length_append, header_length]; omega)]
  have hshort : (header 0 id ++ p).take (m.length + 4) = header 0 id ++ m.dropLast := by
    rw [List.take_append, header_length, List.take_of_length_le (by rw [header_length]; omega),
      show m.length + 4 - 5 = m.length - 1 by omega, hpm,
      List.take_append_of_le_length (Nat.sub_le _ _), List.dropLast_eq_take]
  rw [dataChannelReadStep]
  simp only [dif_pos hm, if_neg (show m.length ≠ 0 by omega), hbuf, hfrom, hto, haddr, hwhole,
    hshort, eq_comm (a := leBytes id), take_eq_leBytes_iff hlen]
  split_ifs
  · rfl
  · cases users[addressee p]? <;> rfl

namespace DataChannelSystem

variable {s t : DataChannelSystem} {a : DataChannelAction}

/-! ### What a step does to a session -/

/-- The read loop of a session has ended. -/
def HasEnded (c : DataChannelSession) : Prop := ∃ cause, c.readLoop = .ended cause

/-- What an action makes of the buffer of the session `j`. -/
def takes (a : DataChannelAction) (j : ℕ) (old : Bytes) : Bytes :=
  match a with
  | .read i m => if i = j then overlay old m else old
  | _ => old

/-- The frames that an action can put on the channel of the session `j`: a pipe passes on a frame
of the group that is not from the session's user, and a read loop sends a message there. -/
def Passes (s : DataChannelSystem) (j : ℕ) (c : DataChannelSession) (f : Bytes) :
    DataChannelAction → Prop
  | .pipe i => i = j ∧ f ∈ s.dataChannelForward.log ∧ Group.frameSender f ≠ c.id
  | .read i m => ∃ d u, s.sessions[i]? = some d ∧
      (dataChannelReadStep s.userSenderMap d.buffer m).1 = .unicast u j f
  | _ => False

/-- A later stage of a session. -/
structure Became (s : DataChannelSystem) (a : DataChannelAction) (j : ℕ)
    (c c' : DataChannelSession) : Prop where
  id : c'.id = c.id
  channel : c'.userSender.log = c.userSender.log ∨
    ∃ f, s.Passes j c f a ∧ c'.userSender.log = c.userSender.log ++ [f]
  ended : HasEnded c → HasEnded c'
  payload : HasEnded c' ∨ c'.buffer.payload = takes a j c.buffer.payload
  reader : (∀ written, a ≠ .write j written) → a ≠ .spawnWrite j →
    c'.writeLoop = c.writeLoop ∧ c'.userSender.cursors[j]? = c.userSender.cursors[j]?

/-- The sessions that are there go on, and a new one has read nothing. -/
structure SessionsBecame (s : DataChannelSystem) (a : DataChannelAction)
    (sessions : List DataChannelSession) : Prop where
  old : ∀ (j : ℕ) (c : DataChannelSession), s.sessions[j]? = some c →
    ∃ c', sessions[j]? = some c' ∧ s.Became a j c c'
  new : ∀ (j : ℕ) (c' : DataChannelSession), s.sessions[j]? = none → sessions[j]? = some c' →
    c'.userSender.log = [] ∧ c'.buffer.payload = payloadAfter c'.id [] ∧
      (∀ i m, a ≠ .read i m) ∧ c'.writeLoop = none

lemma Became.same {j : ℕ} {c : DataChannelSession} (ha : ∀ old, takes a j old = old) :
    s.Became a j c c :=
  ⟨rfl, .inl rfl, fun h => h, .inr (ha _).symm, fun _ _ => ⟨rfl, rfl⟩⟩

/-- One session goes on, and the action is no read of another one. -/
lemma sessionsBecame_set {i : ℕ} {c c' : DataChannelSession} (hc : s.sessions[i]? = some c)
    (ha : ∀ j ≠ i, ∀ old, takes a j old = old) (h : s.Became a i c c') :
    s.SessionsBecame a (s.sessions.set i c') where
  old j d hd := by
    have hlt := (List.getElem?_eq_some_iff.mp hc).1
    by_cases hj : i = j
    · subst hj
      obtain rfl := Option.some.inj (hc.symm.trans hd)
      exact ⟨c', List.getElem?_set_self hlt, h⟩
    · exact ⟨d, by rw [List.getElem?_set_ne hj, hd], .same (ha j (Ne.symm hj))⟩
  new j d hnone hd := by
    rw [List.getElem?_eq_none_iff] at hnone
    have hlt := (List.getElem?_eq_some_iff.mp hd).1
    rw [List.length_set] at hlt
    omega

lemma sessionsBecame_refl (ha : ∀ j old, takes a j old = old) :
    s.SessionsBecame a s.sessions where
  old j c hc := ⟨c, hc, .same (ha j)⟩
  new j c' hnone hc' := by rw [hnone] at hc'; cases hc'

/-- The session of a turn has the message in its buffer, or ends. -/
lemma payload_of_read {id : UInt32} (users : ExtTreeMap UInt32 ℕ) (b : ReadBuffer id) (m : Bytes) :
    (dataChannelReadStep users b m).1 = .stop ∨
      (dataChannelReadStep users b m).2.payload = overlay b.payload m := by
  by_cases hm : m.length ≤ 4 + messageSize
  · by_cases hpos : 0 < m.length
    · rw [dataChannelReadStep_eq users b hm hpos]
      exact .inr (b.payload_read m hm)
    · rw [dataChannelReadStep, dif_pos hm, if_pos (by omega)]
      exact .inl rfl
  · rw [dataChannelReadStep, dif_neg hm]
    exact .inl rfl

/-- A turn of a read loop: its session has the message in its buffer or has ended, and the session
of the addressee has one more frame on its channel. -/
lemma sessionsBecame_read {i : ℕ} {m : Bytes} (h : s.step (.read i m) = some t) :
    s.SessionsBecame (.read i m) t.sessions := by
  simp only [step, readStep, Option.bind_eq_some_iff, Option.ite_none_right_eq_some] at h
  obtain ⟨c, hc, hreading, h⟩ := h
  have hnot : ¬ HasEnded c := by
    rintro ⟨cause, hcause⟩
    rw [hreading] at hcause
    cases hcause
  have hother : ∀ j ≠ i, ∀ old, takes (.read i m) j old = old := fun j hj old =>
    if_neg (Ne.symm hj)
  have hbuffer := payload_of_read s.userSenderMap c.buffer m
  set b := (dataChannelReadStep s.userSenderMap c.buffer m).2 with hb
  have hread (hstop : (dataChannelReadStep s.userSenderMap c.buffer m).1 ≠ .stop) :
      s.Became (.read i m) i c { c with buffer := b } :=
    ⟨rfl, .inl rfl, fun hended => absurd hended hnot,
      .inr ((hbuffer.resolve_left hstop).trans (if_pos rfl).symm), fun _ _ => ⟨rfl, rfl⟩⟩
  have hended (cause : ReadEnd) :
      s.SessionsBecame (.read i m) ((s.sessions.set i { c with buffer := b }).set i
        { c with readLoop := .ended cause }) := by
    rw [List.set_set]
    exact sessionsBecame_set hc hother ⟨rfl, .inl rfl, fun _ => ⟨_, rfl⟩, .inl ⟨_, rfl⟩,
      fun _ _ => ⟨rfl, rfl⟩⟩
  split at h
  · rename_i frame hframe
    have hset := sessionsBecame_set hc hother (hread (by rw [hframe]; simp))
    split at h
    · cases h
      exact hset
    · cases h
      exact hended _
  · rename_i u k frame hframe
    have hset := sessionsBecame_set hc hother (hread (by rw [hframe]; simp))
    obtain ⟨d, hd, h⟩ := Option.bind_eq_some_iff.mp h
    split at h
    · rename_i channel hchannel
      cases h
      obtain ⟨-, rfl⟩ := (d.userSender.send_eq_some_iff frame).mp hchannel
      have hlt := (List.getElem?_eq_some_iff.mp hd).1
      refine ⟨fun j e he => ?_, fun j e' hnone he' => ?_⟩
      · obtain ⟨e', he', hbecame⟩ := hset.old j e he
        by_cases hj : k = j
        · subst hj
          obtain rfl := Option.some.inj (hd.symm.trans he')
          -- the first change was to the buffer of the sender
          have hsender : d.userSender = e.userSender := by
            by_cases hi : i = k
            · subst hi
              obtain rfl := Option.some.inj (hc.symm.trans he)
              have hd' := he'
              rw [List.getElem?_set_self (List.getElem?_eq_some_iff.mp hc).1] at hd'
              rw [← Option.some.inj hd']
            · rw [List.getElem?_set_ne hi, he] at he'
              rw [Option.some.inj he']
          exact ⟨_, List.getElem?_set_self hlt, hbecame.id,
            .inr ⟨frame, ⟨c, u, hc, hframe⟩, by rw [Broadcast.push_log, hsender]⟩,
            hbecame.ended, hbecame.payload, hbecame.reader⟩
        · exact ⟨e', by dsimp only [setSession]; rw [List.getElem?_set_ne hj]; exact he', hbecame⟩
      · rw [List.getElem?_eq_none_iff] at hnone
        have hlt' := (List.getElem?_eq_some_iff.mp he').1
        simp only [setSession, List.length_set] at hlt'
        omega
    · cases h
      exact hended _
  · rename_i u hframe
    cases h
    exact sessionsBecame_set hc hother (hread (by rw [hframe]; simp))
  · cases h
    exact hended _
  · cases h
    exact hended _

/-- **What a step does to the sessions.** -/
theorem became_of_step (h : s.step a = some t) : s.SessionsBecame a t.sessions := by
  cases a with
  | register id =>
      cases h
      refine ⟨fun j c hc => ⟨c, ?_, .same fun _ => rfl⟩, fun j c' hnone hc' => ?_⟩
      · exact (List.getElem?_append_left (List.getElem?_eq_some_iff.mp hc).1).trans hc
      · rcases Vec.getElem?_concat_cases hc' with ⟨-, rfl⟩ | hc'
        · exact ⟨rfl, ReadBuffer.payload_new id, by simp, rfl⟩
        · rw [hnone] at hc'
          cases hc'
  | opened i =>
      simp only [step, openedStep, Option.bind_eq_some_iff, Option.ite_none_right_eq_some,
        Option.some.injEq] at h
      obtain ⟨c, hc, hwaiting, rfl⟩ := h
      refine sessionsBecame_set hc (fun _ _ _ => rfl)
        ⟨rfl, .inl rfl, ?_, .inr rfl, fun _ _ => ⟨rfl, rfl⟩⟩
      rintro ⟨cause, hcause⟩
      rw [hwaiting] at hcause
      cases hcause
  | spawnWrite i =>
      simp only [step, spawnWriteStep, Option.bind_eq_some_iff, Option.ite_none_right_eq_some,
        Option.some.injEq] at h
      obtain ⟨c, hc, -, rfl⟩ := h
      exact sessionsBecame_set hc (fun _ _ _ => rfl)
        ⟨rfl, .inl rfl, id, .inr rfl, fun _ hno => absurd rfl hno⟩
  | spawnPipe i =>
      simp only [step, spawnPipeStep, Option.bind_eq_some_iff, Option.ite_none_right_eq_some,
        Option.some.injEq] at h
      obtain ⟨c, hc, -, rfl⟩ := h
      exact sessionsBecame_set hc (fun _ _ _ => rfl)
        ⟨rfl, .inl rfl, id, .inr rfl, fun _ _ => ⟨rfl, rfl⟩⟩
  | notice id =>
      cases h
      exact sessionsBecame_refl fun _ _ => rfl
  | remove id =>
      cases h
      exact sessionsBecame_refl fun _ _ => rfl
  | announce i =>
      simp only [step, announceStep, Option.bind_eq_some_iff, Option.ite_none_right_eq_some] at h
      obtain ⟨c, hc, hannouncing, h⟩ := h
      have hnot : ¬ HasEnded c := by
        rintro ⟨cause, hcause⟩
        rw [hannouncing] at hcause
        cases hcause
      split at h
      · cases h
        exact sessionsBecame_set hc (fun _ _ _ => rfl)
          ⟨rfl, .inl rfl, fun hended => absurd hended hnot, .inr rfl, fun _ _ => ⟨rfl, rfl⟩⟩
      · cases h
        exact sessionsBecame_set hc (fun _ _ _ => rfl)
          ⟨rfl, .inl rfl, fun _ => ⟨_, rfl⟩, .inl ⟨_, rfl⟩, fun _ _ => ⟨rfl, rfl⟩⟩
  | read i m => exact sessionsBecame_read h
  | readErr i =>
      simp only [step, readErrStep, Option.bind_eq_some_iff, Option.ite_none_right_eq_some,
        Option.some.injEq] at h
      obtain ⟨c, hc, -, rfl⟩ := h
      exact sessionsBecame_set hc (fun _ _ _ => rfl)
        ⟨rfl, .inl rfl, fun _ => ⟨_, rfl⟩, .inl ⟨_, rfl⟩, fun _ _ => ⟨rfl, rfl⟩⟩
  | write i written =>
      simp only [step, writeStep, Option.bind_eq_some_iff, Option.ite_none_right_eq_some] at h
      obtain ⟨c, hc, -, h⟩ := h
      have hstopped : s.SessionsBecame (.write i written) (s.sessions.set i { c with
          userSender := c.userSender.unsubscribe i, writeLoop := some .finished }) :=
        sessionsBecame_set hc (fun _ _ _ => rfl)
          ⟨rfl, .inl rfl, id, .inr rfl, fun hno => absurd rfl (hno written)⟩
      split at h
      · rename_i f channel hchannel
        obtain rfl : (c.userSender.recv i).2 = channel := by rw [hchannel]
        split_ifs at h
        · cases h
          exact sessionsBecame_set hc (fun _ _ _ => rfl)
            ⟨rfl, .inl (Broadcast.recv_log _ _), id, .inr rfl, fun hno => absurd rfl (hno _)⟩
        · cases h
          exact hstopped
      · cases h
        exact hstopped
      · split_ifs at h
        cases h
        exact hstopped
  | pipe i =>
      simp only [step, pipeStep, Option.bind_eq_some_iff, Option.ite_none_right_eq_some] at h
      obtain ⟨c, hc, -, h⟩ := h
      have hstopped : s.SessionsBecame (.pipe i)
          (s.sessions.set i { c with pipeLoop := some .finished }) :=
        sessionsBecame_set hc (fun _ _ _ => rfl)
          ⟨rfl, .inl rfl, id, .inr rfl, fun _ _ => ⟨rfl, rfl⟩⟩
      split at h
      · cases h
      · cases h
        exact hstopped
      · rename_i f tx hrecv
        have hf : f ∈ s.dataChannelForward.log :=
          s.dataChannelForward.mem_log_of_recv (r := i + 1) (by rw [hrecv])
        split_ifs at h with hown
        · cases h
          exact sessionsBecame_refl fun _ _ => rfl
        · split at h
          · rename_i channel hchannel
            cases h
            obtain ⟨-, rfl⟩ := (c.userSender.send_eq_some_iff f).mp hchannel
            exact sessionsBecame_set hc (fun _ _ _ => rfl)
              ⟨rfl, .inr ⟨f, ⟨rfl, hf, hown⟩, rfl⟩, id, .inr rfl, fun _ _ => ⟨rfl, rfl⟩⟩
          · cases h
            exact hstopped

/-! ### The frames of the data channels -/

/-- The messages that the session `j` has read. -/
def messagesOf (as : List DataChannelAction) (j : ℕ) : List Bytes :=
  as.filterMap fun
    | .read i m => if i = j then some m else none
    | _ => none

lemma messagesOf_concat (as : List DataChannelAction) (a : DataChannelAction) (j : ℕ) :
    messagesOf (as ++ [a]) j = messagesOf as j ∨
      ∃ m, a = .read j m ∧ messagesOf (as ++ [a]) j = messagesOf as j ++ [m] := by
  rw [messagesOf, messagesOf, List.filterMap_append]
  cases a with
  | read i m =>
      by_cases hi : i = j
      · subst hi
        exact .inr ⟨m, rfl, by simp⟩
      · exact .inl (by simp [hi])
  | _ => exact .inl (by simp)

/-- The buffer takes a message as the list of the messages does. -/
lemma payloadAfter_messagesOf (id : UInt32) (as : List DataChannelAction) (a : DataChannelAction)
    (j : ℕ) : payloadAfter id (messagesOf (as ++ [a]) j) =
      takes a j (payloadAfter id (messagesOf as j)) := by
  rw [messagesOf, List.filterMap_append, ← messagesOf, payloadAfter, payloadAfter,
    List.foldl_append]
  cases a with
  | read i m =>
      by_cases hi : i = j
      · simp [takes, hi]
      · simp [takes, hi]
  | _ => rfl

/-- In the run so far, a session of the user `u` read a message for `d`, of which the relay makes
the frame `f`.  Who the message is for stands in the buffer, after this and the earlier messages
of the session; a message for another user loses its last byte. -/
def Wrote (s : DataChannelSystem) (as : List DataChannelAction) (u d : UInt32) (f : Bytes) : Prop :=
  ∃ j c ms m, s.sessions[j]? = some c ∧ c.id = u ∧ ms ++ [m] <+: messagesOf as j ∧
    addressee (payloadAfter u (ms ++ [m])) = d ∧ f = header 0 u ++ if d = u then m else m.dropLast

lemma signedBy_wrote (s : DataChannelSystem) (as : List DataChannelAction) :
    SignedBy (s.Wrote as) := by
  rintro u d f ⟨j, c, ms, m, -, -, -, -, rfl⟩
  exact List.prefix_append _ _

/-- What was written stays written. -/
lemma Wrote.step {as : List DataChannelAction} {u d : UInt32} {f : Bytes}
    (hbecame : s.SessionsBecame a t.sessions) (h : s.Wrote as u d f) :
    t.Wrote (as ++ [a]) u d f := by
  obtain ⟨j, c, ms, m, hc, hid, hms, hd, hf⟩ := h
  obtain ⟨c', hc', hsame⟩ := hbecame.old j c hc
  refine ⟨j, c', ms, m, hc', hsame.id.trans hid, hms.trans ?_, hd, hf⟩
  rcases messagesOf_concat as a j with h | ⟨m, -, h⟩
  · rw [h]
  · rw [h]
    exact List.prefix_append _ _

/-- The channels of the stream carry only what they may, the sender map leads to channels of the
users that it names, and the buffers hold what their sessions have read. -/
structure Traced (s : DataChannelSystem) (as : List DataChannelAction) : Prop where
  log : ∀ f ∈ s.dataChannelForward.log, ForGroup (s.Wrote as) f
  channel : ∀ (j : ℕ) (c : DataChannelSession), s.sessions[j]? = some c →
    ∀ f ∈ c.userSender.log, ForUser (s.Wrote as) c.id f
  senders : ∀ (u : UInt32) (k : ℕ), s.userSenderMap[u]? = some k →
    ∃ c, s.sessions[k]? = some c ∧ c.id = u
  unread : ∀ j, s.sessions[j]? = none → messagesOf as j = []
  buffer : ∀ (j : ℕ) (c : DataChannelSession), s.sessions[j]? = some c →
    HasEnded c ∨ c.buffer.payload = payloadAfter c.id (messagesOf as j)

/-- What a read loop that has a message makes of it: the frame is written in this step. -/
lemma wrote_of_read {as : List DataChannelAction} (hs : s.Traced as) {i : ℕ} {m : Bytes}
    (h : s.step (.read i m) = some t) {c : DataChannelSession} (hc : s.sessions[i]? = some c) :
    (∀ f, (dataChannelReadStep s.userSenderMap c.buffer m).1 = .broadcast f →
        t.Wrote (as ++ [.read i m]) c.id c.id f) ∧
      ∀ u k f, (dataChannelReadStep s.userSenderMap c.buffer m).1 = .unicast u k f →
        u ≠ c.id ∧ s.userSenderMap[u]? = some k ∧ t.Wrote (as ++ [.read i m]) c.id u f := by
  have hnot : ¬ HasEnded c := by
    simp only [step, readStep, Option.bind_eq_some_iff, Option.ite_none_right_eq_some] at h
    obtain ⟨c', hc', hreading, -⟩ := h
    obtain rfl := Option.some.inj (hc.symm.trans hc')
    rintro ⟨cause, hcause⟩
    rw [hreading] at hcause
    cases hcause
  obtain ⟨c', hc', hsame⟩ := (became_of_step h).old i c hc
  have hpayload : overlay c.buffer.payload m = payloadAfter c.id (messagesOf as i ++ [m]) := by
    rw [(hs.buffer i c hc).resolve_left hnot, payloadAfter, payloadAfter, List.foldl_concat]
  have hmessages : messagesOf (as ++ [.read i m]) i = messagesOf as i ++ [m] := by
    simp [messagesOf]
  have hwrote : ∀ d f, addressee (overlay c.buffer.payload m) = d →
      f = (header 0 c.id ++ if d = c.id then m else m.dropLast) →
        t.Wrote (as ++ [.read i m]) c.id d f := by
    intro d f hd hf
    exact ⟨i, c', messagesOf as i, m, hc', hsame.id, by rw [hmessages], hpayload ▸ hd, hf⟩
  by_cases hm : m.length ≤ 4 + messageSize
  · by_cases hpos : 0 < m.length
    · rw [dataChannelReadStep_eq s.userSenderMap c.buffer hm hpos]
      dsimp only
      split_ifs with hid
      · refine ⟨fun f hf => hwrote c.id f hid ?_, fun u k f hf => (by cases hf)⟩
        rw [if_pos rfl, Routing.broadcast.inj hf]
      · split
        · rename_i k hk
          refine ⟨fun f hf => (by cases hf), fun u k' f hf => ?_⟩
          obtain ⟨rfl, rfl, rfl⟩ := Routing.unicast.inj hf
          exact ⟨hid, hk, hwrote _ _ rfl (by rw [if_neg hid])⟩
        · exact ⟨fun f hf => (by cases hf), fun u k f hf => (by cases hf)⟩
    · rw [dataChannelReadStep, dif_pos hm, if_pos (by omega)]
      exact ⟨fun f hf => (by cases hf), fun u k f hf => (by cases hf)⟩
  · rw [dataChannelReadStep, dif_neg hm]
    exact ⟨fun f hf => (by cases hf), fun u k f hf => (by cases hf)⟩

/-- What is sent to the group in a step is written in it. -/
lemma forGroup_of_sends {as : List DataChannelAction} (hs : s.Traced as) (h : s.step a = some t)
    {f : Bytes} (hf : s.Sends a f) : ForGroup (t.Wrote (as ++ [a])) f := by
  cases a with
  | notice id => exact ⟨id, .inl ⟨false, hf⟩⟩
  | announce i =>
      obtain ⟨c, -, hf⟩ := hf
      exact ⟨c.id, .inl ⟨true, hf⟩⟩
  | read i m =>
      obtain ⟨c, hc, hf⟩ := hf
      exact ⟨c.id, .inr ((wrote_of_read hs h hc).1 f hf)⟩
  | _ => exact hf.elim

/-- What is put on a user's channel in a step is for this user. -/
lemma forUser_of_passes {as : List DataChannelAction} (hs : s.Traced as) (h : s.step a = some t)
    {j : ℕ} {c : DataChannelSession} (hc : s.sessions[j]? = some c) {f : Bytes}
    (hf : s.Passes j c f a) : ForUser (t.Wrote (as ++ [a])) c.id f := by
  cases a with
  | pipe i =>
      obtain ⟨-, hlog, hne⟩ := hf
      exact ((hs.log f hlog).forUser (s.signedBy_wrote as) hne).mono
        fun _ _ _ => Wrote.step (became_of_step h)
  | read i m =>
      obtain ⟨d, u, hd, hrouting⟩ := hf
      obtain ⟨hne, hu, hwrote⟩ := (wrote_of_read hs h hd).2 u j f hrouting
      -- the sender map leads to a channel of the addressee
      obtain ⟨c', hc', hid⟩ := hs.senders u j hu
      obtain rfl := Option.some.inj (hc.symm.trans hc')
      rw [hid]
      exact ⟨d.id, hne.symm, .inr (.inr hwrote)⟩
  | _ => exact hf.elim

/-- **A step keeps the frames where they may be.** -/
theorem traced_step {as : List DataChannelAction} (hs : s.Traced as) (h : s.step a = some t) :
    t.Traced (as ++ [a]) := by
  have hbecame := became_of_step h
  refine ⟨fun f hf => ?_, fun j c' hc' f hf => ?_, fun u k hk => ?_, fun j hj => ?_,
    fun j c' hc' => ?_⟩
  · have hold : ∀ f ∈ s.dataChannelForward.log, ForGroup (t.Wrote (as ++ [a])) f := fun f hf =>
      (hs.log f hf).mono fun _ _ _ => Wrote.step hbecame
    rcases (spec_of_step h).channel.log with hlog | ⟨f', hf', hlog⟩
    · exact hold f (hlog ▸ hf)
    · rw [hlog, List.mem_append, List.mem_singleton] at hf
      rcases hf with hf | rfl
      · exact hold f hf
      · exact forGroup_of_sends hs h hf'
  · cases hc : s.sessions[j]? with
    | none =>
        rw [(hbecame.new j c' hc hc').1] at hf
        cases hf
    | some c =>
        obtain ⟨c'', hc'', hsame⟩ := hbecame.old j c hc
        obtain rfl := Option.some.inj (hc'.symm.trans hc'')
        rw [hsame.id]
        have hold : ∀ f ∈ c.userSender.log, ForUser (t.Wrote (as ++ [a])) c.id f := fun f hf =>
          (hs.channel j c hc f hf).mono fun _ _ _ => Wrote.step hbecame
        rcases hsame.channel with hlog | ⟨f', hf', hlog⟩
        · exact hold f (hlog ▸ hf)
        · rw [hlog, List.mem_append, List.mem_singleton] at hf
          rcases hf with hf | rfl
          · exact hold f hf
          · exact forUser_of_passes hs h hc hf'
  · -- the sender map changes in registrations and removals only
    have hkeep : (∃ c, s.sessions[k]? = some c ∧ c.id = u) →
        ∃ c, t.sessions[k]? = some c ∧ c.id = u := by
      rintro ⟨c, hc, hid⟩
      obtain ⟨c', hc', hsame⟩ := hbecame.old k c hc
      exact ⟨c', hc', hsame.id.trans hid⟩
    cases a with
    | register id =>
        cases h
        simp only [registerStep, ExtTreeMap.getElem?_insert] at hk
        split_ifs at hk with hid
        · obtain rfl : id = u := by simpa using hid
          obtain rfl := Option.some.inj hk
          exact ⟨_, List.getElem?_concat_length, rfl⟩
        · exact hkeep (hs.senders u k hk)
    | remove id =>
        cases h
        simp only [removeStep, ExtTreeMap.getElem?_erase] at hk
        split_ifs at hk
        exact hs.senders u k hk
    | _ =>
        rw [(spec_of_step h).users (by simp) (by simp)] at hk
        exact hkeep (hs.senders u k hk)
  · have hnone : s.sessions[j]? = none := by
      cases hc : s.sessions[j]? with
      | none => rfl
      | some c =>
          obtain ⟨c', hc', -⟩ := hbecame.old j c hc
          rw [hj] at hc'
          cases hc'
    rcases messagesOf_concat as a j with hmessages | ⟨m, rfl, -⟩
    · rw [hmessages]
      exact hs.unread j hnone
    · simp [step, readStep, hnone] at h
  · rw [payloadAfter_messagesOf]
    cases hc : s.sessions[j]? with
    | none =>
        obtain ⟨-, hpayload, hread, -⟩ := hbecame.new j c' hc hc'
        have htakes : ∀ old, takes a j old = old := fun old => by
          cases a with
          | read i m => exact absurd rfl (hread i m)
          | _ => rfl
        rw [htakes, hs.unread j hc]
        exact .inr hpayload
    | some c =>
        obtain ⟨c'', hc'', hsame⟩ := hbecame.old j c hc
        obtain rfl := Option.some.inj (hc'.symm.trans hc'')
        rcases hs.buffer j c hc with hended | hpayload
        · exact .inl (hsame.ended hended)
        · refine hsame.payload.imp_right fun hread => ?_
          rw [hread, hpayload]
          exact congrArg (fun u => takes a j (payloadAfter u (messagesOf as j))) hsame.id.symm

/-- **Only for its user**: in every run, a frame that a write loop takes from the channel of its
user is the presence of another user or a message of another user that the relay read as one for
everybody or for this user: the address is taken from what the messages of the sender have left in
the buffer, and a message for one user arrives without its last byte. -/
theorem frame_for_writer {s : DataChannelSystem} {as : List DataChannelAction}
    (h : dataChannelMachine.exec .new as = some s) {i : ℕ} {c : DataChannelSession}
    (hc : s.sessions[i]? = some c) {f : Bytes} (hf : (c.userSender.recv i).1 = .message f) :
    ForUser (s.Wrote as) c.id f := by
  have hs : s.Traced as := by
    refine dataChannelMachine.exec_history (I := fun as s => s.Traced as) ?_
      (fun _ _ _ _ hr hstep => traced_step hr hstep) h
    refine ⟨fun f hf => ?_, fun j c hc => ?_, fun u k hk => ?_, fun _ _ => rfl, fun j c hc => ?_⟩
    · cases hf
    · cases hc
    · simp [new] at hk
    · cases hc
  exact hs.channel i c hc f (c.userSender.mem_log_of_recv hf)

/-- A user sends a message to another one, and after it a single byte, which is taken for one more
message to that user and arrives empty. -/
def trailing : List DataChannelAction :=
  opened ++ [.read 0 [2, 0, 0, 0, 7], .read 0 [2], .write 1 true]

theorem frame_for_writer_trailing : ∃ s, dataChannelMachine.exec .new trailing = some s ∧
    ForUser (s.Wrote trailing) 2 [0, 1, 0, 0, 0] := by
  have hread : (dataChannelMachine.exec .new trailing).bind (fun s => s.sessions[1]?.map fun c =>
      (c.id, (c.userSender.recv 1).1)) = some (2, .message [0, 1, 0, 0, 0]) := by decide
  obtain ⟨s, hs, hread⟩ := Option.bind_eq_some_iff.mp hread
  obtain ⟨c, hc, hread⟩ := Option.map_eq_some_iff.mp hread
  obtain ⟨hid, hf⟩ := Prod.mk.inj hread
  exact ⟨s, hs, hid ▸ frame_for_writer hs hc hf⟩

end DataChannelSystem

end SfuServer
