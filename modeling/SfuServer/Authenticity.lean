import SfuServer.Rtc.DataChannel

/-!
Who a frame is from: what a session puts on the channels of a relay, and what the pipes make
of it.

A session is served by a loop, the `recv_task` of `src/route/ws/mod.rs` or
`data_channel_read_loop` of `src/forward/rtc/internal.rs`, that reads messages of its client
and nothing else.

* `Turn`, `recvTask`, `dataChannelReadLoop`: the two loops as they run, over any sequence of
  messages, with the sender map that each turn finds; the second goes through the states of
  the buffer that it reuses;
* `prefix_of_mem_recvTask`, `prefix_of_mem_dataChannelReadLoop`: after the opening frame
  there are frames of type 0 under the session's own id only;
* `frameSender_of_prefix`: the pipes read that id back from a frame;
* `Group.pipeStep_eq_iff`, `DataChannelSystem.pipeStep_eq_iff`: a pipe passes a frame over
  exactly if the frame is from its own user;
* `sender_authentic`: the whole of it;
* `DataChannelSystem.log_step`: what a step of the stream's system puts on its group channel.
-/

open Std (ExtTreeMap)

namespace SfuServer

open Endian

variable {σ : Type*}

/-! ### The loops of a session -/

/-- What a relay loop meets in one turn: the message that the client sent, the users it finds
registered, and whether the channel takes the frame that the turn makes of them. -/
structure Turn (σ : Type*) where
  users : ExtTreeMap UInt32 σ
  message : Bytes
  taken : Bool

/-- The frames of a loop from a turn on, given those of the turns after it: a turn hands at
most one frame to a channel, and the loop ends when the channel does not take it. -/
def Routing.frames (routing : Routing σ) (taken : Bool) (rest : List Bytes) : List Bytes :=
  match routing with
  | .broadcast frame | .unicast _ _ frame => frame :: if taken then rest else []
  | .unregistered _ => rest
  | .panic | .stop => []

/-- The frames of the loop in `recv_task`, one turn for each binary message; messages of
another kind are ignored there. -/
def recvLoop (id : UInt32) : List (Turn σ) → List Bytes
  | [] => []
  | t :: ts => (recvStep id t.users t.message).frames t.taken (recvLoop id ts)

/-- The frames of `recv_task`: the opening frame and, if the group took it, those of the
loop. -/
def recvTask (id : UInt32) (opened : Bool) (ts : List (Turn σ)) : List Bytes :=
  networkEvent id true :: if opened then recvLoop id ts else []

/-- The frames of the loop in `data_channel_read_loop`, from a state of its buffer on. -/
def readLoop {id : UInt32} : ReadBuffer id → List (Turn σ) → List Bytes
  | _, [] => []
  | b, t :: ts =>
      let (routing, b) := dataChannelReadStep t.users b t.message
      routing.frames t.taken (readLoop b ts)

/-- The frames of `data_channel_read_loop`. -/
def dataChannelReadLoop (id : UInt32) (opened : Bool) (ts : List (Turn σ)) : List Bytes :=
  networkEvent id true :: if opened then readLoop (ReadBuffer.new id) ts else []

/-! ### What a turn hands over -/

/-- Every frame of a routing decision has the header of type 0 with the given id. -/
def Routing.Signed (id : UInt32) : Routing σ → Prop
  | .broadcast frame | .unicast _ _ frame => header 0 id <+: frame
  | .unregistered _ | .panic | .stop => True

/-- The frames of a loop whose turns are all signed, by induction over the turns. -/
lemma Routing.Signed.frames {id : UInt32} {routing : Routing σ} (h : routing.Signed id)
    {taken : Bool} {rest : List Bytes} (hrest : ∀ f ∈ rest, header 0 id <+: f) :
    ∀ f ∈ routing.frames taken rest, header 0 id <+: f := by
  have hcons : ∀ frame, header 0 id <+: frame →
      ∀ f ∈ frame :: (if taken then rest else []), header 0 id <+: f := by
    intro frame hframe f hf
    rcases List.mem_cons.mp hf with rfl | hf
    · exact hframe
    · split_ifs at hf
      · exact hrest f hf
      · cases hf
  cases routing with
  | broadcast frame => exact hcons frame h
  | unicast dest channel frame => exact hcons frame h
  | unregistered dest => exact hrest
  | panic => exact fun f hf => absurd hf List.not_mem_nil
  | stop => exact fun f hf => absurd hf List.not_mem_nil

/-- A turn of the WebSocket loop puts its own header before the message. -/
lemma recvStep_signed (id : UInt32) (users : ExtTreeMap UInt32 σ) (m : Bytes) :
    (recvStep id users m).Signed id := by
  simp only [recvStep]
  split_ifs
  · trivial
  · exact List.prefix_append _ _
  · split
    · exact List.prefix_append _ _
    · trivial

/-- The buffer begins with the header after every read, and a part of it of at least five
bytes still does. -/
lemma ReadBuffer.header_prefix_take {id : UInt32} (b : ReadBuffer id) {n : ℕ} (hn : 5 ≤ n) :
    header 0 id <+: b.bytes.take n := by
  refine ⟨(b.bytes.take n).drop 5, ?_⟩
  calc header 0 id ++ (b.bytes.take n).drop 5
      = (b.bytes.take n).take 5 ++ (b.bytes.take n).drop 5 := by
        rw [List.take_take, Nat.min_eq_left hn, b.header_eq]
    _ = b.bytes.take n := List.take_append_drop 5 _

/-- A turn of the data-channel loop hands over a part of its buffer: at least one byte was
read, so the part has the whole header, also where the message is shorter than an address. -/
lemma dataChannelReadStep_signed {id : UInt32} (users : ExtTreeMap UInt32 σ) (b : ReadBuffer id)
    (m : Bytes) : (dataChannelReadStep users b m).1.Signed id := by
  simp only [dataChannelReadStep]
  split_ifs with hm hn
  · trivial
  · exact ReadBuffer.header_prefix_take _ (by omega)
  · split
    · exact ReadBuffer.header_prefix_take _ (by omega)
    · trivial
  · trivial

lemma prefix_of_mem_recvLoop {id : UInt32} {ts : List (Turn σ)} :
    ∀ f ∈ recvLoop id ts, header 0 id <+: f := by
  induction ts with
  | nil => exact fun f hf => absurd hf List.not_mem_nil
  | cons t ts ih => exact (recvStep_signed id t.users t.message).frames ih

lemma prefix_of_mem_readLoop {id : UInt32} {b : ReadBuffer id} {ts : List (Turn σ)} :
    ∀ f ∈ readLoop b ts, header 0 id <+: f := by
  induction ts generalizing b with
  | nil => exact fun f hf => absurd hf List.not_mem_nil
  | cons t ts ih => exact (dataChannelReadStep_signed t.users b t.message).frames ih

/-- The frames of a WebSocket session after the opening one. -/
lemma prefix_of_mem_recvTask {id : UInt32} {opened : Bool} {ts : List (Turn σ)} :
    ∀ f ∈ (recvTask id opened ts).tail, header 0 id <+: f := by
  cases opened with
  | false => exact fun f hf => absurd hf List.not_mem_nil
  | true => exact prefix_of_mem_recvLoop

/-- The frames of a data-channel session after the opening one. -/
lemma prefix_of_mem_dataChannelReadLoop {id : UInt32} {opened : Bool} {ts : List (Turn σ)} :
    ∀ f ∈ (dataChannelReadLoop id opened ts).tail, header 0 id <+: f := by
  cases opened with
  | false => exact fun f hf => absurd hf List.not_mem_nil
  | true => exact prefix_of_mem_readLoop

/-! ### The pipes -/

/-- The pipes read back the id in the header of a frame, whatever its type. -/
lemma frameSender_of_prefix {typ : UInt8} {id : UInt32} {f : Bytes}
    (h : header typ id <+: f) : Group.frameSender f = id := by
  obtain ⟨m, rfl⟩ := h
  rw [header, leBytes_eq]
  exact ofBeBytes_leBytes id

/-- A frame of a session is from its id. -/
lemma header_prefix_of_mem {id : UInt32} {frames : List Bytes}
    (hhead : frames.head? = some (networkEvent id true))
    (htail : ∀ f ∈ frames.tail, header 0 id <+: f) :
    ∀ f ∈ frames, ∃ typ, header typ id <+: f := by
  intro f hf
  cases frames with
  | nil => cases hf
  | cons frame rest =>
      rw [List.head?_cons, Option.some.injEq] at hhead
      rcases List.mem_cons.mp hf with rfl | hf
      · exact ⟨1, hhead ▸ List.prefix_append _ _⟩
      · exact ⟨0, htail f hf⟩

/-- A pipe of a group passes over the frame it reads, sending nothing on, exactly if the
frame is from the pipe's own user. -/
lemma Group.pipeStep_eq_iff {g : Group} {k : ℕ} {t : UserTask} {f : Bytes} {tx : Broadcast Bytes}
    {typ : UInt8} {id : UInt32} (hk : g.tasks[k]? = some t) (ht : t.broadcastPipe = .running)
    (hrecv : g.tx.recv k = (.message f, tx)) (hf : header typ id <+: f) :
    g.pipeStep k = some { g with tx := tx } ↔ t.user = id := by
  have hlen : ¬ f.length < 5 := by
    have := hf.length_le
    rw [header_length] at this
    omega
  rw [pipeStep]
  simp only [hk, ht, hrecv, hlen, frameSender_of_prefix hf, if_true, if_false]
  by_cases hid : id = t.user
  · simp [hid]
  · rw [if_neg hid]
    refine iff_of_false (fun h => ?_) (Ne.symm hid)
    -- what stands under the pipe's handle has changed
    split at h
    · rename_i channel hchannel
      obtain ⟨-, rfl⟩ := (t.userSender.send_eq_some_iff f).mp hchannel
      have htask := congrArg (fun g => (g.tasks[k]?.map fun t => t.userSender.log.length))
        (Option.some.inj h)
      simp [tasks_mapChannel, hk] at htask
    · have htask := congrArg (fun g => (g.tasks[k]?.map UserTask.broadcastPipe))
        (Option.some.inj h)
      simp [tasks_stopPipe, hk, ht] at htask

/-- The pipe of a data channel passes over the frame it reads, sending nothing on, exactly if
the frame is from the pipe's own user. -/
lemma DataChannelSystem.pipeStep_eq_iff {s : DataChannelSystem} {i : ℕ} {c : DataChannelSession}
    {f : Bytes} {tx : Broadcast Bytes} {typ : UInt8} {id : UInt32}
    (hi : s.sessions[i]? = some c) (hc : c.pipeLoop = some .running)
    (hrecv : s.dataChannelForward.recv (i + 1) = (.message f, tx)) (hf : header typ id <+: f) :
    s.pipeStep i = some { s with dataChannelForward := tx } ↔ c.id = id := by
  have hlt : i < s.sessions.length := (List.getElem?_eq_some_iff.mp hi).1
  rw [pipeStep, hi, Option.bind_some]
  simp only [hc, hrecv, frameSender_of_prefix hf, if_true]
  by_cases hid : id = c.id
  · simp [hid]
  · rw [if_neg hid]
    refine iff_of_false (fun h => ?_) (Ne.symm hid)
    split at h
    · rename_i channel hchannel
      obtain ⟨-, rfl⟩ := (c.userSender.send_eq_some_iff f).mp hchannel
      have hsession := congrArg
        (fun s => (s.sessions[i]?.map fun c => c.userSender.log.length)) (Option.some.inj h)
      simp only [setSession, List.getElem?_set_self hlt, hi, Option.map_some] at hsession
      simp at hsession
    · have hsession := congrArg
        (fun s => (s.sessions[i]?.map DataChannelSession.pipeLoop)) (Option.some.inj h)
      simp only [setSession, List.getElem?_set_self hlt, hi, hc, Option.map_some] at hsession
      simp at hsession

/-- **Sender authenticity**: on both paths, for every id and every sequence of messages, a
session hands over its opening frame first and after it only frames that start with the type
byte 0 and the bytes of its own id; and each of its frames, read by a running pipe of either
relay, is passed over if and only if the user of that pipe is the session's own. -/
theorem sender_authentic (id : UInt32) (opened : Bool) (ts : List (Turn σ)) :
    (∃ frames, recvTask id opened ts = networkEvent id true :: frames ∧
        ∀ f ∈ frames, 0 :: leBytes id <+: f) ∧
      (∃ frames, dataChannelReadLoop id opened ts = networkEvent id true :: frames ∧
        ∀ f ∈ frames, 0 :: leBytes id <+: f) ∧
      ∀ f ∈ recvTask id opened ts ++ dataChannelReadLoop id opened ts,
        (∀ (g : Group) (k : ℕ) (t : UserTask) (tx : Broadcast Bytes), g.tasks[k]? = some t →
          t.broadcastPipe = .running → g.tx.recv k = (.message f, tx) →
          (g.pipeStep k = some { g with tx := tx } ↔ t.user = id)) ∧
        ∀ (s : DataChannelSystem) (i : ℕ) (c : DataChannelSession) (tx : Broadcast Bytes),
          s.sessions[i]? = some c → c.pipeLoop = some .running →
          s.dataChannelForward.recv (i + 1) = (.message f, tx) →
          (s.pipeStep i = some { s with dataChannelForward := tx } ↔ c.id = id) := by
  refine ⟨⟨_, rfl, prefix_of_mem_recvTask⟩, ⟨_, rfl, prefix_of_mem_dataChannelReadLoop⟩, ?_⟩
  intro f hf
  have hfrom : ∃ typ, header typ id <+: f := by
    rcases List.mem_append.mp hf with hf | hf
    · exact header_prefix_of_mem rfl prefix_of_mem_recvTask f hf
    · exact header_prefix_of_mem rfl prefix_of_mem_dataChannelReadLoop f hf
  obtain ⟨typ, hfrom⟩ := hfrom
  exact ⟨fun g k t tx hk ht hrecv => Group.pipeStep_eq_iff hk ht hrecv hfrom,
    fun s i c tx hi hc hrecv => DataChannelSystem.pipeStep_eq_iff hi hc hrecv hfrom⟩

/-! ### The group channel of a stream -/

namespace DataChannelSystem

variable {s t : DataChannelSystem}

/-- Only registrations and removals change the map of the senders, and only registrations
bring sessions. -/
lemma userSenderMap_step {a : DataChannelAction} (hregister : ∀ id, a ≠ .register id)
    (hremove : ∀ id, a ≠ .remove id) (h : s.step a = some t) :
    t.userSenderMap = s.userSenderMap ∧ t.sessions.length = s.sessions.length :=
  ⟨(spec_of_step h).users hregister hremove, (spec_of_step h).sessions.length hregister⟩

/-- The frames that an action can put on the group channel: a close event by a notice, and
what the read loop of a session hands over, under the id of that session. -/
def Puts (s : DataChannelSystem) : DataChannelAction → Bytes → Prop
  | .notice id, f => f = networkEvent id false
  | .announce i, f => ∃ c, s.sessions[i]? = some c ∧ f = networkEvent c.id true
  | .read i _, f => ∃ c, s.sessions[i]? = some c ∧ header 0 c.id <+: f
  | _, _ => False

/-- What is sent to the group bears the id of the session that sends it. -/
lemma puts_of_sends {a : DataChannelAction} {f : Bytes} (h : s.Sends a f) : s.Puts a f := by
  cases a with
  | notice id => exact h
  | announce i => exact h
  | read i m =>
      obtain ⟨c, hc, hf⟩ := h
      have hsigned := dataChannelReadStep_signed s.userSenderMap c.buffer m
      rw [hf] at hsigned
      exact ⟨c, hc, hsigned⟩
  | _ => exact h.elim

/-- What a step does to the group channel: it stays as it is, or gets one frame. -/
lemma log_step {a : DataChannelAction} (h : s.step a = some t) :
    t.dataChannelForward.log = s.dataChannelForward.log ∨
      ∃ f, s.Puts a f ∧ t.dataChannelForward.log = s.dataChannelForward.log ++ [f] := by
  rcases (spec_of_step h).channel.log with hlog | ⟨f, hf, hlog⟩
  · exact .inl hlog
  · exact .inr ⟨f, puts_of_sends hf, hlog⟩

end DataChannelSystem

end SfuServer
