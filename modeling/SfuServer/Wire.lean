import SfuServer.Lib.Endian

/-!
The wire protocol of the two message relays, `data_channel_read_loop` of
`src/forward/rtc/internal.rs` and the `recv_task` of `src/route/ws/mod.rs`.

A frame on a relay channel is a type byte, the sender's id and the message; the first four
bytes of a message name its addressee, the sender itself standing for everybody.

* `header`, `networkEvent`: the header of a frame, and the nine bytes that announce that a
  user opened or closed its connection;
* `route`: what a relay is for.  A message for the sender's own id goes to the group, any
  other one to the channel of the user it names, if there is one, in each case behind the
  header and otherwise unchanged (`route_eq`);
* `recvStep`, `dataChannelReadStep`: one turn of the two loops as the source has them, the
  second over the buffer that the loop reuses (`ReadBuffer`);
* `recvStep_eq_route`: the WebSocket relay implements `route`;
* `dataChannelReadStep_fst`: the data-channel relay does so but for its unicast frames,
  which lack the last byte of the message, so the two relays agree exactly on the messages
  that are broadcast or not delivered (`relaysAgree_iff`).
-/

open Std (ExtTreeMap)

namespace SfuServer

open Endian

abbrev Bytes := List UInt8

/-- The part of a byte string from index `i` up to but not including `j`. -/
def slice (xs : Bytes) (i j : ℕ) : Bytes := (xs.drop i).take (j - i)

/-- A frame's header: the type byte and the id of the sender. -/
def header (typ : UInt8) (id : UInt32) : Bytes := typ :: leBytes id

@[simp] lemma header_length (typ : UInt8) (id : UInt32) : (header typ id).length = 5 := by
  simp [header]

/-- The frame that announces that a user opened (type 1) or closed (type 2) its connection:
the sender's id stands in the place of the addressee as well. -/
def networkEvent (id : UInt32) (isOpen : Bool) : Bytes :=
  header (if isOpen then 1 else 2) id ++ leBytes id

/-- What a relay does with one message: it sends a frame to the group or to the channel `σ`
of one user, it drops a message for an id that is not registered, or it ends. -/
inductive Routing (σ : Type*) where
  | broadcast (frame : Bytes)
  | unicast (dest : UInt32) (channel : σ) (frame : Bytes)
  | unregistered (dest : UInt32)
  | panic
  | stop
  deriving DecidableEq, Repr

variable {σ : Type*}

/-- The id that the first four bytes of a message name. -/
def addressee (m : Bytes) : UInt32 :=
  ofBeBytes (m.getD 3 0) (m.getD 2 0) (m.getD 1 0) (m.getD 0 0)

/-- The purpose of a relay: the message, behind the header and otherwise unchanged, to the
group if it is addressed to the sender itself, and else to the user it names. -/
def route (id : UInt32) (users : ExtTreeMap UInt32 σ) (m : Bytes) : Routing σ :=
  if m.take 4 = leBytes id then .broadcast (header 0 id ++ m)
  else
    match users[addressee m]? with
    | some channel => .unicast (addressee m) channel (header 0 id ++ m)
    | none => .unregistered (addressee m)

/-- A message of at least four bytes, split after its address. -/
lemma exists_eq_address_append {m : Bytes} (hm : 4 ≤ m.length) :
    ∃ b₀ b₁ b₂ b₃ rest, m = b₀ :: b₁ :: b₂ :: b₃ :: rest := by
  match m, hm with
  | b₀ :: b₁ :: b₂ :: b₃ :: rest, _ => exact ⟨b₀, b₁, b₂, b₃, rest, rfl⟩

/-- The first four bytes of a message are those of an id exactly if they name it. -/
lemma take_eq_leBytes_iff {id : UInt32} {m : Bytes} (hm : 4 ≤ m.length) :
    m.take 4 = leBytes id ↔ addressee m = id := by
  obtain ⟨b₀, b₁, b₂, b₃, rest, rfl⟩ := exists_eq_address_append hm
  have hbytes : leBytes (addressee (b₀ :: b₁ :: b₂ :: b₃ :: rest)) = [b₀, b₁, b₂, b₃] :=
    leBytes_ofBeBytes b₃ b₂ b₁ b₀
  calc (b₀ :: b₁ :: b₂ :: b₃ :: rest).take 4 = leBytes id
      ↔ leBytes (addressee (b₀ :: b₁ :: b₂ :: b₃ :: rest)) = leBytes id := by
        rw [hbytes]
        rfl
    _ ↔ addressee (b₀ :: b₁ :: b₂ :: b₃ :: rest) = id := leBytes_inj

/-- **Who gets a message**: the comparison of bytes and the decoded id agree, so a message
goes to the group exactly if it names its sender. -/
theorem route_eq (id : UInt32) (users : ExtTreeMap UInt32 σ) {m : Bytes} (hm : 4 ≤ m.length) :
    route id users m =
      (if addressee m = id then .broadcast (header 0 id ++ m)
      else
        match users[addressee m]? with
        | some channel => .unicast (addressee m) channel (header 0 id ++ m)
        | none => .unregistered (addressee m) : Routing σ) := by
  rw [route]
  simp only [take_eq_leBytes_iff hm]

/-! ### The WebSocket relay -/

/-- One binary message in the `recv_task` of `ws/mod.rs`: the slice of the first four bytes
panics on a shorter message. -/
def recvStep (id : UInt32) (users : ExtTreeMap UInt32 σ) (binary : Bytes) : Routing σ :=
  let header := header 0 id
  if binary.length < 4 then .panic
  else if slice header 1 5 = slice binary 0 4 then .broadcast (header ++ binary)
  else
    let dest := ofBeBytes (binary.getD 3 0) (binary.getD 2 0) (binary.getD 1 0) (binary.getD 0 0)
    match users[dest]? with
    | some channel => .unicast dest channel (header ++ binary)
    | none => .unregistered dest

/-- The WebSocket relay implements the protocol. -/
theorem recvStep_eq_route (id : UInt32) (users : ExtTreeMap UInt32 σ) {m : Bytes}
    (hm : 4 ≤ m.length) : recvStep id users m = route id users m := by
  have hslice : slice (header 0 id) 1 5 = leBytes id := by
    simp [slice, header, List.take_of_length_le]
  have hto : slice m 0 4 = m.take 4 := by simp [slice]
  rw [recvStep, if_neg (by omega), route]
  simp only [hslice, hto, eq_comm (a := leBytes id), addressee]

/-! ### The data-channel relay -/

/-- `MESSAGE_SIZE` of `internal.rs`. -/
def messageSize : ℕ := 1024 * 16

/-- The buffer of `data_channel_read_loop`, between two turns of the loop: the header of the
session's frames, and room for a message, where the bytes of earlier messages may stand. -/
structure ReadBuffer (id : UInt32) where
  bytes : Bytes
  length_eq : bytes.length = 9 + messageSize
  header_eq : bytes.take 5 = header 0 id

namespace ReadBuffer

variable {id : UInt32}

/-- The buffer before the first message: what is left of the opening frame. -/
def new (id : UInt32) : ReadBuffer id where
  bytes := header 0 id ++ leBytes id ++ List.replicate messageSize 0
  length_eq := by simp; omega
  header_eq := by simp [List.append_assoc]

/-- `d.read(&mut buffer[5..])`: the message is copied behind the header, and what stood
beyond its end stays. -/
def read (b : ReadBuffer id) (m : Bytes) (hm : m.length ≤ 4 + messageSize) : ReadBuffer id where
  bytes := b.bytes.take 5 ++ m ++ b.bytes.drop (5 + m.length)
  length_eq := by
    have := b.length_eq
    simp only [List.length_append, List.length_take, List.length_drop]
    omega
  header_eq := by
    have hlen : (b.bytes.take 5).length = 5 := by rw [b.header_eq, header_length]
    rw [List.append_assoc, List.take_append_of_le_length (by omega), List.take_take]
    exact b.header_eq

/-- The buffer after a message was read: the header, the message, and the old rest. -/
lemma read_bytes (b : ReadBuffer id) (m : Bytes) (hm : m.length ≤ 4 + messageSize) :
    (b.read m hm).bytes = header 0 id ++ (m ++ b.bytes.drop (5 + m.length)) := by
  have hbytes : (b.read m hm).bytes =
    b.bytes.take 5 ++ m ++ b.bytes.drop (5 + m.length) := rfl
  rw [hbytes, b.header_eq, List.append_assoc]

end ReadBuffer

/-- One turn of `data_channel_read_loop`: the loop ends when the read fails, as it does on a
message that exceeds the buffer, and when nothing was read. -/
def dataChannelReadStep {id : UInt32} (users : ExtTreeMap UInt32 σ) (b : ReadBuffer id)
    (m : Bytes) : Routing σ × ReadBuffer id :=
  let n := m.length
  if hm : n ≤ 4 + messageSize then
    if n = 0 then (.stop, b)
    else
      let b := b.read m hm
      let buffer := b.bytes
      if slice buffer 1 5 = slice buffer 5 9 then (.broadcast (buffer.take (n + 5)), b)
      else
        let dest := ofBeBytes (buffer.getD 8 0) (buffer.getD 7 0) (buffer.getD 6 0)
          (buffer.getD 5 0)
        match users[dest]? with
        | some channel => (.unicast dest channel (buffer.take (n + 4)), b)
        | none => (.unregistered dest, b)
  else (.stop, b)

/-- What the data-channel relay does with a message that has an address: the unicast frame
ends one byte early. -/
lemma dataChannelReadStep_fst {id : UInt32} (users : ExtTreeMap UInt32 σ) (b : ReadBuffer id)
    {m : Bytes} (hm : 4 ≤ m.length) (hsize : m.length ≤ 4 + messageSize) :
    (dataChannelReadStep users b m).1 =
      (if m.take 4 = leBytes id then .broadcast (header 0 id ++ m)
      else
        match users[addressee m]? with
        | some channel => .unicast (addressee m) channel (header 0 id ++ m.dropLast)
        | none => .unregistered (addressee m) : Routing σ) := by
  set rest := b.bytes.drop (5 + m.length) with hrest
  have hbuf : (b.read m hsize).bytes = header 0 id ++ (m ++ rest) := b.read_bytes m hsize
  have hfrom : slice (header 0 id ++ (m ++ rest)) 1 5 = leBytes id := by
    simp [slice, header]
  have hto : slice (header 0 id ++ (m ++ rest)) 5 9 = m.take 4 := by
    rw [slice, List.drop_left' (header_length 0 id), List.take_append_of_le_length (by omega)]
  have hget : ∀ i < 4, (header 0 id ++ (m ++ rest)).getD (5 + i) 0 = m.getD i 0 := by
    intro i hi
    rw [List.getD_eq_getElem?_getD, List.getElem?_append_right (by simp), header_length,
      Nat.add_sub_cancel_left, List.getElem?_append_left (by omega), List.getD_eq_getElem?_getD]
  have haddr : ofBeBytes ((header 0 id ++ (m ++ rest)).getD 8 0)
      ((header 0 id ++ (m ++ rest)).getD 7 0) ((header 0 id ++ (m ++ rest)).getD 6 0)
      ((header 0 id ++ (m ++ rest)).getD 5 0) = addressee m := by
    rw [addressee, ← hget 0 (by omega), ← hget 1 (by omega), ← hget 2 (by omega),
      ← hget 3 (by omega)]
  have hwhole : (header 0 id ++ (m ++ rest)).take (m.length + 5) = header 0 id ++ m := by
    rw [← List.append_assoc, List.take_left' (by rw [List.length_append, header_length]; omega)]
  have hshort : (header 0 id ++ (m ++ rest)).take (m.length + 4) =
      header 0 id ++ m.dropLast := by
    rw [List.take_append, header_length, List.take_of_length_le (by rw [header_length]; omega),
      show m.length + 4 - 5 = m.length - 1 by omega,
      List.take_append_of_le_length (Nat.sub_le _ _), List.dropLast_eq_take]
  rw [dataChannelReadStep]
  simp only [dif_pos hsize, if_neg (show m.length ≠ 0 by omega), hbuf, hfrom, hto, haddr, hwhole,
    hshort, eq_comm (a := leBytes id)]
  split_ifs
  · rfl
  · cases users[addressee m]? <;> rfl

/-! ### The two relays compared -/

/-- The two relays take the same routing decision on a message and put the same bytes on the
same channel, those of the protocol. -/
def RelaysAgree {id : UInt32} (users : ExtTreeMap UInt32 σ) (b : ReadBuffer id) (m : Bytes) :
    Prop :=
  (dataChannelReadStep users b m).1 = recvStep id users m ∧
    recvStep id users m = route id users m

/-- **The relays agree exactly on what is broadcast or dropped**: a message with an address
that fits the buffer is relayed alike, whatever the buffer holds from earlier messages, if
and only if it is for everybody or for an id that is not registered. -/
theorem relaysAgree_iff {id : UInt32} (users : ExtTreeMap UInt32 σ) (b : ReadBuffer id)
    {m : Bytes} (hm : 4 ≤ m.length) (hsize : m.length ≤ 4 + messageSize) :
    RelaysAgree users b m ↔ m.take 4 = leBytes id ∨ users[addressee m]? = none := by
  have hne : m.dropLast ≠ m := fun h => by
    have := congrArg List.length h
    rw [List.length_dropLast] at this
    omega
  rw [RelaysAgree, recvStep_eq_route id users hm, dataChannelReadStep_fst users b hm hsize, route]
  by_cases haddr : m.take 4 = leBytes id
  · simp [haddr]
  · cases hu : users[addressee m]? with
    | none => simp
    | some channel => simp [haddr, hne]

/-- A broadcast of one byte by the user with id 1. -/
theorem relaysAgree_broadcast :
    RelaysAgree (∅ : ExtTreeMap UInt32 Unit) (ReadBuffer.new 1) [1, 0, 0, 0, 7] :=
  (relaysAgree_iff ∅ (ReadBuffer.new 1) (by decide) (by decide)).mpr (.inl (by decide))

/-- A byte sent by the user with id 1 to the user with id 2, who is registered: it arrives
over the WebSocket relay and is lost over the data-channel relay. -/
theorem relays_disagree_unicast :
    ¬ RelaysAgree (ExtTreeMap.empty.insert 2 ()) (ReadBuffer.new 1) [2, 0, 0, 0, 7] := by
  rintro ⟨h, -⟩
  rw [dataChannelReadStep_fst _ _ (by decide) (by decide)] at h
  revert h
  decide

end SfuServer
