import SfuServer.Authenticity

/-!
What a relay does with a message after different histories: `recv_task` of
`src/route/ws/mod.rs` and `data_channel_read_loop` of `src/forward/rtc/internal.rs`.

The WebSocket loop keeps nothing from one message to the next.  The data-channel loop reads into
a buffer that it never clears, and looks for the address of a message at a fixed place of it, so
a message without a whole address is completed by what earlier ones left there.

* `recvAlong`, `readAlong`: what the loops have come to after a history, if they still run;
  `recvLoop_append`, `readLoop_append` say that they go on from there;
* `dataChannelReadStep_congr`: a message with an address meets the same routing in every buffer;
* `HistoryFree`: the routing of a message is the same after two histories, and the loop goes on;
* `historyFree_iff`: both loops are so about a message exactly if it has an address, fits the
  buffer, and is taken where it is sent.
-/

open Std (ExtTreeMap)

namespace SfuServer

open Endian

variable {σ τ : Type*}

/-! ### The loops after a history -/

/-- The loop goes on after this routing: it ends on a message that makes it panic or stop, and
where a send fails. -/
def Routing.goesOn (taken : Bool) : Routing σ → Bool
  | .broadcast _ | .unicast .. => taken
  | .unregistered _ => true
  | .panic | .stop => false

/-- Whether the loop of `recv_task` still runs after a history. -/
def recvAlong (id : UInt32) : List (Turn σ) → Bool
  | [] => true
  | t :: ts => (recvStep id t.users t.message).goesOn t.taken && recvAlong id ts

/-- The buffer of `data_channel_read_loop` after a history, if the loop still runs. -/
def readAlong {id : UInt32} : ReadBuffer id → List (Turn σ) → Option (ReadBuffer id)
  | b, [] => some b
  | b, t :: ts =>
      let (routing, b) := dataChannelReadStep t.users b t.message
      if routing.goesOn t.taken then readAlong b ts else none

/-- What a turn hands over, and then the rest if the loop goes on. -/
lemma Routing.frames_eq (routing : Routing σ) (taken : Bool) (rest : List Bytes) :
    routing.frames taken rest =
      routing.frames taken [] ++ if routing.goesOn taken then rest else [] := by
  cases routing with
  | broadcast frame => cases taken <;> simp [Routing.frames, Routing.goesOn]
  | unicast dest channel frame => cases taken <;> simp [Routing.frames, Routing.goesOn]
  | unregistered dest => simp [Routing.frames, Routing.goesOn]
  | panic => simp [Routing.frames, Routing.goesOn]
  | stop => simp [Routing.frames, Routing.goesOn]

/-- The WebSocket loop goes on after a history that it survives. -/
lemma recvLoop_append (id : UInt32) (ts us : List (Turn σ)) :
    recvLoop id (ts ++ us) =
      recvLoop id ts ++ if recvAlong id ts then recvLoop id us else [] := by
  induction ts with
  | nil => simp [recvLoop, recvAlong]
  | cons t ts ih =>
      rw [List.cons_append, recvLoop, Routing.frames_eq, ih, recvLoop,
        Routing.frames_eq _ _ (recvLoop id ts), recvAlong]
      cases (recvStep id t.users t.message).goesOn t.taken <;> simp

/-- The data-channel loop goes on after a history that it survives, with the buffer it has. -/
lemma readLoop_append {id : UInt32} (b : ReadBuffer id) (ts us : List (Turn σ)) :
    readLoop b (ts ++ us) =
      readLoop b ts ++
        match readAlong b ts with
        | some b => readLoop b us
        | none => [] := by
  induction ts generalizing b with
  | nil => simp [readLoop, readAlong]
  | cons t ts ih =>
      rw [List.cons_append]
      simp only [readLoop, readAlong]
      rw [Routing.frames_eq, ih, Routing.frames_eq _ _ (readLoop _ ts)]
      cases (dataChannelReadStep t.users b t.message).1.goesOn t.taken <;> simp

/-! ### One message -/

/-- A message with an address meets the same routing in every buffer. -/
lemma dataChannelReadStep_congr {id : UInt32} (users : ExtTreeMap UInt32 σ)
    (b b' : ReadBuffer id) {m : Bytes} (hm : 4 ≤ m.length)
    (hsize : m.length ≤ 4 + messageSize) :
    (dataChannelReadStep users b m).1 = (dataChannelReadStep users b' m).1 := by
  rw [dataChannelReadStep_fst users b hm hsize, dataChannelReadStep_fst users b' hm hsize]

/-- A message that is sent to the group or to a user who is registered. -/
def Turn.Sends (id : UInt32) (t : Turn σ) : Prop :=
  addressee t.message = id ∨ addressee t.message ∈ t.users

instance (id : UInt32) (t : Turn σ) : Decidable (t.Sends id) :=
  inferInstanceAs (Decidable (_ ∨ _))

/-- After a message with an address, a loop goes on if what it sends is taken. -/
lemma goesOn_routed_iff {id : UInt32} (t : Turn σ) (hm : 4 ≤ t.message.length)
    (f g : Bytes) :
    Routing.goesOn t.taken
        (if t.message.take 4 = leBytes id then .broadcast f
        else
          match t.users[addressee t.message]? with
          | some channel => .unicast (addressee t.message) channel g
          | none => .unregistered (addressee t.message)) = true ↔
      (t.Sends id → t.taken = true) := by
  rw [Turn.Sends, ← take_eq_leBytes_iff hm, ExtTreeMap.mem_iff_isSome_getElem?]
  by_cases haddr : t.message.take 4 = leBytes id
  · simp [haddr, Routing.goesOn]
  · cases t.users[addressee t.message]? <;> simp [haddr, Routing.goesOn]

/-- The WebSocket loop goes on exactly after a message that has an address and is taken where it
is sent. -/
lemma goesOn_recvStep_iff (id : UInt32) (t : Turn σ) :
    (recvStep id t.users t.message).goesOn t.taken = true ↔
      4 ≤ t.message.length ∧ (t.Sends id → t.taken = true) := by
  by_cases hm : 4 ≤ t.message.length
  · rw [recvStep_eq_route id t.users hm, route, and_iff_right hm]
    exact goesOn_routed_iff t hm _ _
  · simp [recvStep, not_le.mp hm, Routing.goesOn]

/-- The same for the data-channel loop and messages with an address that fit the buffer. -/
lemma goesOn_dataChannelReadStep_iff {id : UInt32} (b : ReadBuffer id) (t : Turn σ)
    (hm : 4 ≤ t.message.length) (hsize : t.message.length ≤ 4 + messageSize) :
    (dataChannelReadStep t.users b t.message).1.goesOn t.taken = true ↔
      (t.Sends id → t.taken = true) := by
  rw [dataChannelReadStep_fst t.users b hm hsize]
  exact goesOn_routed_iff t hm _ _

/-- The data-channel loop ends on a message that exceeds its buffer. -/
lemma dataChannelReadStep_long {id : UInt32} (users : ExtTreeMap UInt32 σ) (b : ReadBuffer id)
    {m : Bytes} (hsize : ¬ m.length ≤ 4 + messageSize) :
    (dataChannelReadStep users b m).1 = .stop := by
  rw [dataChannelReadStep, dif_neg hsize]

/-! ### Two histories -/

/-- What the WebSocket loop does with a message after a history that it survives. -/
def recvAfter (id : UInt32) (history : List (Turn σ)) (t : Turn σ) : Option (Routing σ) :=
  if recvAlong id history then some (recvStep id t.users t.message) else none

/-- What the data-channel loop does with a message after a history that it survives. -/
def readAfter (id : UInt32) (history : List (Turn σ)) (t : Turn σ) : Option (Routing σ) :=
  (readAlong (ReadBuffer.new id) history).map fun b =>
    (dataChannelReadStep t.users b t.message).1

/-- The routing of a message, with the bytes that are sent, is the same after two histories, and
the loop goes on after it. -/
def HistoryFree (after : List (Turn σ) → Turn σ → Option (Routing σ))
    (history history' : List (Turn σ)) (t : Turn σ) : Prop :=
  after history t = after history' t ∧
    ∀ routing, after history t = some routing → routing.goesOn t.taken = true

/-- The WebSocket loop, after histories that it survives. -/
lemma historyFree_recvAfter_iff {id : UInt32} {history history' : List (Turn σ)}
    (h : recvAlong id history = true) (h' : recvAlong id history' = true) (t : Turn σ) :
    HistoryFree (recvAfter id) history history' t ↔
      4 ≤ t.message.length ∧ (t.Sends id → t.taken = true) := by
  rw [← goesOn_recvStep_iff, HistoryFree, recvAfter, if_pos h, recvAfter, if_pos h']
  simp

/-- The data-channel loop, after histories that it survives, and a message with an address. -/
lemma historyFree_readAfter_iff {id : UInt32} {history history' : List (Turn σ)}
    (h : (readAlong (ReadBuffer.new id) history).isSome = true)
    (h' : (readAlong (ReadBuffer.new id) history').isSome = true) (t : Turn σ)
    (hm : 4 ≤ t.message.length) :
    HistoryFree (readAfter id) history history' t ↔
      t.message.length ≤ 4 + messageSize ∧ (t.Sends id → t.taken = true) := by
  obtain ⟨b, hb⟩ := Option.isSome_iff_exists.mp h
  obtain ⟨b', hb'⟩ := Option.isSome_iff_exists.mp h'
  simp only [HistoryFree, readAfter, hb, hb', Option.map_some, Option.some.injEq, forall_eq']
  by_cases hsize : t.message.length ≤ 4 + messageSize
  · rw [goesOn_dataChannelReadStep_iff b t hm hsize, and_iff_right hsize,
      and_iff_right (dataChannelReadStep_congr t.users b b' hm hsize)]
  · simp [dataChannelReadStep_long t.users b hsize, hsize, Routing.goesOn]

/-- **History independence**: for every session id, any two histories that each loop survives,
and every message, both loops route the message alike after either history and go on, if and
only if the message has an address, fits the buffer of the data-channel loop, and is taken
where it is sent. -/
theorem historyFree_iff (id : UInt32) {reads reads' : List (Turn σ)} {recvs recvs' : List (Turn τ)}
    (hread : (readAlong (ReadBuffer.new id) reads).isSome = true)
    (hread' : (readAlong (ReadBuffer.new id) reads').isSome = true)
    (hrecv : recvAlong id recvs = true) (hrecv' : recvAlong id recvs' = true) (m : Bytes)
    (users : ExtTreeMap UInt32 σ) (taken : Bool) (users' : ExtTreeMap UInt32 τ) (taken' : Bool) :
    HistoryFree (readAfter id) reads reads' ⟨users, m, taken⟩ ∧
        HistoryFree (recvAfter id) recvs recvs' ⟨users', m, taken'⟩ ↔
      4 ≤ m.length ∧ m.length ≤ 4 + messageSize ∧
        (Turn.Sends id ⟨users, m, taken⟩ → taken = true) ∧
        (Turn.Sends id ⟨users', m, taken'⟩ → taken' = true) := by
  rw [historyFree_recvAfter_iff hrecv hrecv']
  constructor
  · rintro ⟨hfree, hm, htaken⟩
    obtain ⟨hsize, htaken'⟩ := (historyFree_readAfter_iff hread hread' _ hm).mp hfree
    exact ⟨hm, hsize, htaken', htaken⟩
  · rintro ⟨hm, hsize, htaken, htaken'⟩
    exact ⟨(historyFree_readAfter_iff hread hread' _ hm).mpr ⟨hsize, htaken⟩, hm, htaken'⟩

/-- A message to everybody of the user with id 1, after no message and after one. -/
theorem historyFree_broadcast :
    HistoryFree (readAfter 1) [] [⟨∅, [2, 9, 9, 9], true⟩]
        (⟨∅, [1, 0, 0, 0, 7], true⟩ : Turn Unit) ∧
      HistoryFree (recvAfter 1) [] [⟨∅, [2, 9, 9, 9], true⟩]
        (⟨∅, [1, 0, 0, 0, 7], true⟩ : Turn Unit) :=
  (historyFree_iff 1 rfl rfl rfl rfl [1, 0, 0, 0, 7] ∅ true ∅ true).mpr (by decide)

/-- The user with id 1 sends the single byte 1.  After no message the data-channel loop completes
it to the user's own address, which stands in the buffer, and sends it to the group; after a
message to another user it completes it to an address that nobody has. -/
theorem not_historyFree_short :
    ¬ ∀ (id : UInt32) (reads reads' recvs recvs' : List (Turn Unit)) (m : Bytes)
        (users users' : ExtTreeMap UInt32 Unit),
      (readAlong (ReadBuffer.new id) reads).isSome = true →
        (readAlong (ReadBuffer.new id) reads').isSome = true →
        recvAlong id recvs = true → recvAlong id recvs' = true → 1 ≤ m.length →
          HistoryFree (readAfter id) reads reads' ⟨users, m, true⟩ ∧
            HistoryFree (recvAfter id) recvs recvs' ⟨users', m, true⟩ := by
  intro h
  have hfree := (h 1 [] [⟨∅, [2, 9, 9, 9], true⟩] [] [] [1] ∅ ∅ rfl rfl rfl rfl (by decide)).1.1
  revert hfree
  decide

end SfuServer
