import SfuServer.Ws.Session

/-!
`Room::user_delete` and `Room::all_user_delete`, turn by turn.

The loop over the streams of a client takes the forwarder anew for every stream, and so do the
calls for one user after another.  Tasks that have the room at hand run in between.

* `DeleteCall`, `Deletion`, `Deletion.turn`: what is left to do, and the next turn;
* `Deletion.Ends`: what a deletion that is not interrupted comes to;
* `ends_userDelete`, `ends_allUserDelete`: this is what the functions return and leave.
-/

open Std (ExtTreeMap)

namespace SfuServer

/-- The arguments of a call of `user_delete`. -/
structure DeleteCall where
  userId : Int32
  token : UInt32
  checkToken : Bool

/-- A deletion: the user whose streams are being deleted, with those that are left, and the calls
that come after. -/
structure Deletion where
  user : Option (Int32 × List String)
  calls : List DeleteCall

namespace Room

/-- The beginning of `Room::user_delete`: the user leaves the groups, and if it is a client whose
token is right, or does not matter, the list of its streams is read. -/
def beginDelete (room : Room) (call : DeleteCall) : Option (List String) × Room :=
  let room' := { room with groupManager := room.groupManager.endUser call.userId.toUInt32 }
  match room.clientMap[call.userId]? with
  | none => (none, room')
  | some client =>
      if call.checkToken && ! client.checkToken call.token then (none, room')
      else (some client.getStreams, room')

/-- A turn of the loop of `Room::user_delete`. -/
def deleteStream (room : Room) (userId : Int32) (stream : String) : Except AppError Unit × Room :=
  match room.forwarder.streamDelete stream with
  | .error e => (.error (.internalServerError e), room)
  | .ok forwarder =>
      let room := { room with forwarder := forwarder }
      match room.clientMap[userId]? with
      | none => (.error (.streamNotFound stream), room)
      | some client =>
          match client.removeStream stream with
          | .error e => (.error e, room)
          | .ok client => (.ok (), room.setClient userId client)

/-- The end of `Room::user_delete`. -/
def removeClient (room : Room) (userId : Int32) : Room :=
  { room with clientMap := room.clientMap.erase userId }

end Room

namespace Deletion

/-- The next turn of a deletion, which fails with the first failure; there is none at the end. -/
def turn (d : Deletion) (room : Room) : Option (Except AppError Deletion × Room) :=
  match d.user, d.calls with
  | some (userId, stream :: streams), calls =>
      match room.deleteStream userId stream with
      | (.error e, room) => some (.error e, room)
      | (.ok (), room) => some (.ok ⟨some (userId, streams), calls⟩, room)
  | some (userId, []), calls => some (.ok ⟨none, calls⟩, room.removeClient userId)
  | none, call :: calls =>
      let (streams, room) := room.beginDelete call
      some (.ok ⟨streams.map (call.userId, ·), calls⟩, room)
  | none, [] => none

/-- What a deletion comes to if nobody else touches the room. -/
inductive Ends : Deletion → Room → Except AppError Unit → Room → Prop
  | done {d : Deletion} {room : Room} (last : d.turn room = none) : Ends d room (.ok ()) room
  | failed {d : Deletion} {room room' : Room} {e : AppError}
      (turn : d.turn room = some (.error e, room')) : Ends d room (.error e) room'
  | next {d d' : Deletion} {room room' room'' : Room} {r : Except AppError Unit}
      (turn : d.turn room = some (.ok d', room')) (ends : Ends d' room' r room'') :
      Ends d room r room''

/-- Every turn keeps the groups of the room well formed. -/
lemma wf_turn {d : Deletion} {room room' : Room} {r : Except AppError Deletion}
    (hr : room.groupManager.Wf) (h : d.turn room = some (r, room')) : room'.groupManager.Wf := by
  have hstream : ∀ (userId : Int32) (stream : String),
      (room.deleteStream userId stream).2.groupManager = room.groupManager := by
    intro userId stream
    rw [Room.deleteStream]
    split
    · rfl
    · dsimp only
      split
      · rfl
      · split <;> rfl
  have hbegin : ∀ call : DeleteCall, (room.beginDelete call).2.groupManager.Wf := by
    intro call
    rw [Room.beginDelete]
    split
    · exact hr.endUser _
    · split_ifs <;> exact hr.endUser _
  rw [turn] at h
  split at h
  · rename_i userId stream streams _
    have hm := hstream userId stream
    split at h <;> rename_i heq <;> rw [heq] at hm <;> cases h <;> exact hm ▸ hr
  · cases h
    exact hr
  · rename_i call _ _ _
    cases h
    exact hbegin call
  · cases h

/-! ### Deletions in one piece -/

/-- The calls one after the other, in one piece each. -/
def deleteCalls (room : Room) : List DeleteCall → Except AppError Unit × Room
  | [] => (.ok (), room)
  | call :: calls =>
      match room.userDelete call.userId call.token call.checkToken with
      | (.error e, room) => (.error e, room)
      | (.ok _, room) => deleteCalls room calls

/-- The loop over the streams, which goes on with the calls after it. -/
lemma ends_deleteStreams {userId : Int32} {calls : List DeleteCall} {r : Except AppError Unit}
    {room'' : Room} (streams : List String) {client : Client} {room : Room}
    (hclient : room.clientMap[userId]? = some client)
    (hend : match Room.deleteStreams userId client room streams with
      | (.error e, room') => r = .error e ∧ room'' = room'
      | (.ok (), room') => Ends ⟨none, calls⟩ (room'.removeClient userId) r room'') :
    Ends ⟨some (userId, streams), calls⟩ room r room'' := by
  induction streams generalizing client room with
  | nil => exact .next rfl hend
  | cons stream streams ih =>
      rw [Room.deleteStreams] at hend
      cases hf : room.forwarder.streamDelete stream with
      | error e =>
          simp only [hf] at hend
          obtain ⟨rfl, rfl⟩ := hend
          exact .failed (by simp [turn, Room.deleteStream, hf])
      | ok forwarder =>
          simp only [hf] at hend
          cases hremove : client.removeStream stream with
          | error e =>
              simp only [hremove] at hend
              obtain ⟨rfl, rfl⟩ := hend
              exact .failed (by simp [turn, Room.deleteStream, hf, hclient, hremove])
          | ok client' =>
              simp only [hremove] at hend
              have hturn : turn ⟨some (userId, stream :: streams), calls⟩ room =
                  some (.ok ⟨some (userId, streams), calls⟩,
                    { room with forwarder := forwarder }.setClient userId client') := by
                simp [turn, Room.deleteStream, hf, hclient, hremove]
              exact .next hturn (ih (by simp [Room.setClient]) hend)

/-- The beginning of a call is a turn. -/
lemma turn_call {call : DeleteCall} {calls : List DeleteCall} {streams : Option (List String)}
    {room room' : Room} (h : room.beginDelete call = (streams, room')) :
    turn ⟨none, call :: calls⟩ room =
      some (.ok ⟨streams.map (call.userId, ·), calls⟩, room') := by
  simp only [turn]
  rw [h]

/-- A call, which goes on with those after it. -/
lemma ends_call {call : DeleteCall} {calls : List DeleteCall} {r : Except AppError Unit}
    {room room'' : Room}
    (hend : match room.userDelete call.userId call.token call.checkToken with
      | (.error e, room') => r = .error e ∧ room'' = room'
      | (.ok _, room') => Ends ⟨none, calls⟩ room' r room'') :
    Ends ⟨none, call :: calls⟩ room r room'' := by
  rw [Room.userDelete] at hend
  cases hclient : room.clientMap[call.userId]? with
  | none =>
      simp only [hclient] at hend
      have hbegin : room.beginDelete call = (none, { room with
          groupManager := room.groupManager.endUser call.userId.toUInt32 }) := by
        rw [Room.beginDelete, hclient]
      exact .next (turn_call hbegin) hend
  | some client =>
      simp only [hclient] at hend
      cases htoken : call.checkToken && ! client.checkToken call.token with
      | true =>
          simp only [htoken, if_true] at hend
          have hbegin : room.beginDelete call = (none, { room with
              groupManager := room.groupManager.endUser call.userId.toUInt32 }) := by
            simp only [Room.beginDelete, hclient, htoken, if_true]
          exact .next (turn_call hbegin) hend
      | false =>
          simp only [htoken, Bool.false_eq_true, if_false] at hend
          have hbegin : room.beginDelete call = (some client.getStreams, { room with
              groupManager := room.groupManager.endUser call.userId.toUInt32 }) := by
            simp only [Room.beginDelete, hclient, htoken, Bool.false_eq_true, if_false]
          refine .next (turn_call hbegin) (ends_deleteStreams _ hclient ?_)
          rcases hstreams : Room.deleteStreams call.userId client { room with
            groupManager := room.groupManager.endUser call.userId.toUInt32 } client.getStreams
            with ⟨_ | _, room'⟩
          · simpa only [hstreams] using hend
          · simpa only [hstreams, Room.removeClient] using hend

/-- **Calls in one piece**: what a deletion comes to that is not interrupted. -/
theorem ends_deleteCalls (room : Room) (calls : List DeleteCall) :
    Ends ⟨none, calls⟩ room (deleteCalls room calls).1 (deleteCalls room calls).2 := by
  induction calls generalizing room with
  | nil => exact .done rfl
  | cons call calls ih =>
      apply ends_call
      rw [deleteCalls]
      rcases room.userDelete call.userId call.token call.checkToken with ⟨_ | _, room'⟩
      · exact ⟨rfl, rfl⟩
      · exact ih room'

/-- **`Room::user_delete`** is a deletion of one user. -/
theorem ends_userDelete (room : Room) (call : DeleteCall) :
    Ends ⟨none, [call]⟩ room
      ((room.userDelete call.userId call.token call.checkToken).1.map fun _ => ())
      (room.userDelete call.userId call.token call.checkToken).2 := by
  have h := ends_deleteCalls room [call]
  rw [deleteCalls] at h
  rcases hcall : room.userDelete call.userId call.token call.checkToken with ⟨_ | _, room'⟩ <;>
    rw [hcall] at h <;> exact h

/-- **`Room::all_user_delete`** is a deletion of the users in the order of the map. -/
theorem ends_allUserDelete (room : Room) (keys : List Int32) :
    Ends ⟨none, keys.map (⟨·, 0, false⟩)⟩ room ((room.allUserDelete keys).1.map fun _ => ())
      (room.allUserDelete keys).2 := by
  have hcalls : ∀ room : Room, deleteCalls room (keys.map (⟨·, 0, false⟩)) =
      ((room.deleteUsers keys).1.map fun _ => (), (room.deleteUsers keys).2) := by
    induction keys with
    | nil => exact fun _ => rfl
    | cons userId keys ih =>
        intro room
        rw [List.map_cons, deleteCalls, Room.deleteUsers]
        dsimp only
        rcases room.userDelete userId 0 false with ⟨_ | _, room'⟩
        · rfl
        · exact ih room'
  have h := ends_deleteCalls room (keys.map (⟨·, 0, false⟩))
  rwa [hcalls] at h

end Deletion

end SfuServer
