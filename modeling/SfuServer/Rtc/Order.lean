import SfuServer.Lib.Relay
import SfuServer.Rtc.Privacy

/-!
The order in which the frames of the data channels arrive, over all runs of `dataChannelMachine`.

`data_channel_broadcast_pipe_loop` passes the frames for everybody on to a user's channel, where
`data_channel_read_loop` of another user puts messages for this user at once.

* `Lined`, `lined_step`: the frames on the channels come from actions, in the order that two
  channels in line keep;
* `Sourced`, `sourced_step`: what a write loop has taken is a part of its user's channel, without
  gaps;
* `writes_in_order`: the frames that a write loop takes come from actions of the run, none twice,
  in the order of these actions, but for messages to one user that overtake what the pipe had still
  to pass on.
-/

namespace SfuServer

open Relay

namespace DataChannelSystem

variable {s t : DataChannelSystem} {a : DataChannelAction} {as : List DataChannelAction}

/-- At the place `n` of the run, the frame is sent to the group. -/
def SentToGroup (as : List DataChannelAction) (n : ℕ) (f : Bytes) : Prop :=
  ∃ r a, dataChannelMachine.At .new as n r a ∧ r.Sends a f

/-- At the place `n` of the run, a read loop puts the frame on the channel of the session `j`. -/
def SentToSession (as : List DataChannelAction) (j n : ℕ) (f : Bytes) : Prop :=
  ∃ r i m d u, dataChannelMachine.At .new as n r (.read i m) ∧ r.sessions[i]? = some d ∧
    (dataChannelReadStep r.userSenderMap d.buffer m).1 = .unicast u j f

/-- At the place `n` of the run, the pipe of the session `j` reads the frame from the group and puts
it on the channel of the session. -/
def PassedOn (as : List DataChannelAction) (j n : ℕ) (f : Bytes) : Prop :=
  ∃ r t c c', dataChannelMachine.At .new as n r (.pipe j) ∧ r.step (.pipe j) = some t ∧
    r.sessions[j]? = some c ∧ t.sessions[j]? = some c' ∧
    (r.dataChannelForward.recv (j + 1)).1 = .message f ∧
    c'.userSender.log = c.userSender.log ++ [f]

/-- The frames on the channels come from the first `n` actions of the run. -/
def Lined (as : List DataChannelAction) (n : ℕ) (s : DataChannelSystem) : Prop :=
  ∃ times, Trunk (SentToGroup as) n times s.dataChannelForward.log ∧
    ∀ (j : ℕ) (c : DataChannelSession), s.sessions[j]? = some c →
      ∃ origins, Branch (Origin.Of (SentToGroup as) (PassedOn as j) (SentToSession as j)) n times
        s.dataChannelForward.cursors[j + 1]? origins c.userSender.log

/-- The receivers of the other pipes come, go and read. -/
lemma ChannelEffect.branch {tx : Broadcast Bytes} {src : Origin → Bytes → Prop} {n j : ℕ}
    {times times' : List ℕ} {origins : List Origin} {log : List Bytes} (h : s.ChannelEffect a tx)
    (hlen : times.length = s.dataChannelForward.log.length) (htimes : times <+: times')
    (hb : Branch src n times s.dataChannelForward.cursors[j + 1]? origins log) :
    Branch src n times' tx.cursors[j + 1]? origins log := by
  refine Branch.mono ?_ le_rfl htimes
  cases h with
  | kept => exact hb
  | sent sends taken =>
      obtain ⟨-, rfl⟩ := (s.dataChannelForward.send_eq_some_iff _).mp taken
      exact hb
  | subscribed i =>
      rw [Broadcast.cursors_subscribe]
      split_ifs
      · exact hlen ▸ hb.attach
      · exact hb
  | received i =>
      refine hb.move fun k hk => ?_
      by_cases hi : j + 1 = i + 1
      · rw [hi] at hk ⊢
        obtain ⟨k', hle, hk'⟩ := s.dataChannelForward.cursor_le_of_recv hk
        exact ⟨k', hk', hle⟩
      · exact ⟨k, (s.dataChannelForward.cursors_recv_of_ne _ _ hi) ▸ hk, le_rfl⟩
  | unsubscribed i =>
      refine hb.move fun k hk => ?_
      by_cases hi : j + 1 = i + 1
      · simp [hi, Broadcast.unsubscribe] at hk
      · exact ⟨k, (s.dataChannelForward.cursors_unsubscribe_of_ne _ _ hi) ▸ hk, le_rfl⟩

/-- What a pipe passes on is the frame that it read from the group. -/
lemma recv_of_pipe {i : ℕ} {c c' : DataChannelSession} {f : Bytes}
    (h : s.step (.pipe i) = some t) (hc : s.sessions[i]? = some c)
    (hc' : t.sessions[i]? = some c') (hlog : c'.userSender.log = c.userSender.log ++ [f]) :
    (s.dataChannelForward.recv (i + 1)).1 = .message f ∧
      t.dataChannelForward = (s.dataChannelForward.recv (i + 1)).2 := by
  have hlt := (List.getElem?_eq_some_iff.mp hc).1
  -- a turn that passes nothing on
  have hkeeps : ∀ d : DataChannelSession, (s.sessions.set i d)[i]? = some c' →
      d.userSender = c.userSender → False := by
    intro d hd hsame
    rw [List.getElem?_set_self hlt, Option.some.injEq] at hd
    rw [← hd, hsame] at hlog
    simpa using congrArg List.length hlog
  simp only [step, pipeStep, Option.bind_eq_some_iff, Option.ite_none_right_eq_some] at h
  obtain ⟨d, hd, -, h⟩ := h
  obtain rfl := Option.some.inj (hc.symm.trans hd)
  split at h
  · cases h
  · cases h
    exact (hkeeps _ hc' rfl).elim
  · rename_i msg tx hrecv
    obtain rfl : (s.dataChannelForward.recv (i + 1)).2 = tx := by rw [hrecv]
    have hmsg : (s.dataChannelForward.recv (i + 1)).1 = .message msg := by rw [hrecv]
    split_ifs at h
    · cases h
      obtain rfl := Option.some.inj (hc.symm.trans hc')
      simpa using congrArg List.length hlog
    · split at h
      · rename_i channel hchannel
        cases h
        obtain ⟨-, rfl⟩ := (c.userSender.send_eq_some_iff msg).mp hchannel
        rw [setSession, List.getElem?_set_self hlt, Option.some.injEq] at hc'
        subst hc'
        have hmf : msg = f := by simpa using hlog
        exact ⟨hmf ▸ hmsg, rfl⟩
      · cases h
        exact (hkeeps _ hc' rfl).elim

/-- A turn of a pipe sends nothing to the group. -/
lemma lined_pipe {n i : ℕ} (hat : dataChannelMachine.At .new as n s (.pipe i))
    (h : s.step (.pipe i) = some t) (hs : Lined as n s) : Lined as (n + 1) t := by
  have heffect := (spec_of_step h).channel
  obtain ⟨times, htrunk, hbranch⟩ := hs
  have hlen := htrunk.sent.length_eq
  have hlog : t.dataChannelForward.log = s.dataChannelForward.log := by
    rcases heffect.log with hlog | ⟨f, hf, -⟩
    · exact hlog
    · exact hf.elim
  have hbecame := became_of_step h
  refine ⟨times, hlog ▸ htrunk.mono (Nat.le_succ n), fun j c' hc' => ?_⟩
  cases hc : s.sessions[j]? with
  | none =>
      rw [(hbecame.new j c' hc hc').1]
      exact ⟨[], .nil⟩
  | some c =>
      obtain ⟨c'', hc'', hsame⟩ := hbecame.old j c hc
      obtain rfl := Option.some.inj (hc'.symm.trans hc'')
      obtain ⟨origins, horigins⟩ := hbranch j c hc
      rcases hsame.channel with hchannel | ⟨f, ⟨rfl, -⟩, hchannel⟩
      · rw [hchannel]
        exact ⟨origins, (heffect.branch hlen List.prefix_rfl horigins).mono (Nat.le_succ n)
          List.prefix_rfl⟩
      · obtain ⟨hrecv, htx⟩ := recv_of_pipe h hc hc' hchannel
        obtain ⟨k, hk, hf, hnext⟩ := s.dataChannelForward.cursor_of_recv hrecv
        obtain ⟨time, htime, hsent, hbefore⟩ := htrunk.exists_time hf
        have hpassed : PassedOn as i n f := ⟨s, t, c, c', hat, h, hc, hc', hrecv, hchannel⟩
        rw [hk] at horigins
        rw [htx, hnext, hchannel]
        exact ⟨_, horigins.pass htrunk htime ⟨hsent, hpassed, hbefore⟩⟩

/-- **A step keeps the order on the channels.** -/
theorem lined_step {n : ℕ} (hat : dataChannelMachine.At .new as n s a) (h : s.step a = some t)
    (hs : Lined as n s) : Lined as (n + 1) t := by
  by_cases hpipe : ∃ i, a = .pipe i
  · obtain ⟨i, rfl⟩ := hpipe
    exact lined_pipe hat h hs
  obtain ⟨times, htrunk, hbranch⟩ := hs
  have heffect := (spec_of_step h).channel
  have hbecame := became_of_step h
  have hlen := htrunk.sent.length_eq
  have hsessions : ∀ times', times <+: times' →
      ∀ (j : ℕ) (c' : DataChannelSession), t.sessions[j]? = some c' →
        ∃ origins, Branch (Origin.Of (SentToGroup as) (PassedOn as j) (SentToSession as j))
          (n + 1) times' t.dataChannelForward.cursors[j + 1]? origins c'.userSender.log := by
    intro times' htimes j c' hc'
    cases hc : s.sessions[j]? with
    | none =>
        rw [(hbecame.new j c' hc hc').1]
        exact ⟨[], .nil⟩
    | some c =>
        obtain ⟨c'', hc'', hsame⟩ := hbecame.old j c hc
        obtain rfl := Option.some.inj (hc'.symm.trans hc'')
        obtain ⟨origins, horigins⟩ := hbranch j c hc
        have hnext := heffect.branch hlen htimes horigins
        rcases hsame.channel with hlog | ⟨f, hf, hlog⟩
        · rw [hlog]
          exact ⟨origins, hnext.mono (Nat.le_succ n) List.prefix_rfl⟩
        · rw [hlog]
          refine ⟨_, hnext.send ?_⟩
          cases a with
          | pipe i => exact absurd ⟨i, rfl⟩ hpipe
          | read i m =>
              obtain ⟨d, u, hd, hrouting⟩ := hf
              exact ⟨s, i, m, d, u, hat, hd, hrouting⟩
          | _ => exact hf.elim
  rcases heffect.log with hlog | ⟨f, hf, hlog⟩
  · exact ⟨times, hlog ▸ htrunk.mono (Nat.le_succ n), hsessions times List.prefix_rfl⟩
  · exact ⟨times ++ [n], hlog ▸ htrunk.push ⟨s, a, hat, hf⟩,
      hsessions _ (List.prefix_append _ _)⟩

/-! ### What a write loop takes -/

/-- The frame that a write loop takes in an action. -/
def takesFrame (j : ℕ) (s : DataChannelSystem) : DataChannelAction → Option Bytes
  | .write i _ =>
      if i = j then s.sessions[j]?.bind fun c => (c.userSender.recv j).1.toOption else none
  | _ => none

/-- The frames that a write loop takes in a run. -/
def taken (as : List DataChannelAction) (j : ℕ) : List Bytes :=
  dataChannelMachine.outputs (takesFrame j) .new as

/-- The write loop of a session has not started and taken nothing, or it has taken a part of the
channel of its user, up to the place where its receiver is. -/
structure Source (j : ℕ) (c : DataChannelSession) (out : List Bytes) : Prop where
  part : out <:+: c.userSender.log
  waiting : c.writeLoop = none → out = []
  running : c.writeLoop = some .running → ∃ start, c.userSender.Reads j start out

/-- What every write loop has taken. -/
def Sourced (s : DataChannelSystem) (out : ℕ → List Bytes) : Prop :=
  (∀ j, s.sessions[j]? = none → out j = []) ∧
    ∀ (j : ℕ) (c : DataChannelSession), s.sessions[j]? = some c → Source j c (out j)

/-- A write loop that has taken a frame goes on to the next one, or ends. -/
lemma source_write {j : ℕ} {written : Bool} {c c' : DataChannelSession} {out : List Bytes}
    (hc : s.sessions[j]? = some c) (hs : Source j c out)
    (h : s.step (.write j written) = some t) (hc' : t.sessions[j]? = some c') :
    Source j c' (out ++ (takesFrame j s (.write j written)).toList) := by
  have hlt := (List.getElem?_eq_some_iff.mp hc).1
  simp only [step, writeStep, Option.bind_eq_some_iff, Option.ite_none_right_eq_some] at h
  obtain ⟨d, hd, hrunning, h⟩ := h
  obtain rfl := Option.some.inj (hc.symm.trans hd)
  obtain ⟨start, hstart⟩ := hs.running hrunning
  have htakes : takesFrame j s (.write j written) = (c.userSender.recv j).1.toOption := by
    rw [takesFrame, if_pos rfl, hc, Option.bind_some]
  -- the end of the write loop, after it has taken these frames
  have hstopped : ∀ taken, out ++ taken <:+: c.userSender.log →
      (s.setSession j { c with
        userSender := c.userSender.unsubscribe j, writeLoop := some .finished }).sessions[j]? =
          some c' → Source j c' (out ++ taken) := by
    intro taken htaken hset
    rw [setSession, List.getElem?_set_self hlt, Option.some.injEq] at hset
    subst hset
    exact ⟨htaken, by simp, by simp⟩
  rw [htakes]
  split at h
  · rename_i f channel hrecv
    have hf : (c.userSender.recv j).1 = .message f := by rw [hrecv]
    obtain rfl : (c.userSender.recv j).2 = channel := by rw [hrecv]
    have htaken := hstart.recv hf
    have hpart := htaken.isInfix
    rw [Broadcast.recv_log] at hpart
    rw [hf, Received.toOption, Option.toList_some]
    split_ifs at h
    · cases h
      rw [setSession, List.getElem?_set_self hlt, Option.some.injEq] at hc'
      subst hc'
      exact ⟨by simpa using hpart, by simp [hrunning], fun _ => ⟨start, htaken⟩⟩
    · cases h
      exact hstopped [f] hpart hc'
  · rename_i hrecv
    cases h
    have hempty : (c.userSender.recv j).1.toOption = none := by
      rw [hrecv]
      rfl
    rw [hempty, Option.toList_none]
    exact hstopped [] (by simpa using hs.part) hc'
  · rename_i hrecv
    obtain ⟨-, h⟩ := Option.ite_none_right_eq_some.mp h
    cases h
    have hempty : (c.userSender.recv j).1.toOption = none := by
      rw [hrecv]
      rfl
    rw [hempty, Option.toList_none]
    exact hstopped [] (by simpa using hs.part) hc'

/-- A write loop begins at the end of the channel. -/
lemma source_spawnWrite {j : ℕ} {c c' : DataChannelSession} {out : List Bytes}
    (hc : s.sessions[j]? = some c) (hs : Source j c out) (h : s.step (.spawnWrite j) = some t)
    (hc' : t.sessions[j]? = some c') : Source j c' out := by
  have hlt := (List.getElem?_eq_some_iff.mp hc).1
  simp only [step, spawnWriteStep, Option.bind_eq_some_iff, Option.ite_none_right_eq_some,
    Option.some.injEq] at h
  obtain ⟨d, hd, ⟨-, hwaiting⟩, rfl⟩ := h
  obtain rfl := Option.some.inj (hc.symm.trans hd)
  rw [setSession, List.getElem?_set_self hlt, Option.some.injEq] at hc'
  subst hc'
  rw [hs.waiting hwaiting]
  exact ⟨List.nil_infix, fun _ => rfl, fun _ => ⟨_, Broadcast.reads_subscribe _ _⟩⟩

/-- **A step keeps what was taken together.** -/
theorem sourced_step {out : ℕ → List Bytes} (h : s.step a = some t) (hs : s.Sourced out) :
    t.Sourced fun j => out j ++ (takesFrame j s a).toList := by
  obtain ⟨hnone, hsome⟩ := hs
  have hbecame := became_of_step h
  -- without a session nothing is taken
  have hnothing : ∀ j, s.sessions[j]? = none → out j ++ (takesFrame j s a).toList = [] := by
    intro j hj
    have htakes : takesFrame j s a = none := by
      cases a with
      | write i written => simp [takesFrame, hj]
      | _ => rfl
    rw [hnone j hj, htakes]
    rfl
  refine ⟨fun j hj => ?_, fun j c' hc' => ?_⟩
  · cases hc : s.sessions[j]? with
    | none => exact hnothing j hc
    | some c =>
        obtain ⟨c', hc', -⟩ := hbecame.old j c hc
        rw [hj] at hc'
        cases hc'
  · cases hc : s.sessions[j]? with
    | none =>
        dsimp only
        rw [hnothing j hc]
        have hwaiting := (hbecame.new j c' hc hc').2.2.2
        exact ⟨List.nil_infix, fun _ => rfl, by simp [hwaiting]⟩
    | some c =>
        by_cases hwrite : ∃ written, a = .write j written
        · obtain ⟨written, rfl⟩ := hwrite
          exact source_write hc (hsome j c hc) h hc'
        push Not at hwrite
        have htakes : takesFrame j s a = none := by
          cases a with
          | write i written => exact if_neg fun hi => hwrite written (by rw [hi])
          | _ => rfl
        dsimp only
        rw [htakes, Option.toList_none, List.append_nil]
        by_cases hspawn : a = .spawnWrite j
        · subst hspawn
          exact source_spawnWrite hc (hsome j c hc) h hc'
        · obtain ⟨c'', hc'', hsame⟩ := hbecame.old j c hc
          obtain rfl := Option.some.inj (hc'.symm.trans hc'')
          obtain ⟨hloop, hcursor⟩ := hsame.reader hwrite hspawn
          obtain ⟨hpart, hwaiting, hrunning⟩ := hsome j c hc
          have hlog : c.userSender.log <+: c'.userSender.log := by
            rcases hsame.channel with hlog | ⟨f, -, hlog⟩
            · rw [hlog]
            · rw [hlog]
              exact List.prefix_append _ _
          refine ⟨hpart.trans hlog.isInfix, hloop ▸ hwaiting, fun hrun => ?_⟩
          obtain ⟨start, hstart⟩ := hrunning (hloop ▸ hrun)
          exact ⟨start, hstart.follows ⟨hlog, hcursor⟩⟩

/-- **Frames in order**: in every run, the frames that a write loop takes come, one by one, from
actions of the run that sent them, to the channel of this session, or to the group, from where the
pipe of the session passed them on in a later action.  They stand in the order in which they came
to the channel, and in the order in which they were sent, none twice, but for one thing: a message
to the user can overtake frames for the group that were sent before it and that the pipe had still
to pass on. -/
theorem writes_in_order (h : dataChannelMachine.exec .new as = some s) (j : ℕ) :
    ∃ os : List Origin,
      List.Forall₂ (Origin.Of (SentToGroup as) (PassedOn as j) (SentToSession as j)) os
          (taken as j) ∧
        os.Pairwise fun o o' => o.put < o'.put ∧
          (o.time < o'.time ∨ ∃ n n' p, o = .direct n ∧ o' = .piped n' p) := by
  have hboth : Lined as as.length s ∧ s.Sourced (taken (as.take as.length)) := by
    refine Machine.exec_indexed (I := fun n r =>
      Lined as n r ∧ r.Sourced (taken (as.take n))) ?_ ?_ h
    · exact ⟨⟨[], .nil, by simp [new]⟩, fun _ _ => rfl, by simp [new]⟩
    · rintro n r a u hat hstep ⟨hlined, hsourced⟩
      refine ⟨lined_step hat hstep hlined, ?_⟩
      have htaken : taken (as.take (n + 1)) =
          fun j => taken (as.take n) j ++ (takesFrame j r a).toList :=
        funext fun j => hat.outputs_succ
      rw [htaken]
      exact sourced_step hstep hsourced
  obtain ⟨⟨times, -, hbranch⟩, hnone, hsourced⟩ := hboth
  rw [List.take_length] at hnone hsourced
  cases hc : s.sessions[j]? with
  | none => exact ⟨[], hnone j hc ▸ .nil, .nil⟩
  | some c =>
      obtain ⟨origins, horigins⟩ := hbranch j c hc
      exact horigins.part (hsourced j c hc).part

/-- A user sends a message to everybody and then one to another user, who takes the later one
first. -/
def overtaking : List DataChannelAction :=
  opened ++ [.spawnPipe 1, .read 0 [1, 0, 0, 0, 7], .read 0 [2, 0, 0, 0, 9, 9], .write 1 true,
    .pipe 1, .write 1 true]

theorem writes_in_order_overtaking : ∃ s, dataChannelMachine.exec .new overtaking = some s ∧
    taken overtaking 1 = [[0, 1, 0, 0, 0, 2, 0, 0, 0, 9], [0, 1, 0, 0, 0, 1, 0, 0, 0, 7]] ∧
    ∃ os : List Origin, List.Forall₂ (Origin.Of (SentToGroup overtaking) (PassedOn overtaking 1)
        (SentToSession overtaking 1)) os (taken overtaking 1) ∧
      os.Pairwise fun o o' => o.put < o'.put ∧
        (o.time < o'.time ∨ ∃ n n' p, o = .direct n ∧ o' = .piped n' p) := by
  have hrun : (dataChannelMachine.exec .new overtaking).isSome := by decide
  obtain ⟨s, hs⟩ := Option.isSome_iff_exists.mp hrun
  exact ⟨s, hs, by decide, writes_in_order hs 1⟩

end DataChannelSystem

end SfuServer
