import SfuServer.Rtc.Negotiation

/-!
A subscription that is set up, `PeerForward::add_subscribe` of `src/forward/rtc/mod.rs`, and what
it leaves behind where it fails.

`new_subscription_peer` enters the new session into the group, and only then `peer_complete`
answers the offer of the client, which may fail.  `PeerForward::set_publish` does it the other way
round.

* `SubscribeOffer`, `addSubscribe`: a call, as a program of the stream;
* `exec_addSubscribe`: the call comes to its end where no other one runs;
* `alone_newSubscriptionPeer`: when the session is entered, and what is written then;
* `failsClean_iff`: a call that fails leaves nothing behind, exactly if it fails before the
  session is entered.
-/

namespace SfuServer

/-- What a call of `add_subscribe` is told: the time, the states of the connections, the offer as
it is unmarshalled, and what the calls of the library come to. -/
structure SubscribeOffer where
  now : ℤ
  connectionState : String → RTCPeerConnectionState
  offer : Except AppError SessionDescription
  calls : PeerCalls

namespace StreamProg

open LockProg

/-- What `new_subscription_peer` is told. -/
def surroundings (o : SubscribeOffer) (mediaInfo : MediaInfo) : Surroundings where
  now := o.now
  connectionState := o.connectionState
  closed := fun _ => .ok ()
  built := o.calls.subscriptionPeer mediaInfo

/-- `PeerForwardInternal::publish_is_ok`. -/
def publishIsOk (o : SubscribeOffer) : StreamProg Bool := do
  lock .publish .read
  let isOk ← read fun d => d.publish.any fun p => o.connectionState p.id = .connected
  unlock .publish
  return isOk

/-- `PeerForward::add_subscribe`; `peer` is the connection that it sets up. -/
def addSubscribe (o : SubscribeOffer) (peer : String) :
    StreamProg (Except AppError (String × String)) := do
  if ← publishIsOk o then
    match o.offer.bind MediaInfo.tryFrom with
    | .error e => return .error e
    | .ok mediaInfo =>
        match ← newSubscriptionPeer (surroundings o mediaInfo) mediaInfo peer with
        | .error e => return .error e
        | .ok session => return o.calls.peerComplete.map fun sdp => (sdp, session)
  else return .error (.throw "publish is not ok")

variable {o : SubscribeOffer} {peer session : String} {d : StreamData}

/-! ### The call on its own -/

lemma obeys_addSubscribe (o : SubscribeOffer) (peer : String) :
    (addSubscribe o peer).Obeys Takes [] := by
  refine LockProg.Obeys.bind (by simp [publishIsOk, Takes.alone]) fun isOk => ?_
  split_ifs
  · split
    · simp
    · refine (obeys_newSubscriptionPeer _ _ peer).bind fun result => ?_
      cases result <;> simp
  · simp

/-- **The call comes to its end** on a stream where no other one runs, with the result and the data
that `alone` says, and leaves every lock free. -/
theorem exec_addSubscribe (o : SubscribeOffer) (peer : String) (d : StreamData) :
    ∃ n t, (lockMachine (fun _ : Unit => addSubscribe o peer) (· = d)).exec (.new d)
        (.start () :: List.replicate n (.run 0)) = some t ∧
      t.calls[0]? = some (.pure ((addSubscribe o peer).alone d).1) ∧
        t.data = ((addSubscribe o peer).alone d).2 ∧ ∀ l, t.locks l = .new := by
  obtain ⟨n, t, hexec, hcall, hdata, hlocks⟩ := LockSystem.exec_alone
    (fun _ : Unit => addSubscribe o peer) (· = d)
    (LockSystem.solo_start (d := d) (obeys_addSubscribe o peer))
  exact ⟨n, t, hexec, hcall, hdata, hlocks⟩

/-- An event is told with what `info` says at that time, and that is all. -/
lemma alone_sendEvent (w : Surroundings) (type : ForwardEventType) (session : String) :
    (sendEvent w type session).alone d =
      ((), { d with events := d.events ++ [⟨type, session, ((info w).alone d).1⟩] }) := rfl

/-- The stream with a new session in its group. -/
def registered (w : Surroundings) (peer : String) (d : StreamData) : StreamData :=
  ((sendEvent w .subscribeUp peer).alone { d with
    subscribeGroup := d.subscribeGroup ++ [⟨peer, w.now⟩]
    subscribeLeaveTime := 0 }).2

/-- `new_subscription_peer` gets to the group: there is a publisher, the offer receives one track
of a kind at most, and the connection could be set up. -/
def Reaches (w : Surroundings) (mediaInfo : MediaInfo) (d : StreamData) : Prop :=
  d.publish.isSome ∧ ¬ (1 < mediaInfo.videoTransceiver.2.1 ∨ 1 < mediaInfo.audioTransceiver.2) ∧
    w.built = .ok ()

/-- What `new_subscription_peer` makes of a stream: a new session if it gets to the group, and else
nothing. -/
lemma alone_newSubscriptionPeer (w : Surroundings) (mediaInfo : MediaInfo) (peer : String)
    (d : StreamData) :
    (Reaches w mediaInfo d ∧
      (newSubscriptionPeer w mediaInfo peer).alone d = (.ok peer, registered w peer d)) ∨
    (¬ Reaches w mediaInfo d ∧
      ∃ e, (newSubscriptionPeer w mediaInfo peer).alone d = (.error e, d)) := by
  have hsome : publishIsSome.alone d = (d.publish.isSome, d) := rfl
  rw [newSubscriptionPeer, LockProg.alone_bind, hsome]
  dsimp only
  split_ifs with hpublish hcount
  · exact .inr ⟨fun h => h.2.1 hcount, _, rfl⟩
  · cases hbuilt : w.built with
    | error e =>
        refine .inr ⟨fun h => ?_, e, rfl⟩
        cases hbuilt.symm.trans h.2.2
    | ok _ => exact .inl ⟨⟨hpublish, hcount, hbuilt⟩, rfl⟩
  · exact .inr ⟨fun h => hpublish h.1, _, rfl⟩

/-! ### What a failure leaves -/

/-- The call gets to the group: the publisher is connected, the offer can be read and receives one
track of a kind at most, and the connection can be set up. -/
def Registers (o : SubscribeOffer) (d : StreamData) : Prop :=
  (∃ p, d.publish = some p ∧ o.connectionState p.id = .connected) ∧
    ∃ mediaInfo, o.offer.bind MediaInfo.tryFrom = .ok mediaInfo ∧
      mediaInfo.videoTransceiver.2.1 ≤ 1 ∧ mediaInfo.audioTransceiver.2 ≤ 1 ∧
        o.calls.Builds mediaInfo

/-- How many more times a session has come up than gone down. -/
def standing (events : List ForwardEvent) (session : String) : ℤ :=
  events.countP (fun e => e.type = .subscribeUp ∧ e.session = session) -
    events.countP (fun e => e.type = .subscribeDown ∧ e.session = session)

/-- The group and its leave time are as before, and no session has come up without going down. -/
structure Untouched (d d' : StreamData) : Prop where
  subscribeGroup : d'.subscribeGroup = d.subscribeGroup
  subscribeLeaveTime : d'.subscribeLeaveTime = d.subscribeLeaveTime
  events : ∀ session, standing d'.events session ≤ standing d.events session

/-- Where the call returns an error, it leaves nothing behind. -/
def FailsClean (o : SubscribeOffer) (peer : String) (d : StreamData) : Prop :=
  ∀ e d', (addSubscribe o peer).alone d = (.error e, d') → Untouched d d'

lemma untouched_refl (d : StreamData) : Untouched d d := ⟨rfl, rfl, fun _ => le_rfl⟩

lemma subscribeGroup_registered (w : Surroundings) (peer : String) (d : StreamData) :
    (registered w peer d).subscribeGroup = d.subscribeGroup ++ [⟨peer, w.now⟩] := by
  rw [registered, alone_sendEvent]

/-- A new session is seen in the group. -/
lemma not_untouched_registered (w : Surroundings) (peer : String) (d : StreamData) :
    ¬ Untouched d (registered w peer d) := by
  intro h
  have hgroup := h.subscribeGroup
  rw [subscribeGroup_registered] at hgroup
  simp at hgroup

/-- What `add_subscribe` makes of a stream: if it gets to the group, there is the new session, and
the answer to the offer; and else there is an error. -/
lemma alone_addSubscribe (o : SubscribeOffer) (peer : String) (d : StreamData) :
    (Registers o d ∧ ∃ w, (addSubscribe o peer).alone d =
      (o.calls.peerComplete.map fun sdp => (sdp, peer), registered w peer d)) ∨
    (¬ Registers o d ∧ ∃ e, (addSubscribe o peer).alone d = (.error e, d)) := by
  have hok : (publishIsOk o).alone d =
      (d.publish.any fun p => o.connectionState p.id = .connected, d) := rfl
  rw [addSubscribe, LockProg.alone_bind, hok]
  dsimp only
  split_ifs with hpublish
  · obtain ⟨p, hp, hstate⟩ : ∃ p, d.publish = some p ∧ o.connectionState p.id = .connected := by
      simpa [Option.any_eq_true] using hpublish
    cases hoffer : o.offer.bind MediaInfo.tryFrom with
    | error e => exact .inr ⟨fun h => by simp [Registers, hoffer] at h, e, rfl⟩
    | ok mediaInfo =>
        rw [LockProg.alone_bind]
        have hiff : Reaches (surroundings o mediaInfo) mediaInfo d ↔ Registers o d := by
          simp [Reaches, Registers, hp, hstate, hoffer, surroundings,
            PeerCalls.subscriptionPeer_eq_ok_iff, and_assoc]
        rcases alone_newSubscriptionPeer (surroundings o mediaInfo) mediaInfo peer d with
          ⟨hreach, halone⟩ | ⟨hreach, e, halone⟩
        · rw [halone]
          exact .inl ⟨hiff.mp hreach, _, rfl⟩
        · rw [halone]
          exact .inr ⟨fun h => hreach (hiff.mpr h), e, rfl⟩
  · exact .inr ⟨fun h => hpublish (by simpa [Option.any_eq_true] using h.1), _, rfl⟩

/-- **Failed subscriptions leave no trace**: a call of `add_subscribe` that returns an error leaves
the group, its leave time and the sessions that are up as they were, if and only if it fails before
it gets to the group, or none of the calls that answer the offer fails. -/
theorem failsClean_iff (o : SubscribeOffer) (peer : String) (d : StreamData) :
    FailsClean o peer d ↔ (Registers o d → o.calls.Completes) := by
  rcases alone_addSubscribe o peer d with ⟨hreg, w, halone⟩ | ⟨hreg, e, halone⟩
  · simp only [FailsClean, halone, hreg, forall_const, ← PeerCalls.exists_peerComplete_iff]
    cases hcomplete : o.calls.peerComplete with
    | error e =>
        refine iff_of_false (fun h => ?_) (by simp)
        exact not_untouched_registered w peer d (h e _ rfl)
    | ok sdp =>
        refine iff_of_true (fun e d' h => ?_) ⟨sdp, rfl⟩
        cases (Prod.mk.inj h).1
  · refine iff_of_true (fun e' d' h => ?_) fun h => absurd h hreg
    obtain ⟨-, rfl⟩ := Prod.mk.inj (halone.symm.trans h)
    exact untouched_refl d

/-- The calls on a connection that refuses the offer of the client. -/
def unanswerable : PeerCalls :=
  { PeerCalls.working with
    setRemoteDescription :=
      .error (.internalServerError "set_remote_description called with no ice-ufrag") }

/-- A stream with a publisher. -/
def onAir : StreamData :=
  { StreamData.new "live" 1000 with publish := some ⟨"publisher", 1000⟩ }

/-- An offer without credentials for the connection, to receive video. -/
def bareOffer : SubscribeOffer where
  now := 2000
  connectionState := fun _ => .connected
  offer := .ok [⟨"video", ["recvonly"], .ok ()⟩]
  calls := unanswerable

theorem not_failsClean_bareOffer :
    ¬ FailsClean bareOffer "subscriber" onAir ∧
      ∃ d, ((addSubscribe bareOffer "subscriber").alone onAir).2 = d ∧
        d.subscribeGroup = [⟨"subscriber", 2000⟩] ∧ d.subscribeLeaveTime = 0 ∧
          standing d.events "subscriber" = 1 := by
  refine ⟨fun h => ?_, _, rfl, rfl, rfl, by decide⟩
  have hgroup := (h _ _ rfl).subscribeGroup
  cases hgroup

end StreamProg

end SfuServer
