import SfuServer.Rtc.Locks

/-!
The connections of a stream: what `src/forward/rtc/mod.rs` and `src/forward/rtc/internal.rs` ask of
the WebRTC library to set one up, call by call.

Each call may fail, and the first one that does ends the set-up with its error.

* `MediaInfo.tryFrom`: what an offer says about the tracks;
* `PeerCalls`: the outcomes of the calls on one connection;
* `subscriptionPeer`, `newPublishPeer`, `genVirtualPublish`, `peerComplete`, `publishConnection`:
  the chains of calls;
* `subscriptionPeer_eq_ok_iff`, `negotiate_eq_ok_iff` and the like: when a chain succeeds.
-/

namespace SfuServer

/-! ### Offers -/

/-- What is read of a media section: its kind, the keys of its attributes, and whether its codecs
can be read. -/
structure MediaDescription where
  media : String
  attributes : List String
  codecs : Except AppError Unit

/-- `SessionDescription`. -/
abbrev SessionDescription := List MediaDescription

/-- The kind of a media section. -/
def RTPCodecType.ofString : String → RTPCodecType
  | "audio" => .audio
  | "video" => .video
  | _ => .unspecified

/-- An attribute of a section counts; the counters wrap around, as those of a release build do. -/
def countAttribute (update : UInt8 × UInt8 × Bool) : String → UInt8 × UInt8 × Bool
  | "sendonly" => (update.1 + 1, update.2)
  | "recvonly" => (update.1, update.2.1 + 1, update.2.2)
  | "sendrecv" => (update.1 + 1, update.2.1 + 1, update.2.2)
  | "simulcast" => (update.1, update.2.1, true)
  | _ => update

/-- `MediaInfo::try_from`. -/
def MediaInfo.tryFrom (value : SessionDescription) : Except AppError MediaInfo := do
  let (video, audio) ← value.foldlM (fun (video, audio) md =>
    match RTPCodecType.ofString md.media with
    | .video => md.codecs.map fun _ => (md.attributes.foldl countAttribute video, audio)
    | .audio => md.codecs.map fun _ => (video, md.attributes.foldl countAttribute audio)
    | .unspecified => .ok (video, audio)) ((0, 0, false), (0, 0, false))
  return ⟨video, audio.1, audio.2.1⟩

/-! ### The calls -/

/-- What the calls of the library come to on one connection. -/
structure PeerCalls where
  registerDefaultCodecs : Except AppError Unit
  registerHeaderExtension : String → Except AppError Unit
  registerDefaultInterceptors : Except AppError Unit
  newPeerConnection : Except AppError Unit
  addTransceiver : RTPCodecType → Except AppError Unit
  createDataChannel : Except AppError Unit
  createOffer : Except AppError Unit
  createAnswer : Except AppError Unit
  setRemoteDescription : Except AppError Unit
  setLocalDescription : Except AppError Unit
  localDescription : Option String
  remoteDescription : Option (Except AppError SessionDescription)

def sdesMidUri : String := "urn:ietf:params:rtp-hdrext:sdes:mid"

def sdesRtpStreamIdUri : String := "urn:ietf:params:rtp-hdrext:sdes:rtp-stream-id"

namespace PeerCalls

/-- A transceiver is added for a kind that the offer has. -/
def addFor (c : PeerCalls) (kind : RTPCodecType) (count : UInt8) : Except AppError Unit :=
  if 0 < count then c.addTransceiver kind else .ok ()

/-- `new_sender`; that the track is not replaced is ignored. -/
def newSender (c : PeerCalls) (kind : RTPCodecType) (recvSender : UInt8) : Except AppError Unit :=
  c.addFor kind recvSender

/-- The calls of `new_subscription_peer`, once its tests are passed. -/
def subscriptionPeer (c : PeerCalls) (mediaInfo : MediaInfo) : Except AppError Unit := do
  c.registerDefaultCodecs
  c.registerDefaultInterceptors
  c.newPeerConnection
  c.newSender .video mediaInfo.videoTransceiver.2.1
  c.newSender .audio mediaInfo.audioTransceiver.2

/-- `new_publish_peer`. -/
def newPublishPeer (c : PeerCalls) (mediaInfo : MediaInfo) : Except AppError Unit :=
  if 1 < mediaInfo.videoTransceiver.1 ∨ 1 < mediaInfo.audioTransceiver.1 then
    .error (.throw "sendonly is more than 1")
  else do
    c.registerDefaultCodecs
    c.registerHeaderExtension sdesMidUri
    c.registerHeaderExtension sdesRtpStreamIdUri
    c.registerDefaultInterceptors
    c.newPeerConnection
    c.addFor .video mediaInfo.videoTransceiver.1
    c.addFor .audio mediaInfo.audioTransceiver.1

/-- `new_virtual_publish_peer`. -/
def newVirtualPublishPeer (c : PeerCalls) : Except AppError Unit := do
  c.registerDefaultCodecs
  c.registerDefaultInterceptors
  c.newPeerConnection

/-- The description that a connection hands out at the end of its set-up. -/
def description (c : PeerCalls) : Except AppError String :=
  match c.localDescription with
  | none => .error (.internalServerError "failed to get local description")
  | some description => .ok description

/-- `gen_virtual_publish`. -/
def genVirtualPublish (c : PeerCalls) : Except AppError String := do
  c.newVirtualPublishPeer
  c.createDataChannel
  c.createOffer
  c.setLocalDescription
  c.description

/-- `peer_complete`. -/
def peerComplete (c : PeerCalls) : Except AppError String := do
  c.setRemoteDescription
  c.createAnswer
  c.setLocalDescription
  c.description

/-- `PublishRTCPeerConnection::new`. -/
def publishConnection (c : PeerCalls) : Except AppError MediaInfo :=
  match c.remoteDescription with
  | none => .error (.internalServerError "not set remote_description")
  | some unmarshal => unmarshal.bind MediaInfo.tryFrom

/-- What `PeerForward::set_publish` makes of an offer, up to the slot. -/
def negotiate (c : PeerCalls) (offer : Except AppError SessionDescription) :
    Except AppError Unit := do
  let mediaInfo ← MediaInfo.tryFrom (← offer)
  c.newPublishPeer mediaInfo
  let _ ← c.peerComplete
  let _ ← c.publishConnection

/-! ### When they succeed -/

/-- A chain succeeds where its first call does, and the rest on the value of that. -/
lemma bind_eq_ok_iff {α β : Type} {x : Except AppError α} {f : α → Except AppError β} {b : β} :
    (x >>= f) = .ok b ↔ ∃ a, x = .ok a ∧ f a = .ok b := by
  cases x with
  | error e => exact ⟨fun h => (by cases h), fun ⟨_, h, _⟩ => (by cases h)⟩
  | ok a => exact ⟨fun h => ⟨a, rfl, h⟩, fun ⟨_, h, h'⟩ => (by cases h; exact h')⟩

/-- The same for a call whose value nobody uses. -/
lemma then_eq_ok_iff {α : Type} {x : Except AppError Unit} {f : Unit → Except AppError α} {b : α} :
    (x >>= f) = .ok b ↔ x = .ok () ∧ f () = .ok b := by
  rw [bind_eq_ok_iff, Unique.exists_iff]

/-- The calls that set up the connection of a subscriber succeed. -/
structure Builds (c : PeerCalls) (mediaInfo : MediaInfo) : Prop where
  registerDefaultCodecs : c.registerDefaultCodecs = .ok ()
  registerDefaultInterceptors : c.registerDefaultInterceptors = .ok ()
  newPeerConnection : c.newPeerConnection = .ok ()
  video : 0 < mediaInfo.videoTransceiver.2.1 → c.addTransceiver .video = .ok ()
  audio : 0 < mediaInfo.audioTransceiver.2 → c.addTransceiver .audio = .ok ()

/-- The calls of `peer_complete` succeed. -/
structure Completes (c : PeerCalls) : Prop where
  setRemoteDescription : c.setRemoteDescription = .ok ()
  createAnswer : c.createAnswer = .ok ()
  setLocalDescription : c.setLocalDescription = .ok ()
  localDescription : c.localDescription.isSome

/-- The calls of `gen_virtual_publish` succeed. -/
structure Offers (c : PeerCalls) : Prop where
  registerDefaultCodecs : c.registerDefaultCodecs = .ok ()
  registerDefaultInterceptors : c.registerDefaultInterceptors = .ok ()
  newPeerConnection : c.newPeerConnection = .ok ()
  createDataChannel : c.createDataChannel = .ok ()
  createOffer : c.createOffer = .ok ()
  setLocalDescription : c.setLocalDescription = .ok ()
  localDescription : c.localDescription.isSome

/-- The calls of `new_publish_peer` succeed: the offer sends one track of a kind at most. -/
structure Receives (c : PeerCalls) (mediaInfo : MediaInfo) : Prop where
  count : ¬ (1 < mediaInfo.videoTransceiver.1 ∨ 1 < mediaInfo.audioTransceiver.1)
  registerDefaultCodecs : c.registerDefaultCodecs = .ok ()
  sdesMid : c.registerHeaderExtension sdesMidUri = .ok ()
  sdesRtpStreamId : c.registerHeaderExtension sdesRtpStreamIdUri = .ok ()
  registerDefaultInterceptors : c.registerDefaultInterceptors = .ok ()
  newPeerConnection : c.newPeerConnection = .ok ()
  video : 0 < mediaInfo.videoTransceiver.1 → c.addTransceiver .video = .ok ()
  audio : 0 < mediaInfo.audioTransceiver.1 → c.addTransceiver .audio = .ok ()

/-- A publisher with the offer can be set up: the offer can be read, the calls succeed, and so does
reading the offer back from the connection. -/
structure Publishes (c : PeerCalls) (offer : Except AppError SessionDescription) : Prop where
  receives : ∃ value, offer = .ok value ∧
    ∃ mediaInfo, MediaInfo.tryFrom value = .ok mediaInfo ∧ c.Receives mediaInfo
  completes : c.Completes
  remote : ∃ value, c.remoteDescription = some (.ok value) ∧
    ∃ mediaInfo, MediaInfo.tryFrom value = .ok mediaInfo

variable {c : PeerCalls} {mediaInfo : MediaInfo}

lemma addFor_eq_ok_iff {kind : RTPCodecType} {count : UInt8} :
    c.addFor kind count = .ok () ↔ (0 < count → c.addTransceiver kind = .ok ()) := by
  rw [addFor]
  split_ifs with h
  · simp [h]
  · simp [h]

lemma exists_description_iff : (∃ sdp, c.description = .ok sdp) ↔ c.localDescription.isSome := by
  rw [description]
  cases c.localDescription <;> simp

lemma subscriptionPeer_eq_ok_iff : c.subscriptionPeer mediaInfo = .ok () ↔ c.Builds mediaInfo := by
  simp only [subscriptionPeer, newSender, then_eq_ok_iff, addFor_eq_ok_iff]
  exact ⟨fun ⟨h₁, h₂, h₃, h₄, h₅⟩ => ⟨h₁, h₂, h₃, h₄, h₅⟩,
    fun ⟨h₁, h₂, h₃, h₄, h₅⟩ => ⟨h₁, h₂, h₃, h₄, h₅⟩⟩

lemma exists_peerComplete_iff : (∃ sdp, c.peerComplete = .ok sdp) ↔ c.Completes := by
  simp only [peerComplete, then_eq_ok_iff, exists_and_left, exists_description_iff]
  exact ⟨fun ⟨h₁, h₂, h₃, h₄⟩ => ⟨h₁, h₂, h₃, h₄⟩, fun ⟨h₁, h₂, h₃, h₄⟩ => ⟨h₁, h₂, h₃, h₄⟩⟩

lemma exists_genVirtualPublish_iff : (∃ sdp, c.genVirtualPublish = .ok sdp) ↔ c.Offers := by
  simp only [genVirtualPublish, newVirtualPublishPeer, then_eq_ok_iff, exists_and_left,
    exists_description_iff]
  exact ⟨fun ⟨⟨h₁, h₂, h₃⟩, h₄, h₅, h₆, h₇⟩ => ⟨h₁, h₂, h₃, h₄, h₅, h₆, h₇⟩,
    fun ⟨h₁, h₂, h₃, h₄, h₅, h₆, h₇⟩ => ⟨⟨h₁, h₂, h₃⟩, h₄, h₅, h₆, h₇⟩⟩

/-- The offer is what the connection hands out. -/
lemma localDescription_of_genVirtualPublish {sdp : String} (h : c.genVirtualPublish = .ok sdp) :
    c.localDescription = some sdp := by
  simp only [genVirtualPublish, then_eq_ok_iff, description] at h
  obtain ⟨-, -, -, -, h⟩ := h
  split at h
  · cases h
  · cases h
    assumption

lemma newPublishPeer_eq_ok_iff : c.newPublishPeer mediaInfo = .ok () ↔ c.Receives mediaInfo := by
  rw [newPublishPeer]
  split_ifs with hcount
  · exact iff_of_false (by simp) fun h => h.count hcount
  · simp only [then_eq_ok_iff, addFor_eq_ok_iff]
    exact ⟨fun ⟨h₁, h₂, h₃, h₄, h₅, h₆, h₇⟩ => ⟨hcount, h₁, h₂, h₃, h₄, h₅, h₆, h₇⟩,
      fun ⟨_, h₁, h₂, h₃, h₄, h₅, h₆, h₇⟩ => ⟨h₁, h₂, h₃, h₄, h₅, h₆, h₇⟩⟩

lemma exists_publishConnection_iff : (∃ info, c.publishConnection = .ok info) ↔
    ∃ value, c.remoteDescription = some (.ok value) ∧
      ∃ info, MediaInfo.tryFrom value = .ok info := by
  rw [publishConnection]
  cases c.remoteDescription with
  | none => simp
  | some unmarshal => cases unmarshal <;> simp [Except.bind]

lemma negotiate_eq_ok_iff {offer : Except AppError SessionDescription} :
    c.negotiate offer = .ok () ↔ c.Publishes offer := by
  simp only [negotiate, bind_eq_ok_iff]
  constructor
  · rintro ⟨value, hoffer, mediaInfo, hinfo, ⟨⟩, hpeer, sdp, hcomplete, info, hconnection, -⟩
    exact ⟨⟨value, hoffer, mediaInfo, hinfo, newPublishPeer_eq_ok_iff.mp hpeer⟩,
      exists_peerComplete_iff.mp ⟨sdp, hcomplete⟩,
      exists_publishConnection_iff.mp ⟨info, hconnection⟩⟩
  · rintro ⟨⟨value, hoffer, mediaInfo, hinfo, hreceives⟩, hcompletes, hremote⟩
    obtain ⟨sdp, hcomplete⟩ := exists_peerComplete_iff.mpr hcompletes
    obtain ⟨info, hconnection⟩ := exists_publishConnection_iff.mpr hremote
    exact ⟨value, hoffer, mediaInfo, hinfo, (), newPublishPeer_eq_ok_iff.mpr hreceives, sdp,
      hcomplete, info, hconnection, rfl⟩

/-- Calls that all succeed. -/
def working : PeerCalls where
  registerDefaultCodecs := .ok ()
  registerHeaderExtension := fun _ => .ok ()
  registerDefaultInterceptors := .ok ()
  newPeerConnection := .ok ()
  addTransceiver := fun _ => .ok ()
  createDataChannel := .ok ()
  createOffer := .ok ()
  createAnswer := .ok ()
  setRemoteDescription := .ok ()
  setLocalDescription := .ok ()
  localDescription := some "v=0"
  remoteDescription := some (.ok [])

end PeerCalls

end SfuServer
