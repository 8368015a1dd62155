import Mathlib.Data.List.TakeWhile
import SfuServer.Rtc.AddSubscribe

/-!
The inspection of an offer, `MediaInfo::try_from` of `src/forward/rtc/media.rs`, and the admission
checks of `new_publish_peer` and `new_subscription_peer` that rest on it.

The attributes of all sections of a kind are counted in bytes.  Where a count exceeds its byte, a
build that checks the arithmetic panics, and another one goes on with what is left of it.

* `Build`, `tryFromIn`: the inspection in a build; `tryFromIn_release` says that it is
  `MediaInfo.tryFrom` where nothing is checked;
* `sending`, `receiving`, `Simulcast`: what the sections of a kind say, without a bound;
* `inspectIn_eq`: what the loop over the sections comes to;
* `inspectsExactly_iff`: the inspection is exact, and the checks refuse what they are meant to,
  exactly if every count fits its byte.
-/

namespace SfuServer

/-- How the program is built: with checks of the arithmetic, or without. -/
inductive Build where
  | debug
  | release
  deriving DecidableEq, Repr

/-- `n += 1` on a byte; `none` is the panic of a build that checks. -/
def Build.increment : Build → UInt8 → Option UInt8
  | .debug, n => if n = 255 then none else some (n + 1)
  | .release, n => some (n + 1)

/-- What is counted of a kind: the tracks that are sent and received, and whether there is a
simulcast. -/
abbrev Transceiver := UInt8 × UInt8 × Bool

/-- An attribute of a section counts. -/
def countAttributeIn (b : Build) (update : Transceiver) : String → Option Transceiver
  | "sendonly" => do
      let send ← b.increment update.1
      return (send, update.2)
  | "recvonly" => do
      let recv ← b.increment update.2.1
      return (update.1, recv, update.2.2)
  | "sendrecv" => do
      let send ← b.increment update.1
      let recv ← b.increment update.2.1
      return (send, recv, update.2.2)
  | "simulcast" => some (update.1, update.2.1, true)
  | _ => some update

/-- The loop of `MediaInfo::try_from` over the sections; `none` is a panic. -/
def inspectIn (b : Build) : SessionDescription → Transceiver × Transceiver →
    Option (Except AppError (Transceiver × Transceiver))
  | [], counts => some (.ok counts)
  | md :: value, (video, audio) =>
      match RTPCodecType.ofString md.media, md.codecs with
      | .unspecified, _ => inspectIn b value (video, audio)
      | _, .error e => some (.error e)
      | .video, .ok () => do
          let video ← md.attributes.foldlM (countAttributeIn b) video
          inspectIn b value (video, audio)
      | .audio, .ok () => do
          let audio ← md.attributes.foldlM (countAttributeIn b) audio
          inspectIn b value (video, audio)

/-- `MediaInfo::try_from` in a build. -/
def MediaInfo.tryFromIn (b : Build) (value : SessionDescription) :
    Option (Except AppError MediaInfo) := do
  let counts ← inspectIn b value ((0, 0, false), (0, 0, false))
  return counts.map fun (video, audio) => ⟨video, audio.1, audio.2.1⟩

/-! ### What an offer says -/

/-- The attributes of all sections of a kind. -/
def attributesOf (kind : RTPCodecType) (value : SessionDescription) : List String :=
  (value.filter fun md => RTPCodecType.ofString md.media = kind).flatMap (·.attributes)

/-- How many of the attributes say that a track is sent. -/
def sends (attributes : List String) : ℕ :=
  attributes.countP fun key => key = "sendonly" ∨ key = "sendrecv"

/-- How many of the attributes say that a track is received. -/
def receives (attributes : List String) : ℕ :=
  attributes.countP fun key => key = "recvonly" ∨ key = "sendrecv"

/-- The tracks of a kind that the offer sends. -/
def sending (kind : RTPCodecType) (value : SessionDescription) : ℕ :=
  sends (attributesOf kind value)

/-- The tracks of a kind that the offer receives. -/
def receiving (kind : RTPCodecType) (value : SessionDescription) : ℕ :=
  receives (attributesOf kind value)

/-- Some video section has a simulcast. -/
def Simulcast (value : SessionDescription) : Prop :=
  ∃ md ∈ value, RTPCodecType.ofString md.media = .video ∧ "simulcast" ∈ md.attributes

/-! ### The counts of one section -/

/-- The counts with those of more attributes. -/
def tally (update : Transceiver) (attributes : List String) : Transceiver :=
  (update.1 + UInt8.ofNat (sends attributes), update.2.1 + UInt8.ofNat (receives attributes),
    update.2.2 || attributes.contains "simulcast")

/-- With more attributes, both counts still fit their bytes. -/
def Fits (update : Transceiver) (attributes : List String) : Prop :=
  update.1.toNat + sends attributes < 256 ∧ update.2.1.toNat + receives attributes < 256

instance (update : Transceiver) (attributes : List String) : Decidable (Fits update attributes) :=
  inferInstanceAs (Decidable (_ ∧ _))

/-- The build goes on with the attributes: it checks nothing, or both counts fit. -/
def GoesOn (b : Build) (update : Transceiver) (attributes : List String) : Prop :=
  b = .release ∨ Fits update attributes

instance (b : Build) (update : Transceiver) (attributes : List String) :
    Decidable (GoesOn b update attributes) :=
  inferInstanceAs (Decidable (_ ∨ _))

lemma increment_eq (b : Build) (n : UInt8) :
    b.increment n = if b = .release ∨ n.toNat + 1 < 256 then some (n + 1) else none := by
  have hn : n = 255 ↔ ¬ n.toNat + 1 < 256 := by
    rw [← UInt8.toNat_inj]
    have := n.toNat_lt
    change n.toNat = 255 ↔ _
    omega
  cases b with
  | debug =>
      rw [Build.increment]
      by_cases h : n = 255
      · simp [h]
      · simp [h, not_not.mp (mt hn.mpr h)]
  | release => simp [Build.increment]

/-- An attribute counts, or the build panics. -/
lemma countAttributeIn_eq (b : Build) (update : Transceiver) (key : String) :
    countAttributeIn b update key =
      if GoesOn b update [key] then some (tally update [key]) else none := by
  have hsend := update.1.toNat_lt
  have hrecv := update.2.1.toNat_lt
  unfold countAttributeIn
  split
  · have htally : tally update ["sendonly"] = (update.1 + 1, update.2) := by
      simp [tally, sends, receives]
    have hgoes : GoesOn b update ["sendonly"] ↔ b = .release ∨ update.1.toNat + 1 < 256 := by
      simp [GoesOn, Fits, sends, receives, hrecv]
    simp only [increment_eq, htally, hgoes]
    split_ifs <;> rfl
  · have htally : tally update ["recvonly"] = (update.1, update.2.1 + 1, update.2.2) := by
      simp [tally, sends, receives]
    have hgoes : GoesOn b update ["recvonly"] ↔ b = .release ∨ update.2.1.toNat + 1 < 256 := by
      simp [GoesOn, Fits, sends, receives, hsend]
    simp only [increment_eq, htally, hgoes]
    split_ifs <;> rfl
  · have htally : tally update ["sendrecv"] = (update.1 + 1, update.2.1 + 1, update.2.2) := by
      simp [tally, sends, receives]
    have hgoes : GoesOn b update ["sendrecv"] ↔ (b = .release ∨ update.1.toNat + 1 < 256) ∧
        (b = .release ∨ update.2.1.toNat + 1 < 256) := by
      simp [GoesOn, Fits, sends, receives, or_and_left]
    simp only [increment_eq, htally, hgoes]
    split_ifs with h₁ h₂ h₃ h₄
    all_goals first | rfl | tauto
  · have htally : tally update ["simulcast"] = (update.1, update.2.1, true) := by
      simp [tally, sends, receives]
    have hgoes : GoesOn b update ["simulcast"] := .inr ⟨hsend, hrecv⟩
    rw [if_pos hgoes, htally]
  · rename_i h₁ h₂ h₃ h₄
    have hsends : sends [key] = 0 := by simpa [sends] using ⟨h₁, h₃⟩
    have hreceives : receives [key] = 0 := by simpa [receives] using ⟨h₂, h₃⟩
    have htally : tally update [key] = update := by
      simp [tally, hsends, hreceives, Ne.symm h₄]
    have hgoes : GoesOn b update [key] := by
      rw [GoesOn, Fits, hsends, hreceives]
      exact .inr ⟨hsend, hrecv⟩
    rw [if_pos hgoes, htally]

/-! ### The counts of an offer -/

lemma tally_append (update : Transceiver) (xs ys : List String) :
    tally update (xs ++ ys) = tally (tally update xs) ys := by
  simp [tally, sends, receives, UInt8.ofNat_add, UInt8.add_assoc, Bool.or_assoc]

lemma tally_nil (update : Transceiver) : tally update [] = update := by
  simp [tally, sends, receives]

lemma goesOn_nil (b : Build) (update : Transceiver) : GoesOn b update [] :=
  .inr ⟨update.1.toNat_lt, update.2.1.toNat_lt⟩

/-- More attributes fit exactly if some fit, and the rest beside them. -/
lemma fits_append (update : Transceiver) (xs ys : List String) :
    Fits update (xs ++ ys) ↔ Fits update xs ∧ Fits (tally update xs) ys := by
  simp only [Fits, tally, sends, receives, List.countP_append, UInt8.toNat_add,
    UInt8.toNat_ofNat']
  omega

lemma goesOn_append (b : Build) (update : Transceiver) (xs ys : List String) :
    GoesOn b update (xs ++ ys) ↔ GoesOn b update xs ∧ GoesOn b (tally update xs) ys := by
  rw [GoesOn, GoesOn, GoesOn, fits_append, or_and_left]

/-- The loop over the attributes of a section. -/
lemma foldlM_countAttributeIn (b : Build) (update : Transceiver) (attributes : List String) :
    attributes.foldlM (countAttributeIn b) update =
      if GoesOn b update attributes then some (tally update attributes) else none := by
  induction attributes generalizing update with
  | nil => rw [if_pos (goesOn_nil b update), tally_nil]; rfl
  | cons key attributes ih =>
      have hgoes := goesOn_append b update [key] attributes
      have htally := tally_append update [key] attributes
      rw [List.singleton_append] at hgoes htally
      rw [List.foldlM_cons, countAttributeIn_eq, htally]
      by_cases hkey : GoesOn b update [key]
      · rw [if_pos hkey]
        change attributes.foldlM (countAttributeIn b) (tally update [key]) = _
        simp only [ih, hgoes, hkey, true_and]
      · simp [hgoes, hkey]

/-- The error of the codecs of a section, if it is inspected. -/
def codecsError (md : MediaDescription) : Option AppError :=
  match RTPCodecType.ofString md.media, md.codecs with
  | .unspecified, _ => none
  | _, .error e => some e
  | _, .ok () => none

/-- The sections before the first one whose codecs cannot be read. -/
def inspected (value : SessionDescription) : SessionDescription :=
  value.takeWhile fun md => (codecsError md).isNone

/-- The attributes of a section, if it is of the kind. -/
def attributesIn (kind : RTPCodecType) (md : MediaDescription) : List String :=
  if RTPCodecType.ofString md.media = kind then md.attributes else []

lemma attributesOf_cons (kind : RTPCodecType) (md : MediaDescription) (value : SessionDescription) :
    attributesOf kind (md :: value) = attributesIn kind md ++ attributesOf kind value := by
  rw [attributesOf, attributesIn, List.filter_cons]
  split_ifs with h₁ h₂ h₂ <;> simp_all [attributesOf]

section Cons

variable {md : MediaDescription} {value : SessionDescription}

lemma inspected_cons_of_none (h : codecsError md = none) :
    inspected (md :: value) = md :: inspected value := by
  simp [inspected, h]

lemma inspected_cons_of_some {e : AppError} (h : codecsError md = some e) :
    inspected (md :: value) = [] := by
  simp [inspected, h]

/-- The inspection ends at a section whose codecs cannot be read. -/
lemma inspectIn_cons_of_some {e : AppError} (h : codecsError md = some e) (b : Build)
    (video audio : Transceiver) :
    inspectIn b (md :: value) (video, audio) = some (.error e) := by
  rw [codecsError] at h
  rw [inspectIn]
  split at h <;> simp_all

/-- Another section has its attributes counted, for its kind. -/
lemma inspectIn_cons_of_none (h : codecsError md = none) (b : Build)
    (video audio : Transceiver) :
    inspectIn b (md :: value) (video, audio) =
      ((attributesIn .video md).foldlM (countAttributeIn b) video).bind fun video =>
        ((attributesIn .audio md).foldlM (countAttributeIn b) audio).bind fun audio =>
          inspectIn b value (video, audio) := by
  rw [codecsError] at h
  rw [inspectIn, attributesIn, attributesIn]
  cases hkind : RTPCodecType.ofString md.media with
  | unspecified => rfl
  | video =>
      cases hcodecs : md.codecs with
      | error e => simp [hkind, hcodecs] at h
      | ok _ => rfl
  | audio =>
      cases hcodecs : md.codecs with
      | error e => simp [hkind, hcodecs] at h
      | ok _ => rfl

end Cons

/-- **The loop over the sections**: it panics where a count of the sections that it gets to does
not fit, it returns the first error of the codecs, or it counts the attributes of all sections. -/
theorem inspectIn_eq (b : Build) (value : SessionDescription) (video audio : Transceiver) :
    inspectIn b value (video, audio) =
      if GoesOn b video (attributesOf .video (inspected value)) ∧
          GoesOn b audio (attributesOf .audio (inspected value)) then
        some (match value.findSome? codecsError with
          | some e => .error e
          | none => .ok (tally video (attributesOf .video value),
              tally audio (attributesOf .audio value)))
      else none := by
  induction value generalizing video audio with
  | nil =>
      rw [if_pos ⟨goesOn_nil b video, goesOn_nil b audio⟩]
      simp [inspectIn, attributesOf, tally_nil]
  | cons md value ih =>
      rw [List.findSome?_cons]
      cases herror : codecsError md with
      | some e =>
          rw [inspectIn_cons_of_some herror, inspected_cons_of_some herror,
            if_pos ⟨goesOn_nil b video, goesOn_nil b audio⟩]
      | none =>
          rw [inspectIn_cons_of_none herror, inspected_cons_of_none herror,
            foldlM_countAttributeIn]
          simp only [attributesOf_cons, goesOn_append, tally_append]
          by_cases hvideo : GoesOn b video (attributesIn .video md)
          · by_cases haudio : GoesOn b audio (attributesIn .audio md)
            · simp only [foldlM_countAttributeIn, hvideo, haudio, if_true, true_and]
              exact ih (tally video (attributesIn .video md)) (tally audio (attributesIn .audio md))
            · simp only [foldlM_countAttributeIn, hvideo, haudio, if_true, if_false, false_and,
                and_false]
              rfl
          · simp only [hvideo, if_false, false_and]
            rfl

/-! ### The two builds -/

/-- Without checks, an attribute counts as in the release build. -/
lemma countAttributeIn_release (update : Transceiver) (key : String) :
    countAttributeIn .release update key = some (countAttribute update key) := by
  unfold countAttributeIn
  split
  iterate 4 rfl
  rename_i h₁ h₂ h₃ h₄
  rw [countAttribute] <;> assumption

lemma foldlM_release (update : Transceiver) (attributes : List String) :
    attributes.foldlM (countAttributeIn .release) update =
      some (attributes.foldl countAttribute update) := by
  induction attributes generalizing update with
  | nil => rfl
  | cons key attributes ih =>
      rw [List.foldlM_cons, countAttributeIn_release]
      exact ih (countAttribute update key)

/-- **The build without checks** computes what `MediaInfo.tryFrom` says. -/
theorem tryFromIn_release (value : SessionDescription) :
    MediaInfo.tryFromIn .release value = some (MediaInfo.tryFrom value) := by
  unfold MediaInfo.tryFromIn MediaInfo.tryFrom
  generalize (((0, 0, false), (0, 0, false)) : Transceiver × Transceiver) = counts
  induction value generalizing counts with
  | nil => rfl
  | cons md value ih =>
      obtain ⟨video, audio⟩ := counts
      rw [inspectIn, List.foldlM_cons]
      cases hkind : RTPCodecType.ofString md.media with
      | unspecified => exact ih (video, audio)
      | video =>
          cases hcodecs : md.codecs with
          | error e => rfl
          | ok _ =>
              simp only [foldlM_release]
              exact ih (md.attributes.foldl countAttribute video, audio)
      | audio =>
          cases hcodecs : md.codecs with
          | error e => rfl
          | ok _ =>
              simp only [foldlM_release]
              exact ih (video, md.attributes.foldl countAttribute audio)

/-! ### Exact inspections -/

/-- What the counts of an offer come to in bytes. -/
def mediaInfoOf (value : SessionDescription) : MediaInfo where
  videoTransceiver := tally (0, 0, false) (attributesOf .video value)
  audioTransceiver :=
    let audio := tally (0, 0, false) (attributesOf .audio value)
    (audio.1, audio.2.1)

/-- Every count of the sections is less than 256. -/
def CountsFit (value : SessionDescription) : Prop :=
  (sending .video value < 256 ∧ receiving .video value < 256) ∧
    sending .audio value < 256 ∧ receiving .audio value < 256

instance (value : SessionDescription) : Decidable (CountsFit value) :=
  inferInstanceAs (Decidable (_ ∧ _))

/-- The inspection is exact: it does not overflow, and what it returns are the numbers of the
offer, so that the two functions that set up a connection refuse what sends or receives more than
one track of a kind. -/
structure InspectsExactly (b : Build) (value : SessionDescription) : Prop where
  returns : MediaInfo.tryFromIn b value ≠ none
  video : ∀ info, MediaInfo.tryFromIn b value = some (.ok info) →
    info.videoTransceiver.1.toNat = sending .video value ∧
      info.videoTransceiver.2.1.toNat = receiving .video value ∧
      (info.videoTransceiver.2.2 = true ↔ Simulcast value)
  audio : ∀ info, MediaInfo.tryFromIn b value = some (.ok info) →
    info.audioTransceiver.1.toNat = sending .audio value ∧
      info.audioTransceiver.2.toNat = receiving .audio value
  publish : ∀ info, MediaInfo.tryFromIn b value = some (.ok info) →
    1 < sending .video value ∨ 1 < sending .audio value →
      ∀ c : PeerCalls, c.newPublishPeer info = .error (.throw "sendonly is more than 1")
  subscribe : ∀ info, MediaInfo.tryFromIn b value = some (.ok info) →
    1 < receiving .video value ∨ 1 < receiving .audio value →
      ∀ (w : Surroundings) (peer : String) (d : StreamData),
        ∃ e, (StreamProg.newSubscriptionPeer w info peer).alone d = (.error e, d) ∧
          (d.publish.isSome → e = .throw "recvonly is more than 1")

/-- The condition: the counts of the sections that the inspection gets to fit their bytes.  In a
build that checks nothing, an offer whose codecs cannot be read does not matter. -/
def Countable (b : Build) (value : SessionDescription) : Prop :=
  (b = .release → ∀ md ∈ value, codecsError md = none) → CountsFit (inspected value)

lemma fits_zero_iff (attributes : List String) :
    Fits (0, 0, false) attributes ↔ sends attributes < 256 ∧ receives attributes < 256 := by
  simp [Fits]

/-- What the inspection comes to. -/
lemma tryFromIn_eq (b : Build) (value : SessionDescription) :
    MediaInfo.tryFromIn b value =
      if b = .release ∨ CountsFit (inspected value) then
        some (match value.findSome? codecsError with
          | some e => .error e
          | none => .ok (mediaInfoOf value))
      else none := by
  have hgoes : (GoesOn b (0, 0, false) (attributesOf .video (inspected value)) ∧
      GoesOn b (0, 0, false) (attributesOf .audio (inspected value))) ↔
        (b = .release ∨ CountsFit (inspected value)) := by
    rw [GoesOn, GoesOn, ← or_and_left, fits_zero_iff, fits_zero_iff]
    rfl
  rw [MediaInfo.tryFromIn, inspectIn_eq]
  simp only [hgoes]
  split_ifs
  · cases value.findSome? codecsError <;> rfl
  · rfl

lemma inspected_eq_self {value : SessionDescription} (h : ∀ md ∈ value, codecsError md = none) :
    inspected value = value := by
  rw [inspected, List.takeWhile_eq_self_iff]
  exact fun md hmd => by simp [h md hmd]

lemma simulcast_iff (value : SessionDescription) :
    (mediaInfoOf value).videoTransceiver.2.2 = true ↔ Simulcast value := by
  simp [mediaInfoOf, tally, attributesOf, Simulcast, and_assoc]

/-- A count in a byte is exact where it fits. -/
lemma toNat_ofNat_of_fits {n : ℕ} (h : n < 256) : (0 + UInt8.ofNat n).toNat = n := by
  rw [UInt8.zero_add, UInt8.toNat_ofNat']
  exact Nat.mod_eq_of_lt h

lemma mediaInfoOf_toNat {value : SessionDescription} (hfits : CountsFit value) :
    ((mediaInfoOf value).videoTransceiver.1.toNat = sending .video value ∧
      (mediaInfoOf value).videoTransceiver.2.1.toNat = receiving .video value) ∧
    (mediaInfoOf value).audioTransceiver.1.toNat = sending .audio value ∧
      (mediaInfoOf value).audioTransceiver.2.toNat = receiving .audio value :=
  ⟨⟨toNat_ofNat_of_fits hfits.1.1, toNat_ofNat_of_fits hfits.1.2⟩,
    toNat_ofNat_of_fits hfits.2.1, toNat_ofNat_of_fits hfits.2.2⟩

/-- An offer whose counts fit is inspected exactly. -/
lemma inspectsExactly_of_fits {b : Build} {value : SessionDescription}
    (hreturns : MediaInfo.tryFromIn b value = some (.ok (mediaInfoOf value)))
    (hfits : CountsFit value) : InspectsExactly b value := by
  obtain ⟨⟨hvs, hvr⟩, has, har⟩ := mediaInfoOf_toNat hfits
  have hinfo : ∀ info, MediaInfo.tryFromIn b value = some (.ok info) →
      info = mediaInfoOf value := by
    intro info h
    rw [hreturns] at h
    cases h
    rfl
  refine ⟨by simp [hreturns], fun info h => ?_, fun info h => ?_, fun info h hcount c => ?_,
    fun info h hcount w peer d => ?_⟩
  all_goals obtain rfl := hinfo info h
  · exact ⟨hvs, hvr, simulcast_iff value⟩
  · exact ⟨has, har⟩
  · rw [PeerCalls.newPublishPeer, if_pos]
    rw [UInt8.lt_iff_toNat_lt, UInt8.lt_iff_toNat_lt, hvs, has]
    exact hcount
  · have hmany : 1 < (mediaInfoOf value).videoTransceiver.2.1 ∨
        1 < (mediaInfoOf value).audioTransceiver.2 := by
      rw [UInt8.lt_iff_toNat_lt, UInt8.lt_iff_toNat_lt, hvr, har]
      exact hcount
    have hsome : StreamProg.publishIsSome.alone d = (d.publish.isSome, d) := rfl
    rw [StreamProg.newSubscriptionPeer, LockProg.alone_bind, hsome]
    dsimp only
    split_ifs with hpublish
    · exact ⟨_, rfl, fun _ => rfl⟩
    · exact ⟨_, rfl, fun h => absurd h hpublish⟩

/-- **Exact inspections**: in either build, `MediaInfo::try_from` counts an offer exactly and
without overflow, and the two functions that set up a connection refuse every offer with more than
one track of a kind in their direction, if and only if none of the four counts reaches 256 in the
sections that are inspected, where a build that checks nothing leaves out the offers that it
cannot read. -/
theorem inspectsExactly_iff (b : Build) (value : SessionDescription) :
    InspectsExactly b value ↔ Countable b value := by
  have heq := tryFromIn_eq b value
  cases herror : value.findSome? codecsError with
  | some e =>
      -- nothing but the overflow matters
      have hread : ¬ ∀ md ∈ value, codecsError md = none := by
        rw [← List.findSome?_eq_none_iff, herror]
        simp
      have hcountable : Countable b value ↔ b = .release ∨ CountsFit (inspected value) := by
        cases b <;> simp [Countable, hread]
      rw [hcountable]
      simp only [herror] at heq
      constructor
      · intro h
        by_contra hnot
        exact h.returns (heq.trans (if_neg hnot))
      · intro h
        rw [if_pos h] at heq
        exact ⟨by simp [heq], by simp [heq], by simp [heq], by simp [heq], by simp [heq]⟩
  | none =>
      have hread := List.findSome?_eq_none_iff.mp herror
      have hself := inspected_eq_self hread
      have hcountable : Countable b value ↔ CountsFit value := by
        rw [Countable, hself]
        exact ⟨fun h => h fun _ => hread, fun h _ => h⟩
      rw [hcountable]
      simp only [herror, hself] at heq
      constructor
      · intro h
        by_cases hgoes : b = .release ∨ CountsFit value
        · rw [if_pos hgoes] at heq
          obtain ⟨hvs, hvr, -⟩ := h.video _ heq
          obtain ⟨has, har⟩ := h.audio _ heq
          rw [CountsFit, ← hvs, ← hvr, ← has, ← har]
          exact ⟨⟨UInt8.toNat_lt _, UInt8.toNat_lt _⟩, UInt8.toNat_lt _, UInt8.toNat_lt _⟩
        · exact absurd (heq.trans (if_neg hgoes)) h.returns
      · intro hfits
        exact inspectsExactly_of_fits (heq.trans (if_pos (.inr hfits))) hfits

/-- An offer that sends video tracks. -/
def sendOffer (tracks : ℕ) : SessionDescription :=
  [⟨"video", List.replicate tracks "sendonly", .ok ()⟩]

lemma attributesOf_sendOffer (tracks : ℕ) :
    attributesOf .video (sendOffer tracks) = List.replicate tracks "sendonly" ∧
      attributesOf .audio (sendOffer tracks) = [] :=
  ⟨List.append_nil _, rfl⟩

lemma sending_sendOffer (tracks : ℕ) : sending .video (sendOffer tracks) = tracks := by
  rw [sending, sends, (attributesOf_sendOffer tracks).1, List.countP_replicate]
  rfl

lemma inspected_sendOffer (tracks : ℕ) : inspected (sendOffer tracks) = sendOffer tracks := rfl

/-- An offer that sends 257 video tracks is taken for one that sends a single track, and a
connection is set up for it; a build that checks panics. -/
theorem not_inspectsExactly_sendOffer :
    ¬ InspectsExactly .release (sendOffer 257) ∧ ¬ InspectsExactly .debug (sendOffer 257) ∧
      (∃ info, MediaInfo.tryFromIn .release (sendOffer 257) = some (.ok info) ∧
        info.videoTransceiver.1 = 1 ∧ PeerCalls.working.newPublishPeer info = .ok ()) ∧
      MediaInfo.tryFromIn .debug (sendOffer 257) = none := by
  have hrelease : MediaInfo.tryFromIn .release (sendOffer 257) =
      some (.ok (mediaInfoOf (sendOffer 257))) := by
    rw [tryFromIn_eq, if_pos (.inl rfl)]
    rfl
  have hdebug : MediaInfo.tryFromIn .debug (sendOffer 257) = none := by
    rw [tryFromIn_eq, if_neg]
    rw [CountsFit, inspected_sendOffer, sending_sendOffer]
    simp
  have hone : (mediaInfoOf (sendOffer 257)).videoTransceiver.1 = 1 := by
    change 0 + UInt8.ofNat (sending .video (sendOffer 257)) = 1
    rw [sending_sendOffer]
    rfl
  have haudio : (mediaInfoOf (sendOffer 257)).audioTransceiver.1 = 0 := rfl
  refine ⟨fun h => ?_, fun h => h.returns hdebug, ⟨_, hrelease, hone, ?_⟩, hdebug⟩
  · have hvideo := (h.video _ hrelease).1
    rw [hone, sending_sendOffer] at hvideo
    revert hvideo
    decide
  · rw [PeerCalls.newPublishPeer, if_neg]
    · rw [hone, haudio]
      rfl
    · rw [hone, haudio]
      decide

end SfuServer
