import Mathlib.Data.Finset.Insert
import SfuServer.Lib.Utf8
import SfuServer.Wire

/-!
The gate in front of the routes: `ManyValidate` of `src/auth.rs`, over the credentials of
`src/config.rs`.

Every configured account and token is turned into the text of the header that shows it, and a
request passes if its header is one of these texts.  A header is bytes, and turning them into a
string may fail, which the gate unwraps.

* `Account`, `Auth`: the credentials, and the headers that show them;
* `ManyValidate.new`, `ManyValidate.validate`: the gate, whose panic is `none`;
* `mem_new_iff`, `toStr_eq_some_iff`: which texts are collected, and what a header is turned into;
* `authorizes_iff`: the gate decides every request by its credentials, exactly if none is
  configured or the header can be turned into a string.

`encode` stands for the encoder of the package `base64`, as a function of the bytes, and
`VisibleAscii` for the bytes that `HeaderValue::to_str` takes.
-/

namespace SfuServer

/-- The bytes that `HeaderValue::to_str` takes: the visible ones of ASCII, where the tab may count
as visible or not. -/
structure VisibleAscii where
  visible : UInt8 → Bool
  of_printable : ∀ b, 32 ≤ b → b < 127 → visible b = true
  printable_or_tab : ∀ b, visible b = true → b = 9 ∨ 32 ≤ b ∧ b < 127

/-- `HeaderValue`: the bytes that a header can hold. -/
structure HeaderValue where
  bytes : Bytes
  admitted : ∀ b ∈ bytes, b = 9 ∨ 32 ≤ b ∧ b ≠ 127

/-- `HeaderValue::to_str`. -/
def HeaderValue.toStr (ascii : VisibleAscii) (value : HeaderValue) : Option String :=
  if value.bytes.all ascii.visible then some (Utf8.ofAscii value.bytes) else none

/-- The headers of a request, in their order. -/
structure RequestHeaders where
  headers : List (String × HeaderValue)

/-- `HeaderMap::get`: the first value under a name. -/
def RequestHeaders.get (request : RequestHeaders) (name : String) : Option HeaderValue :=
  request.headers.lookup name

/-- A response with its body; `Response::new` has the status 200. -/
structure HttpResponse (ResBody : Type) where
  status : ℕ
  body : ResBody

/-- `StatusCode::UNAUTHORIZED`. -/
def unauthorized : ℕ := 401

/-- `header::AUTHORIZATION`. -/
def authorizationHeader : String := "authorization"

/-! ### The credentials -/

/-- `Account`. -/
structure Account where
  username : String
  password : String
  deriving DecidableEq, Repr

/-- `Auth`. -/
structure Auth where
  accounts : List Account
  tokens : List String
  deriving DecidableEq, Repr

section Gate

variable (encode : Bytes → String)

/-- `Account::to_authorization`. -/
def Account.toAuthorization (account : Account) : String :=
  let encoded := encode (Utf8.bytes (account.username ++ ":" ++ account.password))
  "Basic " ++ encoded

/-- `Auth::to_authorizations`. -/
def Auth.toAuthorizations (auth : Auth) : List String :=
  auth.accounts.map (Account.toAuthorization encode) ++ auth.tokens.map ("Bearer " ++ ·)

/-- `ManyValidate`. -/
structure ManyValidate where
  headerValues : Finset String

namespace ManyValidate

/-- `ManyValidate::new`; a string is parsed into itself. -/
def new (auths : List Auth) : ManyValidate where
  headerValues := auths.foldl
    (fun values auth =>
      (auth.toAuthorizations encode).foldl (fun values text => insert text values) values) ∅

/-- `ManyValidate::validate`; `none` is the panic on a header that is not turned into a string. -/
def validate (ResBody : Type) [Inhabited ResBody] (ascii : VisibleAscii) (gate : ManyValidate)
    (request : RequestHeaders) : Option (Except (HttpResponse ResBody) Unit) :=
  if gate.headerValues = ∅ then some (.ok ())
  else
    match request.get authorizationHeader with
    | none => some (.error ⟨unauthorized, default⟩)
    | some actual => do
        let actual ← actual.toStr ascii
        if actual ∈ gate.headerValues then return .ok ()
        else return .error ⟨unauthorized, default⟩

end ManyValidate

/-! ### What the gate is for -/

/-- No account and no token is configured. -/
def NoCredential (auths : List Auth) : Prop :=
  ∀ auth ∈ auths, auth.accounts = [] ∧ auth.tokens = []

/-- The text shows a configured account or a configured token. -/
def Shows (auths : List Auth) (text : String) : Prop :=
  (∃ auth ∈ auths, ∃ account ∈ auth.accounts,
    text = "Basic " ++ encode (Utf8.bytes (account.username ++ ":" ++ account.password))) ∨
  ∃ auth ∈ auths, ∃ token ∈ auth.tokens, text = "Bearer " ++ token

/-- A request may pass: no credential is configured, or its header is the text of one, byte by
byte. -/
def MayPass (auths : List Auth) (request : RequestHeaders) : Prop :=
  NoCredential auths ∨ ∃ value, request.get authorizationHeader = some value ∧
    ∃ text, Shows encode auths text ∧ value.bytes = Utf8.bytes text

/-- The gate decides a request by its credentials: it lets it pass exactly if it may, and else
answers that it is unauthorized. -/
structure Authorizes (ResBody : Type) [Inhabited ResBody] (ascii : VisibleAscii)
    (auths : List Auth) (request : RequestHeaders) : Prop where
  returns : (ManyValidate.new encode auths).validate ResBody ascii request ≠ none
  passes_iff : (ManyValidate.new encode auths).validate ResBody ascii request = some (.ok ()) ↔
    MayPass encode auths request
  rejects : ¬ MayPass encode auths request → ∃ res : HttpResponse ResBody, res.status = 401 ∧
    (ManyValidate.new encode auths).validate ResBody ascii request = some (.error res)

/-! ### The texts -/

lemma Auth.mem_toAuthorizations {auth : Auth} {text : String} :
    text ∈ auth.toAuthorizations encode ↔
      (∃ account ∈ auth.accounts,
        text = "Basic " ++ encode (Utf8.bytes (account.username ++ ":" ++ account.password))) ∨
      ∃ token ∈ auth.tokens, text = "Bearer " ++ token := by
  simp only [toAuthorizations, List.mem_append, List.mem_map, Account.toAuthorization,
    eq_comm (a := text)]

/-- A loop that inserts the elements of a list. -/
lemma mem_foldl_insert {text : String} (texts : List String) (values : Finset String) :
    text ∈ texts.foldl (fun values text => insert text values) values ↔
      text ∈ values ∨ text ∈ texts := by
  induction texts generalizing values with
  | nil => simp
  | cons a texts ih =>
      rw [List.foldl_cons, ih, Finset.mem_insert, List.mem_cons]
      tauto

/-- **The gate collects the texts that show a credential**, and no others. -/
theorem ManyValidate.mem_new_iff {auths : List Auth} {text : String} :
    text ∈ (new encode auths).headerValues ↔ Shows encode auths text := by
  have hloop : ∀ values : Finset String, text ∈ auths.foldl
      (fun values auth =>
        (auth.toAuthorizations encode).foldl (fun values text => insert text values) values)
      values ↔ text ∈ values ∨ ∃ auth ∈ auths, text ∈ auth.toAuthorizations encode := by
    induction auths with
    | nil => simp
    | cons auth auths ih =>
        intro values
        rw [List.foldl_cons, ih, mem_foldl_insert, or_assoc, List.exists_mem_cons_iff]
  rw [new, hloop, Shows, ← exists_or]
  simp only [Finset.notMem_empty, false_or, Auth.mem_toAuthorizations, ← and_or_left]

/-- There is nothing to show exactly if there is no credential. -/
lemma ManyValidate.new_eq_empty_iff {auths : List Auth} :
    (new encode auths).headerValues = ∅ ↔ NoCredential auths := by
  rw [Finset.eq_empty_iff_forall_notMem]
  constructor
  · intro h auth hauth
    constructor
    · refine List.eq_nil_iff_forall_not_mem.mpr fun account haccount => ?_
      exact h _ ((mem_new_iff encode).mpr (.inl ⟨auth, hauth, account, haccount, rfl⟩))
    · refine List.eq_nil_iff_forall_not_mem.mpr fun token htoken => ?_
      exact h _ ((mem_new_iff encode).mpr (.inr ⟨auth, hauth, token, htoken, rfl⟩))
  · intro h text htext
    obtain ⟨auth, hauth, account, haccount, -⟩ | ⟨auth, hauth, token, htoken, -⟩ :=
      (mem_new_iff encode).mp htext
    · simp [(h auth hauth).1] at haccount
    · simp [(h auth hauth).2] at htoken

/-- **A header as a string**: it is the string with the bytes of the header, if these are all
visible. -/
theorem HeaderValue.toStr_eq_some_iff {ascii : VisibleAscii} {value : HeaderValue}
    {text : String} : value.toStr ascii = some text ↔
      (∀ b ∈ value.bytes, ascii.visible b = true) ∧ value.bytes = Utf8.bytes text := by
  rw [toStr, Option.ite_none_right_eq_some, List.all_eq_true, Option.some.injEq]
  refine and_congr_right fun hvisible => Utf8.ofAscii_eq_iff fun b hb => ?_
  obtain rfl | ⟨-, hb⟩ := ascii.printable_or_tab b (hvisible b hb)
  · decide
  · exact UInt8.lt_trans hb (by decide)

/-- A header cannot be turned into a string exactly if some byte of it is not visible. -/
lemma HeaderValue.toStr_eq_none_iff {ascii : VisibleAscii} {value : HeaderValue} :
    value.toStr ascii = none ↔ ¬ ∀ b ∈ value.bytes, ascii.visible b = true := by
  rw [toStr, ← List.all_eq_true, ite_eq_right_iff, imp_iff_not_or]
  simp

/-! ### The gate -/

section Validate

variable (ResBody : Type) [Inhabited ResBody] (ascii : VisibleAscii) (auths : List Auth)
  (request : RequestHeaders)

/-- The gate panics exactly if a credential is configured and the header cannot be turned into a
string. -/
lemma ManyValidate.validate_eq_none_iff :
    (new encode auths).validate ResBody ascii request = none ↔ ¬ NoCredential auths ∧
      ∃ value, request.get authorizationHeader = some value ∧ value.toStr ascii = none := by
  rw [← new_eq_empty_iff encode, validate]
  by_cases hempty : (new encode auths).headerValues = ∅
  · simp [hempty]
  · rw [if_neg hempty]
    cases hget : request.get authorizationHeader with
    | none => simp
    | some value =>
        cases hstr : value.toStr ascii with
        | none => simp [hempty, hstr]
        | some text => by_cases hmem : text ∈ (new encode auths).headerValues <;> simp [hmem, hstr]

/-- A gate that does not panic decides by the credentials. -/
lemma ManyValidate.validate_eq_of_ne_none
    (hreturns : (new encode auths).validate ResBody ascii request ≠ none) :
    MayPass encode auths request ∧
        (new encode auths).validate ResBody ascii request = some (.ok ()) ∨
      ¬ MayPass encode auths request ∧ (new encode auths).validate ResBody ascii request =
        some (.error ⟨unauthorized, default⟩) := by
  by_cases hnone : NoCredential auths
  · exact .inl ⟨.inl hnone, if_pos ((new_eq_empty_iff encode).mpr hnone)⟩
  have hne := mt (new_eq_empty_iff encode).mp hnone
  cases hget : request.get authorizationHeader with
  | none =>
      refine .inr ⟨by simp [MayPass, hnone, hget], ?_⟩
      rw [validate, if_neg hne, hget]
  | some value =>
      cases hstr : value.toStr ascii with
      | none =>
          exact absurd ((validate_eq_none_iff ..).mpr ⟨hnone, value, hget, hstr⟩) hreturns
      | some text =>
          -- the text that is looked up has the bytes of the header
          have hbytes := (HeaderValue.toStr_eq_some_iff.mp hstr).2
          have hmay : MayPass encode auths request ↔ text ∈ (new encode auths).headerValues := by
            simp [MayPass, hnone, hget, hbytes, Utf8.bytes_inj, mem_new_iff]
          rw [hmay, validate, if_neg hne, hget]
          by_cases hmem : text ∈ (new encode auths).headerValues
          · simp [hmem, hstr]
          · simp [hmem, hstr]

/-- **The gate decides by the credentials**: it lets a request pass exactly if no credential is
configured or the header shows one, and answers 401 to the others, if and only if no credential is
configured, the header is absent, or the header can be turned into a string. -/
theorem authorizes_iff : Authorizes encode ResBody ascii auths request ↔
    (NoCredential auths ∨ ∀ value, request.get authorizationHeader = some value →
      ∀ b ∈ value.bytes, ascii.visible b = true) := by
  have hreturns : (ManyValidate.new encode auths).validate ResBody ascii request ≠ none ↔
      (NoCredential auths ∨ ∀ value, request.get authorizationHeader = some value →
        ∀ b ∈ value.bytes, ascii.visible b = true) := by
    rw [ne_eq, ManyValidate.validate_eq_none_iff, not_and_or, not_not]
    simp only [not_exists, not_and, HeaderValue.toStr_eq_none_iff, not_not]
  rw [← hreturns]
  refine ⟨Authorizes.returns, fun hne => ?_⟩
  obtain ⟨hmay, hok⟩ | ⟨hmay, herr⟩ := ManyValidate.validate_eq_of_ne_none _ _ _ _ _ hne
  · exact ⟨hne, iff_of_true hok hmay, fun h => absurd hmay h⟩
  · exact ⟨hne, iff_of_false (by simp [herr]) hmay, fun _ => ⟨_, rfl, herr⟩⟩

end Validate

end Gate

/-- The visible characters of ASCII, and the tab. -/
def visibleOrTab : VisibleAscii where
  visible b := b = 9 ∨ 32 ≤ b ∧ b < 127
  of_printable _ h h' := decide_eq_true (.inr ⟨h, h'⟩)
  printable_or_tab _ h := of_decide_eq_true h

/-- A header of the one byte `0xff`. -/
def obsText : HeaderValue where
  bytes := [0xff]
  admitted b hb := by
    rw [List.mem_singleton.mp hb]
    decide

/-- With one token, a header of the byte `0xff` is not answered. -/
theorem not_authorizes_obsText :
    ¬ (∃ encode, Authorizes encode String visibleOrTab [⟨[], ["secret"]⟩]
        ⟨[("authorization", obsText)]⟩) ∧
      ∀ encode, (ManyValidate.new encode [⟨[], ["secret"]⟩]).validate String visibleOrTab
        ⟨[("authorization", obsText)]⟩ = none := by
  have hnone : ∀ encode, (ManyValidate.new encode [⟨[], ["secret"]⟩]).validate String visibleOrTab
      ⟨[("authorization", obsText)]⟩ = none := fun encode => rfl
  exact ⟨fun ⟨encode, h⟩ => h.returns (hnone encode), hnone⟩

end SfuServer
