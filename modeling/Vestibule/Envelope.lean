import Vestibule.Identity.Language
import Vestibule.Pipeline.Model

set_option autoImplicit false

namespace Vestibule.Envelope

-- pydantic coerces and checks every field before the check of the whole model, and lists the errors of all
-- fields that fail in the order of their declaration.

structure FieldError where
  field : String
  reason : String
  deriving DecidableEq

structure LocatedError where
  loc : List String
  msg : String
  deriving DecidableEq

inductive Raised where
  | envelopeValidationError (fieldErrors : List FieldError)
  | validationError (errors : List LocatedError)
  | identity (fault : IdentityFault)
  deriving DecidableEq

def wrapValidationError (errors : List LocatedError) : Raised :=
  .envelopeValidationError (errors.map fun err =>
    let path := ".".intercalate err.loc
    ⟨if path = "" then "__root__" else path, err.msg⟩)

def wrapIdentityError (fieldName reason : String) : Raised := .envelopeValidationError [⟨fieldName, reason⟩]

/-- What pydantic makes of a value: the coerced one, or its messages. Text is kept as it is. -/
structure Pydantic where
  str : PyValue → Except String PyStr
  strs : PyValue → Except (List LocatedError) (List PyStr)
  trustTier : PyValue → Except String TrustTier
  datetime : PyValue → Except String DateTime
  codecText : PyStr → String
  str_kept : ∀ text kept, str (.str text) = .ok kept → kept = text

def contentHashIsSha256Hex (v : PyStr) : Except String PyStr :=
  if hexRe v then .ok v else .error "content_hash must be 64 lowercase hex characters"

def nonEmpty (v : PyStr) : Except String PyStr := if v = [] then .error "must be non-empty" else .ok v

section Accumulate

variable {α β : Type}

def after (validator : α → Except String α) (coerced : Except String α) : Except String α := do
  (validator (← coerced)).mapError ("Value error, " ++ ·)

def located (name : String) (checked : Except String α) : Except (List LocatedError) α :=
  checked.mapError fun msg => [⟨[name], msg⟩]

def inside (name : String) (checked : Except (List LocatedError) α) : Except (List LocatedError) α :=
  checked.mapError fun errors => errors.map fun err => { err with loc := name :: err.loc }

/-- The errors of both are kept, the earlier ones first. -/
def both (make : Except (List LocatedError) (α → β)) (field : Except (List LocatedError) α) :
    Except (List LocatedError) β :=
  match make, field with
  | .ok make, .ok value => .ok (make value)
  | .ok _, .error errors => .error errors
  | .error errors, .ok _ => .error errors
  | .error earlier, .error errors => .error (earlier ++ errors)

theorem both_eq_ok (make : Except (List LocatedError) (α → β)) (field : Except (List LocatedError) α) (result : β) :
    both make field = .ok result ↔ ∃ function value, make = .ok function ∧ field = .ok value ∧ function value = result := by
  cases make <;> cases field <;> simp [both]

end Accumulate

structure Arguments where
  source : PyValue
  blobPath : PyValue
  contentHash : PyValue
  trustTier : PyValue
  allowedGroups : PyValue := .none
  vertical : PyValue := .none
  scenarioId : PyValue := .none
  receivedAt : PyValue := .none

structure Fields where
  docId : PyStr
  source : PyStr
  blobPath : PyStr
  vertical : Option PyStr
  scenarioId : Option PyStr
  allowedGroups : List PyStr
  trustTier : TrustTier
  contentHash : PyStr
  receivedAt : DateTime
  deriving DecidableEq

variable (pydantic : Pydantic)

def optionalStr : PyValue → Except String (Option PyStr)
  | .none => .ok none
  | value => some <$> pydantic.str value

-- `None` stands for an empty list here, and for the time of the call below.
def groups : PyValue → Except (List LocatedError) (List PyStr)
  | .none => .ok []
  | value => pydantic.strs value

def received (now : DateTime) : PyValue → Except String DateTime
  | .none => .ok now
  | value => pydantic.datetime value

def validateFields (now : DateTime) (docId : String) (given : Arguments) : Except (List LocatedError) Fields :=
  let make := both (.ok Fields.mk) (located "doc_id" (pydantic.str (.ofString docId)))
  let make := both make (located "source" (after nonEmpty (pydantic.str given.source)))
  let make := both make (located "blob_path" (after nonEmpty (pydantic.str given.blobPath)))
  let make := both make (located "vertical" (optionalStr pydantic given.vertical))
  let make := both make (located "scenario_id" (optionalStr pydantic given.scenarioId))
  let make := both make (inside "allowed_groups" (groups pydantic given.allowedGroups))
  let make := both make (located "trust_tier" (pydantic.trustTier given.trustTier))
  let make := both make (located "content_hash" (after contentHashIsSha256Hex (pydantic.str given.contentHash)))
  both make (located "received_at" (received pydantic now given.receivedAt))

theorem located_eq_ok {α : Type} {name : String} {checked : Except String α} {value : α}
    (passed : located name checked = .ok value) : checked = .ok value := by
  cases checked with
  | error msg => cases passed
  | ok held => exact congrArg Except.ok (Except.ok.inj passed)

theorem after_eq_ok {validator : PyStr → Except String PyStr} {coerced : Except String PyStr} {value : PyStr}
    (passed : after validator coerced = .ok value) : ∃ held, coerced = .ok held ∧ validator held = .ok value := by
  cases coerced with
  | error msg => cases passed
  | ok held =>
    refine ⟨held, rfl, ?_⟩
    change (validator held).mapError ("Value error, " ++ ·) = .ok value at passed
    cases result : validator held with
    | error msg =>
      rw [result] at passed
      cases passed
    | ok other =>
      rw [result] at passed
      exact congrArg Except.ok (Except.ok.inj passed)

theorem nonEmpty_eq_ok {held value : PyStr} (passed : nonEmpty held = .ok value) : value = held ∧ value ≠ [] := by
  unfold nonEmpty at passed
  split at passed
  next => cases passed
  next kept =>
    obtain rfl := Except.ok.inj passed
    exact ⟨rfl, kept⟩

theorem contentHashIsSha256Hex_eq_ok (v value : PyStr) :
    contentHashIsSha256Hex v = .ok value ↔ v = value ∧ hexRe v := by
  unfold contentHashIsSha256Hex
  split
  next format => simp [format]
  next format => simp [format]

structure Passed (docId : String) (given : Arguments) (fields : Fields) : Prop where
  docId : pydantic.str (.ofString docId) = .ok fields.docId
  source : pydantic.str given.source = .ok fields.source
  blobPath : pydantic.str given.blobPath = .ok fields.blobPath
  sourceNonempty : fields.source ≠ []
  blobPathNonempty : fields.blobPath ≠ []
  contentHashFormat : hexRe fields.contentHash

theorem validateFields_ok {now : DateTime} {docId : String} {given : Arguments} {fields : Fields}
    (passed : validateFields pydantic now docId given = .ok fields) : Passed pydantic docId given fields := by
  -- The fields come off from the last one to the first.
  obtain ⟨_, receivedAt, toHash, -, rfl⟩ := (both_eq_ok ..).mp passed
  obtain ⟨_, contentHash, toTier, hash, rfl⟩ := (both_eq_ok ..).mp toHash
  obtain ⟨_, trustTier, toGroups, -, rfl⟩ := (both_eq_ok ..).mp toTier
  obtain ⟨_, allowedGroups, toScenario, -, rfl⟩ := (both_eq_ok ..).mp toGroups
  obtain ⟨_, scenarioId, toVertical, -, rfl⟩ := (both_eq_ok ..).mp toScenario
  obtain ⟨_, vertical, toPath, -, rfl⟩ := (both_eq_ok ..).mp toVertical
  obtain ⟨_, blobPath, toSource, path, rfl⟩ := (both_eq_ok ..).mp toPath
  obtain ⟨_, source, toId, origin, rfl⟩ := (both_eq_ok ..).mp toSource
  obtain ⟨_, id, whole, identity, rfl⟩ := (both_eq_ok ..).mp toId
  obtain rfl := Except.ok.inj whole
  obtain ⟨heldSource, coercedSource, checkedSource⟩ := after_eq_ok (located_eq_ok origin)
  obtain ⟨heldPath, coercedPath, checkedPath⟩ := after_eq_ok (located_eq_ok path)
  obtain ⟨heldHash, -, checkedHash⟩ := after_eq_ok (located_eq_ok hash)
  obtain ⟨rfl, sourceNonempty⟩ := nonEmpty_eq_ok checkedSource
  obtain ⟨rfl, blobPathNonempty⟩ := nonEmpty_eq_ok checkedPath
  obtain ⟨rfl, format⟩ := (contentHashIsSha256Hex_eq_ok ..).mp checkedHash
  exact ⟨located_eq_ok identity, coercedSource, coercedPath, sourceNonempty, blobPathNonempty, format⟩

variable (hexdigest : ByteArray → String)

def computeDocId (source blobPath : PyValue) : Except IdentityFault String := deriveDocId hexdigest source blobPath

structure ArrivalEnvelope extends Fields where
  sourceNonempty : source ≠ []
  blobPathNonempty : blobPath ≠ []
  contentHashFormat : hexRe contentHash
  docIdDerived : ∃ expected, deriveDocId hexdigest (.str source) (.str blobPath) = .ok expected ∧
    docId = PyStr.ofString expected

-- pydantic turns a `ValueError` of a validator into an error of its own, and `UnicodeEncodeError` is one.
-- `IdentityInvalid` is none: it passes through.
def verifyDocId (fields : Fields) : Except Raised String :=
  match computeDocId hexdigest (.str fields.source) (.str fields.blobPath) with
  | .error .unicodeEncodeError =>
      .error (.validationError [⟨[], "Value error, " ++ pydantic.codecText (fields.source ++ fields.blobPath)⟩])
  | .error fault => .error (.identity fault)
  | .ok expected =>
      if fields.docId = PyStr.ofString expected then .ok expected
      else .error (.validationError
        [⟨[], "Value error, doc_id does not match sha256(source + blob_path); expected " ++ expected⟩])

theorem verifyDocId_ok {fields : Fields} {expected : String}
    (verified : verifyDocId pydantic hexdigest fields = .ok expected) :
    deriveDocId hexdigest (.str fields.source) (.str fields.blobPath) = .ok expected ∧
      fields.docId = PyStr.ofString expected := by
  unfold verifyDocId computeDocId at verified
  split at verified
  next => cases verified
  next => cases verified
  next derived =>
    split at verified
    next same =>
      obtain rfl := Except.ok.inj verified
      exact ⟨derived, same⟩
    next => cases verified

def arrivalEnvelope (now : DateTime) (docId : String) (given : Arguments) :
    Except Raised (ArrivalEnvelope hexdigest) :=
  match passed : validateFields pydantic now docId given with
  | .error errors => .error (.validationError errors)
  | .ok fields =>
      match verified : verifyDocId pydantic hexdigest fields with
      | .error raised => .error raised
      | .ok expected =>
          let known := validateFields_ok pydantic passed
          .ok ⟨fields, known.sourceNonempty, known.blobPathNonempty, known.contentHashFormat,
            ⟨expected, verifyDocId_ok pydantic hexdigest verified⟩⟩

def buildEnvelope (now : DateTime) (given : Arguments) : Except Raised (ArrivalEnvelope hexdigest) :=
  match computeDocId hexdigest given.source given.blobPath with
  | .error (.identityInvalid fieldName reason) => .error (wrapIdentityError fieldName reason)
  | .error fault => .error (.identity fault)
  | .ok docId =>
      match arrivalEnvelope pydantic hexdigest now docId given with
      | .error (.validationError errors) => .error (wrapValidationError errors)
      | .error raised => .error raised
      | .ok envelope => .ok envelope

def Unencodable (source blobPath : PyValue) : Prop :=
  ∃ first second, source = .str first ∧ blobPath = .str second ∧ first ≠ [] ∧ second ≠ [] ∧
    ¬ (first ++ second).Encodable

theorem validateNonEmptyStr_cases (value : PyValue) (fieldName : String) :
    (∃ reason, validateNonEmptyStr value fieldName = .error (.identityInvalid fieldName reason)) ∨
      ∃ text, value = .str text ∧ text ≠ [] ∧ validateNonEmptyStr value fieldName = .ok text := by
  cases value with
  | str text =>
    cases text with
    | nil => exact .inl ⟨_, rfl⟩
    | cons first rest => exact .inr ⟨first :: rest, rfl, by simp, rfl⟩
  | none => exact .inl ⟨_, rfl⟩
  | bool value => exact .inl ⟨_, rfl⟩
  | int value => exact .inl ⟨_, rfl⟩
  | ints items => exact .inl ⟨_, rfl⟩
  | other text => exact .inl ⟨_, rfl⟩

theorem encodeUtf8_of_not_encodable {text : PyStr} (lone : ¬ text.Encodable) :
    encodeUtf8 text = .error .unicodeEncodeError := by
  rw [← PyStr.toString?_isSome, Option.not_isSome_iff_eq_none] at lone
  rw [encodeUtf8, lone]

theorem deriveDocId_of_unencodable {source blobPath : PyValue} (lone : Unencodable source blobPath) :
    deriveDocId hexdigest source blobPath = .error .unicodeEncodeError := by
  obtain ⟨first, second, rfl, rfl, sourceText, pathText, lone⟩ := lone
  have kept (text : PyStr) (fieldName : String) (nonempty : text ≠ []) :
      validateNonEmptyStr (.str text) fieldName = .ok text := by
    cases text with
    | nil => exact (nonempty rfl).elim
    | cons c rest => rfl
  rw [deriveDocId, kept first "source" sourceText, kept second "blob_path" pathText]
  change (encodeUtf8 (first ++ second) >>= fun bytes => pure (hexdigest bytes)) = .error .unicodeEncodeError
  rw [encodeUtf8_of_not_encodable lone]
  rfl

inductive DocIdOutcome (source blobPath : PyValue) : Except IdentityFault String → Prop where
  | rejected (fieldName reason : String) : DocIdOutcome source blobPath (.error (.identityInvalid fieldName reason))
  | derived (bytes : ByteArray) (first second : PyStr) (isSource : source = .str first)
      (isPath : blobPath = .str second) : DocIdOutcome source blobPath (.ok (hexdigest bytes))
  | unencodable (lone : Unencodable source blobPath) : DocIdOutcome source blobPath (.error .unicodeEncodeError)

theorem deriveDocId_outcome (source blobPath : PyValue) :
    DocIdOutcome hexdigest source blobPath (deriveDocId hexdigest source blobPath) := by
  rcases validateNonEmptyStr_cases source "source" with ⟨reason, refused⟩ | ⟨first, rfl, sourceText, kept⟩
  next =>
    rw [deriveDocId, refused]
    exact .rejected "source" reason
  next =>
    rcases validateNonEmptyStr_cases blobPath "blob_path" with ⟨reason, refused⟩ | ⟨second, rfl, pathText, keptPath⟩
    next =>
      rw [deriveDocId, kept, refused]
      exact .rejected "blob_path" reason
    next =>
      by_cases encodable : (first ++ second).Encodable
      next =>
        obtain ⟨bytes, encoded⟩ := (encodeUtf8_ok _).mpr encodable
        have derived := (deriveDocId_eq_ok hexdigest first second _).mpr ⟨sourceText, pathText, bytes, encoded, rfl⟩
        rw [derived]
        exact .derived bytes first second rfl rfl
      next =>
        have lone : Unencodable (.str first) (.str second) := ⟨first, second, rfl, rfl, sourceText, pathText, encodable⟩
        rw [deriveDocId_of_unencodable hexdigest lone]
        exact .unencodable lone

section Derived

variable {given : Arguments} {docId : String} {first second : PyStr} (isSource : given.source = .str first)
  (isPath : given.blobPath = .str second) (derived : deriveDocId hexdigest given.source given.blobPath = .ok docId)

include isSource isPath derived

-- pydantic keeps both texts, so the model derives from what `build_envelope` derived from.
theorem verifyDocId_of_derived {now : DateTime} {fields : Fields}
    (passed : validateFields pydantic now docId given = .ok fields) :
    fields.docId = PyStr.ofString docId ∧ verifyDocId pydantic hexdigest fields = .ok docId := by
  have known := validateFields_ok pydantic passed
  have sameId : fields.docId = PyStr.ofString docId := pydantic.str_kept _ _ known.docId
  have sameSource : fields.source = first := pydantic.str_kept _ _ (isSource ▸ known.source)
  have samePath : fields.blobPath = second := pydantic.str_kept _ _ (isPath ▸ known.blobPath)
  rw [isSource, isPath] at derived
  refine ⟨sameId, ?_⟩
  rw [verifyDocId, computeDocId, sameSource, samePath, derived]
  exact if_pos sameId

theorem arrivalEnvelope_of_derived (now : DateTime) :
    (∃ envelope, arrivalEnvelope pydantic hexdigest now docId given = .ok envelope ∧
        envelope.docId = PyStr.ofString docId) ∨
      ∃ errors, arrivalEnvelope pydantic hexdigest now docId given = .error (.validationError errors) := by
  unfold arrivalEnvelope
  split
  next errors refused => exact .inr ⟨errors, rfl⟩
  next fields passed =>
    obtain ⟨sameId, verifies⟩ := verifyDocId_of_derived pydantic hexdigest isSource isPath derived passed
    split
    next raised failed =>
      rw [verifies] at failed
      cases failed
    next expected verified => exact .inl ⟨_, rfl, sameId⟩

theorem buildEnvelope_of_derived (now : DateTime) :
    (∃ envelope, buildEnvelope pydantic hexdigest now given = .ok envelope ∧
        envelope.docId = PyStr.ofString docId) ∨
      ∃ fieldErrors, buildEnvelope pydantic hexdigest now given = .error (.envelopeValidationError fieldErrors) := by
  simp only [buildEnvelope, computeDocId, derived]
  rcases arrivalEnvelope_of_derived pydantic hexdigest isSource isPath derived now with
    ⟨envelope, built, sameId⟩ | ⟨errors, refused⟩
  next =>
    left
    rw [built]
    exact ⟨envelope, rfl, sameId⟩
  next =>
    right
    rw [refused]
    exact ⟨_, rfl⟩

end Derived

structure Sha256 where
  hexdigest : ByteArray → String
  isDigest : ∀ bytes, IsDigest (PyStr.ofString (hexdigest bytes))

variable (sha256 : Sha256)

structure OneCode (now : DateTime) (given : Arguments) : Prop where
  envelope : (∃ envelope docId, buildEnvelope pydantic sha256.hexdigest now given = .ok envelope ∧
      deriveDocId sha256.hexdigest given.source given.blobPath = .ok docId ∧
      envelope.docId = PyStr.ofString docId) ∨
    ∃ fieldErrors, buildEnvelope pydantic sha256.hexdigest now given = .error (.envelopeValidationError fieldErrors)
  docId : (∃ docId, deriveDocId sha256.hexdigest given.source given.blobPath = .ok docId ∧
      IsDigest (PyStr.ofString docId)) ∨
    ∃ fieldName reason,
      deriveDocId sha256.hexdigest given.source given.blobPath = .error (.identityInvalid fieldName reason)

theorem not_oneCode_of_unencodable {now : DateTime} {given : Arguments}
    (lone : Unencodable given.source given.blobPath) : ¬ OneCode pydantic sha256 now given := by
  intro held
  have escapes := deriveDocId_of_unencodable sha256.hexdigest lone
  rcases held.docId with ⟨docId, derived, -⟩ | ⟨fieldName, reason, rejected⟩
  next =>
    rw [escapes] at derived
    cases derived
  next =>
    rw [escapes] at rejected
    cases rejected

theorem oneCode_iff (now : DateTime) (given : Arguments) :
    OneCode pydantic sha256 now given ↔ ¬ Unencodable given.source given.blobPath := by
  constructor
  next =>
    intro held lone
    exact not_oneCode_of_unencodable pydantic sha256 lone held
  next =>
    intro encodable
    have outcome := deriveDocId_outcome sha256.hexdigest given.source given.blobPath
    generalize result : deriveDocId sha256.hexdigest given.source given.blobPath = derived at outcome
    cases outcome with
    | rejected fieldName reason =>
      constructor
      next => exact .inr ⟨[⟨fieldName, reason⟩], by simp only [buildEnvelope, computeDocId, result]; rfl⟩
      next => exact .inr ⟨fieldName, reason, result⟩
    | derived bytes first second isSource isPath =>
      constructor
      next =>
        rcases buildEnvelope_of_derived pydantic sha256.hexdigest isSource isPath result now with
          ⟨envelope, built, sameId⟩ | refused
        next => exact .inl ⟨envelope, _, built, result, sameId⟩
        next => exact .inr refused
      next => exact .inl ⟨_, result, sha256.isDigest bytes⟩
    | unencodable lone => exact (encodable lone).elim

def plainPydantic : Pydantic where
  str value := match value with
    | .str text => .ok text
    | _ => .error "Input should be a valid string"
  strs value := match value with
    | .ints [] => .ok []
    | _ => .error [⟨[], "Input should be a valid list"⟩]
  trustTier value :=
    match [TrustTier.publicTier, .internal, .confidential, .restricted].find? (value = .ofString ·.value) with
    | some tier => .ok tier
    | none => .error "Input should be 'public', 'internal', 'confidential' or 'restricted'"
  datetime _ := .error "Input should be a valid datetime"
  codecText _ := "'utf-8' codec can't encode characters: surrogates not allowed"
  str_kept _ _ same := (Except.ok.inj same).symm

-- `sha256` of "abc"; other bytes get one digest.
def twoDigests (bytes : ByteArray) : String :=
  if bytes.data.toList = "abc".toUTF8.data.toList then digestAbc else digestAbcd

def plainSha256 : Sha256 where
  hexdigest := twoDigests
  isDigest bytes := by
    have digest (text : String) (length : (PyStr.ofString text).length = idHexLength)
        (digits : ∀ c ∈ PyStr.ofString text, isHexDigit c) : IsDigest (PyStr.ofString text) := ⟨length, digits⟩
    unfold twoDigests
    split
    next => exact digest digestAbc (by decide) (by decide)
    next => exact digest digestAbcd (by decide) (by decide)

example : (buildEnvelope plainPydantic twoDigests 5
    ⟨.ofString "a", .ofString "bc", .ofString digestAbcd, .ofString "internal", .none, .ofString "hr", .none, .none⟩).map
      (·.toFields) =
    .ok ⟨PyStr.ofString digestAbc, PyStr.ofString "a", PyStr.ofString "bc", some (PyStr.ofString "hr"), none, [],
      .internal, PyStr.ofString digestAbcd, 5⟩ := rfl

theorem firstSurrogate_lt : 0 < 2048 := by decide

def surrogateArguments : Arguments where
  source := .ofString "a"
  blobPath := .str [.surrogate ⟨0, firstSurrogate_lt⟩]
  contentHash := .ofString digestAbc
  trustTier := .ofString "internal"

theorem surrogate_escapes : ¬ ∀ given, OneCode plainPydantic plainSha256 0 given := by
  intro always
  have lone : Unencodable surrogateArguments.source surrogateArguments.blobPath :=
    ⟨_, _, rfl, rfl, by decide, by decide, fun encodable => encodable ⟨0, firstSurrogate_lt⟩ (by decide)⟩
  exact not_oneCode_of_unencodable plainPydantic plainSha256 lone (always surrogateArguments)

end Vestibule.Envelope
