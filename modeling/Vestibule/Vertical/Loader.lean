import Vestibule.Pipeline.Stage

set_option autoImplicit false

namespace Vestibule

structure SourceMappingRule where
  pattern : String
  vertical : String
  deriving DecidableEq

structure VerticalLoaderConfig where
  sourceMappings : List SourceMappingRule := []
  parkUnresolved : Bool := true
  suggestVerticals : Bool := true
  deriving DecidableEq

inductive ResolutionSource where
  | reviewAssignment
  | envelopeScenarioId
  | envelopeVertical
  | sourceMapping
  | unresolved
  deriving DecidableEq

inductive Confidence where
  | explicit
  | inferred
  | unresolved
  deriving DecidableEq

structure VerticalResolution where
  vertical : Option String
  scenarioId : Option String
  source : ResolutionSource
  confidence : Confidence
  reason : String
  deriving DecidableEq

namespace Fnmatch

inductive Token where
  | star
  | any
  | literal (c : Char)
  | set (negated : Bool) (ranges : List (Char × Char))
  deriving DecidableEq

-- The characters up to the closing bracket; one that comes first stands for itself.
def closeSet (chars : List Char) : Option (Bool × List Char × List Char) :=
  let (negated, chars) := match chars with
    | '!' :: rest => (true, rest)
    | _ => (false, chars)
  let (first, chars) := match chars with
    | ']' :: rest => ([']'], rest)
    | _ => ([], chars)
  match chars.dropWhile (· ≠ ']') with
  | [] => none
  | _ :: rest => some (negated, first ++ chars.takeWhile (· ≠ ']'), rest)

def setRanges : List Char → List (Char × Char)
  | low :: '-' :: high :: rest => (low, high) :: setRanges rest
  | c :: rest => (c, c) :: setRanges rest
  | [] => []

-- Every token takes at least one character, so the length of the pattern is enough fuel.
def tokens : Nat → List Char → List Token
  | 0, _ => []
  | _, [] => []
  | fuel + 1, '*' :: rest => .star :: tokens fuel rest
  | fuel + 1, '?' :: rest => .any :: tokens fuel rest
  | fuel + 1, '[' :: rest =>
      match closeSet rest with
      | none => .literal '[' :: tokens fuel rest
      | some (negated, body, rest) => .set negated (setRanges body) :: tokens fuel rest
  | fuel + 1, c :: rest => .literal c :: tokens fuel rest

def matchTokens : List Token → List Char → Bool
  | [], text => text.isEmpty
  | .star :: pattern, text => text.tails.any (matchTokens pattern)
  | .any :: pattern, _ :: text => matchTokens pattern text
  | .literal c :: pattern, d :: text => c = d && matchTokens pattern text
  | .set negated ranges :: pattern, d :: text =>
      (ranges.any (fun range => range.1 ≤ d && d ≤ range.2) != negated) && matchTokens pattern text
  | _ :: _, [] => false

def fnmatchcase (name pattern : String) : Bool :=
  matchTokens (tokens pattern.toList.length pattern.toList) name.toList

end Fnmatch

def isGlob (pattern : String) : Bool := pattern.toList.any (fun c => c = '*' || c = '?' || c = '[')

def selectSourceRule (source : String) (rules : List SourceMappingRule) : Option SourceMappingRule :=
  match rules.find? (fun rule => !isGlob rule.pattern && rule.pattern = source) with
  | some rule => some rule
  | none => rules.find? (fun rule => isGlob rule.pattern && Fnmatch.fnmatchcase source rule.pattern)

def prefixBeforeColon (text : String) : List Char := text.toList.takeWhile (· ≠ ':')

def suggestVerticals (source : String) (rules : List SourceMappingRule) : List String :=
  rules.foldl (fun suggestions rule =>
    if prefixBeforeColon rule.pattern = prefixBeforeColon source ∧ rule.vertical ∉ suggestions then
      suggestions ++ [rule.vertical]
    else suggestions) []

namespace VerticalLoader

def unresolvedResolution (source : String) : VerticalResolution where
  vertical := none
  scenarioId := none
  source := .unresolved
  confidence := .unresolved
  reason := "no scenario_id/vertical on the envelope and no source mapping matched source=" ++ reprStr source

def resolveNamed (lookup : Py (Option Scenario)) (subject missing : String) (source : ResolutionSource)
    (confidence : Confidence) (reason : String) : Py VerticalResolution := do
  match ← lookup with
  | none => throw (.ragged .scenario subject missing scenarioNotFound)
  | some scenario =>
      return { vertical := some scenario.vertical, scenarioId := some scenario.scenarioId, source, confidence,
               reason }

def resolveReviewAssignment (scenarioId : String) : Py VerticalResolution :=
  resolveNamed (Py.scenarioGet scenarioId) scenarioId
    ("ledger row carries assigned_scenario_id=" ++ reprStr scenarioId ++
      " (from a prior ReviewQueue.assign()), but no such scenario exists")
    .reviewAssignment .explicit
    ("human-assigned scenario_id=" ++ reprStr scenarioId ++ " via ReviewQueue.assign()")

def resolveScenarioId (scenarioId : String) : Py VerticalResolution :=
  resolveNamed (Py.scenarioGet scenarioId) scenarioId
    ("envelope declared scenario_id=" ++ reprStr scenarioId ++ ", but no such scenario exists")
    .envelopeScenarioId .explicit ("envelope declared scenario_id=" ++ reprStr scenarioId)

def resolveVertical (vertical : String) : Py VerticalResolution :=
  resolveNamed (Py.scenarioGetByVertical vertical) vertical
    ("envelope declared vertical=" ++ reprStr vertical ++ ", but no enabled scenario exists for it")
    .envelopeVertical .explicit ("envelope declared vertical=" ++ reprStr vertical)

variable (config : VerticalLoaderConfig)

def matchSourceMapping (source : String) : Py (Option VerticalResolution) := do
  match selectSourceRule source config.sourceMappings with
  | none => return none
  | some rule =>
      resolveNamed (Py.scenarioGetByVertical rule.vertical) rule.vertical
        ("source mapping match=" ++ reprStr rule.pattern ++ " matched, but vertical=" ++
          reprStr rule.vertical ++ " no longer has an enabled scenario")
        .sourceMapping .inferred
        ("source=" ++ reprStr source ++ " matched mapping rule match=" ++ reprStr rule.pattern)

def assignedScenarioId (docId : String) : Py (Option String) := do
  return (← Py.ledgerGet docId).bind (·.assignedScenarioId)

def resolve (envelope : ArrivalEnvelope) : Py VerticalResolution := do
  if let some assigned ← assignedScenarioId envelope.docId then
    return ← resolveReviewAssignment assigned
  if let some scenarioId := envelope.scenarioId then
    return ← resolveScenarioId scenarioId
  if let some vertical := envelope.vertical then
    return ← resolveVertical vertical
  if let some matched ← matchSourceMapping config envelope.source then
    return matched
  return unresolvedResolution envelope.source

def park {α : Type} (envelope : ArrivalEnvelope) (resolution : VerticalResolution) : Py α := do
  if config.parkUnresolved then
    Py.registryRecord envelope.docId
      { source := envelope.source, blobPath := envelope.blobPath,
        suggestedVerticals :=
          if config.suggestVerticals then Vestibule.suggestVerticals envelope.source config.sourceMappings
          else [] }
    Py.transitionTriaged
      { docId := envelope.docId, toStatus := .needsReview, stage := .needsReview,
        errorCode := some verticalUnresolved, errorMessage := some resolution.reason }
  throw (.ragged .vertical envelope.docId resolution.reason verticalUnresolved)

def load (envelope : ArrivalEnvelope) : Py (Scenario × VerticalResolution) := do
  let resolution ← resolve config envelope
  match resolution.scenarioId with
  | none => park config envelope resolution
  | some scenarioId =>
      match ← Py.scenarioGet scenarioId with
      | none =>
          throw (.ragged .scenario scenarioId
            "scenario no longer exists (concurrent delete between resolve() and load())" scenarioNotFound)
      | some scenario => return (scenario, resolution)

end VerticalLoader

end Vestibule
