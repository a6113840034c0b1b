import Vestibule.Errors
import Vestibule.Python
import Vestibule.Library.Dict
import Vestibule.Pipeline.Model

set_option autoImplicit false

namespace Vestibule.Provisioning

open Library

inductive FieldType where
  | key
  | text
  | vector
  | filterableString
  | filterableStringCollection
  | filterableDatetime
  | retrievableOnly
  deriving DecidableEq

structure FieldSpec where
  name : String
  type : FieldType
  searchable : Bool := false
  deriving DecidableEq

structure HnswSettings where
  m : Int
  efConstruction : Int
  efSearch : Int
  deriving DecidableEq

inductive Metric where
  | cosine
  | dotProduct
  | euclidean
  deriving DecidableEq

def Metric.value : Metric → String
  | .cosine => "cosine"
  | .dotProduct => "dotProduct"
  | .euclidean => "euclidean"

-- The last four fields are what the validators of the source accept.
structure IndexTemplate where
  templateId : String
  templateVersion : String
  dimensions : Option Int
  metric : Metric
  hnsw : HnswSettings
  fields : List FieldSpec
  semanticRankerEnabled : Bool
  hybridEnabled : Bool
  versionIsInteger : (int? templateVersion).any (0 ≤ ·)
  oneKey : (fields.filter (·.type = .key)).length = 1
  someVector : fields.any (·.type = .vector)
  namesUnique : (fields.map (·.name)).Nodup
  deriving DecidableEq

inductive IndexStatus where
  | provisioning
  | ready
  | failed
  | retired
  deriving DecidableEq

structure IndexRegistryEntry where
  indexName : String
  vertical : String
  scenarioId : String
  templateId : String
  templateVersion : String
  dimensions : Int
  metric : String
  embeddingModel : String
  status : IndexStatus
  createdAt : DateTime
  lastVerifiedAt : Option DateTime
  documentCount : Option Int
  claimToken : Option String
  claimedAt : Option DateTime
  lastErrorMessage : Option String
  resolvedTemplate : Option IndexTemplate
  deriving DecidableEq

structure IndexDescription where
  dimensions : Int
  metric : String
  deriving DecidableEq

def IndexDescription.repr (description : IndexDescription) : String :=
  "IndexDescription(dimensions=" ++ toString description.dimensions ++ ", metric=" ++
    reprStr description.metric ++ ")"

def reprDescription : Option IndexDescription → String
  | none => "None"
  | some description => description.repr

/-- A scenario, with what the provisioner reads of it. -/
structure IndexScenario extends Scenario where
  indexName : String
  indexTemplateId : Option String
  embedderModel : String
  indexerDimensions : Int
  deriving DecidableEq

structure ProvisioningError where
  indexName : String
  reason : String
  errorCode : String
  deriving DecidableEq

def ProvisioningError.str (e : ProvisioningError) : String := e.indexName ++ ": " ++ e.reason

-- `unfinished` is no exception of the source: the run is cut off there.
inductive Raised where
  | provisioning (error : ProvisioningError)
  | other (text : String)
  | unfinished
  deriving DecidableEq

abbrev IndexTemplateStore := Dict String IndexTemplate

def getOrRaise (templates : IndexTemplateStore) (templateId : String) : Except ProvisioningError IndexTemplate :=
  match templates.get? templateId with
  | none => .error ⟨templateId, "no index template registered for template_id=" ++ reprStr templateId,
      indexTemplateNotFound⟩
  | some template => .ok template

-- A `datetime` counts microseconds, and so does what `timedelta(seconds=...)` makes of a setting.

abbrev TimeDelta := Int

def seconds (count : Int) : TimeDelta := 1000000 * count

def elapsed (now since : DateTime) (threshold : TimeDelta) : Bool := now - since ≥ threshold

structure ProvisioningConfig where
  defaultTemplateId : String := "standard-v1"
  provisioningStaleAfterSeconds : TimeDelta := seconds 300
  verificationIntervalSeconds : TimeDelta := seconds 300
  waitForProvisioningTimeoutSeconds : TimeDelta := seconds 60
  waitPollIntervalSeconds : TimeDelta := seconds 2
  autoCreate : Bool := true

end Vestibule.Provisioning
