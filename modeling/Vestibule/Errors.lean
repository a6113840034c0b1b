import Mathlib.Data.List.Basic

set_option autoImplicit false

namespace Vestibule

-- Every module registers its codes at import time; the table lists them all. A code that nobody registered
-- counts as transient.

inductive Severity where
  | permanent
  | transient
  deriving DecidableEq

def identityInvalidCode : String := "IDENTITY_INVALID"

def ledgerTransitionInvalidCode : String := "LEDGER_TRANSITION_INVALID"

def analyzerUnsupportedType : String := "ANALYZER_UNSUPPORTED_TYPE"
def analyzerNoParser : String := "ANALYZER_NO_PARSER"
def analyzerDependencyMissing : String := "ANALYZER_DEPENDENCY_MISSING"
def parserTimeout : String := "PARSER_TIMEOUT"
def parserInternal : String := "PARSER_INTERNAL"

def chunkerEmptyElements : String := "CHUNKER_EMPTY_ELEMENTS"
def tokenizerLoadFailed : String := "TOKENIZER_LOAD_FAILED"
def chunkerInternal : String := "CHUNKER_INTERNAL"

def embedderEmptyChunks : String := "EMBEDDER_EMPTY_CHUNKS"
def embedderMrlUnsupported : String := "EMBEDDER_MRL_UNSUPPORTED"
def embedderInputTooLong : String := "EMBEDDER_INPUT_TOO_LONG"
def embedderUpstreamError : String := "EMBEDDER_UPSTREAM_ERROR"
def embedderInternal : String := "EMBEDDER_INTERNAL"

def indexerEmptyRecords : String := "INDEXER_EMPTY_RECORDS"
def indexerDimensionMismatch : String := "INDEXER_DIMENSION_MISMATCH"
def indexerMixedModelBatch : String := "INDEXER_MIXED_MODEL_BATCH"
def indexerPartialBatchFailure : String := "INDEXER_PARTIAL_BATCH_FAILURE"
def indexerInternal : String := "INDEXER_INTERNAL"

def scenarioNotFound : String := "SCENARIO_NOT_FOUND"
def scenarioInvalid : String := "SCENARIO_INVALID"
def scenarioConflict : String := "SCENARIO_CONFLICT"
def scenarioStoreUnavailable : String := "SCENARIO_STORE_UNAVAILABLE"

def verticalUnresolved : String := "VERTICAL_UNRESOLVED"
def verticalRejected : String := "VERTICAL_REJECTED"
def reviewItemNotFound : String := "REVIEW_ITEM_NOT_FOUND"

def indexTemplateNotFound : String := "INDEX_TEMPLATE_NOT_FOUND"
def indexTemplateInvalid : String := "INDEX_TEMPLATE_INVALID"
def indexSchemaDrift : String := "INDEX_SCHEMA_DRIFT"
def indexProvisionFailed : String := "INDEX_PROVISION_FAILED"
def indexRetired : String := "INDEX_RETIRED"
def indexAutoCreateDisabled : String := "INDEX_AUTO_CREATE_DISABLED"
def indexProvisionTimeout : String := "INDEX_PROVISION_TIMEOUT"
def indexProvisionConflict : String := "INDEX_PROVISION_CONFLICT"
def indexRegistryUnavailable : String := "INDEX_REGISTRY_UNAVAILABLE"
def indexProvisionerUnavailable : String := "INDEX_PROVISIONER_UNAVAILABLE"

def reprocessNotFailed : String := "REPROCESS_NOT_FAILED"
def reprocessDocNotFound : String := "REPROCESS_DOC_NOT_FOUND"

def registeredCodes : List (String × Severity) :=
  [("ERROR_CODE_REGISTRATION_INVALID", .permanent),
   ("ENVELOPE_INVALID", .permanent),
   (identityInvalidCode, .permanent),
   (ledgerTransitionInvalidCode, .permanent),
   (analyzerUnsupportedType, .permanent),
   (analyzerNoParser, .permanent),
   (analyzerDependencyMissing, .permanent),
   (parserTimeout, .transient),
   ("DOCINT_RATE_LIMITED", .transient),
   ("DOCINT_UPSTREAM_ERROR", .transient),
   (parserInternal, .transient),
   (chunkerEmptyElements, .permanent),
   (tokenizerLoadFailed, .transient),
   (chunkerInternal, .transient),
   (embedderEmptyChunks, .permanent),
   (embedderMrlUnsupported, .permanent),
   (embedderInputTooLong, .permanent),
   ("EMBEDDER_RATE_LIMITED", .transient),
   (embedderUpstreamError, .transient),
   ("EMBEDDER_TIMEOUT", .transient),
   (embedderInternal, .transient),
   ("EMBEDDER_DEPENDENCY_MISSING", .permanent),
   (indexerEmptyRecords, .permanent),
   (indexerDimensionMismatch, .permanent),
   (indexerMixedModelBatch, .permanent),
   ("INDEXER_SCHEMA_CONFLICT", .permanent),
   ("INDEXER_RECORD_TOO_LARGE", .permanent),
   ("INDEXER_RATE_LIMITED", .transient),
   ("INDEXER_UPSTREAM_ERROR", .transient),
   ("INDEXER_TIMEOUT", .transient),
   (indexerPartialBatchFailure, .transient),
   (indexerInternal, .transient),
   ("INDEXER_DEPENDENCY_MISSING", .permanent),
   (scenarioNotFound, .permanent),
   ("SCENARIO_INVALID", .permanent),
   ("SCENARIO_STORE_READ_ONLY", .permanent),
   ("SCENARIO_CONFLICT", .transient),
   ("SCENARIO_STORE_UNAVAILABLE", .transient),
   ("SCENARIO_STORE_DEPENDENCY_MISSING", .permanent),
   (verticalUnresolved, .permanent),
   ("VERTICAL_MAPPING_INVALID", .permanent),
   (verticalRejected, .permanent),
   (reviewItemNotFound, .permanent),
   (indexTemplateNotFound, .permanent),
   (indexTemplateInvalid, .permanent),
   (indexSchemaDrift, .permanent),
   (indexProvisionFailed, .permanent),
   (indexRetired, .permanent),
   (indexAutoCreateDisabled, .permanent),
   (indexProvisionTimeout, .transient),
   (indexProvisionConflict, .transient),
   (indexRegistryUnavailable, .transient),
   (indexProvisionerUnavailable, .transient),
   ("INDEX_PROVISIONER_DEPENDENCY_MISSING", .permanent),
   (reprocessNotFailed, .permanent),
   (reprocessDocNotFound, .permanent)]

def registeredSeverity (code : String) : Option Severity := registeredCodes.lookup code

def classify (code : String) : Severity := (registeredSeverity code).getD .transient

end Vestibule
