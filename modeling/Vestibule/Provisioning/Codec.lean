import Vestibule.Provisioning.TableStorage

set_option autoImplicit false

namespace Vestibule.Provisioning

open Library

-- Table Storage keeps flat properties only, so the nested template is kept as a JSON document. An optional
-- field that is `None` is left out, and a write replaces the whole entity.

def IndexStatus.value : IndexStatus → String
  | .provisioning => "provisioning"
  | .ready => "ready"
  | .failed => "failed"
  | .retired => "retired"

def IndexStatus.ofValue? (text : String) : Option IndexStatus :=
  [.provisioning, .ready, .failed, .retired].find? (·.value = text)

theorem IndexStatus.ofValue?_value (status : IndexStatus) : ofValue? status.value = some status := by
  cases status <;> decide

/-- How times and templates are written as text, and read back. `Json` is the text of a JSON document;
what cannot be read back gives the text of the error. -/
structure EntryFormats (Json : Type) where
  isoformat : DateTime → String
  fromisoformat : String → Except String DateTime
  templateJson : IndexTemplate → Json
  templateOfJson : Json → Except String IndexTemplate
  jsonText : Json → String
  fromisoformat_isoformat : ∀ time, fromisoformat (isoformat time) = .ok time
  templateOfJson_templateJson : ∀ template, templateOfJson (templateJson template) = .ok template

def fromText (text : String) : Except String DateTime :=
  (int? text).elim (.error ("Invalid isoformat string: " ++ reprStr text)) .ok

theorem fromText_toString (time : DateTime) : fromText (toString time) = .ok time := by
  simp only [fromText, int?_toString, Option.elim_some]

-- A template can stand for its own text.
def plainFormats : EntryFormats IndexTemplate where
  isoformat := toString
  fromisoformat := fromText
  templateJson := id
  templateOfJson := .ok
  jsonText := (·.templateId)
  fromisoformat_isoformat := fromText_toString
  templateOfJson_templateJson _ := rfl

inductive EntityProperty (Json : Type) where
  | text (value : String)
  | number (value : Int)
  | flag (value : Bool)
  | json (value : Json)
  deriving DecidableEq

abbrev EntryData (Json : Type) := Dict String (EntityProperty Json)

variable {Json : Type} (formats : EntryFormats Json)

def setOptional (data : EntryData Json) (key : String) : Option (EntityProperty Json) → EntryData Json
  | none => data
  | some value => data.insert key value

-- A `datetime` and a model are always truthy, so `if` asks for `None` here.
def entryToEntityData (entry : IndexRegistryEntry) : EntryData Json :=
  let data : EntryData Json := Dict.empty
    |>.insert "index_name" (.text entry.indexName)
    |>.insert "vertical" (.text entry.vertical)
    |>.insert "scenario_id" (.text entry.scenarioId)
    |>.insert "template_id" (.text entry.templateId)
    |>.insert "template_version" (.text entry.templateVersion)
    |>.insert "dimensions" (.number entry.dimensions)
    |>.insert "metric" (.text entry.metric)
    |>.insert "embedding_model" (.text entry.embeddingModel)
    |>.insert "status" (.text entry.status.value)
    |>.insert "created_at" (.text (formats.isoformat entry.createdAt))
  let data := setOptional data "last_verified_at" (entry.lastVerifiedAt.map fun time => .text (formats.isoformat time))
  let data := setOptional data "document_count" (entry.documentCount.map .number)
  let data := setOptional data "claim_token" (entry.claimToken.map .text)
  let data := setOptional data "claimed_at" (entry.claimedAt.map fun time => .text (formats.isoformat time))
  let data := setOptional data "last_error_message" (entry.lastErrorMessage.map .text)
  setOptional data "resolved_template_json"
    (entry.resolvedTemplate.map fun template => .json (formats.templateJson template))

@[simp]
theorem get?_setOptional (data : EntryData Json) (key other : String) (value : Option (EntityProperty Json)) :
    (setOptional data key value).get? other = if other = key then value.or (data.get? key) else data.get? other := by
  cases value with
  | none =>
    by_cases same : other = key
    next => simp [setOptional, same]
    next => simp [setOptional, same]
  | some value => simp [setOptional]

-- The text of an error is that of the exception met first; a `ValidationError` is cut off before pydantic's
-- own details.

namespace EntityProperty

def str : EntityProperty Json → String
  | text value => value
  | number value => toString value
  | flag true => "True"
  | flag false => "False"
  | json value => formats.jsonText value

def int : EntityProperty Json → Except String Int
  | number value => .ok value
  | flag value => .ok (if value then 1 else 0)
  | property =>
      match int? (property.str formats) with
      | some value => .ok value
      | none => .error ("invalid literal for int() with base 10: " ++ reprStr (property.str formats))

def text? : EntityProperty Json → Option String
  | text value => some value
  | json value => some (formats.jsonText value)
  | _ => none

def status? (property : EntityProperty Json) : Option IndexStatus :=
  (property.text? formats).bind IndexStatus.ofValue?

def optionalText? : Option (EntityProperty Json) → Option (Option String)
  | none => some none
  | some property => (property.text? formats).map some

end EntityProperty

namespace Entry

def require (data : EntryData Json) (key : String) : Except String (EntityProperty Json) :=
  match data.get? key with
  | none => .error (reprStr key)
  | some property => .ok property

def parseDatetime (property : EntityProperty Json) : Except String DateTime :=
  formats.fromisoformat (property.str formats)

def parseTemplate : EntityProperty Json → Except String IndexTemplate
  | .json value => formats.templateOfJson value
  | _ => .error "1 validation error for IndexTemplate"

/-- `parse(value) if value is not None else None`. -/
def parseOptional {α : Type} (parse : EntityProperty Json → Except String α) :
    Option (EntityProperty Json) → Except String (Option α)
  | none => .ok none
  | some property => some <$> parse property

/-- The arguments of `IndexRegistryEntry(...)`, before pydantic looks at them. -/
structure Arguments (Json : Type) where
  indexName : EntityProperty Json
  vertical : EntityProperty Json
  scenarioId : EntityProperty Json
  templateId : EntityProperty Json
  templateVersion : EntityProperty Json
  dimensions : Int
  metric : EntityProperty Json
  embeddingModel : EntityProperty Json
  status : EntityProperty Json
  createdAt : DateTime
  lastVerifiedAt : Option DateTime
  documentCount : Option Int
  claimToken : Option (EntityProperty Json)
  claimedAt : Option DateTime
  lastErrorMessage : Option (EntityProperty Json)
  resolvedTemplate : Option IndexTemplate

def arguments (data : EntryData Json) : Except String (Arguments Json) := do
  return {
    indexName := ← require data "index_name"
    vertical := ← require data "vertical"
    scenarioId := ← require data "scenario_id"
    templateId := ← require data "template_id"
    templateVersion := ← require data "template_version"
    dimensions := ← (← require data "dimensions").int formats
    metric := ← require data "metric"
    embeddingModel := ← require data "embedding_model"
    status := ← require data "status"
    createdAt := ← parseDatetime formats (← require data "created_at")
    lastVerifiedAt := ← parseOptional (parseDatetime formats) (data.get? "last_verified_at")
    documentCount := ← parseOptional (EntityProperty.int formats) (data.get? "document_count")
    claimToken := data.get? "claim_token"
    claimedAt := ← parseOptional (parseDatetime formats) (data.get? "claimed_at")
    lastErrorMessage := data.get? "last_error_message"
    resolvedTemplate := ← parseOptional (parseTemplate formats) (data.get? "resolved_template_json") }

namespace Arguments

def validated (given : Arguments Json) : Option IndexRegistryEntry := do
  return {
    indexName := ← given.indexName.text? formats
    vertical := ← given.vertical.text? formats
    scenarioId := ← given.scenarioId.text? formats
    templateId := ← given.templateId.text? formats
    templateVersion := ← given.templateVersion.text? formats
    dimensions := given.dimensions
    metric := ← given.metric.text? formats
    embeddingModel := ← given.embeddingModel.text? formats
    status := ← given.status.status? formats
    createdAt := given.createdAt
    lastVerifiedAt := given.lastVerifiedAt
    documentCount := given.documentCount
    claimToken := ← EntityProperty.optionalText? formats given.claimToken
    claimedAt := given.claimedAt
    lastErrorMessage := ← EntityProperty.optionalText? formats given.lastErrorMessage
    resolvedTemplate := given.resolvedTemplate }

def rejections (given : Arguments Json) : Nat :=
  [(given.indexName.text? formats).isNone, (given.vertical.text? formats).isNone,
    (given.scenarioId.text? formats).isNone, (given.templateId.text? formats).isNone,
    (given.templateVersion.text? formats).isNone, (given.metric.text? formats).isNone,
    (given.embeddingModel.text? formats).isNone, (given.status.status? formats).isNone,
    (EntityProperty.optionalText? formats given.claimToken).isNone,
    (EntityProperty.optionalText? formats given.lastErrorMessage).isNone].count true

def entry (given : Arguments Json) : Except String IndexRegistryEntry :=
  match given.validated formats with
  | some entry => .ok entry
  | none =>
      let count := given.rejections formats
      .error (toString count ++ " validation error" ++ (if count = 1 then "" else "s") ++ " for IndexRegistryEntry")

end Arguments

end Entry

def entityToEntry (data : EntryData Json) : Except ProvisioningError IndexRegistryEntry :=
  match Entry.arguments formats data >>= Entry.Arguments.entry formats with
  | .ok entry => .ok entry
  | .error text => .error ⟨((data.get? "index_name").map (EntityProperty.str formats)).getD "",
      "corrupt table entity: " ++ text, indexRegistryUnavailable⟩

theorem parseOptional_map {α : Type} (parse : EntityProperty Json → Except String α) (write : α → EntityProperty Json)
    (reads : ∀ value, parse (write value) = .ok value) (value : Option α) :
    Entry.parseOptional parse (value.map write) = .ok value := by
  cases value with
  | none => rfl
  | some value => simp [Entry.parseOptional, reads, Functor.map, Except.map]

theorem optionalText?_map (value : Option String) :
    EntityProperty.optionalText? formats (value.map .text) = some value := by
  cases value <;> rfl

theorem parseDatetime_isoformat (time : DateTime) :
    Entry.parseDatetime formats (.text (formats.isoformat time)) = .ok time := formats.fromisoformat_isoformat time

def writtenArguments (entry : IndexRegistryEntry) : Entry.Arguments Json where
  indexName := .text entry.indexName
  vertical := .text entry.vertical
  scenarioId := .text entry.scenarioId
  templateId := .text entry.templateId
  templateVersion := .text entry.templateVersion
  dimensions := entry.dimensions
  metric := .text entry.metric
  embeddingModel := .text entry.embeddingModel
  status := .text entry.status.value
  createdAt := entry.createdAt
  lastVerifiedAt := entry.lastVerifiedAt
  documentCount := entry.documentCount
  claimToken := entry.claimToken.map .text
  claimedAt := entry.claimedAt
  lastErrorMessage := entry.lastErrorMessage.map .text
  resolvedTemplate := entry.resolvedTemplate

theorem arguments_data (entry : IndexRegistryEntry) :
    Entry.arguments formats (entryToEntityData formats entry) = .ok (writtenArguments entry) := by
  have verified := parseOptional_map _ _ (parseDatetime_isoformat formats) entry.lastVerifiedAt
  have counted := parseOptional_map (EntityProperty.int formats) .number (fun _ => rfl) entry.documentCount
  have claimed := parseOptional_map _ _ (parseDatetime_isoformat formats) entry.claimedAt
  have resolved := parseOptional_map (Entry.parseTemplate formats) (fun template => .json (formats.templateJson template))
    formats.templateOfJson_templateJson entry.resolvedTemplate
  simp [Entry.arguments, Entry.require, entryToEntityData, EntityProperty.int, parseDatetime_isoformat, verified,
    counted, claimed, resolved, Bind.bind, Except.bind, pure, Except.pure, writtenArguments]

theorem entry_writtenArguments (entry : IndexRegistryEntry) : (writtenArguments entry).entry formats = .ok entry := by
  have status : EntityProperty.status? formats (.text entry.status.value) = some entry.status :=
    IndexStatus.ofValue?_value entry.status
  simp [Entry.Arguments.entry, Entry.Arguments.validated, writtenArguments, EntityProperty.text?, status,
    optionalText?_map]

theorem entityToEntry_data (entry : IndexRegistryEntry) :
    entityToEntry formats (entryToEntityData formats entry) = .ok entry := by
  have decoded : (Entry.arguments formats (entryToEntityData formats entry) >>= Entry.Arguments.entry formats) =
      .ok entry := by
    rw [arguments_data]
    exact entry_writtenArguments formats entry
  simp [entityToEntry, decoded]

def entryCodec : EntityCodec (EntryData Json) where
  entryToEntityData := entryToEntityData formats
  entityToEntry := entityToEntry formats
  roundTrips := entityToEntry_data formats

-- A write carries the two keys beside the data; what is read back is the data without them and without what
-- the service adds.

section RealTableBackend

variable {Property : Type} (text : String → Property) (str : Property → String)

inductive UpdateMode where
  | merge
  | replace

-- A merge would keep every property that the new entity does not name.
def UpdateMode.apply (stored entity : Dict String Property) : UpdateMode → Dict String Property
  | merge => stored.update entity.entries
  | replace => entity

def systemNames : List String := ["PartitionKey", "RowKey", "Timestamp", "etag"]

def keyed (partitionKey rowKey : String) (data : Dict String Property) : Dict String Property :=
  ((Dict.empty.insert "PartitionKey" (text partitionKey)).insert "RowKey" (text rowKey)).update data.entries

/-- The entity that an accepted `upsert_entity` leaves: a create where there was none, else an update. -/
def upserted (stored : Option (Dict String Property)) (partitionKey rowKey : String) (data : Dict String Property)
    (timestamp : Property) : Dict String Property :=
  let entity := keyed text partitionKey rowKey data
  let kept := match stored with
    | none => entity
    | some held => UpdateMode.replace.apply held entity
  kept.insert "Timestamp" timestamp

def toRecord (entity : Dict String Property) (etag : String) : TableEntityRecord (Dict String Property) where
  partitionKey := ((entity.get? "PartitionKey").map str).getD ""
  rowKey := ((entity.get? "RowKey").map str).getD ""
  data := entity.filterKeys (· ∉ systemNames)
  etag := etag

def Plain (data : Dict String Property) : Prop := ∀ name ∈ systemNames, data.get? name = none

variable {text str} {data : Dict String Property} (plain : Plain data)

include plain

theorem entries_keyed (partitionKey rowKey : String) :
    (keyed text partitionKey rowKey data).entries =
      ("PartitionKey", text partitionKey) :: ("RowKey", text rowKey) :: data.entries := by
  have fresh : ∀ pair ∈ data.entries,
      pair.1 ∉ ((Dict.empty.insert "PartitionKey" (text partitionKey)).insert "RowKey" (text rowKey)).keys := by
    intro pair member
    have held : pair.1 ∈ data.keys := List.mem_map_of_mem member
    have other (name : String) (system : name ∈ systemNames) : pair.1 ≠ name :=
      fun same => Dict.not_mem_keys (plain name system) (same ▸ held)
    have keys : ((Dict.empty.insert "PartitionKey" (text partitionKey)).insert "RowKey" (text rowKey)).keys =
        ["PartitionKey", "RowKey"] := rfl
    simp [keys, other "PartitionKey" (by decide), other "RowKey" (by decide)]
  exact Dict.entries_update_of_fresh _ data.nodup fresh

theorem entries_upserted (stored : Option (Dict String Property)) (partitionKey rowKey : String)
    (timestamp : Property) :
    (upserted text stored partitionKey rowKey data timestamp).entries =
      ("PartitionKey", text partitionKey) :: ("RowKey", text rowKey) :: data.entries ++ [("Timestamp", timestamp)] := by
  have whole : upserted text stored partitionKey rowKey data timestamp =
      (keyed text partitionKey rowKey data).insert "Timestamp" timestamp := by
    cases stored <;> rfl
  have unstamped : "Timestamp" ∉ (keyed text partitionKey rowKey data).keys := by
    have absent := Dict.not_mem_keys (plain "Timestamp" (by decide))
    rw [Dict.keys, entries_keyed plain]
    simpa [Dict.keys] using absent
  rw [whole, Dict.entries_insert_of_absent unstamped, entries_keyed plain]

theorem data_upserted (stored : Option (Dict String Property)) (partitionKey rowKey : String) (timestamp : Property) :
    (upserted text stored partitionKey rowKey data timestamp).filterKeys (· ∉ systemNames) = data := by
  apply Dict.entries_injective
  have ordinary : ∀ pair ∈ data.entries, decide (pair.1 ∉ systemNames) = true := by
    intro pair member
    have held : pair.1 ∈ data.keys := List.mem_map_of_mem member
    exact decide_eq_true fun system => Dict.not_mem_keys (plain pair.1 system) held
  have kept := List.filter_eq_self.mpr ordinary
  calc ((upserted text stored partitionKey rowKey data timestamp).filterKeys (· ∉ systemNames)).entries
      = (upserted text stored partitionKey rowKey data timestamp).entries.filter
          (fun pair => decide (pair.1 ∉ systemNames)) := rfl
    _ = data.entries.filter (fun pair => decide (pair.1 ∉ systemNames)) ++ [] := by
      rw [entries_upserted plain, List.filter_append]
      rfl
    _ = data.entries := by rw [List.append_nil, kept]

theorem toRecord_upserted (reads : ∀ value, str (text value) = value) (stored : Option (Dict String Property))
    (partitionKey rowKey : String) (timestamp : Property) (etag : String) :
    toRecord str (upserted text stored partitionKey rowKey data timestamp) etag =
      ⟨partitionKey, rowKey, data, etag⟩ := by
  rw [toRecord, data_upserted plain]
  simp [Dict.get?, entries_upserted plain, reads]

end RealTableBackend

theorem plain_entryToEntityData (entry : IndexRegistryEntry) : Plain (entryToEntityData formats entry) := by
  simp [Plain, systemNames, entryToEntityData]

end Vestibule.Provisioning
