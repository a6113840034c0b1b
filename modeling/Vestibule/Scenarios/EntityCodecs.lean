import Vestibule.Provisioning.Codec
import Vestibule.Scenarios.TableStorage

set_option autoImplicit false

namespace Vestibule.Scenarios

open Library
open Provisioning (IndexRegistryEntry EntryFormats EntryData entryToEntityData entityToEntry EntityProperty
  TableEntityRecord Plain systemNames toRecord upserted toRecord_upserted)

variable {EntryJson Json : Type}

theorem plain_scenarioToEntityData (formats : Formats Json) (scenario : Scenario) :
    Plain (scenarioToEntityData formats scenario) := by
  cases template : scenario.indexTemplateId with
  | none => simp [Plain, systemNames, scenarioToEntityData, template]
  | some templateId => simp [Plain, systemNames, scenarioToEntityData, template]

structure RoundTrips (entryFormats : EntryFormats EntryJson) (formats : Formats Json) : Prop where
  entryRead : ∀ (entry : IndexRegistryEntry) (record : TableEntityRecord (EntryData EntryJson)),
    record.data = entryToEntityData entryFormats entry → entityToEntry entryFormats record.data = .ok entry
  scenarioRead : ∀ (scenario : Scenario) (record : TableEntityRecord (EntityData Json)),
    record.data = scenarioToEntityData formats scenario → entityToScenario formats record.data = .ok scenario
  entryReplaced : ∀ (stored : Option (EntryData EntryJson)) (partitionKey rowKey : String)
    (later : IndexRegistryEntry) (timestamp : EntityProperty EntryJson) (etag : String),
    toRecord (EntityProperty.str entryFormats)
      (upserted .text stored partitionKey rowKey (entryToEntityData entryFormats later) timestamp) etag =
      ⟨partitionKey, rowKey, entryToEntityData entryFormats later, etag⟩
  scenarioReplaced : ∀ (stored : Option (EntityData Json)) (partitionKey rowKey : String) (later : Scenario)
    (timestamp : Property Json) (etag : String),
    toRecord Property.str
      (upserted .text stored partitionKey rowKey (scenarioToEntityData formats later) timestamp) etag =
      ⟨partitionKey, rowKey, scenarioToEntityData formats later, etag⟩

theorem entity_codecs_round_trip (entryFormats : EntryFormats EntryJson) (formats : Formats Json) :
    RoundTrips entryFormats formats where
  entryRead entry record holds := by
    rw [holds]
    exact Provisioning.entityToEntry_data entryFormats entry
  scenarioRead scenario record holds := by
    rw [holds]
    exact entityToScenario_data formats scenario
  entryReplaced stored partitionKey rowKey later :=
    toRecord_upserted (Provisioning.plain_entryToEntityData entryFormats later) (fun _ => rfl) stored partitionKey rowKey
  scenarioReplaced stored partitionKey rowKey later :=
    toRecord_upserted (plain_scenarioToEntityData formats later) (fun _ => rfl) stored partitionKey rowKey

end Vestibule.Scenarios
