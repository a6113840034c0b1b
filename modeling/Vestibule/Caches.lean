import Vestibule.Library.TtlCache
import Vestibule.Provisioning.Backend
import Vestibule.Scenarios.Laws

set_option autoImplicit false

namespace Vestibule.Caches

open Library Library.TtlCache

-- `CachedIndexRegistry` and `CachedScenarioStore` are the same cache in front of two ports. Reads are the
-- keys of a port, everything that may change the wrapped store is a call.

section IndexRegistry

open Provisioning

inductive RegistryKey where
  | get (indexName : String)
  | listByVertical (vertical : String)

def RegistryKey.Val : RegistryKey → Type
  | get _ => Option IndexRegistryEntry
  | listByVertical _ => List IndexRegistryEntry

inductive RegistryWrite where
  | register (entry : IndexRegistryEntry)
  | reclaim (indexName : String) (observed newEntry : IndexRegistryEntry)
  | touchVerified (indexName : String)
  | markReady (indexName : String) (expectedClaimToken : Option String)
  | markFailed (indexName reason : String) (expectedClaimToken : Option String)
  | markRetired (indexName : String)

def registryPort : Port where
  Key := RegistryKey
  Val := RegistryKey.Val
  Call := RegistryWrite
  Res _ := IndexRegistryEntry
  Err := ProvisioningError

structure RegistryCache (T : Type) where
  byName : Dict String (Option IndexRegistryEntry × T) := .empty
  byVertical : Dict String (List IndexRegistryEntry × T) := .empty

namespace RegistryCache

variable {T : Type}

def peek (cache : RegistryCache T) : (key : RegistryKey) → Option (key.Val × T)
  | .get indexName => cache.byName.get? indexName
  | .listByVertical vertical => cache.byVertical.get? vertical

def fill (cache : RegistryCache T) : (key : RegistryKey) → key.Val × T → RegistryCache T
  | .get indexName, stamped => { cache with byName := cache.byName.insert indexName stamped }
  | .listByVertical vertical, stamped => { cache with byVertical := cache.byVertical.insert vertical stamped }

end RegistryCache

def registryMemo (T : Type) : Memo registryPort T (RegistryCache T) where
  peek := RegistryCache.peek
  fill := RegistryCache.fill
  clear _ := {}
  peek_fill cache key stamped other found cached := by
    cases key with
    | get indexName =>
      cases other with
      | get name =>
        obtain ⟨rfl, rfl⟩ | before := Dict.get?_insert_cases cached
        next => exact .inl rfl
        next => exact .inr before
      | listByVertical => exact .inr cached
    | listByVertical vertical =>
      cases other with
      | get => exact .inr cached
      | listByVertical name =>
        obtain ⟨rfl, rfl⟩ | before := Dict.get?_insert_cases cached
        next => exact .inl rfl
        next => exact .inr before
  peek_clear cache key := by cases key <;> rfl

def inMemoryRegistry : Store registryPort DateTime InMemoryIndexRegistry where
  read
    | .get indexName, registry => .ok (registry.get indexName)
    | .listByVertical vertical, registry => .ok (registry.listByVertical vertical)
  write now
    | .register entry, registry => registry.perform now (.register entry)
    | .reclaim indexName observed newEntry, registry => registry.perform now (.reclaim indexName observed newEntry)
    | .touchVerified indexName, registry => registry.perform now (.touchVerified indexName)
    | .markReady indexName expected, registry => registry.perform now (.markReady indexName expected)
    | .markFailed indexName reason expected, registry => registry.perform now (.markFailed indexName reason expected)
    | .markRetired indexName, registry => registry.perform now (.markRetired indexName)

theorem inMemoryRegistry_atomic : inMemoryRegistry.Atomic := by
  intro now call registry e rejected
  cases call <;> exact (registry.perform_error now _ e rejected).1

end IndexRegistry

section ScenarioStore

open Scenarios

inductive ScenarioKey where
  | get (scenarioId : String)
  | getByVertical (vertical : String)
  | listAll (includeDisabled : Bool)

def ScenarioKey.Val : ScenarioKey → Type
  | get _ => Option Scenarios.Scenario
  | getByVertical _ => Option Scenarios.Scenario
  | listAll _ => List Scenarios.Scenario

def scenarioPort : Port where
  Key := ScenarioKey
  Val := ScenarioKey.Val
  Call := StoreCall
  Res := StoreCall.Value
  Err := Scenarios.Raised

structure ScenarioCache (T : Type) where
  byId : Dict String (Option Scenarios.Scenario × T) := .empty
  byVertical : Dict String (Option Scenarios.Scenario × T) := .empty
  listCache : Dict Bool (List Scenarios.Scenario × T) := .empty

namespace ScenarioCache

variable {T : Type}

def peek (cache : ScenarioCache T) : (key : ScenarioKey) → Option (key.Val × T)
  | .get scenarioId => cache.byId.get? scenarioId
  | .getByVertical vertical => cache.byVertical.get? vertical
  | .listAll includeDisabled => cache.listCache.get? includeDisabled

def fill (cache : ScenarioCache T) : (key : ScenarioKey) → key.Val × T → ScenarioCache T
  | .get scenarioId, stamped => { cache with byId := cache.byId.insert scenarioId stamped }
  | .getByVertical vertical, stamped => { cache with byVertical := cache.byVertical.insert vertical stamped }
  | .listAll includeDisabled, stamped => { cache with listCache := cache.listCache.insert includeDisabled stamped }

end ScenarioCache

def scenarioMemo (T : Type) : Memo scenarioPort T (ScenarioCache T) where
  peek := ScenarioCache.peek
  fill := ScenarioCache.fill
  clear _ := {}
  peek_fill cache key stamped other found cached := by
    cases key with
    | get scenarioId =>
      cases other with
      | get other =>
        obtain ⟨rfl, rfl⟩ | before := Dict.get?_insert_cases cached
        next => exact .inl rfl
        next => exact .inr before
      | _ => exact .inr cached
    | getByVertical vertical =>
      cases other with
      | getByVertical other =>
        obtain ⟨rfl, rfl⟩ | before := Dict.get?_insert_cases cached
        next => exact .inl rfl
        next => exact .inr before
      | _ => exact .inr cached
    | listAll includeDisabled =>
      cases other with
      | listAll other =>
        obtain ⟨rfl, rfl⟩ | before := Dict.get?_insert_cases cached
        next => exact .inl rfl
        next => exact .inr before
      | _ => exact .inr cached
  peek_clear cache key := by cases key <;> rfl

end ScenarioStore

inductive Decorator where
  | indexRegistry
  | scenarioStore

namespace Decorator

def port : Decorator → Port
  | indexRegistry => registryPort
  | scenarioStore => scenarioPort

def Cache : Decorator → Type → Type
  | indexRegistry => RegistryCache
  | scenarioStore => ScenarioCache

def memo (T : Type) : (decorator : Decorator) → Memo decorator.port T (decorator.Cache T)
  | indexRegistry => registryMemo T
  | scenarioStore => scenarioMemo T

def emptyCache (T : Type) : (decorator : Decorator) → decorator.Cache T
  | indexRegistry => ({} : RegistryCache T)
  | scenarioStore => ({} : ScenarioCache T)

theorem peek_emptyCache (decorator : Decorator) (T : Type) (key : decorator.port.Key) :
    (decorator.memo T).peek (decorator.emptyCache T) key = none := by
  cases decorator <;> cases key <;> rfl

end Decorator

section Transparency

variable {T : Type} [Sub T] [LE T] [DecidableLE T] (ttlSeconds : T)

theorem caches_transparent :
    (∀ (turns : List (Turn registryPort DateTime T)) (registry : Provisioning.InMemoryIndexRegistry),
      (runDecorated inMemoryRegistry (registryMemo T) ttlSeconds turns (registry, {})).1 =
        (runDirect inMemoryRegistry turns registry).1) ∧
    ∀ (W σ : Type) (store : Store scenarioPort W σ), store.Atomic → ∀ (turns : List (Turn scenarioPort W T)) (s : σ),
      (runDecorated store (scenarioMemo T) ttlSeconds turns (s, {})).1 = (runDirect store turns s).1 := by
  constructor
  next =>
    intro turns registry
    exact (transparent_run ttlSeconds inMemoryRegistry_atomic turns (coherent_clear registry {})).1
  next =>
    intro W σ store atomic turns s
    exact (transparent_run ttlSeconds atomic turns (coherent_clear s {})).1

end Transparency

section TableStorage

open Scenarios

variable {Json : Type} (formats : Formats Json) (etags : Nat → String)

def ScenarioKey.program : (key : ScenarioKey) → StorePy Json key.Val
  | .get scenarioId => TableStorageScenarioStore.get formats scenarioId
  | .getByVertical vertical => TableStorageScenarioStore.getByVertical formats vertical
  | .listAll includeDisabled => TableStorageScenarioStore.listAll formats includeDisabled

-- Queries list what they find in the order in which it was first written.
def tableScenarioStore : Store scenarioPort (Nat → StoreWorld Json) (ScenarioTable Json) where
  read key table := (Prog.run (idealStore etags) (ScenarioKey.program formats key).run (fun _ => {}) table).1
  write oracle call table := StoreTurn.run formats etags ⟨call, oracle⟩ table

theorem upsert_atomic (scenario : Scenarios.Scenario) (oracle : Nat → StoreWorld Json) (table : ScenarioTable Json)
    {e : Scenarios.Raised} (rejected : (StoreTurn.run formats etags ⟨.upsert scenario, oracle⟩ table).1 = .error e) :
    (StoreTurn.run formats etags ⟨.upsert scenario, oracle⟩ table).2 = table := by
  have asks : StoreTurn.run formats etags ⟨.upsert scenario, oracle⟩ table =
      Prog.run (idealStore etags)
        (submission formats scenario (table.entity scenario.vertical scenario.scenarioId)).run
        (fun i => oracle (i + 1)) table := by
    change Prog.run (idealStore etags) (TableStorageScenarioStore.upsert formats scenario).run oracle table = _
    rw [upsert_run]
    rfl
  rw [asks] at rejected ⊢
  cases dated : TableStorageScenarioStore.createdAtOf formats scenario
      (table.entity scenario.vertical scenario.scenarioId) with
  | error e =>
    rw [submission, dated]
    rfl
  | ok createdAt =>
    rw [submission_of_dated formats dated] at rejected
    simp only [Prog.run, idealStore, upsert_unraced] at rejected
    cases rejected

theorem tableScenarioStore_atomic : (tableScenarioStore formats etags).Atomic := by
  intro oracle call table e rejected
  cases call with
  | upsert scenario => exact upsert_atomic formats etags scenario oracle table rejected
  | delete scenarioId =>
    obtain ⟨_, same⟩ | ⟨_, _, same⟩ := delete_turn formats etags table scenarioId oracle
    next =>
      simp only [tableScenarioStore, same] at rejected
      cases rejected
    next =>
      simp only [tableScenarioStore, same] at rejected
      cases rejected

-- A miss that is cached, an upsert, a miss and a hit.
def editedTurns : List (Turn scenarioPort (Nat → StoreWorld JsonObject) Int) :=
  [.read (.get "policies"), .write (.upsert (Scenarios.sampleScenario "hr" hr_nonempty)), .read (.get "policies"),
    .read (.get "policies")].map fun request => (request, fun now => (fun _ => listedAsFound, now))

theorem caches_transparent_over_table_storage :
    (tableScenarioStore documentFormats toString).Atomic ∧
    (runDecorated (tableScenarioStore documentFormats toString) (scenarioMemo Int) 60 editedTurns ({}, {})).1 =
      (runDirect (tableScenarioStore documentFormats toString) editedTurns {}).1 :=
  ⟨tableScenarioStore_atomic _ _,
    (caches_transparent (60 : Int)).2 _ _ _ (tableScenarioStore_atomic _ _) editedTurns {}⟩

end TableStorage

section Coherence

variable {W σ T ι : Type} [Sub T] [LE T] [DecidableLE T] [DecidableEq ι]

def FreshReads (decorator : Decorator) (store : Store decorator.port W σ) (ttlSeconds : T)
    (requests : ι → Request decorator.port) (s : σ) (first rest : List (ι × (W × T))) : Prop :=
  let before := overlapping store (decorator.memo T) ttlSeconds requests (s, decorator.emptyCache T) first
  let after := overlapping store (decorator.memo T) ttlSeconds requests (s, decorator.emptyCache T) (first ++ rest)
  ∀ i call, requests i = .write call → (∃ result, before.threads i = .ret (.ok result)) →
    ∀ j, Chronicle.own j before.state.2 = [] → ∀ value, after.threads j = .ret (.ok value) →
      SeenSince after.state.2 i ((requests j).Answered store value)

theorem fresh_unless_filled_late (decorator : Decorator) (store : Store decorator.port W σ) (ttlSeconds : T)
    (requests : ι → Request decorator.port) (s : σ) (first rest : List (ι × (W × T)))
    (conforms : Pool.ConformsAs (Chronicle.recorded (decorated store (decorator.memo T) ttlSeconds))
      (NoStaleFill store) (first ++ rest) (calls requests (s, decorator.emptyCache T))) :
    FreshReads decorator store ttlSeconds requests s first rest := by
  have nothing := decorator.peek_emptyCache T
  exact fresh_run ttlSeconds requests (s, decorator.emptyCache T) nothing first rest conforms

end Coherence

section Samples

open Provisioning

def registering : Fin 3 → Request registryPort
  | 0 => .read (.get "policies")
  | 1 => .write (.register (sampleEntry "hr" "a"))
  | 2 => .read (.get "policies")

def inTurn (steps : List (Fin 3)) : List (Fin 3 × (DateTime × Int)) := steps.map fun i => (i, (0, 0))

theorem fresh_when_filled_in_time :
    Pool.ConformsAs (Chronicle.recorded (decorated inMemoryRegistry (registryMemo Int) 10))
      (NoStaleFill inMemoryRegistry) (inTurn [0, 0, 0, 1, 1] ++ inTurn [2, 2, 2])
      (calls registering ({}, ({} : RegistryCache Int))) ∧
    FreshReads .indexRegistry inMemoryRegistry 10 registering {} (inTurn [0, 0, 0, 1, 1]) (inTurn [2, 2, 2]) := by
  have conforms : Pool.ConformsAs (Chronicle.recorded (decorated inMemoryRegistry (registryMemo Int) 10))
      (NoStaleFill inMemoryRegistry) (inTurn [0, 0, 0, 1, 1] ++ inTurn [2, 2, 2])
      (calls registering ({}, ({} : RegistryCache Int))) := by
    refine ⟨?_, ?_, ?_, ?_, ?_, ?_, ?_, ?_, trivial⟩
    case refine_5 =>
      -- The only step that drops the cache: nobody else is between a read and its fill.
      intro _ j key value due
      match j with
      | 0 => cases due
      | 1 => cases due
      | 2 => cases due
    all_goals
      intro drops
      cases drops
  exact ⟨conforms, fresh_unless_filled_late .indexRegistry inMemoryRegistry 10 registering {} _ _ conforms⟩

-- The first reader finds no entry, and caches that after the entry was registered and the cache dropped.
theorem late_fill_hides_entry :
    ¬ FreshReads .indexRegistry inMemoryRegistry 10 registering {} (inTurn [0, 0, 1, 1, 0]) (inTurn [2]) := by
  intro fresh
  have seen := fresh 1 (.register (sampleEntry "hr" "a")) rfl ⟨_, rfl⟩ 2 rfl none rfl
  rcases seenSince_cons.mp seen with seen | ⟨answered, _⟩
  next =>
    rcases seenSince_cons.mp seen with seen | ⟨answered, _⟩
    next =>
      rcases seenSince_cons.mp seen with seen | ⟨answered, _⟩
      next =>
        -- What is left is older than the write.
        obtain ⟨write, member, writer, _⟩ := exists_write_of_seenSince seen
        rcases List.mem_cons.mp member with rfl | member
        next => cases writer
        next =>
          obtain rfl := List.mem_singleton.mp member
          cases writer
      next => cases answered
    next => cases answered
  next => cases answered

end Samples

end Vestibule.Caches
