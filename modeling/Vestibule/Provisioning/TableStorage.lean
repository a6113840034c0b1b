import Vestibule.Library.Program
import Vestibule.Provisioning.Registry

set_option autoImplicit false

namespace Vestibule.Provisioning

open Library

-- An entry is one entity: its vertical is the partition key, its index name the row key. A method is a few
-- backend calls, and other processes may act between any two of them.

structure EntityCodec (Data : Type) where
  entryToEntityData : IndexRegistryEntry → Data
  entityToEntry : Data → Except ProvisioningError IndexRegistryEntry
  roundTrips : ∀ entry, entityToEntry (entryToEntityData entry) = .ok entry

structure TableEntityRecord (Data : Type) where
  partitionKey : String
  rowKey : String
  data : Data
  etag : String

structure HttpResponseError where
  statusCode : Option Int
  text : String
  deriving DecidableEq

def conflictStatusCodes : List Int := [409, 412]

def mapStatus (e : HttpResponseError) : String :=
  if e.statusCode.any (· ∈ conflictStatusCodes) then indexProvisionConflict else indexRegistryUnavailable

inductive TableOp (Data : Type) where
  | getEntity (partitionKey rowKey : String)
  | query (rowKey : String)
  | upsertEntity (partitionKey rowKey : String) (data : Data) (etag : Option String)
  | now

def TableOp.Res {Data : Type} : TableOp Data → Type
  | getEntity _ _ => Option (TableEntityRecord Data)
  | query _ => List (TableEntityRecord Data)
  | upsertEntity _ _ _ _ => Except HttpResponseError String
  | now => DateTime

abbrev TableEffects (Data : Type) : Signature := ⟨TableOp Data, TableOp.Res⟩

abbrev TablePy (Data α : Type) := ExceptT ProvisioningError (Prog (TableEffects Data)) α

namespace TablePy

variable {Data : Type}

def ofExcept {α : Type} (result : Except ProvisioningError α) : TablePy Data α := ExceptT.mk (.ret result)

def getEntity (partitionKey rowKey : String) : TablePy Data (Option (TableEntityRecord Data)) :=
  ExceptT.mk (.op (.getEntity partitionKey rowKey) fun found => .ret (.ok found))

def query (rowKey : String) : TablePy Data (List (TableEntityRecord Data)) :=
  ExceptT.mk (.op (.query rowKey) fun found => .ret (.ok found))

-- Conflicts are never retried, so one failed attempt is the last one.
def upsertEntity (partitionKey rowKey : String) (data : Data) (etag : Option String) : TablePy Data String :=
  ExceptT.mk (.op (.upsertEntity partitionKey rowKey data etag) fun answer =>
    .ret (answer.mapError fun e => ⟨"", e.text, mapStatus e⟩))

def now : TablePy Data DateTime := ExceptT.mk (.op .now fun time => .ret (.ok time))

end TablePy

namespace TableStorageIndexRegistry

variable {Data : Type} (codec : EntityCodec Data)

def get (indexName : String) : TablePy Data (Option IndexRegistryEntry) := do
  let found ← TablePy.query indexName
  match found with
  | [] => pure none
  | record :: _ => some <$> TablePy.ofExcept (codec.entityToEntry record.data)

def register (entry : IndexRegistryEntry) : TablePy Data IndexRegistryEntry :=
  tryCatch (do
    let _ ← TablePy.upsertEntity entry.vertical entry.indexName (codec.entryToEntityData entry) none
    return entry) fun e =>
      if e.errorCode ≠ indexProvisionConflict then throw e
      else do
        let found ← TablePy.getEntity entry.vertical entry.indexName
        match found with
        | none => throw e
        | some record => TablePy.ofExcept (codec.entityToEntry record.data)

def reclaim (indexName : String) (observed newEntry : IndexRegistryEntry) : TablePy Data IndexRegistryEntry := do
  let found ← TablePy.getEntity observed.vertical indexName
  match found with
  | none => throw (staleSnapshot indexName)
  | some record =>
      let stored ← TablePy.ofExcept (codec.entityToEntry record.data)
      if stored ≠ observed then throw (staleSnapshot indexName)
      else do
        let _ ← TablePy.upsertEntity newEntry.vertical indexName (codec.entryToEntityData newEntry) (some record.etag)
        return newEntry

def requireRecord (indexName : String) : TablePy Data (TableEntityRecord Data) := do
  let found ← TablePy.query indexName
  match found with
  | [] => throw (noEntry indexName)
  | record :: _ => pure record

-- The body the four methods below share; `revision` reads the clock where the method does.
def amend (indexName : String) (expectedClaimToken : Option String)
    (revision : TablePy Data (IndexRegistryEntry → IndexRegistryEntry)) : TablePy Data IndexRegistryEntry := do
  let record ← requireRecord indexName
  let entry ← TablePy.ofExcept (codec.entityToEntry record.data)
  TablePy.ofExcept (checkClaimToken entry expectedClaimToken)
  let revise ← revision
  let _ ← TablePy.upsertEntity entry.vertical indexName (codec.entryToEntityData (revise entry)) (some record.etag)
  return revise entry

def atTime (revise : DateTime → IndexRegistryEntry → IndexRegistryEntry) :
    TablePy Data (IndexRegistryEntry → IndexRegistryEntry) := do
  let time ← TablePy.now
  return revise time

def touchVerified (indexName : String) := amend codec indexName none (atTime fun now => (·.verified now))

def markReady (indexName : String) (expectedClaimToken : Option String) :=
  amend codec indexName expectedClaimToken (atTime fun now => (·.readied now))

def markFailed (indexName reason : String) (expectedClaimToken : Option String) :=
  amend codec indexName expectedClaimToken (pure (·.failedWith reason))

def markRetired (indexName : String) := amend codec indexName none (pure (·.retired))

def perform : (call : RegistryCall) → TablePy Data call.Value
  | .get indexName => get codec indexName
  | .register entry => register codec entry
  | .reclaim indexName observed newEntry => reclaim codec indexName observed newEntry
  | .touchVerified indexName => touchVerified codec indexName
  | .markReady indexName expected => markReady codec indexName expected
  | .markFailed indexName reason expected => markFailed codec indexName reason expected
  | .markRetired indexName => markRetired codec indexName

end TableStorageIndexRegistry

-- A create fails with 409 where the key is taken, an update with 412 where the ETag is not the current one,
-- and every write installs an ETag that was never used before.

structure Row (Data : Type) where
  data : Data
  etag : String

structure Table (Data : Type) where
  rows : Dict (String × String) (Row Data) := .empty
  writes : Nat := 0

/-- The clock, and the order in which a query lists what it found. -/
structure TableWorld (Data : Type) where
  now : DateTime := 0
  arrange : List (TableEntityRecord Data) → List (TableEntityRecord Data) := id
  complete : ∀ found, (arrange found).Perm found := by exact fun _ => .rfl

namespace Table

variable {Data : Type} (etags : Nat → String)

def row (table : Table Data) (key : String × String) : Option (Row Data) := table.rows.get? key

def recordAt (key : String × String) (row : Row Data) : TableEntityRecord Data := ⟨key.1, key.2, row.data, row.etag⟩

def entity (table : Table Data) (partitionKey rowKey : String) : Option (TableEntityRecord Data) :=
  (table.row (partitionKey, rowKey)).map (recordAt (partitionKey, rowKey))

def matching (table : Table Data) (rowKey : String) : List (TableEntityRecord Data) :=
  (table.rows.entries.filter (·.1.2 = rowKey)).map fun entry => recordAt entry.1 entry.2

def install (table : Table Data) (key : String × String) (data : Data) :
    Except HttpResponseError String × Table Data :=
  (.ok (etags table.writes), ⟨table.rows.insert key ⟨data, etags table.writes⟩, table.writes + 1⟩)

def upsert (table : Table Data) (key : String × String) (data : Data) (etag : Option String) :
    Except HttpResponseError String × Table Data :=
  match table.row key, etag with
  | none, none => table.install etags key data
  | some _, none => (.error ⟨some 409, "The specified entity already exists."⟩, table)
  | none, some _ => (.error ⟨some 404, "The specified resource does not exist."⟩, table)
  | some row, some etag =>
      if row.etag = etag then table.install etags key data
      else (.error ⟨some 412, "The update condition specified in the request was not satisfied."⟩, table)

variable {etags} (table : Table Data) (key : String × String) (data : Data)

@[simp]
theorem row_install (other : String × String) :
    (table.install etags key data).2.row other =
      if other = key then some ⟨data, etags table.writes⟩ else table.row other :=
  Dict.get?_insert table.rows key other _

theorem upsert_create (absent : table.row key = none) :
    table.upsert etags key data none = table.install etags key data := by
  simp [upsert, absent]

theorem upsert_taken {row : Row Data} (present : table.row key = some row) :
    table.upsert etags key data none = (.error ⟨some 409, "The specified entity already exists."⟩, table) := by
  simp [upsert, present]

theorem upsert_current {row : Row Data} (present : table.row key = some row) :
    table.upsert etags key data (some row.etag) = table.install etags key data := by
  simp [upsert, present]

theorem upsert_stale {row : Row Data} {etag : String} (present : table.row key = some row)
    (changed : row.etag ≠ etag) :
    table.upsert etags key data (some etag) =
      (.error ⟨some 412, "The update condition specified in the request was not satisfied."⟩, table) := by
  simp [upsert, present, changed]

theorem upsert_cases (etags : Nat → String) (etag : Option String) :
    (∃ e, table.upsert etags key data etag = (.error e, table)) ∨
      table.upsert etags key data etag = table.install etags key data := by
  cases found : table.row key with
  | none => cases etag <;> simp [upsert, found]
  | some row =>
    cases etag with
    | none => simp [upsert, found]
    | some etag =>
      by_cases current : row.etag = etag
      next => simp [upsert, found, current]
      next => simp [upsert, found, current]

theorem mem_matching {rowKey : String} {record : TableEntityRecord Data} :
    record ∈ table.matching rowKey ↔
      ∃ key row, table.row key = some row ∧ key.2 = rowKey ∧ record = recordAt key row := by
  simp only [matching, List.mem_map, List.mem_filter, decide_eq_true_eq, Prod.exists]
  constructor
  next =>
    rintro ⟨partition, rowName, row, ⟨member, rfl⟩, rfl⟩
    exact ⟨partition, rowName, row, (Dict.get?_eq_some ..).mpr member, rfl, rfl⟩
  next =>
    rintro ⟨partition, rowName, row, found, rfl, rfl⟩
    exact ⟨partition, rowName, row, ⟨(Dict.get?_eq_some ..).mp found, rfl⟩, rfl⟩

end Table

section Query

variable {Data : Type} {table : Table Data} {w : TableWorld Data} {indexName : String}

theorem absent_of_query_nil (empty : w.arrange (table.matching indexName) = []) (vertical : String) :
    table.row (vertical, indexName) = none := by
  have perm := w.complete (table.matching indexName)
  rw [empty] at perm
  by_contra present
  obtain ⟨row, present⟩ := Option.ne_none_iff_exists'.mp present
  have member := table.mem_matching.mpr ⟨_, row, present, rfl, rfl⟩
  simp [perm.symm.eq_nil] at member

theorem present_of_query_cons {record : TableEntityRecord Data} {rest : List (TableEntityRecord Data)}
    (first : w.arrange (table.matching indexName) = record :: rest) :
    ∃ vertical row, table.row (vertical, indexName) = some row ∧
      record = Table.recordAt (vertical, indexName) row := by
  have member : record ∈ table.matching indexName :=
    (w.complete (table.matching indexName)).mem_iff.mp (by simp [first])
  obtain ⟨⟨vertical, name⟩, row, present, rfl, rfl⟩ := table.mem_matching.mp member
  exact ⟨vertical, row, present, rfl⟩

end Query

section Advances

variable {Data : Type} (etags : Nat → String)

/-- Rows stay, or are replaced under an ETag of their own. -/
structure Advances (s t : Table Data) : Prop where
  writes : s.writes ≤ t.writes
  rows : ∀ key, t.row key = s.row key ∨
    ∃ data n, s.writes ≤ n ∧ n < t.writes ∧ t.row key = some ⟨data, etags n⟩

variable {etags}

theorem advances_refl (s : Table Data) : Advances etags s s := ⟨Nat.le_refl _, fun _ => .inl rfl⟩

theorem advances_trans {s t u : Table Data} (first : Advances etags s t) (second : Advances etags t u) :
    Advances etags s u := by
  constructor
  next => exact Nat.le_trans first.writes second.writes
  next =>
    intro key
    have writes := second.writes
    obtain same | ⟨data, n, fresh, bound, replaced⟩ := second.rows key
    next =>
      obtain same' | ⟨data, n, fresh, bound, replaced⟩ := first.rows key
      next => exact .inl (same.trans same')
      next => exact .inr ⟨data, n, fresh, by omega, same.trans replaced⟩
    next =>
      have earlier := first.writes
      exact .inr ⟨data, n, by omega, bound, replaced⟩

theorem advances_upsert (table : Table Data) (key : String × String) (data : Data) (etag : Option String) :
    Advances etags table (table.upsert etags key data etag).2 := by
  obtain ⟨e, same⟩ | same := table.upsert_cases key data etags etag
  next => simpa [same] using advances_refl table
  next =>
    rw [same]
    constructor
    next => exact Nat.le_succ _
    next =>
      intro other
      by_cases hit : other = key
      next =>
        refine .inr ⟨data, table.writes, Nat.le_refl _, Nat.lt_succ_self _, ?_⟩
        simp [hit]
      next => exact .inl (by simp [hit])

variable {table later : Table Data} (advances : Advances etags table later) {key : String × String} {row : Row Data}
  (present : table.row key = some row)

include advances present

theorem present_later : ∃ row, later.row key = some row := by
  obtain same | ⟨data, n, _, _, replaced⟩ := advances.rows key
  next => exact ⟨row, same.trans present⟩
  next => exact ⟨_, replaced⟩

theorem row_of_etag (fresh : Function.Injective etags) (dated : ∃ n < table.writes, row.etag = etags n) {row' : Row Data}
    (present' : later.row key = some row') (current : row'.etag = row.etag) : row' = row := by
  obtain same | ⟨data, n, late, _, replaced⟩ := advances.rows key
  next =>
    rw [present', present] at same
    exact Option.some.inj same
  next =>
    obtain rfl := Option.some.inj (present'.symm.trans replaced)
    obtain ⟨m, early, dated⟩ := dated
    have same : n = m := fresh (current.trans dated)
    omega

end Advances

def idealTable {Data : Type} (etags : Nat → String) : Handler (TableEffects Data) (TableWorld Data) (Table Data) :=
  fun w o table =>
    match o with
    | .getEntity partitionKey rowKey => (table.entity partitionKey rowKey, table)
    | .query rowKey => (w.arrange (table.matching rowKey), table)
    | .upsertEntity partitionKey rowKey data etag => table.upsert etags (partitionKey, rowKey) data etag
    | .now => (w.now, table)

end Vestibule.Provisioning
