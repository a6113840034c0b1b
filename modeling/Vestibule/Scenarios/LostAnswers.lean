import Vestibule.Retries
import Vestibule.Scenarios.Edits

set_option autoImplicit false

namespace Vestibule.Scenarios

open Library

-- The store reaches its table over a connection: an attempt may fail though the table has served it, and an
-- attempt that timed out may be served at any later time. The ETag that an upsert read lets at most one of
-- its attempts through.

variable {Json ι : Type} (formats : Formats Json) (etags : Nat → String) (key : String × String)
  (scenarios : ι → Scenario)

def isRetryable : Fault → Bool := isTransientUnless Provisioning.conflictStatusCodes

def raisedOf : Fault → Raised
  | .timeout text => .scenario ⟨"", text, scenarioStoreUnavailable⟩
  | .http e _ => .scenario ⟨"", e.text, mapStatus e⟩
  | .other text => .other text

namespace TableStorageScenarioStore

abbrev OverTable (Json α : Type) := RemotePy (StoreEffects Json) Raised α

variable (settings : RetrySettings)

def retried {α : Type} (o : StoreOp Json) (refusal : o.Res → Except Fault α) : OverTable Json α :=
  ExceptT.adapt raisedOf
    (retryingCall (S := StoreEffects Json) settings isRetryable (fun n _ => settings.waitRandomExponential n) o
      refusal)

-- A refused write is raised by the attempt itself, so that the method sees accepted ones only.
def withRetry : (o : StoreOp Json) → OverTable Json o.Res
  | .now => ExceptT.mk (.op (.here .now) fun time => .ret (.ok time))
  | .upsertEntity partitionKey rowKey data etag =>
      do
        let tag ← retried settings (.upsertEntity partitionKey rowKey data etag)
          (fun answer => answer.mapError fun e => .http e none)
        return .ok tag
  | .getEntity partitionKey rowKey => retried settings (.getEntity partitionKey rowKey) .ok
  | .query partitionKey rowKey => retried settings (.query partitionKey rowKey) .ok
  | .deleteEntity partitionKey rowKey => retried settings (.deleteEntity partitionKey rowKey) .ok

def overTable {α : Type} (method : StorePy Json α) : OverTable Json α :=
  method.run.lowerRun (withRetry settings)

end TableStorageScenarioStore

def Current (i : ι) (data : EntityData Json) (etag : Option String) (s : StoreState Json ι) : Prop :=
  (s.1.row key).map (·.etag) = etag ∧ ¬ Edited formats i s.2 ∧ ∃ version createdAt now,
    data = scenarioToEntityData formats (edited (scenarios i) (version + 1) createdAt now) ∧
      Found formats (scenarios i) (s.1.entity key.1 key.2) version createdAt

def Outdated (etag : Option String) (s : StoreState Json ι) : Prop :=
  s.1.row key ≠ none ∧ (s.1.row key).map (·.etag) ≠ etag

structure Conditional (i : ι) (data : EntityData Json) (etag : Option String) (s : StoreState Json ι) : Prop where
  dated : ∀ tag, etag = some tag → ∃ n < s.1.writes, tag = etags n
  decided : Current formats key scenarios i data etag s ∨ Outdated key etag s

/-- A write may arrive at any time: it continues from what is stored, or it is refused. -/
def Harmless (i : ι) : StoreOp Json → StoreState Json ι → Prop
  | .upsertEntity partitionKey rowKey data etag, s =>
      (partitionKey, rowKey) = key ∧ Conditional formats etags key scenarios i data etag s
  | .deleteEntity _ _, _ => False
  | _, _ => True

variable {formats etags key scenarios} {i j : ι} {s : StoreState Json ι}

variable (etags) in
theorem upsert_of_outdated {etag : Option String} (outdated : Outdated key etag s) (data : EntityData Json) :
    ∃ e, s.1.upsert etags key data etag = (.error e, s.1) ∧ mapStatus e = scenarioConflict := by
  obtain ⟨present, other⟩ := outdated
  obtain ⟨row, found⟩ := Option.ne_none_iff_exists'.mp present
  cases etag with
  | none => exact ⟨_, s.1.upsert_taken key data found, rfl⟩
  | some tag =>
    have stale : row.etag ≠ tag := fun same => other (by simp [found, same])
    exact ⟨_, s.1.upsert_stale key data found stale, rfl⟩

variable (etags) in
theorem upsert_of_current {data : EntityData Json} {etag : Option String}
    (current : Current formats key scenarios i data etag s) :
    s.1.upsert etags key data etag = s.1.install etags key data := by
  obtain ⟨same, _⟩ := current
  cases found : s.1.row key with
  | none =>
    rw [found] at same
    rw [← same]
    exact s.1.upsert_create key data found
  | some row =>
    rw [found] at same
    rw [← same]
    exact s.1.upsert_current key data found

theorem harmless_cases (chained : Chained formats etags key scenarios s) {o : StoreOp Json}
    (harmless : Harmless formats etags key scenarios i o s) (w : StoreWorld Json) :
    ((Chronicle.recorded (idealStore etags) i w o s).2.1 = s.1 ∧
      accepts formats (Chronicle.recorded (idealStore etags) i w o s).2.2 = accepts formats s.2 ∧
      Chained formats etags key scenarios (Chronicle.recorded (idealStore etags) i w o s).2) ∨
    ∃ data etag stored, o = .upsertEntity key.1 key.2 data etag ∧ Current formats key scenarios i data etag s ∧
      data = scenarioToEntityData formats stored ∧
      (Chronicle.recorded (idealStore etags) i w o s).2.1 = (s.1.install etags key data).2 ∧
      accepts formats (Chronicle.recorded (idealStore etags) i w o s).2.2 = (i, stored) :: accepts formats s.2 ∧
      Chained formats etags key scenarios (Chronicle.recorded (idealStore etags) i w o s).2 := by
  have silent (unchanged : (idealStore etags w o s.1).2 = s.1)
      (none : accepted formats ⟨i, o, (idealStore etags w o s.1).1, s.1, (idealStore etags w o s.1).2⟩ = none) :
      (Chronicle.recorded (idealStore etags) i w o s).2.1 = s.1 ∧
        accepts formats (Chronicle.recorded (idealStore etags) i w o s).2.2 = accepts formats s.2 ∧
        Chained formats etags key scenarios (Chronicle.recorded (idealStore etags) i w o s).2 := by
    refine ⟨unchanged, ?_, chained_silent chained unchanged none⟩
    simp only [Chronicle.recorded, accepts, List.filterMap_cons, none]
  cases o with
  | upsertEntity partitionKey rowKey data etag =>
    obtain ⟨rfl, conditional⟩ := harmless
    rcases conditional.decided with current | outdated
    next =>
      have through := upsert_of_current etags current
      obtain ⟨same, unedited, version, createdAt, now, rfl, found⟩ := current
      refine .inr ⟨_, etag, edited (scenarios i) (version + 1) createdAt now, rfl,
        ⟨same, unedited, version, createdAt, now, rfl, found⟩, rfl, ?_, ?_,
        chained_edit chained unedited found through⟩
      next => simp [Chronicle.recorded, idealStore, through]
      next =>
        simp [Chronicle.recorded, idealStore, through, accepts, accepted, Provisioning.Table.install,
          entityToScenario_data, Except.toOption]
    next =>
      obtain ⟨e, refused, _⟩ := upsert_of_outdated etags outdated data
      refine .inl (silent ?_ ?_)
      next => simp [idealStore, refused]
      next => simp [idealStore, refused, accepted]
  | deleteEntity partitionKey rowKey => exact harmless.elim
  | getEntity partitionKey rowKey => exact .inl (silent rfl rfl)
  | query partitionKey rowKey => exact .inl (silent rfl rfl)
  | now => exact .inl (silent rfl rfl)

theorem harmless_unchanged {t : StoreState Json ι} (table : t.1 = s.1)
    (told : accepts formats t.2 = accepts formats s.2)
    {p : StoreOp Json} (harmless : Harmless formats etags key scenarios j p s) :
    Harmless formats etags key scenarios j p t := by
  cases p with
  | upsertEntity partitionKey rowKey data etag =>
    obtain ⟨same, dated, decided⟩ := harmless
    refine ⟨same, by rwa [table], ?_⟩
    simpa only [Current, Outdated, Edited, table, told] using decided
  | _ => exact harmless

theorem harmless_installed {t : StoreState Json ι} (fresh : Function.Injective etags) {data : EntityData Json}
    (table : t.1 = (s.1.install etags key data).2) {p : StoreOp Json}
    (harmless : Harmless formats etags key scenarios j p s) : Harmless formats etags key scenarios j p t := by
  cases p with
  | upsertEntity partitionKey rowKey other etag =>
    obtain ⟨same, dated, _⟩ := harmless
    have present : t.1.row key = some ⟨data, etags s.1.writes⟩ := by simp [table]
    refine ⟨same, fun tag asked => ?_, .inr ⟨by simp [present], fun current => ?_⟩⟩
    next =>
      obtain ⟨n, early, rfl⟩ := dated tag asked
      exact ⟨n, by rw [table]; exact Nat.lt_succ_of_lt early, rfl⟩
    next =>
      rw [present] at current
      obtain ⟨n, early, sent⟩ := dated _ current.symm
      have late := fresh sent
      omega
  | _ => exact harmless

variable (formats key scenarios) in
def editTraffic (fresh : Function.Injective etags) :
    Traffic (StoreEffects Json) ι (StoreWorld Json) (StoreState Json ι) where
  handler := Chronicle.recorded (idealStore etags)
  inv := Chained formats etags key scenarios
  good i o s := Harmless formats etags key scenarios i o s
  kept chained harmless w := by
    rcases harmless_cases chained harmless w with ⟨_, _, still⟩ | ⟨_, _, _, _, _, _, _, _, still⟩
    next => exact still
    next => exact still
  lasting chained harmless w _ _ other := by
    rcases harmless_cases chained harmless w with ⟨table, told, _⟩ | ⟨data, _, _, _, _, _, table, _⟩
    next => exact harmless_unchanged table told other
    next => exact harmless_installed fresh table other

variable {fresh : Function.Injective etags} {calls : ι → StoreOp Json → Prop} {t : StoreState Json ι}

theorem harmless_moved (moved : (editTraffic formats key scenarios fresh).Moved calls s t) {o : StoreOp Json}
    (harmless : Harmless formats etags key scenarios i o s) : Harmless formats etags key scenarios i o t := by
  have good : (editTraffic formats key scenarios fresh).good i o s := harmless
  exact Traffic.good_moved moved good

theorem accepts_moved (moved : (editTraffic formats key scenarios fresh).Moved calls s t) :
    ∃ more, accepts formats t.2 = more ++ accepts formats s.2 ∧
      ∀ edit ∈ more, ∃ data etag, calls edit.1 (.upsertEntity key.1 key.2 data etag) := by
  refine Traffic.moved_rec (R := fun s t => ∃ more, accepts formats t.2 = more ++ accepts formats s.2 ∧
    ∀ edit ∈ more, ∃ data etag, calls edit.1 (.upsertEntity key.1 key.2 data etag))
    (fun s => ⟨[], by simp⟩) ?_ ?_ moved
  next =>
    intro s t u first second
    obtain ⟨more, same, called⟩ := first
    obtain ⟨most, same', called'⟩ := second
    refine ⟨most ++ more, by simp [same, same'], fun edit member => ?_⟩
    rcases List.mem_append.mp member with late | early
    next => exact called' edit late
    next => exact called edit early
  next =>
    intro i o called w s chained harmless
    rcases harmless_cases chained harmless w with ⟨_, told, _⟩ | ⟨data, etag, stored, rfl, _, _, _, told, _⟩
    next => exact ⟨[], told, by simp⟩
    next => exact ⟨[(i, stored)], told, fun edit member => ⟨data, etag, by rwa [List.mem_singleton.mp member]⟩⟩

theorem edited_moved (moved : (editTraffic formats key scenarios fresh).Moved calls s t)
    (silent : ∀ data etag, ¬ calls i (.upsertEntity key.1 key.2 data etag)) :
    Edited formats i t.2 ↔ Edited formats i s.2 := by
  obtain ⟨more, same, called⟩ := accepts_moved moved
  have none : i ∉ more.map Prod.fst := by
    intro member
    obtain ⟨edit, listed, rfl⟩ := List.mem_map.mp member
    obtain ⟨data, etag, call⟩ := called edit listed
    exact silent data etag call
  simp only [Edited, same, List.map_append, List.mem_append]
  exact or_iff_right none

abbrev EditCloud (Json ι : Type) := Cloud (StoreEffects Json) ι (StoreState Json ι)

variable (formats key) in
structure Unsent (i : ι) (cloud : EditCloud Json ι) : Prop where
  unedited : ¬ Edited formats i cloud.server.2
  none : ∀ data etag, (i, .upsertEntity key.1 key.2 data etag) ∉ cloud.inFlight

variable (formats key) in
/-- An upsert that raises has stored nothing, if it was answered every time it asked. -/
def Reported (i : ι) : Except Raised Scenario → EditCloud Json ι → Prop
  | .ok stored, cloud => (i, stored) ∈ accepts formats cloud.server.2
  | .error e, cloud => i ∈ cloud.unanswered ∨
      (∃ text, e = .scenario ⟨"", text, scenarioConflict⟩) ∧ Unsent formats key i cloud

variable {a b : EditCloud Json ι}

theorem unsent_meanwhile (meanwhile : (editTraffic formats key scenarios fresh).Meanwhile i a b)
    (unsent : Unsent formats key i a) : Unsent formats key i b := by
  constructor
  next =>
    rw [edited_moved meanwhile.moved fun data etag called => unsent.none data etag (called rfl)]
    exact unsent.unedited
  next => exact fun data etag waiting => unsent.none data etag (meanwhile.inFlight _ waiting)

theorem reported_meanwhile (meanwhile : (editTraffic formats key scenarios fresh).Meanwhile i a b)
    {result : Except Raised Scenario} (reported : Reported formats key i result a) :
    Reported formats key i result b := by
  cases result with
  | ok stored =>
    obtain ⟨more, same, _⟩ := accepts_moved meanwhile.moved
    simp only [Reported, same, List.mem_append]
    exact .inr reported
  | error e =>
    rcases reported with lost | ⟨conflict, unsent⟩
    next => exact .inl (meanwhile.unanswered.mpr lost)
    next => exact .inr ⟨conflict, unsent_meanwhile meanwhile unsent⟩

theorem Unsent.missed {o : StoreOp Json} (reads : ∀ data etag, o ≠ .upsertEntity key.1 key.2 data etag)
    (missed : (editTraffic formats key scenarios fresh).Missed i o a b) (unsent : Unsent formats key i a) :
    Unsent formats key i b := by
  constructor
  next =>
    rw [edited_moved missed.moved fun data etag called => reads data etag called.2.symm]
    exact unsent.unedited
  next =>
    intro data etag waiting
    rcases List.mem_cons.mp (missed.inFlight waiting) with own | old
    next => exact reads data etag (congrArg Prod.snd own).symm
    next => exact unsent.none data etag old

variable (formats etags key scenarios) in
/-- Whatever time the clock gives it, the write that follows on this reading is harmless. -/
structure Prepared (i : ι) (existing : Option (EntityRecord Json)) (cloud : EditCloud Json ι) : Prop where
  unsent : Unsent formats key i cloud
  ready : ∃ version createdAt, Found formats (scenarios i) existing version createdAt ∧ ∀ now,
    Harmless formats etags key scenarios i (.upsertEntity key.1 key.2
      (scenarioToEntityData formats (edited (scenarios i) (version + 1) createdAt now)) (existing.map (·.etag)))
      cloud.server

theorem Prepared.meanwhile {existing : Option (EntityRecord Json)}
    (meanwhile : (editTraffic formats key scenarios fresh).Meanwhile i a b)
    (prepared : Prepared formats etags key scenarios i existing a) :
    Prepared formats etags key scenarios i existing b := by
  obtain ⟨unsent, version, createdAt, found, harmless⟩ := prepared
  refine ⟨unsent_meanwhile meanwhile unsent, version, createdAt, found, fun now => ?_⟩
  exact harmless_moved meanwhile.moved (harmless now)

theorem prepared_of_read (chained : Chained formats etags key scenarios a.server) (unsent : Unsent formats key i a) :
    Prepared formats etags key scenarios i (a.server.1.entity key.1 key.2) a := by
  obtain ⟨version, createdAt, found⟩ := exists_found_of_chained chained i
  refine ⟨unsent, version, createdAt, found, fun now => ⟨rfl, fun tag asked => ?_, .inl ?_⟩⟩
  next =>
    obtain ⟨row, present, rfl⟩ : ∃ row, a.server.1.row key = some row ∧ row.etag = tag := by
      simpa [Provisioning.Table.entity, Provisioning.Table.recordAt] using asked
    exact chained.dated row present
  next =>
    refine ⟨?_, unsent.unedited, version, createdAt, now, rfl, found⟩
    simp [Provisioning.Table.entity, Provisioning.Table.recordAt, Function.comp_def]

section OneUpsert

variable (settings : RetrySettings)

theorem read_kept (unsent : Unsent formats key i a) :
    ((editTraffic formats key scenarios fresh).contract i).KeptRun
      (TableStorageScenarioStore.withRetry settings (.getEntity key.1 key.2))
      (Prepared formats etags key scenarios i) (fun _ cloud => i ∈ cloud.unanswered) a := by
  apply Contract.keptRun_adapt
  apply keptRun_retryingCall (Unsent formats key i) _ _ _ _ _ _ _ _ unsent
  next => exact fun meanwhile unsent => unsent_meanwhile meanwhile unsent
  next => exact fun meanwhile lost => meanwhile.unanswered.mpr lost
  next => exact fun _ _ _ => trivial
  next =>
    intro t w u unsent sound later
    have inv := (editTraffic formats key scenarios fresh).kept (i := i) (o := .getEntity key.1 key.2) sound.inv
      trivial w
    have read := prepared_of_read (a := { t with server := _ }) inv ⟨unsent.unedited, unsent.none⟩
    exact read.meanwhile later
  next =>
    intro t fault after unsent missed
    exact ⟨by simp [missed.unanswered], unsent.missed (by simp) missed⟩

variable (formats etags key scenarios) in
structure Sending (i : ι) (data : EntityData Json) (etag : Option String) (cloud : EditCloud Json ι) : Prop where
  harmless : Harmless formats etags key scenarios i (.upsertEntity key.1 key.2 data etag) cloud.server
  told : i ∈ cloud.unanswered ∨ Unsent formats key i cloud

theorem Sending.meanwhile {data : EntityData Json} {etag : Option String}
    (meanwhile : (editTraffic formats key scenarios fresh).Meanwhile i a b)
    (sending : Sending formats etags key scenarios i data etag a) :
    Sending formats etags key scenarios i data etag b := by
  refine ⟨harmless_moved meanwhile.moved sending.harmless, ?_⟩
  rcases sending.told with lost | unsent
  next => exact .inl (meanwhile.unanswered.mpr lost)
  next => exact .inr (unsent_meanwhile meanwhile unsent)

theorem Sending.missed {data : EntityData Json} {etag : Option String}
    (missed : (editTraffic formats key scenarios fresh).Missed i (.upsertEntity key.1 key.2 data etag) a b)
    (sending : Sending formats etags key scenarios i data etag a) :
    Sending formats etags key scenarios i data etag b :=
  ⟨harmless_moved missed.moved sending.harmless, .inl (by simp [missed.unanswered])⟩

-- The attempt is answered: the write is stored, or it is refused and nothing has changed.
theorem sent_cases {stored : Scenario} {etag : Option String} {t : EditCloud Json ι}
    (sending : Sending formats etags key scenarios i (scenarioToEntityData formats stored) etag t)
    (w : StoreWorld Json) :
    let served : Except Provisioning.HttpResponseError String × StoreState Json ι :=
      Chronicle.recorded (idealStore etags) i w
        (.upsertEntity key.1 key.2 (scenarioToEntityData formats stored) etag) t.server
    (∃ tag, served.1 = .ok tag ∧ (i, stored) ∈ accepts formats served.2.2) ∨
      ∃ e, served.1 = .error e ∧ mapStatus e = scenarioConflict ∧
        Sending formats etags key scenarios i (scenarioToEntityData formats stored) etag
          { t with server := served.2 } := by
  intro served
  rcases sending.harmless.2.decided with current | outdated
  next =>
    have through := upsert_of_current etags current
    refine .inl ⟨etags t.server.1.writes, ?_, ?_⟩
    next => simp [served, Chronicle.recorded, idealStore, through, Provisioning.Table.install]
    next =>
      simp [served, Chronicle.recorded, idealStore, through, accepts, accepted, Provisioning.Table.install,
        entityToScenario_data, Except.toOption]
  next =>
    obtain ⟨e, refused, conflict⟩ := upsert_of_outdated etags outdated (scenarioToEntityData formats stored)
    have answered : served.1 = .error e := by simp [served, Chronicle.recorded, idealStore, refused]
    have table : served.2.1 = t.server.1 := by simp [served, Chronicle.recorded, idealStore, refused]
    have told : accepts formats served.2.2 = accepts formats t.server.2 := by
      simp [served, Chronicle.recorded, idealStore, accepts, refused, accepted, List.filterMap_cons]
    refine .inr ⟨e, answered, conflict, harmless_unchanged table told sending.harmless, ?_⟩
    rcases sending.told with lost | unsent
    next => exact .inl lost
    next => exact .inr ⟨by simpa only [Edited, told] using unsent.unedited, unsent.none⟩

theorem write_kept_over {stored : Scenario} {etag : Option String}
    (sending : Sending formats etags key scenarios i (scenarioToEntityData formats stored) etag a) :
    ((editTraffic formats key scenarios fresh).contract i).KeptRun
      (TableStorageScenarioStore.retried settings
        (.upsertEntity key.1 key.2 (scenarioToEntityData formats stored) etag)
        (fun answer => answer.mapError fun e => .http e none))
      (fun _ => Reported formats key i (.ok stored)) (fun e => Reported formats key i (.error e)) a := by
  apply Contract.keptRun_adapt
  apply keptRun_retryingCall (Sending formats etags key scenarios i (scenarioToEntityData formats stored) etag)
    _ _ _ _ _ _ _ _ sending
  next => exact fun meanwhile sending => sending.meanwhile meanwhile
  next => exact fun meanwhile reported => reported_meanwhile meanwhile reported
  next => exact fun _ sending _ => sending.harmless
  next =>
    intro t w u sending sound later
    obtain ⟨tag, through, landed⟩ | ⟨e, refused, conflict, still⟩ := sent_cases sending w
    next =>
      have answered : ((editTraffic formats key scenarios fresh).handler i w
        (.upsertEntity key.1 key.2 (scenarioToEntityData formats stored) etag) t.server).1 = .ok tag := through
      rw [answered]
      have reported : Reported formats key i (.ok stored)
          { t with server := ((editTraffic formats key scenarios fresh).handler i w
            (.upsertEntity key.1 key.2 (scenarioToEntityData formats stored) etag) t.server).2 } := landed
      exact reported_meanwhile later reported
    next =>
      have answered : ((editTraffic formats key scenarios fresh).handler i w
        (.upsertEntity key.1 key.2 (scenarioToEntityData formats stored) etag) t.server).1 = .error e := refused
      rw [answered]
      refine ⟨reported_meanwhile later ?_, still.meanwhile later⟩
      rcases still.told with lost | unsent
      next => exact .inl lost
      next => exact .inr ⟨⟨e.text, by rw [raisedOf, conflict]⟩, unsent⟩
  next =>
    intro t fault after sending missed
    exact ⟨.inl (by simp [missed.unanswered]), sending.missed missed⟩

theorem submission_kept_over (addressed : ((scenarios i).vertical, (scenarios i).scenarioId) = key)
    {existing : Option (EntityRecord Json)} (prepared : Prepared formats etags key scenarios i existing a) :
    ((editTraffic formats key scenarios fresh).contract i).Kept
      (Prog.lowerRun (TableStorageScenarioStore.withRetry settings)
        (submission formats (scenarios i) existing).run).run
      (Reported formats key i) a := by
  subst addressed
  obtain ⟨unsent, version, createdAt, found, harmless⟩ := prepared
  rw [submission_run found]
  apply Contract.kept_lowerRun_op
  apply Traffic.kept_here
  intro t later sound
  have unsent := unsent_meanwhile later unsent
  refine ⟨trivial, fun w u after => ?_⟩
  -- The clock has told the time, and the table is as it was.
  have still := harmless_moved later.moved (harmless w.now)
  have sending : Sending formats etags ((scenarios i).vertical, (scenarios i).scenarioId) scenarios i
      (scenarioToEntityData formats (edited (scenarios i) (version + 1) createdAt w.now)) (existing.map (·.etag))
      { t with server := (Chronicle.recorded (idealStore etags) i w .now t.server).2 } := by
    constructor
    next =>
      apply harmless_unchanged (s := t.server) _ _ still
      next => rfl
      next => rfl
    next => exact .inr ⟨unsent.unedited, unsent.none⟩
  apply Contract.kept_lowerRun_op
  apply Contract.keptRun_seq (write_kept_over settings (sending.meanwhile after))
  intro tag v reported
  apply Contract.keptRun_pure
  intro v' later' v'' later''
  exact reported_meanwhile later'' (reported_meanwhile later' reported)

theorem upsert_kept_over (addressed : ((scenarios i).vertical, (scenarios i).scenarioId) = key)
    (unsent : Unsent formats key i a) :
    ((editTraffic formats key scenarios fresh).contract i).Kept
      (TableStorageScenarioStore.overTable settings (TableStorageScenarioStore.upsert formats (scenarios i))).run
      (Reported formats key i) a := by
  subst addressed
  rw [TableStorageScenarioStore.overTable, upsert_run]
  apply Contract.kept_lowerRun_op
  apply Contract.kept_mono (Q := Contract.ends
    (Prepared formats etags ((scenarios i).vertical, (scenarios i).scenarioId) scenarios i)
    (fun _ cloud => i ∈ cloud.unanswered)) _ (read_kept settings unsent)
  intro result t ended
  cases result with
  | error e => exact .inl ended
  | ok existing => exact submission_kept_over settings rfl ended

end OneUpsert

abbrev RemoteEditors (Json ι : Type) :=
  Pool (Over (StoreEffects Json)) (fun _ : ι => Except Raised Scenario) (EditCloud Json ι)

variable (formats scenarios) in
def remoteEditors (settings : RetrySettings) (table : ScenarioTable Json) : RemoteEditors Json ι where
  threads i :=
    (TableStorageScenarioStore.overTable settings (TableStorageScenarioStore.upsert formats (scenarios i))).run
  state := ⟨(table, []), [], []⟩

variable (formats etags key scenarios) in
structure EditsOnce (c : RemoteEditors Json ι) : Prop where
  numbered : (edits formats c.state.server.2).map (·.2.configVersion) =
    (List.range (edits formats c.state.server.2).length).map fun n => toString (n + 1)
  once : ((edits formats c.state.server.2).map (·.1)).Nodup
  created : ∀ first, (edits formats c.state.server.2).head? = some first →
    first.2.createdAt = (scenarios first.1).createdAt ∧
      ∀ edit ∈ edits formats c.state.server.2, edit.2.createdAt = first.2.createdAt
  stored : (c.state.server.1.row key).map (fun row => entityToScenario formats row.data) =
    (edits formats c.state.server.2).getLast?.map fun edit => .ok edit.2
  returned : ∀ i stored, c.threads i = .ret (.ok stored) → (i, stored) ∈ edits formats c.state.server.2
  -- An editor that was answered every time is told what has become of its edit.
  raised : ∀ i e, c.threads i = .ret (.error e) → i ∉ c.state.unanswered →
    (∃ text, e = .scenario ⟨"", text, scenarioConflict⟩) ∧
      i ∉ (edits formats c.state.server.2).map (·.1) ∧
      ∀ data etag, (i, .upsertEntity key.1 key.2 data etag) ∉ c.state.inFlight
  -- What is still on its way to an editor that has been stored will be refused.
  stale : ∀ i data etag, (i, .upsertEntity key.1 key.2 data etag) ∈ c.state.inFlight →
    i ∈ (edits formats c.state.server.2).map (·.1) →
    ∃ e, c.state.server.1.upsert etags key data etag = (.error e, c.state.server.1)

variable [DecidableEq ι]

section Run

variable (fresh) (addressed : ∀ i, ((scenarios i).vertical, (scenarios i).scenarioId) = key)
  {table : ScenarioTable Json} (absent : table.row key = none) (settings : RetrySettings)
  (schedule : List (ι × Weather (StoreWorld Json) Fault))

include fresh addressed absent

theorem reported_run :
    let c : RemoteEditors Json ι := Pool.runAs (connection (Chronicle.recorded (idealStore etags))) schedule
      (remoteEditors formats scenarios settings table)
    Chained formats etags key scenarios c.state.server ∧
      (∀ call ∈ c.state.inFlight, Harmless formats etags key scenarios call.1 call.2 c.state.server) ∧
      ∀ i result, c.threads i = .ret result → Reported formats key i result c.state := by
  intro c
  have unsent (i : ι) : Unsent formats key i (remoteEditors formats scenarios settings table).state :=
    ⟨by simp [Edited, accepts, remoteEditors], by simp [remoteEditors]⟩
  have initial : (editTraffic formats key scenarios fresh).inv
      (remoteEditors formats scenarios settings table).state.server :=
    ⟨trivial, .nil, by simp [absent, accepts, remoteEditors], by simp [absent, remoteEditors],
      by simp [remoteEditors]⟩
  obtain ⟨sound, threads⟩ := Traffic.sound_run (editTraffic formats key scenarios fresh) initial rfl
    (fun i => upsert_kept_over settings (addressed i) (unsent i)) schedule
  refine ⟨sound.inv, sound.good, fun i result finished => ?_⟩
  have kept : ((editTraffic formats key scenarios fresh).contract i).Kept (c.threads i) (Reported formats key i)
      c.state := threads i
  rw [finished] at kept
  exact kept _ (Traffic.meanwhile_refl i _)

theorem edits_once :
    EditsOnce formats etags key scenarios (Pool.runAs (connection (Chronicle.recorded (idealStore etags))) schedule
      (remoteEditors formats scenarios settings table)) := by
  obtain ⟨chained, harmless, told⟩ := reported_run fresh addressed absent settings schedule
  generalize Pool.runAs (connection (Chronicle.recorded (idealStore etags))) schedule
    (remoteEditors formats scenarios settings table) = c at chained harmless told ⊢
  constructor
  next => simpa [edits] using numbered_of_lineage chained.lineage
  next => simpa [edits] using chained.once
  next =>
    intro first begins
    obtain ⟨own, shared⟩ := created_of_lineage chained.lineage begins
    exact ⟨own, fun edit member => shared edit (List.mem_reverse.mp member)⟩
  next =>
    have stored := congrArg (Option.map (entityToScenario formats)) chained.stored
    simpa [edits, List.getLast?_reverse, entityToScenario_data, Function.comp_def] using stored
  next => exact fun i stored finished => List.mem_reverse.mpr (told i _ finished)
  next =>
    intro i e finished answered
    rcases told i _ finished with lost | ⟨conflict, unsent⟩
    next => exact absurd lost answered
    next => exact ⟨conflict, by simpa [edits, Edited] using unsent.unedited, unsent.none⟩
  next =>
    intro i data etag waiting edit
    rcases (harmless _ waiting).2.decided with current | outdated
    next => exact absurd (by simpa [edits, Edited] using edit) current.2.1
    next =>
      obtain ⟨e, refused, _⟩ := upsert_of_outdated etags outdated data
      exact ⟨e, refused⟩

end Run

-- The first editor is told of a conflict with its own edit, and an attempt of the second arrives twice.

def lostWeather (fate : Fate Fault) (arrivals : List Nat) : Weather (StoreWorld JsonObject) Fault :=
  ⟨listedAsFound, fate, arrivals.map (·, listedAsFound)⟩

def lostAnswers : List (Nat × Weather (StoreWorld JsonObject) Fault) :=
  [(0, lostWeather .answered []), (0, lostWeather .answered []),
    (0, lostWeather (.failed (.timeout "no answer") true) []), (0, lostWeather .answered []),
    (0, lostWeather .answered []),
    (1, lostWeather .answered []), (1, lostWeather .answered []),
    (1, lostWeather (.abandoned (.timeout "no answer")) []), (1, lostWeather .answered []),
    (1, lostWeather .answered []), (2, lostWeather .answered [0])]

def editorsUnanswered : RemoteEditors JsonObject Nat :=
  Pool.runAs (connection (Chronicle.recorded (idealStore numberedEtags))) lostAnswers
    (remoteEditors documentFormats rivals {} {})

theorem edits_once_unanswered :
    ((∃ text, editorsUnanswered.threads 0 = .ret (.error (.scenario ⟨"", text, scenarioConflict⟩))) ∧
      editorsUnanswered.threads 1 = .ret (.ok (edited (rivals 1) 2 0 0))) ∧
    EditsOnce documentFormats numberedEtags ("hr", "policies") rivals editorsUnanswered := by
  refine ⟨⟨⟨_, rfl⟩, rfl⟩, ?_⟩
  apply edits_once numberedEtags_injective
  next => exact fun _ => rfl
  next => rfl

end Vestibule.Scenarios
