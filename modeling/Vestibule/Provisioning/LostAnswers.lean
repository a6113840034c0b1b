import Vestibule.Provisioning.Exclusivity
import Vestibule.Retries

set_option autoImplicit false

namespace Vestibule.Provisioning

open Library

-- The registry reaches its table over a connection. A conditional create that is sent again is refused by
-- the entity that it created itself, and `register` then reads that entity back.

variable {Data ι : Type} (codec : EntityCodec Data) (etags : Nat → String)

def isRetryable : Fault → Bool := isTransientUnless conflictStatusCodes

def raisedOf : Fault → Raised
  | .timeout text => .provisioning ⟨"", text, indexRegistryUnavailable⟩
  | .http e _ => .provisioning ⟨"", e.text, mapStatus e⟩
  | .other text => .other text

namespace TableStorageIndexRegistry

abbrev OverTable (Data α : Type) := RemotePy (TableEffects Data) Raised α

variable {codec} (settings : RetrySettings)

def attempts {α : Type} (o : TableOp Data) (refusal : o.Res → Except Fault α) :
    RemotePy (TableEffects Data) Fault α :=
  retryingCall settings isRetryable (fun n _ => settings.waitRandomExponential n) o refusal

-- What the methods catch is an answer; what they do not is raised here.
def withRetry : (o : TableOp Data) → OverTable Data o.Res
  | .now => ExceptT.mk (.op (.here .now) fun time => .ret (.ok time))
  | .upsertEntity partitionKey rowKey data etag =>
      ExceptT.adapt raisedOf (tryCatch
        (do
          let tag ← attempts settings (.upsertEntity partitionKey rowKey data etag)
            (fun answer => answer.mapError fun e => .http e none)
          return .ok tag)
        fun
          | .http e _ => return .error e
          | fault => throw fault)
  | .getEntity partitionKey rowKey =>
      ExceptT.adapt raisedOf (attempts settings (.getEntity partitionKey rowKey) .ok)
  | .query rowKey => ExceptT.adapt raisedOf (attempts settings (.query rowKey) .ok)

def overTable {α : Type} (method : TablePy Data α) : OverTable Data α :=
  (Except.mapError Raised.provisioning <$> method.run).lowerRun (withRetry settings)

end TableStorageIndexRegistry

variable (candidate : ι → IndexRegistryEntry)

def claimTraffic (start : Table Data) : Traffic (TableEffects Data) ι (TableWorld Data) (Table Data) where
  handler _ := idealTable etags
  inv := Claimed codec candidate start
  good i o _ := Creates codec (candidate i) o
  kept claimed creates w := claimed_step etags claimed creates w
  lasting _ _ _ _ _ creates := creates

abbrev ClaimCloud (Data ι : Type) := Cloud (TableEffects Data) ι (Table Data)

variable {codec etags candidate} {start : Table Data} {calls : ι → TableOp Data → Prop} {s t : Table Data} {i : ι}
  {a b : ClaimCloud Data ι}

theorem extends_moved (moved : (claimTraffic codec etags candidate start).Moved calls s t) : Extends s t := by
  apply Traffic.moved_rec _ _ _ moved
  next => exact fun s key row found => found
  next => exact fun first second key row found => second key row (first key row found)
  next => exact fun i o _ w s _ creates => extends_step etags creates w s

variable (codec candidate) in
/-- A registration that raises was left without an answer, or has found an entity that it cannot read. -/
def Reconciled (i : ι) : Except Raised IndexRegistryEntry → ClaimCloud Data ι → Prop
  | .ok stored, cloud => ReadsAs codec (candidate i) stored cloud.server
  | .error _, cloud => i ∈ cloud.unanswered ∨ ∃ row e,
      cloud.server.row (tableKey (candidate i)) = some row ∧ codec.entityToEntry row.data = .error e

variable (codec candidate) in
def CreateAnswered (i : ι) : Except HttpResponseError String → ClaimCloud Data ι → Prop
  | .ok _, cloud => ReadsAs codec (candidate i) (candidate i) cloud.server
  | .error e, cloud => i ∈ cloud.unanswered ∨
      mapStatus e = indexProvisionConflict ∧ ∃ row, cloud.server.row (tableKey (candidate i)) = some row

theorem reconciled_meanwhile (meanwhile : (claimTraffic codec etags candidate start).Meanwhile i a b)
    {result : Except Raised IndexRegistryEntry} (shown : Reconciled codec candidate i result a) :
    Reconciled codec candidate i result b := by
  have kept := extends_moved meanwhile.moved
  cases result with
  | ok stored =>
    obtain ⟨row, found, decoded⟩ := shown
    exact ⟨row, kept _ _ found, decoded⟩
  | error e =>
    rcases shown with lost | ⟨row, text, found, corrupt⟩
    next => exact .inl (meanwhile.unanswered.mpr lost)
    next => exact .inr ⟨row, text, kept _ _ found, corrupt⟩

theorem createAnswered_meanwhile (meanwhile : (claimTraffic codec etags candidate start).Meanwhile i a b)
    {answer : Except HttpResponseError String} (answered : CreateAnswered codec candidate i answer a) :
    CreateAnswered codec candidate i answer b := by
  have kept := extends_moved meanwhile.moved
  cases answer with
  | ok tag =>
    obtain ⟨row, found, decoded⟩ := answered
    exact ⟨row, kept _ _ found, decoded⟩
  | error e =>
    rcases answered with lost | ⟨conflict, row, found⟩
    next => exact .inl (meanwhile.unanswered.mpr lost)
    next => exact .inr ⟨conflict, row, kept _ _ found⟩

def recovered (codec : EntityCodec Data) (e : ProvisioningError) :
    Option (TableEntityRecord Data) → Except ProvisioningError IndexRegistryEntry
  | none => .error e
  | some record => codec.entityToEntry record.data

def recovery (codec : EntityCodec Data) (entry : IndexRegistryEntry) (e : ProvisioningError) :
    Prog (TableEffects Data) (Except ProvisioningError IndexRegistryEntry) :=
  if e.errorCode ≠ indexProvisionConflict then .ret (.error e)
  else .op (.getEntity entry.vertical entry.indexName) fun found => .ret (recovered codec e found)

variable (codec) in
theorem register_run (entry : IndexRegistryEntry) :
    (TableStorageIndexRegistry.register codec entry).run =
      .op (.upsertEntity entry.vertical entry.indexName (codec.entryToEntityData entry) none)
        fun (answer : Except HttpResponseError String) => match answer with
          | .ok _ => .ret (.ok entry)
          | .error e => recovery codec entry ⟨"", e.text, mapStatus e⟩ := by
  refine congrArg (Prog.op (S := TableEffects Data) _) (funext fun answer => ?_)
  cases answer with
  | ok tag => rfl
  | error e =>
    change ExceptT.run (if mapStatus e ≠ indexProvisionConflict then throw _ else _) = _
    simp only [recovery]
    split
    next => rfl
    next =>
      refine congrArg (Prog.op (S := TableEffects Data) _) (funext fun found => ?_)
      cases found <;> rfl

section OneRegistration

variable (settings : RetrySettings)

theorem create_kept :
    ((claimTraffic codec etags candidate start).contract i).KeptRun
      (TableStorageIndexRegistry.withRetry settings (.upsertEntity (candidate i).vertical (candidate i).indexName
        (codec.entryToEntityData (candidate i)) none))
      (CreateAnswered codec candidate i) (fun e => Reconciled codec candidate i (.error e)) a := by
  -- What an attempt that was answered has raised is an exception of the service.
  have attempted : ((claimTraffic codec etags candidate start).contract i).KeptRun
      (TableStorageIndexRegistry.attempts settings (.upsertEntity (candidate i).vertical (candidate i).indexName
        (codec.entryToEntityData (candidate i)) none) (fun answer => answer.mapError fun e => .http e none))
      (fun tag => CreateAnswered codec candidate i (.ok tag))
      (fun fault cloud => i ∈ cloud.unanswered ∨
        ∃ e, fault = .http e none ∧ CreateAnswered codec candidate i (.error e) cloud) a := by
    apply keptRun_retryingCall (fun _ => True) _ _ _ _ _ _ _ _ trivial
    next => exact fun _ _ => trivial
    next =>
      intro a b fault meanwhile told
      rcases told with lost | ⟨e, same, answered⟩
      next => exact .inl (meanwhile.unanswered.mpr lost)
      next => exact .inr ⟨e, same, createAnswered_meanwhile meanwhile answered⟩
    next => exact fun _ _ _ => ⟨rfl, rfl, rfl⟩
    next =>
      intro t w u _ sound later
      cases found : t.server.row (tableKey (candidate i)) with
      | none =>
        have created : (claimTraffic codec etags candidate start).handler i w
            (.upsertEntity (candidate i).vertical (candidate i).indexName (codec.entryToEntityData (candidate i)) none)
            t.server = t.server.install etags (tableKey (candidate i)) (codec.entryToEntityData (candidate i)) :=
          t.server.upsert_create _ _ found
        rw [created] at later ⊢
        have held := extends_moved later.moved (tableKey (candidate i))
          ⟨codec.entryToEntityData (candidate i), etags t.server.writes⟩ (by simp)
        exact ⟨_, held, codec.roundTrips (candidate i)⟩
      | some row =>
        have taken : (claimTraffic codec etags candidate start).handler i w
            (.upsertEntity (candidate i).vertical (candidate i).indexName (codec.entryToEntityData (candidate i)) none)
            t.server = (.error ⟨some 409, "The specified entity already exists."⟩, t.server) :=
          t.server.upsert_taken _ _ found
        rw [taken] at later ⊢
        exact ⟨.inr ⟨_, rfl, .inr ⟨rfl, row, extends_moved later.moved _ _ found⟩⟩, trivial⟩
    next => exact fun t fault after _ missed => ⟨.inl (by simp [missed.unanswered]), trivial⟩
  apply Contract.keptRun_adapt
  apply Contract.keptRun_tryCatch
  apply Contract.keptRun_bind
  apply Contract.kept_mono _ (Contract.kept_later attempted)
  intro result t ended
  cases result with
  | ok tag => exact Contract.keptRun_pure ended
  | error fault =>
    have answered (u : ClaimCloud Data ι) (later : (claimTraffic codec etags candidate start).Meanwhile i t u) :
        i ∈ u.unanswered ∨ ∃ e, fault = .http e none ∧ CreateAnswered codec candidate i (.error e) u := ended u later
    cases fault with
    | http e retryAfter =>
      apply Contract.keptRun_pure
      intro u later
      rcases answered u later with lost | ⟨e', same, refused⟩
      next => exact .inl lost
      next =>
        obtain ⟨rfl, _⟩ := Fault.http.inj same
        exact refused
    | timeout text =>
      apply Contract.keptRun_throw
      intro u later
      rcases answered u later with lost | ⟨_, other, _⟩
      next => exact .inl lost
      next => simp at other
    | other text =>
      apply Contract.keptRun_throw
      intro u later
      rcases answered u later with lost | ⟨_, other, _⟩
      next => exact .inl lost
      next => simp at other

variable (candidate) in
def Known (i : ι) (cloud : ClaimCloud Data ι) : Prop :=
  i ∈ cloud.unanswered ∨ ∃ row, cloud.server.row (tableKey (candidate i)) = some row

variable (candidate) in
def LookedUp (i : ι) : Option (TableEntityRecord Data) → ClaimCloud Data ι → Prop
  | none, cloud => i ∈ cloud.unanswered
  | some record, cloud => ∃ row, record = Table.recordAt (tableKey (candidate i)) row ∧
      cloud.server.row (tableKey (candidate i)) = some row

theorem known_meanwhile (meanwhile : (claimTraffic codec etags candidate start).Meanwhile i a b)
    (known : Known candidate i a) : Known candidate i b := by
  rcases known with lost | ⟨row, found⟩
  next => exact .inl (meanwhile.unanswered.mpr lost)
  next => exact .inr ⟨row, extends_moved meanwhile.moved _ _ found⟩

theorem lookup_kept (known : Known candidate i a) :
    ((claimTraffic codec etags candidate start).contract i).KeptRun
      (TableStorageIndexRegistry.withRetry settings (.getEntity (candidate i).vertical (candidate i).indexName))
      (LookedUp candidate i) (fun _ cloud => i ∈ cloud.unanswered) a := by
  apply Contract.keptRun_adapt
  apply keptRun_retryingCall (Known candidate i) _ _ _ _ _ _ _ _ known
  next => exact fun meanwhile known => known_meanwhile meanwhile known
  next => exact fun meanwhile lost => meanwhile.unanswered.mpr lost
  next => exact fun _ _ _ => trivial
  next =>
    intro t w u known sound later
    have read : (claimTraffic codec etags candidate start).handler i w
        (.getEntity (candidate i).vertical (candidate i).indexName) t.server =
          ((t.server.row (tableKey (candidate i))).map (Table.recordAt (tableKey (candidate i))), t.server) := rfl
    rw [read] at later ⊢
    cases found : t.server.row (tableKey (candidate i)) with
    | none => exact later.unanswered.mpr (known.resolve_right (by simp [found]))
    | some row => exact ⟨row, rfl, extends_moved later.moved _ _ found⟩
  next =>
    intro t fault after known missed
    have lost : i ∈ after.unanswered := by simp [missed.unanswered]
    exact ⟨lost, .inl lost⟩

theorem recovery_kept (e : HttpResponseError) (answered : CreateAnswered codec candidate i (.error e) a) :
    ((claimTraffic codec etags candidate start).contract i).Kept
      (Prog.lowerRun (TableStorageIndexRegistry.withRetry settings) (Except.mapError Raised.provisioning <$>
        recovery codec (candidate i) ⟨"", e.text, mapStatus e⟩)).run
      (Reconciled codec candidate i) a := by
  unfold recovery
  split
  next unlike =>
    have lost : i ∈ a.unanswered := answered.resolve_right fun conflict => unlike conflict.1
    exact fun u later => .inl (later.unanswered.mpr lost)
  next =>
    apply Contract.kept_lowerRun_op
    apply Contract.kept_mono _ (lookup_kept settings (answered.imp_right fun conflict => conflict.2))
    intro result t ended
    cases result with
    | error e => exact .inl ended
    | ok found =>
      intro u later
      apply reconciled_meanwhile later
      change LookedUp candidate i found t at ended
      cases found with
      | none => exact .inl ended
      | some record =>
        obtain ⟨row, rfl, found⟩ := ended
        simp only [recovered, Table.recordAt]
        cases decoded : codec.entityToEntry row.data with
        | ok stored => exact ⟨row, found, decoded⟩
        | error text => exact .inr ⟨row, text, found, decoded⟩

theorem register_kept_over :
    ((claimTraffic codec etags candidate start).contract i).Kept
      (TableStorageIndexRegistry.overTable settings (TableStorageIndexRegistry.register codec (candidate i))).run
      (Reconciled codec candidate i) a := by
  rw [TableStorageIndexRegistry.overTable, register_run]
  apply Contract.kept_lowerRun_op
  apply Contract.kept_mono _ (create_kept settings)
  intro answer t ended
  cases answer with
  | error e => exact ended
  | ok answer =>
    cases answer with
    | ok tag => exact fun u later => reconciled_meanwhile later ended
    | error e => exact recovery_kept settings e ended

end OneRegistration

abbrev RemoteRegistrants (Data ι : Type) :=
  Pool (Over (TableEffects Data)) (fun _ : ι => Except Raised IndexRegistryEntry) (ClaimCloud Data ι)

variable (codec candidate) in
def remoteRegistrants (settings : RetrySettings) (table : Table Data) : RemoteRegistrants Data ι where
  threads i :=
    (TableStorageIndexRegistry.overTable settings (TableStorageIndexRegistry.register codec (candidate i))).run
  state := ⟨table, [], []⟩

variable (candidate) in
def WonRemotely (c : RemoteRegistrants Data ι) (i : ι) : Prop :=
  ∃ entry, c.threads i = .ret (.ok entry) ∧ entry.claimToken = (candidate i).claimToken

variable (codec etags candidate) in
structure ExclusiveRemotely (indexName : String) (start : Table Data) (c : RemoteRegistrants Data ι) : Prop where
  oneWinner : ∀ i j, WonRemotely candidate c i → WonRemotely candidate c j → i = j
  readsWinner : ∀ i, WonRemotely candidate c i → ∀ w,
    readBack codec etags w indexName c.state.server = .ok (some (candidate i))
  -- Nothing that is still on its way will change the table.
  settled : ∀ i, WonRemotely candidate c i → ∀ call ∈ c.state.inFlight, ∀ w,
    (idealTable etags w call.2 c.state.server).2 = c.state.server
  -- Who was answered every time returns, unless the key held an entity that nobody can read.
  raised : ∀ i e, c.threads i = .ret (.error e) → i ∉ c.state.unanswered → ∃ row text,
    start.row (tableKey (candidate i)) = some row ∧ codec.entityToEntry row.data = .error text

-- With a token of its own, the entity under the key of `i` is the one that `i` created.
theorem created_of_own {indexName : String} (named : ∀ i, (candidate i).indexName = indexName)
    (distinct : Function.Injective fun i => (candidate i).claimToken)
    (unclaimed : NoTokenStored codec candidate indexName start) (claimed : Claimed codec candidate start s)
    {entry : IndexRegistryEntry} (held : ReadsAs codec (candidate i) entry s)
    (own : entry.claimToken = (candidate i).claimToken) :
    start.row ((candidate i).vertical, indexName) = none ∧ ∃ row,
      s.row ((candidate i).vertical, indexName) = some row ∧ row.data = codec.entryToEntityData (candidate i) := by
  obtain ⟨row, found, decoded⟩ := held
  simp only [tableKey, named] at found
  have late : start.row ((candidate i).vertical, indexName) ≠ some row := by
    intro early
    exact unclaimed _ row entry early decoded i own
  constructor
  next =>
    cases early : start.row ((candidate i).vertical, indexName) with
    | none => rfl
    | some first =>
      have kept := claimed.kept _ _ early
      rw [found] at kept
      exact absurd (early.trans kept.symm) late
  next =>
    refine ⟨row, found, ?_⟩
    obtain early | ⟨j, _, data⟩ := claimed.created _ _ found
    next => exact absurd early late
    next =>
      rw [data, codec.roundTrips] at decoded
      obtain rfl := Except.ok.inj decoded
      rw [data, distinct own]

variable [DecidableEq ι]

variable (codec etags candidate start) in
theorem reconciled_run (settings : RetrySettings) (schedule : List (ι × Weather (TableWorld Data) Fault)) :
    let c : RemoteRegistrants Data ι :=
      Pool.runAs (connection fun _ => idealTable etags) schedule (remoteRegistrants codec candidate settings start)
    Claimed codec candidate start c.state.server ∧
      (∀ call ∈ c.state.inFlight, Creates codec (candidate call.1) call.2) ∧
      ∀ i result, c.threads i = .ret result → Reconciled codec candidate i result c.state := by
  intro c
  have initial : (claimTraffic codec etags candidate start).inv
      (remoteRegistrants codec candidate settings start).state.server :=
    ⟨fun _ _ found => found, fun _ _ found => .inl found⟩
  obtain ⟨sound, threads⟩ := Traffic.sound_run (claimTraffic codec etags candidate start) initial rfl
    (fun i => register_kept_over settings) schedule
  refine ⟨sound.inv, sound.good, fun i result finished => ?_⟩
  have kept : ((claimTraffic codec etags candidate start).contract i).Kept (c.threads i)
      (Reconciled codec candidate i) c.state := threads i
  rw [finished] at kept
  exact kept _ (Traffic.meanwhile_refl i _)

theorem exclusive_remotely {indexName : String} (named : ∀ i, (candidate i).indexName = indexName)
    (distinct : Function.Injective fun i => (candidate i).claimToken)
    (unclaimed : NoTokenStored codec candidate indexName start) (oneKey : OneKey candidate indexName start)
    (settings : RetrySettings) (schedule : List (ι × Weather (TableWorld Data) Fault)) :
    ExclusiveRemotely codec etags candidate indexName start (Pool.runAs (connection fun _ => idealTable etags) schedule
      (remoteRegistrants codec candidate settings start)) := by
  obtain ⟨claimed, creates, told⟩ := reconciled_run codec etags candidate start settings schedule
  generalize Pool.runAs (connection fun _ => idealTable etags) schedule
    (remoteRegistrants codec candidate settings start) = c at claimed creates told ⊢
  have won (i : ι) (wins : WonRemotely candidate c i) : start.row ((candidate i).vertical, indexName) = none ∧
      ∃ row, c.state.server.row ((candidate i).vertical, indexName) = some row ∧
        row.data = codec.entryToEntityData (candidate i) := by
    obtain ⟨entry, returned, own⟩ := wins
    exact created_of_own named distinct unclaimed claimed (told i _ returned) own
  have raised (i : ι) (e : Raised) (finished : c.threads i = .ret (.error e)) (answered : i ∉ c.state.unanswered) :
      ∃ row text, start.row (tableKey (candidate i)) = some row ∧ codec.entityToEntry row.data = .error text := by
    rcases told i _ finished with lost | ⟨row, text, found, corrupt⟩
    next => exact absurd lost answered
    next =>
      obtain early | ⟨j, _, data⟩ := claimed.created _ _ found
      next => exact ⟨row, text, early, corrupt⟩
      next => simp [data, codec.roundTrips] at corrupt
  obtain taken | ⟨free, alike⟩ := oneKey
  next =>
    have nobody (i : ι) (wins : WonRemotely candidate c i) : False := taken i (won i wins).1
    exact ⟨fun i _ wins => (nobody i wins).elim, fun i wins => (nobody i wins).elim,
      fun i wins => (nobody i wins).elim, raised⟩
  next =>
    constructor
    next =>
      intro i j wins wins'
      obtain ⟨_, row, found, data⟩ := won i wins
      obtain ⟨_, row', found', data'⟩ := won j wins'
      rw [alike i j, found'] at found
      obtain rfl := Option.some.inj found
      have same : candidate i = candidate j := by
        simpa [data', codec.roundTrips] using congrArg codec.entityToEntry data.symm
      exact distinct (congrArg (·.claimToken) same)
    next =>
      intro i wins w
      obtain ⟨_, row, found, data⟩ := won i wins
      refine readBack_only etags found (by rw [data, codec.roundTrips]) (fun other present => ?_) w
      obtain ⟨stored, present⟩ := Option.ne_none_iff_exists'.mp present
      obtain early | ⟨j, key, _⟩ := claimed.created _ _ present
      next => simp [free] at early
      next =>
        rw [alike i j]
        exact congrArg Prod.fst key
    next =>
      intro i wins call waiting w
      obtain ⟨_, row, found, _⟩ := won i wins
      obtain same | ⟨absent, _⟩ := creates_cases etags (creates call waiting) w c.state.server
      next => exact same
      next =>
        rw [alike i call.1] at found
        simp [tableKey, named, found] at absent
    next => exact raised

theorem order_kept (found : List (TableEntityRecord IndexRegistryEntry)) : (id found).Perm found := .rfl

def asListed : TableWorld IndexRegistryEntry where
  complete := order_kept

def claimWeather (fate : Fate Fault) : Weather (TableWorld IndexRegistryEntry) Fault := ⟨asListed, fate, []⟩

/-- The first creates the entity, but is not told; the second gave up on an attempt that is still on its way. -/
def lostClaims : List (Bool × Weather (TableWorld IndexRegistryEntry) Fault) :=
  [(true, claimWeather (.abandoned (.timeout "no answer"))),
    (false, claimWeather (.failed (.timeout "no answer") true)),
    (false, claimWeather .answered), (false, claimWeather .answered), (false, claimWeather .answered),
    (true, claimWeather .answered), (true, claimWeather .answered), (true, claimWeather .answered)]

def registrantsUnanswered : RemoteRegistrants IndexRegistryEntry Bool :=
  Pool.runAs (connection fun _ => idealTable countedEtags) lostClaims
    (remoteRegistrants plainCodec (rivals fun _ => "hr") {} {})

theorem exclusive_unanswered :
    (registrantsUnanswered.threads false = .ret (.ok (sampleEntry "hr" "a")) ∧
      registrantsUnanswered.threads true = .ret (.ok (sampleEntry "hr" "a"))) ∧
    ExclusiveRemotely plainCodec countedEtags (rivals fun _ => "hr") "policies" {} registrantsUnanswered := by
  refine ⟨⟨rfl, rfl⟩, ?_⟩
  apply exclusive_remotely (by decide) (rivals_distinct _) (rivals_noTokenStored _ _)
  exact .inr ⟨fun _ => rfl, by decide⟩

end Vestibule.Provisioning
