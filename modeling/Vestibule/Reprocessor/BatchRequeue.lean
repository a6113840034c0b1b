import Vestibule.Pipeline.Contention
import Vestibule.Reprocessor.Reports

set_option autoImplicit false

namespace Vestibule

open Library

theorem wp_ledgerGet_iff {W σ : Type} (h : Handler Effects W σ) (I : σ → Prop) (docId : String)
    (Q : Except Exc (Option LedgerRow) → σ → Prop) (s : σ) :
    Prog.wp h I (Py.ledgerGet docId).run Q s ↔ ∀ w, I (h w (.ledgerGet docId) s).2 ∧
      Q (.ok (h w (.ledgerGet docId) s).1) (h w (.ledgerGet docId) s).2 := Iff.rfl

theorem wp_ledgerTransition_iff {W σ : Type} (h : Handler Effects W σ) (I : σ → Prop) (request : TransitionRequest)
    (Q : Except Exc LedgerRow → σ → Prop) (s : σ) :
    Prog.wp h I (Py.ledgerTransition request).run Q s ↔ ∀ w, I (h w (.ledgerTransition request) s).2 ∧
      Q (h w (.ledgerTransition request) s).1 (h w (.ledgerTransition request) s).2 := Iff.rfl

-- The candidates of a batch are listed once; each is then checked and written in two steps, between which
-- other callers may move it.

section Presence

variable {V X : Type}

def Present (docs : List String) (s : System × X) : Prop := ∀ docId ∈ docs, (s.1.ledger.get docId).isSome

theorem runCallsFrom_isSome {s : InMemoryLedgerStore} {docId : String} (present : (s.get docId).isSome)
    (calls : List LedgerCall) : ((runCallsFrom s calls).get docId).isSome := by
  induction calls generalizing s with
  | nil => exact present
  | cons call rest ih =>
    obtain ⟨row, held⟩ := Option.isSome_iff_exists.mp present
    exact ih (apply_get_isSome held)

theorem pipeline_isSome (adapter : IndexerAdapter V X) (w : World × V) (o : Op) {s : System × X} {docId : String}
    (present : (s.1.ledger.get docId).isSome) : ((pipeline adapter w o s).2.1.ledger.get docId).isSome := by
  obtain ⟨row, held⟩ := Option.isSome_iff_exists.mp present
  cases o with
  | ledgerTransition request => exact @apply_get_isSome _ (.transition w.1.now request) _ _ held
  | _ => exact present

-- No caller removes a row.
theorem wp_present {α : Type} (adapter : IndexerAdapter V X) {docs : List String} (p : Prog Effects α) {s : System × X}
    (present : Present docs s) (seen : List (ContendedVisit V X)) :
    Prog.wp (Prog.journaled (contended adapter)) (fun _ => True) p (fun _ journal => Present docs journal.1)
      (s, seen) := by
  have kept : Prog.wp (Prog.journaled (contended adapter)) (fun journal => Present docs journal.1) p
      (fun _ journal => Present docs journal.1) (s, seen) := by
    refine Prog.wp_of_uses (s := (s, seen)) (Prog.uses_trivial p) ?_ present
    intro o _ w journal held docId member
    exact pipeline_isSome adapter w.2 o (runCallsFrom_isSome (held docId member) w.1)
  exact Prog.wp_consequence (fun _ _ => trivial) (fun _ _ held => held) kept

end Presence

namespace Reprocessor

section Batch

variable {V X : Type}

def FindsFailed (docId : String) (visit : ContendedVisit V X) : Prop :=
  ∃ row, (found visit).get docId = some row ∧ row.status = .failed

def requeueRequest (docId : String) : TransitionRequest := { docId, toStatus := .pending, stage := .pending }

structure Moves (adapter : IndexerAdapter V X) (docId : String) (visit : ContendedVisit V X) : Prop where
  writes : visit.op = .ledgerTransition (requeueRequest docId)
  source : FindsFailed docId visit
  target : HasStatus docId .pending (contended adapter visit.world visit.op visit.state).2

structure FindsLeft (docId : String) (visit : ContendedVisit V X) : Prop where
  checks : visit.op = .ledgerGet docId
  left : ¬ FindsFailed docId visit

inductive Turn (adapter : IndexerAdapter V X) (docId : String) (batch : BatchRequeueResult) :
    Except Exc BatchRequeueResult → List (ContendedVisit V X) → Prop where
  | skipped (check : ContendedVisit V X) (left : FindsLeft docId check) :
      Turn adapter docId batch (.ok { batch with skipped := batch.skipped ++ [docId] }) [check]
  | written (result : Except Exc BatchRequeueResult) (check write : ContendedVisit V X)
      (checks : check.op = .ledgerGet docId) (writes : write.op = .ledgerTransition (requeueRequest docId))
      (reported : ∀ after, result = .ok after → after = { batch with requeued := batch.requeued ++ [docId] })
      (moved : FindsFailed docId write → Moves adapter docId write ∧
        result = .ok { batch with requeued := batch.requeued ++ [docId] }) :
      Turn adapter docId batch result [check, write]

section Write

variable (adapter : IndexerAdapter V X) {batch : BatchRequeueResult} {docId : String} {check : ContendedVisit V X}
  (checks : check.op = .ledgerGet docId) (w : List LedgerCall × World × V) (s : System × X)

def writeVisit (docId : String) : ContendedVisit V X := ⟨w, .ledgerTransition (requeueRequest docId), s⟩

include checks

theorem turn_of_moved {before : LedgerRow} {correct : RowWellFormed (requeueRequest docId).docId _}
    (accepted : (found (writeVisit w s docId)).transition w.2.1.now (requeueRequest docId) =
      (.ok (nextRow w.2.1.now before (requeueRequest docId)),
        (found (writeVisit w s docId)).put (requeueRequest docId).docId
          (nextRow w.2.1.now before (requeueRequest docId)) correct)) :
    Turn adapter docId batch (.ok { batch with requeued := batch.requeued ++ [docId] })
      [check, writeVisit w s docId] := by
  refine .written _ check (writeVisit w s docId) checks rfl (by rintro _ ⟨rfl⟩; rfl) ?_
  intro source
  refine ⟨⟨rfl, source, ?_⟩, rfl⟩
  have after : (contended adapter w (.ledgerTransition (requeueRequest docId)) s).2.1.ledger =
      (found (writeVisit w s docId)).put (requeueRequest docId).docId
        (nextRow w.2.1.now before (requeueRequest docId)) correct := congrArg Prod.snd accepted
  have stored : (contended adapter w (.ledgerTransition (requeueRequest docId)) s).2.1.ledger.get
      (requeueRequest docId).docId = some (nextRow w.2.1.now before (requeueRequest docId)) := by
    rw [after, InMemoryLedgerStore.get_put, if_pos rfl]
  exact HasStatus.of_get stored

theorem turn_of_refused {result : Except Exc BatchRequeueResult} (left : ¬ FindsFailed docId (writeVisit w s docId))
    (reported : ∀ after, result = .ok after → after = { batch with requeued := batch.requeued ++ [docId] }) :
    Turn adapter docId batch result [check, writeVisit w s docId] := by
  refine .written result check (writeVisit w s docId) checks rfl reported ?_
  intro failed
  exact (left failed).elim

end Write

theorem wp_requeueNext (adapter : IndexerAdapter V X) (batch : BatchRequeueResult) (docId : String) {s : System × X}
    (present : (s.1.ledger.get docId).isSome) (seen : List (ContendedVisit V X)) :
    Prog.wp (Prog.journaled (contended adapter)) (fun _ => True) (requeueNext batch docId).run
      (fun result journal => ∃ visits, journal.2 = seen ++ visits ∧ Turn adapter docId batch result visits)
      (s, seen) := by
  simp only [requeueNext, requeue, requireFailed, Prog.wp_run_tryCatch, Prog.wp_run_bind, wp_ofExcept,
    Prog.wp_run_pure, wp_ledgerGet_iff, wp_ledgerTransition_iff]
  intro w
  refine ⟨trivial, ?_⟩
  obtain ⟨row, held⟩ := Option.isSome_iff_exists.mp (runCallsFrom_isSome present w.1)
  have answer : (Prog.journaled (contended adapter) w (.ledgerGet docId) (s, seen)).1 = some row := held
  rw [answer]
  by_cases failed : row.status = .failed
  next =>
    have passed : checkFailed docId "requeue" (some row) = .ok row := by simp [checkFailed, failed]
    rw [passed]
    intro w'
    refine ⟨trivial, ?_⟩
    let check : ContendedVisit V X := ⟨w, .ledgerGet docId, s⟩
    let write : ContendedVisit V X := writeVisit w' (interfere w.1 s) docId
    have journal : seen ++ [check] ++ [write] = seen ++ [check, write] := by simp
    have answered (result : Except Exc LedgerRow)
        (same : ((found write).transition w'.2.1.now (requeueRequest docId)).1.mapError Exc.ofLedgerFault = result) :
        (Prog.journaled (contended adapter) w' (.ledgerTransition { docId, toStatus := .pending, stage := .pending })
          (Prog.journaled (contended adapter) w (.ledgerGet docId) (s, seen)).2).1 = result := same
    rcases transition_answer (found write) w'.2.1.now (requeueRequest docId) rfl (by simp [requeueRequest]) with
      ⟨before, correct, stood, _, accepted⟩ | ⟨fault, rejected, _, _, _, noEdge⟩ | ⟨fault, rejected, absent⟩
    next =>
      rw [answered (.ok (nextRow w'.2.1.now before (requeueRequest docId))) (by rw [accepted]; rfl)]
      exact ⟨_, journal, turn_of_moved adapter rfl w' (interfere w.1 s) accepted⟩
    next =>
      have left : ¬ FindsFailed docId write := by
        rintro ⟨row, stood, status⟩
        have edge : Edge .failed .pending := by decide
        exact noEdge row stood (status ▸ edge)
      rw [answered (.error (.ledgerTransitionInvalid fault)) (by rw [rejected]; rfl)]
      simp only
      split
      next =>
        split
        next => exact ⟨_, journal, turn_of_refused adapter rfl w' _ left (by rintro _ ⟨rfl⟩; rfl)⟩
        next => exact ⟨_, journal, turn_of_refused adapter rfl w' _ left (by simp)⟩
      next => exact ⟨_, journal, turn_of_refused adapter rfl w' _ left (by simp)⟩
    next =>
      have left : ¬ FindsFailed docId write := by
        rintro ⟨row, stood, _⟩
        exact absurd (absent.symm.trans stood) (by simp)
      rw [answered (.error (.identity fault)) (by rw [rejected]; rfl)]
      exact ⟨_, journal, turn_of_refused adapter rfl w' _ left (by simp)⟩
  next =>
    simp only [checkFailed, ne_eq, failed, not_false_eq_true, if_true, not_true_eq_false, if_false, Prog.wp_run_pure]
    refine ⟨[⟨w, .ledgerGet docId, s⟩], rfl, .skipped _ ⟨rfl, ?_⟩⟩
    rintro ⟨other, stood, status⟩
    obtain rfl : row = other := Option.some.inj (held.symm.trans stood)
    exact failed status

/-- The candidates in turn, up to the first one that raises. -/
inductive Turns (adapter : IndexerAdapter V X) :
    List String → BatchRequeueResult → Except Exc BatchRequeueResult → List (ContendedVisit V X) → Prop where
  | done (batch : BatchRequeueResult) : Turns adapter [] batch (.ok batch) []
  | raised {docId : String} {rest : List String} {batch : BatchRequeueResult} {exc : Exc}
      {visits : List (ContendedVisit V X)} (turn : Turn adapter docId batch (.error exc) visits) :
      Turns adapter (docId :: rest) batch (.error exc) visits
  | next {docId : String} {rest : List String} {batch after : BatchRequeueResult}
      {result : Except Exc BatchRequeueResult} {visits more : List (ContendedVisit V X)}
      (turn : Turn adapter docId batch (.ok after) visits) (later : Turns adapter rest after result more) :
      Turns adapter (docId :: rest) batch result (visits ++ more)

theorem wp_requeueAll (adapter : IndexerAdapter V X) (docs : List String) (batch : BatchRequeueResult) {s : System × X}
    (present : Present docs s) (seen : List (ContendedVisit V X)) :
    Prog.wp (Prog.journaled (contended adapter)) (fun _ => True) (docs.foldlM requeueNext batch).run
      (fun result journal => ∃ visits, journal.2 = seen ++ visits ∧ Turns adapter docs batch result visits)
      (s, seen) := by
  induction docs generalizing batch s seen with
  | nil => exact ⟨[], by simp, .done batch⟩
  | cons docId rest ih =>
    have others : Present rest s := fun other member => present other (by simp [member])
    rw [List.foldlM_cons, Prog.wp_run_bind]
    apply Prog.wp_mono _ (Prog.wp_and (wp_requeueNext adapter batch docId (present docId (by simp)) seen)
      (wp_present adapter _ others seen))
    intro result journal ended
    obtain ⟨⟨visits, journaled, turn⟩, stillPresent⟩ := ended
    cases result with
    | error exc => exact ⟨visits, journaled, .raised turn⟩
    | ok after =>
      apply Prog.wp_mono _ (ih after stillPresent journal.2)
      intro result last later
      obtain ⟨more, extended, turns⟩ := later
      exact ⟨visits ++ more, by rw [extended, journaled, List.append_assoc], .next turn turns⟩

variable {adapter : IndexerAdapter V X} {docs : List String} {batch : BatchRequeueResult}
variable {result : Except Exc BatchRequeueResult} {visits : List (ContendedVisit V X)}

def StillFailed (visits : List (ContendedVisit V X)) : Prop :=
  ∀ visit ∈ visits, ∀ request, visit.op = .ledgerTransition request → FindsFailed request.docId visit

theorem stillFailed_append {more : List (ContendedVisit V X)} :
    StillFailed (visits ++ more) ↔ StillFailed visits ∧ StillFailed more := by
  simp only [StillFailed, List.forall_mem_append]

theorem Turn.writes_own {docId : String} (turn : Turn adapter docId batch result visits) :
    ∀ visit ∈ visits, ∀ request, visit.op = .ledgerTransition request → request.docId = docId := by
  intro visit member request writes
  cases turn with
  | skipped check left =>
    obtain rfl := List.mem_singleton.mp member
    rw [left.checks] at writes
    cases writes
  | written _ check write checks written _ _ =>
    rcases List.mem_pair.mp member with rfl | rfl
    next =>
      rw [checks] at writes
      cases writes
    next =>
      rw [written] at writes
      cases writes
      rfl

theorem Turns.writes_mem (turns : Turns adapter docs batch result visits) :
    ∀ visit ∈ visits, ∀ request, visit.op = .ledgerTransition request → request.docId ∈ docs := by
  induction turns with
  | done batch => simp
  | raised turn =>
    intro visit member request writes
    rw [turn.writes_own visit member request writes]
    simp
  | next turn later ih =>
    intro visit member request writes
    rcases List.mem_append.mp member with early | late
    next =>
      rw [turn.writes_own visit early request writes]
      simp
    next => exact List.mem_cons_of_mem _ (ih visit late request writes)

theorem Turns.requeued_subset (turns : Turns adapter docs batch result visits) :
    ∀ after, result = .ok after → batch.requeued ⊆ after.requeued := by
  induction turns with
  | done batch =>
    rintro _ ⟨rfl⟩
    exact List.Subset.refl _
  | raised turn => simp
  | next turn later ih =>
    intro after returned
    refine List.Subset.trans ?_ (ih after returned)
    cases turn with
    | skipped check left => exact List.Subset.refl _
    | written _ check write _ _ reported _ =>
      rw [reported _ rfl]
      exact List.subset_append_left _ _

structure Parts (adapter : IndexerAdapter V X) (docs : List String) (visits : List (ContendedVisit V X))
    (requeued skipped : List String) : Prop where
  parted : ∃ keep : String → Bool, requeued = docs.filter keep ∧ skipped = docs.filter fun docId => !keep docId
  moved : ∀ docId ∈ requeued, ∃ visit ∈ visits, Moves adapter docId visit
  left : ∀ docId ∈ skipped, ∃ visit ∈ visits, FindsLeft docId visit

theorem filter_cons_update {docId : String} {rest : List String} (fresh : docId ∉ rest) (keep : String → Bool)
    (own : Bool) :
    (docId :: rest).filter (fun other => if other = docId then own else keep other) =
      (if own then [docId] else []) ++ rest.filter keep := by
  have others : rest.filter (fun other => if other = docId then own else keep other) = rest.filter keep := by
    apply List.filter_congr
    intro other member
    have different : other ≠ docId := by
      rintro rfl
      exact fresh member
    simp [different]
  cases own with
  | true => simpa [List.filter_cons] using others
  | false => simpa [List.filter_cons] using others

theorem Parts.cons {docId : String} {rest requeued skipped : List String} {more : List (ContendedVisit V X)}
    (fresh : docId ∉ rest) (own : Bool) (kept : own = true → ∃ visit ∈ visits, Moves adapter docId visit)
    (gone : own = false → ∃ visit ∈ visits, FindsLeft docId visit) (later : Parts adapter rest more requeued skipped) :
    Parts adapter (docId :: rest) (visits ++ more) ((if own then [docId] else []) ++ requeued)
      ((if own then [] else [docId]) ++ skipped) := by
  obtain ⟨⟨keep, rfl, rfl⟩, moved, left⟩ := later
  refine ⟨⟨fun other => if other = docId then own else keep other, (filter_cons_update fresh keep own).symm, ?_⟩, ?_, ?_⟩
  next =>
    have negated := filter_cons_update fresh (fun other => !keep other) (!own)
    have same : (fun other => !(if other = docId then own else keep other)) =
        fun other => if other = docId then !own else !keep other := by
      funext other
      split
      next => rfl
      next => rfl
    rw [same, negated]
    cases own with
    | true => rfl
    | false => rfl
  next =>
    intro other member
    rcases List.mem_append.mp member with first | next
    next =>
      cases own with
      | false => cases first
      | true =>
        obtain rfl := List.mem_singleton.mp first
        obtain ⟨visit, included, moves⟩ := kept rfl
        exact ⟨visit, List.mem_append_left _ included, moves⟩
    next =>
      obtain ⟨visit, included, moves⟩ := moved other next
      exact ⟨visit, List.mem_append_right _ included, moves⟩
  next =>
    intro other member
    rcases List.mem_append.mp member with first | next
    next =>
      cases own with
      | true => cases first
      | false =>
        obtain rfl := List.mem_singleton.mp first
        obtain ⟨visit, included, finds⟩ := gone rfl
        exact ⟨visit, List.mem_append_left _ included, finds⟩
    next =>
      obtain ⟨visit, included, finds⟩ := left other next
      exact ⟨visit, List.mem_append_right _ included, finds⟩

theorem Turns.parts (turns : Turns adapter docs batch result visits) (nodup : docs.Nodup) (still : StillFailed visits) :
    ∃ requeued skipped, Parts adapter docs visits requeued skipped ∧
      result = .ok { batch with requeued := batch.requeued ++ requeued, skipped := batch.skipped ++ skipped } := by
  induction turns with
  | done batch => exact ⟨[], [], ⟨⟨fun _ => true, rfl, rfl⟩, by simp, by simp⟩, by simp⟩
  | raised turn =>
    cases turn with
    | written _ check write checks writes reported moved =>
      have source := still write (by simp) _ writes
      cases (moved source).2
  | next turn later ih =>
    obtain ⟨fresh, distinct⟩ := List.nodup_cons.mp nodup
    obtain ⟨own, rest⟩ := stillFailed_append.mp still
    obtain ⟨requeued, skipped, parts, rfl⟩ := ih distinct rest
    cases turn with
    | skipped check left =>
      exact ⟨_, _, parts.cons fresh false (by simp) (fun _ => ⟨check, by simp, left⟩), by simp⟩
    | written _ check write checks writes reported moved =>
      have moves := (moved (own write (by simp) _ writes)).1
      rw [reported _ rfl]
      exact ⟨_, _, parts.cons fresh true (fun _ => ⟨write, by simp, moves⟩) (by simp), by simp⟩

-- The converse: each candidate has one write at most, so what moved it is that write.
theorem Turns.stillFailed (turns : Turns adapter docs batch result visits) (nodup : docs.Nodup)
    {after : BatchRequeueResult} (returned : result = .ok after)
    (moved : ∀ docId ∈ docs, docId ∈ after.requeued → ∃ visit ∈ visits, Moves adapter docId visit) :
    StillFailed visits := by
  induction turns with
  | done batch => simp [StillFailed]
  | raised turn => cases returned
  | @next docId rest batch middle result visits more turn later ih =>
    obtain ⟨fresh, distinct⟩ := List.nodup_cons.mp nodup
    rw [stillFailed_append]
    constructor
    next =>
      cases turn with
      | skipped check left =>
        intro visit member request writes
        obtain rfl := List.mem_singleton.mp member
        rw [left.checks] at writes
        cases writes
      | written _ check write checks writes reported _ =>
        have reportedHere : docId ∈ after.requeued := by
          apply later.requeued_subset after returned
          rw [reported _ rfl]
          simp
        obtain ⟨visit, member, moves⟩ := moved docId (by simp) reportedHere
        rcases List.mem_append.mp member with here | there
        next =>
          rcases List.mem_pair.mp here with rfl | rfl
          next => exact absurd (checks.symm.trans moves.writes) (by simp)
          next =>
            intro other included request written
            rcases List.mem_pair.mp included with rfl | rfl
            next => exact absurd (checks.symm.trans written) (by simp)
            next =>
              cases written.symm.trans moves.writes
              exact moves.source
        next => exact (fresh (later.writes_mem visit there _ moves.writes)).elim
    next =>
      apply ih distinct returned
      intro other member requeued
      obtain ⟨visit, included, moves⟩ := moved other (List.mem_cons_of_mem _ member) requeued
      rcases List.mem_append.mp included with here | there
      next =>
        have same : other = docId := turn.writes_own visit here _ moves.writes
        exact (fresh (same ▸ member)).elim
      next => exact ⟨visit, there, moves⟩

variable (adapter) (config : ReprocessorConfig) (errorCode : String) (limit : Int)

def candidates (listed : InMemoryLedgerStore) : List String :=
  (listFailed listed (min limit config.maxBatchRequeue) (some errorCode)).map (·.docId)

theorem requeueByErrorCode_eq (listed : InMemoryLedgerStore) :
    requeueByErrorCode config listed errorCode limit =
      (candidates config errorCode limit listed).foldlM requeueNext ⟨errorCode, [], []⟩ := by
  rw [requeueByErrorCode, candidates, List.foldlM_map]

theorem candidates_present (s : System × X) : Present (candidates config errorCode limit s.1.ledger) s := by
  intro docId member
  obtain ⟨item, listed, rfl⟩ := List.mem_map.mp member
  obtain ⟨row, present, _⟩ := mem_listFailed _ _ _ _ _ listed
  rw [present]
  rfl

def RobustAndHonest (oracle : Nat → List LedgerCall × World × V) (s : System × X) : Prop :=
  ∃ batch,
    (Prog.run (contended adapter) (requeueByErrorCode config s.1.ledger errorCode limit).run oracle s).1 = .ok batch ∧
    batch.errorCode = errorCode ∧ (candidates config errorCode limit s.1.ledger).Nodup ∧
    Parts adapter (candidates config errorCode limit s.1.ledger)
      (Prog.visits (contended adapter) (requeueByErrorCode config s.1.ledger errorCode limit).run oracle s)
      batch.requeued batch.skipped

theorem robustAndHonest_iff (oracle : Nat → List LedgerCall × World × V) (s : System × X) :
    RobustAndHonest adapter config errorCode limit oracle s ↔
      StillFailed (Prog.visits (contended adapter) (requeueByErrorCode config s.1.ledger errorCode limit).run oracle s) := by
  have nodup : (candidates config errorCode limit s.1.ledger).Nodup := listFailed_nodup _ _ _ _ _
  have present := candidates_present config errorCode limit s
  have ran := Prog.visits_of_wp (wp_requeueAll adapter _ ⟨errorCode, [], []⟩ present []) oracle
  rw [RobustAndHonest, requeueByErrorCode_eq]
  obtain ⟨visits, journal, turns⟩ := ran
  simp only [List.nil_append] at journal
  rw [journal]
  constructor
  next =>
    rintro ⟨batch, returned, _, _, parts⟩
    exact turns.stillFailed nodup returned fun docId _ => parts.moved docId
  next =>
    intro still
    obtain ⟨requeued, skipped, parts, returned⟩ := turns.parts nodup still
    exact ⟨_, returned, rfl, nodup, by simpa using parts⟩

end Batch

-- Another caller steps in between the check and the write of the only candidate.

def oneFailed : System × Unit := ({ ledger := crowd 1 }, ())

def meanwhile (calls : List LedgerCall) : Nat → List LedgerCall × World × Unit :=
  fun operation => (if operation = 1 then calls else [], {}, ())

def archiveCall : LedgerCall :=
  .transition 5 { docId := numberedId 0, toStatus := .archived, stage := .archived,
                  errorCode := some chunkerEmptyElements, errorMessage := some "unreadable" }

def requeueCall : LedgerCall := .transition 5 (requeueRequest (numberedId 0))

theorem candidates_one : candidates {} chunkerEmptyElements 100 oneFailed.1.ledger = [numberedId 0] := by
  have one : scanned (crowd 1) = [failedRow 0] := by
    rw [scanned_eq]
    exact congrArg (List.take 10000) (List.mergeSort_singleton (failedRow 0))
  rw [candidates, listFailed_eq]
  change ((((scanned (crowd 1)).filter _).take _).map toFailedItem).map _ = _
  rw [one]
  rfl

theorem requeue_raises_when_archived :
    (∃ fault, (Prog.run (contended idleIndex)
      (requeueByErrorCode {} oneFailed.1.ledger chunkerEmptyElements).run (meanwhile [archiveCall]) oneFailed).1 =
        .error (.ledgerTransitionInvalid fault) ∧ fault.reason = "no transitions out of terminal status") ∧
    (Prog.run (contended idleIndex)
      (requeueByErrorCode {} oneFailed.1.ledger chunkerEmptyElements).run (meanwhile [requeueCall]) oneFailed).1 =
        .ok ⟨chunkerEmptyElements, [numberedId 0], []⟩ ∧
    ¬ RobustAndHonest idleIndex {} chunkerEmptyElements 100 (meanwhile [archiveCall]) oneFailed := by
  have raised : ∃ fault, (Prog.run (contended idleIndex)
      (requeueByErrorCode {} oneFailed.1.ledger chunkerEmptyElements).run (meanwhile [archiveCall]) oneFailed).1 =
        .error (.ledgerTransitionInvalid fault) ∧ fault.reason = "no transitions out of terminal status" := by
    rw [requeueByErrorCode_eq, candidates_one]
    exact ⟨_, rfl, rfl⟩
  refine ⟨raised, ?_, ?_⟩
  next =>
    rw [requeueByErrorCode_eq, candidates_one]
    rfl
  next =>
    rintro ⟨batch, returned, _⟩
    obtain ⟨fault, failed, _⟩ := raised
    rw [failed] at returned
    cases returned

end Reprocessor

end Vestibule
