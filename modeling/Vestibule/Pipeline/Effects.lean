import Vestibule.Library.Program
import Vestibule.Pipeline.Model

set_option autoImplicit false

namespace Vestibule

open Library

-- Every call that leaves a component is one atomic operation: a method of the ledger or of the review
-- registry (both hold a lock for the whole call), a read of the scenario store, a call of an injected
-- strategy, token counter or adapter, and the clock.

inductive StrategySlot where
  | recursive
  | structureAware
  | tableAtomic
  deriving DecidableEq

inductive Op where
  | now
  | ledgerGet (docId : String)
  | ledgerTransition (request : TransitionRequest)
  | registryRecord (docId : String) (metadata : ParkedMetadata)
  | registryDiscard (docId : String)
  | scenarioGet (scenarioId : String)
  | scenarioGetByVertical (vertical : String)
  | chunkRegion (slot : StrategySlot) (elements : List Element) (captionText docId : Option String)
  | count (text : String)
  | embedBatch (texts : List String)
  | getDocVersion (docId : String)
  | deleteByDocId (docId : String)
  | upsert (records : List IndexRecord)

def Op.Res : Op → Type
  | now => DateTime
  | ledgerGet _ => Option LedgerRow
  | ledgerTransition _ => Except Exc LedgerRow
  | registryRecord _ _ => Unit
  | registryDiscard _ => Unit
  | scenarioGet _ => Except Exc (Option Scenario)
  | scenarioGetByVertical _ => Except Exc (Option Scenario)
  | chunkRegion _ _ _ _ => Except Exc (List ChunkDraft)
  | count _ => Except Exc Int
  | embedBatch _ => Except Exc (List (List Float))
  | getDocVersion _ => Except Exc (Option String)
  | deleteByDocId _ => Except Exc Int
  | upsert _ => Except Exc UpsertOutcome

def IsLedgerWrite (o : Op) : Prop := ∃ request, o = .ledgerTransition request

abbrev NoWrite (o : Op) : Prop := ¬ IsLedgerWrite o

abbrev Effects : Signature := ⟨Op, Op.Res⟩

abbrev Py (α : Type) := ExceptT Exc (Prog Effects) α

structure System where
  ledger : InMemoryLedgerStore
  registry : Dict String ParkedMetadata := .empty

structure World where
  now : DateTime := 0
  scenario : Except Exc (Option Scenario) := .ok none
  drafts : Except Exc (List ChunkDraft) := .ok []
  tokens : Except Exc Int := .ok 0
  vectors : Except Exc (List (List Float)) := .ok []

/-- An index: its calls on a state `X`, with an environment `V` for what the state leaves open. -/
structure IndexerAdapter (V X : Type) where
  getDocVersion : V → String → X → Except Exc (Option String) × X
  deleteByDocId : V → String → X → Except Exc Int × X
  upsert : V → List IndexRecord → X → Except Exc UpsertOutcome × X

-- For runs in which the index plays no part.
def idleIndex : IndexerAdapter Unit Unit where
  getDocVersion _ _ index := (.ok none, index)
  deleteByDocId _ _ index := (.ok 0, index)
  upsert _ records index := (.ok ⟨records.map (·.chunkId), []⟩, index)

variable {V X : Type}

def pipeline (adapter : IndexerAdapter V X) : Handler Effects (World × V) (System × X) :=
  fun w o s => match o with
  | .now => (w.1.now, s)
  | .ledgerGet docId => (s.1.ledger.get docId, s)
  | .ledgerTransition request =>
      let (result, ledger) := s.1.ledger.transition w.1.now request
      (result.mapError Exc.ofLedgerFault, ({ s.1 with ledger }, s.2))
  | .registryRecord docId metadata =>
      ((), ({ s.1 with registry := s.1.registry.insert docId metadata }, s.2))
  | .registryDiscard docId => ((), ({ s.1 with registry := s.1.registry.erase docId }, s.2))
  | .scenarioGet _ => (w.1.scenario, s)
  | .scenarioGetByVertical _ => (w.1.scenario, s)
  | .chunkRegion _ _ _ _ => (w.1.drafts, s)
  | .count _ => (w.1.tokens, s)
  | .embedBatch _ => (w.1.vectors, s)
  | .getDocVersion docId =>
      let (result, index) := adapter.getDocVersion w.2 docId s.2
      (result, (s.1, index))
  | .deleteByDocId docId =>
      let (result, index) := adapter.deleteByDocId w.2 docId s.2
      (result, (s.1, index))
  | .upsert records =>
      let (result, index) := adapter.upsert w.2 records s.2
      (result, (s.1, index))

namespace Py

def ofExcept {α : Type} (result : Except Exc α) : Py α := ExceptT.mk (.ret result)

theorem tryCatch_ofExcept_ok {α : Type} (value : α) (handle : Exc → Py α) :
    tryCatch (ofExcept (.ok value)) handle = pure value := rfl

theorem tryCatch_ofExcept_error {α : Type} (exc : Exc) (handle : Exc → Py α) :
    tryCatch (ofExcept (.error exc)) handle = handle exc := rfl

theorem ofExcept_ok_bind {α β : Type} (value : α) (f : α → Py β) : (ofExcept (.ok value) >>= f) = f value := rfl

def now : Py DateTime := ExceptT.lift (Prog.perform (S := Effects) .now)

def ledgerGet (docId : String) : Py (Option LedgerRow) :=
  ExceptT.lift (Prog.perform (S := Effects) (.ledgerGet docId))

def ledgerTransition (request : TransitionRequest) : Py LedgerRow :=
  ExceptT.mk (Prog.perform (S := Effects) (.ledgerTransition request))

def registryRecord (docId : String) (metadata : ParkedMetadata) : Py Unit :=
  ExceptT.lift (Prog.perform (S := Effects) (.registryRecord docId metadata))

def registryDiscard (docId : String) : Py Unit :=
  ExceptT.lift (Prog.perform (S := Effects) (.registryDiscard docId))

def scenarioGet (scenarioId : String) : Py (Option Scenario) :=
  ExceptT.mk (Prog.perform (S := Effects) (.scenarioGet scenarioId))

def scenarioGetByVertical (vertical : String) : Py (Option Scenario) :=
  ExceptT.mk (Prog.perform (S := Effects) (.scenarioGetByVertical vertical))

def chunkRegion (slot : StrategySlot) (elements : List Element) (captionText docId : Option String) :
    Py (List ChunkDraft) :=
  ExceptT.mk (Prog.perform (S := Effects) (.chunkRegion slot elements captionText docId))

def count (text : String) : Py Int := ExceptT.mk (Prog.perform (S := Effects) (.count text))

def embedBatch (texts : List String) : Py (List (List Float)) :=
  ExceptT.mk (Prog.perform (S := Effects) (.embedBatch texts))

def getDocVersion (docId : String) : Py (Option String) :=
  ExceptT.mk (Prog.perform (S := Effects) (.getDocVersion docId))

def deleteByDocId (docId : String) : Py Int :=
  ExceptT.mk (Prog.perform (S := Effects) (.deleteByDocId docId))

def upsert (records : List IndexRecord) : Py UpsertOutcome :=
  ExceptT.mk (Prog.perform (S := Effects) (.upsert records))

end Py

section Rules

variable {α : Type} (adapter : IndexerAdapter V X) (I : System × X → Prop) (s : System × X)

@[simp]
theorem wp_ofExcept {W σ : Type} (h : Handler Effects W σ) (I : σ → Prop) (s : σ) (result : Except Exc α)
    (Q : Except Exc α → σ → Prop) : Prog.wp h I (Py.ofExcept result).run Q s ↔ Q result s := Iff.rfl

@[simp]
theorem wp_now (Q : Except Exc DateTime → System × X → Prop) :
    Prog.wp (pipeline adapter) I Py.now.run Q s ↔ ∀ w : World × V, I s ∧ Q (.ok w.1.now) s := Iff.rfl

@[simp]
theorem wp_ledgerGet (docId : String) (Q : Except Exc (Option LedgerRow) → System × X → Prop) :
    Prog.wp (pipeline adapter) I (Py.ledgerGet docId).run Q s ↔
      ∀ _ : World × V, I s ∧ Q (.ok (s.1.ledger.get docId)) s := Iff.rfl

@[simp]
theorem wp_getDocVersion (docId : String) (Q : Except Exc (Option String) → System × X → Prop) :
    Prog.wp (pipeline adapter) I (Py.getDocVersion docId).run Q s ↔
      ∀ w : World × V, I (s.1, (adapter.getDocVersion w.2 docId s.2).2) ∧
        Q (adapter.getDocVersion w.2 docId s.2).1 (s.1, (adapter.getDocVersion w.2 docId s.2).2) := Iff.rfl

end Rules

end Vestibule
