import Vestibule.Analyzer.Analyzer
import Vestibule.Pipeline.Contention

set_option autoImplicit false

namespace Vestibule

open Library

section Detection

variable {R : Type} (pymupdf : Pymupdf) (reader : BytesReader R) (start : R)

inductive ReaderRaises (exc : Exc) : Prop where
  | seek (raised : reader.seek 0 start = .error exc)
  | header {position : Int} {atStart : R} (sought : reader.seek 0 start = .ok (position, atStart))
      (raised : reader.read magicHeaderBytes atStart = .error exc)
  | rewind {position : Int} {atStart afterHeader : R} {header : Bytes}
      (sought : reader.seek 0 start = .ok (position, atStart))
      (sniffed : reader.read magicHeaderBytes atStart = .ok (header, afterHeader)) (pdf : pdfMagic <+: header)
      (raised : reader.seek 0 afterHeader = .error exc)
  | body {position again : Int} {atStart afterHeader rewound : R} {header : Bytes}
      (sought : reader.seek 0 start = .ok (position, atStart))
      (sniffed : reader.read magicHeaderBytes atStart = .ok (header, afterHeader)) (pdf : pdfMagic <+: header)
      (resought : reader.seek 0 afterHeader = .ok (again, rewound))
      (raised : reader.read (-1) rewound = .error exc)

structure ReadsPdf (data : Bytes) (remaining : R) : Prop where
  reads : ∃ position again atStart afterHeader rewound header,
    reader.seek 0 start = .ok (position, atStart) ∧
    reader.read magicHeaderBytes atStart = .ok (header, afterHeader) ∧ pdfMagic <+: header ∧
    reader.seek 0 afterHeader = .ok (again, rewound) ∧ reader.read (-1) rewound = .ok (data, remaining)

def Readable (data : Bytes) : Prop :=
  ∃ open_ doc, pymupdf = some open_ ∧ open_ data = .ok doc ∧ doc.needsPass = false ∧ doc.pageCount ≠ 0

theorem probe_error_iff (opened : Except PdfFault PdfDocument) (probePages : Int) :
    probe opened probePages = .error .zeroDivision ↔
      probePages = 0 ∧ ∃ doc, opened = .ok doc ∧ doc.needsPass = false ∧ doc.pageCount ≠ 0 := by
  cases opened with
  | error fault => simp [probe, Except.mapError, Bind.bind, Except.bind]
  | ok doc =>
    by_cases hidden : doc.needsPass = true ∨ doc.pageCount = 0
    next =>
      have closed : ¬ (doc.needsPass = false ∧ doc.pageCount ≠ 0) := by
        rintro ⟨unlocked, pages⟩
        simp [unlocked, pages] at hidden
      simp [probe, Except.mapError, Bind.bind, Except.bind, pure, Except.pure, hidden, closed]
    next =>
      obtain ⟨unlocked, pages⟩ := not_or.mp hidden
      have unlocked : doc.needsPass = false := by simpa using unlocked
      have smallest : min probePages (doc.pageCount : Int) = 0 ↔ probePages = 0 := by omega
      have unfolded : probe (.ok doc) probePages = (do
          let texts ← (List.range (min probePages doc.pageCount).toNat).mapM fun i =>
            (doc.getText i).mapError ProbeFault.pdf
          if min probePages doc.pageCount = 0 then throw .zeroDivision
          return some ((((texts.map String.length).sum : Nat) : ℚ) / (min probePages doc.pageCount : Int))) := by
        change (if doc.needsPass = true ∨ doc.pageCount = 0 then _ else _) = _
        rw [if_neg hidden]
      rw [unfolded]
      cases texts : (List.range (min probePages (doc.pageCount : Int)).toNat).mapM
          (fun i => (doc.getText i).mapError ProbeFault.pdf) with
      | error fault =>
        have nonzero : probePages ≠ 0 := by
          intro zero
          have none_read : (min probePages (doc.pageCount : Int)).toNat = 0 := by omega
          simp [none_read, pure, Except.pure] at texts
        obtain ⟨i, -, failed⟩ := source_of_mapM_error texts
        have pageFault : fault ≠ .zeroDivision := by
          rintro rfl
          cases text : doc.getText i <;> simp [text, Except.mapError] at failed
        simp [Bind.bind, Except.bind, nonzero, pageFault]
      | ok texts =>
        by_cases zero : probePages = 0
        next =>
          refine iff_of_true ?_ ⟨zero, doc, rfl, unlocked, pages⟩
          simp only [smallest.mpr zero, if_true]
          rfl
        next => simp [Bind.bind, Except.bind, smallest, zero, pure, Except.pure]

theorem detectPdfSubtype_error_iff (docId : String) (data : Bytes) (probePages minCharsPerPage : Int) (exc : Exc) :
    detectPdfSubtype pymupdf docId data probePages minCharsPerPage = .error exc ↔
      (pymupdf = none ∧ exc = pymupdfMissing docId) ∨
      (probePages = 0 ∧ Readable pymupdf data ∧ exc = .other "division by zero") := by
  cases pymupdf with
  | none =>
    have closed : ¬ Readable none data := by simp [Readable]
    simp [detectPdfSubtype, closed, eq_comm]
  | some open_ =>
    have divides := probe_error_iff (open_ data) probePages
    have readable : Readable (some open_) data ↔
        ∃ doc, open_ data = .ok doc ∧ doc.needsPass = false ∧ doc.pageCount ≠ 0 := by
      simp [Readable]
    have shaped : (probePages = 0 ∧ Readable (some open_) data ∧ exc = .other "division by zero") ↔
        probe (open_ data) probePages = .error .zeroDivision ∧ exc = .other "division by zero" := by
      rw [readable, ← and_assoc, ← divides]
    rw [shaped]
    simp only [detectPdfSubtype]
    cases probed : probe (open_ data) probePages with
    | error fault =>
      cases fault with
      | pdf fault => simp
      | zeroDivision => simp [eq_comm]
    | ok average => cases average <;> simp

variable (self : Analyzer R) (envelope : ArrivalEnvelope)

theorem detection_eq : self.detection envelope reader start = (do
    let (_, atStart) ← reader.seek 0 start
    let (header, afterHeader) ← reader.read magicHeaderBytes atStart
    if pdfMagic <+: header then do
      let (_, rewound) ← reader.seek 0 afterHeader
      let (data, remaining) ← reader.read (-1) rewound
      let detected ← detectPdfSubtype self.pymupdf envelope.docId data self.config.scannedPdfProbePages
        self.config.scannedPdfMinCharsPerPage
      return (detected, remaining)
    else if docxMagic <+: header then return (.docx, afterHeader)
    else if imageMagics.any (fun magic => magic <+: header) then return (.image, afterHeader)
    else return (.unsupported, afterHeader)) := by
  simp only [Analyzer.detection, detectType, StateT.run_bind]
  refine bind_congr fun sought => bind_congr fun sniffed => ?_
  split_ifs <;> rfl

theorem detection_error_iff (exc : Exc) :
    self.detection envelope reader start = .error exc ↔
      ReaderRaises reader start exc ∨
      ∃ data remaining, ReadsPdf reader start data remaining ∧
        (self.pymupdf = none ∧ exc = pymupdfMissing envelope.docId ∨
          self.config.scannedPdfProbePages = 0 ∧ Readable self.pymupdf data ∧ exc = .other "division by zero") := by
  have subtype := fun data => detectPdfSubtype_error_iff self.pymupdf envelope.docId data
    self.config.scannedPdfProbePages self.config.scannedPdfMinCharsPerPage exc
  simp only [← subtype]
  rw [detection_eq]
  constructor
  next =>
    cases sought : reader.seek 0 start with
    | error fault =>
      intro raised
      obtain rfl : fault = exc := by simpa [Bind.bind, Except.bind] using raised
      exact .inl (.seek sought)
    | ok position =>
      cases sniffed : reader.read magicHeaderBytes position.2 with
      | error fault =>
        intro raised
        obtain rfl : fault = exc := by simpa [Bind.bind, Except.bind, sniffed] using raised
        exact .inl (.header sought sniffed)
      | ok header =>
        by_cases pdf : pdfMagic <+: header.1
        next =>
          cases resought : reader.seek 0 header.2 with
          | error fault =>
            intro raised
            obtain rfl : fault = exc := by simpa [Bind.bind, Except.bind, sniffed, pdf, resought] using raised
            exact .inl (.rewind sought sniffed pdf resought)
          | ok rewound =>
            cases read : reader.read (-1) rewound.2 with
            | error fault =>
              intro raised
              obtain rfl : fault = exc := by
                simpa [Bind.bind, Except.bind, sniffed, pdf, resought, read] using raised
              exact .inl (.body sought sniffed pdf resought read)
            | ok body =>
              intro raised
              refine .inr ⟨body.1, body.2, ⟨_, _, _, _, _, _, sought, sniffed, pdf, resought, read⟩, ?_⟩
              cases detected : detectPdfSubtype self.pymupdf envelope.docId body.1
                  self.config.scannedPdfProbePages self.config.scannedPdfMinCharsPerPage with
              | error fault =>
                simpa [Bind.bind, Except.bind, sniffed, pdf, resought, read, detected] using raised
              | ok type =>
                simp [Bind.bind, Except.bind, sniffed, pdf, resought, read, detected, pure, Except.pure] at raised
        next =>
          intro raised
          simp only [Bind.bind, Except.bind, sniffed, pdf, if_false] at raised
          split_ifs at raised <;> simp [pure, Except.pure] at raised
  next =>
    rintro (raises | ⟨data, remaining, ⟨reads⟩, refused⟩)
    next =>
      cases raises with
      | seek raised => simp [raised, Bind.bind, Except.bind]
      | header sought raised => simp [sought, raised, Bind.bind, Except.bind]
      | rewind sought sniffed pdf raised => simp [sought, sniffed, pdf, raised, Bind.bind, Except.bind]
      | body sought sniffed pdf resought raised =>
        simp [sought, sniffed, pdf, resought, raised, Bind.bind, Except.bind]
    next =>
      obtain ⟨position, again, atStart, afterHeader, rewound, header, sought, sniffed, pdf, resought, read⟩ := reads
      simp [sought, sniffed, pdf, resought, read, refused, Bind.bind, Except.bind]

end Detection

namespace Analyzer

inductive Verdict where
  | returned (elements : List Element)
  | terminal (errorCode reason : String) (detectedType : Option DetectedType)
  | retried (errorCode reason : String) (detectedType : DetectedType)
  | escaped (exc : Exc)

variable {R : Type} (self : Analyzer R) (envelope : ArrivalEnvelope) (reader : BytesReader R) (start : R)

def parserVerdict (detectedType : DetectedType) : ParserOutcome → Verdict
  | .returned elements => .returned elements
  | .timedOut =>
      .retried parserTimeout ("parser did not return within " ++ self.config.parserTimeoutSeconds ++ "s") detectedType
  | .raised (.analyzer _ reason errorCode _) => .retried errorCode reason detectedType
  | .raised exc => .retried parserInternal exc.str detectedType

def verdict : Verdict :=
  match self.detection envelope reader start with
  | .error (.analyzer _ reason errorCode _) => .terminal errorCode reason none
  | .error exc => .escaped exc
  | .ok (detectedType, remaining) =>
      if detectedType = .unsupported then
        .terminal analyzerUnsupportedType "document could not be classified as a supported type" (some detectedType)
      else
        match self.registry.get? detectedType with
        | none =>
            .terminal analyzerNoParser ("no parser registered for detected type " ++ detectedType.value)
              (some detectedType)
        | some parser => self.parserVerdict detectedType (parser envelope remaining)

def Verdict.program (docId : String) : Verdict → Py (List Element)
  | returned elements => return elements
  | terminal errorCode reason detectedType => terminalize docId errorCode reason detectedType
  | retried errorCode reason detectedType => selfTransitionAndRaise docId errorCode reason detectedType
  | escaped exc => throw exc

theorem terminalize_bind {α β : Type} (docId errorCode reason : String) (detectedType : Option DetectedType)
    (f : α → Py β) :
    (terminalize docId errorCode reason detectedType : Py α) >>= f =
      terminalize docId errorCode reason detectedType := by
  simp only [terminalize, bind_assoc]
  rfl

theorem parseWithRecovery_eq (docId : String) (outcome : ParserOutcome) (detectedType : DetectedType) :
    self.parseWithRecovery docId outcome detectedType = (self.parserVerdict detectedType outcome).program docId := by
  cases outcome with
  | returned elements => rfl
  | timedOut => rfl
  | raised exc => cases exc <;> rfl

theorem detectAndParse_eq (docId : String) :
    self.detectAndParse envelope reader start docId = (self.verdict envelope reader start).program docId := by
  simp only [detectAndParse, verdict]
  cases self.detection envelope reader start with
  | error exc =>
    rw [Py.tryCatch_ofExcept_error]
    cases exc with
    | analyzer subject reason errorCode detectedType => exact terminalize_bind ..
    | _ => rfl
  | ok detected =>
    obtain ⟨detectedType, remaining⟩ := detected
    rw [Py.tryCatch_ofExcept_ok, pure_bind]
    by_cases unsupported : detectedType = .unsupported
    next =>
      simp only [unsupported, if_true]
      exact terminalize_bind ..
    next =>
      simp only [unsupported, if_false]
      cases self.registry.get? detectedType with
      | none => rfl
      | some parser => exact self.parseWithRecovery_eq ..

def Agrees (docId : String) (result : Except Exc (List Element)) (ledger : InMemoryLedgerStore) : Prop :=
  match result with
  | .ok _ => ∃ row, ledger.get docId = some row ∧ row.status = .chunking
  | .error exc => ∃ reason code detectedType row, exc = .analyzer docId reason code detectedType ∧
      ledger.get docId = some row ∧ row.lastErrorCode = some code ∧
      (registeredSeverity code = some .permanent ∧ row.status = .failed ∨
        registeredSeverity code = some .transient ∧ row.status = .analyzing)

/-- No reader call raises, the probe divides by a page count, the parser's codes can be retried. -/
structure Sound (analyzer : Analyzer R) (envelope : ArrivalEnvelope) (reader : BytesReader R) (start : R) : Prop where
  reads : ∀ exc, ReaderRaises reader start exc → ∃ subject reason code detectedType,
    exc = .analyzer subject reason code detectedType ∧ registeredSeverity code = some .permanent
  probes : analyzer.config.scannedPdfProbePages = 0 →
    ∀ data remaining, ReadsPdf reader start data remaining → ¬ Readable analyzer.pymupdf data
  parses : ∀ detectedType remaining parser, analyzer.detection envelope reader start = .ok (detectedType, remaining) →
    detectedType ≠ .unsupported → analyzer.registry.get? detectedType = some parser →
    ∀ subject reason code type, parser envelope remaining = .raised (.analyzer subject reason code type) →
      registeredSeverity code = some .transient

def Verdict.Lawful : Verdict → Prop
  | returned _ => True
  | terminal errorCode _ _ => registeredSeverity errorCode = some .permanent
  | retried errorCode _ _ => registeredSeverity errorCode = some .transient
  | escaped _ => False

theorem parserVerdict_lawful (detectedType : DetectedType) (outcome : ParserOutcome) :
    (self.parserVerdict detectedType outcome).Lawful ↔
      ∀ subject reason code type, outcome = .raised (.analyzer subject reason code type) →
        registeredSeverity code = some .transient := by
  have timeout : registeredSeverity parserTimeout = some .transient := by decide
  have internal : registeredSeverity parserInternal = some .transient := by decide
  cases outcome with
  | returned elements => simp [parserVerdict, Verdict.Lawful]
  | timedOut => simp [parserVerdict, Verdict.Lawful, timeout]
  | raised exc =>
    cases exc with
    | analyzer subject reason code type =>
      refine ⟨fun transient _ _ _ _ same => ?_, fun each => each subject reason code type rfl⟩
      cases same
      exact transient
    | _ => simp [parserVerdict, Verdict.Lawful, internal]

theorem sound_iff : Sound self envelope reader start ↔ (self.verdict envelope reader start).Lawful := by
  have raises := detection_error_iff reader start self envelope
  have dependency : registeredSeverity analyzerDependencyMissing = some .permanent := by decide
  constructor
  next =>
    intro sound
    simp only [verdict]
    cases detected : self.detection envelope reader start with
    | error exc =>
      have lawful : ∃ subject reason code detectedType,
          exc = .analyzer subject reason code detectedType ∧ registeredSeverity code = some .permanent := by
        rcases (raises exc).mp detected with raised | ⟨data, remaining, pdf, ⟨missing, rfl⟩ | ⟨zero, readable, rfl⟩⟩
        next => exact sound.reads exc raised
        next => exact ⟨_, _, _, _, rfl, dependency⟩
        next => exact (sound.probes zero data remaining pdf readable).elim
      obtain ⟨subject, reason, code, detectedType, rfl, permanent⟩ := lawful
      exact permanent
    | ok pair =>
      obtain ⟨detectedType, remaining⟩ := pair
      simp only
      split_ifs with unsupported
      next => exact (by decide : registeredSeverity analyzerUnsupportedType = some .permanent)
      next =>
        cases found : self.registry.get? detectedType with
        | none => exact (by decide : registeredSeverity analyzerNoParser = some .permanent)
        | some parser =>
          exact (self.parserVerdict_lawful detectedType _).mpr
            (sound.parses detectedType remaining parser detected unsupported found)
  next =>
    intro lawful
    simp only [verdict] at lawful
    refine ⟨fun exc raised => ?_, fun zero data remaining pdf readable => ?_, ?_⟩
    next =>
      rw [(raises exc).mpr (.inl raised)] at lawful
      cases exc with
      | analyzer subject reason code type => exact ⟨subject, reason, code, type, rfl, lawful⟩
      | _ => exact lawful.elim
    next =>
      rw [(raises _).mpr (.inr ⟨data, remaining, pdf, .inr ⟨zero, readable, rfl⟩⟩)] at lawful
      exact lawful
    next =>
      intro detectedType remaining parser detected supported found
      simp only [detected, supported, if_false, found] at lawful
      exact (self.parserVerdict_lawful detectedType _).mp lawful

theorem verdict_escaped {exc : Exc} (escaped : self.verdict envelope reader start = .escaped exc) :
    ∀ subject reason code detectedType, exc ≠ .analyzer subject reason code detectedType := by
  rintro subject reason code detectedType rfl
  simp only [verdict] at escaped
  cases detected : self.detection envelope reader start with
  | error exc =>
    rw [detected] at escaped
    cases exc <;> simp at escaped
  | ok pair =>
    simp only [detected] at escaped
    split_ifs at escaped
    cases found : self.registry.get? pair.1 with
    | none => simp [found] at escaped
    | some parser =>
      simp only [found] at escaped
      cases outcome : parser envelope pair.2 with
      | raised exc => cases exc <;> simp [outcome, parserVerdict] at escaped
      | _ => simp [outcome, parserVerdict] at escaped

section Undisturbed

variable {V X : Type} {adapter : IndexerAdapter V X} {docId : String} {s : System × X} {row : LedgerRow}

def Verdict.Ends (docId : String) (verdict : Verdict) (result : Except Exc (List Element)) (s : System × X) : Prop :=
  match verdict with
  | .returned elements => result = .ok elements ∧ HasStatus docId .analyzing s
  | .terminal errorCode reason detectedType => result = .error (.analyzer docId reason errorCode detectedType) ∧
      ∃ row, s.1.ledger.get docId = some row ∧ row.status = .failed ∧ row.lastErrorCode = some errorCode
  | .retried errorCode reason detectedType =>
      result = .error (.analyzer docId reason errorCode (some detectedType)) ∧
      ∃ row, s.1.ledger.get docId = some row ∧ row.status = .analyzing ∧ row.lastErrorCode = some errorCode
  | .escaped exc => result = .error exc

theorem wp_verdict (verdict : Verdict) (present : s.1.ledger.get docId = some row) (status : row.status = .analyzing) :
    Prog.wp (pipeline adapter) (fun _ => True) (verdict.program docId).run (verdict.Ends docId) s := by
  cases verdict with
  | returned elements => exact ⟨rfl, status ▸ HasStatus.of_get present⟩
  | terminal errorCode reason detectedType =>
    have toFailed : Edge row.status .failed := by rw [status]; decide
    simp only [Verdict.program, terminalize, Prog.wp_run_bind, Prog.wp_run_throw]
    refine wp_ledgerTransition _ present rfl toFailed (by simp [Py.errorRequest])
      fun now s' _ stored => ⟨trivial, rfl, _, stored, rfl, ?_⟩
    simp [nextRow, nextErrorFields, Py.errorRequest]
  | retried errorCode reason detectedType =>
    have again : Edge row.status .analyzing := by rw [status]; decide
    simp only [Verdict.program, selfTransitionAndRaise, Prog.wp_run_bind, Prog.wp_run_throw]
    refine wp_ledgerTransition _ present rfl again (by simp [Py.errorRequest])
      fun now s' _ stored => ⟨trivial, rfl, _, stored, rfl, ?_⟩
    simp [nextRow, nextErrorFields, Py.errorRequest]
  | escaped exc => rfl

theorem wp_enterStage (present : s.1.ledger.get docId = some row)
    (status : row.status = .pending ∨ row.status = .analyzing) :
    Prog.wp (pipeline adapter) (fun _ => True) (enterStage docId).run
      (fun result s' => result = .ok true ∧ HasStatus docId .analyzing s') s := by
  have edge : Edge row.status .analyzing := by rcases status with same | same <;> rw [same] <;> decide
  simp only [enterStage, Prog.wp_run_tryCatch, Prog.wp_run_bind, Prog.wp_run_pure]
  refine wp_ledgerTransition _ present rfl edge (by simp) fun now s' _ stored => ⟨trivial, ?_⟩
  exact ⟨trivial, HasStatus.of_get stored⟩

theorem agrees_raised {ledger : InMemoryLedgerStore} {reason code : String} {detectedType : Option DetectedType}
    (present : ledger.get docId = some row) (recorded : row.lastErrorCode = some code) :
    Agrees docId (.error (.analyzer docId reason code detectedType)) ledger ↔
      registeredSeverity code = some .permanent ∧ row.status = .failed ∨
        registeredSeverity code = some .transient ∧ row.status = .analyzing := by
  constructor
  · rintro ⟨_, other, _, held, same, presentHeld, -, ended⟩
    cases same
    obtain rfl : row = held := Option.some.inj (present.symm.trans presentHeld)
    exact ended
  · exact fun ended => ⟨reason, code, detectedType, row, rfl, present, recorded, ended⟩

theorem wp_analyze (present : s.1.ledger.get envelope.docId = some row)
    (status : row.status = .pending ∨ row.status = .analyzing) :
    Prog.wp (pipeline adapter) (fun _ => True) (self.analyze envelope reader start).run
      (fun result s' => Agrees envelope.docId result s'.1.ledger ↔ Sound self envelope reader start) s := by
  rw [sound_iff]
  simp only [analyze, detectAndParse_eq, Prog.wp_run_bind]
  refine Prog.wp_mono (fun result s' entered => ?_) (wp_enterStage present status)
  obtain ⟨rfl, analyzing⟩ := entered
  obtain ⟨held, presentHeld, statusHeld⟩ := analyzing.exists
  simp only [if_true, Prog.wp_run_bind, Prog.wp_run_pure]
  refine Prog.wp_mono (fun result s'' ended => ?_) (wp_verdict _ presentHeld statusHeld)
  cases verdict : self.verdict envelope reader start with
  | returned elements =>
    rw [verdict] at ended
    obtain ⟨rfl, still⟩ := ended
    obtain ⟨current, presentCurrent, statusCurrent⟩ := still.exists
    have toChunking : Edge current.status .chunking := by rw [statusCurrent]; decide
    refine wp_transitionTriaged _ presentCurrent rfl toChunking (by simp)
      fun now s''' _ stored => ⟨trivial, iff_of_true ?_ trivial⟩
    exact ⟨_, stored, rfl⟩
  | terminal errorCode reason detectedType =>
    rw [verdict] at ended
    obtain ⟨rfl, failed, presentFailed, statusFailed, recorded⟩ := ended
    refine (agrees_raised presentFailed recorded).trans ?_
    simp [statusFailed, Verdict.Lawful]
  | retried errorCode reason detectedType =>
    rw [verdict] at ended
    obtain ⟨rfl, running, presentRunning, statusRunning, recorded⟩ := ended
    refine (agrees_raised presentRunning recorded).trans ?_
    simp [statusRunning, Verdict.Lawful]
  | escaped exc =>
    rw [verdict] at ended
    obtain rfl : result = .error exc := ended
    refine iff_of_false ?_ id
    rintro ⟨reason, code, detectedType, row, same, -⟩
    exact self.verdict_escaped envelope reader start verdict _ _ _ _ same

end Undisturbed

theorem analysis_agrees_iff {V X : Type} (adapter : IndexerAdapter V X) (before : LedgerRow) (s : System × X)
    (present : s.1.ledger.get envelope.docId = some before)
    (status : before.status = .pending ∨ before.status = .analyzing) (oracle : Nat → World × V) :
    Agrees envelope.docId (Prog.run (pipeline adapter) (self.analyze envelope reader start).run oracle s).1
        (Prog.run (pipeline adapter) (self.analyze envelope reader start).run oracle s).2.1.ledger ↔
      Sound self envelope reader start :=
  Prog.run_of_wp (self.wp_analyze envelope reader start present status) oracle

-- `io.BytesIO` as far as it is used: its state is the position.
def byteStream (content : Bytes) : BytesReader Nat where
  read size := fun position =>
    let delivered := if size < 0 then content.drop position else (content.drop position).take size.toNat
    .ok (delivered, position + delivered.length)
  seek offset := fun _ => .ok (offset, offset.toNat)

def pendingSystem : System × Unit := ({ ledger := (InMemoryLedgerStore.empty.create 0 digestAbc ⟨"v1"⟩).2 }, ())

def onePagePdf : Pymupdf := some fun _ => .ok ⟨false, 1, fun _ => .ok "one page of text"⟩

def docxAnalyzer : Analyzer Nat where
  registry := Dict.empty.insert .docx fun _ _ => .timedOut
  pymupdf := onePagePdf

theorem pendingSystem_row : ∃ row, pendingSystem.1.ledger.get StageCall.sampleEnvelope.docId = some row ∧
    row.status = .pending :=
  ⟨_, rfl, rfl⟩

theorem analysis_agrees_on_timeout :
    (∃ before, pendingSystem.1.ledger.get StageCall.sampleEnvelope.docId = some before ∧
      before.status = .pending) ∧
    ∀ oracle, Agrees StageCall.sampleEnvelope.docId
      (Prog.run (pipeline idleIndex)
        (docxAnalyzer.analyze StageCall.sampleEnvelope (byteStream docxMagic) 0).run oracle pendingSystem).1
      (Prog.run (pipeline idleIndex)
        (docxAnalyzer.analyze StageCall.sampleEnvelope (byteStream docxMagic) 0).run oracle
        pendingSystem).2.1.ledger := by
  refine ⟨pendingSystem_row, fun oracle => ?_⟩
  obtain ⟨before, present, status⟩ := pendingSystem_row
  have sound : Sound docxAnalyzer StageCall.sampleEnvelope (byteStream docxMagic) 0 := by
    rw [sound_iff]
    exact (by decide : registeredSeverity parserTimeout = some .transient)
  exact (analysis_agrees_iff docxAnalyzer StageCall.sampleEnvelope (byteStream docxMagic) 0 idleIndex before
    pendingSystem present (.inl status) oracle).mpr sound

theorem zero_probe_pages_escape :
    ¬ Agrees StageCall.sampleEnvelope.docId
      (Prog.run (pipeline idleIndex)
        (analyze { registry := .empty, config := { scannedPdfProbePages := 0 }, pymupdf := onePagePdf }
          StageCall.sampleEnvelope (byteStream pdfMagic) 0).run (fun _ => ({}, ())) pendingSystem).1
      (Prog.run (pipeline idleIndex)
        (analyze { registry := .empty, config := { scannedPdfProbePages := 0 }, pymupdf := onePagePdf }
          StageCall.sampleEnvelope (byteStream pdfMagic) 0).run (fun _ => ({}, ())) pendingSystem).2.1.ledger := by
  have raised : (Prog.run (pipeline idleIndex)
      (analyze { registry := .empty, config := { scannedPdfProbePages := 0 }, pymupdf := onePagePdf }
        StageCall.sampleEnvelope (byteStream pdfMagic) 0).run (fun _ => ({}, ())) pendingSystem).1 =
      .error (.other "division by zero") := by rfl
  rw [raised]
  rintro ⟨reason, code, detectedType, row, same, -⟩
  cases same

def Succeeds : Prop :=
  ∃ detectedType remaining parser elements, self.detection envelope reader start = .ok (detectedType, remaining) ∧
    detectedType ≠ .unsupported ∧ self.registry.get? detectedType = some parser ∧
    parser envelope remaining = .returned elements

theorem succeeds_iff :
    self.Succeeds envelope reader start ↔ ∃ elements, self.verdict envelope reader start = .returned elements := by
  constructor
  · rintro ⟨detectedType, remaining, parser, elements, detected, supported, found, outcome⟩
    refine ⟨elements, ?_⟩
    simp only [verdict, detected, supported, if_false, found, outcome]
    rfl
  · rintro ⟨elements, returned⟩
    simp only [verdict] at returned
    cases detected : self.detection envelope reader start with
    | error exc =>
      rw [detected] at returned
      cases exc <;> simp at returned
    | ok pair =>
      simp only [detected] at returned
      split_ifs at returned with unsupported
      cases found : self.registry.get? pair.1 with
      | none => simp [found] at returned
      | some parser =>
        simp only [found] at returned
        cases outcome : parser envelope pair.2 with
        | returned parsed => exact ⟨pair.1, pair.2, parser, parsed, detected, unsupported, found, outcome⟩
        | timedOut => simp [outcome, parserVerdict] at returned
        | raised exc => cases exc <;> simp [outcome, parserVerdict] at returned

section Redelivery

variable {V X : Type} (adapter : IndexerAdapter V X)

def Unwritten (visits : List (ContendedVisit V X)) : Prop :=
  ∀ visit ∈ visits, (contended adapter visit.world visit.op visit.state).2.1.ledger = found visit

structure Harmless (result : Except Exc (List Element)) (visits : List (ContendedVisit V X)) : Prop where
  unwritten : Unwritten adapter visits
  noLoss : ∀ fault, result ≠ .error (.ledgerTransitionInvalid fault)
  own : (∃ elements, result = .ok elements) ∨
    ∃ subject reason code detectedType, result = .error (.analyzer subject reason code detectedType)

-- A ledger write outside the triage is never harmless: it is accepted, or its rejection gets out.
theorem not_harmless_of_write {request : TransitionRequest} (mirrored : request.stage = request.toStatus)
    (explained : request.toStatus = .failed → request.errorCode ≠ none) (exc : Exc) (s : System × X)
    (seen : List (ContendedVisit V X)) :
    Prog.wp (Prog.journaled (contended adapter)) (fun _ => True)
      (do
        let _ ← Py.ledgerTransition request
        throw exc : Py (List Element)).run
      (fun result journal => ¬ Harmless adapter result journal.2) (s, seen) := by
  simp only [Prog.wp_run_bind, Prog.wp_run_throw]
  intro w
  refine ⟨trivial, ?_⟩
  rcases transition_answer (interfere w.1 s).1.ledger w.2.1.now request mirrored explained with
    ⟨row, correct, present, edge, accepted⟩ | ⟨fault, rejected, -⟩ | ⟨fault, rejected, -⟩
  next =>
    have unchanged (harmless : ((interfere w.1 s).1.ledger.transition w.2.1.now request).2 =
        (interfere w.1 s).1.ledger) : False := by
      have stored := congrArg (InMemoryLedgerStore.get · request.docId) harmless
      simp only [accepted, InMemoryLedgerStore.get_put, if_true, present] at stored
      exact nextRow_ne w.2.1.now edge (Option.some.inj stored)
    simp only [Prog.journaled, contended, pipeline, accepted, Except.mapError]
    intro harmless
    exact unchanged (harmless.unwritten ⟨w, .ledgerTransition request, s⟩ (by simp))
  next =>
    simp only [Prog.journaled, contended, pipeline, rejected, Except.mapError]
    intro harmless
    exact harmless.noLoss fault rfl
  next =>
    simp only [Prog.journaled, contended, pipeline, rejected, Except.mapError]
    intro harmless
    rcases harmless.own with ⟨elements, returned⟩ | ⟨subject, reason, code, detectedType, raised⟩
    next => cases returned
    next => cases raised

theorem wp_contended_verdict (docId : String) {verdict : Verdict}
    (foreign : ∀ exc, verdict = .escaped exc → ∀ subject reason code detectedType,
      exc ≠ .analyzer subject reason code detectedType)
    (s : System × X) {seen : List (ContendedVisit V X)} (before : Unwritten adapter seen) :
    Prog.wp (Prog.journaled (contended adapter)) (fun _ => True) (verdict.program docId).run
      (fun result journal => Harmless adapter result journal.2 ↔ ∃ elements, verdict = .returned elements)
      (s, seen) := by
  cases verdict with
  | returned elements =>
    refine iff_of_true ⟨before, fun fault same => ?_, .inl ⟨elements, rfl⟩⟩ ⟨elements, rfl⟩
    cases same
  | terminal errorCode reason detectedType =>
    exact Prog.wp_mono (fun _ _ harmful => iff_of_false harmful (by simp))
      (not_harmless_of_write adapter rfl (by simp [Py.errorRequest]) _ s seen)
  | retried errorCode reason detectedType =>
    exact Prog.wp_mono (fun _ _ harmful => iff_of_false harmful (by simp))
      (not_harmless_of_write adapter rfl (by simp [Py.errorRequest]) _ s seen)
  | escaped exc =>
    refine iff_of_false (fun harmless => ?_) (by simp)
    rcases harmless.own with ⟨elements, returned⟩ | ⟨subject, reason, code, detectedType, raised⟩
    next => cases returned
    next =>
      cases raised
      exact foreign _ rfl _ _ _ _ rfl

def entryRequest (docId : String) : TransitionRequest := { docId, toStatus := .analyzing, stage := .analyzing }

def entered : Except Exc LedgerRow → Except Exc Bool
  | .ok _ => .ok true
  | .error (.ledgerTransitionInvalid fault) =>
      if isBenignConcurrentLoss fault.observedRow .analyzing .analyzing then .ok false
      else .error (.ledgerTransitionInvalid fault)
  | .error exc => .error exc

theorem enterStage_run (docId : String) :
    (enterStage docId).run = .op (.ledgerTransition (entryRequest docId)) fun answer => .ret (entered answer) := by
  refine congrArg (Prog.op _) (funext fun answer => ?_)
  cases answer with
  | ok row => rfl
  | error exc =>
    cases exc with
    | ledgerTransitionInvalid fault =>
      change (if isBenignConcurrentLoss fault.observedRow .analyzing .analyzing then pure false
        else throw (.ledgerTransitionInvalid fault) : Py Bool).run = _
      simp only [entered]
      split <;> rfl
    | _ => rfl

theorem analyze_run :
    (self.analyze envelope reader start).run =
      .op (.ledgerTransition (entryRequest envelope.docId)) fun answer =>
        match entered answer with
        | .ok true => (do
            let elements ← self.detectAndParse envelope reader start envelope.docId
            Py.transitionTriaged { docId := envelope.docId, toStatus := .chunking, stage := .chunking }
            return elements : Py (List Element)).run
        | .ok false => (self.detectAndParse envelope reader start envelope.docId).run
        | .error exc => .ret (.error exc) := by
  simp only [analyze]
  rw [ExceptT.run_bind, enterStage_run]
  refine congrArg (Prog.op _) (funext fun answer => ?_)
  change Prog.bind (.ret (entered answer)) _ = _
  generalize entered answer = decided
  cases decided with
  | error exc => rfl
  | ok own => cases own <;> rfl

theorem entered_of_benign {s : System × X} {w : List LedgerCall × World × V} {docId : String} {row : LedgerRow}
    (present : (interfere w.1 s).1.ledger.get docId = some row) (past : Past .analyzing row.status) :
    entered (contended adapter w (.ledgerTransition (entryRequest docId)) s).1 = .ok false ∧
      (contended adapter w (.ledgerTransition (entryRequest docId)) s).2.1.ledger = (interfere w.1 s).1.ledger := by
  obtain ⟨overtakes, noEdge⟩ := (past_iff (by decide) (by decide) row.status).mp past
  rcases transition_answer (interfere w.1 s).1.ledger w.2.1.now (entryRequest docId) rfl (by simp [entryRequest]) with
    ⟨held, correct, presentHeld, edge, accepted⟩ | ⟨fault, rejected, observed, -⟩ | ⟨fault, rejected, absent⟩
  next =>
    obtain rfl : row = held := Option.some.inj (present.symm.trans presentHeld)
    exact (noEdge edge).elim
  next =>
    have benign : isBenignConcurrentLoss fault.observedRow .analyzing .analyzing = true := by
      rw [observed]
      change isBenignConcurrentLoss ((interfere w.1 s).1.ledger.get docId) _ _ = true
      rw [present]
      exact (isBenign_mirrored ((interfere w.1 s).1.ledger.wellFormed docId row present).mirrored _).mpr overtakes
    simp [contended, pipeline, rejected, Except.mapError, Exc.ofLedgerFault, entered, benign]
  next => simp [entryRequest, present] at absent

theorem redelivery_harmless_iff (s : System × X) (oracle : Nat → List LedgerCall × World × V) (row : LedgerRow)
    (present : (interfere (oracle 0).1 s).1.ledger.get envelope.docId = some row)
    (advanced : row.status ∈ [Status.chunking, .embedding, .indexing, .indexed]) :
    Harmless adapter (Prog.run (contended adapter) (self.analyze envelope reader start).run oracle s).1
        (Prog.visits (contended adapter) (self.analyze envelope reader start).run oracle s) ↔
      self.Succeeds envelope reader start := by
  have past : Past .analyzing row.status := by
    revert advanced
    cases row.status <;> decide
  obtain ⟨benign, kept⟩ := entered_of_benign adapter present past
  rw [succeeds_iff, analyze_run]
  simp only [Prog.run, Prog.visits, benign, detectAndParse_eq]
  have quiet : Unwritten adapter
      [(⟨oracle 0, .ledgerTransition (entryRequest envelope.docId), s⟩ : ContendedVisit V X)] := by
    intro visit member
    obtain rfl := List.mem_singleton.mp member
    exact kept
  exact Prog.visits_of_wp (wp_contended_verdict adapter envelope.docId
    (fun exc escaped => self.verdict_escaped envelope reader start escaped) _ quiet) _

-- A second worker has chunked the document before this delivery enters.
def overtakenEntry : Nat → List LedgerCall × World × Unit
  | 0 => ([.transition 1 (entryRequest digestAbc),
      .transition 2 { docId := digestAbc, toStatus := .chunking, stage := .chunking }], {}, ())
  | _ => ([], {}, ())

theorem overtakenEntry_row : ∃ row,
    (interfere (overtakenEntry 0).1 pendingSystem).1.ledger.get StageCall.sampleEnvelope.docId = some row ∧
      row.status = .chunking :=
  ⟨_, rfl, rfl⟩

theorem redelivery_harmless_iff_on_timeout :
    (∃ row, (interfere (overtakenEntry 0).1 pendingSystem).1.ledger.get StageCall.sampleEnvelope.docId = some row ∧
      row.status = .chunking) ∧
    (Harmless idleIndex
        (Prog.run (contended idleIndex) (docxAnalyzer.analyze StageCall.sampleEnvelope (byteStream docxMagic) 0).run
          overtakenEntry pendingSystem).1
        (Prog.visits (contended idleIndex) (docxAnalyzer.analyze StageCall.sampleEnvelope (byteStream docxMagic) 0).run
          overtakenEntry pendingSystem) ↔
      docxAnalyzer.Succeeds StageCall.sampleEnvelope (byteStream docxMagic) 0) := by
  refine ⟨overtakenEntry_row, ?_⟩
  obtain ⟨row, present, status⟩ := overtakenEntry_row
  exact redelivery_harmless_iff docxAnalyzer StageCall.sampleEnvelope (byteStream docxMagic) 0 idleIndex pendingSystem
    overtakenEntry row present (by simp [status])

theorem redelivery_fails_advanced_row :
    HasStatus digestAbc .chunking (interfere (overtakenEntry 0).1 pendingSystem) ∧
      ¬ Harmless idleIndex
        (Prog.run (contended idleIndex) (docxAnalyzer.analyze StageCall.sampleEnvelope (byteStream []) 0).run
          overtakenEntry pendingSystem).1
        (Prog.visits (contended idleIndex) (docxAnalyzer.analyze StageCall.sampleEnvelope (byteStream []) 0).run
          overtakenEntry pendingSystem) := by
  have written : ∃ visit ∈ Prog.visits (contended idleIndex)
      (docxAnalyzer.analyze StageCall.sampleEnvelope (byteStream []) 0).run overtakenEntry pendingSystem,
      ((found visit).get digestAbc).map LedgerRow.status = some .chunking ∧
        HasStatus digestAbc .failed (contended idleIndex visit.world visit.op visit.state).2 := by
    decide +kernel
  refine ⟨by decide +kernel, fun harmless => ?_⟩
  obtain ⟨visit, member, chunking, failed⟩ := written
  have same := harmless.unwritten visit member
  simp [HasStatus, same, chunking] at failed

end Redelivery

end Analyzer

end Vestibule
