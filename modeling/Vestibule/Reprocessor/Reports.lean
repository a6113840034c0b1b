import Mathlib.Data.List.Induction
import Vestibule.Identity.Language
import Vestibule.Reprocessor

set_option autoImplicit false

namespace Vestibule

open Library

-- Both reports read the ledger once, newest first and no further than the scan limit.

namespace Reprocessor

variable (ledger : InMemoryLedgerStore)

def failedRows : List LedgerRow := ledger.rows.values.filter (·.status = .failed)

def scanned : List LedgerRow := ledger.listByStatus .failed scanLimit

def newestFirst (first second : LedgerRow) : Bool := second.updatedAt ≤ first.updatedAt

theorem scanned_eq : scanned ledger = ((failedRows ledger).mergeSort newestFirst).take 10000 := rfl

theorem scanned_length : (scanned ledger).length = min (failedRows ledger).length 10000 := by
  rw [scanned_eq, List.length_take, List.length_mergeSort]
  omega

theorem sorted_newestFirst (rows : List LedgerRow) :
    (rows.mergeSort newestFirst).Pairwise fun first second => second.updatedAt ≤ first.updatedAt := by
  have transitive (first second third : LedgerRow) (left : newestFirst first second) (right : newestFirst second third) :
      newestFirst first third := by
    simp only [newestFirst, decide_eq_true_eq] at left right ⊢
    exact Int.le_trans right left
  have total (first second : LedgerRow) : newestFirst first second || newestFirst second first := by
    simp only [newestFirst, Bool.or_eq_true, decide_eq_true_eq]
    exact Int.le_total _ _
  have sorted := List.pairwise_mergeSort transitive total rows
  simpa only [newestFirst, decide_eq_true_eq] using sorted

/-- What is kept comes before what is left out, and nothing that is left out is newer. -/
structure Newest (rows kept : List LedgerRow) : Prop where
  sorted : kept.Pairwise fun first second => second.updatedAt ≤ first.updatedAt
  covered : ∃ omitted, (kept ++ omitted).Perm rows ∧ ∀ row ∈ kept, ∀ other ∈ omitted, other.updatedAt ≤ row.updatedAt

theorem newest_take {rows sorted : List LedgerRow} (perm : sorted.Perm rows)
    (ordered : sorted.Pairwise fun first second => second.updatedAt ≤ first.updatedAt) (limit : Nat) :
    Newest rows (sorted.take limit) := by
  have split := List.take_append_drop limit sorted
  rw [← split] at ordered perm
  obtain ⟨kept, _, older⟩ := List.pairwise_append.mp ordered
  exact ⟨kept, sorted.drop limit, perm, older⟩

theorem scanned_newest : Newest (failedRows ledger) (scanned ledger) :=
  newest_take (List.mergeSort_perm _ _) (sorted_newestFirst _) 10000

theorem scanned_perm (within : (failedRows ledger).length ≤ 10000) : (scanned ledger).Perm (failedRows ledger) := by
  rw [scanned_eq, List.take_of_length_le (by rwa [List.length_mergeSort])]
  exact List.mergeSort_perm _ _

theorem failedRows_nodup : ((failedRows ledger).map (·.docId)).Nodup := by
  have own : ledger.rows.values.map (·.docId) = ledger.rows.keys := by
    simp only [Dict.values, Dict.keys, List.map_map]
    apply List.map_congr_left
    intro entry member
    exact (ledger.wellFormed entry.1 entry.2 ((ledger.rows.get?_eq_some _ _).mpr member)).ownKey
  have nodup : (ledger.rows.values.map (·.docId)).Nodup := own ▸ ledger.rows.nodup
  exact nodup.sublist (List.filter_sublist.map _)

def Extreme (le : DateTime → DateTime → Prop) (times : List DateTime) : Option DateTime → Prop
  | none => times = []
  | some time => time ∈ times ∧ ∀ other ∈ times, le time other

abbrev Oldest : List DateTime → Option DateTime → Prop := Extreme fun first second => first ≤ second

abbrev Latest : List DateTime → Option DateTime → Prop := Extreme fun first second => second ≤ first

section Extreme

variable {le : DateTime → DateTime → Prop} {times : List DateTime} {time first : DateTime}

theorem extreme_singleton (reflexive : le time time) (empty : Extreme le times none) :
    Extreme le (times ++ [time]) (some time) := by
  obtain rfl : times = [] := empty
  simpa [Extreme] using reflexive

theorem extreme_replaced (reflexive : le time time) (transitive : ∀ other, le first other → le time other)
    (held : Extreme le times (some first)) : Extreme le (times ++ [time]) (some time) := by
  refine ⟨by simp, ?_⟩
  intro other member
  rcases List.mem_append.mp member with old | new
  next => exact transitive other (held.2 other old)
  next => exact List.mem_singleton.mp new ▸ reflexive

theorem extreme_kept (before : le first time) (held : Extreme le times (some first)) :
    Extreme le (times ++ [time]) (some first) := by
  refine ⟨List.mem_append_left _ held.1, ?_⟩
  intro other member
  rcases List.mem_append.mp member with old | new
  next => exact held.2 other old
  next => exact List.mem_singleton.mp new ▸ before

theorem extreme_perm {others : List DateTime} {found : Option DateTime} (perm : times.Perm others)
    (held : Extreme le times found) : Extreme le others found := by
  cases found with
  | none =>
    obtain rfl : times = [] := held
    exact perm.nil_eq.symm
  | some time => exact ⟨perm.mem_iff.mp held.1, fun other member => held.2 other (perm.mem_iff.mpr member)⟩

end Extreme

theorem oldest_earlier {times : List DateTime} {oldest : Option DateTime} (held : Oldest times oldest)
    (time : DateTime) : Oldest (times ++ [time]) (earlier oldest time) := by
  cases oldest with
  | none => exact extreme_singleton (Int.le_refl _) held
  | some first =>
    simp only [earlier]
    split
    next before => exact extreme_replaced (Int.le_refl _) (fun other => Int.le_trans (Int.le_of_lt before)) held
    next after => exact extreme_kept (Int.not_lt.mp after) held

theorem latest_later {times : List DateTime} {newest : Option DateTime} (held : Latest times newest)
    (time : DateTime) : Latest (times ++ [time]) (later newest time) := by
  cases newest with
  | none => exact extreme_singleton (Int.le_refl _) held
  | some last =>
    simp only [later]
    split
    next after =>
      exact extreme_replaced (Int.le_refl _) (fun other earlier => Int.le_trans earlier (Int.le_of_lt after)) held
    next before => exact extreme_kept (Int.not_lt.mp before) held

structure SummaryOf (rows : List LedgerRow) (summary : FailureSummary) : Prop where
  total : summary.total = rows.length
  codes : ∀ code, summary.byErrorCode.countOf code = ((rows.map errorCodeOf).count code : Int)
  stages : ∀ stage, summary.byStage.countOf stage = ((rows.map fun row => inferStage (errorCodeOf row)).count stage : Int)
  oldest : Oldest (rows.map (·.updatedAt)) summary.oldestFailureAt
  newest : Latest (rows.map (·.updatedAt)) summary.newestFailureAt

theorem SummaryOf.perm {rows others : List LedgerRow} {summary : FailureSummary} (perm : rows.Perm others)
    (held : SummaryOf rows summary) : SummaryOf others summary where
  total := perm.length_eq ▸ held.total
  codes code := (perm.map _).count_eq code ▸ held.codes code
  stages stage := (perm.map _).count_eq stage ▸ held.stages stage
  oldest := extreme_perm (perm.map _) held.oldest
  newest := extreme_perm (perm.map _) held.newest

theorem foldl_account_total (rows : List LedgerRow) (summary : FailureSummary) :
    (rows.foldl account summary).total = summary.total := by
  induction rows generalizing summary with
  | nil => rfl
  | cons row rest ih => exact ih (account summary row)

theorem foldl_account_codes (rows : List LedgerRow) (summary : FailureSummary) :
    (rows.foldl account summary).byErrorCode = (rows.map errorCodeOf).foldl Dict.bump summary.byErrorCode := by
  induction rows generalizing summary with
  | nil => rfl
  | cons row rest ih => exact ih (account summary row)

theorem foldl_account_stages (rows : List LedgerRow) (summary : FailureSummary) :
    (rows.foldl account summary).byStage =
      (rows.map fun row => inferStage (errorCodeOf row)).foldl Dict.bump summary.byStage := by
  induction rows generalizing summary with
  | nil => rfl
  | cons row rest ih => exact ih (account summary row)

theorem foldl_account_times (rows seen : List LedgerRow) (summary : FailureSummary)
    (oldest : Oldest (seen.map (·.updatedAt)) summary.oldestFailureAt)
    (newest : Latest (seen.map (·.updatedAt)) summary.newestFailureAt) :
    Oldest ((seen ++ rows).map (·.updatedAt)) (rows.foldl account summary).oldestFailureAt ∧
      Latest ((seen ++ rows).map (·.updatedAt)) (rows.foldl account summary).newestFailureAt := by
  induction rows generalizing seen summary with
  | nil => simpa using ⟨oldest, newest⟩
  | cons row rest ih =>
    have next := ih (seen ++ [row]) (account summary row)
      (by simpa [account] using oldest_earlier oldest row.updatedAt)
      (by simpa [account] using latest_later newest row.updatedAt)
    simpa using next

theorem countOf_empty (key : String) : (Dict.empty : Dict String Int).countOf key = 0 := rfl

theorem summarize_scanned : SummaryOf (scanned ledger) (summarize ledger) := by
  have times := foldl_account_times (scanned ledger) [] ⟨(scanned ledger).length, .empty, .empty, none, none⟩ rfl rfl
  constructor
  next => exact foldl_account_total ..
  next =>
    intro code
    rw [summarize, foldl_account_codes, Dict.countOf_foldl_bump, countOf_empty, Int.zero_add]
    rfl
  next =>
    intro stage
    rw [summarize, foldl_account_stages, Dict.countOf_foldl_bump, countOf_empty, Int.zero_add]
    rfl
  next => exact times.1
  next => exact times.2

section Listing

variable (limit : Int) (errorCode stage : Option String) (since : Option DateTime)

def satisfies (row : LedgerRow) : Bool :=
  errorCode.all (fun code => errorCodeOf row = code) && stage.all (fun wanted => inferStage (errorCodeOf row) = wanted) &&
    since.all (fun time => time ≤ row.updatedAt)

theorem keepIf_map {α β γ : Type} (wanted : Option β) (keeps : β → γ → Bool) (f : α → γ) (items : List α) :
    keepIf wanted keeps (items.map f) = (items.filter fun item => wanted.all fun value => keeps value (f item)).map f := by
  cases wanted with
  | none => simp [keepIf]
  | some value => simp [keepIf, List.filter_map, Function.comp_def]

-- A limit that is not positive leaves nothing, as taking no item does.
theorem listFailed_eq :
    listFailed ledger limit errorCode stage since =
      (((scanned ledger).filter (satisfies errorCode stage since)).take limit.toNat).map toFailedItem := by
  rw [listFailed]
  split
  next nonpositive =>
    have zero : limit.toNat = 0 := by omega
    rw [zero, List.take_zero, List.map_nil]
  next =>
    simp only [keepIf_map, List.map_take, List.filter_filter]
    congr 3
    funext row
    simp only [satisfies, toFailedItem]
    rw [Bool.and_comm, Bool.and_comm (Option.all _ stage)]
    rfl

theorem listFailed_length (nonneg : 0 ≤ limit) :
    ((listFailed ledger limit errorCode stage since).length : Int) =
      min limit ((scanned ledger).countP (satisfies errorCode stage since)) := by
  rw [listFailed_eq, List.length_map, List.length_take, List.countP_eq_length_filter]
  omega

theorem scanned_nodup : ((scanned ledger).map (·.docId)).Nodup := by
  obtain ⟨omitted, covered, _⟩ := (scanned_newest ledger).covered
  have all := (covered.map (·.docId)).nodup_iff.mpr (failedRows_nodup ledger)
  rw [List.map_append] at all
  exact (List.nodup_append.mp all).1

theorem listFailed_nodup : ((listFailed ledger limit errorCode stage since).map (·.docId)).Nodup := by
  rw [listFailed_eq, List.map_map]
  exact (scanned_nodup ledger).sublist (((List.take_sublist _ _).trans List.filter_sublist).map _)

theorem mem_failedRows {row : LedgerRow} (member : row ∈ failedRows ledger) :
    ledger.get row.docId = some row ∧ row.status = .failed := by
  obtain ⟨held, failed⟩ := List.mem_filter.mp member
  obtain ⟨⟨key, same⟩, entry, rfl⟩ := List.mem_map.mp held
  have present : ledger.get key = some same := (ledger.rows.get?_eq_some key same).mpr entry
  rw [(ledger.wellFormed key same present).ownKey]
  exact ⟨present, by simpa using failed⟩

theorem mem_listFailed {item : FailedItem} (member : item ∈ listFailed ledger limit errorCode stage since) :
    ∃ row, ledger.get item.docId = some row ∧ row.status = .failed ∧ item = toFailedItem row := by
  rw [listFailed_eq] at member
  obtain ⟨row, taken, rfl⟩ := List.mem_map.mp member
  have scannedRow := (List.mem_filter.mp (List.mem_of_mem_take taken)).1
  obtain ⟨omitted, covered, _⟩ := (scanned_newest ledger).covered
  obtain ⟨present, failed⟩ := mem_failedRows ledger (covered.mem_iff.mp (List.mem_append_left _ scannedRow))
  exact ⟨row, present, failed, rfl⟩

/-- The reports as if nothing bounded the scan. -/
structure Exact : Prop where
  summary : SummaryOf (failedRows ledger) (summarize ledger)
  listing : ∀ limit errorCode stage since, 0 ≤ limit →
    ((listFailed ledger limit errorCode stage since).length : Int) =
      min limit ((failedRows ledger).countP (satisfies errorCode stage since))

theorem exact_iff : Exact ledger ↔ ((failedRows ledger).length : Int) ≤ scanLimit := by
  have bound : scanLimit = 10000 := rfl
  constructor
  next =>
    intro exact
    have total := exact.summary.total
    rw [(summarize_scanned ledger).total, scanned_length] at total
    omega
  next =>
    intro within
    have perm := scanned_perm ledger (by omega)
    refine ⟨(summarize_scanned ledger).perm perm, ?_⟩
    intro limit errorCode stage since nonneg
    rw [listFailed_length ledger limit errorCode stage since nonneg, perm.countP_eq]

theorem reports_over_the_scan :
    Newest (failedRows ledger) (scanned ledger) ∧
      ((scanned ledger).length : Int) = min ((failedRows ledger).length : Int) scanLimit ∧
      SummaryOf (scanned ledger) (summarize ledger) ∧
      (∀ limit errorCode stage since, 0 ≤ limit →
        ((listFailed ledger limit errorCode stage since).length : Int) =
          min limit ((scanned ledger).countP (satisfies errorCode stage since))) ∧
      (Exact ledger ↔ ((failedRows ledger).length : Int) ≤ scanLimit) := by
  have bound : scanLimit = 10000 := rfl
  refine ⟨scanned_newest ledger, ?_, summarize_scanned ledger, fun limit => listFailed_length ledger limit,
    exact_iff ledger⟩
  rw [scanned_length]
  omega

-- A ledger with one failed document more than the scan reads.

theorem noAttempts_nonneg : (0 : Int) ≤ 0 := Int.le_refl 0

def failedRow (n : Nat) : LedgerRow where
  docId := numberedId n
  status := .failed
  stage := .failed
  attempts := 0
  attemptsNonneg := noAttempts_nonneg
  lastErrorCode := some chunkerEmptyElements
  configVersion := "v1"
  ingestedAt := 0
  updatedAt := n

theorem failedRow_wellFormed (n : Nat) : RowWellFormed (numberedId n) (failedRow n) :=
  ⟨numberedId_hex n, rfl, rfl, by simp [failedRow]⟩

def crowd : Nat → InMemoryLedgerStore
  | 0 => .empty
  | n + 1 => (crowd n).put (numberedId n) (failedRow n) (failedRow_wellFormed n)

theorem crowd_entries {n : Nat} (few : n ≤ Nat.pow 10 64) :
    (crowd n).rows.entries = (List.range n).map fun k => (numberedId k, failedRow k) := by
  induction n with
  | zero => rfl
  | succ n ih =>
    have before := ih (by omega)
    have absent : numberedId n ∉ (crowd n).rows.keys := by
      intro present
      rw [Dict.keys, before, List.map_map] at present
      obtain ⟨k, earlier, same⟩ := List.mem_map.mp present
      have smaller := List.mem_range.mp earlier
      have bounded : k < Nat.pow 10 64 := by omega
      have equal := numberedId_injective bounded (by omega) same
      omega
    have appended : (crowd (n + 1)).rows.entries = (crowd n).rows.entries ++ [(numberedId n, failedRow n)] :=
      Dict.entries_insert_of_absent absent _
    rw [appended, before, List.range_succ, List.map_append]
    rfl

theorem crowd_failed {n : Nat} (few : n ≤ Nat.pow 10 64) : (failedRows (crowd n)).length = n := by
  have all : failedRows (crowd n) = (List.range n).map failedRow := by
    rw [failedRows, Dict.values, crowd_entries few, List.map_map]
    apply List.filter_eq_self.mpr
    intro row member
    obtain ⟨k, _, rfl⟩ := List.mem_map.mp member
    rfl
  rw [all, List.length_map, List.length_range]

theorem crowd_report {n : Nat} (few : n ≤ Nat.pow 10 64) : (summarize (crowd n)).total = min (n : Int) 10000 := by
  rw [(summarize_scanned _).total, scanned_length, crowd_failed few]
  omega

theorem reports_not_exact :
    (failedRows (crowd 10001)).length = 10001 ∧ (summarize (crowd 10001)).total = 10000 ∧ ¬ Exact (crowd 10001) := by
  have few : 10001 ≤ Nat.pow 10 64 := by decide
  refine ⟨crowd_failed few, crowd_report few, ?_⟩
  rw [exact_iff, crowd_failed few]
  decide

-- The newest of the rows, newest first: all of them, or as many as the limit allows.
structure ListsNewest (limit : Int) (rows : List LedgerRow) (items : List FailedItem) : Prop where
  length : items.length = min limit.toNat rows.length
  descending : items.Pairwise fun first second => second.failedAt ≤ first.failedAt
  once : (items.map (·.docId)).Nodup
  newest : ∃ kept omitted : List LedgerRow, items = kept.map toFailedItem ∧ (kept ++ omitted).Perm rows ∧
    ∀ row ∈ kept, ∀ other ∈ omitted, other.updatedAt ≤ row.updatedAt

theorem listFailed_newest (within : ((failedRows ledger).length : Int) ≤ scanLimit) :
    ListsNewest limit ((failedRows ledger).filter (satisfies errorCode stage since))
      (listFailed ledger limit errorCode stage since) := by
  have bound : scanLimit = 10000 := rfl
  have perm := (scanned_perm ledger (by omega)).filter (satisfies errorCode stage since)
  have once := listFailed_nodup ledger limit errorCode stage since
  obtain ⟨sorted, omitted, covered, older⟩ :=
    newest_take perm ((scanned_newest ledger).sorted.filter _) limit.toNat
  rw [listFailed_eq] at once ⊢
  have length : (((scanned ledger).filter (satisfies errorCode stage since)).take limit.toNat).length =
      min limit.toNat ((failedRows ledger).filter (satisfies errorCode stage since)).length := by
    rw [List.length_take, perm.length_eq]
  exact ⟨by rw [List.length_map, length], List.pairwise_map.mpr sorted, once, _, omitted, rfl, covered, older⟩

theorem listFailed_scanned (within : ((failedRows ledger).length : Int) ≤ scanLimit) :
    listFailed ledger scanLimit errorCode stage since =
      ((scanned ledger).filter (satisfies errorCode stage since)).map toFailedItem := by
  have bound : scanLimit = 10000 := rfl
  have length := scanned_length ledger
  have kept := List.length_filter_le (satisfies errorCode stage since) (scanned ledger)
  rw [listFailed_eq, List.take_of_length_le]
  omega

theorem listFailed_unfiltered (within : ((failedRows ledger).length : Int) ≤ scanLimit) :
    listFailed ledger scanLimit = (scanned ledger).map toFailedItem := by
  rw [listFailed_scanned ledger none none none within, List.filter_eq_self.mpr]
  intro row _
  rfl

theorem summarize_totals : (summarize ledger).byErrorCode.total = (summarize ledger).total ∧
    (summarize ledger).byStage.total = (summarize ledger).total := by
  have empty : (Dict.empty : Dict String Int).total = 0 := rfl
  rw [(summarize_scanned ledger).total]
  constructor
  next =>
    rw [summarize, foldl_account_codes, Dict.total_foldl_bump, List.length_map, empty, Int.zero_add]
    rfl
  next =>
    rw [summarize, foldl_account_stages, Dict.total_foldl_bump, List.length_map, empty, Int.zero_add]
    rfl

-- In a list that goes down, the last entry is the least and the first one the greatest.
theorem oldest_eq_last {times : List DateTime} (descending : times.Pairwise fun first second => second ≤ first)
    {oldest : Option DateTime} (held : Oldest times oldest) : oldest = times.getLast? := by
  induction times using List.reverseRecOn with
  | nil =>
    cases oldest with
    | none => rfl
    | some time => cases held.1
  | append_singleton rest last _ =>
    rw [List.getLast?_concat]
    cases oldest with
    | none =>
      have empty : rest ++ [last] = [] := held
      simp at empty
    | some time =>
      have below := held.2 last (by simp)
      rcases List.mem_append.mp held.1 with earlier | same
      next =>
        have above := (List.pairwise_append.mp descending).2.2 time earlier last (by simp)
        rw [Int.le_antisymm below above]
      next => rw [List.mem_singleton.mp same]

theorem newest_eq_head {times : List DateTime} (descending : times.Pairwise fun first second => second ≤ first)
    {newest : Option DateTime} (held : Latest times newest) : newest = times.head? := by
  cases times with
  | nil =>
    cases newest with
    | none => rfl
    | some time => cases held.1
  | cons first rest =>
    rw [List.head?_cons]
    cases newest with
    | none => cases held
    | some time =>
      have above := held.2 first (by simp)
      rcases List.mem_cons.mp held.1 with rfl | later
      next => rfl
      next =>
        have below := (List.pairwise_cons.mp descending).1 time later
        rw [Int.le_antisymm below above]

theorem listing_and_summary_agree (within : ((failedRows ledger).length : Int) ≤ scanLimit) :
    (∀ limit errorCode stage since, ListsNewest limit ((failedRows ledger).filter (satisfies errorCode stage since))
      (listFailed ledger limit errorCode stage since)) ∧
    (∀ code, (summarize ledger).byErrorCode.countOf code = (listFailed ledger scanLimit (some code)).length) ∧
    (∀ stage, (summarize ledger).byStage.countOf stage = (listFailed ledger scanLimit none (some stage)).length) ∧
    (summarize ledger).byErrorCode.total = (summarize ledger).total ∧
    (summarize ledger).byStage.total = (summarize ledger).total ∧
    (summarize ledger).oldestFailureAt = (listFailed ledger scanLimit).getLast?.map (·.failedAt) ∧
    (summarize ledger).newestFailureAt = (listFailed ledger scanLimit).head?.map (·.failedAt) ∧
    ((summarize ledger).oldestFailureAt = none ↔ listFailed ledger scanLimit = []) ∧
    ((summarize ledger).newestFailureAt = none ↔ listFailed ledger scanLimit = []) := by
  have summary := summarize_scanned ledger
  have unfiltered := listFailed_unfiltered ledger within
  have times : (scanned ledger).map (·.updatedAt) = (listFailed ledger scanLimit).map (·.failedAt) := by
    rw [unfiltered, List.map_map]
    rfl
  have descending : ((listFailed ledger scanLimit).map (·.failedAt)).Pairwise fun first second => second ≤ first :=
    times ▸ List.pairwise_map.mpr (scanned_newest ledger).sorted
  have oldest := oldest_eq_last descending (times ▸ summary.oldest)
  have newest := newest_eq_head descending (times ▸ summary.newest)
  rw [List.getLast?_map] at oldest
  rw [List.head?_map] at newest
  refine ⟨fun limit errorCode stage since => listFailed_newest ledger limit errorCode stage since within, ?_, ?_,
    (summarize_totals ledger).1, (summarize_totals ledger).2, oldest, newest, by simp [oldest], by simp [newest]⟩
  next =>
    intro code
    rw [summary.codes, listFailed_scanned ledger _ _ _ within, List.length_map, List.count_eq_countP, List.countP_map,
      List.countP_eq_length_filter]
    congr 3
    funext row
    simp [satisfies, beq_eq_decide]
  next =>
    intro stage
    rw [summary.stages, listFailed_scanned ledger _ _ _ within, List.length_map, List.count_eq_countP, List.countP_map,
      List.countP_eq_length_filter]
    congr 3
    funext row
    simp [satisfies, beq_eq_decide]

theorem listing_and_summary_agree_on_two :
    (summarize (crowd 2)).byErrorCode.countOf chunkerEmptyElements =
        (listFailed (crowd 2) scanLimit (some chunkerEmptyElements)).length ∧
      (summarize (crowd 2)).byErrorCode.total = (summarize (crowd 2)).total ∧ (summarize (crowd 2)).total = 2 := by
  have two : ((failedRows (crowd 2)).length : Int) = 2 := by
    rw [crowd_failed (by decide)]
    rfl
  have agree := listing_and_summary_agree (crowd 2) (by rw [two]; decide)
  exact ⟨agree.2.1 _, agree.2.2.2.1, crowd_report (by decide)⟩

end Listing

end Reprocessor

end Vestibule
