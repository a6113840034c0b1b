import Vestibule.Chunker.Strategies
import Vestibule.Library.Delimited

set_option autoImplicit false

namespace Vestibule

open Library

-- A reader of the markdown that the chunker writes: lines end at newlines, cells stand between the bars of
-- a line and are stripped, and the second line only separates.

namespace Chunker

def isWhitespace (c : Char) : Bool :=
  isSpace c || c.toNat = 0x85 || c.toNat = 0xA0 || c.toNat = 0x1680 || (0x2000 ≤ c.toNat && c.toNat ≤ 0x200A) ||
    c.toNat = 0x2028 || c.toNat = 0x2029 || c.toNat = 0x202F || c.toNat = 0x205F || c.toNat = 0x3000

def strip (text : List Char) : List Char :=
  ((text.dropWhile isWhitespace).reverse.dropWhile isWhitespace).reverse

def readRow (line : List Char) : List (List Char) := ((line.splitOn '|').tail.dropLast).map strip

def readTable (text : String) : List (List (List Char)) :=
  match text.toList.splitOn '\n' with
  | header :: _ :: body => (header :: body).map readRow
  | lines => lines.map readRow

def entry {α : Type} (rows : List (List α)) (row column : Nat) : Option α := rows[row]?.bind (·[column]?)

def place (rows : List (List String)) (cell : TableCell) : List (List String) :=
  rows.modify cell.rowIndex (·.set cell.columnIndex (cellText cell))

structure Shaped {α : Type} (rows : List (List α)) (height width : Nat) : Prop where
  height : rows.length = height
  width : ∀ row ∈ rows, row.length = width

theorem shaped_place {rows : List (List String)} {height width : Nat} (shaped : Shaped rows height width)
    (cell : TableCell) : Shaped (place rows cell) height width where
  height := by simp [place, shaped.height]
  width row member := by
    obtain ⟨index, bound, rfl⟩ := List.mem_iff_getElem.mp member
    have held : index < rows.length := by simpa [place] using bound
    have own := shaped.width _ (List.getElem_mem held)
    simp only [place, List.getElem_modify]
    split
    next => simpa using own
    next => exact own

theorem entry_place {rows : List (List String)} {height width : Nat} (shaped : Shaped rows height width)
    {cell : TableCell} (inside : cell.rowIndex < height ∧ cell.columnIndex < width) (row column : Nat) :
    entry (place rows cell) row column =
      if cell.rowIndex = row ∧ cell.columnIndex = column then some (cellText cell) else entry rows row column := by
  have bound : cell.rowIndex < rows.length := shaped.height ▸ inside.1
  have width := shaped.width _ (List.getElem_mem bound)
  simp only [entry, place, List.getElem?_modify]
  by_cases sameRow : cell.rowIndex = row
  next =>
    subst sameRow
    simp only [List.getElem?_eq_getElem bound, Option.map_eq_map, Option.map_some, Option.bind_some, true_and, if_true]
    have present : cell.columnIndex < rows[cell.rowIndex].length := by omega
    rw [List.getElem?_set, if_pos present]
  next => simp [sameRow]

def position (cell : TableCell) : Nat × Nat := (cell.rowIndex, cell.columnIndex)

theorem placed_shaped (cells : List TableCell) {rows : List (List String)} {height width : Nat}
    (shaped : Shaped rows height width) : Shaped (cells.foldl place rows) height width := by
  induction cells generalizing rows with
  | nil => exact shaped
  | cons cell rest ih => exact ih (shaped_place shaped cell)

theorem placed_elsewhere {cells : List TableCell} {rows : List (List String)} {height width : Nat}
    (shaped : Shaped rows height width)
    (inside : ∀ cell ∈ cells, cell.rowIndex < height ∧ cell.columnIndex < width) {row column : Nat}
    (elsewhere : ∀ cell ∈ cells, position cell ≠ (row, column)) :
    entry (cells.foldl place rows) row column = entry rows row column := by
  induction cells generalizing rows with
  | nil => rfl
  | cons cell rest ih =>
    have other : ¬ (cell.rowIndex = row ∧ cell.columnIndex = column) := by
      simpa [position] using elsewhere cell (by simp)
    rw [List.foldl_cons, ih (shaped_place shaped cell) (fun cell member => inside cell (by simp [member]))
      (fun cell member => elsewhere cell (by simp [member])), entry_place shaped (inside cell (by simp)), if_neg other]

-- No later cell stands where this one does, so what it writes stays.
theorem placed_at {cells : List TableCell} {rows : List (List String)} {height width : Nat}
    (shaped : Shaped rows height width)
    (inside : ∀ cell ∈ cells, cell.rowIndex < height ∧ cell.columnIndex < width)
    (distinct : (cells.map position).Nodup) {cell : TableCell} (member : cell ∈ cells) :
    entry (cells.foldl place rows) cell.rowIndex cell.columnIndex = some (cellText cell) := by
  induction cells generalizing rows with
  | nil => simp at member
  | cons first rest ih =>
    rw [List.map_cons, List.nodup_cons] at distinct
    have later : ∀ cell ∈ rest, cell.rowIndex < height ∧ cell.columnIndex < width :=
      fun cell listed => inside cell (by simp [listed])
    rcases List.mem_cons.mp member with rfl | listed
    next =>
      rw [List.foldl_cons, placed_elsewhere (shaped_place shaped cell) later, entry_place shaped (inside cell (by simp)),
        if_pos ⟨rfl, rfl⟩]
      intro other listed same
      exact distinct.1 (List.mem_map.mpr ⟨other, listed, same⟩)
    next => exact ih (shaped_place shaped first) later distinct.2 listed

theorem le_foldl_max {indexes : List Nat} {index : Nat} (start : Nat) (member : index ∈ indexes) :
    index ≤ indexes.foldl max start := by
  have grows (others : List Nat) (start : Nat) : start ≤ others.foldl max start := by
    induction others generalizing start with
    | nil => simp
    | cons head rest ih => exact Nat.le_trans (Nat.le_max_left start head) (ih (max start head))
  induction indexes generalizing start with
  | nil => simp at member
  | cons head rest ih =>
    rcases List.mem_cons.mp member with rfl | later
    next => exact Nat.le_trans (Nat.le_max_right start index) (grows rest (max start index))
    next => exact ih (max start head) later

theorem cell_inside {cells : List TableCell} {cell : TableCell} (member : cell ∈ cells) :
    cell.rowIndex < rowCount cells ∧ cell.columnIndex < columnCount cells := by
  constructor
  next => exact Nat.lt_succ_of_le (le_foldl_max 0 (List.mem_map_of_mem member))
  next => exact Nat.lt_succ_of_le (le_foldl_max 0 (List.mem_map_of_mem member))

theorem blank_shaped (height width : Nat) : Shaped (List.replicate height (List.replicate width "")) height width where
  height := by simp
  width row member := by simp [List.eq_of_mem_replicate member]

theorem entry_blank {height width row column : Nat} (inside : row < height ∧ column < width) :
    entry (List.replicate height (List.replicate width "")) row column = some "" := by
  simp [entry, inside]

theorem grid_shaped (cells : List TableCell) : Shaped (grid cells) (rowCount cells) (columnCount cells) :=
  placed_shaped cells (blank_shaped _ _)

theorem grid_at {cells : List TableCell} (distinct : (cells.map position).Nodup) {cell : TableCell}
    (member : cell ∈ cells) : entry (grid cells) cell.rowIndex cell.columnIndex = some (cellText cell) :=
  placed_at (blank_shaped _ _) (fun _ => cell_inside) distinct member

theorem grid_elsewhere {cells : List TableCell} {row column : Nat}
    (inside : row < rowCount cells ∧ column < columnCount cells)
    (elsewhere : ∀ cell ∈ cells, position cell ≠ (row, column)) : entry (grid cells) row column = some "" :=
  (placed_elsewhere (blank_shaped _ _) (fun _ => cell_inside) elsewhere).trans (entry_blank inside)

def pad (text : List Char) : List Char := ' ' :: (text ++ [' '])

theorem strip_pad (text : List Char) : strip (pad text) = strip text := by
  have blank : isWhitespace ' ' = true := by decide
  simp only [strip, pad, List.dropWhile_cons, blank, if_true, List.dropWhile_append]
  split
  next empty =>
    have gone : text.dropWhile isWhitespace = [] := by simpa using empty
    simp [gone]
  next => simp [blank]

theorem bars_eq (first : List Char) (rest : List (List Char)) :
    ' ' :: ([' ', '|', ' '].intercalate (first :: rest) ++ [' ', '|']) =
      ['|'].intercalate ((first :: rest).map pad ++ [[]]) := by
  induction rest generalizing first with
  | nil => simp [pad]
  | cons next rest ih =>
    have step : ['|'].intercalate ((first :: next :: rest).map pad ++ [[]]) =
        pad first ++ ['|'] ++ ['|'].intercalate ((next :: rest).map pad ++ [[]]) := by
      simp
    rw [step, ← ih, List.intercalate_cons_cons]
    simp [pad]

theorem tableLine_toList {row : List String} (nonempty : row ≠ []) :
    (tableLine row).toList = ['|'].intercalate ([] :: (row.map (fun text => pad text.toList) ++ [[]])) := by
  obtain ⟨first, rest, rfl⟩ := List.exists_cons_of_ne_nil nonempty
  have bars := bars_eq first.toList (rest.map String.toList)
  have whole : (tableLine (first :: rest)).toList =
      '|' :: ' ' :: ([' ', '|', ' '].intercalate ((first :: rest).map String.toList) ++ [' ', '|']) := by
    simp [tableLine, String.toList_intercalate]
  rw [whole, List.map_cons, bars, List.intercalate_cons_of_ne_nil (by simp)]
  simp [Function.comp_def]

theorem readRow_tableLine {row : List String} (nonempty : row ≠ [])
    (plain : ∀ text ∈ row, '|' ∉ text.toList) :
    readRow (tableLine row).toList = row.map fun text => strip text.toList := by
  have clean : ∀ part ∈ [] :: (row.map (fun text => pad text.toList) ++ [[]]), '|' ∉ part := by
    intro part member
    simp only [List.mem_cons, List.mem_append, List.mem_map, List.not_mem_nil, or_false] at member
    rcases member with rfl | ⟨text, listed, rfl⟩ | rfl
    next => simp
    next => simpa [pad] using plain text listed
    next => simp
  rw [readRow, tableLine_toList nonempty, List.splitOn_intercalate _ clean (by simp), List.tail_cons,
    List.dropLast_concat, List.map_map]
  apply List.map_congr_left
  intro text _
  exact strip_pad text.toList

theorem no_bar_of_width {row : List String} (nonempty : row ≠ [])
    (width : (readRow (tableLine row).toList).length = row.length) : ∀ text ∈ row, '|' ∉ text.toList := by
  have parts : ((tableLine row).toList.splitOn '|').length = row.length + 2 := by
    have some' : ((tableLine row).toList.splitOn '|').length ≠ 0 := by simp [length_splitOn]
    obtain ⟨first, rest, rfl⟩ := List.exists_cons_of_ne_nil nonempty
    simp only [readRow, List.length_map, List.length_dropLast, List.length_tail, List.length_cons] at width
    simp only [List.length_cons]
    omega
  rw [tableLine_toList nonempty] at parts
  intro text member
  have clean := not_mem_of_length_splitOn '|' [] (row.map (fun text => pad text.toList) ++ [[]])
    (by simpa using parts) (pad text.toList) (by simpa using .inr (.inl ⟨text, member, rfl⟩))
  simpa [pad] using clean

theorem tableLine_no_newline {row : List String} (plain : ∀ text ∈ row, '\n' ∉ text.toList) :
    '\n' ∉ (tableLine row).toList := by
  intro member
  simp only [tableLine, String.toList_append, String.toList_intercalate, List.mem_append] at member
  rcases member with (start | between) | stop
  next => exact absurd start (by decide)
  next =>
    rcases mem_of_mem_intercalate between with bar | ⟨part, listed, held⟩
    next => exact absurd bar (by decide)
    next =>
      obtain ⟨text, own, rfl⟩ := List.mem_map.mp listed
      exact plain text own held
  next => exact absurd stop (by decide)

theorem newline_of_text {row : List String} {text : String} (listed : text ∈ row) (member : '\n' ∈ text.toList) :
    '\n' ∈ (tableLine row).toList := by
  have inside := mem_intercalate " | ".toList (List.mem_map_of_mem (f := String.toList) listed) member
  simp only [tableLine, String.toList_append, String.toList_intercalate, List.mem_append]
  exact .inl (.inr inside)

def separatorLine (cells : List TableCell) : String := tableLine (List.replicate (columnCount cells) "---")

theorem grid_cons (cells : List TableCell) : ∃ header body, grid cells = header :: body := by
  apply List.exists_cons_of_ne_nil
  intro empty
  have height := (grid_shaped cells).height
  rw [empty, rowCount] at height
  simp at height

theorem grid_row_ne_nil {cells : List TableCell} {row : List String} (member : row ∈ grid cells) : row ≠ [] := by
  rintro rfl
  have width := (grid_shaped cells).width [] member
  rw [columnCount] at width
  simp at width

theorem markdownTable_toList {cells : List TableCell} {header : List String} {body : List (List String)}
    (rows : grid cells = header :: body) :
    (markdownTable cells).toList =
      ['\n'].intercalate ((tableLine header :: separatorLine cells :: body.map tableLine).map String.toList) := by
  have newline : "\n".toList = ['\n'] := by decide
  simp only [markdownTable, rows, List.headD_cons, List.tail_cons, String.toList_intercalate, newline, separatorLine]

theorem separatorLine_no_newline (cells : List TableCell) : '\n' ∉ (separatorLine cells).toList := by
  apply tableLine_no_newline
  intro text member
  rw [List.eq_of_mem_replicate member]
  decide

theorem readTable_of_lines {text : String} {header separator : List Char} {body : List (List Char)}
    (lines : text.toList.splitOn '\n' = header :: separator :: body) :
    readTable text = (header :: body).map readRow := by
  simp [readTable, lines]

theorem length_readTable {text : String} (many : 2 ≤ (text.toList.splitOn '\n').length) :
    (readTable text).length + 1 = (text.toList.splitOn '\n').length := by
  cases lines : text.toList.splitOn '\n' with
  | nil => simp [lines] at many
  | cons header rest =>
    cases rest with
    | nil => simp [lines] at many
    | cons separator body =>
      rw [readTable_of_lines lines]
      simp

theorem readTable_markdownTable {cells : List TableCell}
    (plain : ∀ row ∈ grid cells, ∀ text ∈ row, '\n' ∉ text.toList) :
    readTable (markdownTable cells) = (grid cells).map fun row => readRow (tableLine row).toList := by
  obtain ⟨header, body, rows⟩ := grid_cons cells
  have clean : ∀ line ∈ (tableLine header :: separatorLine cells :: body.map tableLine).map String.toList,
      '\n' ∉ line := by
    intro line member
    simp only [List.map_cons, List.map_map, List.mem_cons, List.mem_map] at member
    rcases member with rfl | rfl | ⟨row, listed, rfl⟩
    next => exact tableLine_no_newline (plain header (by simp [rows]))
    next => exact separatorLine_no_newline cells
    next => exact tableLine_no_newline (plain row (by simp [rows, listed]))
  have lines := List.splitOn_intercalate '\n' clean (by simp)
  rw [← markdownTable_toList rows] at lines
  rw [readTable_of_lines lines, rows]
  simp

def strippedContent (cell : TableCell) : List Char :=
  match cell.content with
  | some (some text) => strip text.toList
  | _ => []

structure ReadsBack (cells : List TableCell) (rows : List (List (List Char))) : Prop where
  shaped : Shaped rows (rowCount cells) (columnCount cells)
  entries : ∀ cell ∈ cells, entry rows cell.rowIndex cell.columnIndex = some (strippedContent cell)
  blank : ∀ row column, row < rowCount cells ∧ column < columnCount cells →
    (∀ cell ∈ cells, position cell ≠ (row, column)) → entry rows row column = some []

def PlainContent (cell : TableCell) : Prop :=
  cell.content ≠ some none ∧ ∀ text, cell.content = some (some text) → '|' ∉ text.toList ∧ '\n' ∉ text.toList

theorem cellText_plain {cell : TableCell} (plain : PlainContent cell) :
    '|' ∉ (cellText cell).toList ∧ '\n' ∉ (cellText cell).toList := by
  cases content : cell.content with
  | none => simp [cellText, content]
  | some held =>
    cases held with
    | none => exact (plain.1 content).elim
    | some text => simpa [cellText, content] using plain.2 text content

theorem strip_cellText {cell : TableCell} (present : cell.content ≠ some none) :
    strip (cellText cell).toList = strippedContent cell := by
  cases content : cell.content with
  | none => simp [cellText, strippedContent, content, strip]
  | some held =>
    cases held with
    | none => exact (present content).elim
    | some text => simp [cellText, strippedContent, content]

theorem mem_of_entry {α : Type} {rows : List (List α)} {row column : Nat} {item : α}
    (found : entry rows row column = some item) : ∃ line ∈ rows, item ∈ line := by
  obtain ⟨line, held, within⟩ := Option.bind_eq_some_iff.mp found
  exact ⟨line, List.mem_of_getElem? held, List.mem_of_getElem? within⟩

theorem entry_map {α β : Type} (f : α → β) (rows : List (List α)) (row column : Nat) :
    entry (rows.map (List.map f)) row column = (entry rows row column).map f := by
  simp only [entry, List.getElem?_map]
  cases rows[row]? <;> simp

-- Every text of the grid is a cell's, or blank.
theorem grid_text {cells : List TableCell} (distinct : (cells.map position).Nodup) {row : List String} {text : String}
    (listed : row ∈ grid cells) (member : text ∈ row) : text = "" ∨ ∃ cell ∈ cells, text = cellText cell := by
  obtain ⟨index, below, rfl⟩ := List.mem_iff_getElem.mp listed
  obtain ⟨column, within, rfl⟩ := List.mem_iff_getElem.mp member
  have width := (grid_shaped cells).width _ listed
  have height := (grid_shaped cells).height
  have found : entry (grid cells) index column = some (grid cells)[index][column] := by
    simp [entry, below, within]
  by_cases taken : ∃ cell ∈ cells, position cell = (index, column)
  next =>
    obtain ⟨cell, own, place⟩ := taken
    obtain ⟨rfl, rfl⟩ : cell.rowIndex = index ∧ cell.columnIndex = column := by simpa [position] using place
    have written := (grid_at distinct own).symm.trans found
    exact .inr ⟨cell, own, (Option.some.inj written).symm⟩
  next =>
    have inside : index < rowCount cells ∧ column < columnCount cells := by omega
    have free := grid_elsewhere inside fun cell own place => taken ⟨cell, own, place⟩
    exact .inl (Option.some.inj (found.symm.trans free))

theorem readsBack_of_plain {cells : List TableCell} (distinct : (cells.map position).Nodup)
    (plain : ∀ cell ∈ cells, PlainContent cell) : ReadsBack cells (readTable (markdownTable cells)) := by
  have clean : ∀ row ∈ grid cells, ∀ text ∈ row, '|' ∉ text.toList ∧ '\n' ∉ text.toList := by
    intro row listed text member
    rcases grid_text distinct listed member with rfl | ⟨cell, own, rfl⟩
    next => simp
    next => exact cellText_plain (plain cell own)
  have rows : readTable (markdownTable cells) = (grid cells).map (List.map fun text => strip text.toList) := by
    rw [readTable_markdownTable fun row listed text member => (clean row listed text member).2]
    apply List.map_congr_left
    intro row listed
    exact readRow_tableLine (grid_row_ne_nil listed) fun text member => (clean row listed text member).1
  rw [rows]
  constructor
  next =>
    constructor
    next => rw [List.length_map, (grid_shaped cells).height]
    next =>
      intro row member
      obtain ⟨line, listed, rfl⟩ := List.mem_map.mp member
      rw [List.length_map, (grid_shaped cells).width line listed]
  next =>
    intro cell member
    rw [entry_map, grid_at distinct member, Option.map_some, strip_cellText (plain cell member).1]
  next =>
    intro row column inside elsewhere
    rw [entry_map, grid_elsewhere inside elsewhere]
    rfl

theorem no_newline_of_height {cells : List TableCell}
    (height : (readTable (markdownTable cells)).length = rowCount cells) :
    ∀ row ∈ grid cells, ∀ text ∈ row, '\n' ∉ text.toList := by
  obtain ⟨header, body, rows⟩ := grid_cons cells
  have whole : body.length + 1 = rowCount cells := by
    rw [← (grid_shaped cells).height, rows, List.length_cons]
  have many : 2 ≤ ((markdownTable cells).toList.splitOn '\n').length := by
    rw [markdownTable_toList rows, length_splitOn, List.map_cons, List.map_cons]
    have lines := length_le_count_intercalate '\n' (tableLine header).toList
      ((separatorLine cells).toList :: (body.map tableLine).map String.toList)
    rw [List.length_cons] at lines
    omega
  have counted := length_readTable many
  rw [height, ← whole, markdownTable_toList rows] at counted
  have clean := not_mem_of_length_splitOn '\n' (tableLine header).toList
    ((separatorLine cells :: body.map tableLine).map String.toList) (by
      rw [← List.map_cons, ← counted]
      simp)
  intro row listed text member held
  refine clean (tableLine row).toList ?_ (newline_of_text member held)
  rw [rows] at listed
  rcases List.mem_cons.mp listed with rfl | later
  next => simp
  next => exact List.mem_cons_of_mem _ (List.mem_map_of_mem (List.mem_cons_of_mem _ (List.mem_map_of_mem later)))

theorem markdownTable_readsBack_iff (cells : List TableCell) (distinct : (cells.map position).Nodup) :
    ReadsBack cells (readTable (markdownTable cells)) ↔ ∀ cell ∈ cells, PlainContent cell := by
  constructor
  next =>
    intro readsBack
    have flat := no_newline_of_height readsBack.shaped.height
    have rows := readTable_markdownTable flat
    have bare : ∀ row ∈ grid cells, ∀ text ∈ row, '|' ∉ text.toList := by
      intro row listed
      apply no_bar_of_width (grid_row_ne_nil listed)
      rw [(grid_shaped cells).width row listed]
      exact readsBack.shaped.width _ (rows ▸ List.mem_map_of_mem listed)
    intro cell member
    obtain ⟨row, listed, own⟩ := mem_of_entry (grid_at distinct member)
    constructor
    next =>
      intro missing
      have read := readsBack.entries cell member
      have stripped : (grid cells).map (fun row => readRow (tableLine row).toList) =
          (grid cells).map (List.map fun text => strip text.toList) := by
        apply List.map_congr_left
        intro row listed
        exact readRow_tableLine (grid_row_ne_nil listed) (bare row listed)
      rw [rows, stripped, entry_map, grid_at distinct member] at read
      simp only [cellText, strippedContent, missing, Option.map_some, Option.some.injEq] at read
      exact absurd read (by decide)
    next =>
      intro text content
      have same : cellText cell = text := by simp [cellText, content]
      exact ⟨same ▸ bare row listed _ own, same ▸ flat row listed _ own⟩
  next => exact readsBack_of_plain distinct

def ageCells : List TableCell :=
  [⟨1, 0, some (some " Alice ")⟩, ⟨0, 1, some (some "Age")⟩, ⟨0, 0, some (some "Name")⟩]

theorem ageCells_readsBack :
    (ageCells.map position).Nodup ∧ ReadsBack ageCells (readTable (markdownTable ageCells)) := by
  have distinct : (ageCells.map position).Nodup := by decide
  refine ⟨distinct, (markdownTable_readsBack_iff ageCells distinct).mpr ?_⟩
  intro cell member
  simp only [ageCells, List.mem_cons, List.not_mem_nil, or_false] at member
  rcases member with rfl | rfl | rfl
  next => exact ⟨by decide, fun text content => by cases content; decide⟩
  next => exact ⟨by decide, fun text content => by cases content; decide⟩
  next => exact ⟨by decide, fun text content => by cases content; decide⟩

-- A bar in one cell, and an empty cell as PyMuPDF extracts it.
def barCells : List TableCell := [⟨0, 0, some (some "a|b")⟩, ⟨0, 1, some none⟩]

theorem barCells_not_readsBack :
    barCells ≠ [] ∧ (barCells.map position).Nodup ∧ markdownTable barCells = "| a|b | None |\n| --- | --- |" ∧
      readTable (markdownTable barCells) = ["a".toList, "b".toList, "None".toList] :: [] ∧
      ¬ ReadsBack barCells (readTable (markdownTable barCells)) := by
  have rows : readTable (markdownTable barCells) = ["a".toList, "b".toList, "None".toList] :: [] := by decide
  refine ⟨by decide, by decide, by decide, rows, ?_⟩
  intro readsBack
  have width := readsBack.shaped.width ["a".toList, "b".toList, "None".toList] (by simp [rows])
  exact absurd width (by decide)

end Chunker

end Vestibule
