import EventFlow.Store.Csv
import Mathlib.Tactic.SplitIfs

/-!
# Tables are read back

`Csv.TableText` says which texts stand for a table: cells with commas between them and a line feed
behind each record, where a cell is bare if it holds no comma, quote, line feed or carriage return,
and else stands between quotes with its own quotes doubled. `Csv.read?` reads such texts character
by character, and no others (`Csv.read?_eq_some_iff`). Whatever table is written is such a text, so
it is read back, and no two tables are written alike (`Csv.exports_read_back`). The writer is
`Csv.write`, and the two tables are `Csv.workflows` and `Csv.executions` (`EventFlow.Store.Csv`).
-/

set_option autoImplicit false

namespace EventFlow.Csv

/-! ## Texts of tables -/

/-- A text stands for a cell. -/
inductive CellText (cell : List Char) : List Char → Prop
  | bare (plain : needsQuotes cell = false) : CellText cell cell
  | quoted : CellText cell ('"' :: (doubleQuotes cell ++ ['"']))

/-- A text stands for some cells with a comma behind each of them. -/
inductive CellsText : List String → List Char → Prop
  | nil : CellsText [] []
  | snoc {cells : List String} {cell : String} {s t : List Char} (before : CellsText cells s)
      (text : CellText cell.toList t) : CellsText (cells ++ [cell]) (s ++ (t ++ [',']))

/-- A text stands for a record: a line feed comes behind its last cell. -/
inductive RecordText : List String → List Char → Prop
  | ended {cells : List String} {cell : String} {s t : List Char} (before : CellsText cells s)
      (text : CellText cell.toList t) : RecordText (cells ++ [cell]) (s ++ (t ++ ['\n']))

/-- A text stands for a table: one record after the other. -/
inductive TableText : List (List String) → List Char → Prop
  | nil : TableText [] []
  | snoc {records : List (List String)} {cells : List String} {s t : List Char}
      (before : TableText records s) (text : RecordText cells t) :
      TableText (records ++ [cells]) (s ++ t)

/-! ## Reading -/

/-- Where in a cell a reader stands: outside of quotes, between them, or behind a quote that ends
the cell unless another one follows. -/
inductive Place where
  | bare
  | quoted
  | closing
deriving DecidableEq

/-- A reader: where it stands, what it has read of a cell, the cells of the record before it and the
records before that. -/
structure Reader where
  place : Place
  cell : List Char
  cells : List String
  records : List (List String)
deriving DecidableEq

namespace Reader

/-- A reader in front of a record. -/
def behind (records : List (List String)) : Reader := ⟨.bare, [], [], records⟩

/-- One more character belongs to the cell. -/
def add (r : Reader) (c : Char) : Reader := { r with cell := r.cell ++ [c] }

/-- The cell is over. -/
def endCell (r : Reader) : Reader := ⟨.bare, [], r.cells ++ [String.ofList r.cell], r.records⟩

/-- The cell is over and the record with it. -/
def endRecord (r : Reader) : Reader := behind (r.records ++ [r.cells ++ [String.ofList r.cell]])

/-- The reader behind one more character, if the character may stand there. -/
def step (r : Reader) (c : Char) : Option Reader :=
  match r.place with
  | .bare =>
    if c = ',' then some r.endCell
    else if c = '\n' then some r.endRecord
    else if c = '"' then if r.cell = [] then some { r with place := .quoted } else none
    else if c = '\r' then none
    else some (r.add c)
  | .quoted => some (if c = '"' then { r with place := .closing } else r.add c)
  | .closing =>
    if c = ',' then some r.endCell
    else if c = '\n' then some r.endRecord
    else if c = '"' then some { r.add c with place := .quoted }
    else none

/-- A reader gets over a text, and this is the reader behind it. -/
def Reads (r : Reader) (s : List Char) (r' : Reader) : Prop := s.foldlM step r = some r'

variable {r r' r'' : Reader} {s s' : List Char} {c : Char}

/-- One character more is read. -/
theorem Reads.cons (first : r.step c = some r') (rest : r'.Reads s r'') : r.Reads (c :: s) r'' := by
  rw [Reads, List.foldlM_cons, first]
  exact rest

/-- Texts are read one behind the other. -/
theorem Reads.append (first : r.Reads s r') (rest : r'.Reads s' r'') :
    r.Reads (s ++ s') r'' := by
  unfold Reads at first
  rw [Reads, List.foldlM_append, first]
  exact rest

end Reader

/-- The records of a text, if it ends behind a record and nothing stands in it where it may not. -/
def read? (s : List Char) : Option (List (List String)) :=
  (s.foldlM Reader.step (.behind [])).bind fun r =>
    if r = .behind r.records then some r.records else none

/-! ## What stands for a table is read -/

section Complete

open Reader

variable {c : Char} {s read : List Char} {cell : List Char} {cells : List String}
variable {records : List (List String)}

/-- A text is bare if no character of it is a comma, a quote or part of a line break. -/
theorem needsQuotes_cons : needsQuotes (c :: s) = false ↔
    c ≠ ',' ∧ c ≠ '"' ∧ c ≠ '\n' ∧ c ≠ '\r' ∧ needsQuotes s = false := by
  simp [needsQuotes, and_assoc]

/-- A bare text is read as it is. -/
theorem reads_bare (plain : needsQuotes s = false) :
    Reads ⟨.bare, read, cells, records⟩ s ⟨.bare, read ++ s, cells, records⟩ := by
  induction s generalizing read with
  | nil =>
    rw [List.append_nil]
    rfl
  | cons c rest ih =>
    obtain ⟨comma, quote, line, back, plain⟩ := needsQuotes_cons.1 plain
    rw [List.append_cons]
    refine .cons ?_ (ih plain)
    simp [step, comma, quote, line, back, add]

/-- A text between quotes is read with its quotes halved again. -/
theorem reads_quoted (s : List Char) :
    Reads ⟨.quoted, read, cells, records⟩ (doubleQuotes s)
      ⟨.quoted, read ++ s, cells, records⟩ := by
  induction s generalizing read with
  | nil =>
    rw [List.append_nil]
    rfl
  | cons c rest ih =>
    rw [List.append_cons, doubleQuotes]
    split
    · next quote =>
      subst quote
      exact .cons rfl (.cons rfl ih)
    · next other =>
      refine .cons ?_ ih
      simp [step, other, add]

/-- Behind a cell stands a reader that has its text, where the cell may end. -/
theorem CellText.exists_reads (h : CellText cell s) (cells : List String)
    (records : List (List String)) :
    ∃ place, place ≠ .quoted ∧
      Reads ⟨.bare, [], cells, records⟩ s ⟨place, cell, cells, records⟩ := by
  cases h with
  | bare plain => exact ⟨.bare, nofun, reads_bare plain⟩
  | quoted => exact ⟨.closing, nofun, .cons rfl (.append (reads_quoted _) (.cons rfl rfl))⟩

/-- Outside of quotes a comma ends the cell. -/
theorem step_comma {r : Reader} (outside : r.place ≠ .quoted) : r.step ',' = some r.endCell := by
  unfold step
  split
  · rfl
  · next inside => exact absurd inside outside
  · rfl

/-- Outside of quotes a line break ends the record. -/
theorem step_line {r : Reader} (outside : r.place ≠ .quoted) :
    r.step '\n' = some r.endRecord := by
  unfold step
  split
  · rfl
  · next inside => exact absurd inside outside
  · rfl

/-- The text of cells is read as these cells, and the reader stands in front of the next. -/
theorem CellsText.reads (h : CellsText cells s) :
    Reads (behind records) s ⟨.bare, [], cells, records⟩ := by
  induction h with
  | nil => rfl
  | @snoc cells cell s t before text ih =>
    obtain ⟨place, outside, read⟩ := text.exists_reads cells records
    have ended := step_comma (r := ⟨place, cell.toList, cells, records⟩) outside
    rw [endCell, String.ofList_toList] at ended
    exact ih.append (read.append (.cons ended rfl))

/-- The text of a record is read as this record. -/
theorem RecordText.reads (h : RecordText cells s) :
    Reads (behind records) s (behind (records ++ [cells])) := by
  cases h with
  | @ended cells cell s t before text =>
    obtain ⟨place, outside, read⟩ := text.exists_reads cells records
    have ended := step_line (r := ⟨place, cell.toList, cells, records⟩) outside
    rw [endRecord, String.ofList_toList] at ended
    exact before.reads.append (read.append (.cons ended rfl))

/-- The text of a table is read as this table, by induction on its records. -/
theorem TableText.reads (h : TableText records s) : Reads (behind []) s (behind records) := by
  induction h with
  | nil => rfl
  | snoc before text ih => exact ih.append text.reads

end Complete

/-! ## What is read stands for a table -/

/-- What a reader has read of a cell, by where it stands. -/
inductive PartText (cell : List Char) : Place → List Char → Prop
  | bare (plain : needsQuotes cell = false) : PartText cell .bare cell
  | quoted : PartText cell .quoted ('"' :: doubleQuotes cell)
  | closing : PartText cell .closing ('"' :: (doubleQuotes cell ++ ['"']))

/-- What a reader has read: records, cells of the next record, and a part of the next cell. -/
structure Behind (r : Reader) (s table record part : List Char) : Prop where
  parts : s = table ++ (record ++ part)
  table : TableText r.records table
  record : CellsText r.cells record
  part : PartText r.cell r.place part

section Sound

open Reader

variable {r r' : Reader} {c : Char} {s t table record part cell : List Char} {place : Place}

theorem doubleQuotes_append (s t : List Char) :
    doubleQuotes (s ++ t) = doubleQuotes s ++ doubleQuotes t := by
  induction s with
  | nil => rfl
  | cons c rest ih =>
    rw [List.cons_append, doubleQuotes, doubleQuotes, ih]
    split <;> rfl

/-- A plain character behind a bare part belongs to it. -/
theorem PartText.add_bare (h : PartText cell .bare s) (comma : c ≠ ',') (quote : c ≠ '"')
    (line : c ≠ '\n') (back : c ≠ '\r') : PartText (cell ++ [c]) .bare (s ++ [c]) := by
  cases h with
  | bare plain =>
    refine .bare ?_
    rw [needsQuotes, List.any_append, ← needsQuotes, plain]
    exact needsQuotes_cons.2 ⟨comma, quote, line, back, rfl⟩

/-- Any character but a quote belongs to a part between quotes. -/
theorem PartText.add_quoted (h : PartText cell .quoted s) (quote : c ≠ '"') :
    PartText (cell ++ [c]) .quoted (s ++ [c]) := by
  cases h with
  | quoted =>
    have text : doubleQuotes (cell ++ [c]) = doubleQuotes cell ++ [c] := by
      rw [doubleQuotes_append, doubleQuotes, if_neg quote, doubleQuotes]
    have more : PartText (cell ++ [c]) .quoted _ := .quoted
    rwa [text] at more

/-- A quote may end the part between quotes. -/
theorem PartText.close (h : PartText cell .quoted s) : PartText cell .closing (s ++ ['"']) := by
  cases h with
  | quoted => exact .closing

/-- A quote behind a closing quote means a quote. -/
theorem PartText.reopen (h : PartText cell .closing s) :
    PartText (cell ++ ['"']) .quoted (s ++ ['"']) := by
  cases h with
  | closing =>
    have text : doubleQuotes (cell ++ ['"']) = doubleQuotes cell ++ ['"'] ++ ['"'] := by
      rw [doubleQuotes_append, List.append_assoc]
      rfl
    have more : PartText (cell ++ ['"']) .quoted _ := .quoted
    rwa [text] at more

/-- A quote at the beginning of a cell opens it. -/
theorem PartText.opened (h : PartText [] .bare s) : PartText [] .quoted (s ++ ['"']) := by
  cases h with
  | bare => exact .quoted

/-- A part that is not left open is the text of a cell. -/
theorem PartText.cellText (h : PartText cell place s) (outside : place ≠ .quoted) :
    CellText (String.ofList cell).toList s := by
  rw [String.toList_ofList]
  cases h with
  | bare plain => exact .bare plain
  | quoted => exact absurd rfl outside
  | closing => exact .quoted

/-- A comma puts what was read of a cell behind the cells of the record. -/
theorem Behind.endCell (h : Behind r s table record part) (outside : r.place ≠ .quoted) :
    Behind r.endCell (s ++ [',']) table (record ++ (part ++ [','])) [] where
  parts := by rw [h.parts]; simp
  table := h.table
  record := .snoc h.record (h.part.cellText outside)
  part := .bare rfl

/-- A line break puts what was read of a record behind the records of the table. -/
theorem Behind.endRecord (h : Behind r s table record part) (outside : r.place ≠ .quoted) :
    Behind r.endRecord (s ++ ['\n']) (table ++ (record ++ (part ++ ['\n']))) [] [] where
  parts := by rw [h.parts]; simp
  table := .snoc h.table (.ended h.record (h.part.cellText outside))
  record := .nil
  part := .bare rfl

/-- One more character of the cell is read. -/
theorem Behind.within {read : List Char} {cells : List String} {records : List (List String)}
    (h : Behind ⟨place, read, cells, records⟩ s table record part) {place' : Place}
    (more : PartText cell place' (part ++ [c])) :
    Behind ⟨place', cell, cells, records⟩ (s ++ [c]) table record (part ++ [c]) where
  parts := by rw [h.parts]; simp
  table := h.table
  record := h.record
  part := more

/-- Whatever character is read, what has been read stands for what the reader holds. -/
theorem Behind.step (h : Behind r s table record part) (stepped : r.step c = some r') :
    ∃ table record part, Behind r' (s ++ [c]) table record part := by
  obtain ⟨place, cell, cells, records⟩ := r
  unfold Reader.step at stepped
  cases place with
  | bare =>
    dsimp only at stepped
    split_ifs at stepped with comma line quote first back <;> cases stepped
    · exact ⟨_, _, _, comma ▸ h.endCell nofun⟩
    · exact ⟨_, _, _, line ▸ h.endRecord nofun⟩
    · subst first quote
      exact ⟨_, _, _, h.within h.part.opened⟩
    · exact ⟨_, _, _, h.within (h.part.add_bare comma quote line back)⟩
  | quoted =>
    dsimp only at stepped
    split_ifs at stepped with quote <;> cases stepped
    · subst quote
      exact ⟨_, _, _, h.within h.part.close⟩
    · exact ⟨_, _, _, h.within (h.part.add_quoted quote)⟩
  | closing =>
    dsimp only at stepped
    split_ifs at stepped with comma line quote <;> cases stepped
    · exact ⟨_, _, _, comma ▸ h.endCell nofun⟩
    · exact ⟨_, _, _, line ▸ h.endRecord nofun⟩
    · subst quote
      exact ⟨_, _, _, h.within h.part.reopen⟩

/-- A reader holds what it has read, however long it has read. -/
theorem Behind.run (h : Behind r s table record part) (read : r.Reads t r') :
    ∃ table record part, Behind r' (s ++ t) table record part := by
  induction t generalizing r s table record part with
  | nil =>
    cases read
    rw [List.append_nil]
    exact ⟨_, _, _, h⟩
  | cons c rest ih =>
    rw [Reads, List.foldlM_cons] at read
    obtain ⟨next, stepped, read⟩ := Option.bind_eq_some_iff.1 read
    obtain ⟨_, _, _, h'⟩ := h.step stepped
    rw [List.append_cons]
    exact ih h' read

theorem CellsText.eq_nil (h : CellsText [] s) : s = [] := by
  generalize none : ([] : List String) = cells at h
  cases h with
  | nil => rfl
  | snoc before text => exact absurd none.symm (List.append_ne_nil_of_right_ne_nil _ nofun)

theorem PartText.eq_nil (h : PartText [] .bare s) : s = [] := by
  cases h with
  | bare => rfl

/-- A reader in front of a record has read a table. -/
theorem tableText_of_reads {records : List (List String)}
    (read : Reads (behind []) s (behind records)) : TableText records s := by
  have start : Behind (behind []) [] [] [] [] := ⟨rfl, .nil, .nil, .bare rfl⟩
  obtain ⟨table, record, part, parts, whole, before, begun⟩ := start.run read
  obtain rfl : record = [] := before.eq_nil
  obtain rfl : part = [] := begun.eq_nil
  have same : s = table := by simpa using parts
  rw [same]
  exact whole

end Sound

/-- The reader reads every text that stands for a table, and no other. -/
theorem read?_eq_some_iff {s : List Char} {table : List (List String)} :
    read? s = some table ↔ TableText table s := by
  constructor
  · intro h
    obtain ⟨r, read, ended⟩ := Option.bind_eq_some_iff.1 h
    split at ended
    · next front =>
      cases ended
      rw [front] at read
      exact tableText_of_reads read
    · cases ended
  · intro h
    rw [read?, show s.foldlM Reader.step (.behind []) = some (.behind table) from h.reads]
    exact if_pos rfl

/-! ## What is written is read back -/

/-- What a record is written as: one without cells is written as one with an empty cell. -/
def filled : List String → List String
  | [] => [""]
  | cells => cells

/-- A cell is written as a text that stands for it, with or without quotes. -/
theorem cellText_writeCell (cell : String) : CellText cell.toList (writeCell cell) := by
  unfold writeCell
  split
  · exact .quoted
  · next plain => exact .bare (Bool.eq_false_iff.2 plain)

theorem CellsText.recordText_writeCells {before : List String} {s : List Char}
    (h : CellsText before s) (cells : List String) :
    RecordText (before ++ filled cells) (s ++ (writeCells cells ++ ['\n'])) := by
  induction cells generalizing before s with
  | nil => exact .ended h (cellText_writeCell "")
  | cons cell rest ih =>
    cases rest with
    | nil => exact .ended h (cellText_writeCell cell)
    | cons next rest =>
      have more := ih (.snoc h (cellText_writeCell cell))
      rw [writeCells]
      · simpa [filled] using more
      · nofun

/-- A record is written as a text that stands for it, and an empty one as one empty cell. -/
theorem recordText_writeRecord (cells : List String) :
    RecordText (filled cells) (writeRecord cells) :=
  CellsText.nil.recordText_writeCells cells

/-- Records are written behind a table, one by one. -/
theorem TableText.append_write {records : List (List String)} {s : List Char}
    (h : TableText records s) (table : List (List String)) :
    TableText (records ++ table.map filled) (s ++ table.flatMap writeRecord) := by
  induction table generalizing records s with
  | nil => simpa using h
  | cons cells rest ih =>
    have more := ih (.snoc h (recordText_writeRecord cells))
    simpa using more

/-- What is written is read back. -/
theorem read?_write (table : List (List String)) :
    read? (write table).toList = some (table.map filled) := by
  rw [write, String.toList_ofList]
  exact read?_eq_some_iff.2 (TableText.nil.append_write table)

/-- Quotes stand around a whole cell, a carriage return stands between quotes, and a line feed ends
every record. -/
example : read? "a,\"b\"\"\r\"\n,\n".toList = some [["a", "b\"\r"], ["", ""]] ∧
    read? "a\"b\"\n".toList = none ∧ read? "\"a\"b\n".toList = none ∧
    read? "a\r\n".toList = none ∧ read? "a,".toList = none := by
  decide

/-- Records with cells are not filled up. -/
theorem map_filled {table : List (List String)} (some_cell : ∀ record ∈ table, record ≠ []) :
    table.map filled = table := by
  refine (List.map_congr_left fun record among => ?_).trans table.map_id
  cases record with
  | nil => exact absurd rfl (some_cell _ among)
  | cons cell rest => rfl

/-- A header and rows with cells are read back as they were written. -/
theorem read?_write_rows {α : Type} {columns : List String} {row : α → List String}
    (header : columns ≠ []) (cells : ∀ x, row x ≠ []) (rows : List α) :
    read? (write (columns :: rows.map row)).toList = some (columns :: rows.map row) := by
  rw [read?_write, map_filled]
  intro record among
  rcases List.mem_cons.1 among with rfl | among
  · exact header
  · obtain ⟨x, -, rfl⟩ := List.mem_map.1 among
    exact cells x

/-- The reader reads what stands for a table and nothing else. A table of workflows or of executions
is read back as its header and one record for each row, in order, with the text of each field under
its column. No two tables of cells are written alike. -/
theorem exports_read_back :
    (∀ s table, read? s = some table ↔ TableText table s) ∧
      (∀ rows : List Workflow, read? (workflows rows).toList = some
        (["id", "name", "description", "status", "trigger", "steps", "created"] ::
          rows.map fun w => [w.id, w.name, w.description, w.status.name, w.triggerEventType,
            toString w.stepIds.length, w.createdAt.dateText])) ∧
      (∀ rows : List Execution, read? (executions rows).toList = some
        (["id", "workflow_id", "workflow_name", "status", "started_at", "completed_at", "results",
          "errors", "created_by"] ::
          rows.map fun e => [e.id.text, e.workflowId, e.workflowName, e.status.name,
            e.startedAt.localText ++ "+00:00",
            e.completedAt.elim "" fun time => time.localText ++ "+00:00",
            toString e.results.length, toString e.errors.length, e.createdBy])) ∧
      (∀ w, (workflowCells w).length = workflowColumns.length) ∧
      (∀ e, (executionCells e).length = executionColumns.length) ∧
      ∀ table table' : List (List String), (∀ record ∈ table, record ≠ []) →
        (∀ record ∈ table', record ≠ []) → table ≠ table' → write table ≠ write table' := by
  have cells : executionCells = fun e => [e.id.text, e.workflowId, e.workflowName, e.status.name,
      e.startedAt.localText ++ "+00:00",
      e.completedAt.elim "" fun time => time.localText ++ "+00:00",
      toString e.results.length, toString e.errors.length, e.createdBy] := by
    funext e
    rw [executionCells]
    cases e.completedAt <;> rfl
  refine ⟨fun _ _ => read?_eq_some_iff, fun rows => ?_, fun rows => ?_, fun w => ?_, fun e => ?_,
    fun table table' some_cell some_cell' different same => ?_⟩
  · exact read?_write_rows (List.cons_ne_nil _ _) (fun _ => List.cons_ne_nil _ _) rows
  · rw [executions, cells]
    exact read?_write_rows (List.cons_ne_nil _ _) (fun _ => List.cons_ne_nil _ _) rows
  · simp only [workflowCells, workflowColumns, List.length_cons, List.length_nil]
  · simp only [executionCells, executionColumns, List.length_cons, List.length_nil]
  · have read := read?_write table
    rw [same, read?_write, map_filled some_cell, map_filled some_cell'] at read
    exact different (Option.some.inj read).symm

/-- A workflow whose name and description hold all that has to stand between quotes. -/
def bellringer : Workflow :=
  ⟨"bell", "Ring, \"twice\"", "at dawn\r\nand at dusk", .disabled, "sun.rose", ["up", "down"],
    .emptyObject, { (default : Instant) with seconds := 86399 }, default, anonymous⟩

/-- An execution of it that has not ended. -/
def ringing : Execution :=
  ⟨default, "bell", "Ring, \"twice\"", .emptyObject, .running, 0,
    [⟨"up", "Up", .null, default⟩], [], bellringer.createdAt, none, "a \"sexton\", or two"⟩

/-- Every cell is read back under its column, and a comma in a cell is not a comma between cells. -/
theorem exports_read_back_bells :
    let table := [["id", "name"], ["bell", "Ring, \"twice\"\r\n"]]
    let table' := [["id", "name"], ["bell", "Ring", " \"twice\"\r\n"]]
    read? (workflows [bellringer]).toList = some
        [["id", "name", "description", "status", "trigger", "steps", "created"],
          ["bell", "Ring, \"twice\"", "at dawn\r\nand at dusk", "disabled", "sun.rose", "2",
            "1970-01-01"]] ∧
      read? (executions [ringing]).toList = some
        [["id", "workflow_id", "workflow_name", "status", "started_at", "completed_at", "results",
            "errors", "created_by"],
          ["00000000-0000-0000-0000-000000000000", "bell", "Ring, \"twice\"", "running",
            "1970-01-01T23:59:59+00:00", "", "1", "0", "a \"sexton\", or two"]] ∧
      table ≠ table' ∧ write table ≠ write table' := by
  intro table table'
  obtain ⟨-, workflows_read, executions_read, -, -, apart⟩ := exports_read_back
  have different : table ≠ table' := by decide
  refine ⟨?_, ?_, different, apart _ _ (by decide) (by decide) different⟩
  · rw [workflows_read]
    decide
  · rw [executions_read]
    decide

end EventFlow.Csv
