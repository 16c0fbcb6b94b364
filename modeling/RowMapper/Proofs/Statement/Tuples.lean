import RowMapper.Proofs.Statement.Alignment
import RowMapper.Proofs.Statement.Inserts

/-! # The tuples of an insert, read back

The tuples of an insert are a grid of expressions, one tuple for each row and one
expression for each column. An expression is either a literal or a mark, and a mark
takes the parameter whose number is that of the marks before it, counted tuple by
tuple. Read back in this way each expression stands for the value that its row has
for its column: a literal neither takes a parameter nor shifts those after it.
-/

namespace RowMapper.Sql

open Text

/-! ## Reading expressions -/

/-- The value that a literal stands for; a mark stands for none by itself. -/
def literalValue? (d : Dialect) (text : String) : Option Value :=
  if text = "NULL" then some .null
  else if text = d.boolLiteral true then some (.bool true)
  else if text = d.boolLiteral false then some (.bool false)
  else if text = d.currentTimestamp then some (.text Value.now)
  else none

def isMark (d : Dialect) (text : String) : Bool := (literalValue? d text).isNone

def expressionValue? (d : Dialect) (params : List Value) (n : Nat) (text : String) :
    Option Value :=
  if isMark d text then (if text = d.mark n then params[n]? else none) else literalValue? d text

def expressionAt (grid : List (List String)) (i j : Nat) : Option String :=
  grid[i]?.bind fun cells => cells[j]?

/-- The number of marks before an expression: those of the tuples before and those before it in
its own tuple. -/
def marksBefore (d : Dialect) (grid : List (List String)) (i j : Nat) : Nat :=
  (grid.take i).flatten.countP (isMark d) + ((grid.getD i []).take j).countP (isMark d)

def valueAt (d : Dialect) (grid : List (List String)) (params : List Value) (i j : Nat) :
    Option Value :=
  (expressionAt grid i j).bind (expressionValue? d params (marksBefore d grid i j))

/-- Tuples and parameters hold the values of rows for columns. -/
structure Tabulates (d : Dialect) (columns : List String) (rows : List (Entries Value))
    (grid : List (List String)) (params : List Value) : Prop where
  /-- There is a tuple for each row. -/
  height : grid.length = rows.length
  /-- Each tuple has an expression for each column. -/
  width : ∀ cells ∈ grid, cells.length = columns.length
  /-- An expression stands for the value of its row for its column; a lacking value is null. -/
  value : ∀ {i j : Nat} {row : Entries Value} {column : String},
    rows[i]? = some row → columns[j]? = some column →
      valueAt d grid params i j = some ((row.get? column).getD .null)
  /-- Nulls, truth values and the present time are literals, and all other values take marks. -/
  isMark : ∀ {i j : Nat} {row : Entries Value} {column text : String},
    rows[i]? = some row → columns[j]? = some column → expressionAt grid i j = some text →
      Sql.isMark d text = (inlineText? d ((row.get? column).getD .null)).isNone
  /-- The parameters are the values that take marks, tuple by tuple. -/
  params : params = boundCells d (rows.flatMap (rowCells columns))

/-! ## The expression of a value -/

/-- The expression of a value, which is the mark of a number if it is no literal. -/
def cellText (d : Dialect) (n : Nat) (v : Value) : String := (inlineText? d v).getD (d.mark n)

theorem literalValue?_inlineText {d : Dialect} {v : Value} {text : String}
    (h : inlineText? d v = some text) : literalValue? d text = some v := by
  unfold inlineText? at h
  split at h
  · cases h
    rfl
  · next b =>
    cases h
    cases d <;> cases b <;> rfl
  · split at h
    · next hs =>
      cases h
      subst hs
      cases d <;> rfl
    · cases h
  · cases h

/-- A mark is none of the literals: it begins with a dollar sign or is a question mark. -/
theorem literalValue?_mark (d : Dialect) (n : Nat) : literalValue? d (d.mark n) = none := by
  have hne {text : String} (h : text.toList.head? ≠ some '$') : "$" ++ toString (n + 1) ≠ text := by
    rintro rfl
    simp at h
  cases d with
  | postgres =>
    have hnull : Dialect.postgres.mark n ≠ "NULL" := hne (by decide)
    have htrue : Dialect.postgres.mark n ≠ Dialect.postgres.boolLiteral true := hne (by decide)
    have hfalse : Dialect.postgres.mark n ≠ Dialect.postgres.boolLiteral false := hne (by decide)
    have hnow : Dialect.postgres.mark n ≠ Dialect.postgres.currentTimestamp := hne (by decide)
    rw [literalValue?, if_neg hnull, if_neg htrue, if_neg hfalse, if_neg hnow]
  | mysql => rfl
  | sqlite => rfl

theorem isMark_cellText (d : Dialect) (n : Nat) (v : Value) :
    isMark d (cellText d n v) = (inlineText? d v).isNone := by
  unfold isMark cellText
  cases hv : inlineText? d v with
  | none => simp [literalValue?_mark]
  | some text => simp [literalValue?_inlineText hv]

/-- The expression of a value stands for it, if the parameter of its mark is the value. -/
theorem expressionValue?_cellText {d : Dialect} {params : List Value} {n : Nat} {v : Value}
    (h : inlineText? d v = none → params[n]? = some v) :
    expressionValue? d params n (cellText d n v) = some v := by
  rw [expressionValue?, isMark_cellText, cellText]
  cases hv : inlineText? d v with
  | none => simp [h hv]
  | some text => simp [literalValue?_inlineText hv]

/-! ## The grid of rows -/

def tupleCells (d : Dialect) (columns : List String) :
    Nat → List (Entries Value) → List (List String)
  | _, [] => []
  | n, row :: rows =>
    cellTexts d n (rowCells columns row) ::
      tupleCells d columns (n + (boundCells d (rowCells columns row)).length) rows

theorem tupleTexts_eq_map (d : Dialect) (columns : List String) (n : Nat)
    (rows : List (Entries Value)) : tupleTexts d columns n rows =
      (tupleCells d columns n rows).map fun cells => parenthesized (join ", " cells) := by
  induction rows generalizing n with
  | nil => rfl
  | cons row rows ih => rw [tupleTexts, tupleCells, List.map_cons, ih]

theorem boundCells_append (d : Dialect) (vs ws : List Value) :
    boundCells d (vs ++ ws) = boundCells d vs ++ boundCells d ws :=
  List.filter_append _ _

theorem insertedValues_append (d : Dialect) (columns : List String)
    (rows rows' : List (Entries Value)) : insertedValues d columns (rows ++ rows') =
      insertedValues d columns rows ++ insertedValues d columns rows' :=
  List.flatMap_append

theorem insertedValues_eq_boundCells (d : Dialect) (columns : List String)
    (rows : List (Entries Value)) :
    insertedValues d columns rows = boundCells d (rows.flatMap (rowCells columns)) := by
  induction rows with
  | nil => rfl
  | cons row rows ih => rw [insertedValues_cons, ih, List.flatMap_cons, boundCells_append]

/-- A value and the numbers of the marks before it, with its expression. -/
theorem getElem?_cellTexts (d : Dialect) (n : Nat) (vs : List Value) (j : Nat) :
    (cellTexts d n vs)[j]? =
      vs[j]?.map (cellText d (n + (boundCells d (vs.take j)).length)) := by
  induction vs generalizing n j with
  | nil => simp [cellTexts]
  | cons v vs ih =>
    rw [cellTexts]
    cases hv : inlineText? d v with
    | some text =>
      cases j with
      | zero => simp [cellText, hv]
      | succ j => simp [ih, boundCells_of_inline hv]
    | none =>
      cases j with
      | zero => simp [cellText, hv, boundCells]
      | succ j => simp [ih, boundCells_of_bound hv, Nat.add_assoc, Nat.add_comm 1]

theorem length_cellTexts (d : Dialect) (n : Nat) (vs : List Value) :
    (cellTexts d n vs).length = vs.length := by
  induction vs generalizing n with
  | nil => rfl
  | cons v vs ih => cases hv : inlineText? d v <;> simp [cellTexts, hv, ih]

theorem take_cellTexts (d : Dialect) (n : Nat) (vs : List Value) (j : Nat) :
    (cellTexts d n vs).take j = cellTexts d n (vs.take j) := by
  induction vs generalizing n j with
  | nil => simp [cellTexts]
  | cons v vs ih =>
    cases j with
    | zero => simp [cellTexts]
    | succ j => cases hv : inlineText? d v <;> simp [cellTexts, hv, ih]

theorem countP_cellTexts (d : Dialect) (n : Nat) (vs : List Value) :
    (cellTexts d n vs).countP (isMark d) = (boundCells d vs).length := by
  induction vs generalizing n with
  | nil => rfl
  | cons v vs ih =>
    rw [cellTexts]
    cases hv : inlineText? d v with
    | some text =>
      simp [ih, boundCells_of_inline hv, isMark, literalValue?_inlineText hv]
    | none => simp [ih, boundCells_of_bound hv, isMark, literalValue?_mark]

theorem getElem?_tupleCells (d : Dialect) (columns : List String) (n : Nat)
    (rows : List (Entries Value)) (i : Nat) : (tupleCells d columns n rows)[i]? =
      rows[i]?.map fun row =>
        cellTexts d (n + (insertedValues d columns (rows.take i)).length)
          (rowCells columns row) := by
  induction rows generalizing n i with
  | nil => simp [tupleCells]
  | cons row rows ih =>
    cases i with
    | zero => simp [tupleCells, insertedValues]
    | succ i => simp [tupleCells, ih, insertedValues_cons, Nat.add_assoc]

theorem length_tupleCells (d : Dialect) (columns : List String) (n : Nat)
    (rows : List (Entries Value)) : (tupleCells d columns n rows).length = rows.length := by
  induction rows generalizing n with
  | nil => rfl
  | cons row rows ih => rw [tupleCells, List.length_cons, List.length_cons, ih]

theorem take_tupleCells (d : Dialect) (columns : List String) (n : Nat)
    (rows : List (Entries Value)) (i : Nat) :
    (tupleCells d columns n rows).take i = tupleCells d columns n (rows.take i) := by
  induction rows generalizing n i with
  | nil => simp [tupleCells]
  | cons row rows ih => cases i <;> simp [tupleCells, ih]

theorem countP_tupleCells (d : Dialect) (columns : List String) (n : Nat)
    (rows : List (Entries Value)) : (tupleCells d columns n rows).flatten.countP (isMark d) =
      (insertedValues d columns rows).length := by
  induction rows generalizing n with
  | nil => rfl
  | cons row rows ih =>
    rw [tupleCells, List.flatten_cons, List.countP_append, countP_cellTexts, ih,
      insertedValues_cons, List.length_append]

theorem marksBefore_tupleCells {d : Dialect} {columns : List String}
    {rows : List (Entries Value)} {i : Nat} {row : Entries Value} (hrow : rows[i]? = some row)
    (j : Nat) : marksBefore d (tupleCells d columns 0 rows) i j =
      (insertedValues d columns (rows.take i)).length +
        (boundCells d ((rowCells columns row).take j)).length := by
  rw [marksBefore, take_tupleCells, countP_tupleCells, List.getD_eq_getElem?_getD,
    getElem?_tupleCells, hrow, Option.map_some, Option.getD_some, take_cellTexts, countP_cellTexts]

/-- A value that is bound is found after those that are bound before it. -/
theorem getElem?_boundCells {d : Dialect} {vs : List Value} {k : Nat} {v : Value}
    (hk : vs[k]? = some v) (hv : inlineText? d v = none) :
    (boundCells d vs)[(boundCells d (vs.take k)).length]? = some v := by
  obtain ⟨hlt, rfl⟩ := List.getElem?_eq_some_iff.1 hk
  have hsplit : boundCells d vs = boundCells d (vs.take k) ++ vs[k] ::
      boundCells d (vs.drop (k + 1)) := by
    rw [← boundCells_of_bound hv, ← boundCells_append, ← List.drop_eq_getElem_cons hlt,
      List.take_append_drop]
  rw [hsplit, List.getElem?_append_right (Nat.le_refl _), Nat.sub_self]
  rfl

theorem getElem?_insertedValues {d : Dialect} {columns : List String}
    {rows : List (Entries Value)} {i j : Nat} {row : Entries Value} {v : Value}
    (hrow : rows[i]? = some row) (hcell : (rowCells columns row)[j]? = some v)
    (hv : inlineText? d v = none) :
    (insertedValues d columns rows)[(insertedValues d columns (rows.take i)).length +
      (boundCells d ((rowCells columns row).take j)).length]? = some v := by
  have hbound := getElem?_boundCells hcell hv
  obtain ⟨hi, rfl⟩ := List.getElem?_eq_some_iff.1 hrow
  have hsplit : insertedValues d columns rows = insertedValues d columns (rows.take i) ++
      (boundCells d (rowCells columns rows[i]) ++
        insertedValues d columns (rows.drop (i + 1))) := by
    rw [← insertedValues_cons, ← List.drop_eq_getElem_cons hi, ← insertedValues_append,
      List.take_append_drop]
  rw [hsplit, List.getElem?_append_right (Nat.le_add_right _ _), Nat.add_sub_cancel_left,
    List.getElem?_append_left (List.getElem?_eq_some_iff.1 hbound).1]
  exact hbound

/-- The tuples that are written, with the values that are bound, hold the rows. -/
theorem tabulates_tupleCells (d : Dialect) (columns : List String) (rows : List (Entries Value)) :
    Tabulates d columns rows (tupleCells d columns 0 rows) (insertedValues d columns rows) := by
  have hexpression {i j : Nat} {row : Entries Value} {column : String}
      (hrow : rows[i]? = some row) (hcolumn : columns[j]? = some column) :
      expressionAt (tupleCells d columns 0 rows) i j =
        some (cellText d (marksBefore d (tupleCells d columns 0 rows) i j)
          ((row.get? column).getD .null)) := by
    rw [marksBefore_tupleCells hrow, expressionAt, getElem?_tupleCells, hrow, Option.map_some,
      Option.bind_some, getElem?_cellTexts, rowCells, List.getElem?_map, hcolumn]
    simp
  constructor
  · exact length_tupleCells d columns 0 rows
  · intro cells hcells
    obtain ⟨i, hi⟩ := List.mem_iff_getElem?.1 hcells
    rw [getElem?_tupleCells] at hi
    obtain ⟨row, -, rfl⟩ := Option.map_eq_some_iff.1 hi
    rw [length_cellTexts, length_rowCells]
  · intro i j row column hrow hcolumn
    have hcell : (rowCells columns row)[j]? = some ((row.get? column).getD .null) := by
      rw [rowCells, List.getElem?_map, hcolumn, Option.map_some]
    rw [valueAt, hexpression hrow hcolumn, Option.bind_some]
    refine expressionValue?_cellText fun hv => ?_
    rw [marksBefore_tupleCells hrow]
    exact getElem?_insertedValues hrow hcell hv
  · intro i j row column text hrow hcolumn htext
    rw [hexpression hrow hcolumn, Option.some_inj] at htext
    rw [← htext, isMark_cellText]
  · exact insertedValues_eq_boundCells d columns rows

/-! ## The values that are written -/

def WrittenAt (d : Dialect) (columns : List String) (grid : List (List String))
    (params : List Value) (i : Nat) (column : String) (v : Value) : Prop :=
  ∃ j : Nat, columns[j]? = some column ∧ valueAt d grid params i j = some v

theorem writtenAt_iff {d : Dialect} {columns : List String} {rows : List (Entries Value)}
    {grid : List (List String)} {params : List Value} (h : Tabulates d columns rows grid params)
    {i : Nat} {row : Entries Value} {column : String} {v : Value} (hrow : rows[i]? = some row)
    (hv : row.get? column = some v) :
    WrittenAt d columns grid params i column v ↔ column ∈ columns := by
  rw [List.mem_iff_getElem?]
  constructor
  · rintro ⟨j, hj, -⟩
    exact ⟨j, hj⟩
  · rintro ⟨j, hj⟩
    exact ⟨j, hj, by rw [h.value hrow hj, hv, Option.getD_some]⟩

/-! ## The statement -/

def valuesText (d : Dialect) (columns : List String) (grid : List (List String)) : String :=
  if columns.isEmpty then (if d = .mysql then " () VALUES ()" else " DEFAULT VALUES")
  else " (" ++ join ", " (columns.map (quoteIdentifier d)) ++ ") VALUES " ++
    join ", " (grid.map fun cells => parenthesized (join ", " cells))

theorem valuesText_of_columns (d : Dialect) {columns : List String} (grid : List (List String))
    (h : columns ≠ []) : valuesText d columns grid =
      " (" ++ join ", " (columns.map (quoteIdentifier d)) ++ ") VALUES " ++
        join ", " (grid.map fun cells => parenthesized (join ", " cells)) := by
  rw [valuesText, if_neg (by simpa using h)]

def insertText (d : Dialect) (table : String) (columns : List String) (grid : List (List String))
    (options : InsertOptions) (conflict : String) : String :=
  "INSERT" ++ (if options.skipDuplicates then d.insertIgnoreWord else "") ++ " INTO " ++
    quoteQualified d table ++ valuesText d columns grid ++ conflict ++ returningText d options

theorem sentInsert_eq_insertText (d : Dialect) (table : String) (columns : List String)
    (rows : List (Entries Value)) (options : InsertOptions) (conflict : String) :
    sentInsert d table columns rows options conflict =
      insertText d table columns (tupleCells d columns 0 rows) options conflict := by
  rw [sentInsert, insertText, rowsText, valuesText, tupleTexts_eq_map]

theorem insertColumns_eq (options : InsertOptions) (first : Entries Value) :
    insertColumns options first = (if options.writeNulls then first
      else first.filter fun entry => !entry.2.isNull).names := by
  unfold insertColumns isWritten
  cases options.writeNulls <;> simp [Entries.names]

theorem mem_insertColumns_iff {options : InsertOptions} {first : Entries Value}
    (hnames : first.names.Nodup) {column : String} : column ∈ insertColumns options first ↔
      ∃ v, first.get? column = some v ∧ (options.writeNulls = true ∨ v ≠ .null) := by
  have hwritten (v : Value) :
      isWritten options.writeNulls v = true ↔ options.writeNulls = true ∨ v ≠ .null := by
    cases v <;> simp [isWritten, Value.isNull]
  simp only [insertColumns, List.mem_map, List.mem_filter, hwritten]
  constructor
  · rintro ⟨⟨name, v⟩, ⟨hmem, h⟩, rfl⟩
    exact ⟨v, Entries.get?_of_mem hnames hmem, h⟩
  · rintro ⟨v, hget, h⟩
    exact ⟨(column, v), ⟨Entries.mem_of_get? hget, h⟩, rfl⟩

/-- An insert that can be rendered knows what happens to rows that are there already, and has
several rows only with columns. -/
theorem conflictText_of_insertion {d : Dialect} {table : String} {first : Entries Value}
    {others : List (Entries Value)} {options : InsertOptions} {statement : Statement}
    (h : insertion d table (first :: others) options = .ok (some statement)) :
    (insertColumns options first = [] → others = []) ∧
      ∃ conflict, conflictText d options = .ok conflict := by
  obtain ⟨sql, sink, hrender, -⟩ :=
    Statement.ofRender_eq_ok (Statement.eq_ok_of_map_some h)
  obtain ⟨values, s, hvalues, hrest⟩ := Run.bind_eq_ok.1 hrender
  refine ⟨fun hnone => ?_, ?_⟩
  · by_contra hothers
    have hmany : 1 < (first :: others).length := by
      have := List.length_pos_iff.2 hothers
      rw [List.length_cons]
      omega
    rw [renderRows, hnone, List.isEmpty_nil, if_pos rfl, if_pos hmany] at hvalues
    exact Run.throw_ne_ok hvalues
  · cases hconflict : conflictText d options with
    | ok conflict => exact ⟨conflict, rfl⟩
    | error e =>
      rw [hconflict] at hrest
      exact absurd hrest Run.throw_ne_ok

theorem insertion_ne_none (d : Dialect) (table : String) (first : Entries Value)
    (others : List (Entries Value)) (options : InsertOptions) :
    insertion d table (first :: others) options ≠ .ok none := by
  have hsome (x : Except Error Statement) : some <$> x ≠ .ok none := by
    intro h
    cases x <;> cases h
  exact hsome _

/-- An insert that can be rendered is sent with tuples that hold its rows. -/
theorem insertion_tabulates {d : Dialect} {table : String} {first : Entries Value}
    {others : List (Entries Value)} {options : InsertOptions} {statement : Statement}
    (h : insertion d table (first :: others) options = .ok (some statement)) :
    ∃ conflict grid params, conflictText d options = .ok conflict ∧
      statement.toPositional d =
        .ok (insertText d table (insertColumns options first) grid options conflict, params) ∧
      Tabulates d (insertColumns options first) (first :: others) grid params := by
  obtain ⟨hcolumns, conflict, hconflict⟩ := conflictText_of_insertion h
  obtain ⟨statement', hstatement, hsent⟩ := insertion_sent table first others hconflict hcolumns
  rw [h] at hstatement
  cases hstatement
  refine ⟨conflict, _, _, hconflict, ?_, tabulates_tupleCells d _ _⟩
  rw [hsent, sentInsert_eq_insertText]

end RowMapper.Sql
