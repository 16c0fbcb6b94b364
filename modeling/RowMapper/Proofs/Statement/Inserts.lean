import RowMapper.Proofs.Statement.Binding

/-! # The insert of rows

All rows are written with the columns of the first one, a tuple for each row and a
cell for each column. Nulls, booleans and the present time stand in the text. All other
values are bound, row by row and column by column, and the marks of the text are
counted along.
-/

namespace RowMapper.Sql

open Text

/-! ## Cells and tuples -/

/-- The values of a row for columns; a value that the row lacks is null. -/
def rowCells (columns : List String) (row : Entries Value) : List Value :=
  columns.map fun column => (row.get? column).getD .null

def boundCells (d : Dialect) (cells : List Value) : List Value :=
  cells.filter fun v => (inlineText? d v).isNone

/-- Cells, with marks counted from `n` for those that are bound. -/
def cellTexts (d : Dialect) : Nat → List Value → List String
  | _, [] => []
  | n, v :: vs =>
    match inlineText? d v with
    | some text => text :: cellTexts d n vs
    | none => d.mark n :: cellTexts d (n + 1) vs

/-- The tuples of rows, with marks counted on from one row to the next. -/
def tupleTexts (d : Dialect) (columns : List String) : Nat → List (Entries Value) → List String
  | _, [] => []
  | n, row :: rows =>
    parenthesized (join ", " (cellTexts d n (rowCells columns row))) ::
      tupleTexts d columns (n + (boundCells d (rowCells columns row)).length) rows

def insertedValues (d : Dialect) (columns : List String) (rows : List (Entries Value)) :
    List Value :=
  rows.flatMap fun row => boundCells d (rowCells columns row)

theorem rowCells_cons (column : String) (columns : List String) (row : Entries Value) :
    rowCells (column :: columns) row =
      (row.get? column).getD .null :: rowCells columns row := rfl

theorem boundCells_of_inline {d : Dialect} {v : Value} {text : String}
    (h : inlineText? d v = some text) (vs : List Value) :
    boundCells d (v :: vs) = boundCells d vs := by
  simp [boundCells, h]

theorem boundCells_of_bound {d : Dialect} {v : Value} (h : inlineText? d v = none)
    (vs : List Value) : boundCells d (v :: vs) = v :: boundCells d vs := by
  simp [boundCells, h]

theorem insertedValues_cons (d : Dialect) (columns : List String) (row : Entries Value)
    (rows : List (Entries Value)) : insertedValues d columns (row :: rows) =
      boundCells d (rowCells columns row) ++ insertedValues d columns rows := rfl

theorem renderCells_binds (d : Dialect) (row : Entries Value) (columns : List String) (n : Nat) :
    Binds (renderCells d row columns) (boundCells d (rowCells columns row)) fun texts =>
      BecomesAll d n texts (n + (boundCells d (rowCells columns row)).length)
        (cellTexts d n (rowCells columns row)) := by
  induction columns generalizing n with
  | nil => exact .pure .nil
  | cons column columns ih =>
    rw [renderCells, renderCell_eq, rowCells_cons]
    cases hv : inlineText? d ((row.get? column).getD .null) with
    | some text =>
      rw [boundCells_of_inline hv, cellTexts, hv]
      exact (ih n).map fun texts h => .cons (.ofReads (inert_inlineText hv).seals.reads d n) h
    | none =>
      rw [boundCells_of_bound hv, cellTexts, hv, List.length_cons, ← Nat.add_assoc,
        Nat.add_right_comm]
      exact (binds_bind d n column _).seq fun text htext =>
        (ih (n + 1)).map fun texts h => .cons htext h

/-- The tuples are written row by row, and the marks go on from one to the next. -/
theorem renderTuples_binds (d : Dialect) (columns : List String) (rows : List (Entries Value))
    (n : Nat) : Binds (renderTuples d columns rows) (insertedValues d columns rows) fun texts =>
      BecomesAll d n texts (n + (insertedValues d columns rows).length)
        (tupleTexts d columns n rows) := by
  induction rows generalizing n with
  | nil => exact .pure .nil
  | cons row rows ih =>
    rw [renderTuples, insertedValues_cons, List.length_append, ← Nat.add_assoc, tupleTexts]
    exact (renderCells_binds d row columns n).seq fun cells hcells =>
      (ih _).map fun tuples htuples => .cons (hcells.join (by decide)).parenthesized htuples

/-! ## Rows of which every cell is bound -/

theorem boundCells_eq_self {d : Dialect} {cells : List Value}
    (h : ∀ v ∈ cells, inlineText? d v = none) : boundCells d cells = cells :=
  List.filter_eq_self.2 fun v hv => by rw [h v hv]; rfl

theorem cellTexts_eq_marks {d : Dialect} {cells : List Value}
    (h : ∀ v ∈ cells, inlineText? d v = none) (n : Nat) :
    cellTexts d n cells = markRow d n cells.length := by
  induction cells generalizing n with
  | nil => rfl
  | cons v vs ih =>
    rw [cellTexts, h v List.mem_cons_self, List.length_cons, markRow_succ]
    exact congrArg _ (ih (fun w hw => h w (List.mem_cons_of_mem v hw)) (n + 1))

theorem length_rowCells (columns : List String) (row : Entries Value) :
    (rowCells columns row).length = columns.length := by
  rw [rowCells, List.length_map]

/-- Each tuple has its own marks, one for each column. -/
theorem tupleTexts_eq_marks {d : Dialect} {columns : List String} {rows : List (Entries Value)}
    (h : ∀ row ∈ rows, ∀ v ∈ rowCells columns row, inlineText? d v = none) (n : Nat) :
    tupleTexts d columns n rows = (List.range rows.length).map fun i =>
      parenthesized (join ", " (markRow d (n + i * columns.length) columns.length)) := by
  induction rows generalizing n with
  | nil => rfl
  | cons row rows ih =>
    have hrow := h row List.mem_cons_self
    rw [tupleTexts, cellTexts_eq_marks hrow, boundCells_eq_self hrow, length_rowCells,
      ih fun row' hrow' => h row' (List.mem_cons_of_mem row hrow'), List.length_cons,
      List.range_succ_eq_map, List.map_cons, List.map_map, Nat.zero_mul, Nat.add_zero]
    refine congrArg _ (List.map_congr_left fun i _ => ?_)
    rw [Function.comp_apply, Nat.succ_mul, Nat.add_assoc, Nat.add_comm columns.length]

theorem insertedValues_eq_flatMap {d : Dialect} {columns : List String}
    {rows : List (Entries Value)}
    (h : ∀ row ∈ rows, ∀ v ∈ rowCells columns row, inlineText? d v = none) :
    insertedValues d columns rows = rows.flatMap (rowCells columns) :=
  List.flatMap_congr fun row hrow => boundCells_eq_self (h row hrow)

/-! ## The statement -/

/-- The columns and tuples of rows; without columns the row has its defaults. -/
def rowsText (d : Dialect) (columns : List String) (rows : List (Entries Value)) : String :=
  if columns.isEmpty then (if d = .mysql then " () VALUES ()" else " DEFAULT VALUES")
  else " (" ++ join ", " (columns.map (quoteIdentifier d)) ++ ") VALUES " ++
    join ", " (tupleTexts d columns 0 rows)

def sentInsert (d : Dialect) (table : String) (columns : List String)
    (rows : List (Entries Value)) (options : InsertOptions) (conflict : String) : String :=
  "INSERT" ++ (if options.skipDuplicates then d.insertIgnoreWord else "") ++ " INTO " ++
    quoteQualified d table ++ rowsText d columns rows ++ conflict ++ returningText d options

theorem seals_quoteIdentifiers (d : Dialect) (columns : List String) :
    Seals (join ", " (columns.map (quoteIdentifier d))) [] 0 := by
  refine seals_join (by decide) fun t ht => ?_
  obtain ⟨column, -, rfl⟩ := List.mem_map.1 ht
  exact seals_quoteIdentifier d column

/-- Without columns there is one row only, which has no values. -/
theorem renderRows_binds {d : Dialect} {columns : List String} {rows : List (Entries Value)}
    (h : columns = [] → rows.length ≤ 1) :
    Binds (renderRows d columns rows) (insertedValues d columns rows) fun text =>
      Becomes d 0 text (insertedValues d columns rows).length (rowsText d columns rows) := by
  unfold renderRows rowsText
  cases columns with
  | nil =>
    have hvalues : insertedValues d [] rows = [] := by
      simp [insertedValues, rowCells, boundCells]
    have hdefaults : Inert (if d = .mysql then " () VALUES ()" else " DEFAULT VALUES") := by
      split <;> decide
    rw [List.isEmpty_nil, if_pos rfl, if_pos rfl, if_neg (by have := h rfl; omega), hvalues]
    exact .pure (.ofReads hdefaults.seals.reads d 0)
  | cons column columns =>
    rw [List.isEmpty_cons, if_neg Bool.false_ne_true, if_neg Bool.false_ne_true]
    have htuples := renderTuples_binds d (column :: columns) rows 0
    rw [Nat.zero_add] at htuples
    refine htuples.map fun texts htexts => ?_
    have hhead := ((seals_quoteIdentifiers d (column :: columns)).prepend (a := " (")
      (by decide)).close (a := ") VALUES ") (by decide)
    exact (htexts.join (by decide)).after hhead

/-- What happens to rows that are there already is said in fixed words and names. -/
theorem seals_conflictText {d : Dialect} {options : InsertOptions} {text : String}
    (h : conflictText d options = .ok text) : Seals text [] 0 ∧ Breaks text.toList := by
  have hassignments (word after : String) (hword : Inert word) (hafter : Inert after) :
      Seals (join ", " ((options.overwrite.map (quoteIdentifier d)).map fun column =>
        column ++ word ++ column ++ after)) [] 0 := by
    refine seals_join (by decide) fun t ht => ?_
    obtain ⟨quoted, hquoted, rfl⟩ := List.mem_map.1 ht
    obtain ⟨column, -, rfl⟩ := List.mem_map.1 hquoted
    have hcolumn := seals_quoteIdentifier d column
    exact ((hcolumn.close hword).append hcolumn).close hafter
  unfold conflictText at h
  dsimp only at h
  split at h
  · cases h
    split
    · exact ⟨Inert.seals (by decide), Delimits.breaks (by decide)⟩
    · exact ⟨seals_empty, fun c hc => by cases hc⟩
  · split at h
    · cases h
      exact ⟨(hassignments " = VALUES(" ")" (by decide) (by decide)).prepend (by decide),
        Delimits.breaks_append (by decide)⟩
    · have hcolumns := hassignments " = EXCLUDED." "" (by decide) (by decide)
      simp only [String.append_empty] at hcolumns
      generalize (if options.conflict.isEmpty then options.returning.toList
        else options.conflict) = target at h
      split at h
      · cases h
      · cases h
        have hhead := ((seals_quoteIdentifiers d target).prepend (a := " ON CONFLICT (")
          (by decide)).close (a := ") DO UPDATE SET ") (by decide)
        refine ⟨hhead.append hcolumns, ?_⟩
        simp only [String.append_assoc]
        exact Delimits.breaks_append (by decide)

theorem seals_returningText (d : Dialect) (options : InsertOptions) :
    Seals (returningText d options) [] 0 := by
  unfold returningText
  split
  · split
    · exact (seals_quoteIdentifier d _).prepend (by decide)
    · exact seals_empty
  · exact seals_empty

theorem breaks_returningText (d : Dialect) (options : InsertOptions) :
    Breaks (returningText d options).toList := by
  unfold returningText
  split
  · split
    · exact Delimits.breaks_append (by decide)
    · exact fun c hc => by cases hc
  · exact fun c hc => by cases hc

/-- Rows are sent in one statement with the columns of the first row, a tuple for each row in
order, and the values of all cells that are not written in the text, row by row. -/
theorem insertion_sent {d : Dialect} (table : String) (first : Entries Value)
    (others : List (Entries Value)) {options : InsertOptions} {conflict : String}
    (hconflict : conflictText d options = .ok conflict)
    (hcolumns : insertColumns options first = [] → others = []) :
    ∃ statement, insertion d table (first :: others) options = .ok (some statement) ∧
      statement.toPositional d =
        .ok (sentInsert d table (insertColumns options first) (first :: others) options conflict,
          insertedValues d (insertColumns options first) (first :: others)) := by
  have hrows : Binds (renderRows d (insertColumns options first) (first :: others)) _ _ :=
    renderRows_binds fun hnone => by simp [hcolumns hnone]
  obtain ⟨hseals, hbreaks⟩ := seals_conflictText hconflict
  have hword : Inert (if options.skipDuplicates then d.insertIgnoreWord else "") := by
    split
    · cases d <;> decide
    · decide
  have hhead := ((Seals.close (Inert.seals (t := "INSERT") (by decide)) hword).close
    (a := " INTO ") (by decide)).append_nil (seals_quoteQualified d table)
  have hbody : Binds (do
      let values ← renderRows d (insertColumns options first) (first :: others)
      return "INSERT" ++ (if options.skipDuplicates then d.insertIgnoreWord else "") ++
        " INTO " ++ quoteQualified d table ++ values ++ conflict ++ returningText d options)
      (insertedValues d (insertColumns options first) (first :: others)) fun text =>
        Becomes d 0 text (insertedValues d (insertColumns options first) (first :: others)).length
          (sentInsert d table (insertColumns options first) (first :: others) options
            conflict) :=
    hrows.map fun values hvalues => ((hvalues.after hhead).append hbreaks
      (.ofReads hseals.reads d _)).append (breaks_returningText d options)
        (.ofReads (seals_returningText d options).reads d _)
  obtain ⟨statement, hstatement, hsent⟩ := hbody.positional
  refine ⟨statement, ?_, hsent⟩
  rw [insertion, hconflict]
  exact congrArg (some <$> ·) hstatement

end RowMapper.Sql
