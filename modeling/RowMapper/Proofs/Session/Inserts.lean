import RowMapper.Proofs.Session.Runs
import RowMapper.Proofs.Statement.Tuples

/-! # Inserting rows

An insert is sent as one statement. Its tuples hold the rows in the columns of the
first one, and so a value is written just when its column is among these: when nulls
are written, or when the first row has a value for it too.
-/

namespace RowMapper.Action

open Run Sql Text

variable {σ : Type} {d : Driver σ} {c : Connection} {table : String}
  {rows : List (Entries Value)} {options : InsertOptions} {s t : Session σ}

/-! ## The statement -/

theorem sent_insert (d : Driver σ) {statement : Statement} {sql : String} {params : List Value}
    (hstatement : insertion c.dialect table rows options = .ok (some statement))
    (hsql : statement.toPositional c.dialect = .ok (sql, params)) (s : Session σ) :
    (final (insert d c table rows options s)).sent = s.sent ++ [(sql, params)] := by
  have hfetch : fetchStatement d c statement s =
      send c _ _ (d.fetch c.serial c.config _ _) s := bind_of_ok (check_of_ok hsql s) _
  have hexecute : executeStatement d c statement s =
      send c _ _ (d.execute c.serial c.config _ _) s := bind_of_ok (check_of_ok hsql s) _
  unfold insert
  rw [bind_of_ok (check_of_ok hstatement s)]
  dsimp only
  cases options.returning.filter fun _ => c.dialect.returnsKeys with
  | some column =>
    dsimp only
    rw [final_bind_pure, hfetch]
    exact sent_send c _ _ _ s
  | none =>
    dsimp only
    rw [final_bind_pure, hexecute]
    exact sent_send c _ _ _ s

/-- An insert either cannot be rendered, and then nothing happens, or it is a statement. -/
theorem insert_cases (d : Driver σ) (c : Connection) (table : String) (first : Entries Value)
    (others : List (Entries Value)) (options : InsertOptions) (s : Session σ) :
    (∃ e, insert d c table (first :: others) options s = .error e s) ∨
      ∃ statement, insertion c.dialect table (first :: others) options = .ok (some statement) := by
  cases h : insertion c.dialect table (first :: others) options with
  | error e => exact .inl ⟨e, bind_of_error (check_of_error h s) _⟩
  | ok sent =>
    cases sent with
    | some statement => exact .inr ⟨statement, rfl⟩
    | none => exact absurd h (insertion_ne_none _ _ _ _ _)

/-- An insert that reaches the driver has the columns of the first row, without those that are
null in it unless nulls are written. It is sent in one statement with a tuple for each row in
order, in which each expression stands for the value of its row for its column, and with the
values of all expressions that are no literals, tuple by tuple. -/
theorem insert_tabulates (d : Driver σ) (c : Connection) (table : String) (first : Entries Value)
    (others : List (Entries Value)) (options : InsertOptions) (s : Session σ)
    (hreaches : (final (insert d c table (first :: others) options s)).sent ≠ s.sent)
    (hcolumns : insertColumns options first ≠ []) :
    ∃ columns conflict grid params,
      columns = (if options.writeNulls then first
        else first.filter fun entry => !entry.2.isNull).names ∧
      (final (insert d c table (first :: others) options s)).sent = s.sent ++
        [("INSERT" ++ (if options.skipDuplicates then c.dialect.insertIgnoreWord else "") ++
          " INTO " ++ quoteQualified c.dialect table ++
          (" (" ++ join ", " (columns.map (quoteIdentifier c.dialect)) ++ ") VALUES " ++
            join ", " (grid.map fun cells => parenthesized (join ", " cells))) ++
          conflict ++ returningText c.dialect options, params)] ∧
      conflictText c.dialect options = .ok conflict ∧
      Tabulates c.dialect columns (first :: others) grid params := by
  obtain ⟨e, herror⟩ | ⟨statement, hstatement⟩ := insert_cases d c table first others options s
  · rw [herror] at hreaches
    exact absurd rfl hreaches
  · obtain ⟨conflict, grid, params, hconflict, hsql, hgrid⟩ := insertion_tabulates hstatement
    refine ⟨_, conflict, grid, params, insertColumns_eq options first, ?_, hconflict, hgrid⟩
    have hvalues := valuesText_of_columns c.dialect grid hcolumns
    rw [sent_insert d hstatement hsql s, insertText, hvalues]

def mixedRows : List (Entries Value) :=
  [[("a", .int64 1), ("b", .null), ("c", .bool true)],
    [("b", .text "x"), ("a", .int64 2), ("other", .int64 9)]]

def sampleConnection : Connection where
  serial := 0
  config := .new .postgres "test"
  statistics := ⟨defaultConnection, 0, 0⟩

theorem mixedRows_tabulated : ∃ grid params,
    (final (insert Scripted.driver sampleConnection "notes" mixedRows { writeNulls := true }
      (Scripted.session []))).sent =
        [(insertText .postgres "notes" ["a", "b", "c"] grid { writeNulls := true } "", params)] ∧
    Tabulates .postgres ["a", "b", "c"] mixedRows grid params := by
  have hreaches : (final (insert Scripted.driver sampleConnection "notes" mixedRows
      { writeNulls := true } (Scripted.session []))).sent ≠ (Scripted.session []).sent := by
    intro h
    exact absurd (congrArg List.length h) (by decide +kernel)
  obtain ⟨columns, conflict, grid, params, rfl, hsent, hconflict, hgrid⟩ :=
    insert_tabulates Scripted.driver sampleConnection "notes" _ _ { writeNulls := true }
      (Scripted.session []) hreaches (by decide)
  cases hconflict
  exact ⟨grid, params, hsent, hgrid⟩

/-! ## The values that are written -/

/-- An insert that succeeds writes a value that is not null, in the tuple of its row and under its
column, just when nulls are written too or when the first row has a value for the column that is
not null. All rows are to have the same columns. -/
theorem insert_writes_iff (d : Driver σ) (c : Connection) (table : String)
    (first : Entries Value) (others : List (Entries Value)) (options : InsertOptions)
    {given : Option Value} (hnames : first.names.Nodup)
    (hsame : ∀ row ∈ others, ∀ column, column ∈ row.names ↔ column ∈ first.names)
    (hok : insert d c table (first :: others) options s = .ok given t) :
    ∃ conflict grid params,
      t.sent = s.sent ++ [(insertText c.dialect table (insertColumns options first) grid options
        conflict, params)] ∧
      grid.length = (first :: others).length ∧
      ∀ (i : Nat) (row : Entries Value) (column : String) (v : Value),
        (first :: others)[i]? = some row → row.get? column = some v → v ≠ .null →
          (WrittenAt c.dialect (insertColumns options first) grid params i column v ↔
            options.writeNulls = true ∨ ∃ w, first.get? column = some w ∧ w ≠ .null) := by
  obtain ⟨e, herror⟩ | ⟨statement, hstatement⟩ := insert_cases d c table first others options s
  · rw [herror] at hok
    cases hok
  obtain ⟨conflict, grid, params, -, hsql, hgrid⟩ := insertion_tabulates hstatement
  refine ⟨conflict, grid, params, ?_, hgrid.height, fun i row column v hrow hv hnull => ?_⟩
  · have hsent := sent_insert d hstatement hsql s
    rwa [hok] at hsent
  have hcolumn : column ∈ first.names := by
    have hmem : column ∈ row.names := List.mem_map.2 ⟨_, Entries.mem_of_get? hv, rfl⟩
    rcases List.mem_cons.1 (List.mem_of_getElem? hrow) with rfl | hother
    · exact hmem
    · exact (hsame row hother column).1 hmem
  obtain ⟨w, hw⟩ := Option.isSome_iff_exists.1 (Entries.mem_names_iff.1 hcolumn)
  rw [writtenAt_iff hgrid hrow hv, mem_insertColumns_iff hnames]
  constructor
  · rintro ⟨u, hu, hwrite | hvalue⟩
    · exact .inl hwrite
    · exact .inr ⟨u, hu, hvalue⟩
  · rintro (hwrite | ⟨u, hu, hvalue⟩)
    · exact ⟨w, hw, .inl hwrite⟩
    · exact ⟨u, hu, .inr hvalue⟩

/-- Two rows with the same columns, the first of which is null in one of them. -/
def raggedRows : List (Entries Value) :=
  [[("a", .null), ("b", .int64 1)], [("a", .int64 5), ("b", .int64 2)]]

theorem raggedRows_written : ∃ conflict grid params,
    (final (insert Scripted.driver sampleConnection "notes" raggedRows {}
      (Scripted.session []))).sent =
        [(insertText .postgres "notes" ["b"] grid {} conflict, params)] ∧
    WrittenAt .postgres ["b"] grid params 1 "b" (.int64 2) ∧
    ¬ WrittenAt .postgres ["b"] grid params 1 "a" (.int64 5) := by
  have hsome : (value? (insert Scripted.driver sampleConnection "notes" raggedRows {}
      (Scripted.session []))).isSome = true := by decide +kernel
  obtain ⟨given, hgiven⟩ := Option.isSome_iff_exists.1 hsome
  have hsame : ∀ row ∈ raggedRows.tail, ∀ column,
      column ∈ row.names ↔ column ∈ Entries.names [("a", .null), ("b", Value.int64 1)] := by
    intro row hrow column
    obtain rfl := List.mem_singleton.1 hrow
    rfl
  obtain ⟨conflict, grid, params, hsent, -, hwritten⟩ := insert_writes_iff Scripted.driver
    sampleConnection "notes" _ _ {} (by decide) hsame (eq_ok_of_value? hgiven)
  refine ⟨conflict, grid, params, hsent, ?_, fun h => ?_⟩
  · exact (hwritten 1 _ "b" (.int64 2) rfl rfl (by simp)).2 (.inr ⟨.int64 1, rfl, by simp⟩)
  · obtain h | ⟨w, hw, hnull⟩ := (hwritten 1 _ "a" (.int64 5) rfl rfl (by simp)).1 h
    · cases h
    · cases hw
      exact hnull rfl

/-- The insert of these rows succeeds, and nothing of it holds the value of the second row for the
column that is null in the first. -/
theorem raggedRows_lost :
    (value? (insert Scripted.driver sampleConnection "notes" raggedRows {}
      (Scripted.session []))).isSome = true ∧
    (∀ row ∈ raggedRows, row.names = ["a", "b"]) ∧
    (∃ row ∈ raggedRows, row.get? "a" = some (.int64 5)) ∧
    (final (insert Scripted.driver sampleConnection "notes" raggedRows {}
      (Scripted.session []))).sent.map (fun call => (call.1, call.2.map Value.display)) =
        [("INSERT INTO notes (b) VALUES ($1), ($2)", ["1", "2"])] ∧
    ∀ grid params, ¬ WrittenAt .postgres (insertColumns {} (raggedRows.headD [])) grid params 1 "a"
      (.int64 5) := by
  refine ⟨by decide +kernel, by decide, ⟨_, List.mem_cons_of_mem _ List.mem_cons_self, rfl⟩,
    by decide +kernel, ?_⟩
  rintro grid params ⟨j, hj, -⟩
  exact absurd (List.mem_of_getElem? hj) (by decide)

end RowMapper.Action
