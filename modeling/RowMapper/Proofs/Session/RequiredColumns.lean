import RowMapper.Proofs.Record.Requirements
import RowMapper.Proofs.Session.Refusals
import RowMapper.Proofs.Statement.Assignments

/-! # Columns that are to have a value

What a save sends for the row of a record is one insert or one update. The insert never
writes a null. The update writes no null to a column that validation asks for, unless it
keeps the column up itself and the value has no form there: this happens after validation.
A record without a value of such a column is refused, and nothing is sent.
-/

namespace RowMapper

open Run Sql

variable {σ : Type}

/-! ## Statements -/

namespace Sql

def InsertsValues (values : Entries Value) (entry : String × List Value) : Prop :=
  ∃ d table options, entry =
    (insertText d table values.names [cellTexts d 0 (values.map Prod.snd)] options "",
      boundCells d (values.map Prod.snd))

def AssignsValues (values : Entries Value) (entry : String × List Value) : Prop :=
  ∃ d table condition keys, IsWhere condition ∧ entry =
    (updateText d table (assignmentTexts d 0 values) condition, boundValues d values ++ keys)

/-- A statement with which links are written: one of those verbs, or an insert of rows of tables for
links. -/
def StoresLinks (tables : String → Prop) (entry : String × List Value) : Prop :=
  verb entry.1 ∈ ["SELECT", "CREATE", "DELETE"] ∨ ∃ d table rows statement, tables table ∧
    insertion d table rows {} = .ok (some statement) ∧ statement.toPositional d = .ok entry

end Sql

namespace Action

variable {d : Driver σ} {P : String × List Value → Prop}

theorem quiet_gains (d : Driver σ) (P : String × List Value → Prop) :
    Quiet d (Session.Gains Session.sent P) where
  toChained := chained_gains Session.sent P
  connect name config s := gains_of_eq ((quiet_sent d).connect name config s)
  schema key s := gains_of_eq ((quiet_sent d).schema key s)
  note s notice := gains_of_eq ((quiet_sent d).note s notice)

theorem gains_one {s t : Session σ} {entry : String × List Value}
    (h : t.sent = s.sent ++ [entry]) (hP : P entry) : Session.Gains Session.sent P s t :=
  ⟨[entry], h, by simpa using hP⟩

theorem gains_update (c : Connection) (table : String) {values : Entries Value}
    (conditions : List (Condition Query)) (hP : ∀ entry, AssignsValues values entry → P entry) :
    Keeps (Session.Gains Session.sent P) (update d c table values conditions true) := by
  have hR := chained_gains (σ := σ) Session.sent P
  refine keeps_check_seq hR fun statement hstatement => ?_
  cases statement with
  | none => exact hR.result _
  | some statement =>
    refine hR.seq (keeps_check_seq hR fun (sql, params) hsql s => ?_) fun _ => hR.result _
    obtain ⟨condition, keys, hcondition, rfl, rfl⟩ := update_assigns hstatement hsql
    exact gains_one (sent_send c _ _ _ s) (hP _ ⟨_, _, condition, keys, hcondition, rfl⟩)

theorem linking_gains (d : Driver σ) (tables : String → Prop) :
    Linking d tables (Session.Gains Session.sent (StoresLinks tables)) where
  toQuiet := quiet_gains d _
  select c sql values hsql s := by
    refine gains_one (sent_send c sql values _ s) (.inl ?_)
    rw [hsql.verb_eq]
    decide
  create c sql values hsql s := by
    refine gains_one (sent_send c sql values _ s) (.inl ?_)
    rw [hsql.verb_eq]
    decide
  unlink c table conditions statement _ hstatement := by
    refine keeps_check_seq (chained_gains _ _) fun (sql, params) hsql s => ?_
    refine gains_one (sent_send c sql params _ s) (.inl ?_)
    rw [((begins_deletion hstatement).positional hsql).verb_eq]
    decide
  link c table rows statement htable hstatement :=
    keeps_check_seq (chained_gains _ _) fun (sql, params) hsql s =>
      gains_one (sent_send c sql params _ s) (.inr ⟨_, _, _, _, htable, hstatement, hsql⟩)

end Action

namespace RecordAction

open Record RowMapper.Action

variable {d : Driver σ} {P : String × List Value → Prop} {f g : Focus σ} {c : Field}

/-! ## Rows -/

/-- The record as an insert of its row writes it. -/
def inserted (f : Focus σ) : Record :=
  stampAll (.timestamp f.session.now.wholeSecond) f.session.user true f.record

theorem stamp_errors (inserting : Bool) (column : String) (v : Value) (r : Record)
    (errors : ValidationErrors) : stamp inserting column v { r with errors } =
      { stamp inserting column v r with errors } := by
  have choose (needed : Bool) :
      (if needed then ({ r with errors } : Record).storeCoerced column v else { r with errors }) =
        { (if needed then r.storeCoerced column v else r) with errors } := by
    cases needed with
    | false => rfl
    | true => exact r.storeCoerced_errors errors column v
  exact choose _

theorem inserted_errors (f : Focus σ) (errors : ValidationErrors) :
    inserted { f with record := { f.record with errors } } = { inserted f with errors } := by
  unfold inserted stampAll
  cases f.session.user <;> simp only [stampOption, stamp_errors, if_true]

theorem insertsRow_inserts (dialect : Dialect) (table : String) (r : Record) :
    InsertsValues r.insertedColumns (insertsRow dialect table r) := by
  have hnames : r.insertedColumns.names = Entries.names (r.data.filter fun entry =>
      !entry.2.isNull) := by
    simp [insertedColumns, Entries.names]
  have hcells : r.insertedColumns.map Prod.snd = rowCells r.insertedColumns.names r.data := by
    rw [hnames]
    simp [insertedColumns, rowCells, current]
  refine ⟨dialect, table, { returning := some r.schema.primaryKey }, ?_⟩
  rw [hcells, hnames]
  simp only [insertsRow, sentInsert_eq_insertText, tupleCells, insertedValues, Entries.names,
    List.flatMap_cons, List.flatMap_nil, List.append_nil]

/-- A row that is sent is inserted with its columns that are not null. -/
theorem gains_sendRow (hP : ∀ entry, InsertsValues f.record.insertedColumns entry → P entry) :
    Focus.Across (Session.Gains Session.sent P) f (final (sendRow d f)) := by
  have hR := quiet_gains d P
  have hF := chained_across hR.toChained
  unfold sendRow
  rw [record_bind]
  refine hF.bind (across_inSession (hR.connectionOf _) f) fun c g _ => ?_
  refine hF.bind (across_inSession (hR.tableOf _) g) fun table h _ => ?_
  have hinsert : Keeps (Session.Gains Session.sent P) (Action.insert d c table [f.record.data]
      { returning := some f.record.schema.primaryKey }) := fun s =>
    gains_one (sent_insert_row d c table f.record s) (hP _ (insertsRow_inserts c.dialect table _))
  refine hF.bind (across_inSession hinsert h) fun given k _ => ?_
  cases given with
  | none => exact quiet_afterwards hR .created k
  | some key =>
    exact hF.seq (across_change hR.toChained _) (fun _ => quiet_afterwards hR .created) k

theorem gains_updateColumns
    (hP : ∀ entry, AssignsValues (written f).changedColumns entry → P entry) :
    Focus.Across (Session.Gains Session.sent P) f (final (updateColumns d f)) := by
  have hR := quiet_gains d P
  have hF := chained_across hR.toChained
  have hstamp : stampNow false f = .ok () { f with record := written f } := rfl
  unfold updateColumns
  rw [bind_of_ok hstamp, record_bind]
  dsimp only
  have hstart : Focus.Across (Session.Gains Session.sent P) f { f with record := written f } :=
    gains_of_eq rfl
  refine hF.trans hstart (hF.bind (across_inSession (hR.connectionOf _) _) fun c g _ => ?_)
  refine hF.bind (across_inSession (hR.tableOf _) g) fun table h _ => ?_
  refine hF.bind (across_inSession (gains_update c table _ hP) h) fun _ k _ => ?_
  exact hF.seq (across_inSession fun _ => gains_of_eq rfl) (fun _ => hF.result _) k

def WritesRow (f : Focus σ) (entry : String × List Value) : Prop :=
  InsertsValues (inserted f).insertedColumns entry ∨ AssignsValues (written f).changedColumns entry

theorem writesRow_errors (errors : ValidationErrors) (entry : String × List Value) :
    WritesRow { f with record := { f.record with errors } } entry ↔ WritesRow f entry := by
  unfold WritesRow
  rw [inserted_errors, written_errors]
  rfl

theorem gains_writeRow (hnone : Unobserved f) :
    Focus.Across (Session.Gains Session.sent (WritesRow f)) f (final (writeRow d f)) := by
  have hR := quiet_gains d (WritesRow f)
  have hF := chained_across hR.toChained
  unfold writeRow
  rw [record_bind]
  split
  · rw [insertRow_eq, bind_of_ok (prepared_of_unobserved hnone)]
    exact gains_sendRow (f := ⟨f.session, inserted f⟩) fun entry h => .inl h
  · rw [updateRow_of_unobserved hnone]
    split
    · exact hF.refl f
    · exact hF.bind (gains_updateColumns fun entry h => .inr h)
        fun _ g _ => quiet_afterwards hR .updated g

/-- Nothing is sent for a row but statements that write it, and those only if it is valid. -/
theorem gains_saveRow (hnone : Unobserved f) :
    Focus.Across (Session.Gains Session.sent
      fun entry => f.record.validate = [] ∧ WritesRow f entry) f (final (saveRow d f)) := by
  have hR := chained_gains (σ := σ) Session.sent
    fun entry => f.record.validate = [] ∧ WritesRow f entry
  by_cases h : ∃ f₁, admitted f = .ok true f₁
  · obtain ⟨f₁, hadmitted⟩ := h
    obtain rfl := admitted_of_unobserved hnone hadmitted
    have hvalid : f.record.validate = [] := by
      rw [admitted_of_live hnone (live_of_admitted hadmitted)] at hadmitted
      simpa using hadmitted
    rw [saveRow_of_admitted hadmitted, final_bind_pure]
    obtain ⟨entries, hentries, hrow⟩ := gains_writeRow (d := d)
      (f := ⟨f.session, { f.record with errors := f.record.validate }⟩) hnone
    exact ⟨entries, hentries, fun entry hentry =>
      ⟨hvalid, (writesRow_errors f.record.validate entry).1 (hrow entry hentry)⟩⟩
  · rw [(saveRow_of_not_admitted (not_exists.1 h)).2]
    exact gains_of_eq (quiet_admitted (quiet_sent d) f)

/-! ## Links -/

def LinksIn (f : Focus σ) (table : String) : Prop :=
  ∃ name relation target start, f.record.schema.relation name = some relation ∧
    DatabaseConfig.tablePrefix f.session.config f.record.schema.connection = .ok start ∧
    table = (Junction.ofRelation f.record.schema name relation target start).table

/-- After its row nothing of a save is sent but what writes links. -/
theorem gains_links (hnone : Unobserved f) :
    Session.Gains Session.sent (StoresLinks (LinksIn f)) (final (saveRow d f)).session
      (final (save d f)).session := by
  have hR := linking_gains d (LinksIn f)
  have hconfig : (final (saveRow d f)).session.config = f.session.config :=
    ((remembering_setup d).toForgetting.writing.saveRow f).config
  have hmodel : (final (saveRow d f)).record.schema = f.record.schema :=
    ((writing_unwatched acrossWrites_schema.toChained d fun _ hf r => (hf.keepsLinks r).1).saveRow f
      hnone).2
  rw [save_eq]
  cases hrow : saveRow d f with
  | error e g =>
    rw [bind_of_error hrow]
    exact hR.refl _
  | ok written g =>
    rw [hrow] at hconfig hmodel
    rw [bind_of_ok hrow]
    cases written with
    | none => exact hR.refl _
    | some inserting =>
      have hwithin : LinksWithin (LinksIn f) g.session g.record.schema := by
        intro name relation target start hrelation hstart
        rw [show g.record.schema = f.record.schema from hmodel] at hrelation hstart ⊢
        rw [show g.session.config = f.session.config from hconfig] at hstart
        exact ⟨name, relation, target, start, hrelation, hstart, rfl⟩
      refine (chained_across hR.toChained).bind (hR.saveLinks hwithin) fun _ h _ => ?_
      exact gains_of_eq (quiet_finishSave d inserting h)

/-! ## Required columns -/

/-- The values that an update keeps up in a column have a form there. -/
def KeptUpIn (f : Focus σ) (c : Field) : Prop :=
  ∀ entry ∈ upkeep (.timestamp f.session.now.wholeSecond) f.session.user, entry.1 = c.name →
    entry.2.coerce c.type f.record.filter ≠ .null

/-- Where a column has a value, an update keeps one there. -/
theorem current_written_ne_null (hdeclared : f.record.schema.field c.name = some c)
    (hcolumn : c.isColumn = true) (hkept : KeptUpIn f c)
    (hpresent : f.record.current c.name ≠ .null) : (written f).current c.name ≠ .null := by
  unfold written
  rw [stampAll_eq_foldl]
  have hstart : ChangesRow f.record f.record ∧ f.record.current c.name ≠ .null :=
    ⟨chained_changesRow.refl _, hpresent⟩
  refine (List.foldlRecOn (motive := fun r => ChangesRow f.record r ∧ r.current c.name ≠ .null)
    _ keepUp hstart fun r h entry hentry => ?_).2
  obtain ⟨hsame, hvalue⟩ := h
  rw [keepUp_eq]
  split
  · refine ⟨chained_changesRow.trans hsame (r.changesRow_storeCoerced _ _), ?_⟩
    by_cases hname : entry.1 = c.name
    · have hform := hkept entry hentry hname
      rw [← hsame.filter] at hform
      rw [hname]
      exact current_storeCoerced_ne_null (hsame.schema ▸ hdeclared) hcolumn hvalue hform
    · rw [current, (r.sameAt_storeCoerced hname entry.2).data]
      exact hvalue
  · exact ⟨hsame, hvalue⟩

theorem save_of_invalid (hnone : Unobserved f) (hlive : f.record.voided = false)
    (hinvalid : f.record.validate ≠ []) :
    save d f = .ok false ⟨f.session, { f.record with errors := f.record.validate }⟩ := by
  have hadmitted := admitted_of_live hnone hlive
  rw [List.isEmpty_eq_false_iff.2 hinvalid] at hadmitted
  exact save_of_not_cleared (cleared_of_invalid hadmitted)

/-! ## Each column once -/

theorem record_finishSave (inserting : Bool) (f : Focus σ) :
    (final (finishSave inserting f)).record = f.record.clean := by
  obtain ⟨notices, hafter⟩ := after_eq_ok .saved f
  rw [finishSave, bind_of_ok hafter]
  cases inserting <;> rfl

theorem distinct_saveRow (hnone : Unobserved f) (h : f.record.Distinct) :
    (final (saveRow d f)).record.Distinct := by
  have hR : Chained fun r s : Record => r.Distinct → s.Distinct := ⟨fun _ => id, fun h h' => h' ∘ h⟩
  have hchange : ∀ x, RowChange x → ∀ r : Record, r.Distinct → (x r).Distinct := by
    intro x hx r h
    cases hx with
    | stamp => exact stampAll_stores (fun _ column v h => h.storeCoerced column v) _ _ _ h
    | errors => exact h.of_same rfl
    | key v => exact Entries.nodup_put h _ v
  exact ((writing_unwatched hR d hchange).saveRow f hnone).2 h

theorem distinct_save (hnone : Unobserved f) (h : f.record.Distinct) :
    (final (save d f)).record.Distinct := by
  have hrow : (final (saveRow d f)).record.Distinct := distinct_saveRow hnone h
  rw [save_eq]
  cases hsave : saveRow d f with
  | error e g =>
    rw [hsave] at hrow
    rw [bind_of_error hsave]
    exact hrow
  | ok written g =>
    rw [hsave] at hrow
    rw [bind_of_ok hsave]
    cases written with
    | none => exact hrow
    | some inserting =>
      obtain ⟨pending, hlinked⟩ := relinks_saveLinks d g
      have hlinked : (final (saveLinks d g)).record.Distinct := by
        rw [hlinked]
        exact Distinct.of_same (r := g.record) hrow rfl
      dsimp only
      cases hlinks : saveLinks d g with
      | error e k =>
        rw [hlinks] at hlinked
        rw [bind_of_error hlinks]
        exact hlinked
      | ok _ k =>
        rw [hlinks] at hlinked
        rw [bind_of_ok hlinks, record_finishSave]
        exact hlinked.of_same rfl

/-- The records of sessions without observers: new and loaded ones, and what assignments and saves
make of them. -/
inductive Arises : Record → Prop
  | fresh {schema : Schema} {r : Record} (hschema : schema.Built) (h : Fresh schema r) : Arises r
  | assigned {r : Record} (h : Arises r) (name : String) (v : FieldValue Record) :
      Arises (final (Edit.assign name v r))
  | saved {σ : Type} (d : Driver σ) {f : Focus σ} (h : Arises f.record) (hnone : Unobserved f) :
      Arises (final (save d f)).record

/-- The run: all of them have each column once. -/
theorem Arises.distinct {r : Record} (h : Arises r) : r.Distinct := by
  induction h with
  | fresh hschema h => exact h.distinct hschema
  | assigned _ name v ih => exact (Edit.Assigned.start.assign name v).distinct ih
  | saved d _ hnone ih => exact distinct_save hnone ih

theorem Arises.assignedAll {start r : Record} (h : Arises start) (hr : Edit.Assigned start r) :
    Arises r := by
  induction hr with
  | start => exact h
  | assign _ name v ih => exact ih.assigned name v

/-! ## What a save writes -/

/-- A save without observers sends statements for the row of its record and then those for its
links. One that inserts the row writes no null. One that updates it writes no null to a column that
validation asks for, if no validator takes back what was found and what the update keeps up there,
if it does, has a form in the column. If the record has no value of such a column the validation
fails, and nothing is sent. -/
theorem required_column_kept (d : Driver σ) {f : Focus σ} {c : Field} (hnone : Unobserved f)
    (harises : Arises f.record) (hdeclared : f.record.schema.field c.name = some c) :
    (∃ row links, (final (save d f)).session.sent = f.session.sent ++ row ++ links ∧
      (∀ entry ∈ row,
        (InsertsValues (inserted f).insertedColumns entry ∧
          (c.name, .null) ∉ (inserted f).insertedColumns) ∨
        (AssignsValues (written f).changedColumns entry ∧
          (f.record.isRequired c = true → f.record.schema.KeepsErrors → KeptUpIn f c →
            (c.name, .null) ∉ (written f).changedColumns))) ∧
      ∀ entry ∈ links, StoresLinks (LinksIn f) entry) ∧
    (f.record.isRequired c = true → f.record.schema.KeepsErrors → f.record.voided = false →
      f.record.current c.name = .null → f.record.validate ≠ [] ∧
        save d f = .ok false ⟨f.session, { f.record with errors := f.record.validate }⟩) := by
  refine ⟨?_, fun hrequired hkeeps hlive hnull => ?_⟩
  · obtain ⟨row, hrow, hwrites⟩ := gains_saveRow (d := d) hnone
    obtain ⟨links, hlinks, hlinked⟩ := gains_links (d := d) hnone
    refine ⟨row, links, by rw [hlinks, hrow], fun entry hentry => ?_, hlinked⟩
    obtain ⟨hvalid, hinserts | hassigns⟩ := hwrites entry hentry
    · have hdistinct : (inserted f).Distinct :=
        stampAll_stores (fun _ column v h => h.storeCoerced column v) _ _ _ harises.distinct
      exact .inl ⟨hinserts, null_notMem_insertedColumns hdistinct c.name⟩
    · refine .inr ⟨hassigns, fun hrequired hkeeps hkept => null_notMem_changedColumns ?_⟩
      have hcolumn : c.isColumn = true := by
        simp only [isRequired, Bool.and_eq_true] at hrequired
        exact hrequired.1.1.1
      exact current_written_ne_null hdeclared hcolumn hkept
        (current_ne_null hkeeps hdeclared hrequired hvalid)
  · have hinvalid := validate_ne_nil hkeeps hdeclared hrequired hnull
    exact ⟨hinvalid, save_of_invalid hnone hlive hinvalid⟩

/-- A loaded record to which values were assigned, in a session without observers. -/
def editedIn (schema : Schema) (row : Row) (values : List (String × FieldValue Record)) :
    Focus Scripted.Servers where
  session := Scripted.session [schema]
  record := Edit.afterCalls (values.map .ofPair) (.ofRow schema row)

def titleColumn : Field := { name := "title", type := .varchar 64, nullable := false }

def pageSample : Schema := ((Schema.new "Page" "pages").declare titleColumn).withColumn "body" .text

def rewrittenPage : Focus Scripted.Servers :=
  editedIn pageSample [("id", .int64 1), ("title", .text "a")] [("body", .scalar (.text "b"))]

def untitledPage : Focus Scripted.Servers :=
  editedIn pageSample [("id", .int64 1), ("title", .text "a")] [("title", .null)]

theorem keepsErrors_pageSample : pageSample.KeepsErrors := by
  intro check hcheck
  cases hcheck

theorem arises_page (values : List (String × FieldValue Record)) :
    Arises (editedIn pageSample [("id", .int64 1), ("title", .text "a")] values).record :=
  (Arises.fresh (.declare (.declare (.new "Page" "pages") titleColumn) _)
    (.loaded _ .passThrough)).assignedAll (Edit.Assigned.start.afterCalls _)

/-- The other body is written without the title, and the page without a title is refused. -/
theorem pages_kept :
    ((final (save Scripted.driver rewrittenPage)).session.sent.map Prod.fst =
        ["UPDATE pages SET body = $1 WHERE (id = $2)"] ∧
      ∃ row links, (final (save Scripted.driver rewrittenPage)).session.sent = row ++ links ∧
        ∀ entry ∈ row, InsertsValues (inserted rewrittenPage).insertedColumns entry ∨
          ("title", .null) ∉ (written rewrittenPage).changedColumns) ∧
    ∃ g, save Scripted.driver untitledPage = .ok false g ∧ g.session = untitledPage.session := by
  have hkeptUp : KeptUpIn rewrittenPage titleColumn := by
    intro entry hentry hname
    obtain rfl := List.mem_singleton.1 hentry
    exact absurd hname (by decide)
  obtain ⟨⟨row, links, hsent, hrow, -⟩, -⟩ := required_column_kept Scripted.driver
    (f := rewrittenPage) (c := titleColumn) rfl (arises_page _) rfl
  obtain ⟨-, hrefused⟩ := required_column_kept Scripted.driver (f := untitledPage)
    (c := titleColumn) rfl (arises_page _) rfl
  have hnull : untitledPage.record.current "title" = .null :=
    Value.isNull_iff.1 (by decide +kernel)
  obtain ⟨-, hsave⟩ := hrefused rfl keepsErrors_pageSample rfl hnull
  refine ⟨⟨by decide +kernel, row, links, hsent, fun entry hentry => ?_⟩, _, hsave, rfl⟩
  obtain ⟨hinserts, -⟩ | ⟨-, hkept⟩ := hrow entry hentry
  · exact .inl hinserts
  · exact .inr (hkept rfl keepsErrors_pageSample hkeptUp)

/-- A record is saved by an update that writes null to a column that takes none and is not the
key. -/
structure WritesNull (f : Focus Scripted.Servers) (c : Field) (sql : String) : Prop where
  unobserved : Unobserved f
  declared : f.record.schema.field c.name = some c
  column : c.isColumn = true
  nullable : c.nullable = false
  key : c.name ≠ f.record.schema.primaryKey
  saved : value? (save Scripted.driver f) = some true
  sent : (final (save Scripted.driver f)).session.sent.map Prod.fst = [sql]

def stateColumn : Field :=
  { name := "state", type := .varchar 32, nullable := false, default := some (.text "new") }

def changeColumn : Field := { name := "updated_at", type := .bigInt, nullable := false }

/-- Validation does not ask for a column that has a default, so that it can be set to null. It asks
for the column that an update keeps up, but the time has no form in it. And a validator can take
back what was found. -/
theorem required_columns_null :
    WritesNull (editedIn ((Schema.new "Job" "jobs").declare stateColumn)
        [("id", .int64 1), ("state", .text "old")] [("state", .null)]) stateColumn
      "UPDATE jobs SET state = NULL WHERE (id = $1)" ∧
    WritesNull (editedIn (((Schema.new "Job" "jobs").declare changeColumn).withColumn "n" .bigInt)
        [("id", .int64 1), ("updated_at", .int64 5)] [("n", .scalar (.int64 2))]) changeColumn
      "UPDATE jobs SET n = $1, updated_at = NULL WHERE (id = $2)" ∧
    WritesNull (editedIn (((Schema.new "Job" "jobs").declare titleColumn).withValidator
        fun _ _ => []) [("id", .int64 1), ("title", .text "a")] [("title", .null)]) titleColumn
      "UPDATE jobs SET title = NULL WHERE (id = $1)" := by
  refine ⟨⟨rfl, rfl, rfl, rfl, by decide, ?_, ?_⟩, ⟨rfl, rfl, rfl, rfl, by decide, ?_, ?_⟩,
    ⟨rfl, rfl, rfl, rfl, by decide, ?_, ?_⟩⟩ <;> decide +kernel

end RecordAction

end RowMapper
