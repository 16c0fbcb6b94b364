import RowMapper.Proofs.Record.Changes
import RowMapper.Proofs.Session.Deletion
import RowMapper.Proofs.Session.PendingLinks

/-! # The update that a save sends

A loaded record to whose columns values were assigned is saved by one update. It
assigns the changed columns in the order in which they first changed, then those that
the update keeps up itself and that had another value, and it is keyed by the key that
was loaded. Without a changed column nothing is sent, and nothing is kept up either.
-/

namespace RowMapper

open Run

variable {σ : Type}

/-! ## Columns that are kept up -/

namespace Record

variable {r : Record} {column other : String} {v : Value}

/-- Whether a column has a value already, in the form that it takes there. -/
def holds (r : Record) (column : String) (v : Value) : Bool :=
  match (r.schema.field column).filter Field.isColumn with
  | some f => Value.sameFor f.type (r.current column) (v.coerce f.type r.filter)
  | none => (r.current column).equal v

theorem changedNames_store_eq (r : Record) (column : String) (v : Value) (unchanged : Bool) :
    (r.store column v unchanged).changedNames =
      r.changedNames ++ if !r.isDirty column && !unchanged then [column] else [] := by
  cases unchanged with
  | true =>
    unfold store
    split <;> simp [changedNames, putData]
  | false =>
    have hstore : (r.store column v false).changedNames =
        (r.remember column (.ofValue ((r.value? column).getD .null))).changedNames := rfl
    rw [hstore, changedNames_remember]
    cases r.isDirty column <;> simp

/-- Storing a value lists the column as changed unless it is listed or has the value. -/
theorem changedNames_storeCoerced_eq (hextra : r.extra.get? column = none) (v : Value) :
    (r.storeCoerced column v).changedNames =
      r.changedNames ++ if !r.isDirty column && !r.holds column v then [column] else [] := by
  have hvalue : (r.value? column).getD .null = r.current column := by
    simp [value?, current, hextra]
  unfold storeCoerced holds storeExact
  rw [hvalue]
  split <;> simp only [changedNames_store_eq, *]

/-- The columns, of those that are to have values, that do not have theirs and are not changed. -/
def outdated (entries : List (String × Value)) (r : Record) : List String :=
  (entries.filter fun entry =>
    r.schema.hasColumn entry.1 && !r.isDirty entry.1 && !r.holds entry.1 entry.2).map Prod.fst

theorem outdated_of_same {entries : List (String × Value)} {s : Record}
    (hfilter : s.filter = r.filter) (h : ∀ entry ∈ entries, SameAt entry.1 r s) :
    outdated entries s = outdated entries r := by
  unfold outdated
  congr 1
  refine List.filter_congr fun entry hentry => ?_
  obtain ⟨hschema, hdata, -, hinitial⟩ := h entry hentry
  have hdirty : s.isDirty entry.1 = r.isDirty entry.1 := congrArg Option.isSome hinitial
  rw [hschema, hdirty, holds, holds, current, current, hdata, hschema, hfilter]

theorem store_errors (r : Record) (errors : ValidationErrors) (name : String) (v : Value)
    (unchanged : Bool) : ({ r with errors } : Record).store name v unchanged =
      { r.store name v unchanged with errors } := by
  unfold store remember
  dsimp only
  split
  · rfl
  · split
    · rfl
    · have hdirty : ({ r with errors } : Record).isDirty name = r.isDirty name := rfl
      rw [hdirty]
      cases r.isDirty name <;> rfl

theorem storeCoerced_errors (r : Record) (errors : ValidationErrors) (name : String) (v : Value) :
    ({ r with errors } : Record).storeCoerced name v = { r.storeCoerced name v with errors } := by
  unfold storeCoerced
  dsimp only
  split
  · exact r.store_errors errors name _ _
  · exact r.store_errors errors name _ _

end Record

namespace RecordAction

open Record

/-- The columns that an update keeps up, with their values: the time of the change, and who made it
if that is known. -/
def upkeep (now : Value) (user : Option Value) : List (String × Value) :=
  ("updated_at", now) :: (user.map fun v => ("updated_by", v)).toList

def keepUp (r : Record) (entry : String × Value) : Record := stamp false entry.1 entry.2 r

theorem stampAll_eq_foldl (now : Value) (user : Option Value) (r : Record) :
    stampAll now user false r = (upkeep now user).foldl keepUp r := by
  cases user <;> rfl

theorem keepUp_eq (r : Record) (entry : String × Value) : keepUp r entry =
    if r.schema.hasColumn entry.1 then r.storeCoerced entry.1 entry.2 else r := by
  simp [keepUp, stamp]

theorem keepUp_errors (r : Record) (errors : ValidationErrors) (entry : String × Value) :
    keepUp { r with errors } entry = { keepUp r entry with errors } := by
  rw [keepUp_eq, keepUp_eq]
  dsimp only
  split
  · exact r.storeCoerced_errors errors _ _
  · rfl

theorem changedNames_keepUp {r : Record} (htidy : r.Tidy) (entry : String × Value) :
    (keepUp r entry).changedNames = r.changedNames ++ outdated [entry] r := by
  rw [keepUp_eq]
  cases hcolumn : r.schema.hasColumn entry.1 with
  | false => simp [outdated, hcolumn]
  | true =>
    rw [if_pos rfl, changedNames_storeCoerced_eq (htidy _ hcolumn)]
    cases hnew : !r.isDirty entry.1 && !r.holds entry.1 entry.2 <;> simp [outdated, hcolumn, hnew]

theorem changedNames_keepUps {entries : List (String × Value)} {r : Record} (htidy : r.Tidy)
    (hnodup : (entries.map Prod.fst).Nodup) :
    (entries.foldl keepUp r).changedNames = r.changedNames ++ outdated entries r := by
  induction entries generalizing r with
  | nil => simp [outdated]
  | cons entry rest ih =>
    rw [List.map_cons, List.nodup_cons] at hnodup
    have hothers : outdated rest (keepUp r entry) = outdated rest r := by
      rw [keepUp_eq]
      split
      · refine outdated_of_same (r.changesRow_storeCoerced _ _).filter fun other hother => ?_
        apply r.sameAt_storeCoerced
        rintro h
        exact hnodup.1 (List.mem_map.2 ⟨other, hother, h.symm⟩)
      · rfl
    have htidy' : (keepUp r entry).Tidy := by
      rw [keepUp_eq]
      split
      · exact htidy.storeCoerced _ _
      · exact htidy
    have hfirst : outdated (entry :: rest) r = outdated [entry] r ++ outdated rest r := by
      simp only [outdated, ← List.map_append, ← List.filter_append, List.singleton_append]
    rw [List.foldl_cons, ih htidy' hnodup.2, changedNames_keepUp htidy, hothers, hfirst,
      List.append_assoc]

/-- Stamping a record for an update adds the columns that it keeps up to those that changed. -/
theorem changedNames_stampAll {r : Record} (htidy : r.Tidy) (now : Value) (user : Option Value) :
    (stampAll now user false r).changedNames =
      r.changedNames ++ outdated (upkeep now user) r := by
  rw [stampAll_eq_foldl]
  refine changedNames_keepUps htidy ?_
  cases user <;> simp [upkeep]

end RecordAction

/-! ## The statement is sent -/

/-- Whatever becomes of it, an update with a statement sends that statement alone. -/
theorem Action.sent_update (d : Driver σ) {c : Connection} {table : String}
    {values : Entries Value} {conditions : List (Condition Query)} {statement : Sql.Statement}
    {sql : String} {params : List Value} (s : Session σ)
    (hupdate : Sql.update c.dialect table values conditions true = .ok (some statement))
    (hsql : statement.toPositional c.dialect = .ok (sql, params)) :
    (final (update d c table values conditions true s)).sent = s.sent ++ [(sql, params)] := by
  have hrun : update d c table values conditions true s = affected d c (some statement) s :=
    bind_of_ok (check_of_ok hupdate s) _
  rw [hrun]
  exact sent_affected d s hsql

namespace RecordAction

open Record

variable {d : Driver σ} {f : Focus σ}

/-- The record as an update of its row writes it. -/
def written (f : Focus σ) : Record :=
  stampAll (.timestamp f.session.now.wholeSecond) f.session.user false f.record

theorem schema_written (f : Focus σ) : (written f).schema = f.record.schema :=
  (keepsLinks_stampAll _ _ _ f.record).1

theorem written_errors (f : Focus σ) (errors : ValidationErrors) :
    written { f with record := { f.record with errors } } = { written f with errors } := by
  unfold written
  rw [stampAll_eq_foldl, stampAll_eq_foldl]
  exact List.foldl_hom (fun r : Record => { r with errors }) fun r entry =>
    keepUp_errors r errors entry

/-- An update writes the changed columns and those that it keeps up. -/
theorem changedColumns_written (htidy : f.record.Tidy)
    (hcolumns : ∀ name ∈ f.record.changedNames, f.record.schema.hasColumn name = true) :
    (written f).changedColumns = (f.record.changedNames ++
      outdated (upkeep (.timestamp f.session.now.wholeSecond) f.session.user) f.record).map
        fun name => (name, (written f).current name) := by
  have hnames := changedNames_stampAll htidy (.timestamp f.session.now.wholeSecond) f.session.user
  rw [changedColumns_of_columns, written, hnames]
  intro name hname
  rw [schema_written]
  rw [written, hnames, List.mem_append] at hname
  rcases hname with hname | hname
  · exact hcolumns name hname
  · obtain ⟨entry, hentry, rfl⟩ := List.mem_map.1 hname
    have hkept := (List.mem_filter.1 hentry).2
    simp only [Bool.and_eq_true] at hkept
    exact hkept.1.1

/-- Neither assignments nor stamping the record change under which key its row is updated. -/
theorem storedKey_written {start : Record} {key : Value} (hkey : start.key? = some key)
    (h : Tracks start start.schema.primaryKey f.record) : storedKey (written f) = key :=
  storedKey_of_tracks hkey
    (stampAll_stores (fun _ column v h => h.storeCoerced column v) _ _ _ h)

/-- Updating the row of a record sends one statement, if the connection is there. -/
theorem updateColumns_sent {c : Connection} {t : Session σ} {start : String}
    (hc : Action.connectionOf d f.record.schema f.session = .ok c t)
    (htable : DatabaseConfig.tablePrefix f.session.config f.record.schema.connection = .ok start)
    {sql : String} {params : List Value} {statement : Sql.Statement}
    (hupdate : Sql.update c.dialect (start ++ f.record.schema.table) (written f).changedColumns
      [.key f.record.schema.primaryKey (storedKey (written f))] true = .ok (some statement))
    (hsql : statement.toPositional c.dialect = .ok (sql, params)) :
    (final (updateColumns d f)).session.sent = f.session.sent ++ [(sql, params)] ∧
      (final (updateColumns d f)).record = written f := by
  have hschema := schema_written f
  let g : Focus σ := ⟨t, written f⟩
  have hstamp : stampNow false f = .ok () { f with record := written f } := rfl
  have hconnect : inSession (Action.connectionOf d (written f).schema)
      { f with record := written f } = .ok c g :=
    inSession_eq_ok.2 ⟨t, hschema ▸ hc, rfl⟩
  have hnamed : inSession (Action.tableOf (written f).schema) g =
      .ok (start ++ f.record.schema.table) g := by
    have hconfig : t.config = f.session.config :=
      (((Action.remembering_setup d).connectionOf f.record.schema).of_ok hc).config
    have hstart : Action.tablePrefix f.record.schema.connection t = .ok start t :=
      Action.tablePrefix_eq_ok.2 ⟨hconfig ▸ htable, rfl⟩
    refine inSession_eq_ok.2 ⟨t, ?_, rfl⟩
    rw [hschema, Action.tableOf, bind_of_ok hstart]
    rfl
  have hsend := Action.sent_update d t hupdate hsql
  have hquiet : t.sent = f.session.sent := ((Action.quiet_sent d).connectionOf _).of_ok hc
  rw [hquiet] at hsend
  unfold updateColumns
  rw [bind_of_ok hstamp, record_bind]
  dsimp only
  rw [bind_of_ok hconnect, bind_of_ok hnamed, hschema]
  cases hrun : Action.update d c (start ++ f.record.schema.table) (written f).changedColumns
      [.key f.record.schema.primaryKey (storedKey (written f))] true t with
  | ok count u =>
    rw [hrun] at hsend
    rw [bind_of_ok (inSession_eq_ok.2 ⟨u, hrun, rfl⟩)]
    exact ⟨hsend, rfl⟩
  | error e u =>
    rw [hrun] at hsend
    rw [bind_of_error (inSession_eq_error.2 ⟨u, hrun, rfl⟩)]
    exact ⟨hsend, rfl⟩

/-- A record whose save comes to an update: it is stored already, it is valid, it has no links to
write, and nobody is told of what happens to it. -/
structure Updates (f : Focus σ) : Prop where
  unobserved : Unobserved f
  live : f.record.voided = false
  stored : f.record.isNew = false
  valid : f.record.validate = []
  errors : f.record.errors = []
  pending : f.record.pending = []

/-- A valid record of which only the row changed is saved by an update. -/
theorem updates_of_changesRow {s : Session σ} {schema : Schema} {filter : ImportFilter}
    {r : Record} (hrow : ChangesRow { schema, filter } r) (hnew : r.isNew = false)
    (hvalid : r.validate = []) (hobservers : s.observers.ofModel schema.name = []) :
    Updates ⟨s, r⟩ := by
  obtain ⟨data, extra, initial, hrecord⟩ := hrow
  exact {
    unobserved := by
      change s.observers.ofModel r.schema.name = []
      rw [hrecord, hobservers]
    live := by rw [hrecord]
    stored := hnew
    valid := hvalid
    errors := by rw [hrecord]
    pending := by rw [hrecord] }

/-- After its row a save without links to write succeeds and sends nothing more. -/
theorem save_of_row {g : Focus σ} (hrow : saveRow d f = .ok (some false) g)
    (hpending : g.record.pending = []) :
    ∃ g', save d f = .ok true g' ∧ g'.session.sent = g.session.sent := by
  obtain ⟨notices, hafter⟩ := after_eq_ok .saved g
  refine ⟨⟨{ g.session with notices }, g.record.clean⟩, ?_, rfl⟩
  rw [save_eq, bind_of_ok hrow]
  dsimp only
  rw [bind_of_ok (saveLinks_of_pending_nil hpending), finishSave, bind_of_ok hafter]
  rfl

theorem validate_of_updates (h : Updates f) : validate f = .ok true f := by
  have hkept : { f.record with errors := f.record.validate } = f.record := by
    rw [h.valid, ← h.errors]
    cases f.record
    rfl
  have hchange : (change fun r => { r with errors := f.record.validate }) f = .ok () f :=
    congrArg (fun r => EStateM.Result.ok () (⟨f.session, r⟩ : Focus σ)) hkept
  unfold validate
  rw [bind_of_ok (before_of_unobserved h.unobserved .validating)]
  simp only [Bool.not_true, Bool.false_eq_true, if_false, record_bind]
  rw [bind_of_ok hchange, bind_of_ok (after_of_unobserved h.unobserved .validated), h.valid]
  rfl

theorem updateRow_of_unobserved (h : Unobserved f) : updateRow d f =
    if f.record.changedColumns.isEmpty then .ok true f
    else (updateColumns d >>= fun _ => after .updated >>= fun _ => pure true) f := by
  unfold updateRow
  rw [bind_of_ok (before_of_unobserved h .updating)]
  simp only [Bool.not_true, Bool.false_eq_true, if_false, record_bind]
  cases f.record.changedColumns.isEmpty with
  | true =>
    simp only [Bool.not_true, Bool.false_eq_true, if_false]
    rw [bind_of_ok (after_of_unobserved h .updated)]
    rfl
  | false => rfl

theorem saveRow_of_updates (h : Updates f) : saveRow d f =
    (updateRow d >>= fun written => pure (if written then some false else none)) f := by
  have hwrite : writeRow d f = updateRow d f := by
    unfold writeRow
    rw [record_bind, h.stored]
    rfl
  unfold saveRow
  rw [record_bind, bind_of_ok (check_ensureLive h.live),
    bind_of_ok (before_of_unobserved h.unobserved .saving)]
  simp only [Bool.not_true, Bool.false_eq_true, if_false]
  rw [bind_of_ok (validate_of_updates h)]
  simp only [Bool.not_true, Bool.false_eq_true, if_false, record_bind, h.stored]
  simp only [bind, EStateM.bind, hwrite]
  rcases updateRow d f with ⟨_ | _, g⟩ | ⟨e, g⟩ <;> rfl

theorem save_unchanged (h : Updates f) (hnone : f.record.changedColumns = []) :
    ∃ g, save d f = .ok true g ∧ g.session.sent = f.session.sent := by
  have hupdate : updateRow d f = .ok true f := by
    rw [updateRow_of_unobserved h.unobserved, hnone]
    rfl
  refine save_of_row ?_ h.pending
  rw [saveRow_of_updates h, bind_of_ok hupdate]
  rfl

/-- With a changed column nothing is sent but what the update sends. -/
theorem sent_save (h : Updates f) (hsome : f.record.changedColumns ≠ [])
    (hpending : (final (updateColumns d f)).record.pending = []) :
    (final (save d f)).session.sent = (final (updateColumns d f)).session.sent := by
  have hupdate : updateRow d f =
      (updateColumns d >>= fun _ => after .updated >>= fun _ => pure true) f := by
    rw [updateRow_of_unobserved h.unobserved, if_neg (by simpa using hsome)]
  cases hcolumns : updateColumns d f with
  | error e g =>
    have hrow : saveRow d f = .error e g := by
      rw [saveRow_of_updates h]
      exact bind_of_error (hupdate.trans (bind_of_error hcolumns _)) _
    rw [save_eq, bind_of_error hrow]
    rfl
  | ok _ g =>
    rw [hcolumns] at hpending
    obtain ⟨notices, hafter⟩ := after_eq_ok .updated g
    have hdone : updateRow d f = .ok true { g with session := { g.session with notices } } := by
      rw [hupdate, bind_of_ok hcolumns, bind_of_ok hafter]
      rfl
    have hrow : saveRow d f =
        .ok (some false) { g with session := { g.session with notices } } := by
      rw [saveRow_of_updates h, bind_of_ok hdone]
      rfl
    obtain ⟨g', hsave, hsent⟩ := save_of_row hrow hpending
    rw [hsave]
    exact hsent

/-- Of a loaded record to whose columns values were assigned, with or without success, and which
still has a key and is valid: the changed columns are those that the assignments first changed.
Without any the save sends nothing and succeeds. Otherwise it sends one statement, which updates the
row of the loaded key, and assigns these columns in order and then those among the ones kept up that
had another value, each with its value at that time. -/
theorem save_loaded {d : Driver σ} {s t : Session σ} {schema : Schema} {row : Row}
    {filter : ImportFilter} {values : List (String × FieldValue Record)} {start r : Record}
    {key : Value} {c : Connection} {tableStart : String}
    (hstart : start = Record.ofRow schema row filter) (hkey : start.key? = some key)
    (hcolumns : ∀ entry ∈ values, schema.hasColumn entry.1 = true)
    (hr : r = Edit.afterCalls (values.map .ofPair) start) (hnew : r.isNew = false)
    (hvalid : r.validate = []) (hobservers : s.observers.ofModel schema.name = [])
    (hplain : Condition.isRawColumn schema.primaryKey = false)
    (hclosed : Sql.ClosedColumn schema.primaryKey)
    (hc : Action.connectionOf d schema s = .ok c t)
    (htable : DatabaseConfig.tablePrefix s.config schema.connection = .ok tableStart) :
    let changed := Edit.firstChanges values start
    let now := .timestamp s.now.wholeSecond
    let assigned := (changed ++ outdated (upkeep now s.user) r).map fun name =>
      (name, (stampAll now s.user false r).current name)
    (∀ name, r.isDirty name = true ↔ name ∈ changed) ∧
      (changed = [] → ∃ g, save d ⟨s, r⟩ = .ok true g ∧ g.session.sent = s.sent) ∧
      (changed ≠ [] → (final (save d ⟨s, r⟩)).session.sent = s.sent ++
        [(Sql.sentUpdate c.dialect (tableStart ++ schema.table) assigned schema.primaryKey,
          Sql.boundValues c.dialect assigned ++ [key])]) := by
  intro changed now assigned
  subst hstart
  have hloaded := loaded_ofRow schema row filter
  have hassigned : Edit.Assigned (ofRow schema row filter) r :=
    hr ▸ Edit.Assigned.start.afterCalls _
  obtain ⟨hrow, hchanged⟩ : _ ∧ r.changedNames = changed := Edit.changes_of_loaded hcolumns hr
  have hupdates := updates_of_changesRow (s := s) hrow hnew hvalid hobservers
  have hschema : r.schema = schema := hrow.schema
  have hcolumn : ∀ name ∈ r.changedNames, r.schema.hasColumn name = true := by
    rw [hchanged, hschema]
    exact fun name hname => Edit.hasColumn_of_mem_firstChanges hcolumns hname
  have hwritten : r.changedColumns = changed.map fun name => (name, r.current name) := by
    rw [changedColumns_of_columns hcolumn, hchanged]
  refine ⟨fun name => by rw [isDirty_iff_mem, hchanged], fun hnone => ?_, fun hsome => ?_⟩
  · exact save_unchanged hupdates (by rw [hwritten, hnone]; rfl)
  · have hpositive : r.changedColumns ≠ [] := by simpa [hwritten] using hsome
    have hassign : (written ⟨s, r⟩).changedColumns = assigned := by
      rw [changedColumns_written (hassigned.tidy (tidy_ofRow schema row filter)) hcolumn, hchanged]
      rfl
    have hassign' : assigned ≠ [] := by simp [assigned, hsome]
    have hstored : storedKey (written ⟨s, r⟩) = key := by
      refine storedKey_written hkey ?_
      rw [hloaded.schema]
      exact hassigned.tracks_key hloaded hkey
    obtain ⟨statement, hupdate, hsql⟩ := Sql.update_key (d := c.dialect)
      (tableStart ++ schema.table) hassign' hplain (ne_null_of_key? hkey) hclosed
    obtain ⟨hsent, hrecord⟩ := updateColumns_sent (f := ⟨s, r⟩) (hschema.symm ▸ hc)
      (hschema.symm ▸ htable) (by rw [hassign, hstored, hschema]; exact hupdate) hsql
    rw [sent_save hupdates hpositive, hsent]
    rw [hrecord, written, (keepsLinks_stampAll _ _ _ r).2]
    exact hupdates.pending

def articleSample : Schema :=
  let s := (Schema.new "Article" "articles").withColumn "title" .text
  (s.withColumn "draft" .boolean).withColumn "updated_at" .dateTime

def loadedArticle : Record :=
  .ofRow articleSample [("id", .int64 5), ("title", .text "a"), ("draft", .bool true)]

def articleValues : List (String × FieldValue Record) :=
  [("draft", .scalar (.bool false)), ("id", .scalar (.int64 6)), ("title", .scalar (.text "b")),
    ("draft", .scalar .null)]

def editedArticle : Record := Edit.afterCalls (articleValues.map .ofPair) loadedArticle

def articleUpdate : Entries Value :=
  ["draft", "id", "title", "updated_at"].map fun name => (name, (written
    ⟨Scripted.session [articleSample], editedArticle⟩).current name)

theorem loadedArticle_key : loadedArticle.key? = some (.int64 5) := by
  have hread : loadedArticle.key?.any (·.equal (.int64 5)) = true := by decide +kernel
  simpa [Option.any_eq_true] using hread

/-- The new key is assigned, and the row of the loaded key is updated. -/
theorem editedArticle_update : ∃ params : List Value, params.length = 4 ∧
    (final (save Scripted.driver ⟨Scripted.session [articleSample], editedArticle⟩)).session.sent =
      [("UPDATE articles SET draft = NULL, id = $1, title = $2, updated_at = $3 WHERE (id = $4)",
        params)] := by
  have hconnect : (value? (Action.connectionOf Scripted.driver articleSample
      (Scripted.session [articleSample]))).map Connection.dialect = some .postgres := by
    decide +kernel
  obtain ⟨c, hc, hdialect⟩ := Option.map_eq_some_iff.1 hconnect
  have hchanged : Edit.firstChanges articleValues loadedArticle = ["draft", "id", "title"] := by
    decide +kernel
  have hkept : outdated (upkeep (.timestamp (Scripted.session [articleSample]).now.wholeSecond)
      (Scripted.session [articleSample]).user) editedArticle = ["updated_at"] := by
    decide +kernel
  have hstart : loadedArticle = ofRow articleSample
      [("id", .int64 5), ("title", .text "a"), ("draft", .bool true)] .passThrough := rfl
  obtain ⟨-, -, hsent⟩ := save_loaded (d := Scripted.driver) (r := editedArticle)
    hstart loadedArticle_key (by decide +kernel) rfl (by decide +kernel)
    (List.isEmpty_iff.1 (by decide +kernel)) rfl (by decide +kernel)
    (fun h => absurd h (by decide +kernel)) (eq_ok_of_value? hc) rfl
  rw [hchanged, hkept, hdialect] at hsent
  have htext : Sql.sentUpdate .postgres ("" ++ "articles") articleUpdate "id" =
      "UPDATE articles SET draft = NULL, id = $1, title = $2, updated_at = $3 WHERE (id = $4)" := by
    decide +kernel
  refine ⟨Sql.boundValues .postgres articleUpdate ++ [.int64 5], by decide +kernel,
    (hsent (by simp)).trans ?_⟩
  exact congrArg (fun text => [(text, Sql.boundValues .postgres articleUpdate ++ [.int64 5])]) htext

def quotedSample : Schema :=
  ((Schema.new "Row" "rows").keyedBy "i'd" .bigInt).withColumn "n" (.varchar 32)

def distantSample : Schema := { articleSample with connection := "archive" }

def quotedRecord : Record :=
  Edit.afterCalls ([("n", .scalar (.text "b"))].map .ofPair)
    (.ofRow quotedSample [("i'd", .int64 5), ("n", .text "a")])

def distantRecord : Record :=
  Edit.afterCalls ([("title", .scalar (.text "b"))].map .ofPair)
    (.ofRow distantSample [("id", .int64 5), ("title", .text "a")])

/-- The quote in the name of the key column hides the placeholder after it, so the statement has one
placeholder for two values and is not sent. Without a connection nothing is sent either. -/
theorem quotedRecord_not_sent :
    (quotedRecord.isDirty "n" = true ∧ quotedRecord.isNew = false ∧
      quotedRecord.validate.isEmpty = true ∧
      (final (save Scripted.driver
        ⟨Scripted.session [quotedSample], quotedRecord⟩)).session.sent.isEmpty = true ∧
      failure? (save Scripted.driver ⟨Scripted.session [quotedSample], quotedRecord⟩) =
        some (.invalidArgument ("statement has 1 placeholders but 2 parameters were bound: " ++
          "UPDATE rows SET n = $1 WHERE (i'd = :id1)"))) ∧
    distantRecord.isDirty "title" = true ∧ distantRecord.isNew = false ∧
      distantRecord.validate.isEmpty = true ∧
      (final (save Scripted.driver
        ⟨Scripted.session [distantSample], distantRecord⟩)).session.sent.isEmpty = true := by
  decide +kernel

end RecordAction

end RowMapper
