import RowMapper.Proofs.Record.Tracking
import RowMapper.Proofs.Session.Runs
import RowMapper.Proofs.Statement.Updates

/-! # Which row a deletion deletes

A deletion sends at most one statement, keyed by the primary key that the record has
at that time. An update is keyed by the key under which the row is stored. The two
differ once another key was assigned to the record, and then the deletion takes
another row than the one that was loaded, and drops the wrong copy.
-/

namespace RowMapper

open Run Sql

variable {σ : Type}

/-! ## The statement -/

/-- The statement that deletes the row of a key binds the key and nothing else; a column whose name
announces SQL text gets the key's text, and nothing is bound. -/
theorem Sql.params_deletion_key {d : Dialect} {table column : String} {key : Value}
    {statement : Statement} (hkey : key ≠ .null)
    (h : deletion d table [.key column key] = .ok statement) :
    statement.params = if Condition.isRawColumn column then [] else [key] := by
  obtain ⟨text, sink, hrender, hparams⟩ : ∃ text sink,
      renderCondition { dialect := d } (.key column key) {} = .ok (some text) sink ∧
        sink.parameters.map Parameter.value =
          if Condition.isRawColumn column then [] else [key] := by
    by_cases hraw : Condition.isRawColumn column = true
    · obtain ⟨operand, hcondition⟩ : ∃ operand, (Condition.key column key : Condition Query) =
          .basic column "=" operand .and := by
        cases key <;> exact ⟨_, rfl⟩
      refine ⟨rawOperandText operand, {}, ?_, by simp [hraw]⟩
      rw [hcondition, renderCondition, if_pos hraw]
      rfl
    · refine ⟨_, _, renderCondition_key _ (by simpa using hraw) hkey rfl, ?_⟩
      simp [hraw]
  have hconditions : renderConditions { dialect := d } [.key column key] {} =
      .ok [(.and, text)] sink := by
    rw [renderConditions, bind_of_ok hrender, renderConditions]
    rfl
  rw [deletion, Statement.ofRender, renderWhere, bind_assoc, bind_of_ok hconditions] at h
  cases h
  rw [← hparams, Statement.params, ParamSink.named, List.map_map]
  rfl

namespace Action

/-- A deletion of rows sends the statement, or fails before it does. -/
theorem delete_cases (d : Driver σ) (c : Connection) (table : String)
    (conditions : List (Condition Query)) (s : Session σ) :
    (∃ e, delete d c table conditions s = .error e s) ∨
      ∃ statement sql, deletion c.dialect table conditions = .ok statement ∧
        statement.toPositional c.dialect = .ok (sql, statement.params) ∧
          (final (delete d c table conditions s)).sent = s.sent ++ [(sql, statement.params)] := by
  cases hdel : deletion c.dialect table conditions with
  | error e => exact .inl ⟨e, bind_of_error (check_of_error hdel s) _⟩
  | ok statement =>
    have hrun : delete d c table conditions s = affected d c (some statement) s :=
      bind_of_ok (check_of_ok hdel s) _
    rw [hrun]
    cases hpos : statement.toPositional c.dialect with
    | error e => exact .inl ⟨e, affected_of_error d s hpos⟩
    | ok pair =>
      obtain ⟨sql, values⟩ := pair
      obtain ⟨-, -, rfl⟩ := positional_eq_ok.1 hpos
      exact .inr ⟨statement, sql, rfl, hpos, sent_affected d s hpos⟩

end Action

namespace RecordAction

/-- The key under which the row of a loaded record is stored is the one that was loaded, whatever
was assigned to the record since. -/
theorem storedKey_of_tracks {start r : Record} {key : Value} (hkey : start.key? = some key)
    (h : Record.Tracks start start.schema.primaryKey r) : storedKey r = key := by
  obtain ⟨hdata, hempty⟩ := Option.filter_eq_some_iff.1 hkey
  have hcurrent : start.current start.schema.primaryKey = key := by
    rw [Record.current, hdata]
    rfl
  have hkept : (some key).filter (!·.isEmpty) = some key := Option.filter_some_pos hempty
  unfold storedKey
  rw [h.schema]
  cases hi : r.initial? start.schema.primaryKey with
  | none =>
    have hr : (r.data.get? start.schema.primaryKey).getD .null = key :=
      (h.clean hi).trans hcurrent
    cases hd : r.data.get? start.schema.primaryKey with
    | none =>
      rw [hd] at hr
      subst hr
      cases hempty
    | some v =>
      rw [hd] at hr
      have hkey' : r.key? = some key := by
        rw [Record.key?, h.schema, hd]
        exact hr ▸ hkept
      simp [hkey']
  | some x =>
    have hscalar : FieldValue.toScalar? (.ofValue key : FieldValue Record) = some key := by
      cases key <;> first | rfl | cases hempty
    simp only [h.dirty x hi, hcurrent, Option.bind_some, hscalar, hkept]

/-! ## The parts of a deletion -/

/-- A deletion up to its statement: connection and table, unless an observer refused it. -/
def prepareDeletion (d : Driver σ) (schema : Schema) :
    RecordAction σ (Option (Connection × String)) := do
  if !(← before .deleting) then return none
  let c ← inSession (Action.connectionOf d schema)
  let table ← inSession (Action.tableOf schema)
  return some (c, table)

def finishDeletion (i : Identity) (deleted : Nat) : RecordAction σ Bool := do
  let _ ← inSession (Action.forgetRecord i)
  after .deleted
  change Record.void
  return 0 < deleted

theorem delete_eq (d : Driver σ) : delete d = (do
    let r ← record
    check r.ensureLive
    match r.key? with
    | none => return false
    | some key =>
      match ← prepareDeletion d r.schema with
      | none => return false
      | some (c, table) =>
        let deleted ← inSession (Action.delete d c table [.key r.schema.primaryKey key])
        finishDeletion (.of r.model key) deleted) := by
  unfold delete prepareDeletion finishDeletion
  refine bind_congr fun r => bind_congr fun _ => ?_
  cases r.key? with
  | none => rfl
  | some key =>
    simp only [bind_assoc]
    refine bind_congr fun allowed => ?_
    split
    · simp only [pure_bind]
    · simp only [bind_assoc, pure_bind]

/-- Neither statement nor use of the identity map comes before the deletion's own. -/
theorem keeps_prepareDeletion {R : Session σ → Session σ → Prop} {d : Driver σ}
    (hR : Action.Quiet d R) (schema : Schema) :
    Keeps (Focus.Across R) (prepareDeletion d schema) := by
  have hF := chained_across hR.toChained
  apply hF.seq (hR.before .deleting)
  intro allowed
  split
  · exact hF.result _
  · apply hF.seq (across_inSession (hR.connectionOf schema))
    intro c
    apply hF.seq (across_inSession (hR.tableOf schema))
    exact fun _ => hF.result _

theorem prepareDeletion_table {d : Driver σ} {schema : Schema} {c : Connection} {table : String}
    {f g : Focus σ} (h : prepareDeletion d schema f = .ok (some (c, table)) g) :
    ∃ start, DatabaseConfig.tablePrefix f.session.config schema.connection = .ok start ∧
      table = start ++ schema.table := by
  have hsetup := Action.remembering_setup d
  obtain ⟨allowed, f₁, hbefore, h⟩ := bind_eq_ok.1 h
  split at h
  · cases h
  · obtain ⟨_, f₂, hconnect, h⟩ := bind_eq_ok.1 h
    obtain ⟨_, f₃, htable, h⟩ := bind_eq_ok.1 h
    cases h
    have hconfig : f₂.session.config = f.session.config := by
      have h₁ := (hsetup.before .deleting).of_ok hbefore
      have h₂ := (across_inSession (hsetup.connectionOf schema)).of_ok hconnect
      exact h₂.config.trans h₁.config
    obtain ⟨s, hrun, -⟩ := inSession_eq_ok.1 htable
    obtain ⟨start, s', hprefix, hresult⟩ := bind_eq_ok.1 hrun
    cases hresult
    refine ⟨start, ?_, rfl⟩
    rw [← hconfig]
    exact (Action.tablePrefix_eq_ok.1 hprefix).1

/-- After its statement a deletion drops the copy of a row, voids the record and succeeds. -/
theorem finishDeletion_eq (i : Identity) (deleted : Nat) (f : Focus σ) :
    ∃ notices, finishDeletion i deleted f = .ok (0 < deleted)
      ⟨{ f.session with identities := (f.session.identities.invalidate i).2, notices },
        f.record.void⟩ := by
  let dropped : Focus σ := { f with session := { f.session with
    identities := (f.session.identities.invalidate i).2 } }
  have hforget : inSession (Action.forgetRecord i) f =
      .ok (f.session.identities.invalidate i).1 dropped := rfl
  obtain ⟨notices, hafter⟩ := after_eq_ok .deleted dropped
  refine ⟨notices, ?_⟩
  rw [finishDeletion, bind_of_ok hforget, bind_of_ok hafter]
  rfl

/-- A deletion either sends nothing, or it is prepared and goes on from there with its statement. -/
theorem delete_cases (d : Driver σ) (f : Focus σ) :
    (final (delete d f)).session.sent = f.session.sent ∨
      ∃ key c table g, f.record.key? = some key ∧
        prepareDeletion d f.record.schema f = .ok (some (c, table)) g ∧
          delete d f = (do
            let deleted ← inSession
              (Action.delete d c table [.key f.record.schema.primaryKey key])
            finishDeletion (.of f.record.model key) deleted) g := by
  have hquiet := keeps_prepareDeletion (Action.quiet_sent d) f.record.schema
  rw [delete_eq, record_bind]
  cases hlive : f.record.ensureLive with
  | error e => exact .inl rfl
  | ok _ =>
    rw [bind_of_ok (check_eq_ok.2 ⟨rfl, rfl⟩)]
    cases hkey : f.record.key? with
    | none => exact .inl rfl
    | some key =>
      dsimp only
      cases hprepare : prepareDeletion d f.record.schema f with
      | error e g =>
        left
        rw [bind_of_error hprepare]
        exact hquiet.of_error hprepare
      | ok target g =>
        rw [bind_of_ok hprepare]
        cases target with
        | none => exact .inl (hquiet.of_ok hprepare)
        | some target => exact .inr ⟨key, target.1, target.2, g, rfl, rfl, rfl⟩

/-! ## The row that is deleted -/

/-- A statement deletes the rows with a key from the table of a model, and binds the key alone. -/
def Deletes (s : Session σ) (schema : Schema) (key : Value) (sql : String) : Prop :=
  ∃ start dialect statement,
    DatabaseConfig.tablePrefix s.config schema.connection = .ok start ∧
      deletion dialect (start ++ schema.table) [.key schema.primaryKey key] = .ok statement ∧
        statement.toPositional dialect = .ok (sql, [key])

/-- The deletion of a record deletes the row of a key: it sends one statement, which does so, and no
copy of the row is left when it succeeds. -/
def DeletesRow (d : Driver σ) (s : Session σ) (r : Record) (key : Value) : Prop :=
  (∃ sql, Deletes s r.schema key sql ∧
    (final (delete d ⟨s, r⟩)).session.sent = s.sent ++ [(sql, [key])]) ∧
    ∀ deleted g, delete d ⟨s, r⟩ = .ok deleted g →
      g.session.identities.find? (.of r.model key) = none

/-- Of a deletion that sends something, the statement and what becomes of the copies. -/
theorem delete_of_sent {d : Driver σ} {s : Session σ} {r : Record}
    (hsent : (final (delete d ⟨s, r⟩)).session.sent ≠ s.sent) :
    ∃ key start dialect statement sql, r.key? = some key ∧
      DatabaseConfig.tablePrefix s.config r.schema.connection = .ok start ∧
        deletion dialect (start ++ r.schema.table) [.key r.schema.primaryKey key] = .ok statement ∧
          statement.toPositional dialect = .ok (sql, statement.params) ∧
        (final (delete d ⟨s, r⟩)).session.sent = s.sent ++ [(sql, statement.params)] ∧
          ∀ deleted g, delete d ⟨s, r⟩ = .ok deleted g →
            g.session.identities = (s.identities.invalidate (.of r.model key)).2 := by
  rcases delete_cases d ⟨s, r⟩ with h | ⟨key, c, table, g, hkey, hprepare, hrun⟩
  · exact absurd h hsent
  have hquiet : g.session.sent = s.sent :=
    (keeps_prepareDeletion (Action.quiet_sent d) r.schema).of_ok hprepare
  have hcopies : g.session.identities = s.identities :=
    (keeps_prepareDeletion (Action.sending_identities d).toQuiet r.schema).of_ok hprepare
  have hkept := (Action.sending_identities d).delete c table [.key r.schema.primaryKey key]
  rcases Action.delete_cases d c table [.key r.schema.primaryKey key] g.session with
    ⟨e, hfail⟩ | ⟨statement, sql, hdeletion, hpositional, hsend⟩
  · have hnothing := inSession_eq_error.2 ⟨g.session, hfail, rfl⟩
    rw [hrun, bind_of_error hnothing] at hsent
    exact absurd hquiet hsent
  obtain ⟨start, hprefix, htable⟩ := prepareDeletion_table hprepare
  refine ⟨key, start, c.dialect, statement, sql, hkey, hprefix, htable ▸ hdeletion, hpositional, ?_⟩
  rw [hrun]
  cases hrows : Action.delete d c table [.key r.schema.primaryKey key] g.session with
  | error e t =>
    rw [hrows] at hsend
    rw [bind_of_error (inSession_eq_error.2 ⟨t, hrows, rfl⟩), ← hquiet]
    exact ⟨hsend, fun _ _ h => nomatch h⟩
  | ok deleted t =>
    rw [hrows] at hsend
    have hsame : t.identities = g.session.identities := hkept.of_ok hrows
    obtain ⟨notices, hfinish⟩ := finishDeletion_eq (.of r.model key) deleted { g with session := t }
    rw [bind_of_ok (inSession_eq_ok.2 ⟨t, hrows, rfl⟩), hfinish, ← hquiet]
    refine ⟨hsend, fun _ _ h => ?_⟩
    cases h
    rw [← hcopies, ← hsame]

/-- A deletion that sends something deletes the row of the key that the record has then. -/
theorem deletesRow_iff {d : Driver σ} {s : Session σ} {r : Record} {key : Value}
    (hsent : (final (delete d ⟨s, r⟩)).session.sent ≠ s.sent) :
    DeletesRow d s r key ↔
      r.key? = some key ∧ Condition.isRawColumn r.schema.primaryKey = false := by
  obtain ⟨current, start, dialect, statement, sql, hcurrent, hprefix, hdeletion, hpositional, hlog,
    hcopies⟩ := delete_of_sent hsent
  have hnull := Record.ne_null_of_key? hcurrent
  have hparams := params_deletion_key hnull hdeletion
  constructor
  · rintro ⟨⟨sql', -, hlog'⟩, -⟩
    have hkey : statement.params = [key] := by
      have hentry := List.append_cancel_left (hlog.symm.trans hlog')
      simp only [List.cons.injEq, Prod.mk.injEq] at hentry
      exact hentry.1.2
    rw [hparams] at hkey
    by_cases hraw : Condition.isRawColumn r.schema.primaryKey = true
    · simp [hraw] at hkey
    · simp only [hraw, Bool.false_eq_true, if_false, List.cons.injEq, and_true] at hkey
      exact ⟨hkey ▸ hcurrent, by simpa using hraw⟩
  · rintro ⟨hkey, hplain⟩
    cases hcurrent.symm.trans hkey
    have hbound : statement.params = [key] := by
      rw [hparams, hplain]
      rfl
    rw [hbound] at hpositional hlog
    refine ⟨⟨sql, ⟨start, dialect, statement, hprefix, hdeletion, hpositional⟩, hlog⟩,
      fun deleted g h => ?_⟩
    rw [hcopies deleted g h]
    exact IdentityMap.find?_invalidate_self _ _

/-- Of a loaded record to which anything was assigned, the deletion deletes the stored row just
when the record still has the key that was loaded, or has it again. Otherwise it deletes the row
of the assigned key, although the stored key is known and an update would use it. -/
theorem delete_loaded_iff {d : Driver σ} {s : Session σ} {schema : Schema} {row : Row}
    {filter : ImportFilter} {r : Record} {key : Value}
    (hkey : (Record.ofRow schema row filter).key? = some key)
    (hr : Edit.Assigned (Record.ofRow schema row filter) r)
    (hsent : (final (delete d ⟨s, r⟩)).session.sent ≠ s.sent) :
    storedKey r = key ∧
      (DeletesRow d s r key ↔
        r.key? = some key ∧ Condition.isRawColumn schema.primaryKey = false) ∧
      (Condition.isRawColumn schema.primaryKey = false →
        ∃ current, r.key? = some current ∧ DeletesRow d s r current) := by
  have hloaded := Record.loaded_ofRow schema row filter
  have htracks := hr.tracks_key hloaded hkey
  have hschema : r.schema = schema := htracks.schema.trans hloaded.schema
  have hiff (k : Value) : DeletesRow d s r k ↔ _ := deletesRow_iff hsent
  rw [hschema] at hiff
  have hstored : storedKey r = key := by
    apply storedKey_of_tracks hkey
    rw [hloaded.schema]
    exact htracks
  refine ⟨hstored, hiff key, fun hplain => ?_⟩
  obtain ⟨current, _, _, _, _, hcurrent, -⟩ := delete_of_sent hsent
  exact ⟨current, hcurrent, (hiff current).2 ⟨hcurrent, hplain⟩⟩

def accountSample : Schema := (Schema.new "Account" "accounts").withColumn "number" .bigInt

def loadedAccount : Record := Record.ofRow accountSample [("id", .int64 5), ("number", .int64 1)]

def accountSession : Session Scripted.Servers :=
  { Scripted.session [accountSample] with identities := ({} : IdentityMap).store loadedAccount }

def rekeyedAccount : Record := final (Edit.assign "id" (.scalar (.int64 6)) loadedAccount)

theorem rekeyedAccount_sent : (final (delete Scripted.driver
    ⟨accountSession, rekeyedAccount⟩)).session.sent ≠ accountSession.sent := by
  intro h
  have hlength := congrArg List.length h
  revert hlength
  decide +kernel

theorem loadedAccount_key : loadedAccount.key? = some (.int64 5) := by
  have hread : loadedAccount.key?.any (·.equal (.int64 5)) = true := by decide +kernel
  simpa [Option.any_eq_true] using hread

theorem rekeyedAccount_key : rekeyedAccount.key? = some (.int64 6) := by
  have hread : rekeyedAccount.key?.any (·.equal (.int64 6)) = true := by decide +kernel
  simpa [Option.any_eq_true] using hread

theorem rekeyedAccount_storedKey : storedKey rekeyedAccount = .int64 5 ∧
    (DeletesRow Scripted.driver accountSession rekeyedAccount (.int64 5) ↔
      rekeyedAccount.key? = some (.int64 5) ∧ Condition.isRawColumn "id" = false) := by
  have h := delete_loaded_iff loadedAccount_key
    (.assign .start "id" (.scalar (.int64 6))) rekeyedAccount_sent
  exact ⟨h.1, h.2.1⟩

/-- The deletion of the record that was loaded as 5 takes the row 6 and leaves the copy of 5. -/
theorem rekeyedAccount_not_deletesRow :
    Edit.Assigned loadedAccount rekeyedAccount ∧ loadedAccount.key? = some (.int64 5) ∧
      DeletesRow Scripted.driver accountSession rekeyedAccount (.int64 6) ∧
      ¬ DeletesRow Scripted.driver accountSession rekeyedAccount (.int64 5) ∧
      (final (delete Scripted.driver ⟨accountSession, rekeyedAccount⟩)).session.identities.contains
        (.of "Account" (.int64 5)) = true := by
  have hplain : Condition.isRawColumn rekeyedAccount.schema.primaryKey = false := by decide +kernel
  refine ⟨.assign .start "id" (.scalar (.int64 6)), loadedAccount_key, ?_, ?_, by decide +kernel⟩
  · exact (deletesRow_iff rekeyedAccount_sent).2 ⟨rekeyedAccount_key, hplain⟩
  · rw [deletesRow_iff rekeyedAccount_sent, rekeyedAccount_key]
    simp

end RecordAction

end RowMapper
