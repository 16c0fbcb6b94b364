import RowMapper.Proofs.Session.Inserts
import RowMapper.Proofs.Session.RowUpdates
import RowMapper.Proofs.Session.Verbs

/-! # The first save

Whether a save inserts or updates is decided by the key that the record has when it
was admitted: after the observers of saving and after validation. Without a key the row
is inserted first of all, and nothing of the save is an update. With a key, whoever
gave it, the row is updated and never inserted.
-/

namespace RowMapper

open Run Sql

variable {σ : Type}

/-- The statement that inserts those columns of a record that are not null and asks for the key,
with its values. -/
def insertsRow (d : Dialect) (table : String) (r : Record) : String × List Value :=
  let columns := (r.data.filter fun entry => !entry.2.isNull).map Prod.fst
  (sentInsert d table columns [r.data] { returning := some r.schema.primaryKey } "",
    insertedValues d columns [r.data])

namespace RecordAction

open RowMapper.Action

variable {P : String → Prop} {d : Driver σ} {f f₁ f₂ g : Focus σ}

/-! ## The parts of a save -/

/-- Whether a save may write: the record is live, no observer objects, and it is valid. -/
def admitted : RecordAction σ Bool := do
  check (← record).ensureLive
  if !(← before .saving) then return false
  validate

def prepared : RecordAction σ Bool := do
  stampNow true
  before .creating

/-- Send the row of a new record and take over the key that it was given. -/
def sendRow (d : Driver σ) : RecordAction σ Bool := do
  let r ← record
  let c ← inSession (Action.connectionOf d r.schema)
  let table ← inSession (Action.tableOf r.schema)
  let options : InsertOptions := { returning := some r.schema.primaryKey }
  match ← inSession (Action.insert d c table [r.data] options) with
  | some key => change fun r => r.withKey key
  | none => pure ()
  after .created
  return true

theorem saveRow_eq (d : Driver σ) : saveRow d = (do
    if !(← admitted) then return none
    let inserting := (← record).isNew
    if !(← writeRow d) then return none
    return some inserting) := by
  unfold saveRow admitted
  simp only [bind_assoc]
  refine bind_congr fun _ => bind_congr fun _ => bind_congr fun allowed => ?_
  cases allowed <;> rfl

theorem insertRow_eq (d : Driver σ) : insertRow d = (do
    if !(← prepared) then return false
    sendRow d) := by
  unfold insertRow prepared
  simp only [bind_assoc]
  rfl

theorem quiet_admitted {R : Session σ → Session σ → Prop} (hR : Quiet d R) :
    Keeps (Focus.Across R) (admitted : RecordAction σ Bool) := by
  have hF := chained_across hR.toChained
  refine hF.seq (across_record hR.toChained) fun r => ?_
  refine hF.seq (across_check hR.toChained _) fun _ => ?_
  refine hF.seq (hR.before .saving) fun allowed => ?_
  split
  · exact hF.result _
  exact keeps_validate hF (hR.before .validating) (fun _ => across_change hR.toChained _)
    (hR.after .validated)

theorem quiet_stampNow {R : Session σ → Session σ → Prop} (hR : Chained R) (inserting : Bool) :
    Keeps (Focus.Across R) (stampNow inserting : RecordAction σ Unit) :=
  (chained_across hR).seq (chained_across hR).read fun _ => across_change hR _

theorem quiet_prepared {R : Session σ → Session σ → Prop} (hR : Quiet d R) :
    Keeps (Focus.Across R) (prepared : RecordAction σ Bool) :=
  (chained_across hR.toChained).seq (quiet_stampNow hR.toChained true) fun _ => hR.before .creating

theorem quiet_until_prepared {R : Session σ → Session σ → Prop} (hR : Quiet d R)
    (hadmitted : admitted f = .ok true f₁) (hprepared : prepared f₁ = .ok true f₂) :
    R f.session f₂.session :=
  hR.trans ((quiet_admitted hR).of_ok hadmitted) ((quiet_prepared hR).of_ok hprepared)

theorem quiet_afterwards {R : Session σ → Session σ → Prop} (hR : Quiet d R) (e : Event) :
    Keeps (Focus.Across R) (after e >>= fun _ => pure true : RecordAction σ Bool) :=
  (chained_across hR.toChained).seq (hR.after e) fun _ => (chained_across hR.toChained).result _

/-! ## What holds across the statements of a save -/

section

variable {R : Session σ → Session σ → Prop}

theorem across_sendRow (hR : Opening d R)
    (htold : Keeps (Focus.Across R) (after .created : RecordAction σ Unit))
    (hinsert : ∀ c table rows options, Keeps R (Action.insert d c table rows options)) :
    Keeps (Focus.Across R) (sendRow d) := by
  have hF := chained_across hR.toChained
  refine hF.seq (across_record hR.toChained) fun r => ?_
  refine hF.seq (across_inSession (hR.connectionOf r.schema)) fun c => ?_
  refine hF.seq (across_inSession (hR.tableOf r.schema)) fun table => ?_
  refine hF.seq (across_inSession (hinsert c table _ _)) fun given => ?_
  cases given with
  | none => exact hF.seq htold fun _ => hF.result _
  | some key =>
    exact hF.seq (across_change hR.toChained _) fun _ => hF.seq htold fun _ => hF.result _

theorem across_updateColumns (hR : Opening d R)
    (hupdate : ∀ c table values conditions writeNulls,
      Keeps R (Action.update d c table values conditions writeNulls))
    (hforget : ∀ i, Keeps R (Action.forgetRecord (σ := σ) i)) :
    Keeps (Focus.Across R) (updateColumns d) := by
  have hF := chained_across hR.toChained
  refine hF.seq (quiet_stampNow hR.toChained false) fun _ => ?_
  refine hF.seq (across_record hR.toChained) fun r => ?_
  refine hF.seq (across_inSession (hR.connectionOf r.schema)) fun c => ?_
  refine hF.seq (across_inSession (hR.tableOf r.schema)) fun table => ?_
  refine hF.seq (across_inSession (hupdate c table _ _ _)) fun _ => ?_
  exact hF.seq (across_inSession (hforget _)) fun _ => hF.result _

theorem across_finishSave (hR : Chained R)
    (htold : Keeps (Focus.Across R) (after .saved : RecordAction σ Unit))
    (hremember : ∀ r, Keeps R (Action.rememberRecord (σ := σ) r)) (inserting : Bool) :
    Keeps (Focus.Across R) (finishSave inserting : RecordAction σ Bool) := by
  have hF := chained_across hR
  refine hF.seq htold fun _ => ?_
  refine hF.seq (across_change hR _) fun _ => ?_
  cases inserting with
  | false => exact hF.result _
  | true =>
    refine hF.seq (across_record hR) fun r => ?_
    exact hF.seq (across_inSession (hremember r)) fun _ => hF.result _

end

/-! ## The row of a new record -/

theorem sent_insert_row (d : Driver σ) (c : Connection) (table : String) (r : Record)
    (s : Session σ) :
    (final (Action.insert d c table [r.data] { returning := some r.schema.primaryKey } s)).sent =
      s.sent ++ [insertsRow c.dialect table r] := by
  obtain ⟨statement, hstatement, hsent⟩ : ∃ statement,
      insertion c.dialect table [r.data] { returning := some r.schema.primaryKey } =
        .ok (some statement) ∧
      statement.toPositional c.dialect = .ok (insertsRow c.dialect table r) :=
    insertion_sent table r.data [] rfl fun _ => rfl
  exact sent_insert d hstatement hsent s

theorem sent_bind {α β : Type} {x : RecordAction σ α} {k : α → RecordAction σ β}
    (hk : ∀ a, Keeps (Focus.Across fun s t => t.sent = s.sent) (k a)) (f : Focus σ) :
    (final ((x >>= k) f)).session.sent = (final (x f)).session.sent := by
  cases h : x f with
  | ok a g =>
    rw [bind_of_ok h]
    exact hk a g
  | error e g =>
    rw [bind_of_error h]
    rfl

/-- Where its table can be reached the row is sent alone, whatever becomes of it. -/
theorem sent_sendRow {c : Connection} {t : Session σ} {start : String}
    (hc : Action.connectionOf d f.record.schema f.session = .ok c t)
    (hstart : DatabaseConfig.tablePrefix f.session.config f.record.schema.connection = .ok start) :
    (final (sendRow d f)).session.sent =
      f.session.sent ++ [insertsRow c.dialect (start ++ f.record.schema.table) f.record] := by
  have hR := quiet_sent d
  have hconfig : t.config = f.session.config :=
    (((remembering_setup d).connectionOf f.record.schema).of_ok hc).config
  have hquiet : t.sent = f.session.sent := (hR.connectionOf _).of_ok hc
  have hnamed : Action.tableOf f.record.schema t = .ok (start ++ f.record.schema.table) t :=
    bind_of_ok (tablePrefix_eq_ok.2 ⟨hconfig ▸ hstart, rfl⟩) _
  have htold := quiet_afterwards hR .created
  have hconnect := inSession_eq_ok.2 ⟨t, hc, rfl⟩
  have htable := inSession_eq_ok (f := ⟨t, f.record⟩).2 ⟨t, hnamed, rfl⟩
  unfold sendRow
  rw [record_bind, bind_of_ok hconnect, bind_of_ok htable, sent_bind, session_final_inSession,
    sent_insert_row, hquiet]
  intro given
  cases given with
  | none => exact htold
  | some key =>
    exact (chained_across hR.toChained).seq (across_change hR.toChained _) fun _ => htold

theorem reached_of_sendRow {b : Bool} (h : sendRow d f = .ok b g) : ∃ c t start,
    Action.connectionOf d f.record.schema f.session = .ok c t ∧
      DatabaseConfig.tablePrefix f.session.config f.record.schema.connection = .ok start := by
  unfold sendRow at h
  rw [record_bind] at h
  obtain ⟨c, f₁, hconnect, h⟩ := bind_eq_ok.1 h
  obtain ⟨t, hc, rfl⟩ := inSession_eq_ok.1 hconnect
  obtain ⟨table, f₂, hnamed, -⟩ := bind_eq_ok.1 h
  obtain ⟨u, htable, -⟩ := inSession_eq_ok.1 hnamed
  obtain ⟨start, v, hprefix, -⟩ := bind_eq_ok.1 htable
  have hconfig : t.config = f.session.config :=
    (((remembering_setup d).connectionOf f.record.schema).of_ok hc).config
  exact ⟨c, t, start, hc, hconfig ▸ (tablePrefix_eq_ok.1 hprefix).1⟩

/-- A save gets as far as sending a row: its record is admitted and prepared, and the table of it
can be reached. -/
def Reaches (d : Driver σ) (f : Focus σ) (r : Record) (c : Connection) (table : String) : Prop :=
  ∃ f₁ f₂ t start, admitted f = .ok true f₁ ∧ prepared f₁ = .ok true f₂ ∧ f₂.record = r ∧
    Action.connectionOf d r.schema f₂.session = .ok c t ∧
    DatabaseConfig.tablePrefix f.session.config r.schema.connection = .ok start ∧
    table = start ++ r.schema.table

/-! ## What a save sends -/

theorem sendsOnly_insertRow (hword : P "INSERT") :
    Keeps (Focus.Across (Session.SendsOnly P)) (insertRow d) := by
  have hR := quiet_sendsOnly d P
  have hF := chained_across hR.toChained
  rw [insertRow_eq]
  refine hF.seq (quiet_prepared hR) fun ready => ?_
  split
  · exact hF.result _
  · exact across_sendRow hR.toOpening (hR.after .created)
      fun c table rows options => sendsOnly_insert d c table rows options hword

theorem sendsOnly_updateRow (hword : P "UPDATE") :
    Keeps (Focus.Across (Session.SendsOnly P)) (updateRow d) := by
  have hR := quiet_sendsOnly d P
  have hF := chained_across hR.toChained
  have hcolumns : Keeps (Focus.Across (Session.SendsOnly P)) (updateColumns d) :=
    across_updateColumns hR.toOpening (fun c table values conditions writeNulls =>
      sendsOnly_update d c table values conditions writeNulls hword)
      fun i s => sendsOnly_of_sent_eq rfl
  have htold := quiet_afterwards hR .updated
  refine hF.seq (hR.before .updating) fun allowed => ?_
  split
  · exact hF.result _
  refine hF.seq (across_record hR.toChained) fun r => ?_
  split
  · exact hF.seq hcolumns fun _ => htold
  · exact htold

theorem sendsOnly_saveLinks (hwords : ∀ word ∈ linkVerbs, P word) :
    Keeps (Focus.Across (Session.SendsOnly P)) (saveLinks d) :=
  fun _ => (linking_sendsOnly d hwords).saveLinks fun _ _ _ _ _ _ => trivial

theorem quiet_finishSave (d : Driver σ) (inserting : Bool) :
    Keeps (Focus.Across fun s t => t.sent = s.sent)
      (finishSave inserting : RecordAction σ Bool) :=
  across_finishSave (quiet_sent d).toChained ((quiet_sent d).after .saved) (fun _ _ => rfl)
    inserting

/-! ## Rows and admitted records -/

theorem saveRow_of_admitted (h : admitted f = .ok true f₁) : saveRow d f =
    (writeRow d >>= fun written => pure (if written then some f₁.record.isNew else none)) f₁ := by
  rw [saveRow_eq, bind_of_ok h]
  simp only [Bool.not_true, Bool.false_eq_true, if_false, record_bind]
  simp only [bind, EStateM.bind]
  rcases writeRow d f₁ with ⟨_ | _, g⟩ | ⟨e, g⟩ <;> rfl

/-- Without being admitted no row is written. -/
theorem saveRow_of_not_admitted (h : ∀ f₁, admitted f ≠ .ok true f₁) :
    (∀ inserting g, saveRow d f ≠ .ok (some inserting) g) ∧
      final (saveRow d f) = final (admitted f) := by
  rw [saveRow_eq]
  cases hadmitted : admitted f with
  | error e g =>
    rw [bind_of_error hadmitted]
    refine ⟨fun _ _ hsome => ?_, rfl⟩
    cases hsome
  | ok b g =>
    cases b with
    | true => exact absurd hadmitted (h g)
    | false =>
      rw [bind_of_ok hadmitted]
      refine ⟨fun _ _ hsome => ?_, rfl⟩
      cases hsome

/-- The verb of the row's statement is decided by the key that the admitted record has. -/
theorem sendsOnly_saveRow (hword : ∀ f₁, admitted f = .ok true f₁ →
    P (if f₁.record.isNew then "INSERT" else "UPDATE")) :
    f.session.SendsOnly P (final (saveRow d f)).session := by
  have hR := quiet_sendsOnly d P
  have hadmit : f.session.SendsOnly P (final (admitted f)).session := quiet_admitted hR f
  by_cases h : ∃ f₁, admitted f = .ok true f₁
  · obtain ⟨f₁, h⟩ := h
    have hverb := hword f₁ h
    rw [h] at hadmit
    refine hR.trans hadmit ?_
    rw [saveRow_of_admitted h, final_bind_pure]
    unfold writeRow
    rw [record_bind]
    cases hnew : f₁.record.isNew with
    | true =>
      rw [hnew, if_pos rfl] at hverb
      exact sendsOnly_insertRow hverb f₁
    | false =>
      rw [hnew, if_neg Bool.false_ne_true] at hverb
      exact sendsOnly_updateRow hverb f₁
  · rwa [(saveRow_of_not_admitted (not_exists.1 h)).2]

/-- After the row only links are written. -/
theorem sendsOnly_of_saveRow (hwords : ∀ word ∈ linkVerbs, P word) :
    (final (saveRow d f)).session.SendsOnly P (final (save d f)).session := by
  have hR := chained_sendsOnly (σ := σ) P
  have hF := chained_across hR
  have hfinish (inserting : Bool) :
      Keeps (Focus.Across (Session.SendsOnly P)) (finishSave inserting : RecordAction σ Bool) :=
    fun g => sendsOnly_of_sent_eq (quiet_finishSave d inserting g)
  rw [save_eq]
  cases hrow : saveRow d f with
  | error e g =>
    rw [bind_of_error hrow]
    exact hR.refl _
  | ok written g =>
    rw [bind_of_ok hrow]
    cases written with
    | none => exact hR.refl _
    | some inserting => exact hF.seq (sendsOnly_saveLinks hwords) (fun _ => hfinish inserting) g

theorem writeRow_of_save (h : save d f = .ok true g) :
    ∃ f₁ g₁, admitted f = .ok true f₁ ∧ writeRow d f₁ = .ok true g₁ := by
  rw [save_eq] at h
  obtain ⟨written, g₁, hrow, h⟩ := bind_eq_ok.1 h
  cases written with
  | none => cases h
  | some inserting =>
    by_cases hadmitted : ∃ f₁, admitted f = .ok true f₁
    · obtain ⟨f₁, hadmitted⟩ := hadmitted
      rw [saveRow_of_admitted hadmitted] at hrow
      obtain ⟨b, g₂, hwrite, hpure⟩ := bind_eq_ok.1 hrow
      obtain ⟨hsome, rfl⟩ := pure_eq_ok.1 hpure
      cases b with
      | false => cases hsome
      | true => exact ⟨f₁, g₂, hadmitted, hwrite⟩
    · exact absurd hrow ((saveRow_of_not_admitted (not_exists.1 hadmitted)).1 inserting g₁)

theorem validate_of_unobserved (h : Unobserved f) : validate f =
    .ok f.record.validate.isEmpty ⟨f.session, { f.record with errors := f.record.validate }⟩ := by
  have hafter : Unobserved ⟨f.session, { f.record with errors := f.record.validate }⟩ := h
  unfold validate
  rw [bind_of_ok (before_of_unobserved h .validating)]
  simp only [Bool.not_true, Bool.false_eq_true, if_false, record_bind]
  exact bind_of_ok (after_of_unobserved hafter .validated) _

theorem admitted_of_live (h : Unobserved f) (hlive : f.record.voided = false) :
    admitted f = .ok f.record.validate.isEmpty
      ⟨f.session, { f.record with errors := f.record.validate }⟩ := by
  unfold admitted
  rw [record_bind, bind_of_ok (check_ensureLive hlive),
    bind_of_ok (before_of_unobserved h .saving)]
  simp only [Bool.not_true, Bool.false_eq_true, if_false]
  exact validate_of_unobserved h

theorem admitted_of_voided (h : f.record.voided = true) :
    admitted f = .error (.voided f.record.model) f := by
  unfold admitted
  rw [record_bind, Record.ensureLive, h]
  rfl

theorem live_of_admitted {b : Bool} (h : admitted f = .ok b f₁) : f.record.voided = false := by
  unfold admitted at h
  rw [record_bind] at h
  obtain ⟨_, f₂, hlive, -⟩ := bind_eq_ok.1 h
  have hok := (RecordAction.check_eq_ok.1 hlive).1
  unfold Record.ensureLive at hok
  split at hok
  · cases hok
  · next hv => simpa using hv

/-- Without observers the admitted record is the one that is saved. -/
theorem admitted_of_unobserved (h : Unobserved f) (hadmitted : admitted f = .ok true f₁) :
    f₁ = ⟨f.session, { f.record with errors := f.record.validate }⟩ := by
  rw [admitted_of_live h (live_of_admitted hadmitted)] at hadmitted
  injection hadmitted with hvalid hfocus
  exact hfocus.symm

theorem prepared_of_unobserved (h : Unobserved f) : prepared f = .ok true ⟨f.session,
    stampAll (.timestamp f.session.now.wholeSecond) f.session.user true f.record⟩ := by
  have hstamped : Unobserved (⟨f.session, stampAll (.timestamp f.session.now.wholeSecond)
      f.session.user true f.record⟩ : Focus σ) := by
    change f.session.observers.ofModel (stampAll _ _ true f.record).schema.name = []
    rw [(keepsLinks_stampAll _ _ true f.record).1]
    exact h
  exact (bind_of_ok rfl _).trans (before_of_unobserved hstamped .creating)

/-! ## The first save -/

theorem saveRow_of_new (h : admitted f = .ok true f₁) (hnew : f₁.record.key? = none) :
    final (saveRow d f) = final (insertRow d f₁) := by
  rw [saveRow_of_admitted h, final_bind_pure]
  unfold writeRow
  rw [record_bind, Record.isNew, hnew]
  rfl

/-- The row of a new record is the first that is sent, whatever becomes of it. -/
theorem sent_of_reaches {r : Record} {c : Connection} {table : String}
    (hnew : ∀ f₁, admitted f = .ok true f₁ → f₁.record.key? = none)
    (h : Reaches d f r c table) :
    (final (saveRow d f)).session.sent = f.session.sent ++ [insertsRow c.dialect table r] := by
  obtain ⟨f₁, f₂, t, start, hadmitted, hprepared, rfl, hc, hstart, rfl⟩ := h
  have hquiet : f₂.session.sent = f.session.sent :=
    quiet_until_prepared (quiet_sent d) hadmitted hprepared
  have hconfig : f₂.session.config = f.session.config :=
    (quiet_until_prepared (remembering_setup d).toQuiet hadmitted hprepared).config
  rw [saveRow_of_new hadmitted (hnew f₁ hadmitted), insertRow_eq, bind_of_ok hprepared]
  exact (sent_sendRow hc (hconfig ▸ hstart)).trans (by rw [hquiet])

/-- A save that succeeds has sent the row of its new record. -/
theorem reaches_of_save (hnew : ∀ f₁, admitted f = .ok true f₁ → f₁.record.key? = none)
    (h : save d f = .ok true g) : ∃ r c table, Reaches d f r c table := by
  obtain ⟨f₁, g₁, hadmitted, hwrite⟩ := writeRow_of_save h
  have hinsert : insertRow d f₁ = .ok true g₁ := by
    unfold writeRow at hwrite
    rwa [record_bind, Record.isNew, hnew f₁ hadmitted] at hwrite
  rw [insertRow_eq] at hinsert
  obtain ⟨ready, f₂, hprepared, hsend⟩ := bind_eq_ok.1 hinsert
  cases ready with
  | false => cases hsend
  | true =>
    obtain ⟨c, t, start, hc, hstart⟩ := reached_of_sendRow hsend
    have hconfig : f₂.session.config = f.session.config :=
      (quiet_until_prepared (remembering_setup d).toQuiet hadmitted hprepared).config
    exact ⟨_, c, _, f₁, f₂, t, start, hadmitted, hprepared, rfl, hc, hconfig ▸ hstart, rfl⟩

/-- A save of which no admitted record has a key sends no update. Where it gets as far as sending
the row, it first of all inserts the columns that are not null when the record is prepared, whatever
becomes of it, and it gets as far as that when it succeeds. A save of an admitted record with a key
sends no insert for the row. Without observers the admitted record is the one that was saved, and it
is prepared by stamping it. -/
theorem first_save_inserts (d : Driver σ) (f : Focus σ) :
    ((∀ f₁, admitted f = .ok true f₁ → f₁.record.key? = none) →
      f.session.SendsOnly (· ≠ "UPDATE") (final (save d f)).session ∧
      (∀ g, save d f = .ok true g → ∃ r c table, Reaches d f r c table) ∧
      ∀ r c table, Reaches d f r c table → ∃ rest, (final (save d f)).session.sent =
        f.session.sent ++ insertsRow c.dialect table r :: rest) ∧
    (∀ f₁ key, admitted f = .ok true f₁ → f₁.record.key? = some key →
      f.session.SendsOnly (· = "UPDATE") (final (saveRow d f)).session) ∧
    (Unobserved f → ∀ f₁, admitted f = .ok true f₁ →
      f₁ = ⟨f.session, { f.record with errors := f.record.validate }⟩ ∧
      prepared f₁ = .ok true ⟨f.session,
        stampAll (.timestamp f.session.now.wholeSecond) f.session.user true f₁.record⟩) := by
  refine ⟨fun hnew => ?_, fun f₁ key h hkey => ?_, fun hnone f₁ h => ?_⟩
  · have hwords : ∀ word ∈ linkVerbs, word ≠ "UPDATE" := by decide
    have hrow : f.session.SendsOnly (· ≠ "UPDATE") (final (saveRow d f)).session := by
      refine sendsOnly_saveRow fun f₁ h => ?_
      rw [Record.isNew, hnew f₁ h]
      decide
    have hlinks := sendsOnly_of_saveRow (d := d) (f := f) hwords
    refine ⟨(chained_sendsOnly _).trans hrow hlinks, fun g => reaches_of_save hnew, ?_⟩
    intro r c table h
    obtain ⟨rest, hrest, -⟩ := hlinks
    exact ⟨rest, by rw [hrest, sent_of_reaches hnew h, ← List.append_cons]⟩
  · refine sendsOnly_saveRow fun f₂ h' => ?_
    obtain rfl : f₁ = f₂ := by
      rw [h] at h'
      cases h'
      rfl
    rw [Record.isNew, hkey]
    rfl
  · obtain rfl := admitted_of_unobserved hnone h
    exact ⟨rfl, prepared_of_unobserved hnone⟩

def noteSample : Schema := (Schema.new "Note" "notes").withColumn "body" (.varchar 64)

/-- A new note to which its only column was assigned. -/
def newNote : Focus Scripted.Servers where
  session := Scripted.session [noteSample]
  record := Edit.afterCalls ([("body", .scalar (.text "a"))].map .ofPair) (.new noteSample)

def preparedNote : Focus Scripted.Servers := final (prepared (final (admitted newNote)))

theorem newNote_inserted : ∃ g rest, save Scripted.driver newNote = .ok true g ∧
    g.session.sent.map Prod.fst =
      "INSERT INTO notes (body) VALUES ($1) RETURNING id" :: rest := by
  have hsave : save Scripted.driver newNote = .ok true (final (save Scripted.driver newNote)) :=
    eq_ok_of_value? (by decide +kernel)
  have hadmitted : admitted newNote = .ok true (final (admitted newNote)) :=
    eq_ok_of_value? (by decide +kernel)
  have hprepared : prepared (final (admitted newNote)) = .ok true preparedNote :=
    eq_ok_of_value? (by decide +kernel)
  have hconnect : (value? (Action.connectionOf Scripted.driver preparedNote.record.schema
      preparedNote.session)).map Connection.dialect = some .postgres := by
    decide +kernel
  obtain ⟨c, hc, hdialect⟩ := Option.map_eq_some_iff.1 hconnect
  have hreaches : Reaches Scripted.driver newNote preparedNote.record c
      ("" ++ preparedNote.record.schema.table) :=
    ⟨_, _, _, "", hadmitted, hprepared, rfl, eq_ok_of_value? hc, rfl, rfl⟩
  have hkey : (final (admitted newNote)).record.isNew = true := by decide +kernel
  have hnew : ∀ f₁, admitted newNote = .ok true f₁ → f₁.record.key? = none := by
    intro f₁ h
    rw [h] at hkey
    exact Option.isNone_iff_eq_none.1 hkey
  obtain ⟨-, -, hsent⟩ := (first_save_inserts Scripted.driver newNote).1 hnew
  obtain ⟨rest, hrest⟩ := hsent _ _ _ hreaches
  have htext : (insertsRow .postgres ("" ++ preparedNote.record.schema.table)
      preparedNote.record).1 = "INSERT INTO notes (body) VALUES ($1) RETURNING id" := by
    decide +kernel
  refine ⟨_, rest.map Prod.fst, hsave, ?_⟩
  rw [hrest, hdialect, ← htext]
  rfl

def countrySample : Schema :=
  ((Schema.new "Country" "countries").keyedBy "code" (.varchar 2)).withColumn "name" (.varchar 64)

/-- A new country to which its key was assigned. -/
def newCountry : Focus Scripted.Servers where
  session := Scripted.session [countrySample]
  record := Edit.afterCalls ([("code", .scalar (.text "NO")),
    ("name", .scalar (.text "Norway"))].map .ofPair) (.new countrySample)

/-- With an assigned key the save succeeds by updating a row that was never inserted. -/
theorem newCountry_not_inserted : value? (save Scripted.driver newCountry) = some true ∧
    (final (save Scripted.driver newCountry)).session.sent.map Prod.fst =
      ["UPDATE countries SET code = $1, name = $2 WHERE (code = $3)"] := by
  decide +kernel

end RecordAction

end RowMapper
