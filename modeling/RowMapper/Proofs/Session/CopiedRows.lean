import RowMapper.Proofs.Session.KeyedTables

/-! # Copies that follow their rows

Saves and deletions of records with integer keys leave the row of each copy that they leave
in the identity map: a statement changes the row of its key at most, and the copy of that
key is dropped after it. Look-ups keep no copy but that of the row which they found.
-/

namespace RowMapper

open Run Sql

variable {σ : Type}

namespace KeyedTable

open RowMapper.Action

variable {T : KeyedTable σ} {d : Driver σ} {schema : Schema} {start : String} {s t : Session σ}
  {key : Value} {n : Int}

/-! ## Copies and their rows -/

/-- No copy is added, and the rows of the copies that are left stay. -/
structure Follows (T : KeyedTable σ) (model : String) (s t : Session σ) : Prop where
  copies : t.identities.entries ⊆ s.identities.entries
  rows : ∀ n row copy, (⟨model, toString n⟩, copy) ∈ t.identities.entries →
    T.row? s.servers n = some row → T.row? t.servers n = some row

theorem chained_follows (T : KeyedTable σ) (model : String) : Chained (T.Follows model) where
  refl _ := ⟨fun _ h => h, fun _ _ _ _ h => h⟩
  trans h h' := ⟨fun _ hentry => h.copies (h'.copies hentry), fun n row copy hcopy hrow =>
    h'.rows n row copy hcopy (h.rows n row copy (h'.copies hcopy) hrow)⟩

theorem follows_of_same {model : String} (hcopies : t.identities.entries = s.identities.entries)
    (hrows : T.row? t.servers = T.row? s.servers) : T.Follows model s t :=
  ⟨hcopies ▸ fun _ h => h, fun _ _ _ _ h => hrows ▸ h⟩

/-- What is done without a statement leaves copies and rows. -/
theorem Faithful.quiet_follows (hT : T.Faithful d schema start) (model : String) :
    Quiet d (T.Follows model) :=
  have hrows := hT.linking
  have hcopies := sending_identities d
  { toChained := chained_follows T model
    connect := fun name config s => follows_of_same
      (congrArg IdentityMap.entries (hcopies.connect name config s)) (hrows.connect name config s)
    schema := fun key s => follows_of_same rfl (hrows.schema key s)
    note := fun s notice => follows_of_same rfl (hrows.note s notice) }

/-- If the copy of a key is dropped after a change of its row, the copies that are left keep their
rows. If the change fails, all of them do. -/
theorem Confined.follows {α : Type} {x : Action σ α} (hx : T.Confined key x)
    (hcopies : Keeps (fun s t => t.identities = s.identities) x) (hspells : key.Spells T.keyOf)
    (hkey : key.isEmpty = false) (model : String) (s : Session σ) :
    (∀ e t, x s = .error e t → T.Follows model s t) ∧
      ∀ a t, x s = .ok a t → ∀ notices, T.Follows model s { t with
        identities := (t.identities.invalidate (.of model key)).2, notices } := by
  obtain ⟨hfails, hspares⟩ := hx s
  refine ⟨fun e t h => follows_of_same (congrArg _ (hcopies.of_error h)) (hfails e t h),
    fun a t h notices => ⟨fun entry hentry => ?_, fun n row copy hcopy hrow => ?_⟩⟩
  · exact hcopies.of_ok h ▸ (IdentityMap.mem_invalidate hentry).1
  · refine hspares a t h n row hrow fun htaken => ?_
    have hne := (IdentityMap.mem_invalidate hcopy).2
    exact hne (by rw [Identity.of, hspells hkey n htaken])

theorem Current.follows (h : T.Current schema s) (hst : T.Follows schema.name s t)
    (hfilter : t.filter = s.filter) : T.Current schema t := by
  intro i copy hentry hmodel
  obtain ⟨n, row, rfl, hrow, rfl⟩ := h i copy (hst.copies hentry) hmodel
  exact ⟨n, row, rfl, hst.rows n row _ hentry hrow,
    by rw [Session.hydrate_of_filter hfilter]⟩

/-- A look-up keeps a copy of the record of a row at most. -/
theorem Faithful.current_findRecord (hT : T.Faithful d schema start)
    (hstart : DatabaseConfig.tablePrefix s.config schema.connection = .ok start)
    (hs : T.Current schema s) (hkey : key.integer? = some n) :
    T.Current schema (final (findRecord d schema key s)) := by
  have hrows := hT.rows_findRecord key s
  have hfilter := ((remembering_setup d).findRecord schema key s).filter
  have hold (hsub : (final (findRecord d schema key s)).identities.entries ⊆
      s.identities.entries) : T.Current schema (final (findRecord d schema key s)) :=
    hs.follows ⟨hsub, fun _ _ _ _ h => hrows ▸ h⟩ hfilter
  cases hfind : s.identities.find? (.of schema.name key) with
  | some copy =>
    have hsame := entries_findRecord_of_some (d := d) hfind
    exact hold (hsame ▸ fun _ h => h)
  | none =>
    obtain ⟨hsub, -⟩ | ⟨r, t, identities, hfound, hsub, hstore⟩ := findRecord_of_none (d := d) hfind
    · exact hold hsub
    · have hr := hT.found_eq hstart hs hkey hfound
      split at hr
      · cases hr
      obtain ⟨row, hrow, hr⟩ := Option.map_eq_some_iff.1 hr.symm
      subst hr
      rw [hfound] at hrows hfilter ⊢
      change T.row? t.servers = _ at hrows
      change T.Current schema t
      have hhydrate : t.hydrate schema = s.hydrate schema :=
        Session.hydrate_of_filter hfilter schema
      intro i copy hentry hmodel
      change (i, copy) ∈ t.identities.entries at hentry
      rw [hstore] at hentry
      obtain hentry | ⟨own, hown, hentry⟩ := IdentityMap.mem_store hentry
      · obtain ⟨m, row', hi, hrow', hcopy⟩ := hs i copy (hsub hentry) hmodel
        exact ⟨m, row', hi, hrows ▸ hrow', by rw [hcopy, hhydrate]⟩
      · obtain ⟨v, hdata, hv⟩ := hT.data_hydrate hrow
        have hschema : (s.hydrate schema row).schema = schema := schema_ofRow schema row _
        have hkey? := (Option.filter_eq_some_iff.1 hown).1
        rw [hschema, hdata] at hkey?
        cases hkey?
        cases hentry
        refine ⟨n, row, ?_, hrows ▸ hrow, ?_⟩
        · rw [Identity.of, Value.keyString_of_integer? hv, Record.model, hschema]
        · rw [hhydrate]
          exact Record.detached_ofRow schema row _

end KeyedTable

namespace Record

variable {keyOf : Value → Option Int} {schema : Schema} {r : Record}

theorem Spelled.storedKey (h : r.Spelled keyOf schema) (hnew : r.isNew = false) :
    (RecordAction.storedKey r).isEmpty = false ∧ (RecordAction.storedKey r).Spells keyOf := by
  unfold RecordAction.storedKey
  rw [h.schema]
  cases hfirst : ((r.initial? schema.primaryKey).bind FieldValue.toScalar?).filter
      (!·.isEmpty) with
  | some key =>
    obtain ⟨hscalar, hempty⟩ := Option.filter_eq_some_iff.1 hfirst
    obtain ⟨b, hb, hkey⟩ := Option.bind_eq_some_iff.1 hscalar
    exact ⟨by simpa using hempty, h.initial b key hb hkey⟩
  | none =>
    obtain ⟨key, hkey⟩ := Option.isSome_iff_exists.1 (Option.isNone_eq_false_iff.1 hnew)
    rw [hkey]
    exact h.key? hkey

end Record

namespace KeyedTable

open RecordAction

variable {T : KeyedTable σ} {d : Driver σ} {schema : Schema} {start : String} {f g : Focus σ}

/-! ## Saves -/

/-- Work on a record of the model: the copies follow the table, and the record's key stays
spelled. -/
structure Advances (T : KeyedTable σ) (schema : Schema) (f g : Focus σ) : Prop where
  follows : T.Follows schema.name f.session g.session
  spelled : f.record.Spelled T.keyOf schema → g.record.Spelled T.keyOf schema

theorem chained_advances (T : KeyedTable σ) (schema : Schema) : Chained (T.Advances schema) where
  refl _ := ⟨(chained_follows T schema.name).refl _, fun h => h⟩
  trans h h' := ⟨(chained_follows T schema.name).trans h.follows h'.follows,
    fun hr => h'.spelled (h.spelled hr)⟩

theorem advances_inSession {α : Type} {x : Action σ α}
    (hx : T.Follows schema.name f.session (final (x f.session))) :
    T.Advances schema f (final (inSession x f)) := by
  have hrecord : (final (inSession x f)).record = f.record := by
    unfold inSession
    cases x f.session <;> rfl
  exact ⟨session_final_inSession x f ▸ hx, fun h => hrecord ▸ h⟩

/-- A change of the row of a key, after which its copy is dropped. -/
theorem advances_confined {α β : Type} {x : Action σ α} {y : α → RecordAction σ β} {key : Value}
    (hx : T.Confined key x) (hcopies : Keeps (fun s t => t.identities = s.identities) x)
    (hspells : key.Spells T.keyOf) (hkey : key.isEmpty = false)
    (hy : ∀ a (g : Focus σ), ∃ notices r, final (y a g) = ⟨{ g.session with
      identities := (g.session.identities.invalidate (.of schema.name key)).2, notices }, r⟩ ∧
        (g.record.Spelled T.keyOf schema → r.Spelled T.keyOf schema)) (f : Focus σ) :
    T.Advances schema f (final ((inSession x >>= y) f)) := by
  obtain ⟨hfails, hsucceeds⟩ := hx.follows hcopies hspells hkey schema.name f.session
  cases hrun : x f.session with
  | error e t =>
    rw [bind_of_error (inSession_eq_error.2 ⟨t, hrun, rfl⟩)]
    exact ⟨hfails e t hrun, fun h => h⟩
  | ok a t =>
    obtain ⟨notices, r, hdrop, hr⟩ := hy a { f with session := t }
    rw [bind_of_ok (inSession_eq_ok.2 ⟨t, hrun, rfl⟩), hdrop]
    exact ⟨hsucceeds a t hrun notices, hr⟩

/-- Updating the row of a record drops the copy of the key that it is stored under. -/
theorem advances_updateColumns (hT : T.Faithful d schema start) (hkeyed : schema.IntegerKeyed)
    (hstart : DatabaseConfig.tablePrefix f.session.config schema.connection = .ok start)
    (hspelled : f.record.Spelled T.keyOf schema) (hnew : (written f).isNew = false) :
    T.Advances schema f (final (updateColumns d f)) := by
  have hF := chained_advances T schema
  have hwritten : (written f).Spelled T.keyOf schema :=
    stampAll_stores (fun _ column v h => h.storeCoerced hkeyed hT.integers column v) _ _ _ hspelled
  have hschema := hwritten.schema
  have hmodel : (written f).model = schema.name := congrArg Schema.name hschema
  obtain ⟨hempty, hspells⟩ := hwritten.storedKey hnew
  have hstamp : stampNow false f = .ok () { f with record := written f } := rfl
  have hadvance : T.Advances schema f { f with record := written f } :=
    ⟨follows_of_same rfl rfl, fun _ => hwritten⟩
  unfold updateColumns
  rw [bind_of_ok hstamp, record_bind]
  dsimp only
  rw [hschema, hmodel]
  refine hF.trans hadvance (hF.bind ?_ fun c g hconnect => ?_)
  · exact advances_inSession ((hT.quiet_follows schema.name).connectionOf schema f.session)
  obtain ⟨t, hc, rfl⟩ := inSession_eq_ok.1 hconnect
  have hconfig : t.config = f.session.config :=
    (((Action.remembering_setup d).connectionOf schema).of_ok hc).config
  have htable : Action.tableOf schema t = .ok (start ++ schema.table) t :=
    bind_of_ok (Action.tablePrefix_eq_ok.2 ⟨hconfig ▸ hstart, rfl⟩) _
  rw [bind_of_ok (inSession_eq_ok.2 ⟨t, htable, rfl⟩)]
  exact advances_confined (hT.confined_update c hempty _)
    ((Action.sending_identities d).update c _ _ _ _) hspells hempty
    (fun _ g => ⟨g.session.notices, g.record, rfl, fun h => h⟩) _

theorem advances_after (e : Event) : Keeps (T.Advances schema) (after e : RecordAction σ Unit) := by
  intro f
  obtain ⟨notices, hafter⟩ := after_eq_ok e f
  rw [hafter]
  exact ⟨follows_of_same rfl rfl, fun h => h⟩

/-- A record of the model whose save or deletion nobody is told of, in a session that knows the
table. -/
structure Managed (T : KeyedTable σ) (schema : Schema) (start : String) (f : Focus σ) : Prop where
  start : DatabaseConfig.tablePrefix f.session.config schema.connection = .ok start
  observers : f.session.observers.ofModel schema.name = []
  spelled : f.record.Spelled T.keyOf schema

theorem Managed.unobserved (h : T.Managed schema start f) : Unobserved f := by
  have hmodel : f.record.model = schema.name := congrArg Schema.name h.spelled.schema
  rw [Unobserved, hmodel]
  exact h.observers

theorem advances_updateRow (hT : T.Faithful d schema start) (hkeyed : schema.IntegerKeyed)
    (hf : T.Managed schema start f) (hnew : (written f).isNew = false) :
    T.Advances schema f (final (updateRow d f)) := by
  have hF := chained_advances T schema
  have hcolumns := advances_updateColumns (T := T) hT hkeyed hf.start hf.spelled hnew
  rw [updateRow_of_unobserved hf.unobserved]
  split
  · exact hF.refl f
  · exact hF.bind hcolumns fun _ g _ => hF.seq (advances_after .updated) (fun _ => hF.result true) g

/-- A save up to its links updates the row of a record that has a key. -/
theorem advances_saveRow (hT : T.Faithful d schema start) (hkeyed : schema.IntegerKeyed)
    (hf : T.Managed schema start f) (hlive : f.record.voided = false)
    (hold : f.record.isNew = false) (hnew : (written f).isNew = false) :
    T.Advances schema f (final (saveRow d f)) ∧
      ∀ inserting g, saveRow d f = .ok (some inserting) g → inserting = false := by
  let g : Focus σ := ⟨f.session, { f.record with errors := f.record.validate }⟩
  have hadmitted := admitted_of_live hf.unobserved hlive
  have hg : T.Advances schema f g := ⟨follows_of_same rfl rfl, fun h =>
    h.of_same ⟨rfl, rfl, rfl, rfl⟩⟩
  have hmanaged : T.Managed schema start g := ⟨hf.start, hf.observers, hg.spelled hf.spelled⟩
  cases hvalid : f.record.validate.isEmpty with
  | false =>
    rw [hvalid] at hadmitted
    have hrefused : ∀ f₁, admitted f ≠ .ok true f₁ := by
      intro f₁ h
      rw [hadmitted] at h
      cases h
    obtain ⟨hnone, hfinal⟩ := saveRow_of_not_admitted (d := d) hrefused
    rw [hfinal, hadmitted]
    exact ⟨hg, fun inserting g' h => absurd h (hnone inserting g')⟩
  | true =>
    rw [hvalid] at hadmitted
    have hwritten : (written g).isNew = false := by
      have herrors := written_errors f f.record.validate
      rw [herrors]
      exact hnew
    have hwrite : writeRow d g = updateRow d g := by
      have hsame : g.record.isNew = false := hold
      unfold writeRow
      rw [record_bind, hsame]
      rfl
    rw [saveRow_of_admitted hadmitted, final_bind_pure, hwrite]
    refine ⟨(chained_advances T schema).trans hg (advances_updateRow hT hkeyed hmanaged hwritten),
      fun inserting g' h => ?_⟩
    obtain ⟨b, g₂, -, hpure⟩ := bind_eq_ok.1 h
    have hresult := (pure_eq_ok.1 hpure).1
    cases b with
    | false => cases hresult
    | true =>
      cases hresult
      exact hold

theorem advances_saveLinks (hT : T.Faithful d schema start)
    (hstart : DatabaseConfig.tablePrefix f.session.config schema.connection = .ok start)
    (hschema : f.record.schema = schema) : T.Advances schema f (final (saveLinks d f)) := by
  have hcopies := (Action.sending_identities d).saveLinks f
  have hrows := hT.linking.saveLinks (f := f)
    fun name relation target start' hrelation hstart' => by
      rw [hschema] at hrelation hstart' ⊢
      cases hstart.symm.trans hstart'
      exact ⟨name, relation, target, hrelation, rfl⟩
  obtain ⟨pending, hrecord⟩ := relinks_saveLinks d f
  refine ⟨follows_of_same (congrArg IdentityMap.entries hcopies) hrows, fun h => ?_⟩
  rw [hrecord]
  exact h.of_same ⟨rfl, rfl, rfl, rfl⟩

theorem advances_save (hT : T.Faithful d schema start) (hkeyed : schema.IntegerKeyed)
    (hf : T.Managed schema start f)
    (hold : f.record.voided = false → f.record.isNew = false ∧ (written f).isNew = false) :
    T.Advances schema f (final (save d f)) := by
  have hF := chained_advances T schema
  cases hlive : f.record.voided with
  | true =>
    have hdead : save d f = .error (.voided f.record.model) f := by
      unfold save
      rw [record_bind, Record.ensureLive, hlive]
      rfl
    rw [hdead]
    exact hF.refl f
  | false =>
    obtain ⟨hkey, hnew⟩ := hold hlive
    obtain ⟨hrow, hupdated⟩ := advances_saveRow hT hkeyed hf hlive hkey hnew
    rw [save_eq]
    refine hF.bind hrow fun saved g hsave => ?_
    cases saved with
    | none => exact hF.refl g
    | some inserting =>
      cases hupdated inserting g hsave
      have hconfig : g.session.config = f.session.config :=
        ((Action.remembering_setup d).writing.saveRow.of_ok hsave).config
      rw [hsave] at hrow
      have hschema := (hrow.spelled hf.spelled).schema
      refine hF.bind (advances_saveLinks hT (hconfig ▸ hf.start) hschema) fun _ g' _ => ?_
      obtain ⟨notices, hfinish⟩ := finishSave_eq false g'
      rw [hfinish]
      exact ⟨follows_of_same rfl rfl, fun h => h.clean⟩

/-! ## Deletions -/

theorem advances_prepareDeletion (hT : T.Faithful d schema start) (hf : T.Managed schema start f) :
    T.Advances schema f (final (prepareDeletion d schema f)) := by
  have hF := chained_advances T schema
  have hR := hT.quiet_follows schema.name
  unfold prepareDeletion
  rw [bind_of_ok (before_of_unobserved hf.unobserved .deleting)]
  simp only [Bool.not_true, Bool.false_eq_true, if_false]
  refine hF.seq (fun g => advances_inSession (hR.connectionOf schema g.session)) (fun c => ?_) f
  exact hF.seq (fun g => advances_inSession (hR.tableOf schema g.session)) fun _ => hF.result _

theorem advances_delete (hT : T.Faithful d schema start) (hf : T.Managed schema start f) :
    T.Advances schema f (final (delete d f)) := by
  have hF := chained_advances T schema
  have hschema := hf.spelled.schema
  rw [delete_eq, record_bind, hschema]
  cases hlive : f.record.ensureLive with
  | error e => exact hF.refl f
  | ok _ =>
    rw [bind_of_ok (check_eq_ok.2 ⟨rfl, rfl⟩)]
    cases hkey : f.record.key? with
    | none => exact hF.refl f
    | some key =>
      dsimp only
      obtain ⟨hempty, hspells⟩ := hf.spelled.key? hkey
      have hmodel : f.record.model = schema.name := congrArg Schema.name hschema
      refine hF.bind (advances_prepareDeletion hT hf) fun target g hprepare => ?_
      cases target with
      | none => exact hF.refl g
      | some target =>
        obtain ⟨c, table⟩ := target
        obtain ⟨start', hstart', rfl⟩ := prepareDeletion_table hprepare
        cases hf.start.symm.trans hstart'
        refine advances_confined (hT.confined_delete c hempty)
          ((Action.sending_identities d).delete c _ _) hspells hempty (fun deleted g => ?_) g
        obtain ⟨notices, hfinish⟩ := finishDeletion_eq (.of f.record.model key) deleted g
        rw [hfinish, hmodel]
        exact ⟨notices, _, rfl, fun h => h.void⟩

end KeyedTable

end RowMapper
