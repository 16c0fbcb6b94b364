import RowMapper.Proofs.Record.KeySpelling
import RowMapper.Proofs.Session.FirstSave
import RowMapper.Proofs.Session.OutdatedCopies
import RowMapper.Proofs.Statement.Selections

/-! # Tables with integer keys

A table is known by the rows that stand under its keys. A driver serves it faithfully when
it answers the question for a key with the row under the key, when an update or a deletion
by a key leaves all other rows, and when what fails or is for other tables changes no row.
While the copies in the identity map are the records of their rows, a look-up finds the
record of the row under the key.
-/

namespace RowMapper

open Run Sql

variable {σ : Type}

/-! ## Statements of a model -/

namespace Schema

/-- A statement asks for the row with a key, as a look-up sends it. -/
def Asks (σ : Type) (schema : Schema) (start : String) (dialect : Dialect) (key : Value)
    (sql : String) (values : List Value) : Prop :=
  ∃ (s t : Session σ) (q : Query) (statement : Statement), Action.queryOf schema s = .ok q t ∧
    DatabaseConfig.tablePrefix s.config schema.connection = .ok start ∧
      Statement.ofQuery dialect ((q.filter (.key schema.primaryKey key)).atMost 1) =
        .ok statement ∧ statement.toPositional dialect = .ok (sql, values)

inductive Changes (schema : Schema) (start : String) (dialect : Dialect) (key : Value)
    (sql : String) (values : List Value) : Prop
  | update {assigned : Entries Value} {statement : Statement}
      (hstatement : Sql.update dialect (start ++ schema.table) assigned
        [.key schema.primaryKey key] true = .ok (some statement))
      (hsent : statement.toPositional dialect = .ok (sql, values))
  | delete {statement : Statement}
      (hstatement : deletion dialect (start ++ schema.table) [.key schema.primaryKey key] =
        .ok statement)
      (hsent : statement.toPositional dialect = .ok (sql, values))

def LinkTable (schema : Schema) (start table : String) : Prop :=
  ∃ name relation target, schema.relation name = some relation ∧
    table = (Junction.ofRelation schema name relation target start).table

/-- A statement creates a table, or it deletes or inserts links. -/
inductive ChangesLinks (schema : Schema) (start : String) (dialect : Dialect) (sql : String)
    (values : List Value) : Prop
  | create (hsql : Begins "CREATE" sql)
  | unlink {table : String} {conditions : List (Condition Query)} {statement : Statement}
      (htable : schema.LinkTable start table)
      (hstatement : deletion dialect table conditions = .ok statement)
      (hsent : statement.toPositional dialect = .ok (sql, values))
  | link {table : String} {rows : List (Entries Value)} {statement : Statement}
      (htable : schema.LinkTable start table)
      (hstatement : insertion dialect table rows {} = .ok (some statement))
      (hsent : statement.toPositional dialect = .ok (sql, values))

variable {schema : Schema} {start sql : String} {dialect : Dialect} {key : Value}
  {values : List Value}

theorem Asks.values_eq (h : schema.Asks σ start dialect key sql values)
    (htable : listed (start ++ schema.table) ≠ [])
    (hplain : Condition.isRawColumn schema.primaryKey = false) (hkey : key ≠ .null) :
    values = [key] := by
  obtain ⟨s, t, q, statement, hquery, hstart, hstatement, hsent⟩ := h
  obtain ⟨table, u, htableOf, hquery⟩ := bind_eq_ok.1 hquery
  obtain ⟨prefixed, u', hstart', hpure⟩ := bind_eq_ok.1 htableOf
  cases hpure
  obtain ⟨hstart', rfl⟩ := Action.tablePrefix_eq_ok.1 hstart'
  cases hstart.symm.trans hstart'
  obtain ⟨relations, u, -, hquery⟩ := bind_eq_ok.1 hquery
  cases hquery
  obtain ⟨-, -, rfl⟩ := positional_eq_ok.1 hsent
  have hbinds := renderQuery_key_binds (d := dialect) (listed (start ++ schema.table ++ ".*")) htable
    hplain hkey (some 1) relations (some schema.connection)
  exact hbinds.params hstatement

theorem Changes.values_eq (h : schema.Changes start dialect key sql values)
    (hplain : Condition.isRawColumn schema.primaryKey = false)
    (hclosed : ClosedColumn schema.primaryKey) (hkey : key ≠ .null) :
    ∃ assigned, values = assigned ++ [key] := by
  cases h with
  | @update assigned statement hstatement hsent =>
    have hassigned : assigned ≠ [] := by
      rintro rfl
      cases hstatement
    obtain ⟨statement', hstatement', hsent'⟩ :=
      update_key (d := dialect) (start ++ schema.table) hassigned hplain hkey hclosed
    cases hstatement.symm.trans hstatement'
    cases hsent.symm.trans hsent'
    exact ⟨_, rfl⟩
  | delete hstatement hsent =>
    have hparams := params_deletion_key hkey hstatement
    rw [hplain] at hparams
    obtain ⟨-, -, rfl⟩ := positional_eq_ok.1 hsent
    exact ⟨[], hparams⟩

end Schema

/-! ## Faithful drivers -/

/-- A table, seen from the state of a driver: the row that stands under an integer key, and the
integer key for which the database takes a value. -/
structure KeyedTable (σ : Type) where
  row? : σ → Int → Option Row
  keyOf : Value → Option Int

namespace KeyedTable

variable {T : KeyedTable σ} {d : Driver σ} {schema : Schema} {start : String}

/-- A driver serves the table of a model, as far as the copies of its rows depend on it. All rows
but the one that it is for survive an update, so that an update to a used key does not succeed. -/
structure Faithful (T : KeyedTable σ) (d : Driver σ) (schema : Schema) (start : String) : Prop where
  integers : Value.TakesIntegers T.keyOf
  keyed : ∀ {servers n row}, T.row? servers n = some row → ∃ v,
    (Record.ofRow schema row).data.get? schema.primaryKey = some v ∧ v.integer? = some n
  connect : ∀ serial config servers,
    T.row? (final (d.connect serial config servers)) = T.row? servers
  select : ∀ serial config {sql} values servers, Begins "SELECT" sql →
    T.row? (final (d.fetch serial config sql values servers)) = T.row? servers
  links : ∀ serial {config sql values} servers,
    schema.ChangesLinks start config.adapter sql values →
      T.row? (final (d.execute serial config sql values servers)) = T.row? servers
  answers : ∀ {serial config key n sql values rows servers servers'},
    schema.Asks σ start config.adapter key sql values → key.integer? = some n →
      d.fetch serial config sql values servers = .ok rows servers' →
        rows = (T.row? servers n).toList
  fails : ∀ {serial config key sql values e servers servers'}, key.isEmpty = false →
    schema.Changes start config.adapter key sql values →
      d.execute serial config sql values servers = .error e servers' →
        T.row? servers' = T.row? servers
  spares : ∀ {serial config key sql values outcome servers servers'}, key.isEmpty = false →
    schema.Changes start config.adapter key sql values →
      d.execute serial config sql values servers = .ok outcome servers' →
        ∀ n row, T.row? servers n = some row → T.keyOf key ≠ some n →
          T.row? servers' n = some row

def Spares (T : KeyedTable σ) (key : Value) (s t : Session σ) : Prop :=
  ∀ n row, T.row? s.servers n = some row → T.keyOf key ≠ some n → T.row? t.servers n = some row

/-- Something that changes the row of a key at most: it leaves all others, and all if it fails. -/
def Confined {α : Type} (T : KeyedTable σ) (key : Value) (x : Action σ α) : Prop :=
  ∀ s, (∀ e t, x s = .error e t → T.row? t.servers = T.row? s.servers) ∧
    ∀ a t, x s = .ok a t → T.Spares key s t

end KeyedTable

namespace Action

variable {c : Connection} {s t : Session σ} {statement : Statement}

theorem servers_send {α : Type} (c : Connection) (sql : String) (values : List Value)
    (body : EStateM Error σ α) (s : Session σ) :
    (final (send c sql values body s)).servers = final (body s.servers) := by
  unfold send
  cases body s.servers <;> rfl

theorem send_eq_error {α : Type} {sql : String} {values : List Value} {body : EStateM Error σ α}
    {e : Error} (h : send c sql values body s = .error e t) :
    body s.servers = .error e t.servers := by
  unfold send at h
  cases hbody : body s.servers <;> rw [hbody] at h <;> cases h
  rfl

end Action

namespace KeyedTable

open RowMapper.Action

variable {T : KeyedTable σ} {d : Driver σ} {schema : Schema} {start : String} {s t : Session σ}
  {key : Value}

/-! ## What leaves the rows -/

theorem Faithful.linking (hT : T.Faithful d schema start) :
    Linking d (schema.LinkTable start)
      fun s t : Session σ => T.row? t.servers = T.row? s.servers := by
  have hsend {α : Type} (c : Connection) (sql : String) (values : List Value)
      (body : EStateM Error σ α) (hbody : ∀ servers,
        T.row? (final (body servers)) = T.row? servers) :
      Keeps (fun s t : Session σ => T.row? t.servers = T.row? s.servers)
        (send c sql values body) := by
    intro s
    rw [servers_send]
    exact hbody s.servers
  have hexecute (c : Connection) (statement : Statement) (hlinks : ∀ sql values,
      statement.toPositional c.dialect = .ok (sql, values) →
        schema.ChangesLinks start c.dialect sql values) :
      Keeps (fun s t : Session σ => T.row? t.servers = T.row? s.servers)
        (executeStatement d c statement) := by
    intro s
    cases hsent : statement.toPositional c.dialect with
    | error e =>
      have hfail : executeStatement d c statement s = .error e s :=
        bind_of_error (check_of_error hsent s) _
      rw [hfail]
      rfl
    | ok sent =>
      have hrun : executeStatement d c statement s =
          send c sent.1 sent.2 (d.execute c.serial c.config sent.1 sent.2) s :=
        bind_of_ok (check_of_ok hsent s) _
      rw [hrun]
      exact hsend c sent.1 sent.2 _ (fun servers => hT.links _ servers (hlinks _ _ hsent)) s
  exact {
    refl := fun _ => rfl
    trans := fun h h' => h'.trans h
    connect := fun name config s => by
      have hconnect := hT.connect s.nextSerial config s.servers
      unfold Action.connect
      dsimp only
      cases h : d.connect s.nextSerial config s.servers <;> rw [h] at hconnect <;> exact hconnect
    schema := fun _ _ => rfl
    note := fun _ _ => rfl
    select := fun c _ values hsql =>
      hsend c _ values _ fun servers => hT.select _ _ values servers hsql
    create := fun c _ values hsql =>
      hsend c _ values _ fun servers => hT.links _ servers (.create hsql)
    unlink := fun c _ _ _ htable hstatement =>
      hexecute c _ fun _ _ hsent => .unlink htable hstatement hsent
    link := fun c _ _ _ htable hstatement =>
      hexecute c _ fun _ _ hsent => .link htable hstatement hsent }

theorem confined_check_seq {α β : Type} {outcome : Except Error α} {x : α → Action σ β}
    (h : ∀ a, outcome = .ok a → T.Confined key (x a)) : T.Confined key (check outcome >>= x) := by
  cases outcome with
  | error e => exact fun s => ⟨fun _ _ h => by cases h; rfl, fun _ _ h => nomatch h⟩
  | ok a => exact fun s => h a rfl s

theorem Faithful.confined_affected (hT : T.Faithful d schema start) {c : Connection}
    {statement : Statement} (hkey : key.isEmpty = false) (hchanges : ∀ sql values,
      statement.toPositional c.dialect = .ok (sql, values) →
        schema.Changes start c.dialect key sql values) :
    T.Confined key (affected d c (some statement)) := by
  have hexecute : T.Confined key (executeStatement d c statement) :=
    confined_check_seq fun (sql, values) hsent s =>
      ⟨fun _ _ h => hT.fails hkey (hchanges sql values hsent) (send_eq_error h),
        fun _ _ h => hT.spares hkey (hchanges sql values hsent) (send_eq_ok h)⟩
  intro s
  obtain ⟨hfails, hspares⟩ := hexecute s
  refine ⟨fun e t h => ?_, fun count t h => ?_⟩
  · obtain h | ⟨_, _, -, h⟩ := bind_eq_error.1 h
    · exact hfails e t h
    · cases h
  · obtain ⟨outcome, u, h, hpure⟩ := bind_eq_ok.1 h
    cases hpure
    exact hspares outcome _ h

theorem confined_pure {α : Type} (a : α) : T.Confined key (pure a : Action σ α) :=
  fun _ => ⟨fun _ _ h => (nomatch h), fun _ _ h => by
    cases h
    exact fun _ _ hrow _ => hrow⟩

theorem Faithful.confined_update (hT : T.Faithful d schema start) (c : Connection)
    (hkey : key.isEmpty = false) (assigned : Entries Value) :
    T.Confined key (Action.update d c (start ++ schema.table) assigned
      [.key schema.primaryKey key] true) := by
  refine confined_check_seq fun statement hstatement => ?_
  cases statement with
  | none => exact confined_pure 0
  | some statement =>
    exact hT.confined_affected hkey fun _ _ hsent => .update hstatement hsent

theorem Faithful.confined_delete (hT : T.Faithful d schema start) (c : Connection)
    (hkey : key.isEmpty = false) :
    T.Confined key (Action.delete d c (start ++ schema.table) [.key schema.primaryKey key]) :=
  confined_check_seq fun _ hstatement =>
    hT.confined_affected hkey fun _ _ hsent => .delete hstatement hsent

end KeyedTable

/-! ## Look-ups -/

namespace Record

theorem ofRow_filter (schema : Schema) (row : Row) (filter : ImportFilter) :
    ofRow schema row filter = { ofRow schema row with filter } := by
  have htake (r : Record) (name : String) (v : Value) :
      ({ r with filter } : Record).takeIn name v = { r.takeIn name v with filter } := by
    unfold takeIn
    dsimp only
    split <;> rfl
  have hfold (r : Record) :
      row.foldl (fun r (entry : String × Value) => r.takeIn entry.1 entry.2) { r with filter } =
        { row.foldl (fun r (entry : String × Value) => r.takeIn entry.1 entry.2) r with
          filter } := by
    induction row generalizing r with
    | nil => rfl
    | cons entry row ih => rw [List.foldl_cons, htake, ih, List.foldl_cons]
  exact hfold { schema }

theorem detached_ofRow (schema : Schema) (row : Row) (filter : ImportFilter) :
    (ofRow schema row filter).detached = ofRow schema row filter := by
  obtain ⟨data, extra, initial, h⟩ := changesRow_ofRow schema row filter
  rw [h]
  rfl

end Record

def Session.asked (s : Session σ) (i : Identity) : Session σ :=
  { s with identities := (s.identities.get i).2 }

theorem Session.hydrate_of_filter {s t : Session σ} (h : t.filter = s.filter) (schema : Schema) :
    t.hydrate schema = s.hydrate schema := by
  funext row
  rw [hydrate, hydrate, h]

namespace Action

variable {d : Driver σ} {schema : Schema} {key : Value} {s t : Session σ}

/-- Without a copy a look-up finds the first row of the answer to the query of the key. -/
theorem findRecord_asks {found : Option Record} (hkey : key.isEmpty = false)
    (hnone : s.identities.find? (.of schema.name key) = none)
    (h : findRecord d schema key s = .ok found t) : ∃ q s₁ s₂ answer,
      queryOf schema (s.asked (.of schema.name key)) = .ok q s₁ ∧
      rows d ((q.filter (.key schema.primaryKey key)).atMost 1) s₁ = .ok answer s₂ ∧
        found = answer.head?.map (s₂.hydrate schema) := by
  rw [findRecord, hkey, if_neg Bool.false_ne_true, bind_of_ok (remembered_eq _), hnone] at h
  obtain ⟨q, s₁, hquery, h⟩ := bind_eq_ok.1 h
  obtain ⟨records, s₂, hrecords, h⟩ := bind_eq_ok.1 h
  obtain ⟨_, s₃, -, h⟩ := bind_eq_ok.1 h
  obtain ⟨answer, u, hrows, hmapped⟩ := bind_eq_ok.1 hrecords
  cases hmapped
  cases h
  exact ⟨q, s₁, _, answer, hquery, hrows, List.head?_map⟩

/-- A look-up fails only without a copy, where the query of the key cannot be made or is not
answered. -/
theorem findRecord_fails {e : Error} (h : findRecord d schema key s = .error e t) :
    key.isEmpty = false ∧ s.identities.find? (.of schema.name key) = none ∧
      (queryOf schema (s.asked (.of schema.name key)) = .error e t ∨
        ∃ q s₁, queryOf schema (s.asked (.of schema.name key)) = .ok q s₁ ∧
          rows d ((q.filter (.key schema.primaryKey key)).atMost 1) s₁ = .error e t) := by
  cases hkey : key.isEmpty with
  | true =>
    rw [findRecord, hkey, if_pos rfl] at h
    cases h
  | false =>
  cases hfind : s.identities.find? (.of schema.name key) with
  | some copy =>
    rw [findRecord_of_find? hkey hfind] at h
    cases h
  | none =>
  rw [findRecord, hkey, if_neg Bool.false_ne_true, bind_of_ok (remembered_eq _), hfind] at h
  refine ⟨rfl, rfl, ?_⟩
  obtain h | ⟨q, s₁, hquery, h⟩ := bind_eq_error.1 h
  · exact .inl h
  refine .inr ⟨q, s₁, hquery, ?_⟩
  obtain h | ⟨records, s₂, -, h⟩ := bind_eq_error.1 h
  · obtain h | ⟨_, _, -, h⟩ := bind_eq_error.1 h
    · exact h
    · cases h
  · obtain h | ⟨_, _, -, h⟩ := bind_eq_error.1 h
    · cases hfirst : records.head? <;> rw [hfirst] at h <;> cases h
    · cases h

end Action

namespace KeyedTable

open RowMapper.Action

variable {T : KeyedTable σ} {d : Driver σ} {schema : Schema} {start : String} {s t : Session σ}
  {key : Value} {n : Int}

/-- Each copy of a record of the model is the record of the row that stands under its key. -/
def Current (T : KeyedTable σ) (schema : Schema) (s : Session σ) : Prop :=
  ∀ i copy, (i, copy) ∈ s.identities.entries → i.model = schema.name → ∃ n row,
    i = ⟨schema.name, toString n⟩ ∧ T.row? s.servers n = some row ∧ copy = s.hydrate schema row

theorem Faithful.data_hydrate (hT : T.Faithful d schema start) {row : Row}
    (hrow : T.row? s.servers n = some row) : ∃ v,
      (s.hydrate schema row).data.get? schema.primaryKey = some v ∧ v.integer? = some n := by
  rw [Session.hydrate, Record.ofRow_filter]
  exact hT.keyed hrow

theorem Faithful.rows_findRecord (hT : T.Faithful d schema start) (key : Value) (s : Session σ) :
    T.row? (final (findRecord d schema key s)).servers = T.row? s.servers := by
  have hR := hT.linking.toReading
  have hfind : Keeps (fun s t : Session σ => T.row? t.servers = T.row? s.servers)
      (findRecord d schema key) := by
    unfold findRecord
    split
    · exact hR.result _
    refine hR.seq (fun s => rfl) fun known => ?_
    split
    · exact hR.result _
    refine hR.seq (hR.queryOf schema) fun q => hR.seq (hR.records schema _) fun found => ?_
    refine hR.seq ?_ fun _ => hR.result _
    cases found.head? <;> exact fun s => rfl
  exact hfind s

/-- A look-up by an integer finds the record of the row that stands under it; no row is looked up
by zero. -/
theorem Faithful.found_eq (hT : T.Faithful d schema start)
    (hstart : DatabaseConfig.tablePrefix s.config schema.connection = .ok start)
    (hs : T.Current schema s) (hkey : key.integer? = some n) {found : Option Record}
    (h : findRecord d schema key s = .ok found t) :
    found = if n = 0 then none else (T.row? s.servers n).map (s.hydrate schema) := by
  have hzero := Value.isEmpty_of_integer? hkey
  by_cases hn : n = 0
  · rw [findRecord, hzero.2 hn, if_pos rfl] at h
    rw [if_pos hn]
    exact (pure_eq_ok.1 h).1.symm
  rw [if_neg hn]
  have hempty : key.isEmpty = false := by simpa using fun h => hn (hzero.1 h)
  cases hfind : s.identities.find? (.of schema.name key) with
  | some copy =>
    obtain ⟨m, row, hi, hrow, hcopy⟩ := hs _ _ (IdentityMap.mem_of_find? hfind) rfl
    rw [Identity.of, Value.keyString_of_integer? hkey] at hi
    cases Value.toString_int_injective (Identity.mk.inj hi).2
    rw [findRecord_of_find? hempty hfind] at h
    cases h
    rw [hrow, hcopy]
    rfl
  | none =>
    let s₀ : Session σ := s.asked (.of schema.name key)
    obtain ⟨q, s₁, s₂, answer, hquery, hrows, rfl⟩ := findRecord_asks hempty hfind h
    obtain ⟨c, u, statement, sql, values, hconnect, hstatement, hsent, hfetch⟩ := rows_eq_ok hrows
    have hasks : schema.Asks σ start c.dialect key sql values :=
      ⟨s₀, s₁, q, statement, hquery, hstart, hstatement, hsent⟩
    have hsetup := remembering_setup d
    have hfilter : s₂.filter = s.filter :=
      ((hsetup.rows _).of_ok hrows).filter.trans ((hsetup.queryOf schema).of_ok hquery).filter
    have hqueried : T.row? s₁.servers = T.row? s₀.servers :=
      (hT.linking.queryOf schema).of_ok hquery
    have hservers : T.row? u.servers = T.row? s.servers :=
      ((hT.linking.connection _).of_ok hconnect).trans hqueried
    rw [hT.answers hasks hkey hfetch, hservers, Session.hydrate_of_filter hfilter]
    cases T.row? s.servers n <;> rfl

end KeyedTable

end RowMapper
