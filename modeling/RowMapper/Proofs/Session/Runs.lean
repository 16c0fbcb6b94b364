import RowMapper.Connection.Scripted
import RowMapper.Proofs.Record.Tracking
import RowMapper.Proofs.Run
import RowMapper.Session.Save

/-! # Runs of sessions

What a run of a session's operations can change, whether it succeeds or fails. The
operations fall into sorts: those that at most open a connection or put a schema
together, those that also tell an observer or send statements, those that also drop
copies from the identity map, and those that use it in any way. A relation between
sessions that holds across each single step of a sort holds across every operation of
that sort. So it is with relations that also look at the record in work, across the
steps of writing a row.
-/

namespace RowMapper

open Run

variable {σ α β : Type}

def Session.sent (s : Session σ) : List (String × List Value) :=
  s.calls.filterMap fun call => match call with
    | .send _ _ sql values => some (sql, values)
    | _ => none

/-- A session of some models with a scripted PostgreSQL server. -/
def Scripted.session (models : List Schema) (postgres : Scripted.Server := {}) :
    Session Scripted.Servers where
  config := [(defaultConnection, .new .postgres "test")]
  served := [.postgres]
  servers := { postgres }
  schemas := { declared := fun key => models.getD key (.new "" "") }
  now := .atMidnight .epoch

structure Session.SameSetup (s t : Session σ) : Prop where
  config : t.config = s.config
  observers : t.observers = s.observers
  filter : t.filter = s.filter
  user : t.user = s.user
  now : t.now = s.now

theorem Session.SameSetup.trans {s t u : Session σ} (h : s.SameSetup t) (h' : t.SameSetup u) :
    s.SameSetup u :=
  ⟨h'.config.trans h.config, h'.observers.trans h.observers, h'.filter.trans h.filter,
    h'.user.trans h.user, h'.now.trans h.now⟩

/-- A relation of sessions, as one of the sessions in which records are worked on. -/
def Focus.Across (R : Session σ → Session σ → Prop) (f g : Focus σ) : Prop :=
  R f.session g.session

namespace Action

theorem keeps_check {R : Session σ → Session σ → Prop} (hR : Chained R)
    (outcome : Except Error α) : Keeps R (check outcome) := by
  intro s
  cases outcome <;> exact hR.refl s

theorem keeps_attempt {R : Session σ → Session σ → Prop} {x : Action σ α} (hx : Keeps R x) :
    Keeps R (attempt x) := by
  intro s
  have hs := hx s
  unfold attempt
  cases h : x s <;> rwa [h] at hs

/-- A relation of sessions that holds across opening connections and putting schemas together. -/
structure Opening (d : Driver σ) (R : Session σ → Session σ → Prop) : Prop extends Chained R where
  connect : ∀ name config, Keeps R (connect d name config)
  schema : ∀ key, Keeps R (schema (σ := σ) key)

/-- A relation of sessions that holds across all that is done without a statement. -/
structure Quiet (d : Driver σ) (R : Session σ → Session σ → Prop) : Prop extends Opening d R where
  note : ∀ s notice, R s { s with notices := s.notices ++ [notice] }

/-- A relation of sessions that holds across sending a statement, without regard to observers. -/
structure Serving (d : Driver σ) (R : Session σ → Session σ → Prop) : Prop extends Opening d R where
  fetch : ∀ c sql values, Keeps R (send c sql values (d.fetch c.serial c.config sql values))
  execute : ∀ c sql values, Keeps R (send c sql values (d.execute c.serial c.config sql values))

/-- A relation of sessions that holds across all that is done with and without a statement. -/
structure Sending (d : Driver σ) (R : Session σ → Session σ → Prop) : Prop
    extends Quiet d R, Serving d R

/-- A relation of sessions that also holds across dropping a copy from the identity map. -/
structure Forgetting (d : Driver σ) (R : Session σ → Session σ → Prop) : Prop
    extends Sending d R where
  forget : ∀ i, Keeps R (forgetRecord (σ := σ) i)

/-- A relation of sessions that also holds across the use of the identity map. -/
structure Remembering (d : Driver σ) (R : Session σ → Session σ → Prop) : Prop
    extends Forgetting d R where
  ask : ∀ i, Keeps R (remembered (σ := σ) i)
  remember : ∀ r, Keeps R (rememberRecord (σ := σ) r)

theorem remembering_setup (d : Driver σ) : Remembering d Session.SameSetup where
  refl s := ⟨rfl, rfl, rfl, rfl, rfl⟩
  trans := Session.SameSetup.trans
  connect name config s := by
    unfold connect
    dsimp only
    split <;> exact ⟨rfl, rfl, rfl, rfl, rfl⟩
  schema key s := ⟨rfl, rfl, rfl, rfl, rfl⟩
  note s notice := ⟨rfl, rfl, rfl, rfl, rfl⟩
  fetch c sql values s := by
    unfold send
    dsimp only
    split <;> exact ⟨rfl, rfl, rfl, rfl, rfl⟩
  execute c sql values s := by
    unfold send
    dsimp only
    split <;> exact ⟨rfl, rfl, rfl, rfl, rfl⟩
  ask i s := ⟨rfl, rfl, rfl, rfl, rfl⟩
  remember r s := ⟨rfl, rfl, rfl, rfl, rfl⟩
  forget i s := ⟨rfl, rfl, rfl, rfl, rfl⟩

theorem sending_identities (d : Driver σ) : Sending d fun s t => t.identities = s.identities where
  refl s := rfl
  trans h h' := h'.trans h
  connect name config s := by
    unfold connect
    dsimp only
    split <;> rfl
  schema key s := rfl
  note s notice := rfl
  fetch c sql values s := by
    unfold send
    dsimp only
    split <;> rfl
  execute c sql values s := by
    unfold send
    dsimp only
    split <;> rfl

theorem quiet_sent (d : Driver σ) : Quiet d fun s t => t.sent = s.sent where
  refl s := rfl
  trans h h' := h'.trans h
  connect name config s := by
    unfold connect
    dsimp only
    split <;> simp [final, Session.sent]
  schema key s := rfl
  note s notice := rfl

theorem check_of_ok {outcome : Except Error α} {a : α} (h : outcome = .ok a) (s : Session σ) :
    check outcome s = .ok a s := by
  rw [h]
  rfl

theorem check_of_error {outcome : Except Error α} {e : Error} (h : outcome = .error e)
    (s : Session σ) : check outcome s = .error e s := by
  rw [h]
  rfl

theorem check_eq_ok {outcome : Except Error α} {s t : Session σ} {a : α} :
    check outcome s = .ok a t ↔ outcome = .ok a ∧ t = s := by
  unfold check
  cases outcome <;> simp [eq_comm]

theorem tablePrefix_eq_ok {name start : String} {s t : Session σ} :
    tablePrefix name s = .ok start t ↔
      DatabaseConfig.tablePrefix s.config name = .ok start ∧ t = s :=
  check_eq_ok

theorem connection_of_registered {d : Driver σ} {name : String} {s : Session σ} {c : Connection}
    (h : Entries.get? s.connections name = some c) : connection d name s = .ok c s := by
  refine (bind_of_ok (x := get) rfl _).trans ?_
  rw [h]
  rfl

theorem connection_of_unregistered {d : Driver σ} {name : String} {s : Session σ}
    (h : Entries.get? s.connections name = none) :
    connection d name s = (usableConfig name >>= connect d name) s := by
  refine (bind_of_ok (x := get) rfl _).trans ?_
  rw [h]

theorem registered_of_connection {d : Driver σ} {name : String} {s t : Session σ} {c : Connection}
    (h : connection d name s = .ok c t) : Entries.get? t.connections name = some c := by
  cases hknown : Entries.get? s.connections name with
  | some known =>
    rw [connection_of_registered hknown] at h
    cases h
    exact hknown
  | none =>
    rw [connection_of_unregistered hknown] at h
    obtain ⟨config, u, -, hconnect⟩ := bind_eq_ok.1 h
    unfold connect at hconnect
    dsimp only at hconnect
    split at hconnect <;> cases hconnect
    exact Entries.get?_put_self _ _ _

theorem get?_counted (connections : Entries Connection) (other name : String) (failed : Bool) :
    Entries.get? (counted connections other failed) name =
      (Entries.get? connections name).map fun c => if name = other then c.counted failed else c := by
  induction connections with
  | nil => rfl
  | cons entry rest ih =>
    obtain ⟨key, c⟩ := entry
    rw [counted, List.map_cons, Entries.get?_cons, Entries.get?_cons]
    split
    · next h => rw [h]; rfl
    · exact ih

theorem send_eq_ok {c : Connection} {sql : String} {values : List Value}
    {body : EStateM Error σ α} {s t : Session σ} {a : α} (h : send c sql values body s = .ok a t) :
    body s.servers = .ok a t.servers := by
  unfold send at h
  cases hbody : body s.servers <;> rw [hbody] at h <;> cases h
  rfl

theorem rows_eq_ok {d : Driver σ} {q : Query} {found : List Row} {s t : Session σ}
    (h : rows d q s = .ok found t) :
    ∃ c u statement sql values, connection d q.connectionName s = .ok c u ∧
      Sql.Statement.ofQuery c.dialect q = .ok statement ∧
        statement.toPositional c.dialect = .ok (sql, values) ∧
          d.fetch c.serial c.config sql values u.servers = .ok found t.servers := by
  obtain ⟨c, u, hconnect, hrun⟩ := bind_eq_ok.1 h
  obtain ⟨statement, u₁, hstatement, hfetch⟩ := bind_eq_ok.1 hrun
  obtain ⟨hquery, rfl⟩ := check_eq_ok.1 hstatement
  obtain ⟨⟨sql, values⟩, u₂, hsent, hsend⟩ := bind_eq_ok.1 hfetch
  obtain ⟨hpositional, rfl⟩ := check_eq_ok.1 hsent
  exact ⟨c, _, statement, sql, values, hconnect, hquery, hpositional, send_eq_ok hsend⟩

theorem sent_send (c : Connection) (sql : String) (values : List Value) (body : EStateM Error σ α)
    (s : Session σ) : (final (send c sql values body s)).sent = s.sent ++ [(sql, values)] := by
  unfold send
  dsimp only
  split <;> simp [final, Session.sent]

variable {statement : Sql.Statement}

/-- The statement that changes rows is sent alone, whatever becomes of it. -/
theorem sent_affected (d : Driver σ) {c : Connection} {sql : String} {params : List Value}
    (s : Session σ) (hsql : statement.toPositional c.dialect = .ok (sql, params)) :
    (final (affected d c (some statement) s)).sent = s.sent ++ [(sql, params)] := by
  have hexecute : executeStatement d c statement s =
      send c sql params (d.execute c.serial c.config sql params) s :=
    bind_of_ok (check_of_ok hsql s) _
  rw [affected, final_bind_pure, hexecute]
  exact sent_send c sql params _ s

theorem affected_of_error (d : Driver σ) {c : Connection} {e : Error} (s : Session σ)
    (hsql : statement.toPositional c.dialect = .error e) :
    affected d c (some statement) s = .error e s :=
  bind_of_error (bind_of_error (check_of_error hsql s) _) _

variable {d : Driver σ} {R : Session σ → Session σ → Prop}

/-! ## Without statements -/

namespace Opening

theorem usableConfig (hR : Opening d R) (name : String) :
    Keeps R (Action.usableConfig (σ := σ) name) := by
  apply hR.seq hR.read
  intro s
  apply hR.seq (keeps_check hR.toChained _)
  intro config
  apply hR.seq (keeps_check hR.toChained _)
  intro _
  split
  · exact hR.result _
  · exact hR.fail _

theorem connection (hR : Opening d R) (name : String) : Keeps R (Action.connection d name) := by
  apply hR.seq hR.read
  intro s
  split
  · exact hR.result _
  · exact hR.seq (hR.usableConfig name) fun config => hR.connect name config

theorem connectionOf (hR : Opening d R) (schema : Schema) :
    Keeps R (Action.connectionOf d schema) :=
  hR.connection schema.connection

theorem tablePrefix (hR : Opening d R) (name : String) :
    Keeps R (Action.tablePrefix (σ := σ) name) :=
  hR.seq hR.read fun _ => keeps_check hR.toChained _

theorem tableOf (hR : Opening d R) (schema : Schema) :
    Keeps R (Action.tableOf (σ := σ) schema) :=
  hR.seq (hR.tablePrefix _) fun _ => hR.result _

theorem relationJoin (hR : Opening d R) (owner : Schema) (table name : String) (r : Relation) :
    Keeps R (Action.relationJoin (σ := σ) owner table name r) := by
  apply hR.seq (hR.schema _)
  intro target
  exact hR.seq (hR.tableOf target) fun _ => hR.result _

theorem relationJoins (hR : Opening d R) (owner : Schema) (table : String)
    (relations : List (String × Relation)) :
    Keeps R (Action.relationJoins (σ := σ) owner table relations) := by
  induction relations with
  | nil => exact hR.result _
  | cons entry rest ih =>
    obtain ⟨name, r⟩ := entry
    rw [Action.relationJoins]
    split
    · apply hR.seq (hR.relationJoin owner table name r)
      intro first
      exact hR.seq ih fun _ => hR.result _
    · exact ih

theorem queryOf (hR : Opening d R) (schema : Schema) :
    Keeps R (Action.queryOf (σ := σ) schema) := by
  apply hR.seq (hR.tableOf schema)
  intro table
  exact hR.seq (hR.relationJoins schema table _) fun _ => hR.result _

theorem junctionNamed (hR : Opening d R) (owner : Schema) (name : String) :
    Keeps R (Action.junctionNamed (σ := σ) owner name) := by
  unfold Action.junctionNamed
  split
  · exact hR.fail _
  · apply hR.seq (hR.schema _)
    intro target
    exact hR.seq (hR.tablePrefix _) fun _ => hR.result _

end Opening

/-! ## With statements -/

namespace Serving

theorem fetchStatement (hR : Serving d R) (c : Connection) (s : Sql.Statement) :
    Keeps R (Action.fetchStatement d c s) :=
  hR.seq (keeps_check hR.toChained _) fun (sql, values) => hR.fetch c sql values

theorem executeStatement (hR : Serving d R) (c : Connection) (s : Sql.Statement) :
    Keeps R (Action.executeStatement d c s) :=
  hR.seq (keeps_check hR.toChained _) fun (sql, values) => hR.execute c sql values

theorem rows (hR : Serving d R) (q : Query) : Keeps R (Action.rows d q) := by
  apply hR.seq (hR.connection _)
  intro c
  exact hR.seq (keeps_check hR.toChained _) fun s => hR.fetchStatement c s

theorem records (hR : Serving d R) (schema : Schema) (q : Query) :
    Keeps R (Action.records d schema q) := by
  apply hR.seq (hR.rows q)
  intro found
  exact hR.seq hR.read fun _ => hR.result _

theorem insert (hR : Serving d R) (c : Connection) (table : String) (rows : List (Entries Value))
    (options : Sql.InsertOptions) : Keeps R (Action.insert d c table rows options) := by
  apply hR.seq (keeps_check hR.toChained _)
  intro statement
  split
  · exact hR.result _
  · split
    · exact hR.seq (hR.fetchStatement c _) fun _ => hR.result _
    · exact hR.seq (hR.executeStatement c _) fun _ => hR.result _

theorem affected (hR : Serving d R) (c : Connection) (statement : Option Sql.Statement) :
    Keeps R (Action.affected d c statement) := by
  unfold Action.affected
  split
  · exact hR.result _
  · exact hR.seq (hR.executeStatement c _) fun _ => hR.result _

theorem update (hR : Serving d R) (c : Connection) (table : String) (values : Entries Value)
    (conditions : List (Condition Query)) (writeNulls : Bool) :
    Keeps R (Action.update d c table values conditions writeNulls) :=
  hR.seq (keeps_check hR.toChained _) fun _ => hR.affected c _

theorem delete (hR : Serving d R) (c : Connection) (table : String)
    (conditions : List (Condition Query)) : Keeps R (Action.delete d c table conditions) :=
  hR.seq (keeps_check hR.toChained _) fun _ => hR.affected c _

theorem hasTable (hR : Serving d R) (c : Connection) (table : String) :
    Keeps R (Action.hasTable d c table) := by
  apply hR.seq
  · apply keeps_attempt
    exact hR.seq (keeps_check hR.toChained _) fun (sql, values) => hR.fetch c sql values
  · intro outcome
    split
    · exact hR.result _
    · split
      · exact hR.result _
      · exact hR.fail _

theorem createTable (hR : Serving d R) (c : Connection) (table : String)
    (definitions : List String) : Keeps R (Action.createTable d c table definitions) := by
  apply hR.seq (keeps_check hR.toChained _)
  intro sql
  apply hR.seq
  · exact hR.seq (keeps_check hR.toChained _) fun (sql, values) => hR.execute c sql values
  · exact fun _ => hR.result _

theorem ensureTable (hR : Serving d R) (c : Connection) (j : Junction) :
    Keeps R (Action.ensureTable d c j) := by
  apply hR.seq (hR.hasTable c j.table)
  intro present
  split
  · exact hR.result _
  · exact hR.createTable c j.table _

theorem linkedKeys (hR : Serving d R) (c : Connection) (j : Junction) (owner : Value) :
    Keeps R (Action.linkedKeys d c j owner) := by
  apply hR.seq (keeps_check hR.toChained _)
  intro statement
  exact hR.seq (hR.fetchStatement c statement) fun _ => hR.result _

theorem link (hR : Serving d R) (c : Connection) (j : Junction) (owner : Value)
    (wanted : List Value) : Keeps R (Action.link d c j owner wanted) := by
  have insertion (changes : LinkChanges) : Keeps R
      (if !changes.added.isEmpty then do
        let _ ← Action.insert d c j.table (changes.added.map (j.link owner)) {}
        return changes
      else return changes) := by
    split
    · exact hR.seq (hR.insert c j.table _ {}) fun _ => hR.result _
    · exact hR.result _
  apply hR.seq (hR.ensureTable c j)
  intro _
  apply hR.seq (hR.linkedKeys c j owner)
  intro present
  dsimp only
  split
  · exact hR.seq (hR.delete c j.table _) fun _ => insertion _
  · exact insertion _

theorem linkRelation (hR : Serving d R) (c : Connection) (r : Record) (owner : Value)
    (name : String) (wanted : List Value) :
    Keeps R (Action.linkRelation d c r owner name wanted) :=
  hR.seq (hR.junctionNamed r.schema name) fun j => hR.link c j owner wanted

theorem linkEach (hR : Serving d R) (c : Connection) (r : Record) (owner : Value)
    (entries : Entries (List Value)) : Keeps R (Action.linkEach d c r owner entries) := by
  induction entries with
  | nil => exact hR.result _
  | cons entry rest ih =>
    obtain ⟨name, wanted⟩ := entry
    apply hR.seq (hR.linkRelation c r owner name wanted)
    intro first
    exact hR.seq ih fun _ => hR.result _

end Serving

/-! ## With the identity map -/

namespace Remembering

theorem rememberFound (hR : Remembering d R) (found : Option Record) :
    Keeps R (Action.rememberFound (σ := σ) found) := by
  cases found with
  | none => exact hR.result _
  | some r => exact hR.remember r

theorem findRecord (hR : Remembering d R) (schema : Schema) (key : Value) :
    Keeps R (Action.findRecord d schema key) := by
  unfold Action.findRecord
  split
  · exact hR.result _
  · apply hR.seq (hR.ask _)
    intro known
    split
    · exact hR.result _
    · apply hR.seq (hR.queryOf schema)
      intro q
      apply hR.seq (hR.records schema _)
      intro found
      exact hR.seq (hR.rememberFound _) fun _ => hR.result _

end Remembering

end Action

/-! ## Work on a record -/

namespace RecordAction

theorem inSession_eq_ok {action : Action σ α} {f g : Focus σ} {a : α} :
    inSession action f = .ok a g ↔
      ∃ s, action f.session = .ok a s ∧ g = { f with session := s } := by
  unfold inSession
  cases action f.session <;> simp [eq_comm, and_assoc]

theorem inSession_eq_error {action : Action σ α} {f g : Focus σ} {e : Error} :
    inSession action f = .error e g ↔
      ∃ s, action f.session = .error e s ∧ g = { f with session := s } := by
  unfold inSession
  cases action f.session <;> simp [eq_comm, and_assoc]

theorem session_final_inSession (x : Action σ α) (f : Focus σ) :
    (final (inSession x f)).session = final (x f.session) := by
  unfold inSession
  cases x f.session <;> rfl

theorem check_eq_ok {outcome : Except Error α} {f g : Focus σ} {a : α} :
    check outcome f = .ok a g ↔ outcome = .ok a ∧ g = f := by
  unfold check
  cases outcome <;> simp [eq_comm]

theorem check_ensureLive {f : Focus σ} (h : f.record.voided = false) :
    (check f.record.ensureLive : RecordAction σ Unit) f = .ok () f :=
  check_eq_ok.2 ⟨Record.ensureLive_of_live h, rfl⟩

@[simp] theorem get_bind (g : Focus σ → RecordAction σ α) (f : Focus σ) :
    ((get : RecordAction σ (Focus σ)) >>= g) f = g f f := rfl

@[simp] theorem record_bind (g : Record → RecordAction σ α) (f : Focus σ) :
    (record >>= g) f = g f.record f := rfl

/-- Those who are told of an operation cannot make it fail, and nothing but the journal changes. -/
theorem after_eq_ok (e : Event) (f : Focus σ) :
    ∃ notices, after e f = .ok () { f with session := { f.session with notices } } := by
  have told (observers : List Observer) (f : Focus σ) :
      ∃ notices, (observers.forM fun o => note o e : RecordAction σ Unit) f =
        .ok () { f with session := { f.session with notices } } := by
    induction observers generalizing f with
    | nil => exact ⟨f.session.notices, rfl⟩
    | cons o rest ih =>
      obtain ⟨notices, h⟩ := ih { f with session := { f.session with
        notices := f.session.notices ++ [⟨o.label, e⟩] } }
      exact ⟨notices, h⟩
  unfold after
  simp only [get_bind]
  split
  · exact ⟨f.session.notices, rfl⟩
  · exact told _ f

/-- No observer is told of what happens to the record, since the session has none for its model. -/
def Unobserved (f : Focus σ) : Prop := f.session.observers.ofModel f.record.model = []

theorem before_of_unobserved {f : Focus σ} (h : Unobserved f) (e : Event) :
    before e f = .ok true f := by
  have hnil : f.session.observers.ofModel f.record.model = [] := h
  simp only [before, get_bind, hnil, List.isEmpty_nil, Bool.or_true, if_true]
  rfl

theorem after_of_unobserved {f : Focus σ} (h : Unobserved f) (e : Event) :
    after e f = .ok () f := by
  have hnil : f.session.observers.ofModel f.record.model = [] := h
  simp only [after, get_bind, hnil]
  split <;> rfl

/-! ## What the steps of a save keep -/

section

variable {F : Focus σ → Focus σ → Prop}

theorem keeps_check (hF : Chained F) (outcome : Except Error α) :
    Keeps F (check outcome : RecordAction σ α) := by
  intro f
  cases outcome <;> exact hF.refl f

theorem keeps_record (hF : Chained F) : Keeps F (record : RecordAction σ Record) :=
  hF.seq hF.read fun _ => hF.result _

/-- A validation keeps what its observers keep and what does not depend on the errors that are noted
in the record. -/
theorem keeps_validate (hF : Chained F)
    (hbefore : Keeps F (before .validating : RecordAction σ Bool))
    (herrors : ∀ errors, Keeps F (change fun r => { r with errors } : RecordAction σ Unit))
    (hafter : Keeps F (after .validated : RecordAction σ Unit)) :
    Keeps F (validate : RecordAction σ Bool) := by
  apply hF.seq hbefore
  intro goOn
  split
  · exact hF.result _
  · apply hF.seq (keeps_record hF)
    intro r
    apply hF.seq (herrors r.validate)
    exact fun _ => hF.seq hafter fun _ => hF.result _

/-- Saving links keeps what opening the connection, taking them from the record and writing them in
the session keep. -/
theorem keeps_saveLinks {d : Driver σ} (hF : Chained F)
    (hconnect : ∀ schema, Keeps F (inSession (Action.connectionOf d schema)))
    (htake : Keeps F (change fun r => { r with pending := [] } : RecordAction σ Unit))
    (hlink : ∀ c r key links, Keeps F (inSession (Action.linkEach d c r key links))) :
    Keeps F (saveLinks d) := by
  apply hF.seq (keeps_record hF)
  intro r
  split
  · exact hF.result _
  · split
    · exact hF.fail _
    · apply hF.seq (hconnect r.schema)
      intro c
      apply hF.seq htake
      exact fun _ => hlink c r _ r.pending

end

variable {R : Session σ → Session σ → Prop}

theorem chained_across (hR : Chained R) : Chained (Focus.Across R) where
  refl f := hR.refl f.session
  trans := hR.trans

theorem across_check (hR : Chained R) (outcome : Except Error α) :
    Keeps (Focus.Across R) (check outcome) :=
  keeps_check (chained_across hR) outcome

theorem across_inSession {action : Action σ α} (h : Keeps R action) :
    Keeps (Focus.Across R) (inSession action) := by
  intro f
  have hs := h f.session
  unfold inSession
  cases hf : action f.session <;> rwa [hf] at hs

theorem across_change (hR : Chained R) (f : Record → Record) :
    Keeps (Focus.Across R) (change f : RecordAction σ Unit) :=
  fun s => hR.refl s.session

theorem across_record (hR : Chained R) : Keeps (Focus.Across R) (record : RecordAction σ Record) :=
  keeps_record (chained_across hR)

end RecordAction

/-! ## Writing a row -/

namespace RecordAction

/-- A change of the record that leaves its model and its assigned links. -/
def KeepsLinks (f : Record → Record) : Prop :=
  ∀ r, (f r).schema = r.schema ∧ (f r).pending = r.pending

theorem stampAll_stores {P : Record → Prop}
    (hP : ∀ r column v, P r → P (r.storeCoerced column v)) (now : Value) (user : Option Value)
    (inserting : Bool) {r : Record} (h : P r) : P (stampAll now user inserting r) := by
  have stamped (b : Bool) (column : String) (v : Value) {r : Record} (h : P r) :
      P (stamp b column v r) := by
    have choose (needed : Bool) : P (if needed then r.storeCoerced column v else r) := by
      cases needed
      · exact h
      · exact hP r column v h
    exact choose _
  have stampedOption (b : Bool) (column : String) {r : Record} (h : P r) :
      P (stampOption b column user r) := by
    cases user with
    | none => exact h
    | some v => exact stamped b column v h
  unfold stampAll
  cases inserting with
  | false => exact stampedOption _ _ (stamped _ _ _ h)
  | true => exact stampedOption _ _ (stamped _ _ _ (stampedOption _ _ (stamped _ _ _ h)))

theorem changesRow_stampAll (now : Value) (user : Option Value) (inserting : Bool) (r : Record) :
    Record.ChangesRow r (stampAll now user inserting r) := by
  have hR := Record.chained_changesRow
  exact stampAll_stores (fun s column v h => hR.trans h (s.changesRow_storeCoerced column v))
    now user inserting (hR.refl r)

theorem keepsLinks_stampAll (now : Value) (user : Option Value) (inserting : Bool) :
    KeepsLinks (stampAll now user inserting) := by
  intro r
  obtain ⟨_, _, _, h⟩ := changesRow_stampAll now user inserting r
  rw [h]
  exact ⟨rfl, rfl⟩

inductive RowChange : (Record → Record) → Prop
  | stamp (now : Value) (user : Option Value) (inserting : Bool) :
      RowChange (stampAll now user inserting)
  | errors (errors : ValidationErrors) : RowChange fun r => { r with errors }
  | key (v : Value) : RowChange fun r => r.withKey v

theorem RowChange.keepsLinks {f : Record → Record} (hf : RowChange f) : KeepsLinks f := by
  cases hf with
  | stamp now user inserting => exact keepsLinks_stampAll now user inserting
  | errors => exact fun _ => ⟨rfl, rfl⟩
  | key => exact fun _ => ⟨rfl, rfl⟩

/-- A relation of sessions and records that holds across the steps of writing a row. -/
structure Writing (d : Driver σ) (F : Focus σ → Focus σ → Prop) : Prop extends Chained F where
  before : ∀ e, Keeps F (before e : RecordAction σ Bool)
  after : ∀ e, Keeps F (after e : RecordAction σ Unit)
  change : ∀ f, RowChange f → Keeps F (change f : RecordAction σ Unit)
  inSession : ∀ {α : Type} (x : Action σ α),
    (∀ R, Action.Forgetting d R → Keeps R x) → Keeps F (inSession x)

namespace Writing

variable {d : Driver σ} {F : Focus σ → Focus σ → Prop}

theorem record (hF : Writing d F) : Keeps F (record : RecordAction σ Record) :=
  keeps_record hF.toChained

theorem stampNow (hF : Writing d F) (inserting : Bool) :
    Keeps F (RecordAction.stampNow inserting : RecordAction σ Unit) :=
  hF.seq hF.read fun _ => hF.change _ (.stamp _ _ _)

theorem validate (hF : Writing d F) : Keeps F (RecordAction.validate : RecordAction σ Bool) :=
  keeps_validate hF.toChained (hF.before .validating) (fun errors => hF.change _ (.errors errors))
    (hF.after .validated)

theorem insertRow (hF : Writing d F) : Keeps F (RecordAction.insertRow d) := by
  apply hF.seq (hF.stampNow true)
  intro _
  apply hF.seq (hF.before .creating)
  intro goOn
  split
  · exact hF.result _
  · apply hF.seq hF.record
    intro r
    apply hF.seq (hF.inSession _ fun _ hR => hR.connectionOf r.schema)
    intro c
    apply hF.seq (hF.inSession _ fun _ hR => hR.tableOf r.schema)
    intro table
    apply hF.seq (hF.inSession _ fun _ hR => hR.insert c table _ _)
    intro given
    split
    · apply hF.seq
      · exact hF.change _ (.key _)
      · exact fun _ => hF.seq (hF.after .created) fun _ => hF.result _
    · exact hF.seq (hF.after .created) fun _ => hF.result _

theorem updateColumns (hF : Writing d F) : Keeps F (RecordAction.updateColumns d) := by
  apply hF.seq (hF.stampNow false)
  intro _
  apply hF.seq hF.record
  intro r
  apply hF.seq (hF.inSession _ fun _ hR => hR.connectionOf r.schema)
  intro c
  apply hF.seq (hF.inSession _ fun _ hR => hR.tableOf r.schema)
  intro table
  apply hF.seq (hF.inSession _ fun _ hR => hR.update c table _ _ _)
  intro _
  exact hF.seq (hF.inSession _ fun _ hR => hR.forget _) fun _ => hF.result _

theorem updateRow (hF : Writing d F) : Keeps F (RecordAction.updateRow d) := by
  apply hF.seq (hF.before .updating)
  intro goOn
  split
  · exact hF.result _
  · apply hF.seq hF.record
    intro r
    split
    · apply hF.seq hF.updateColumns
      exact fun _ => hF.seq (hF.after .updated) fun _ => hF.result _
    · exact hF.seq (hF.after .updated) fun _ => hF.result _

theorem writeRow (hF : Writing d F) : Keeps F (RecordAction.writeRow d) := by
  apply hF.seq hF.record
  intro r
  split
  · exact hF.insertRow
  · exact hF.updateRow

/-- What holds across the steps of writing a row, and across voiding the record, holds across its
deletion. -/
theorem delete (hF : Writing d F)
    (hvoid : Keeps F (RecordAction.change Record.void : RecordAction σ Unit)) :
    Keeps F (RecordAction.delete d) := by
  apply hF.seq hF.record
  intro r
  apply hF.seq (keeps_check hF.toChained _)
  intro _
  split
  · exact hF.result _
  · apply hF.seq (hF.before .deleting)
    intro goOn
    split
    · exact hF.result _
    apply hF.seq (hF.inSession _ fun _ hR => hR.connectionOf r.schema)
    intro c
    apply hF.seq (hF.inSession _ fun _ hR => hR.tableOf r.schema)
    intro table
    apply hF.seq (hF.inSession _ fun _ hR => hR.toSending.delete c table _)
    intro deleted
    apply hF.seq (hF.inSession _ fun _ hR => hR.forget _)
    intro _
    apply hF.seq (hF.after .deleted)
    intro _
    exact hF.seq hvoid fun _ => hF.result _

end Writing

end RecordAction

/-! ## Relations of sessions across the work on a record -/

namespace Action

open RecordAction

variable {d : Driver σ} {R : Session σ → Session σ → Prop}

namespace Quiet

theorem across_note (hR : Quiet d R) (o : Observer) (e : Event) :
    Keeps (Focus.Across R) (RecordAction.note o e : RecordAction σ Unit) :=
  fun f => hR.note f.session _

theorem askOne (hR : Quiet d R) (e : Event) (o : Observer) :
    Keeps (Focus.Across R) (RecordAction.askOne e o : RecordAction σ Bool) := by
  have hF := chained_across hR.toChained
  apply hF.seq (hR.across_note o e)
  intro _
  apply hF.seq (across_record hR.toChained)
  intro r
  split
  · exact hF.seq (across_change hR.toChained _) fun _ => hF.result _
  · apply hF.seq (across_change hR.toChained _)
    intro _
    unfold afterFailure
    split
    · exact hF.result _
    · exact hF.fail _

theorem askEach (hR : Quiet d R) (e : Event) (observers : List Observer) :
    Keeps (Focus.Across R) (RecordAction.askEach e observers : RecordAction σ Bool) := by
  have hF := chained_across hR.toChained
  induction observers with
  | nil => exact hF.result _
  | cons o rest ih =>
    apply hF.seq (hR.askOne e o)
    intro goOn
    split
    · exact ih
    · exact hF.result _

theorem before (hR : Quiet d R) (e : Event) :
    Keeps (Focus.Across R) (RecordAction.before e : RecordAction σ Bool) := by
  have hF := chained_across hR.toChained
  apply hF.seq hF.read
  intro f
  dsimp only
  split
  · exact hR.askEach e _
  · exact hF.fail _

theorem after (hR : Quiet d R) (e : Event) :
    Keeps (Focus.Across R) (RecordAction.after e : RecordAction σ Unit) := by
  have hF := chained_across hR.toChained
  have told (observers : List Observer) :
      Keeps (Focus.Across R)
        (observers.forM fun o => RecordAction.note o e : RecordAction σ Unit) := by
    induction observers with
    | nil => exact hF.result _
    | cons o rest ih => exact hF.seq (hR.across_note o e) fun _ => ih
  apply hF.seq hF.read
  intro f
  split
  · exact hF.result _
  · exact told _

end Quiet

namespace Serving

theorem saveLinks (hR : Serving d R) : Keeps (Focus.Across R) (RecordAction.saveLinks d) :=
  keeps_saveLinks (chained_across hR.toChained)
    (fun schema => across_inSession (hR.connectionOf schema)) (across_change hR.toChained _)
    fun c r key links => across_inSession (hR.linkEach c r key links)

end Serving

namespace Forgetting

theorem writing (hR : Forgetting d R) : Writing d (Focus.Across R) where
  toChained := chained_across hR.toChained
  before := hR.before
  after := hR.after
  change f _ := across_change hR.toChained f
  inSession _ hx := across_inSession (hx R hR)

theorem delete (hR : Forgetting d R) : Keeps (Focus.Across R) (RecordAction.delete d) :=
  hR.writing.delete (across_change hR.toChained _)

end Forgetting

namespace Remembering

theorem save (hR : Remembering d R) : Keeps (Focus.Across R) (RecordAction.save d) := by
  have hF := chained_across hR.toChained
  apply hF.seq (across_record hR.toChained)
  intro r
  apply hF.seq (across_check hR.toChained _)
  intro _
  apply hF.seq (hR.before .saving)
  intro goOn
  split
  · exact hF.result _
  apply hF.seq hR.writing.validate
  intro valid
  split
  · exact hF.result _
  apply hF.seq (across_record hR.toChained)
  intro r
  apply hF.seq hR.writing.writeRow
  intro written
  split
  · exact hF.result _
  apply hF.seq hR.saveLinks
  intro _
  apply hF.seq (hR.after .saved)
  intro _
  apply hF.seq (across_change hR.toChained _)
  intro _
  split
  · apply hF.seq (across_record hR.toChained)
    intro r
    exact hF.seq (across_inSession (hR.remember r)) fun _ => hF.result _
  · exact hF.result _

end Remembering

end Action

end RowMapper
