import RowMapper.Proofs.Session.LinkRoutes

/-! # Missing tables behind a relation

The records of a relation with a junction table are read by one statement, which takes rows from
two tables. Where the driver refuses it because a table does not exist, there are no records, and
that is kept with the record; any other refusal is the error of the load. Which table is missing is
not asked, so the table of the related records counts as well as the junction table.
-/

namespace RowMapper

open Run

variable {σ : Type}

def Error.isMissingTable (d : Dialect) : Error → Bool
  | .queryFailed code message => d.isMissingTable code message
  | _ => false

/-- What the refusals of a database say of missing tables: one that says a table does not exist
tells which. -/
structure MissingTables (d : Dialect) where
  table : Error → Option String
  isSome_table : ∀ e, (table e).isSome = e.isMissingTable d

/-! ## The connection after a refusal -/

namespace Action

variable {d : Driver σ}

theorem send_of_error {α : Type} (c : Connection) (sql : String) (values : List Value)
    {body : EStateM Error σ α} {s : Session σ} {e : Error} {servers : σ}
    (h : body s.servers = .error e servers) :
    ∃ t, send c sql values body s = .error e t ∧
      t.connections = counted s.connections c.name true := by
  unfold send
  rw [h]
  exact ⟨_, rfl, rfl⟩

theorem connection_of_counted {name : String} {s t : Session σ} {c : Connection} {sender : String}
    (hregistered : Entries.get? s.connections name = some c)
    (ht : t.connections = counted s.connections sender true) :
    ∃ c', connection d name t = .ok c' t ∧ c'.dialect = c.dialect := by
  have hknown : Entries.get? t.connections name =
      some (if name = sender then c.counted true else c) := by
    rw [ht, get?_counted, hregistered, Option.map_some]
  refine ⟨_, connection_of_registered hknown, ?_⟩
  split <;> rfl

/-! ## The statement that reads linked records -/

/-- A statement, with the connection that it goes over. -/
structure Question where
  connection : Connection
  sql : String
  values : List Value

def Question.answer (d : Driver σ) (a : Question) : EStateM Error σ (List Row) :=
  d.fetch a.connection.serial a.connection.config a.sql a.values

def linkQuestion (d : Driver σ) (owner : Schema) (key : Value) (name : String)
    (relation : Relation) (target : Schema) : Action σ Question := do
  let q ← linkedQuery owner key name relation target
  let c ← connectionOf d target
  let statement ← check (Sql.Statement.ofQuery c.dialect q)
  let (sql, values) ← check (statement.toPositional c.dialect)
  return ⟨c, sql, values⟩

variable {owner target : Schema} {key : Value} {name : String} {relation : Relation}
  {s t : Session σ} {a : Question} {e : Error} {servers : σ}

theorem linkQuestion_eq_ok (h : linkQuestion d owner key name relation target s = .ok a t) :
    ∃ q u statement, linkedQuery owner key name relation target s = .ok q u ∧
      connectionOf d target u = .ok a.connection t ∧
      Sql.Statement.ofQuery a.connection.dialect q = .ok statement ∧
      statement.toPositional a.connection.dialect = .ok (a.sql, a.values) := by
  obtain ⟨q, u, hq, hasked⟩ := bind_eq_ok.1 h
  obtain ⟨c, v, hc, hrendered⟩ := bind_eq_ok.1 hasked
  obtain ⟨statement, w, hstatement, hbound⟩ := bind_eq_ok.1 hrendered
  obtain ⟨hquery, rfl⟩ := check_eq_ok.1 hstatement
  obtain ⟨⟨sql, values⟩, x, hsent, hlast⟩ := bind_eq_ok.1 hbound
  obtain ⟨hpositional, rfl⟩ := check_eq_ok.1 hsent
  obtain ⟨rfl, rfl⟩ := pure_eq_ok.1 hlast
  exact ⟨q, u, statement, hq, hc, hquery, hpositional⟩

/-- Linked records whose question is refused: there are none if a table is missing, and otherwise
the refusal is the error. -/
theorem linkedRecords_of_refused
    (hask : linkQuestion d owner key name relation target s = .ok a t)
    (hrefused : a.answer d t.servers = .error e servers) :
    ∃ u, linkedRecords d owner key name relation target s =
      if e.isMissingTable a.connection.dialect then .ok [] u else .error e u := by
  obtain ⟨q, u, statement, hq, hc, hquery, hpositional⟩ := linkQuestion_eq_ok hask
  have hname : q.connectionName = target.connection := by
    obtain ⟨start, start', relations, -, -, rfl⟩ := linkedQuery_eq_ok hq
    rfl
  obtain ⟨v, hsend, hcounted⟩ := send_of_error a.connection a.sql a.values hrefused
  obtain ⟨c, hagain, hdialect⟩ := connection_of_counted (d := d) (registered_of_connection hc)
    hcounted
  have hrecords : records d target q u = .error e v := by
    have hrows : rows d q u = .error e v := by
      rw [connectionOf, ← hname] at hc
      rw [rows, bind_of_ok hc, bind_of_ok (check_of_ok hquery _)]
      exact (bind_of_ok (check_of_ok hpositional _) _).trans hsend
    exact bind_of_error hrows _
  have hattempt : attempt (records d target q) u = .ok (.error e) v := by
    rw [attempt, hrecords]
  refine ⟨v, ?_⟩
  rw [linkedRecords, bind_of_ok hq, bind_of_ok hattempt]
  cases e with
  | queryFailed code message =>
    dsimp only
    rw [connectionOf, bind_of_ok hagain, hdialect, Error.isMissingTable]
    split <;> rfl
  | _ => rfl

end Action

namespace RecordAction

open RowMapper.Action

variable {d : Driver σ} {f : Focus σ} {name : String} {relation : Relation} {key : Value}
  {dialect : Dialect} {e : Error}

/-- A stored record and a relation of it with a junction table, of which nothing is known and to
which nothing is assigned. -/
structure Unread (f : Focus σ) (name : String) (relation : Relation) (key : Value) : Prop where
  live : f.record.voided = false
  key : f.record.key? = some key
  declared : f.record.schema.relation name = some relation
  kind : relation.kind = .manyToMany
  unassigned : f.record.pending.get? name = none
  unknown : f.record.related? name = none

/-- The error with which the driver refuses to read the linked records, and the dialect in which it
was asked. -/
def linkRefusal? (d : Driver σ) (f : Focus σ) (name : String) (relation : Relation) (key : Value) :
    Option (Dialect × Error) :=
  match (targetSchema relation >>= linkQuestion d f.record.schema key name relation) f.session with
  | .ok a s => (failure? (a.answer d s.servers)).map fun e => (a.connection.dialect, e)
  | .error _ _ => none

theorem linkRefusal?_eq_some (h : linkRefusal? d f name relation key = some (dialect, e)) :
    ∃ target s a t servers, targetSchema relation f.session = .ok target s ∧
      linkQuestion d f.record.schema key name relation target s = .ok a t ∧
      a.answer d t.servers = .error e servers ∧ a.connection.dialect = dialect := by
  unfold linkRefusal? at h
  split at h
  · next a t hrun =>
    obtain ⟨target, s, htarget, hask⟩ := bind_eq_ok.1 hrun
    obtain ⟨e', hfailure, heq⟩ := Option.map_eq_some_iff.1 h
    cases heq
    exact ⟨target, s, a, t, _, htarget, hask, eq_error_of_failure? hfailure, rfl⟩
  · cases h

theorem exists_junction (h : linkRefusal? d f name relation key = some (dialect, e)) :
    ∃ j, f.session.junction f.record.schema name relation = .ok j := by
  obtain ⟨target, s, a, t, -, htarget, hask, -, -⟩ := linkRefusal?_eq_some h
  obtain ⟨q, u, -, hq, -⟩ := linkQuestion_eq_ok hask
  obtain ⟨start, -, -, hstart, -⟩ := linkedQuery_eq_ok hq
  have hconfig : s.config = f.session.config := by
    cases htarget
    rfl
  rw [hconfig] at hstart
  exact ⟨_, by rw [Session.junction, hstart]; rfl⟩

/-- A load that is refused: without a table there is nothing, which is kept. Otherwise the refusal
is the error, and the record is left as it is. -/
theorem load_of_refused (h : Unread f name relation key)
    (hrefused : linkRefusal? d f name relation key = some (dialect, e)) :
    ∃ s, load d name f = if e.isMissingTable dialect then
      .ok (.many []) ⟨s, f.record.keep name (.many [])⟩ else .error e ⟨s, f.record⟩ := by
  obtain ⟨target, s, a, t, servers, htarget, hask, hanswer, rfl⟩ := linkRefusal?_eq_some hrefused
  obtain ⟨u, hlinked⟩ := linkedRecords_of_refused hask hanswer
  have hresolve : resolve d f.record name relation target = _ :=
    resolve_eq_linkedRecords h.kind h.unassigned h.key
  refine ⟨u, ?_⟩
  rw [load, record_bind, bind_of_ok (check_ensureLive h.live)]
  simp only [h.declared, h.unknown]
  rw [bind_of_ok (inSession_eq_ok.2 ⟨s, htarget, rfl⟩), hresolve]
  split at hlinked
  · next hmissing =>
    rw [if_pos hmissing, bind_of_ok (inSession_eq_ok.2 ⟨u, bind_of_ok hlinked _, rfl⟩)]
    rfl
  · next hother =>
    rw [if_neg hother, bind_of_error (inSession_eq_error.2 ⟨u, bind_of_error hlinked _, rfl⟩)]

/-- A refused load has no records just when the junction table is what is missing. Any other refusal
is its error, and nothing is kept. -/
def HidesOnly (junction : String) (missing : Option String) (e : Error) (r : Record)
    (result : EStateM.Result Error (Focus σ) (Related Record)) : Prop :=
  ((∃ g, result = .ok (.many []) g) ↔ missing = some junction) ∧
    (missing ≠ some junction → ∃ g, result = .error e g ∧ g.record = r)

/-- A refused load does as it should just when the refusal is one that says a table does not exist
exactly if it says so of the junction table. -/
theorem hidesOnly_iff (h : Unread f name relation key)
    (hrefused : linkRefusal? d f name relation key = some (dialect, e)) (junction : String)
    (missing : Option String) : HidesOnly junction missing e f.record (load d name f) ↔
      (e.isMissingTable dialect = true ↔ missing = some junction) := by
  obtain ⟨s, hload⟩ := load_of_refused h hrefused
  cases hmissing : e.isMissingTable dialect with
  | true =>
    rw [hmissing, if_pos rfl] at hload
    rw [HidesOnly, hload]
    have hempty : ∃ g, (.ok (.many []) ⟨s, f.record.keep name (.many [])⟩ :
        EStateM.Result Error (Focus σ) (Related Record)) = .ok (.many []) g := ⟨_, rfl⟩
    constructor
    · intro hides
      exact iff_of_true rfl (hides.1.1 hempty)
    · intro honly
      exact ⟨iff_of_true hempty (honly.1 rfl), fun hne => absurd (honly.1 rfl) hne⟩
  | false =>
    rw [hmissing, if_neg Bool.false_ne_true] at hload
    rw [HidesOnly, hload]
    have hnone : ¬∃ g, (.error e ⟨s, f.record⟩ : EStateM.Result Error (Focus σ) (Related Record)) =
        .ok (.many []) g := by
      rintro ⟨g, hg⟩
      cases hg
    constructor
    · intro hides
      exact iff_of_false Bool.false_ne_true fun hjunction => hnone (hides.1.2 hjunction)
    · intro honly
      exact ⟨iff_of_false hnone fun hjunction => Bool.false_ne_true (honly.2 hjunction),
        fun _ => ⟨_, rfl, rfl⟩⟩

/-- Only a missing junction table reads as no links, just when the refusal does not say of another
table that it is missing. -/
theorem load_hidesOnly_iff (h : Unread f name relation key)
    (hrefused : linkRefusal? d f name relation key = some (dialect, e))
    (reports : MissingTables dialect) :
    ∃ j, f.session.junction f.record.schema name relation = .ok j ∧
      (HidesOnly j.table (reports.table e) e f.record (load d name f) ↔
        ∀ table, reports.table e = some table → table = j.table) := by
  obtain ⟨j, hj⟩ := exists_junction hrefused
  refine ⟨j, hj, ?_⟩
  rw [hidesOnly_iff h hrefused, ← reports.isSome_table e]
  cases reports.table e with
  | none => simp
  | some table => simp

/-! ## Refusals with the name of a table -/

def quotedName (message : String) : String :=
  String.ofList (((message.toList.dropWhile (· != '"')).drop 1).takeWhile (· != '"'))

def quotedTables (dialect : Dialect) : MissingTables dialect where
  table
    | .queryFailed code message =>
      if dialect.isMissingTable code message then some (quotedName message) else none
    | _ => none
  isSome_table e := by
    cases e with
    | queryFailed code message => exact Bool.eq_iff_iff.2 Option.isSome_ite
    | _ => rfl

def missing (table : String) : Error :=
  .queryFailed "42P01" ("relation \"" ++ table ++ "\" does not exist")

/-- A driver that opens connections and refuses whatever is asked for rows. -/
def refusing (e : Error) : Driver Scripted.Servers :=
  { Scripted.driver with fetch := fun _ _ _ _ => throw e }

def homeQuiz : Focus Scripted.Servers := storedQuiz "default"

theorem unread_homeQuiz : Unread homeQuiz "dice" playedWith (.int64 5) :=
  ⟨rfl, rfl, rfl, rfl, rfl, rfl⟩

/-- What is asked does not depend on the answers. -/
theorem linkRefusal?_homeQuiz (e : Error) :
    linkRefusal? (refusing e) homeQuiz "dice" playedWith (.int64 5) = some (.postgres, e) := by
  have hdialect : (value? ((targetSchema playedWith >>= linkQuestion Scripted.driver
      homeQuiz.record.schema (.int64 5) "dice" playedWith) homeQuiz.session)).map
        (fun a => a.connection.dialect) = some .postgres := by
    decide +kernel
  obtain ⟨a, ha, hpostgres⟩ := Option.map_eq_some_iff.1 hdialect
  have hask : (targetSchema playedWith >>= linkQuestion (refusing e) homeQuiz.record.schema
      (.int64 5) "dice" playedWith) homeQuiz.session = .ok a _ := eq_ok_of_value? ha
  rw [linkRefusal?, hask, ← hpostgres]
  rfl

/-- The tables of the quiz: the links, which are missing first, and the dice. -/
theorem quizTables :
    (homeQuiz.session.junction homeQuiz.record.schema "dice" playedWith).map Junction.table =
      .ok "die_quiz" ∧
    (quotedTables .postgres).table (missing "die_quiz") = some "die_quiz" ∧
    (quotedTables .postgres).table (missing "die") = some "die" := by
  decide +kernel

theorem homeQuiz_hidesOnly :
    HidesOnly "die_quiz" (some "die_quiz") (missing "die_quiz") homeQuiz.record
      (load (refusing (missing "die_quiz")) "dice" homeQuiz) := by
  obtain ⟨hmap, hreported, -⟩ := quizTables
  obtain ⟨j, hj, hides⟩ := load_hidesOnly_iff unread_homeQuiz
    (linkRefusal?_homeQuiz (missing "die_quiz")) (quotedTables .postgres)
  have htable : j.table = "die_quiz" := by
    rw [hj] at hmap
    exact Except.ok.inj hmap
  rw [htable, hreported] at hides
  exact hides.2 fun table h => (Option.some.inj h).symm

/-- The links are there, but the table of the dice is not: there seem to be no dice, and this is
kept. -/
theorem homeQuiz_hidesDice :
    (quotedTables .postgres).table (missing "die") = some "die" ∧
    linkRefusal? (refusing (missing "die")) homeQuiz "dice" playedWith (.int64 5) =
      some (.postgres, missing "die") ∧
    (homeQuiz.session.junction homeQuiz.record.schema "dice" playedWith).map Junction.table =
      .ok "die_quiz" ∧
    ∃ g, load (refusing (missing "die")) "dice" homeQuiz = .ok (.many []) g ∧
      g.record.related? "dice" = some (.many []) := by
  obtain ⟨s, hload⟩ := load_of_refused unread_homeQuiz (linkRefusal?_homeQuiz (missing "die"))
  exact ⟨quizTables.2.2, linkRefusal?_homeQuiz _, quizTables.1, _, hload,
    Entries.get?_put_self _ _ _⟩

end RecordAction

end RowMapper
