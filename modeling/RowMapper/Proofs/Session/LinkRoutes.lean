import RowMapper.Proofs.Session.Layouts
import RowMapper.Proofs.Session.Messages
import RowMapper.Proofs.Session.PendingLinks
import RowMapper.Proofs.Statement.Tuples

/-! # Where links are written and read

Saving the links of a record and loading its relation lay out the same junction table:
its name, the two key columns, the owner's key and the name that the links carry are the
same in all statements. But links are written over the connection of the owner's table,
and the linked records are read over that of the target's table. The two meet just when
both models are bound to the same connection.
-/

namespace RowMapper

open Run Sql

variable {σ : Type}

/-! ## The statements on links -/

def Condition.under (table : String) : Condition Query → Condition Query
  | .basic column operator operand c => .basic (table ++ "." ++ column) operator operand c
  | c => c

namespace Junction

/-- The statements that write the links of an owner, as they are sent: the table is looked for and
created, the linked keys are read, links are deleted and inserted. -/
inductive Writes (j : Junction) (owner : Value) (d : Dialect) : String → List Value → Prop
  | probe {sql : String} {values : List Value} :
    positional d (tableProbe d j.table) [] = .ok (sql, values) → Writes j owner d sql values
  | creation {text sql : String} {values : List Value} :
    tableCreation d j.table (j.columnDefinitions d) = .ok text →
      positional d text [] = .ok (sql, values) → Writes j owner d sql values
  | selection {statement : Statement} {sql : String} {values : List Value} :
    Statement.ofQuery d (j.linkedKeys owner) = .ok statement →
      statement.toPositional d = .ok (sql, values) → Writes j owner d sql values
  | deletion {statement : Statement} {keys : List Value} {sql : String} {values : List Value} :
    Sql.deletion d j.table (j.linkConditions owner keys) = .ok statement →
      statement.toPositional d = .ok (sql, values) → Writes j owner d sql values
  | insertion {statement : Statement} {keys : List Value} {sql : String} {values : List Value} :
    Sql.insertion d j.table (keys.map (j.link owner)) {} = .ok (some statement) →
      statement.toPositional d = .ok (sql, values) → Writes j owner d sql values

def Inserts (j : Junction) (owner : Value) (keys : List Value) (m : Message) : Prop :=
  ∃ statement, Sql.insertion m.dialect j.table (keys.map (j.link owner)) {} = .ok (some statement) ∧
    statement.toPositional m.dialect = .ok (m.sql, m.values)

/-- The query of the rows of a target's table that are linked to an owner: the related key of a
link is the row's key, and the link meets the conditions on the owner's links. -/
def linkedRows (j : Junction) (owner : Value) (target : Schema) (table : String)
    (relations : List RelationJoin) : Query where
  columns := (listed (table ++ ".*")).map .column
  sources := (listed table).map .table
  joins := [⟨.inner, .table j.table, [.columns (j.table ++ "." ++ j.relatedKey) "="
    (table ++ "." ++ target.primaryKey) .and]⟩]
  wheres := (j.ownerConditions owner).map (Condition.under j.table)
  relations
  connection := some target.connection

def Reads (j : Junction) (owner : Value) (target : Schema) (table : String) (d : Dialect)
    (sql : String) (values : List Value) : Prop :=
  ∃ relations statement, Statement.ofQuery d (j.linkedRows owner target table relations) =
    .ok statement ∧ statement.toPositional d = .ok (sql, values)

/-- A row that links a key has that key as the related one, and all that the conditions on the
owner's links ask for. -/
theorem link_meets {owner target : Schema} {field start : String} {r : Relation} {j : Junction}
    (hj : j = .ofRelation owner field r target start) (key linked : Value) :
    (j.link key linked).get? j.relatedKey = some linked ∧
      ∀ c ∈ j.ownerConditions key, ∃ column v, c = .key column v ∧
        (j.link key linked).get? column = some v := by
  obtain ⟨hdistinct, howner, hrelated, -⟩ := ofRelation_columns hj
  rw [link_eq_of_ne hdistinct howner hrelated]
  constructor
  · simp [Entries.get?_cons, hdistinct]
  · intro c hc
    rcases List.mem_cons.1 hc with rfl | hc
    · exact ⟨j.ownerKey, key, rfl, by simp [Entries.get?_cons]⟩
    · obtain ⟨slot, hslot, rfl⟩ := List.mem_map.1 hc
      rw [Option.mem_toList] at hslot
      exact ⟨slotColumn, .text slot, rfl, by simp [Entries.get?_cons, hslot, howner, hrelated]⟩

end Junction

namespace Action

variable {d : Driver σ} {P : Message → Prop}

/-! ## Writing -/

section

variable {c : Connection} {j : Junction} {owner : Value}
  (hP : ∀ {sql values}, j.Writes owner c.dialect sql values → P ⟨c.name, c.dialect, sql, values⟩)
include hP

theorem sendsAll_ensureTable : Keeps (Session.SendsAll P) (ensureTable d c j) := by
  have hR := chained_sendsAll (σ := σ) P
  have hprobe : Keeps (Session.SendsAll P) (hasTable d c j.table) := by
    refine hR.seq (keeps_attempt (sendsAll_fetch d c fun hsent => hP (.probe hsent)))
      fun outcome => ?_
    split
    · exact hR.result _
    · split
      · exact hR.result _
      · exact hR.fail _
  refine hR.seq hprobe fun present => ?_
  split
  · exact hR.result _
  · refine keeps_check_seq hR fun text htext => ?_
    exact hR.seq (sendsAll_execute d c fun hsent => hP (.creation htext hsent))
      fun _ => hR.result _

theorem sendsAll_linkedKeys : Keeps (Session.SendsAll P) (linkedKeys d c j owner) := by
  have hR := chained_sendsAll (σ := σ) P
  refine keeps_check_seq hR fun statement hstatement => ?_
  exact hR.seq (sendsAll_fetch d c fun hsent => hP (.selection hstatement hsent))
    fun _ => hR.result _

theorem sendsAll_applyChanges (changes : LinkChanges) :
    Keeps (Session.SendsAll P) (applyChanges d c j owner changes) := by
  have hR := chained_sendsAll (σ := σ) P
  have hinsert : Keeps (Session.SendsAll P)
      (insert d c j.table (changes.added.map (j.link owner)) {}) := by
    refine keeps_check_seq hR fun statement hstatement => ?_
    cases statement with
    | none => exact hR.result _
    | some statement =>
      exact hR.seq (sendsAll_execute d c fun hsent => hP (.insertion hstatement hsent))
        fun _ => hR.result _
  have hdelete : Keeps (Session.SendsAll P)
      (delete d c j.table (j.linkConditions owner changes.removed)) := by
    refine keeps_check_seq hR fun statement hstatement => ?_
    exact hR.seq (sendsAll_execute d c fun hsent => hP (.deletion hstatement hsent))
      fun _ => hR.result _
  have hadd : Keeps (Session.SendsAll P) (addLinks d c j owner changes) := by
    unfold addLinks
    split
    · exact hR.seq hinsert fun _ => hR.result _
    · exact hR.result _
  unfold applyChanges
  split
  · exact hR.seq hdelete fun _ => hadd
  · exact hadd

theorem sendsAll_link (wanted : List Value) :
    Keeps (Session.SendsAll P) (link d c j owner wanted) := by
  have hR := chained_sendsAll (σ := σ) P
  rw [link_eq]
  refine hR.seq (sendsAll_ensureTable hP) fun _ => ?_
  exact hR.seq (sendsAll_linkedKeys hP) fun present => sendsAll_applyChanges hP _

end

/-- All assigned links are written over the one connection, each relation's in its own table. -/
theorem sendsAll_linkEach {c : Connection} {r : Record} {owner : Value}
    {entries : Entries (List Value)} {s : Session σ}
    (hP : ∀ {name wanted relation j sql values}, (name, wanted) ∈ entries →
      r.schema.relation name = some relation → s.junction r.schema name relation = .ok j →
        j.Writes owner c.dialect sql values → P ⟨c.name, c.dialect, sql, values⟩) :
    Session.SendsAll P s (final (linkEach d c r owner entries s)) := by
  have hR := chained_sendsAll (σ := σ) P
  induction entries generalizing s with
  | nil => exact hR.refl s
  | cons entry rest ih =>
    obtain ⟨name, wanted⟩ := entry
    have hquiet := quiet_sendsAll d P
    unfold linkEach
    refine hR.bind ?_ fun first t hfirst => ?_
    · refine hR.bind (hquiet.junctionNamed r.schema name s) fun j t hj => ?_
      obtain ⟨relation, hrelation, hlayout⟩ := layout_of_junctionNamed hj
      exact sendsAll_link (fun hw => hP List.mem_cons_self hrelation hlayout hw) wanted t
    · have hsame := ((remembering_layouts d).linkRelation c r owner name wanted).of_ok hfirst
      rw [final_bind_pure]
      refine ih fun hmem hrelation hlayout hw => ?_
      rw [hsame.junction_eq] at hlayout
      exact hP (List.mem_cons_of_mem _ hmem) hrelation hlayout hw

section

variable {c : Connection} {j : Junction} {owner : Value} {s t : Session σ}

theorem sendsSome_insert {keys : List Value} {inserted : Option Value} (hkeys : keys ≠ [])
    (h : insert d c j.table (keys.map (j.link owner)) {} s = .ok inserted t) :
    s.SendsSome (j.Inserts owner keys) t := by
  obtain ⟨statement, u, hcheck, hexecute⟩ := bind_eq_ok.1 h
  obtain ⟨hstatement, rfl⟩ := check_eq_ok.1 hcheck
  cases statement with
  | none =>
    cases keys with
    | nil => exact absurd rfl hkeys
    | cons key keys => exact absurd hstatement (insertion_ne_none _ _ _ _ _)
  | some statement =>
    obtain ⟨outcome, v, hsent, hlast⟩ := bind_eq_ok.1 hexecute
    obtain ⟨-, rfl⟩ := pure_eq_ok.1 hlast
    obtain ⟨text, params, hpositional, hmessages⟩ := messages_sent hsent
    exact ⟨_, hmessages, _, List.mem_singleton_self _, statement, hstatement, hpositional⟩

theorem sendsSome_addLinks {changes changes' : LinkChanges}
    (h : addLinks d c j owner changes s = .ok changes' t) (hadded : changes'.added ≠ []) :
    s.SendsSome (j.Inserts owner changes'.added) t := by
  unfold addLinks at h
  split at h
  · obtain ⟨inserted, u, hinsert, hlast⟩ := bind_eq_ok.1 h
    obtain ⟨rfl, rfl⟩ := pure_eq_ok.1 hlast
    exact sendsSome_insert hadded hinsert
  · next hnone =>
    obtain ⟨rfl, -⟩ := pure_eq_ok.1 h
    exact absurd (by simpa using hnone) hadded

/-- Linking that succeeds has inserted the links of the keys that it tells to be added. -/
theorem sendsSome_link {wanted : List Value} {changes : LinkChanges}
    (h : link d c j owner wanted s = .ok changes t) (hadded : changes.added ≠ []) :
    s.SendsSome (j.Inserts owner changes.added) t := by
  have hkept := remembering_messages d
  rw [link_eq] at h
  obtain ⟨_, u, hensure, hrest⟩ := bind_eq_ok.1 h
  obtain ⟨present, v, hpresent, happly⟩ := bind_eq_ok.1 hrest
  have hbefore := hkept.trans ((hkept.ensureTable c j).of_ok hensure)
    ((hkept.linkedKeys c j owner).of_ok hpresent)
  refine .after hbefore ?_
  unfold applyChanges at happly
  split at happly
  · obtain ⟨_, w, hdelete, hadd⟩ := bind_eq_ok.1 happly
    exact (sendsSome_addLinks hadd hadded).after ((hkept.toSending.delete c _ _).of_ok hdelete)
  · exact sendsSome_addLinks happly hadded

/-- So has linking of one relation after another, for each of them. -/
theorem sendsSome_linkEach {r : Record} {entries : Entries (List Value)}
    {report : Entries LinkChanges} {name : String} {changes : LinkChanges} {relation : Relation}
    (h : linkEach d c r owner entries s = .ok report t) (hmem : (name, changes) ∈ report)
    (hadded : changes.added ≠ []) (hrelation : r.schema.relation name = some relation)
    (hlayout : s.junction r.schema name relation = .ok j) :
    s.SendsSome (j.Inserts owner changes.added) t := by
  induction entries generalizing s report with
  | nil =>
    obtain ⟨rfl, -⟩ := pure_eq_ok.1 h
    cases hmem
  | cons entry rest ih =>
    obtain ⟨first, wanted⟩ := entry
    obtain ⟨made, u, hfirst, hrest⟩ := bind_eq_ok.1 h
    obtain ⟨others, v, hothers, hlast⟩ := bind_eq_ok.1 hrest
    obtain ⟨rfl, rfl⟩ := pure_eq_ok.1 hlast
    rcases List.mem_cons.1 hmem with hsame | hmem
    · cases hsame
      have hafter := ((remembering_messages d).linkEach c r owner rest).of_ok hothers
      obtain ⟨j', w, hj', hlink⟩ := bind_eq_ok.1 hfirst
      obtain ⟨relation', hrelation', hlayout'⟩ := layout_of_junctionNamed hj'
      have hbefore := ((remembering_messages d).junctionNamed r.schema name).of_ok hj'
      rw [hrelation] at hrelation'
      cases hrelation'
      rw [hlayout] at hlayout'
      cases hlayout'
      exact ((sendsSome_link hlink hadded).after hbefore).before hafter
    · have hbefore := ((remembering_messages d).linkRelation c r owner first wanted).of_ok hfirst
      have hsame := ((remembering_layouts d).linkRelation c r owner first wanted).of_ok hfirst
      exact (ih hothers hmem (hsame.junction_eq r.schema name relation ▸ hlayout)).after hbefore

end

/-! ## Reading -/

theorem final_attempt {α : Type} (x : Action σ α) (s : Session σ) :
    final (attempt x s) = final (x s) := by
  unfold attempt
  cases x s <;> rfl

theorem tableOf_eq_ok {schema : Schema} {s t : Session σ} {table : String}
    (h : tableOf schema s = .ok table t) : ∃ start,
      DatabaseConfig.tablePrefix s.config schema.connection = .ok start ∧
        table = start ++ schema.table ∧ t = s := by
  obtain ⟨start, u, hstart, hlast⟩ := bind_eq_ok.1 h
  obtain ⟨htablePrefix, rfl⟩ := tablePrefix_eq_ok.1 hstart
  obtain ⟨rfl, rfl⟩ := pure_eq_ok.1 hlast
  exact ⟨start, htablePrefix, rfl, rfl⟩

/-- The query of linked records restricts the rows to those that are linked to the owner in the
session's layout. -/
theorem linkedQuery_eq_ok {owner target : Schema} {key : Value} {name : String}
    {relation : Relation} {s t : Session σ} {q : Query}
    (h : linkedQuery owner key name relation target s = .ok q t) : ∃ start start' relations,
      DatabaseConfig.tablePrefix s.config owner.connection = .ok start ∧
      DatabaseConfig.tablePrefix s.config target.connection = .ok start' ∧
      q = (Junction.ofRelation owner name relation target start).linkedRows key target
        (start' ++ target.table) relations := by
  obtain ⟨j, u, hj, hrest⟩ := bind_eq_ok.1 h
  obtain ⟨start, hstart, rfl, rfl⟩ := junctionOf_eq_ok hj
  obtain ⟨table, v, htable, hlast⟩ := bind_eq_ok.1 hrest
  obtain ⟨start', hstart', rfl, rfl⟩ := tableOf_eq_ok htable
  obtain ⟨rows, w, hrows, hjoined⟩ := bind_eq_ok.1 hlast
  obtain ⟨table', x, htable', hrelations⟩ := bind_eq_ok.1 hrows
  obtain ⟨start'', hstart'', rfl, rfl⟩ := tableOf_eq_ok htable'
  rw [hstart'] at hstart''
  cases hstart''
  obtain ⟨relations, y, -, hquery⟩ := bind_eq_ok.1 hrelations
  obtain ⟨rfl, -⟩ := pure_eq_ok.1 hquery
  obtain ⟨rfl, -⟩ := pure_eq_ok.1 hjoined
  refine ⟨start, start', relations, hstart, hstart', ?_⟩
  generalize Junction.ofRelation owner name relation target start = j
  cases hslot : j.slot <;>
    simp [Junction.linkedRows, Junction.ownerConditions, hslot, Condition.under, Condition.key,
      Condition.equals, Condition.compare, Query.fromTables, Query.select, Query.onConnection,
      Query.withRelations, Query.joined, Query.filter]

theorem sendsAll_linkedRecords {owner target : Schema} {key : Value} {name : String}
    {relation : Relation} {s : Session σ} (hs : s.NamesConnections)
    (hP : ∀ {start start' dialect sql values},
      DatabaseConfig.tablePrefix s.config owner.connection = .ok start →
      DatabaseConfig.tablePrefix s.config target.connection = .ok start' →
      (Junction.ofRelation owner name relation target start).Reads key target
        (start' ++ target.table) dialect sql values →
      P ⟨target.connection, dialect, sql, values⟩) :
    Session.SendsAll P s (final (linkedRecords d owner key name relation target s)) := by
  have hR := chained_sendsAll (σ := σ) P
  have hquiet := quiet_sendsAll d P
  refine hR.bind (hquiet.linkedQuery owner key name relation target s) fun q t hq => ?_
  have hnames : t.NamesConnections :=
    ((remembering_names d).linkedQuery owner key name relation target).of_ok hq hs
  obtain ⟨start, start', relations, hstart, hstart', rfl⟩ := linkedQuery_eq_ok hq
  have hrows := sendsAll_rows (d := d) hnames fun hstatement hsent =>
    hP hstart hstart' ⟨relations, _, hstatement, hsent⟩
  refine hR.bind ?_ fun outcome u _ => ?_
  · rw [final_attempt]
    exact hR.bind hrows fun found u _ => hR.refl u
  · -- Whether the table is missing is asked of the connection without a statement.
    split
    · exact hR.refl u
    · refine hR.bind (hquiet.connectionOf target u) fun c v _ => ?_
      split
      · exact hR.refl v
      · exact hR.refl v
    · exact hR.refl u

theorem messages_linkedRecords {owner target : Schema} {key : Value} {name : String}
    {relation : Relation} {s t : Session σ} {found : List Record}
    (h : linkedRecords d owner key name relation target s = .ok found t) (hfound : found ≠ []) :
    ∃ m, t.messages = s.messages ++ [m] := by
  obtain ⟨q, u, hq, hrest⟩ := bind_eq_ok.1 h
  have hquiet : u.messages = s.messages :=
    ((quiet_messages d).linkedQuery owner key name relation target).of_ok hq
  obtain ⟨outcome, v, hattempt, hlast⟩ := bind_eq_ok.1 hrest
  rw [attempt] at hattempt
  cases hrun : records d target q u with
  | ok rs w =>
    rw [hrun] at hattempt
    cases hattempt
    obtain ⟨rfl, rfl⟩ := pure_eq_ok.1 hlast
    obtain ⟨rows, x, hrows, hhydrate⟩ := bind_eq_ok.1 hrun
    obtain ⟨_, _, hget, hpure⟩ := bind_eq_ok.1 hhydrate
    cases hget
    obtain ⟨-, rfl⟩ := pure_eq_ok.1 hpure
    obtain ⟨m, hm⟩ := messages_rows hrows
    exact ⟨m, by rw [hm, hquiet]⟩
  | error e w =>
    -- A failure is an error of the load, or that of a missing table, which has no records.
    rw [hrun] at hattempt
    cases hattempt
    exfalso
    cases e with
    | queryFailed code message =>
      obtain ⟨c, x, -, hmissing⟩ := bind_eq_ok.1 hlast
      split at hmissing
      · exact hfound (pure_eq_ok.1 hmissing).1.symm
      · exact throw_ne_ok hmissing
    | _ => exact throw_ne_ok hlast

/-- A relation with a junction table to which nothing is assigned is resolved by its links. -/
theorem resolve_eq_linkedRecords {r : Record} {name : String} {relation : Relation}
    {target : Schema} {key : Value} (hkind : relation.kind = .manyToMany)
    (hpending : r.pending.get? name = none) (hkey : r.key? = some key) :
    resolve d r name relation target = (do
      return some (.many (← linkedRecords d r.schema key name relation target))) := by
  have hdependents : dependents d r key name relation target = (do
      return .many (← linkedRecords d r.schema key name relation target)) := by
    rw [dependents, hkind]
  rw [resolve, if_neg (by simp [hkind]), hpending]
  simp only [Option.filter_none, hkey, hdependents, bind_assoc, pure_bind]

end Action

namespace RecordAction

open RowMapper.Action

variable {d : Driver σ} {P : Message → Prop}

/-- All assigned links of a record are written over the connection of its table. -/
theorem sendsAll_saveLinks {f : Focus σ} {key : Value} (hnames : f.session.NamesConnections)
    (hkey : f.record.key? = some key)
    (hP : ∀ {name wanted relation j dialect sql values}, (name, wanted) ∈ f.record.pending →
      f.record.schema.relation name = some relation →
      f.session.junction f.record.schema name relation = .ok j → j.Writes key dialect sql values →
      P ⟨f.record.schema.connection, dialect, sql, values⟩) :
    Session.SendsAll P f.session (final (saveLinks d f)).session := by
  have hR := chained_sendsAll (σ := σ) P
  by_cases hassigned : f.record.pending = []
  · rw [saveLinks_of_pending_nil hassigned]
    exact hR.refl _
  have hopen := (quiet_sendsAll d P).connectionOf f.record.schema f.session
  cases hrun : connectionOf d f.record.schema f.session with
  | error e t =>
    rw [hrun] at hopen
    unfold saveLinks
    simp only [record_bind, List.isEmpty_iff, hassigned, if_false, hkey]
    rw [bind_of_error (inSession_eq_error.2 ⟨t, hrun, rfl⟩)]
    exact hopen
  | ok c t =>
    rw [hrun] at hopen
    have hname := name_of_connection hnames hrun
    have hsame := ((remembering_layouts d).connectionOf f.record.schema).of_ok hrun
    have hlinks : Session.SendsAll P t
        (final (linkEach d c f.record key f.record.pending t)) := by
      refine sendsAll_linkEach fun hmem hrelation hlayout hw => ?_
      rw [hsame.junction_eq] at hlayout
      rw [hname]
      exact hP hmem hrelation hlayout hw
    rw [saveLinks_of_starts hassigned hkey hrun, session_final_inSession]
    exact hR.trans hopen hlinks

theorem sendsSome_saveLinks {f h : Focus σ} {report : Entries LinkChanges} {name : String}
    {changes : LinkChanges} {relation : Relation} {key : Value} {j : Junction}
    (hkey : f.record.key? = some key) (hsave : saveLinks d f = .ok report h)
    (hmem : (name, changes) ∈ report) (hadded : changes.added ≠ [])
    (hrelation : f.record.schema.relation name = some relation)
    (hlayout : f.session.junction f.record.schema name relation = .ok j) :
    f.session.SendsSome (j.Inserts key changes.added) h.session := by
  by_cases hassigned : f.record.pending = []
  · rw [saveLinks_of_pending_nil hassigned] at hsave
    cases hsave
    cases hmem
  cases hrun : connectionOf d f.record.schema f.session with
  | error e t =>
    have hopen := inSession_eq_error.2 ⟨t, hrun, rfl⟩
    unfold saveLinks at hsave
    simp only [record_bind, List.isEmpty_iff, hassigned, if_false, hkey] at hsave
    rw [bind_of_error hopen] at hsave
    cases hsave
  | ok c t =>
    rw [saveLinks_of_starts hassigned hkey hrun] at hsave
    obtain ⟨u, hlinks, rfl⟩ := inSession_eq_ok.1 hsave
    have hbefore := ((remembering_messages d).connectionOf f.record.schema).of_ok hrun
    have hsame := ((remembering_layouts d).connectionOf f.record.schema).of_ok hrun
    rw [← hsame.junction_eq] at hlayout
    exact (sendsSome_linkEach hlinks hmem hadded hrelation hlayout).after hbefore

/-- The linked records of a saved record are loaded over the connection of the target. -/
theorem sendsAll_load {g : Focus σ} {name : String} {relation : Relation} {key : Value}
    (hnames : g.session.NamesConnections) (hkey : g.record.key? = some key)
    (hrelation : g.record.schema.relation name = some relation)
    (hkind : relation.kind = .manyToMany) (hpending : g.record.pending.get? name = none)
    (hP : ∀ {target j start dialect sql values},
      (g.session.schemas.resolve relation.target.key).1 = target →
      g.session.junction g.record.schema name relation = .ok j →
      DatabaseConfig.tablePrefix g.session.config target.connection = .ok start →
      j.Reads key target (start ++ target.table) dialect sql values →
      P ⟨target.connection, dialect, sql, values⟩) :
    Session.SendsAll P g.session (final (load d name g)).session := by
  have hR := chained_sendsAll (σ := σ) P
  have hF := chained_across hR
  show Focus.Across (Session.SendsAll P) g (final (load d name g))
  rw [load, record_bind]
  refine hF.bind (across_check hR _ g) fun _ f hcheck => ?_
  obtain ⟨-, rfl⟩ := check_eq_ok.1 hcheck
  rw [hrelation]
  cases hrelated : f.record.related? name with
  | some found => exact hF.refl f
  | none =>
    refine hF.bind (across_inSession ((quiet_sendsAll d P).schema _) f) fun target h htarget => ?_
    obtain ⟨s, hs, rfl⟩ := inSession_eq_ok.1 htarget
    cases hs
    refine hF.bind ?_ fun found h _ => ?_
    · rw [Focus.Across, session_final_inSession,
        resolve_eq_linkedRecords hkind hpending hkey, final_bind_pure]
      refine sendsAll_linkedRecords hnames fun {start} _ _ _ _ hstart hstart' hreads =>
        hP rfl ?_ hstart' hreads
      have htablePrefix : DatabaseConfig.tablePrefix f.session.config f.record.schema.connection =
        .ok start := hstart
      rw [Session.junction, htablePrefix]
      rfl
    · split
      · exact hF.refl _
      · exact hF.refl _

/-- A load that returns records it did not know has sent one statement. -/
theorem messages_load {g h : Focus σ} {name : String} {relation : Relation} {key : Value}
    {found : Related Record} (hkey : g.record.key? = some key)
    (hrelation : g.record.schema.relation name = some relation)
    (hkind : relation.kind = .manyToMany) (hpending : g.record.pending.get? name = none)
    (hrelated : g.record.related? name = none) (hload : load d name g = .ok found h)
    (hfound : found.toList ≠ []) : ∃ m, h.session.messages = g.session.messages ++ [m] := by
  rcases load_cases d name g with
    ⟨-, hresult⟩ | ⟨r, target, s, loaded, s', hr, -, hs, hresolve, hrun⟩
  · rcases hresult found h hload with hknown | ⟨kind, rfl⟩
    · rw [hrelated] at hknown
      cases hknown
    · cases kind <;> exact absurd rfl hfound
  · rw [hrun] at hload
    cases hload
    rw [hrelation] at hr
    cases hr
    cases hs
    rw [resolve_eq_linkedRecords hkind hpending hkey] at hresolve
    obtain ⟨rs, t, hlinked, hpure⟩ := bind_eq_ok.1 hresolve
    obtain ⟨hsome, rfl⟩ := pure_eq_ok.1 hpure
    cases hsome
    have hne : rs ≠ [] := hfound
    obtain ⟨m, hm⟩ := messages_linkedRecords hlinked hne
    exact ⟨m, hm⟩

/-- A record of a model with a primary key, in a session whose connections have their names. -/
structure Saved (f : Focus σ) (owner : Schema) (key : Value) : Prop where
  schema : f.record.schema = owner
  key : f.record.key? = some key
  names : f.session.NamesConnections

/-- A statement that writes links of a record, in the junction table of a relation that links are
assigned to. -/
def WritesLinks (f : Focus σ) (key : Value) (m : Message) : Prop :=
  ∃ name wanted relation j, (name, wanted) ∈ f.record.pending ∧
    f.record.schema.relation name = some relation ∧
      f.session.junction f.record.schema name relation = .ok j ∧
        j.Writes key m.dialect m.sql m.values

def ReadsLinks (s : Session σ) (j : Junction) (key : Value) (target : Schema) (m : Message) :
    Prop :=
  ∃ start, DatabaseConfig.tablePrefix s.config target.connection = .ok start ∧
    j.Reads key target (start ++ target.table) m.dialect m.sql m.values

/-- The links of a record are written over the connection of the record's model, and read over that
of the related model, so that the two meet just when both models are bound to one connection. Both
lay out the junction table in the same way: each statement that writes is about the owner's links
in the table of one of the assigned relations, the statement that reads is about the owner's links
in the table of its relation, and each row that is inserted has what the reading statement asks for.
The links that a save tells to be added were inserted, and records that are found were asked for. -/
theorem link_routes (d : Driver σ) {f g : Focus σ} {owner target : Schema} {name : String}
    {relation : Relation} {key : Value} {j : Junction} (hf : Saved f owner key)
    (hg : Saved g owner key) (hsame : f.session.SameLayouts g.session)
    (hrelation : owner.relation name = some relation) (hkind : relation.kind = .manyToMany)
    (htarget : (f.session.schemas.resolve relation.target.key).1 = target)
    (hj : f.session.junction owner name relation = .ok j)
    (hpending : g.record.pending.get? name = none) :
    ∃ written read,
      (final (saveLinks d f)).session.messages = f.session.messages ++ written ∧
      (final (load d name g)).session.messages = g.session.messages ++ read ∧
      (∀ m ∈ written, m.connection = owner.connection ∧ WritesLinks f key m) ∧
      (∀ m ∈ read, m.connection = target.connection ∧ ReadsLinks f.session j key target m) ∧
      (∀ m ∈ written, ∀ m' ∈ read,
        (m.connection = m'.connection ↔ owner.connection = target.connection)) ∧
      (∀ report h changes, saveLinks d f = .ok report h → (name, changes) ∈ report →
        changes.added ≠ [] → ∃ m ∈ written, j.Inserts key changes.added m) ∧
      (∀ found h, load d name g = .ok found h → g.record.related? name = none →
        found.toList ≠ [] → ∃ m, read = [m]) ∧
      ∀ linked, (j.link key linked).get? j.relatedKey = some linked ∧
        ∀ c ∈ j.ownerConditions key, ∃ column v, c = .key column v ∧
          (j.link key linked).get? column = some v := by
  obtain ⟨written, hwritten, hwrites⟩ := sendsAll_saveLinks (d := d)
    (P := fun m => m.connection = owner.connection ∧ WritesLinks f key m) hf.names hf.key
    fun hmem hrelation' hlayout hw =>
      ⟨congrArg Schema.connection hf.schema, _, _, _, _, hmem, hrelation', hlayout, hw⟩
  obtain ⟨read, hread, hreads⟩ := sendsAll_load (d := d)
    (P := fun m => m.connection = target.connection ∧ ReadsLinks f.session j key target m)
    hg.names hg.key (hg.schema ▸ hrelation) hkind hpending fun htarget' hlayout hstart hr => by
      rw [hsame.2, htarget] at htarget'
      rw [hg.schema, hsame.junction_eq, hj] at hlayout
      rw [hsame.1] at hstart
      subst htarget'
      cases hlayout
      exact ⟨rfl, _, hstart, hr⟩
  refine ⟨written, read, hwritten, hread, hwrites, hreads, fun m hm m' hm' => ?_, ?_, ?_, ?_⟩
  · rw [(hwrites m hm).1, (hreads m' hm').1]
  · intro report h changes hsave hmem hadded
    obtain ⟨messages, hsent, hinserted⟩ := sendsSome_saveLinks hf.key hsave hmem hadded
      (hf.schema ▸ hrelation) (hf.schema ▸ hj)
    rw [hsave] at hwritten
    exact List.append_cancel_left (hwritten.symm.trans hsent) ▸ hinserted
  · intro found h hload hrelated hfound
    obtain ⟨m, hm⟩ := messages_load hg.key (hg.schema ▸ hrelation) hkind hpending hrelated hload
      hfound
    rw [hload] at hread
    exact ⟨m, List.append_cancel_left (hread.symm.trans hm)⟩
  · intro linked
    obtain ⟨start, -, hstart⟩ := Outcome.map_eq_ok.1 hj
    exact Junction.link_meets hstart.symm key linked

def dieSample (connection : String) : Schema := { Schema.new "Die" "die" with connection }

def playedWith : Relation where
  kind := .manyToMany
  target := (dieSample "default").ref 1

def quizSample : Schema := (Schema.new "Quiz" "quiz").withRelation "dice" playedWith

/-- A saved quiz with a die to link, where dice are on some connection. -/
def newQuiz (connection : String) : Focus Scripted.Servers where
  session := { Scripted.session [quizSample, dieSample connection] {} with
    config := [("default", .new .postgres "games"), ("archive", .new .mysql "old")]
    served := [.postgres, .mysql] }
  record := { Record.ofRow quizSample [("id", .int64 5)] with
    pending := [("dice", [.int64 7])] }

def storedQuiz (connection : String) : Focus Scripted.Servers :=
  { newQuiz connection with record := Record.ofRow quizSample [("id", .int64 5)] }

def linkedQuiz (connection : String) : Focus Scripted.Servers :=
  final (saveLinks Scripted.driver (newQuiz connection))

theorem saved_newQuiz (connection : String) : Saved (newQuiz connection) quizSample (.int64 5) :=
  ⟨rfl, rfl, fun _ hentry => absurd hentry List.not_mem_nil⟩

theorem saved_storedQuiz (connection : String) :
    Saved (storedQuiz connection) quizSample (.int64 5) :=
  ⟨rfl, rfl, fun _ hentry => absurd hentry List.not_mem_nil⟩

theorem quiz_routes : ∃ written read,
    (linkedQuiz "default").session.messages = written ∧
    (final (load Scripted.driver "dice" (storedQuiz "default"))).session.messages = read ∧
    (∀ m ∈ written, m.connection = "default") ∧
    ∀ m ∈ written, ∀ m' ∈ read, m.connection = m'.connection := by
  obtain ⟨j, hj⟩ := Outcome.exists_of_isOk
    (x := (newQuiz "default").session.junction quizSample "dice" playedWith) (by decide +kernel)
  have hsame : (newQuiz "default").session.SameLayouts (storedQuiz "default").session :=
    ⟨rfl, fun _ => rfl⟩
  have htarget : ((newQuiz "default").session.schemas.resolve playedWith.target.key).1 =
      dieSample "default" := rfl
  obtain ⟨written, read, hwritten, hread, hwrites, -, hmeet, -⟩ := link_routes Scripted.driver
    (saved_newQuiz "default") (saved_storedQuiz "default") hsame rfl rfl htarget hj rfl
  exact ⟨written, read, hwritten, hread, fun m hm => (hwrites m hm).1,
    fun m hm m' hm' => (hmeet m hm m' hm').2 rfl⟩

/-- A quiz whose dice are on another connection: no statement that writes links goes where they are
read. -/
theorem quiz_routes_differ :
    ((linkedQuiz "archive").session.messages.map Message.connection =
      ["default", "default", "default"]) ∧
    ((final (load Scripted.driver "dice" (storedQuiz "archive"))).session.messages.map
      Message.connection = ["archive"]) := by
  constructor
  · decide +kernel
  · decide +kernel

end RecordAction

end RowMapper
