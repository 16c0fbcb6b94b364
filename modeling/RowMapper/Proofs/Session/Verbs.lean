import RowMapper.Proofs.Session.Linking
import RowMapper.Proofs.Statement.Verbs

/-! # The verbs of what is sent

Every operation of a session sends statements of few kinds. Writing links reads,
creates, deletes and inserts, but it never updates, and what it deletes and inserts are
rows of the tables that the relations of the record's model have for links.
-/

namespace RowMapper

open Run Sql

variable {σ α : Type}

def Session.Gains {β : Type} (view : Session σ → List β) (P : β → Prop) (s t : Session σ) : Prop :=
  ∃ gained, view t = view s ++ gained ∧ ∀ b ∈ gained, P b

/-- What was sent between two sessions consists of statements whose verbs have a property. -/
def Session.SendsOnly (P : String → Prop) (s t : Session σ) : Prop :=
  ∃ statements, t.sent = s.sent ++ statements ∧ ∀ entry ∈ statements, P (verb entry.1)

namespace Action

variable {P : String → Prop} {d : Driver σ} {word : String}

section

variable {β : Type}

theorem gains_of_eq {view : Session σ → List β} {P : β → Prop} {s t : Session σ}
    (h : view t = view s) : Session.Gains view P s t :=
  ⟨[], by simpa using h, by simp⟩

theorem chained_gains (view : Session σ → List β) (P : β → Prop) :
    Chained (Session.Gains view P) where
  refl s := gains_of_eq rfl
  trans := by
    rintro s t u ⟨xs, ht, hxs⟩ ⟨ys, hu, hys⟩
    refine ⟨xs ++ ys, by rw [hu, ht, List.append_assoc], fun b hb => ?_⟩
    exact (List.mem_append.1 hb).elim (hxs b) (hys b)

end

theorem chained_sendsOnly (P : String → Prop) :
    Chained (Session.SendsOnly P : Session σ → Session σ → Prop) :=
  chained_gains Session.sent fun entry => P (verb entry.1)

theorem sendsOnly_of_sent_eq {s t : Session σ} (h : t.sent = s.sent) : s.SendsOnly P t :=
  gains_of_eq h

theorem quiet_sendsOnly (d : Driver σ) (P : String → Prop) : Quiet d (Session.SendsOnly P) where
  toChained := chained_sendsOnly P
  connect name config s := sendsOnly_of_sent_eq ((quiet_sent d).connect name config s)
  schema key s := sendsOnly_of_sent_eq ((quiet_sent d).schema key s)
  note s notice := sendsOnly_of_sent_eq ((quiet_sent d).note s notice)

theorem keeps_check_seq {β : Type} {R : Session σ → Session σ → Prop} (hR : Chained R)
    {outcome : Except Error α} {f : α → Action σ β} (hf : ∀ a, outcome = .ok a → Keeps R (f a)) :
    Keeps R (check outcome >>= f) := by
  intro s
  cases outcome with
  | error e => exact hR.refl s
  | ok a => exact hf a rfl s

/-! ## Statements -/

theorem sendsOnly_send (c : Connection) {sql : String} (values : List Value)
    (body : EStateM Error σ α) (hsql : Begins word sql) (hword : P word) :
    Keeps (Session.SendsOnly P) (send c sql values body) := by
  intro s
  refine ⟨[(sql, values)], sent_send c sql values body s, fun entry hentry => ?_⟩
  rw [List.mem_singleton.1 hentry, hsql.verb_eq]
  exact hword

theorem sendsOnly_fetch (d : Driver σ) (c : Connection) {sql : String} (values : List Value)
    (hsql : Begins word sql) (hword : P word) :
    Keeps (Session.SendsOnly P) (fetch d c sql values) :=
  keeps_check_seq (chained_sendsOnly P) fun (_, given) hsent =>
    sendsOnly_send c given _ (hsql.positional hsent) hword

theorem sendsOnly_execute (d : Driver σ) (c : Connection) {sql : String} (values : List Value)
    (hsql : Begins word sql) (hword : P word) :
    Keeps (Session.SendsOnly P) (execute d c sql values) :=
  keeps_check_seq (chained_sendsOnly P) fun (_, given) hsent =>
    sendsOnly_send c given _ (hsql.positional hsent) hword

theorem sendsOnly_insert (d : Driver σ) (c : Connection) (table : String)
    (rows : List (Entries Value)) (options : InsertOptions) (hword : P "INSERT") :
    Keeps (Session.SendsOnly P) (insert d c table rows options) := by
  have hR := chained_sendsOnly (σ := σ) P
  refine keeps_check_seq hR fun statement hstatement => ?_
  cases statement with
  | none => exact hR.result _
  | some statement =>
    have hsql := begins_insertion hstatement
    dsimp only
    split
    · exact hR.seq (sendsOnly_fetch d c _ hsql hword) fun _ => hR.result _
    · exact hR.seq (sendsOnly_execute d c _ hsql hword) fun _ => hR.result _

theorem sendsOnly_update (d : Driver σ) (c : Connection) (table : String) (values : Entries Value)
    (conditions : List (Condition Query)) (writeNulls : Bool) (hword : P "UPDATE") :
    Keeps (Session.SendsOnly P) (update d c table values conditions writeNulls) := by
  have hR := chained_sendsOnly (σ := σ) P
  refine keeps_check_seq hR fun statement hstatement => ?_
  cases statement with
  | none => exact hR.result _
  | some statement =>
    exact hR.seq (sendsOnly_execute d c _ (begins_update hstatement) hword) fun _ => hR.result _

/-! ## Links -/

structure Reading (d : Driver σ) (R : Session σ → Session σ → Prop) : Prop extends Quiet d R where
  select : ∀ c {sql : String} values, Begins "SELECT" sql →
    Keeps R (send c sql values (d.fetch c.serial c.config sql values))

/-- A relation of sessions that also holds across what is done for links in some tables: statements
that create a table, and deletions and insertions of rows of those tables. -/
structure Linking (d : Driver σ) (tables : String → Prop) (R : Session σ → Session σ → Prop) : Prop
    extends Reading d R where
  create : ∀ c {sql : String} values, Begins "CREATE" sql →
    Keeps R (send c sql values (d.execute c.serial c.config sql values))
  unlink : ∀ c {table : String} {conditions : List (Condition Query)} {statement : Statement},
    tables table → deletion c.dialect table conditions = .ok statement →
      Keeps R (executeStatement d c statement)
  link : ∀ c {table : String} {rows : List (Entries Value)} {statement : Statement},
    tables table → insertion c.dialect table rows {} = .ok (some statement) →
      Keeps R (executeStatement d c statement)

namespace Reading

variable {R : Session σ → Session σ → Prop}

theorem fetch (hR : Reading d R) (c : Connection) {sql : String} (values : List Value)
    (hsql : Begins "SELECT" sql) : Keeps R (Action.fetch d c sql values) :=
  keeps_check_seq hR.toChained fun (_, given) hsent => hR.select c given (hsql.positional hsent)

theorem rows (hR : Reading d R) (q : Query) : Keeps R (Action.rows d q) := by
  refine hR.seq (hR.connection _) fun c => ?_
  exact keeps_check_seq hR.toChained fun statement hstatement =>
    hR.fetch c _ (begins_ofQuery hstatement)

theorem records (hR : Reading d R) (schema : Schema) (q : Query) :
    Keeps R (Action.records d schema q) :=
  hR.seq (hR.rows q) fun _ => hR.seq hR.toChained.read fun _ => hR.result _

end Reading

namespace Linking

variable {tables : String → Prop} {R : Session σ → Session σ → Prop} {c : Connection}
  {j : Junction}

theorem ensureTable (hR : Linking d tables R) : Keeps R (Action.ensureTable d c j) := by
  have hprobe : Keeps R (hasTable d c j.table) := by
    refine hR.seq (keeps_attempt (hR.fetch c [] (begins_tableProbe c.dialect j.table)))
      fun outcome => ?_
    split
    · exact hR.result _
    · split
      · exact hR.result _
      · exact hR.fail _
  refine hR.seq hprobe fun present => ?_
  split
  · exact hR.result _
  · refine keeps_check_seq hR.toChained fun sql hsql => ?_
    have hexecute : Keeps R (Action.execute d c sql []) :=
      keeps_check_seq hR.toChained fun (_, given) hsent =>
        hR.create c given ((begins_tableCreation hsql).positional hsent)
    exact hR.seq hexecute fun _ => hR.result _

theorem linkedKeys (hR : Linking d tables R) (owner : Value) :
    Keeps R (Action.linkedKeys d c j owner) := by
  refine keeps_check_seq hR.toChained fun statement hstatement => ?_
  exact hR.seq (hR.fetch c _ (begins_ofQuery hstatement)) fun _ => hR.result _

variable (hR : Linking d tables R) (htable : tables j.table)
include hR htable

theorem applyChanges (owner : Value) (changes : LinkChanges) :
    Keeps R (Action.applyChanges d c j owner changes) := by
  have hinsert (rows : List (Entries Value)) : Keeps R (Action.insert d c j.table rows {}) := by
    refine keeps_check_seq hR.toChained fun statement hstatement => ?_
    cases statement with
    | none => exact hR.result _
    | some statement => exact hR.seq (hR.link c htable hstatement) fun _ => hR.result _
  have hdelete (conditions : List (Condition Query)) :
      Keeps R (Action.delete d c j.table conditions) := by
    refine keeps_check_seq hR.toChained fun statement hstatement => ?_
    exact hR.seq (hR.unlink c htable hstatement) fun _ => hR.result _
  have hadd : Keeps R (addLinks d c j owner changes) := by
    unfold addLinks
    split
    · exact hR.seq (hinsert _) fun _ => hR.result _
    · exact hR.result _
  unfold Action.applyChanges
  split
  · exact hR.seq (hdelete _) fun _ => hadd
  · exact hadd

theorem linkOne (owner : Value) (wanted : List Value) :
    Keeps R (Action.link d c j owner wanted) := by
  rw [link_eq]
  refine hR.seq hR.ensureTable fun _ => ?_
  refine hR.seq (hR.linkedKeys owner) fun present => ?_
  exact hR.applyChanges htable owner _

end Linking

def LinksWithin (tables : String → Prop) (s : Session σ) (schema : Schema) : Prop :=
  ∀ name relation target start, schema.relation name = some relation →
    DatabaseConfig.tablePrefix s.config schema.connection = .ok start →
      tables (Junction.ofRelation schema name relation target start).table

/-- The junction of a relation is laid out with the prefix of its owner's connection. -/
theorem junctionNamed_eq_ok {owner : Schema} {name : String} {s t : Session σ} {j : Junction}
    (h : junctionNamed owner name s = .ok j t) : ∃ relation target start,
      owner.relation name = some relation ∧
        DatabaseConfig.tablePrefix s.config owner.connection = .ok start ∧
          j = .ofRelation owner name relation target start := by
  unfold junctionNamed at h
  cases hrelation : owner.relation name with
  | none =>
    rw [hrelation] at h
    cases h
  | some relation =>
    rw [hrelation] at h
    obtain ⟨target, u, htarget, h⟩ := bind_eq_ok.1 h
    obtain ⟨start, v, hstart, h⟩ := bind_eq_ok.1 h
    have hconfig : u.config = s.config := by
      cases htarget
      rfl
    refine ⟨relation, target, start, rfl, ?_, (pure_eq_ok.1 h).1.symm⟩
    rw [← hconfig]
    exact (tablePrefix_eq_ok.1 hstart).1

namespace Linking

variable {tables : String → Prop} {R : Session σ → Session σ → Prop}

theorem linkEach (hR : Linking d tables R) (c : Connection) (r : Record) (owner : Value)
    (entries : Entries (List Value)) {s : Session σ} (hs : LinksWithin tables s r.schema) :
    R s (final (Action.linkEach d c r owner entries s)) := by
  induction entries generalizing s with
  | nil => exact hR.refl s
  | cons entry rest ih =>
    obtain ⟨name, wanted⟩ := entry
    have hjunction := hR.junctionNamed r.schema name s
    have hfirst : R s (final (linkRelation d c r owner name wanted s)) := by
      unfold linkRelation
      cases hnamed : junctionNamed r.schema name s with
      | error e t =>
        rw [hnamed] at hjunction
        rw [bind_of_error hnamed]
        exact hjunction
      | ok j t =>
        rw [hnamed] at hjunction
        obtain ⟨relation, target, start, hrelation, hstart, rfl⟩ :=
          junctionNamed_eq_ok hnamed
        rw [bind_of_ok hnamed]
        exact hR.trans hjunction
          (hR.linkOne (hs name relation target start hrelation hstart) owner wanted t)
    unfold Action.linkEach
    cases hrun : linkRelation d c r owner name wanted s with
    | error e t =>
      rw [hrun] at hfirst
      rw [bind_of_error hrun]
      exact hfirst
    | ok first t =>
      rw [hrun] at hfirst
      have hconfig : t.config = s.config :=
        (((remembering_setup d).linkRelation c r owner name wanted).of_ok hrun).config
      have hrest : R t (final (Action.linkEach d c r owner rest t)) :=
        ih fun name relation target start hrelation hstart =>
          hs name relation target start hrelation (hconfig ▸ hstart)
      rw [bind_of_ok hrun, final_bind_pure]
      exact hR.trans hfirst hrest

theorem saveLinks (hR : Linking d tables R) {f : Focus σ}
    (hf : LinksWithin tables f.session f.record.schema) :
    R f.session (final (RecordAction.saveLinks d f)).session := by
  unfold RecordAction.saveLinks
  rw [RecordAction.record_bind]
  split
  · exact hR.refl _
  cases f.record.key? with
  | none => exact hR.refl _
  | some key =>
    dsimp only
    have hconnect := hR.connectionOf f.record.schema f.session
    cases hrun : connectionOf d f.record.schema f.session with
    | error e t =>
      rw [hrun] at hconnect
      have hfail := RecordAction.inSession_eq_error (f := f).2 ⟨t, hrun, rfl⟩
      rw [bind_of_error hfail]
      exact hconnect
    | ok c t =>
      rw [hrun] at hconnect
      have hconfig : t.config = f.session.config :=
        (((remembering_setup d).connectionOf f.record.schema).of_ok hrun).config
      have hlinks : R t (final (Action.linkEach d c f.record key f.record.pending t)) :=
        hR.linkEach c f.record key _ fun name relation target start hrelation hstart =>
          hf name relation target start hrelation (hconfig ▸ hstart)
      have hconnected := RecordAction.inSession_eq_ok (f := f).2 ⟨t, hrun, rfl⟩
      rw [bind_of_ok hconnected]
      have hsame := RecordAction.session_final_inSession
        (Action.linkEach d c f.record key f.record.pending) ⟨t, { f.record with pending := [] }⟩
      exact hR.trans hconnect (hsame.symm ▸ hlinks)

end Linking

def linkVerbs : List String := ["SELECT", "CREATE", "DELETE", "INSERT"]

theorem linking_sendsOnly (d : Driver σ) (hwords : ∀ word ∈ linkVerbs, P word) :
    Linking d (fun _ => True) (Session.SendsOnly P) where
  toQuiet := quiet_sendsOnly d P
  select c _ values hsql := sendsOnly_send c values _ hsql (hwords _ (by decide))
  create c _ values hsql := sendsOnly_send c values _ hsql (hwords _ (by decide))
  unlink c _ _ _ _ hstatement :=
    sendsOnly_execute d c _ (begins_deletion hstatement) (hwords _ (by decide))
  link c _ _ _ _ hstatement :=
    sendsOnly_execute d c _ (begins_insertion hstatement) (hwords _ (by decide))

end Action

end RowMapper
