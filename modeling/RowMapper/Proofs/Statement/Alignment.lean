import RowMapper.Proofs.Placeholder.Writes
import RowMapper.Proofs.Placeholder.Positional
import RowMapper.Proofs.Outcome

/-! # Placeholders and their values

The values of a statement are sent in the order in which they were bound, and the
k-th of them is taken for the k-th placeholder of the text. The two orders agree just
when no siblings have an OR clause with values before an AND clause with values.
Question marks that are no placeholders stay in the text next to the positional marks
of MySQL and SQLite, where they cannot be told from them.
-/

namespace RowMapper.Sql

namespace Statement

/-- The statements with conditions: what their caller brings into them, and whether all values are
bound in the order of their placeholders. -/
inductive Built (d : Dialect) : Statement → List Ingredient → Bool → Prop
  | query {q : Query} {s : Statement} : ofQuery d q = .ok s →
    Built d s (queryParts q) (queryInOrder q)
  | update {table : String} {values : Entries Value} {conditions : List (Condition Query)}
    {writeNulls : Bool} {s : Statement} :
    Sql.update d table values conditions writeNulls = .ok (some s) →
    Built d s (conditionsParts conditions) (conditionsInOrder conditions)
  | deletion {table : String} {conditions : List (Condition Query)} {s : Statement} :
    Sql.deletion d table conditions = .ok s →
    Built d s (conditionsParts conditions) (conditionsInOrder conditions)
  | adjustment {a : Adjustment} {table : String} {deltas : Entries Value}
    {conditions : List (Condition Query)} {s : Statement} :
    Sql.adjustment d a table deltas conditions = .ok (some s) →
    Built d s (conditionsParts conditions) (conditionsInOrder conditions)

def names (s : Statement) : List String := s.named.map Prod.fst

def valueOf? (s : Statement) (name : String) : Option Value := Entries.get? s.named name

/-! ## From rendering to statements -/

/-- What the reader finds in a statement: each bound name once, in the order of binding just when
`ordered`, and question marks. -/
structure Woven (s : Statement) (marks : Nat) (ordered : Prop) : Prop where
  distinct : s.names.Nodup
  perm : (placeholders s.sql).Perm s.names
  aligned : placeholders s.sql = s.names ↔ ordered
  marks : questionMarks s.sql = marks

theorem ofRender_eq_ok {body : Render String} {s : Statement} (h : ofRender body = .ok s) :
    ∃ text sink, body {} = .ok text sink ∧
      s = { sql := text, named := sink.named, bindings := sink.bindings } := by
  rw [ofRender] at h
  split at h
  · next text sink hbody =>
    cases h
    exact ⟨text, sink, hbody, rfl⟩
  · cases h

theorem eq_ok_of_map_some {x : Except Error Statement} {s : Statement}
    (h : some <$> x = .ok (some s)) : x = .ok s := by
  cases x with
  | error e => cases h
  | ok t =>
    cases h
    rfl

theorem Woven.ofRender {body : Render String} {s : Statement} {marks : Nat} {ordered : Prop}
    (h : ofRender body = .ok s) (hbody : ∀ {text sink}, body {} = .ok text sink →
      ∃ parts, marksOf parts = marks ∧ Weaves [] sink.parameters text parts ordered) :
    s.Woven marks ordered := by
  obtain ⟨text, sink, hrun, rfl⟩ := ofRender_eq_ok h
  obtain ⟨parts, rfl, read, hthreads, hreads⟩ := hbody hrun
  obtain ⟨new, hnew, -, hperm, haligned⟩ := hthreads.added
  have hdistinct : (sink.parameters.map Parameter.name).Nodup := hthreads.fresh List.nodup_nil
  rw [List.nil_append] at hnew
  have hnames : sink.named.map Prod.fst = sink.parameters.map Parameter.name := by
    simp [ParamSink.named]
  refine ⟨?_, ?_, ?_, hreads.questionMarks_eq⟩
  · rw [names, hnames]
    exact hdistinct
  · rw [names, hnames, hreads.placeholders_eq, hnew]
    exact hperm
  · rw [names, hnames, hreads.placeholders_eq, ← haligned hdistinct, hnew]

theorem Woven.ofUpdate {d : Dialect} {table : String} {conditions : List (Condition Query)}
    {assign : Render (List String)} {s : Statement}
    (h : Statement.ofRender (do
      let assignments ← assign
      let condition ← renderWhere d conditions
      return updateText d table assignments condition) = .ok s)
    (ht : AllTame (conditionsParts conditions))
    (hassign : ∀ {assignments t}, assign {} = .ok assignments t →
      ∃ count, WeavesAll [] t.parameters assignments [.values count] True) :
    s.Woven (marksOf (conditionsParts conditions)) (conditionsInOrder conditions = true) := by
  refine .ofRender h fun hrun => ?_
  obtain ⟨assignments, t, ha, hrun⟩ := Render.bind_eq_ok.1 hrun
  obtain ⟨condition, t', hc, hrun⟩ := Render.bind_eq_ok.1 hrun
  obtain ⟨rfl, rfl⟩ := Render.pure_eq_ok.1 hrun
  obtain ⟨count, hassignments⟩ := hassign ha
  obtain ⟨hconditions, hbreaks⟩ := renderWhere_weaves hc ht
  exact ⟨_, Nat.zero_add _, updateText_weaves hassignments hconditions hbreaks⟩

theorem Built.woven {d : Dialect} {s : Statement} {parts : List Ingredient} {ordered : Bool}
    (h : Built d s parts ordered) (ht : AllTame parts) :
    s.Woven (marksOf parts) (ordered = true) := by
  cases h with
  | @query q _ h => exact .ofRender h fun hrun => ⟨_, rfl, renderQuery_weaves d q hrun ht⟩
  | @update table values conditions writeNulls _ h =>
    rw [Sql.update] at h
    split at h
    · cases h
    · exact .ofUpdate (eq_ok_of_map_some h) ht fun ha => renderAssignments_weaves ha
  | @deletion table conditions _ h =>
    refine .ofRender h fun hrun => ?_
    obtain ⟨condition, t, hc, hrun⟩ := Render.bind_eq_ok.1 hrun
    obtain ⟨rfl, rfl⟩ := Render.pure_eq_ok.1 hrun
    obtain ⟨hconditions, -⟩ := renderWhere_weaves hc ht
    have hhead := (seals_quoteQualified d table).prepend (a := "DELETE FROM ") (by decide)
    exact ⟨_, rfl, hconditions.around fun hr => by simpa using hhead.append_reads hr⟩
  | @adjustment a table deltas conditions _ h =>
    rw [Sql.adjustment] at h
    split at h
    · cases h
    · exact .ofUpdate (eq_ok_of_map_some h) ht fun ha => renderAdjustments_weaves ha

/-! ## The order of placeholders and values -/

theorem map_get?_keys {α : Type} {entries : Entries α} (h : (entries.map Prod.fst).Nodup) :
    (entries.map Prod.fst).map (Entries.get? entries) = entries.map fun entry => some entry.2 := by
  induction entries with
  | nil => rfl
  | cons entry rest ih =>
    rcases entry with ⟨key, value⟩
    rw [List.map_cons, List.nodup_cons] at h
    have hrest : (rest.map Prod.fst).map (Entries.get? ((key, value) :: rest)) =
        (rest.map Prod.fst).map (Entries.get? rest) := by
      refine List.map_congr_left fun name hname => ?_
      have hne : key ≠ name := by
        rintro rfl
        exact h.1 hname
      rw [Entries.get?_cons, if_neg hne]
    rw [List.map_cons, List.map_cons, List.map_cons, hrest, ih h.2, Entries.get?_cons, if_pos rfl]

/-- The placeholders of a statement without wild text are the bound names up to order, and it goes
into positional form. They are the bound names in the order of binding, so that each placeholder
takes the value bound under its name, just when no siblings have an OR clause with values before an
AND clause with values. -/
theorem Built.aligned_iff {d : Dialect} {s : Statement} {parts : List Ingredient} {ordered : Bool}
    (h : Built d s parts ordered) (ht : AllTame parts) :
    s.names.Nodup ∧ (placeholders s.sql).Perm s.names ∧
      (∀ d', ∃ text, s.toPositional d' = .ok (text, s.params)) ∧
      (placeholders s.sql = s.names ↔ ordered = true) ∧
      (ordered = true → (placeholders s.sql).map s.valueOf? = s.params.map some) := by
  have hw := h.woven ht
  refine ⟨hw.distinct, hw.perm, fun d' => ⟨_, positional_eq_ok.2 ⟨?_, rfl, rfl⟩⟩, hw.aligned,
    fun ho => ?_⟩
  · rw [hw.perm.length_eq]
    simp [names, params]
  · have hvalues := map_get?_keys hw.distinct
    rw [hw.aligned.2 ho, params, List.map_map]
    exact hvalues

/-- A query whose values stand in a nested query, in a group and after OR. -/
def inOrderSample : Query where
  sources := [.table "users"]
  wheres := [.basic "age" ">" (.value (.int64 18)) .and,
    .sub "id" "in" { sources := [.table "orders"],
                     wheres := [.basic "total" ">" (.value (.int64 5)) .and] } .and,
    .group [.basic "city" "=" (.value (.text "Bonn")) .and,
      .basic "city" "=" (.value (.text "Kiel")) .or] .or]

theorem inOrderSample_aligned : ∃ s, ofQuery .postgres inOrderSample = .ok s ∧
    placeholders s.sql = s.names ∧ s.names = ["age1", "total1", "city1", "city2"] := by
  obtain ⟨s, hs⟩ := Outcome.exists_of_isOk (x := ofQuery .postgres inOrderSample) (by decide +kernel)
  have h := Built.aligned_iff (.query hs) (by decide +kernel)
  have hnames : (ofQuery .postgres inOrderSample).toOption.map names =
      some ["age1", "total1", "city1", "city2"] := by decide +kernel
  rw [hs] at hnames
  exact ⟨s, hs, h.2.2.2.1.2 (by decide +kernel), Option.some.inj hnames⟩

/-- An OR clause before an AND clause: the AND clause is written first and bound last. -/
def orBeforeAndSample : Query where
  sources := [.table "t"]
  wheres := [.basic "a" "=" (.value (.int64 1)) .or, .basic "b" "=" (.value (.int64 2)) .and]

theorem orBeforeAndSample_not_aligned : queryParts orBeforeAndSample = [.values 1, .values 1] ∧
    ∃ s, ofQuery .mysql orBeforeAndSample = .ok s ∧ placeholders s.sql = ["b1", "a1"] ∧
      s.names = ["a1", "b1"] := by
  obtain ⟨s, hs⟩ := Outcome.exists_of_isOk (x := ofQuery .mysql orBeforeAndSample) (by decide +kernel)
  have hread : (ofQuery .mysql orBeforeAndSample).toOption.map
      (fun s => (placeholders s.sql, s.names)) = some (["b1", "a1"], ["a1", "b1"]) := by
    decide +kernel
  rw [hs] at hread
  obtain ⟨hread, hbound⟩ := Prod.mk.inj (Option.some.inj hread)
  exact ⟨by decide +kernel, s, hs, hread, hbound⟩

/-! ## Question marks in positional form -/

/-- In the positional form of MySQL and SQLite there are as many question marks as parameters just
when the text of the query has none of its own; and it has none of its own just when no text of the
caller that is taken over as it is has one, provided that this text closes its quotes. -/
theorem questionMarks_eq_length_iff {d d' : Dialect} {q : Query} {s : Statement} {text : String}
    {values : List Value} (h : ofQuery d q = .ok s) (hd : d' = .mysql ∨ d' = .sqlite)
    (hp : s.toPositional d' = .ok (text, values)) :
    questionMarks text = values.length + questionMarks s.sql ∧
      (questionMarks text = values.length ↔ questionMarks s.sql = 0) ∧
      (AllTame (queryParts q) →
        (questionMarks text = values.length ↔ ∀ part ∈ queryParts q, part.marks = 0)) := by
  have hmark : ∀ n, d'.mark n = "?" := by
    rcases hd with rfl | rfl <;> exact fun _ => rfl
  have hcount : questionMarks text = values.length + questionMarks s.sql := by
    obtain ⟨hlength, rfl, rfl⟩ := positional_eq_ok.1 hp
    rw [questionMarks_toPositional hmark, hlength, Nat.add_comm]
  have hiff : questionMarks text = values.length ↔ questionMarks s.sql = 0 := by omega
  refine ⟨hcount, hiff, fun ht => ?_⟩
  rw [hiff, ((Built.query h).woven ht).marks, marksOf_eq_zero_iff]

theorem inOrderSample_marks : ∃ s text values, ofQuery .sqlite inOrderSample = .ok s ∧
    s.toPositional .mysql = .ok (text, values) ∧ questionMarks text = values.length ∧
      values.length = 4 := by
  obtain ⟨s, hs⟩ := Outcome.exists_of_isOk (x := ofQuery .sqlite inOrderSample) (by decide +kernel)
  have hread : (ofQuery .sqlite inOrderSample).toOption.map
      (fun s => ((s.toPositional .mysql).isOk, s.params.length)) = some (true, 4) := by
    decide +kernel
  rw [hs] at hread
  obtain ⟨hok, hlength⟩ := Prod.mk.inj (Option.some.inj hread)
  obtain ⟨⟨text, values⟩, hp⟩ := Outcome.exists_of_isOk hok
  have h := questionMarks_eq_length_iff hs (.inl rfl) hp
  obtain ⟨-, -, rfl⟩ := positional_eq_ok.1 hp
  exact ⟨s, text, s.params, hs, hp, (h.2.2 (by decide +kernel)).2 (by decide +kernel), hlength⟩

def rawMarkSample : Query where
  sources := [.table "t"]
  wheres := [.basic "a" "=" (.raw "?") .and]

theorem rawMarkSample_marks_ne : ∃ s text, ofQuery .mysql rawMarkSample = .ok s ∧
    s.toPositional .mysql = .ok (text, []) ∧ questionMarks text = 1 := by
  obtain ⟨s, hs⟩ := Outcome.exists_of_isOk (x := ofQuery .mysql rawMarkSample) (by decide +kernel)
  have hread : (ofQuery .mysql rawMarkSample).toOption.map (fun s =>
      ((placeholders s.sql).length, s.params.length,
        questionMarks (Sql.toPositional .mysql s.sql).1)) = some (0, 0, 1) := by
    decide +kernel
  rw [hs] at hread
  obtain ⟨hnone, hread⟩ := Prod.mk.inj (Option.some.inj hread)
  obtain ⟨hlength, hmarks⟩ := Prod.mk.inj hread
  have hparams : s.params = [] := List.length_eq_zero_iff.1 hlength
  refine ⟨s, (Sql.toPositional .mysql s.sql).1, hs, ?_, hmarks⟩
  exact positional_eq_ok.2 ⟨hnone.trans hlength.symm, rfl, hparams.symm⟩

end Statement

end RowMapper.Sql
