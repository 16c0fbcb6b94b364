import RowMapper.Proofs.Render.Redaction
import RowMapper.Query.Build
import RowMapper.Sql.Write

/-! # The values of keys, lists and ranges stay out of the text

Statements whose conditions differ in bound values only have the same text and the
same parameter names. So a key is never read as SQL, whatever it is and wherever its
condition stands; a column named RAW or SQL is the way in, and takes its operand as
the text of the clause.
-/

namespace RowMapper.Sql

namespace Statement

/-- A statement without its values: the text, and the name and clause of each parameter. -/
def redact (s : Statement) : Statement :=
  { s with
    named := s.named.map fun entry => (entry.1, .null)
    bindings := s.bindings.map fun entry => (entry.1, .null) }

theorem redact_ofSink (text : String) (sink : ParamSink) :
    redact ⟨text, sink.named, sink.bindings⟩ =
      ⟨text, sink.redact.named, sink.redact.bindings⟩ := by
  simp [redact, ParamSink.named, ParamSink.bindings, ParamSink.redact]

theorem ofRender_redact {x y : Render String} (h : Render.Agree x y) :
    (ofRender x).map redact = (ofRender y).map redact := by
  have hxy := h (rfl : ParamSink.redact {} = ParamSink.redact {})
  rw [ofRender, ofRender]
  cases hx : x {} with
  | ok a s =>
    cases hy : y {} with
    | ok b t =>
      simp only [hx, hy, Render.redactResult, EStateM.Result.ok.injEq] at hxy
      simp [Except.map, redact_ofSink, hxy]
    | error e t => simp [hx, hy, Render.redactResult] at hxy
  | error e s =>
    cases hy : y {} with
    | ok b t => simp [hx, hy, Render.redactResult] at hxy
    | error e' t =>
      simp only [hx, hy, Render.redactResult, EStateM.Result.error.injEq] at hxy
      simp [Except.map, hxy]

theorem map_some_redact {x y : Except Error Statement} (h : x.map redact = y.map redact) :
    (some <$> x).map (Option.map redact) = (some <$> y).map (Option.map redact) := by
  cases x <;> cases y <;> simp_all [Except.map, Functor.map]

end Statement

open Statement

/-! ## Conditions that differ in values only -/

theorem redactCondition_key {column : String} {v v' : Value}
    (hcolumn : Condition.isRawColumn column = false) (hv : v ≠ .null) (hv' : v' ≠ .null) :
    redactCondition (.key column v) = redactCondition (.key column v') := by
  have hkey : ∀ {w : Value}, w ≠ .null →
      redactCondition (.key column w) = .basic column "=" (.exact .null) .and := by
    intro w hw
    cases w <;> simp_all [Condition.key, Condition.equals, Condition.compare, redactCondition,
      Operand.redact]
  rw [hkey hv, hkey hv']

theorem redactCondition_isIn (column : String) {values values' : List Value} (negated : Bool)
    (c : Connective) (h : values.length = values'.length) :
    redactCondition (.isIn column values negated c) =
      redactCondition (.isIn column values' negated c) := by
  rw [redactCondition, redactCondition, redactValues_eq_iff.2 h]

theorem redact_filter (q : Query) (c : Condition Query) :
    (q.filter c).redact = q.redact.filter (redactCondition c) := by
  rcases q with ⟨_, _, _, _, wheres, _⟩
  simp [Query.filter, Query.redact, redactConditions_append, redactConditions]

theorem redact_atMost (q : Query) (count : Int) :
    (q.atMost count).redact = q.redact.atMost count := by
  rcases q with ⟨_, _, _, _, _, _⟩
  by_cases h : 0 ≤ count <;> simp [Query.atMost, Query.redact, h]

/-! ## Statements -/

section

variable {conditions conditions' : List (Condition Query)}

theorem ofQuery_redact (d : Dialect) {q q' : Query} (h : q.redact = q'.redact) :
    (ofQuery d q).map redact = (ofQuery d q').map redact :=
  ofRender_redact ((Render.renderQuery_redact d q).trans
    (h ▸ (Render.renderQuery_redact d q').symm))

theorem renderWhere_redact (d : Dialect)
    (h : redactConditions conditions = redactConditions conditions') :
    Render.Agree (renderWhere d conditions) (renderWhere d conditions') := by
  have hclauses : Render.Agree (renderConditions { dialect := d } conditions)
      (renderConditions { dialect := d } conditions') :=
    (Render.renderConditions_redact _ conditions).trans
      (h ▸ (Render.renderConditions_redact _ conditions').symm)
  exact hclauses.seq fun _ => .result _

theorem renderCell_agree (d : Dialect) (column : String) (v : Value) :
    Render.Agree (renderCell d column v) (renderCell d column v) := by
  unfold renderCell
  split
  · exact .result _
  · exact .result _
  · split
    · exact .result _
    · exact .bind _ _ _
  · exact .bind _ _ _

theorem renderAssignments_agree (d : Dialect) (values : Entries Value) :
    Render.Agree (renderAssignments d values) (renderAssignments d values) := by
  induction values with
  | nil => exact .result _
  | cons entry rest ih =>
    exact (renderCell_agree d entry.1 entry.2).seq fun _ => ih.seq fun _ => .result _

theorem renderAdjustments_agree (d : Dialect) (a : Adjustment) (deltas : Entries Value) :
    Render.Agree (renderAdjustments d a deltas) (renderAdjustments d a deltas) := by
  induction deltas with
  | nil => exact .result _
  | cons entry rest ih =>
    rw [renderAdjustments]
    split
    · exact (Render.Agree.bind _ _ _).seq fun _ => ih.seq fun _ => .result _
    · exact .throw _

theorem deletion_redact (d : Dialect) (table : String)
    (h : redactConditions conditions = redactConditions conditions') :
    (deletion d table conditions).map redact = (deletion d table conditions').map redact :=
  ofRender_redact ((renderWhere_redact d h).seq fun _ => .result _)

theorem update_redact (d : Dialect) (table : String) (values : Entries Value) (writeNulls : Bool)
    (h : redactConditions conditions = redactConditions conditions') :
    (update d table values conditions writeNulls).map (Option.map redact) =
      (update d table values conditions' writeNulls).map (Option.map redact) := by
  rw [update, update]
  split
  · rfl
  · exact map_some_redact (ofRender_redact ((renderAssignments_agree d _).seq fun _ =>
      (renderWhere_redact d h).seq fun _ => .result _))

theorem adjustment_redact (d : Dialect) (a : Adjustment) (table : String) (deltas : Entries Value)
    (h : redactConditions conditions = redactConditions conditions') :
    (adjustment d a table deltas conditions).map (Option.map redact) =
      (adjustment d a table deltas conditions').map (Option.map redact) := by
  rw [adjustment, adjustment]
  split
  · rfl
  · exact map_some_redact (ofRender_redact ((renderAdjustments_agree d a deltas).seq fun _ =>
      (renderWhere_redact d h).seq fun _ => .result _))

end

/-- Queries that differ in bound values only, wherever these stand, have the same text, the same
parameters apart from their values, and the same errors, in every dialect; so do updates, deletes
and adjustments whose conditions differ in bound values only. The conditions of keys, other than for
a column named RAW or SQL, of lists and of ranges differ in bound values only when their values do,
whatever these are. -/
theorem text_eq_of_redact_eq (d : Dialect) :
    (∀ q q' : Query, q.redact = q'.redact →
      (ofQuery d q).map redact = (ofQuery d q').map redact) ∧
    (∀ conditions conditions', redactConditions conditions = redactConditions conditions' →
      ∀ table,
        (deletion d table conditions).map redact = (deletion d table conditions').map redact ∧
        (∀ values writeNulls,
          (update d table values conditions writeNulls).map (Option.map redact) =
            (update d table values conditions' writeNulls).map (Option.map redact)) ∧
        ∀ a deltas, (adjustment d a table deltas conditions).map (Option.map redact) =
          (adjustment d a table deltas conditions').map (Option.map redact)) ∧
    (∀ column v v', Condition.isRawColumn column = false → v ≠ .null → v' ≠ .null →
      redactCondition (.key column v) = redactCondition (.key column v') ∧
      ∀ q : Query, (ofQuery d ((q.filter (.key column v)).atMost 1)).map redact =
        (ofQuery d ((q.filter (.key column v')).atMost 1)).map redact) ∧
    (∀ column (values values' : List Value) negated c, values.length = values'.length →
      redactCondition (.isIn column values negated c) =
        redactCondition (.isIn column values' negated c)) ∧
    ∀ column low low' high high' negated c,
      redactCondition (.between column low high negated c) =
        redactCondition (.between column low' high' negated c) := by
  refine ⟨fun q q' => ofQuery_redact d, ?_, ?_, ?_, ?_⟩
  · intro conditions conditions' h table
    exact ⟨deletion_redact d table h,
      fun values writeNulls => update_redact d table values writeNulls h,
      fun a deltas => adjustment_redact d a table deltas h⟩
  · intro column v v' hcolumn hv hv'
    have hkey := redactCondition_key hcolumn hv hv'
    refine ⟨hkey, fun q => ofQuery_redact d ?_⟩
    rw [redact_atMost, redact_atMost, redact_filter, redact_filter, hkey]
  · intro column values values' negated c h
    exact redactCondition_isIn column negated c h
  · intros
    rfl

def keyedSample (name : String) (id : Int64) : Query where
  sources := [.table "users"]
  wheres := [.key "name" (.text name), .isIn "id" [.int64 id, .null] false .and,
    .group [.between "age" (.int64 id) (.text name) false .and,
      .sub "id" "in" { sources := [.table "orders"], wheres := [.key "owner" (.int64 id)] }
        .or] .or]

theorem keyedSample_text : (ofQuery .postgres (keyedSample "a*" 1)).map redact =
      (ofQuery .postgres (keyedSample "' OR :name1" 22)).map redact ∧
    (deletion .mysql "users" [.key "id" (.text "*")]).map redact =
      (deletion .mysql "users" [.key "id" (.int64 5)]).map redact ∧
    (ofQuery .postgres (keyedSample "' OR :name1" 22)).toOption.map sql =
      some ("SELECT * FROM users WHERE " ++
        "((users.name = :name1) AND (users.id IN (:id1, :id2))) OR " ++
        "(((users.age BETWEEN :age1 AND :age2)) OR " ++
        "(users.id IN (SELECT * FROM orders WHERE (orders.owner = :owner1))))") := by
  obtain ⟨hqueries, -, -⟩ := text_eq_of_redact_eq .postgres
  obtain ⟨-, hconditions, hkeys, -⟩ := text_eq_of_redact_eq .mysql
  have hid := (hkeys "id" (.text "*") (.int64 5) (by decide) (by simp) (by simp)).1
  refine ⟨hqueries _ _ rfl, (hconditions _ _ ?_ "users").1, by decide +kernel⟩
  rw [redactConditions, redactConditions, hid]
  rfl

def rawKeySample (key : String) : Query where
  sources := [.table "t"]
  wheres := [.key "RAW" (.text key)]

/-- The key of a column named RAW is the text of its clause, and is not bound. -/
theorem rawKeySample_text :
    (ofQuery .postgres (rawKeySample "1 = 1")).toOption.map (fun s => (s.sql, s.params.length)) =
      some ("SELECT * FROM t WHERE (1 = 1)", 0) ∧
    (ofQuery .postgres (rawKeySample "1 = 1")).toOption.map sql ≠
      (ofQuery .postgres (rawKeySample "1 = 2")).toOption.map sql := by
  constructor <;> decide +kernel

end RowMapper.Sql
