import RowMapper.Proofs.Placeholder.Texts
import RowMapper.Proofs.Query.Calls
import RowMapper.Proofs.Render.Clauses

/-! # Statements of aggregates

The query behind an aggregate has one selected expression without question marks. Over the
rows of a window it stands around the whole query and has a statement whenever the query
has one. Without a window it takes the place of the select list, and an ordering of single
rows goes as well, but the values given for the fragments of these two clauses stay in the
query: where there are any, no fragment is left to take them.
-/

namespace RowMapper.Query

open Sql Render ClausePart

variable {q : Query} {d : Dialect}

/-- The target of an aggregate is a quoted name or a star, so the expression has no mark. -/
theorem questionMarks_item (d : Dialect) (f : Aggregate) (name : String) :
    questionMarks (f.name ++ "(" ++ Aggregate.target d name ++ ") AS " ++ Aggregate.column) = 0 := by
  have hopen : Inert (f.name ++ "(") := by cases f <;> decide
  have hclose : Inert (") AS " ++ Aggregate.column) := by decide
  have htarget : Seals (Aggregate.target d name) [] 0 := by
    unfold Aggregate.target
    split
    · exact Inert.seals (by decide)
    · exact seals_quoteQualified d name
  have h := ((hopen.seals.append htarget).append hclose.seals).reads.questionMarks_eq
  rwa [← String.append_assoc] at h

theorem isSome_boundBy_single {part : ClausePart} (hsound : part.Sound) (hmissing : part.missing = 0)
    (given : List Value) : (boundBy [part] given).isSome ↔ given = [] := by
  rw [boundBy_isSome_iff, List.map_singleton, List.sum_singleton, hmissing, eq_comm (a := 0),
    List.length_eq_zero_iff, and_iff_right (List.forall_mem_singleton.2 hsound)]

theorem isSome_boundBy_item (d : Dialect) (f : Aggregate) (target : String) (given : List Value) :
    (boundBy (ofColumn d (f.item (Aggregate.target d target))) given).isSome ↔ given = [] := by
  refine isSome_boundBy_single (Nat.zero_le _) ?_ given
  rw [missing, questionMarks_item]
  rfl

theorem isSome_boundBy_nil (given : List Value) :
    (boundBy [] given).isSome ↔ given = [] := by
  cases given <;> simp [boundBy, drawAll]

/-! ## Around the whole query -/

theorem isSome_alone_renderQuery {st : Statement} (h : Statement.ofQuery d q = .ok st) :
    (alone (renderQuery d q)).Sound := by
  rw [Statement.ofQuery, Statement.ofRender] at h
  split at h
  · next text t hrun =>
    rw [alone, hrun]
    rfl
  · cases h

/-- Over a window of rows the aggregate has a statement whenever the query has one. -/
theorem aggregated_isOk_of_window (hwindow : q.hasRowWindow = true) {st : Statement}
    (h : Statement.ofQuery d q = .ok st) (f : Aggregate) (column : String) :
    ∃ st', Statement.ofQuery d (q.aggregated d f column) = .ok st' := by
  have herror := ((Statement.ofQuery_isOk_iff d q).1 ⟨st, h⟩).1
  rw [aggregated, if_pos hwindow]
  refine (Statement.ofQuery_isOk_iff d _).2 ⟨herror, fun c => ?_⟩
  cases c with
  | select => exact (isSome_boundBy_item d f _ []).2 rfl
  | source => exact (isSome_boundBy_single (isSome_alone_renderQuery h) rfl []).2 rfl
  | join => rfl
  | filter => rfl
  | having => rfl
  | order => rfl
  | union => rfl

/-! ## In the place of the select list -/

section InPlace

variable (hwindow : q.hasRowWindow = false) (f : Aggregate) (column : String)

include hwindow

theorem aggregated_of_no_window : q.aggregated d f column =
    { q with
      columns := [f.item (Aggregate.target d (Text.trim column))]
      orders := if q.groups.isEmpty then [] else q.orders } := by
  rw [aggregated, hwindow]
  rfl

/-- All clauses but the select list and the ordering bind what they bind in the query. -/
theorem clauseBound_aggregated {c : Category} (hselect : c ≠ .select) (horder : c ≠ .order) :
    (q.aggregated d f column).clauseBound d c = q.clauseBound d c := by
  rw [aggregated_of_no_window hwindow]
  cases c with
  | select => exact absurd rfl hselect
  | order => exact absurd rfl horder
  | source => rfl
  | join => rfl
  | filter => rfl
  | having => rfl
  | union => rfl

theorem isSome_clauseBound_select :
    ((q.aggregated d f column).clauseBound d .select).isSome ↔ Bindings.get q.given .select = [] := by
  rw [aggregated_of_no_window hwindow]
  exact isSome_boundBy_item d f _ _

theorem isSome_clauseBound_order (hq : (q.clauseBound d .order).isSome) :
    ((q.aggregated d f column).clauseBound d .order).isSome ↔
      q.groups ≠ [] ∨ Bindings.get q.given .order = [] := by
  rw [aggregated_of_no_window hwindow]
  by_cases hgroups : q.groups = []
  · simpa [clauseBound, clauseParts, hgroups] using isSome_boundBy_nil _
  · have horders : (if q.groups.isEmpty then [] else q.orders) = q.orders := by simp [hgroups]
    rw [horders]
    exact iff_of_true hq (.inl hgroups)

/-- Without a window the aggregate has a statement when no value is given for a clause that it
replaces or drops. -/
theorem aggregated_isOk_iff {st : Statement} (h : Statement.ofQuery d q = .ok st) :
    (∃ st', Statement.ofQuery d (q.aggregated d f column) = .ok st') ↔
      Bindings.get q.given .select = [] ∧
        (q.groups ≠ [] ∨ Bindings.get q.given .order = []) := by
  obtain ⟨herror, hclauses⟩ := (Statement.ofQuery_isOk_iff d q).1 ⟨st, h⟩
  rw [Statement.ofQuery_isOk_iff, error_aggregated]
  constructor
  · rintro ⟨-, hall⟩
    exact ⟨(isSome_clauseBound_select hwindow f column).1 (hall .select),
      (isSome_clauseBound_order hwindow f column (hclauses .order)).1 (hall .order)⟩
  · rintro ⟨hselect, horder⟩
    refine ⟨herror, fun c => ?_⟩
    by_cases hs : c = .select
    · subst hs
      exact (isSome_clauseBound_select hwindow f column).2 hselect
    · by_cases ho : c = .order
      · subst ho
        exact (isSome_clauseBound_order hwindow f column (hclauses .order)).2 horder
      · rw [clauseBound_aggregated hwindow f column hs ho]
        exact hclauses c

/-- The values of all clauses but these two are those of the query. -/
theorem bindings_aggregated {st st' : Statement} (h : Statement.ofQuery d q = .ok st)
    (h' : Statement.ofQuery d (q.aggregated d f column) = .ok st') {c : Category}
    (hselect : c ≠ .select) (horder : c ≠ .order) : st'.bindings.get c = st.bindings.get c := by
  have hq := Statement.get_bindings_of_ofQuery h c
  have haggregated := Statement.get_bindings_of_ofQuery h' c
  rw [clauseBound_aggregated hwindow f column hselect horder, hq] at haggregated
  exact (Option.some.inj haggregated).symm

end InPlace

/-- An aggregate of a query that has a statement has one too, and without a derived table the same
values for the sources, joins and conditions, exactly when the query has a row window or no value
is given for a clause that the aggregate replaces or drops. -/
theorem aggregated_statement_iff (d : Dialect) (q : Query) (f : Aggregate) (column : String)
    (st : Statement) (h : Statement.ofQuery d q = .ok st) :
    (∃ st', Statement.ofQuery d (q.aggregated d f column) = .ok st' ∧
      (q.hasRowWindow = false → ∀ c ∈ [Category.source, .join, .filter, .having],
        st'.bindings.get c = st.bindings.get c)) ↔
      q.hasRowWindow = true ∨ (Bindings.get q.given .select = [] ∧
        (q.groups ≠ [] ∨ Bindings.get q.given .order = [])) := by
  cases hwindow : q.hasRowWindow with
  | true =>
    obtain ⟨st', h'⟩ := aggregated_isOk_of_window hwindow h f column
    exact iff_of_true ⟨st', h', nofun⟩ (.inl rfl)
  | false =>
    rw [← aggregated_isOk_iff hwindow f column h]
    constructor
    · rintro ⟨st', h', -⟩
      exact .inr ⟨st', h'⟩
    · rintro (hfalse | ⟨st', h'⟩)
      · cases hfalse
      · refine ⟨st', h', fun _ c hc => bindings_aggregated hwindow f column h h' ?_ ?_⟩ <;>
        · rintro rfl
          exact absurd hc (by decide)

/-- A grouped query with a raw column, a value given for the fragment of its ordering, and none for
its select list. -/
def groupedSample : Query :=
  { columns := [.raw "? AS x" [.int64 1]], sources := [.table "orders"], groups := ["status"]
    wheres := [.basic "total" ">" (.value (.int64 2)) .and]
    orders := [.raw "total > ?" []], given := [(.order, .int64 3)] }

theorem groupedSample_aggregated : ∃ st, Statement.ofQuery .mysql groupedSample = .ok st ∧
    ∃ st', Statement.ofQuery .mysql (groupedSample.aggregated .mysql .count "*") = .ok st' ∧
      st'.bindings.get .filter = st.bindings.get .filter := by
  obtain ⟨st, h⟩ :=
    Outcome.exists_of_isOk (x := Statement.ofQuery .mysql groupedSample) (by decide +kernel)
  obtain ⟨st', h', hsame⟩ := (aggregated_statement_iff .mysql groupedSample .count "*" st h).2
    (.inr ⟨rfl, .inl (by decide)⟩)
  exact ⟨st, h, st', h', hsame rfl .filter (by decide)⟩

def givenColumnSample : Query :=
  { columns := [.raw "? AS x" []], sources := [.table "orders"], given := [(.select, .int64 1)] }

/-- The query has a statement, and counting its rows has none. -/
theorem givenColumnSample_not_aggregated :
    (Statement.ofQuery .mysql givenColumnSample).isOk = true ∧
      (Statement.ofQuery .mysql (givenColumnSample.aggregated .mysql .count "*")).isOk = false := by
  decide +kernel

end RowMapper.Query
