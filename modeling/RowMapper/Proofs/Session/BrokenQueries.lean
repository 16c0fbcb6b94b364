import RowMapper.Proofs.Query.Calls
import RowMapper.Proofs.Session.Runs

/-! # Queries that keep an error

A query that keeps an error has no statement in any dialect. Whatever is asked of it, by
whichever of the operations on queries, opens its connection at most and then fails with
that error; nothing is sent. The parts of a query that an operation changes before it
renders the query (the limit, the page, the selected function) leave the error in place.
-/

namespace RowMapper

open Run Sql

variable {σ : Type} {d : Driver σ} {q : Query} {e : Error}

namespace Sql.Statement

theorem ofQuery_of_error (h : q.error = some e) (dialect : Dialect) :
    ofQuery dialect q = .error e := by
  obtain ⟨columns, distinct, sources, joins, wheres, groups, havings, orders, limit, offset,
    unions, given, indexKey, relations, connection, error⟩ := q
  subst h
  rw [ofQuery, ofRender, renderQuery]
  rfl

theorem ofExistence_of_error (h : q.error = some e) (dialect : Dialect) :
    ofExistence dialect q = .error e := by
  rw [ofExistence, ofQuery_of_error h]
  rfl

end Sql.Statement

namespace Query

theorem connectionName_atMost (q : Query) (count : Int) :
    (q.atMost count).connectionName = q.connectionName := by
  unfold atMost
  split <;> rfl

theorem connectionName_page (q : Query) (page perPage : Int) :
    (q.page page perPage).connectionName = q.connectionName := by
  unfold Query.page atMost skipping
  dsimp only
  split
  · split <;> split <;> rfl
  · rfl

end Query

namespace Action

variable {c : Connection} {s t : Session σ}

/-- Whatever is asked of a query fails with one error. -/
structure Refused (d : Driver σ) (q : Query) (e : Error) (s t : Session σ) : Prop where
  rows : rows d q s = .error e t
  indexedRows : indexedRows d q s = .error e t
  firstRow : firstRow d q s = .error e t
  requireRow : requireRow d q s = .error e t
  column : column d q s = .error e t
  indexedColumn : indexedColumn d q s = .error e t
  value : value d q s = .error e t
  hasRows : hasRows d q s = .error e t
  aggregate : ∀ f name, aggregate d q f name s = .error e t
  countRows : ∀ name, countRows d q name s = .error e t
  records : ∀ schema, records d schema q s = .error e t
  firstRecord : ∀ schema, firstRecord d schema q s = .error e t
  requireRecord : ∀ schema, requireRecord d schema q s = .error e t
  /-- A walk ends before its first batch. -/
  walk : ∀ size goOn, 0 < size → walk d q size goOn s = .ok ⟨[], .error e⟩ t

theorem rows_of_error (hq : q.error = some e)
    (hc : connection d q.connectionName s = .ok c t) : rows d q s = .error e t := by
  rw [rows, bind_of_ok hc]
  exact bind_of_error (check_of_error (Statement.ofQuery_of_error hq c.dialect) t) _

theorem firstRow_of_error (hq : q.error = some e)
    (hc : connection d q.connectionName s = .ok c t) : firstRow d q s = .error e t := by
  have hc' : connection d (q.atMost 1).connectionName s = .ok c t := by
    rwa [Query.connectionName_atMost]
  exact bind_of_error (rows_of_error ((q.error_atMost 1).trans hq) hc') _

theorem aggregate_of_error (hq : q.error = some e)
    (hc : connection d q.connectionName s = .ok c t) (f : Aggregate) (name : String) :
    aggregate d q f name s = .error e t := by
  rw [aggregate, bind_of_ok hc]
  have haggregated := (q.error_aggregated c.dialect f name).trans hq
  exact bind_of_error (check_of_error (Statement.ofQuery_of_error haggregated c.dialect) t) _

theorem walkFrom_of_error (hq : q.error = some e)
    (hc : connection d q.connectionName s = .ok c t) (size : Nat)
    (goOn : List (List Row) → Except Error Bool) (seen : List (List Row)) (page : Nat) :
    walkFrom d q size goOn seen page s = .ok ⟨seen, .error e⟩ t := by
  have hpage : (q.page page size).error = some e := by
    rw [Query.error_page, hq]
    rfl
  have hc' : connection d (q.page page size).connectionName s = .ok c t := by
    rwa [Query.connectionName_page]
  unfold walkFrom
  rw [rows_of_error hpage hc']

theorem refused_of_error (hq : q.error = some e)
    (hc : connection d q.connectionName s = .ok c t) : Refused d q e s t where
  rows := rows_of_error hq hc
  indexedRows := bind_of_error (rows_of_error hq hc) _
  firstRow := firstRow_of_error hq hc
  requireRow := bind_of_error (firstRow_of_error hq hc) _
  column := bind_of_error (rows_of_error hq hc) _
  indexedColumn := bind_of_error (rows_of_error hq hc) _
  value := bind_of_error (firstRow_of_error hq hc) _
  hasRows := by
    rw [hasRows, bind_of_ok hc]
    exact bind_of_error (check_of_error (Statement.ofExistence_of_error hq c.dialect) t) _
  aggregate := aggregate_of_error hq hc
  countRows name := bind_of_error (aggregate_of_error hq hc .count name) _
  records schema := bind_of_error (rows_of_error hq hc) _
  firstRecord schema := bind_of_error (firstRow_of_error hq hc) _
  requireRecord schema := bind_of_error (bind_of_error (firstRow_of_error hq hc) _) _
  walk size goOn hsize := by
    rw [walk, if_pos hsize]
    exact walkFrom_of_error hq hc size.toNat goOn [] 1

/-- The first call that fails decides: whatever calls follow, the query keeps its error, has no
statement but that error, and nothing that is asked of it reaches the driver. -/
theorem first_failure_decides {start : Query} {before after : List Query.Step}
    {step : Query.Step} {e : Error} (hstart : start.error = none)
    (hbefore : ∀ earlier ∈ before, earlier.failure? = none) (hstep : step.failure? = some e)
    (hq : Query.applyAll (before ++ step :: after) start = q) :
    q.error = some e ∧
    (∀ dialect, Statement.ofQuery dialect q = .error e ∧
      Statement.ofExistence dialect q = .error e) ∧
    ∀ (σ : Type) (d : Driver σ) (s t : Session σ) (c : Connection),
      connection d q.connectionName s = .ok c t → t.sent = s.sent ∧ Refused d q e s t := by
  have hkept : q.error = some e := by
    rw [← hq, Query.error_applyAll, hstart, Query.firstFailure_append hbefore hstep]
    rfl
  refine ⟨hkept, fun dialect => ⟨Statement.ofQuery_of_error hkept dialect,
    Statement.ofExistence_of_error hkept dialect⟩, ?_⟩
  intro σ d s t c hc
  exact ⟨((quiet_sent d).connection q.connectionName).of_ok hc, refused_of_error hkept hc⟩

def illReadGroup : Query.Step :=
  .filterGroup [.filter (.basic "status" "=" (.value (.text "paid")) .and),
    .filterBy "total" "<=>" (.value (.int64 1)) .and] .or

def illReadOrders : Query :=
  Query.applyAll ([.fromTables "orders"] ++ illReadGroup :: [.orderBy "id" "down", .atMost 5]) {}

theorem illReadOrders_refused : ∃ c t,
    connection Scripted.driver "default" (Scripted.session []) = .ok c t ∧ t.sent = [] ∧
    illReadOrders.error = some (.invalidArgument "Unsupported operator '<=>'") ∧
    Refused Scripted.driver illReadOrders (.invalidArgument "Unsupported operator '<=>'")
      (Scripted.session []) t := by
  have hfailure : illReadGroup.failure? = some (.invalidArgument "Unsupported operator '<=>'") := by
    decide +kernel
  have hbefore : ∀ earlier ∈ [Query.Step.fromTables "orders"], earlier.failure? = none := by
    intro earlier h
    rw [List.mem_singleton.1 h]
    rfl
  have hstart : ({} : Query).error = none := rfl
  have hq : Query.applyAll ([.fromTables "orders"] ++ illReadGroup ::
      [.orderBy "id" "down", .atMost 5]) {} = illReadOrders := rfl
  obtain ⟨hkept, -, hrun⟩ := first_failure_decides hstart hbefore hfailure hq
  have hopened : (value? (connection Scripted.driver "default" (Scripted.session []))).isSome =
      true := by
    decide +kernel
  obtain ⟨c, hc⟩ := Option.isSome_iff_exists.1 hopened
  have hc' := eq_ok_of_value? hc
  have hname : illReadOrders.connectionName = "default" := by decide +kernel
  rw [← hname] at hc'
  obtain ⟨hsent, hrefused⟩ := hrun _ _ _ _ c hc'
  rw [hname] at hc' hrefused hsent
  exact ⟨c, _, hc', hsent, hkept, hrefused⟩

end Action

end RowMapper
