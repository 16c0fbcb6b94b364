import RowMapper.Query.Aggregate

/-! # Calls that build a query

A query is built by one call after another. A call fails when its argument cannot be
read: an operator, a direction, a clause, conditions in JSON, or a page that starts too
far behind; a call that adds a group fails with the first failing call inside. The query
keeps the first error of all, and which error that is depends on the arguments alone.
-/

namespace RowMapper.Query

inductive Step where
  | select (fields : String)
  | selectAlso (fields : String)
  | selectItem (entry : SelectItem Query)
  | withoutRepeats
  | fromTables (tables : String)
  | fromQuery (rows : Query) (asName : String)
  | joined (kind : JoinKind) (target : Source Query) (conditions : List (Condition Query))
  | withRelations (relations : List RelationJoin)
  | onConnection (name : String)
  | filter (c : Condition Query)
  | filterBy (column operator : String) (operand : Operand) (connective : Connective)
  | filterByQuery (column operator : String) (rows : Query) (connective : Connective)
  | filterAll (conditions : List (Condition Query)) (connective : Connective)
  | filterJson (expression : Json) (connective : Connective)
  /-- A group of the conditions that the calls inside give to an empty query. -/
  | filterGroup (inner : List Step) (connective : Connective)
  | groupBy (columns : String)
  | filterGroups (c : Condition Query)
  | filterGroupsBy (column operator : String) (operand : Operand) (connective : Connective)
  | order (entry : OrderItem)
  | orderBy (column direction : String)
  | unordered
  | atMost (count : Int)
  | skipping (count : Int)
  | page (page perPage : Int)
  | unite (other : Query) (keepRepeats : Bool)
  | indexedBy (key : IndexKey)
  | give (values : List Value) (clause : String)

mutual
def Step.apply : Step → Query → Query
  | .select fields, q => q.select fields
  | .selectAlso fields, q => q.selectAlso fields
  | .selectItem entry, q => q.selectItem entry
  | .withoutRepeats, q => q.withoutRepeats
  | .fromTables tables, q => q.fromTables tables
  | .fromQuery rows asName, q => q.fromQuery rows asName
  | .joined kind target conditions, q => q.joined kind target conditions
  | .withRelations relations, q => q.withRelations relations
  | .onConnection name, q => q.onConnection name
  | .filter c, q => q.filter c
  | .filterBy column operator operand connective, q =>
    q.filterBy column operator operand connective
  | .filterByQuery column operator rows connective, q =>
    q.filterByQuery column operator rows connective
  | .filterAll conditions connective, q => q.filterAll conditions connective
  | .filterJson expression connective, q => q.filterJson expression connective
  | .filterGroup inner connective, q => q.filterGroup (applyAll inner {}) connective
  | .groupBy columns, q => q.groupBy columns
  | .filterGroups c, q => q.filterGroups c
  | .filterGroupsBy column operator operand connective, q =>
    q.filterGroupsBy column operator operand connective
  | .order entry, q => q.order entry
  | .orderBy column direction, q => q.orderBy column direction
  | .unordered, q => q.unordered
  | .atMost count, q => q.atMost count
  | .skipping count, q => q.skipping count
  | .page page perPage, q => q.page page perPage
  | .unite other keepRepeats, q => q.unite other keepRepeats
  | .indexedBy key, q => q.indexedBy key
  | .give values clause, q => q.give values clause
def applyAll : List Step → Query → Query
  | [], q => q
  | step :: steps, q => applyAll steps (step.apply q)
end

/-! ## Arguments that cannot be read -/

def readingError (reading : Except Error α) : Option Error :=
  match reading with
  | .ok _ => none
  | .error e => some e

def pageError (page perPage : Int) : Option Error :=
  if (max page 1 - 1) * max perPage 0 ≤ maxSkipped then none
  else some (pageOutOfRange (max page 1) perPage)

mutual
def Step.failure? : Step → Option Error
  | .filterBy _ operator _ _ => readingError (Comparison.parse operator)
  | .filterByQuery _ operator _ _ => readingError (Comparison.parse operator)
  | .filterJson expression _ =>
    readingError (Condition.ofJson expression : Except Error (List (Condition Query)))
  | .filterGroup inner _ => firstFailure inner
  | .filterGroupsBy _ operator _ _ => readingError (Comparison.parse operator)
  | .orderBy _ direction => readingError (Direction.parse direction)
  | .page page perPage => pageError page perPage
  | .give _ clause => readingError (Sql.Category.parse clause)
  | .select _ | .selectAlso _ | .selectItem _ | .withoutRepeats | .fromTables _
  | .fromQuery _ _ | .joined _ _ _ | .withRelations _ | .onConnection _ | .filter _
  | .filterAll _ _ | .groupBy _ | .filterGroups _ | .order _ | .unordered | .atMost _
  | .skipping _ | .unite _ _ | .indexedBy _ => none
def firstFailure : List Step → Option Error
  | [] => none
  | step :: steps => step.failure?.or (firstFailure steps)
end

theorem firstFailure_append {before after : List Step} {step : Step} {e : Error}
    (hbefore : ∀ earlier ∈ before, earlier.failure? = none) (hstep : step.failure? = some e) :
    firstFailure (before ++ step :: after) = some e := by
  induction before with
  | nil => simp [firstFailure, hstep]
  | cons first rest ih =>
    have hfirst := hbefore first List.mem_cons_self
    have hrest := ih fun earlier h => hbefore earlier (List.mem_cons_of_mem _ h)
    simp [firstFailure, hfirst, hrest]

/-! ## The error that the query keeps -/

section Kept

variable (q : Query)

@[simp] theorem error_filter (c : Condition Query) : (q.filter c).error = q.error := rfl

@[simp] theorem error_filterGroups (c : Condition Query) :
    (q.filterGroups c).error = q.error := rfl

@[simp] theorem error_filterAll (conditions : List (Condition Query)) (connective : Connective) :
    (q.filterAll conditions connective).error = q.error := by
  unfold filterAll
  split <;> rfl

@[simp] theorem error_atMost (count : Int) : (q.atMost count).error = q.error := by
  unfold atMost
  split <;> rfl

@[simp] theorem error_skipping (count : Int) : (q.skipping count).error = q.error := by
  unfold skipping
  split <;> rfl

theorem error_withErrorOf (other : Query) :
    (q.withErrorOf other).error = q.error.or other.error := by
  unfold withErrorOf
  cases other.error with
  | none => simp
  | some e => exact error_withError q e

theorem error_ifOperator {next : Query → Query} (hnext : ∀ q, (next q).error = q.error)
    (operator : String) :
    (q.ifOperator operator next).error =
      q.error.or (readingError (Comparison.parse operator)) := by
  unfold ifOperator
  cases Comparison.parse operator with
  | ok c => simp [readingError, hnext]
  | error e => exact error_withError q e

theorem error_filterJson (expression : Json) (connective : Connective) :
    (q.filterJson expression connective).error =
      q.error.or
        (readingError (Condition.ofJson expression : Except Error (List (Condition Query)))) := by
  unfold filterJson
  cases (Condition.ofJson expression : Except Error (List (Condition Query))) with
  | ok conditions => simp [readingError]
  | error e => exact error_withError q e

theorem error_orderBy (column direction : String) :
    (q.orderBy column direction).error =
      q.error.or (readingError (Direction.parse direction)) := by
  unfold orderBy
  cases Direction.parse direction with
  | ok direction => simp [readingError, order]
  | error e => exact error_withError q e

theorem error_give (values : List Value) (clause : String) :
    (q.give values clause).error = q.error.or (readingError (Sql.Category.parse clause)) := by
  unfold give
  cases Sql.Category.parse clause with
  | ok category => simp [readingError]
  | error e => exact error_withError q e

theorem error_page (page perPage : Int) :
    (q.page page perPage).error = q.error.or (pageError page perPage) := by
  unfold Query.page pageError
  dsimp only
  split
  · simp
  · exact error_withError q _

end Kept

mutual
/-- A call leaves the error that is there, and else adds its own. -/
theorem Step.error_apply (step : Step) (q : Query) :
    (step.apply q).error = q.error.or step.failure? := by
  cases step with
  | filterBy column operator operand connective =>
    rw [Step.apply, Step.failure?]
    exact error_ifOperator q (fun q => error_filter q _) operator
  | filterByQuery column operator rows connective =>
    rw [Step.apply, Step.failure?]
    exact error_ifOperator q (fun q => error_filter q _) operator
  | filterJson expression connective =>
    rw [Step.apply, Step.failure?]
    exact error_filterJson q expression connective
  | filterGroup inner connective =>
    rw [Step.apply, Step.failure?, filterGroup, error_filterAll, error_withErrorOf,
      error_applyAll inner {}]
    rfl
  | filterGroupsBy column operator operand connective =>
    rw [Step.apply, Step.failure?]
    exact error_ifOperator q (fun q => error_filterGroups q _) operator
  | orderBy column direction =>
    rw [Step.apply, Step.failure?]
    exact error_orderBy q column direction
  | page page perPage =>
    rw [Step.apply, Step.failure?]
    exact error_page q page perPage
  | give values clause =>
    rw [Step.apply, Step.failure?]
    exact error_give q values clause
  | filterAll conditions connective => simp [Step.apply, Step.failure?]
  | atMost count => simp [Step.apply, Step.failure?]
  | skipping count => simp [Step.apply, Step.failure?]
  | select | selectAlso | selectItem | withoutRepeats | fromTables | fromQuery | joined
  | withRelations | onConnection | filter | groupBy | filterGroups | order | unordered
  | unite | indexedBy =>
    rw [Step.apply, Step.failure?, Option.or_none]
    rfl
/-- After calls in a row the query has the error that was there, or else that of the first call
that fails. -/
theorem error_applyAll (steps : List Step) (q : Query) :
    (applyAll steps q).error = q.error.or (firstFailure steps) := by
  cases steps with
  | nil => simp [applyAll, firstFailure]
  | cons step rest =>
    rw [applyAll, error_applyAll rest, step.error_apply q, firstFailure, Option.or_assoc]
end

/-- The whole query stands for its error in any query that computes over it. -/
@[simp] theorem error_aggregated (q : Query) (d : Dialect) (f : Aggregate) (column : String) :
    (q.aggregated d f column).error = q.error := by
  unfold aggregated
  dsimp only
  split <;> rfl

end RowMapper.Query
