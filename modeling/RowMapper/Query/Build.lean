import RowMapper.Query.Basic

/-! # Building queries

Each function takes a query and gives it one more part. An argument that has no
meaning (an unknown operator, direction or clause) adds nothing; the query keeps
the first such error.
-/

namespace RowMapper

open Text

/-! ## Lists in one text -/

/-- The pieces of a text between the commas that stand outside parentheses. -/
def listedFrom : Nat → List Char → List (List Char)
  | _, [] => [[]]
  | depth, c :: cs =>
    if c = ',' && depth == 0 then [] :: listedFrom 0 cs
    else
      let inner := if c = '(' then depth + 1 else if c = ')' then depth - 1 else depth
      match listedFrom inner cs with
      | piece :: pieces => (c :: piece) :: pieces
      | [] => [[c]]

/-- The entries of a comma-separated list; blank ones are left out. -/
def listed (s : String) : List String :=
  ((listedFrom 0 s.toList).map fun piece => trim (String.ofList piece)).filter (· ≠ "")

theorem listedFrom_ne_nil (depth : Nat) (cs : List Char) : listedFrom depth cs ≠ [] := by
  cases cs with
  | nil => simp [listedFrom]
  | cons c cs => simp only [listedFrom]; repeat' split
                 all_goals simp

namespace Query

/-! ## Selected columns and sources -/

/-- Select the listed columns and nothing else. The text lists them with commas between them. -/
def select (q : Query) (fields : String) : Query :=
  { q with columns := (listed fields).map .column }

def selectAlso (q : Query) (fields : String) : Query :=
  { q with columns := q.columns ++ (listed fields).map .column }

def selectItem (q : Query) (entry : SelectItem Query) : Query :=
  { q with columns := q.columns ++ [entry] }

def withoutRepeats (q : Query) : Query := { q with distinct := true }

def fromTables (q : Query) (tables : String) : Query :=
  { q with sources := (listed tables).map .table }

def fromQuery (q : Query) (rows : Query) (asName : String) : Query :=
  { q with sources := [.sub rows asName] }

def joined (q : Query) (kind : JoinKind) (target : Source Query)
    (conditions : List (Condition Query)) : Query :=
  { q with joins := q.joins ++ [⟨kind, target, conditions⟩] }

def withRelations (q : Query) (relations : List RelationJoin) : Query :=
  { q with relations }

def onConnection (q : Query) (name : String) : Query := { q with connection := some name }

/-! ## Conditions -/

def filter (q : Query) (c : Condition Query) : Query :=
  { q with wheres := q.wheres ++ [c] }

/-- Do something with a query if the operator is known. -/
def ifOperator (q : Query) (operator : String) (next : Query → Query) : Query :=
  match Comparison.parse operator with
  | .ok _ => next q
  | .error e => q.withError e

/-- Restrict the rows by a comparison whose operator is checked at once. -/
def filterBy (q : Query) (column operator : String) (operand : Operand)
    (connective : Connective := .and) : Query :=
  q.ifOperator operator fun q => q.filter (.basic column operator operand connective)

def filterByQuery (q : Query) (column operator : String) (rows : Query)
    (connective : Connective := .and) : Query :=
  q.ifOperator operator fun q => q.filter (.sub column operator rows connective)

/-- Restrict the rows by conditions in one group; no conditions restrict nothing. -/
def filterAll (q : Query) (conditions : List (Condition Query)) (connective : Connective) :
    Query :=
  if conditions.isEmpty then q else q.filter (.group conditions connective)

def filterJson (q : Query) (expression : Json) (connective : Connective) : Query :=
  match Condition.ofJson expression with
  | .ok conditions => q.filterAll conditions connective
  | .error e => q.withError e

def withErrorOf (q other : Query) : Query :=
  match other.error with
  | some e => q.withError e
  | none => q

/-- Restrict the rows by the conditions of another query, in one group. -/
def filterGroup (q inner : Query) (connective : Connective) : Query :=
  (q.withErrorOf inner).filterAll inner.wheres connective

/-! ## Groups, order and row window -/

/-- Group by the listed columns too; here parentheses protect no comma. -/
def groupBy (q : Query) (columns : String) : Query :=
  { q with groups := q.groups ++ ((split ',' columns).map trim).filter (· ≠ "") }

def filterGroups (q : Query) (c : Condition Query) : Query :=
  { q with havings := q.havings ++ [c] }

def filterGroupsBy (q : Query) (column operator : String) (operand : Operand)
    (connective : Connective := .and) : Query :=
  q.ifOperator operator fun q => q.filterGroups (.basic column operator operand connective)

def order (q : Query) (entry : OrderItem) : Query :=
  { q with orders := q.orders ++ [entry] }

def orderBy (q : Query) (column direction : String) : Query :=
  match Direction.parse direction with
  | .ok direction => q.order (.column column direction)
  | .error e => q.withError e

def unordered (q : Query) : Query := { q with orders := [] }

/-- At most so many rows; a negative count changes nothing. -/
def atMost (q : Query) (count : Int) : Query :=
  if 0 ≤ count then { q with limit := some count.toNat } else q

/-- Without the first rows; a negative count changes nothing. -/
def skipping (q : Query) (count : Int) : Query :=
  if 0 ≤ count then { q with offset := some count.toNat } else q

def maxSkipped : Int := 9223372036854775807

def pageOutOfRange (page perPage : Int) : Error :=
  .invalidArgument ("Page " ++ toString page ++ " of " ++ toString perPage ++
    " rows is out of range")

/-- The rows of one page. Pages are counted from one, and a page whose start is out of range is an
error of the query. -/
def page (q : Query) (page perPage : Int) : Query :=
  let page := max page 1
  let skipped := (page - 1) * max perPage 0
  if skipped ≤ maxSkipped then (q.atMost perPage).skipping skipped
  else q.withError (pageOutOfRange page perPage)

/-! ## Unions, keys and given values -/

def unite (q other : Query) (keepRepeats : Bool) : Query :=
  { q with unions := q.unions ++ [(other, keepRepeats)] }

def indexedBy (q : Query) (key : IndexKey) : Query := { q with indexKey := some key }

/-- Give values for the raw fragments of the clause of that name. -/
def give (q : Query) (values : List Value) (clause : String) : Query :=
  match Sql.Category.parse clause with
  | .ok category => { q with given := Sql.Bindings.extend q.given category values }
  | .error e => q.withError e

end Query

end RowMapper
