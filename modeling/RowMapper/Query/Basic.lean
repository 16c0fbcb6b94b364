import RowMapper.Condition.Reader
import RowMapper.Sql.Parameters

/-! # Queries

The parts of a SELECT statement before it is rendered. Sources, joins, selected
columns and conditions may hold queries again. An error in building a query is
kept in it and comes out when the query is rendered.
-/

namespace RowMapper

inductive JoinKind where
  | inner
  | left
  | right
  | cross
  deriving DecidableEq, Repr

def JoinKind.keywords : JoinKind → String
  | inner => "INNER JOIN"
  | left => "LEFT JOIN"
  | right => "RIGHT JOIN"
  | cross => "CROSS JOIN"

/-- Where rows come from: a table, possibly with an alias, or a query under an alias. -/
inductive Source (Query : Type) where
  | table (name : String)
  | sub (query : Query) (asName : String)

structure Join (Query : Type) where
  kind : JoinKind
  target : Source Query
  conditions : List (Condition Query) := []

inductive SelectItem (Query : Type) where
  | column (text : String)
  | raw (sql : String) (values : List Value)
  | sub (query : Query) (asName : String)

inductive Direction where
  | asc
  | desc
  deriving DecidableEq, Repr

namespace Direction

def keyword : Direction → String
  | asc => "ASC"
  | desc => "DESC"

def parse (s : String) : Except Error Direction :=
  let word := Text.upper (Text.trim s)
  if word = "ASC" then .ok asc
  else if word = "DESC" then .ok desc
  else .error (.invalidArgument ("Order direction must be 'asc' or 'desc', got '" ++ s ++ "'"))

end Direction

inductive OrderItem where
  | column (name : String) (direction : Direction)
  | raw (sql : String) (values : List Value)

/-- A relation to one row that conditions may mention as `name.column`. -/
structure RelationJoin where
  /-- The relation's name, and the alias of its table. -/
  name : String
  table : String
  /-- The column of this query's table. -/
  localColumn : String
  /-- The column of the related table. -/
  foreignColumn : String
  deriving DecidableEq, Repr

inductive IndexKey where
  | column (name : String)
  | rowKey (key : Row → String)

/-- The key of the row at a position; without the column, the position is the key. -/
def IndexKey.keyOf (key : IndexKey) (row : Row) (position : Nat) : String :=
  match key with
  | .column name => ((Entries.get? row name).map Value.keyString).getD (toString position)
  | .rowKey f => f row

/-- A SELECT statement before it is rendered. A call that cannot be followed leaves its error here
instead of failing, and of several errors the first one stays. -/
structure Query where
  columns : List (SelectItem Query) := []
  distinct : Bool := false
  sources : List (Source Query) := []
  joins : List (Join Query) := []
  wheres : List (Condition Query) := []
  groups : List String := []
  havings : List (Condition Query) := []
  orders : List OrderItem := []
  limit : Option Nat := none
  offset : Option Nat := none
  /-- The queries united with this one, each with whether duplicates are kept. -/
  unions : List (Query × Bool) := []
  /-- Values for the raw fragments of each clause. -/
  given : List (Sql.Category × Value) := []
  indexKey : Option IndexKey := none
  relations : List RelationJoin := []
  connection : Option String := none
  error : Option Error := none

namespace Source

/-- The name under which the rows of a source are known. -/
def asName : Source Query → String
  | .table name => match Sql.splitAlias name with
    | some (_, asName) => asName
    | none => Text.trim name
  | .sub _ asName => asName

end Source

namespace Query

/-- The name that bare columns are qualified with. -/
def baseAlias (q : Query) : Option String := q.sources.head?.map Source.asName

def connectionName (q : Query) : String := q.connection.getD "default"

def withError (q : Query) (e : Error) : Query :=
  { q with error := match q.error with
    | some first => some first
    | none => some e }

def keyOf (q : Query) (row : Row) (position : Nat) : String :=
  match q.indexKey with
  | some key => key.keyOf row position
  | none => toString position

theorem error_withError (q : Query) (e : Error) :
    (q.withError e).error = q.error.or (some e) := by
  unfold withError
  cases h : q.error <;> rfl

end Query

end RowMapper
