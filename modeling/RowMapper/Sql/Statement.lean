import RowMapper.Sql.Predicate

/-! # Statements

The text of a query with named placeholders. Clauses stand in the order SELECT,
FROM, JOIN, WHERE, GROUP BY, HAVING, ORDER BY, LIMIT and UNION; nested queries
are rendered where they stand, so values are bound in the order of their
placeholders.
-/

namespace RowMapper.Sql

open Text

/-- Write a selected, grouped or ordered column; an expression is taken over as it is. -/
def columnText (d : Dialect) (column : String) : String :=
  let base := match splitAlias column with
    | some (base, _) => base
    | none => column
  if base.toList.any fun c => c ∈ ['(', ')', ' ', '\'', '"', '\x60'] then trim column
  else quoteQualified d column

def limitText (d : Dialect) (limit offset : Option Nat) : String :=
  match limit, offset with
  | some limit, offset => " LIMIT " ++ toString limit ++ " OFFSET " ++ toString (offset.getD 0)
  | none, some offset => match d with
    | .postgres => " OFFSET " ++ toString offset
    | .mysql => " LIMIT 18446744073709551615 OFFSET " ++ toString offset
    | .sqlite => " LIMIT -1 OFFSET " ++ toString offset
  | none, none => ""

def groupText (d : Dialect) (groups : List String) : String :=
  if groups.isEmpty then "" else " GROUP BY " ++ join ", " (groups.map (columnText d))

def renderOrders (d : Dialect) : List OrderItem → Render (List String)
  | [] => pure []
  | .column name direction :: rest => do
    let others ← renderOrders d rest
    return (columnText d name ++ " " ++ direction.keyword) :: others
  | .raw sql values :: rest => do
    let first ← ParamSink.expandRaw sql values
    let others ← renderOrders d rest
    return first :: others

/-- A keyword before a predicate, and nothing without a predicate. -/
def afterKeyword (keyword predicate : String) : String :=
  if predicate.isEmpty then "" else keyword ++ predicate

def aliased (d : Dialect) (text asName : String) : String :=
  "(" ++ text ++ ") AS " ++ quoteIdentifier d asName

def concatenated (texts : List String) : String :=
  texts.foldl (· ++ ·) ""

mutual
def renderQuery (d : Dialect) : Query → Render String
  | ⟨columns, distinct, sources, joins, wheres, groups, havings, orders, limit, offset, unions,
      given, indexKey, relations, connection, error⟩ => do
    match error with
    | some e => throw e
    | none =>
      let query : Query := ⟨columns, distinct, sources, joins, wheres, groups, havings, orders,
        limit, offset, unions, given, indexKey, relations, connection, error⟩
      let given := Bindings.get given
      let selected ← inClause .select (given .select) (renderColumns d columns)
      let from' ← inClause .source (given .source) (do
        if sources.isEmpty then throw (.invalidArgument "Query has no FROM table")
        renderSources d sources)
      let joined ← inClause .join (given .join) (renderJoins d joins)
      let needed := (neededRelations query).map fun r => " " ++ relationJoinText d r
      let filter ← inClause .filter (given .filter)
        (renderConditions { dialect := d, table := query.baseAlias } wheres)
      let having ← inClause .having (given .having) (renderConditions { dialect := d } havings)
      let ordered ← inClause .order (given .order) (renderOrders d orders)
      let united ← inClause .union (given .union) (renderUnions d unions)
      return "SELECT " ++ (if distinct then "DISTINCT " else "") ++
        (if columns.isEmpty then "*" else join ", " selected) ++
        " FROM " ++ join ", " from' ++ concatenated (joined ++ needed) ++
        afterKeyword " WHERE " (Clauses.text filter) ++ groupText d groups ++
        afterKeyword " HAVING " (Clauses.text having) ++
        (if orders.isEmpty then "" else " ORDER BY " ++ join ", " ordered) ++
        limitText d limit offset ++ concatenated united
def renderColumns (d : Dialect) : List (SelectItem Query) → Render (List String)
  | [] => pure []
  | .column text :: rest => do
    let others ← renderColumns d rest
    return columnText d text :: others
  | .raw sql values :: rest => do
    let first ← ParamSink.expandRaw sql values
    let others ← renderColumns d rest
    return first :: others
  | .sub query asName :: rest => do
    let first ← renderQuery d query
    let others ← renderColumns d rest
    return aliased d first asName :: others
def renderSource (d : Dialect) : Source Query → Render String
  | .table name => pure (quoteQualified d name)
  | .sub query asName => do
    let text ← renderQuery d query
    return aliased d text asName
def renderSources (d : Dialect) : List (Source Query) → Render (List String)
  | [] => pure []
  | source :: rest => do
    let first ← renderSource d source
    let others ← renderSources d rest
    return first :: others
/-- The texts of joins, each after a blank; a cross join has no ON. -/
def renderJoins (d : Dialect) : List (Join Query) → Render (List String)
  | [] => pure []
  | ⟨kind, target, conditions⟩ :: rest => do
    let source ← renderSource d target
    let clauses ← if kind = .cross then pure []
      else renderConditions { dialect := d } conditions
    let others ← renderJoins d rest
    return (" " ++ kind.keywords ++ " " ++ source ++
      (if kind = .cross || conditions.isEmpty then "" else " ON " ++ Clauses.text clauses)) :: others
/-- The clauses of sibling conditions; empty groups have none. -/
def renderConditions (scope : Scope) : List (Condition Query) → Render Clauses
  | [] => pure []
  | c :: cs => do
    let first ← renderCondition scope c
    let others ← renderConditions scope cs
    return match first with
      | some text => (c.connective, text) :: others
      | none => others
def renderCondition (scope : Scope) : Condition Query → Render (Option String)
  | .basic column operator operand _ =>
    if Condition.isRawColumn column then pure (some (rawOperandText operand))
    else match Comparison.parse operator with
      | .error e => throw e
      | .ok op => do
        let text ← renderComparison scope column op operand
        return some text
  | .isIn column values negated _ => do
    let text ← renderMembership scope column values negated
    return some text
  | .between column low high negated _ => do
    let text ← renderRange scope column low high negated
    return some text
  | .group children _ => do
    let clauses ← renderConditions scope children
    let text := Clauses.text clauses
    return if text.isEmpty then none else some text
  | .sub column operator query _ =>
    match Comparison.parse operator with
    | .error e => throw e
    | .ok op => do
      let text ← renderQuery scope.dialect query
      return some (scope.qualify column ++ " " ++ op.symbol ++ " (" ++ text ++ ")")
  | .hasRows query negated _ => do
    let text ← renderQuery scope.dialect query
    return some ((if negated then "NOT " else "") ++ "EXISTS (" ++ text ++ ")")
  | .raw sql values _ => do
    let text ← ParamSink.expandRaw sql values
    return some text
def renderUnions (d : Dialect) : List (Query × Bool) → Render (List String)
  | [] => pure []
  | (query, all) :: rest => do
    let text ← renderQuery d query
    let others ← renderUnions d rest
    return ((if all then " UNION ALL " else " UNION ") ++ text) :: others
end

/-- A statement with named placeholders and the values bound to them. -/
structure Statement where
  sql : String
  /-- Names and values in the order in which they were bound. -/
  named : List (String × Value)
  /-- The same values, each under its clause. -/
  bindings : Bindings

namespace Statement

def params (s : Statement) : List Value := s.named.map Prod.snd

def toPositional (s : Statement) (d : Dialect) : Except Error (String × List Value) :=
  positional d s.sql s.params

/-- Render with a sink of its own. -/
def ofRender (body : Render String) : Except Error Statement :=
  match body {} with
  | .ok sql sink => .ok { sql := sql, named := sink.named, bindings := sink.bindings }
  | .error e _ => .error e

def ofQuery (d : Dialect) (q : Query) : Except Error Statement :=
  ofRender (renderQuery d q)

def ofExistence (d : Dialect) (q : Query) : Except Error Statement := do
  let s ← ofQuery d q
  return { s with sql := "SELECT EXISTS (" ++ s.sql ++ ") AS aggregate" }

def ofConditions (scope : Scope) (conditions : List (Condition Query)) : Except Error Statement :=
  ofRender (Clauses.text <$> renderConditions scope conditions)

end Statement

end RowMapper.Sql
