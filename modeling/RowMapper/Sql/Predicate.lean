import RowMapper.Query.Basic

/-! # Predicate text

How the parts of a predicate are written: columns with their table, comparisons
with each kind of operand, and siblings joined by AND and OR. Siblings form one
flat level: all AND clauses together are the first of the OR clauses.
-/

namespace RowMapper.Sql

open Text

def alwaysFalse : String := "'0'"

/-- What bare column names mean: the dialect, and the table they belong to. -/
structure Scope where
  dialect : Dialect
  table : Option String := none

/-- Whether a column text is an expression, which is taken over as it is. -/
def isExpression (column : String) : Bool :=
  column.toList.any fun c => c ∈ ['(', ')', ' ', '\'', '"', '\x60', ',']

/-- Write a column; a bare name gets its table. -/
def Scope.qualify (scope : Scope) (column : String) : String :=
  let column := trim column
  if isExpression column then column
  else if column.toList.contains '.' then quoteQualified scope.dialect column
  else match scope.table with
    | some table =>
      quoteQualified scope.dialect table ++ "." ++ quoteIdentifier scope.dialect column
    | none => quoteIdentifier scope.dialect column

/-- The text that an operand is for a column whose name announces SQL text. -/
def rawOperandText : Operand → String
  | .value v => v.display
  | .exact v => v.display
  | .raw sql => sql
  | .column name => name
  | .null => "NULL"
  | .list vs => join " " (vs.map Value.display)

def wildcardText (s : String) : String :=
  String.ofList (s.toList.map fun c => if c = '*' then '%' else c)

def renderBound (left column : String) (op : Comparison) (v : Value) : Render String := do
  let placeholder ← ParamSink.bind column v
  return if op = .isIn || op = .notIn then left ++ " " ++ op.symbol ++ " (" ++ placeholder ++ ")"
    else left ++ " " ++ op.symbol ++ " " ++ placeholder

def renderComparison (scope : Scope) (column : String) (op : Comparison) (operand : Operand) :
    Render String :=
  let left := scope.qualify column
  match operand with
  | .null => pure (left ++ " IS " ++ (if op.isNegated then "NOT " else "") ++ "NULL")
  | .list [] => pure alwaysFalse
  | .list vs => pure (left ++ (if op.isNegated then " NOT IN" else " IN") ++ " (" ++
      join ", " (vs.map (literal scope.dialect)) ++ ")")
  | .column other => pure (left ++ " " ++ op.symbol ++ " " ++ scope.qualify other)
  | .raw sql => pure (left ++ " " ++ op.symbol ++ " " ++ sql)
  | .value (.text s) =>
    if s.toList.contains '*' && op.acceptsWildcard then do
      let placeholder ← ParamSink.bind column (.text (wildcardText s))
      return left ++ " " ++ op.asPattern.symbol ++ " " ++ placeholder
    else renderBound left column op (.text s)
  | .value v => renderBound left column op v
  | .exact v => renderBound left column op v

def bindAll (column : String) : List Value → Render (List String)
  | [] => pure []
  | v :: vs => do
    let placeholder ← ParamSink.bind column v
    let rest ← bindAll column vs
    return placeholder :: rest

def renderMembership (scope : Scope) (column : String) (values : List Value) (negated : Bool) :
    Render String :=
  if values.isEmpty then pure alwaysFalse
  else do
    let placeholders ← bindAll column values
    return scope.qualify column ++ (if negated then " NOT IN" else " IN") ++ " (" ++
      join ", " placeholders ++ ")"

def renderRange (scope : Scope) (column : String) (low high : Value) (negated : Bool) :
    Render String := do
  let lowMark ← ParamSink.bind column low
  let highMark ← ParamSink.bind column high
  return scope.qualify column ++ (if negated then " NOT BETWEEN " else " BETWEEN ") ++ lowMark ++
    " AND " ++ highMark

/-- Clause texts with the connective of each. -/
abbrev Clauses := List (Connective × String)

/-- The texts of the clauses with a connective, each in parentheses. -/
def Clauses.texts (cs : Clauses) (c : Connective) : List String :=
  (cs.filter fun clause => clause.1 = c).map fun clause => "(" ++ clause.2 ++ ")"

/-- Join siblings: the AND clauses together are the first alternative, each OR clause one more. -/
def Clauses.text (cs : Clauses) : String :=
  let ands := cs.texts .and
  let ors := cs.texts .or
  if ors.isEmpty then join " AND " ands
  else if ands.isEmpty then join " OR " ors
  else "(" ++ join " AND " ands ++ ") OR " ++ join " OR " ors

mutual
/-- The columns that a condition mentions outside nested queries. -/
def mentionedColumns : Condition Query → List String
  | .basic column _ operand _ => match operand with
    | .column other => [column, other]
    | _ => [column]
  | .isIn column _ _ _ => [column]
  | .between column _ _ _ _ => [column]
  | .sub column _ _ _ => [column]
  | .group children _ => allMentionedColumns children
  | .hasRows _ _ _ => []
  | .raw _ _ _ => []
def allMentionedColumns : List (Condition Query) → List String
  | [] => []
  | c :: cs => mentionedColumns c ++ allMentionedColumns cs
end

def relationOf (relations : List RelationJoin) (column : String) : Option RelationJoin :=
  match breakPhrase ['.'] column.toList with
  | some (name, _) => relations.find? fun r => r.name = String.ofList name
  | none => none

def addRelation (found : List RelationJoin) (r : RelationJoin) : List RelationJoin :=
  if found.any fun other => other.name = r.name then found else found ++ [r]

/-- The relations that columns are qualified with, in order of first mention. -/
def relationsOf (relations : List RelationJoin) (columns : List String) : List RelationJoin :=
  (columns.filterMap (relationOf relations)).foldl addRelation []

def orderColumns (orders : List OrderItem) : List String :=
  orders.filterMap fun order => match order with
    | .column name _ => some name
    | .raw _ _ => none

/-- The relations that a query mentions and does not join itself. -/
def neededRelations (q : Query) : List RelationJoin :=
  (relationsOf q.relations (allMentionedColumns q.wheres ++ orderColumns q.orders)).filter
    fun r => !(q.joins.map fun j => j.target.asName).contains r.name

def relationJoinText (d : Dialect) (r : RelationJoin) : String :=
  let scope : Scope := { dialect := d }
  JoinKind.left.keywords ++ " " ++ quoteQualified d (r.table ++ " AS " ++ r.name) ++ " ON (" ++
    scope.qualify (r.name ++ "." ++ r.foreignColumn) ++ " = " ++ scope.qualify r.localColumn ++ ")"

end RowMapper.Sql
