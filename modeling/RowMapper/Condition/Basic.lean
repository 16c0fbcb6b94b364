import RowMapper.Value.Basic
import RowMapper.Error
import RowMapper.Text.Case
import RowMapper.Text.Pieces

/-! # Conditions

Predicates of a query: comparisons, lists, ranges, nested queries and raw text,
joined by AND or OR and grouped to any depth. Conditions are over a type of
queries, since a condition may hold one.
-/

namespace RowMapper

open Text

/-- How a condition is joined to its siblings. -/
inductive Connective where
  | and
  | or
  deriving DecidableEq, Repr, Inhabited

namespace Connective

/-- The connective of a word: OR in any case is OR, any other word AND. -/
def parse (s : String) : Connective :=
  if sameIgnoringAsciiCase (trim s) "or" then or else and

def keyword : Connective → String
  | and => "AND"
  | or => "OR"

end Connective

inductive Comparison where
  | equal
  | notEqual
  | greater
  | greaterOrEqual
  | less
  | lessOrEqual
  | like
  | notLike
  | ilike
  | notIlike
  | isIn
  | notIn
  | is
  | isNot
  deriving DecidableEq, Repr

namespace Comparison

def isNegated : Comparison → Bool
  | notEqual | notLike | notIlike | notIn | isNot => true
  | _ => false

/-- Whether a star in the compared text makes the comparison a pattern match. -/
def acceptsWildcard : Comparison → Bool
  | equal | notEqual | like | notLike | ilike | notIlike => true
  | _ => false

def symbol : Comparison → String
  | equal => "="
  | notEqual => "<>"
  | greater => ">"
  | greaterOrEqual => ">="
  | less => "<"
  | lessOrEqual => "<="
  | like => "LIKE"
  | notLike => "NOT LIKE"
  | ilike => "ILIKE"
  | notIlike => "NOT ILIKE"
  | isIn => "IN"
  | notIn => "NOT IN"
  | is => "IS"
  | isNot => "IS NOT"

/-- The operators that a text may name besides their symbols. -/
def all : List Comparison :=
  [equal, notEqual, greater, greaterOrEqual, less, lessOrEqual, like, notLike, ilike, notIlike,
    isIn, notIn, is, isNot]

/-- The operator of a text, in any case and with any blanks between its words. -/
def parse (s : String) : Except Error Comparison :=
  let name := upper (join " " (words s))
  if name = "==" then .ok equal
  else if name = "!=" then .ok notEqual
  else match all.find? fun c => c.symbol == name with
    | some c => .ok c
    | none => .error (.invalidArgument ("Unsupported operator '" ++ s ++ "'"))

/-- The pattern match that a comparison with a wildcard stands for. -/
def asPattern : Comparison → Comparison
  | equal => like
  | notEqual => notLike
  | c => c

end Comparison

/-- The right side of a comparison. -/
inductive Operand where
  | null
  | value (v : Value)
  /-- A value that is compared as it is; a star in it is no wildcard. -/
  | exact (v : Value)
  /-- Values that are written into the text as a list of literals. -/
  | list (vs : List Value)
  /-- Another column. -/
  | column (name : String)
  /-- SQL text that is taken over as it is. -/
  | raw (sql : String)
  deriving Inhabited

namespace Operand

def ofValue : Value → Operand
  | .null => .null
  | v => .value v

end Operand

/-- A predicate, over a type of queries. -/
inductive Condition (Query : Type) where
  /-- A column compared with an operand; the operator is still text. -/
  | basic (column operator : String) (operand : Operand) (connective : Connective)
  /-- A column in a list of bound values. -/
  | isIn (column : String) (values : List Value) (negated : Bool) (connective : Connective)
  | between (column : String) (low high : Value) (negated : Bool) (connective : Connective)
  | group (children : List (Condition Query)) (connective : Connective)
  /-- A column compared with a nested query. -/
  | sub (column operator : String) (query : Query) (connective : Connective)
  | hasRows (query : Query) (negated : Bool) (connective : Connective)
  /-- SQL text whose question marks take the values in order. -/
  | raw (sql : String) (values : List Value) (connective : Connective)
  deriving Inhabited

namespace Condition

variable {Query : Type}

def compare (column operator : String) (operand : Operand) : Condition Query :=
  .basic column operator operand .and

def equals (column : String) (operand : Operand) : Condition Query :=
  compare column "=" operand

/-- Equality of a key column and a value, in which a star is no wildcard. -/
def key (column : String) (v : Value) : Condition Query :=
  equals column (match v with
    | .null => .null
    | v => .exact v)

def columns (first operator second : String) (connective : Connective) : Condition Query :=
  .basic first operator (.column second) connective

def rawText (sql : String) : Condition Query := .raw sql [] .and

def connective : Condition Query → Connective
  | .basic _ _ _ c => c
  | .isIn _ _ _ c => c
  | .between _ _ _ _ c => c
  | .group _ c => c
  | .sub _ _ _ c => c
  | .hasRows _ _ c => c
  | .raw _ _ c => c

def withConnective (c : Connective) : Condition Query → Condition Query
  | .basic column operator operand _ => .basic column operator operand c
  | .isIn column values negated _ => .isIn column values negated c
  | .between column low high negated _ => .between column low high negated c
  | .group children _ => .group children c
  | .sub column operator query _ => .sub column operator query c
  | .hasRows query negated _ => .hasRows query negated c
  | .raw sql values _ => .raw sql values c

@[simp] theorem connective_withConnective (c : Connective) (x : Condition Query) :
    (x.withConnective c).connective = c := by
  cases x <;> rfl

/-- Whether the column's name announces SQL text as the operand. -/
def isRawColumn (column : String) : Bool :=
  sameIgnoringAsciiCase column "raw" || sameIgnoringAsciiCase column "sql"

end Condition

end RowMapper
