import RowMapper.Proofs.Placeholder.Token
import RowMapper.Sql.Statement

/-! # What a query brings into its statement

Said of a query before it is rendered: which values it binds, which SQL text it
takes over from its caller, and whether its values are bound in the order in which
they will stand in the text. The last one can fail only among siblings, where all
AND clauses are written before the OR clauses and bound wherever they stand.
-/

namespace RowMapper.Sql

/-- Whether text from a place inside or outside quotes on closes its quotes, and has outside quotes
no colon and no question mark right before a name character. -/
def isTameFrom : Option Char → List Char → Bool
  | none, [] => true
  | some _, [] => false
  | some q, c :: cs => isTameFrom (if c = q then none else some q) cs
  | none, c :: cs =>
    c != ':' && !(c == '?' && (cs.head?.map isNameChar).getD false) &&
      isTameFrom (if isQuote c then some c else none) cs

/-- What a part of a query brings into the statement. -/
inductive Ingredient where
  /-- Values that are bound one after another. -/
  | values (count : Nat)
  /-- Text of the caller that is written as it is. -/
  | copied (text : String)
  /-- Text of the caller whose question marks become placeholders. -/
  | expanded (sql : String)
  deriving DecidableEq

namespace Ingredient

def bound : Ingredient → Nat
  | values count => count
  | copied _ => 0
  | expanded sql => questionMarks sql

/-- The question marks that text of the caller leaves in the statement. -/
def marks : Ingredient → Nat
  | values _ => 0
  | copied text => questionMarks text
  | expanded _ => 0

/-- Whether text of the caller can neither be taken for a placeholder nor hide one. -/
def isTame : Ingredient → Bool
  | values _ => true
  | copied text => isTameFrom none text.toList
  | expanded sql => isTameFrom none sql.toList

end Ingredient

def boundOf : List Ingredient → Nat
  | [] => 0
  | part :: parts => part.bound + boundOf parts

def marksOf : List Ingredient → Nat
  | [] => 0
  | part :: parts => part.marks + marksOf parts

def AllTame (parts : List Ingredient) : Prop := ∀ part ∈ parts, part.isTame = true

instance (parts : List Ingredient) : Decidable (AllTame parts) :=
  inferInstanceAs (Decidable (∀ part ∈ parts, part.isTame = true))

/-! ## Ingredients -/

/-- A column of a predicate is taken over when it is an expression. -/
def columnParts (column : String) : List Ingredient :=
  if isExpression (Text.trim column) then [.copied (Text.trim column)] else []

/-- Whether a selected, grouped or ordered column is an expression, apart from its alias. -/
def isSelectedExpression (column : String) : Bool :=
  (((splitAlias column).map Prod.fst).getD column).toList.any fun c =>
    c ∈ ['(', ')', ' ', '\'', '"', '\x60']

def selectedParts (column : String) : List Ingredient :=
  if isSelectedExpression column then [.copied (Text.trim column)] else []

/-- What a comparison brings in, unless its column announces SQL text. -/
def operandParts (column : String) : Operand → List Ingredient
  | .null => columnParts column
  | .list [] => []
  | .list _ => columnParts column
  | .column other => columnParts column ++ columnParts other
  | .raw sql => columnParts column ++ [.copied sql]
  | .value _ => columnParts column ++ [.values 1]
  | .exact _ => columnParts column ++ [.values 1]

def comparisonParts (column : String) (operand : Operand) : List Ingredient :=
  if Condition.isRawColumn column then [.copied (rawOperandText operand)]
  else operandParts column operand

def relationParts (r : RelationJoin) : List Ingredient :=
  columnParts (r.name ++ "." ++ r.foreignColumn) ++ columnParts r.localColumn

def ordersParts : List OrderItem → List Ingredient
  | [] => []
  | .column name _ :: rest => selectedParts name ++ ordersParts rest
  | .raw sql _ :: rest => .expanded sql :: ordersParts rest

mutual
def queryParts : Query → List Ingredient
  | ⟨columns, distinct, sources, joins, wheres, groups, havings, orders, limit, offset, unions,
      given, indexKey, relations, connection, error⟩ =>
    let query : Query := ⟨columns, distinct, sources, joins, wheres, groups, havings, orders,
      limit, offset, unions, given, indexKey, relations, connection, error⟩
    columnsParts columns ++ sourcesParts sources ++ joinsParts joins ++
      (neededRelations query).flatMap relationParts ++ conditionsParts wheres ++
      groups.flatMap selectedParts ++ conditionsParts havings ++ ordersParts orders ++
      unionsParts unions
def columnsParts : List (SelectItem Query) → List Ingredient
  | [] => []
  | .column text :: rest => selectedParts text ++ columnsParts rest
  | .raw sql _ :: rest => .expanded sql :: columnsParts rest
  | .sub query _ :: rest => queryParts query ++ columnsParts rest
def sourceParts : Source Query → List Ingredient
  | .table _ => []
  | .sub query _ => queryParts query
def sourcesParts : List (Source Query) → List Ingredient
  | [] => []
  | source :: rest => sourceParts source ++ sourcesParts rest
/-- What joins bring in; a cross join has no conditions. -/
def joinsParts : List (Join Query) → List Ingredient
  | [] => []
  | ⟨kind, target, conditions⟩ :: rest =>
    sourceParts target ++ (if kind = .cross then [] else conditionsParts conditions) ++
      joinsParts rest
def conditionParts : Condition Query → List Ingredient
  | .basic column _ operand _ => comparisonParts column operand
  | .isIn column values _ _ =>
    if values.isEmpty then [] else columnParts column ++ [.values values.length]
  | .between column _ _ _ _ => columnParts column ++ [.values 2]
  | .group children _ => conditionsParts children
  | .sub column _ query _ => columnParts column ++ queryParts query
  | .hasRows query _ _ => queryParts query
  | .raw sql _ _ => [.expanded sql]
def conditionsParts : List (Condition Query) → List Ingredient
  | [] => []
  | c :: cs => conditionParts c ++ conditionsParts cs
def unionsParts : List (Query × Bool) → List Ingredient
  | [] => []
  | (query, _) :: rest => queryParts query ++ unionsParts rest
end

/-! ## Order -/

/-- The number of values that the AND clauses among siblings bind. -/
def andBound : List (Condition Query) → Nat
  | [] => 0
  | c :: cs => (if c.connective = .and then boundOf (conditionParts c) else 0) + andBound cs

mutual
/-- Whether the values of a query are bound in the order of their placeholders. -/
def queryInOrder : Query → Bool
  | ⟨columns, _, sources, joins, wheres, _, havings, _, _, _, unions, _, _, _, _, _⟩ =>
    columnsInOrder columns && sourcesInOrder sources && joinsInOrder joins &&
      conditionsInOrder wheres && conditionsInOrder havings && unionsInOrder unions
def columnsInOrder : List (SelectItem Query) → Bool
  | [] => true
  | .column _ :: rest => columnsInOrder rest
  | .raw _ _ :: rest => columnsInOrder rest
  | .sub query _ :: rest => queryInOrder query && columnsInOrder rest
def sourceInOrder : Source Query → Bool
  | .table _ => true
  | .sub query _ => queryInOrder query
def sourcesInOrder : List (Source Query) → Bool
  | [] => true
  | source :: rest => sourceInOrder source && sourcesInOrder rest
def joinsInOrder : List (Join Query) → Bool
  | [] => true
  | ⟨kind, target, conditions⟩ :: rest =>
    sourceInOrder target && (kind == .cross || conditionsInOrder conditions) && joinsInOrder rest
def conditionInOrder : Condition Query → Bool
  | .basic _ _ _ _ => true
  | .isIn _ _ _ _ => true
  | .between _ _ _ _ _ => true
  | .group children _ => conditionsInOrder children
  | .sub _ _ query _ => queryInOrder query
  | .hasRows query _ _ => queryInOrder query
  | .raw _ _ _ => true
/-- Whether siblings bind their values in the order of their placeholders: the AND clauses are
written first, so no OR clause with values may stand before an AND clause with values. -/
def conditionsInOrder : List (Condition Query) → Bool
  | [] => true
  | c :: cs =>
    conditionInOrder c && conditionsInOrder cs &&
      (c.connective == .and || boundOf (conditionParts c) == 0 || andBound cs == 0)
def unionsInOrder : List (Query × Bool) → Bool
  | [] => true
  | (query, _) :: rest => queryInOrder query && unionsInOrder rest
end

/-! ## Parts of parts -/

@[simp] theorem boundOf_nil : boundOf [] = 0 := rfl

@[simp] theorem boundOf_cons (part : Ingredient) (parts : List Ingredient) :
    boundOf (part :: parts) = part.bound + boundOf parts := rfl

@[simp] theorem boundOf_append (a b : List Ingredient) :
    boundOf (a ++ b) = boundOf a + boundOf b := by
  induction a with
  | nil => simp
  | cons part a ih => rw [List.cons_append, boundOf_cons, boundOf_cons, ih, Nat.add_assoc]

@[simp] theorem marksOf_nil : marksOf [] = 0 := rfl

@[simp] theorem marksOf_cons (part : Ingredient) (parts : List Ingredient) :
    marksOf (part :: parts) = part.marks + marksOf parts := rfl

@[simp] theorem marksOf_append (a b : List Ingredient) :
    marksOf (a ++ b) = marksOf a + marksOf b := by
  induction a with
  | nil => simp
  | cons part a ih => rw [List.cons_append, marksOf_cons, marksOf_cons, ih, Nat.add_assoc]

theorem marksOf_eq_zero_iff (parts : List Ingredient) :
    marksOf parts = 0 ↔ ∀ part ∈ parts, part.marks = 0 := by
  induction parts with
  | nil => simp
  | cons part parts ih => rw [marksOf_cons, Nat.add_eq_zero_iff, ih, List.forall_mem_cons]

@[simp] theorem allTame_append {a b : List Ingredient} :
    AllTame (a ++ b) ↔ AllTame a ∧ AllTame b := by
  simp [AllTame, or_imp, forall_and]

@[simp] theorem allTame_cons {part : Ingredient} {parts : List Ingredient} :
    AllTame (part :: parts) ↔ part.isTame = true ∧ AllTame parts := by
  simp [AllTame]

end RowMapper.Sql
