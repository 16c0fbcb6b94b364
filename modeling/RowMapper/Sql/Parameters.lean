import RowMapper.Sql.Placeholder

/-! # Parameters of a statement

While SQL text is produced, each value in it is bound under a fresh name and
filed under the clause that is being rendered. Values given beforehand for the
raw fragments of a clause wait in a queue until the fragments take them. A nested
query files its values under the clause of the outermost query, where its text
stands.
-/

namespace RowMapper.Sql

open Text

/-- The clauses that values are filed under. -/
inductive Category where
  | select
  | source
  | join
  | filter
  | having
  | order
  | union
  deriving DecidableEq, Repr

namespace Category

/-- The clauses in the order in which a statement has them. -/
def all : List Category := [select, source, join, filter, having, order, union]

def name : Category → String
  | select => "select"
  | source => "from"
  | join => "join"
  | filter => "where"
  | having => "having"
  | order => "order"
  | union => "union"

def parse (s : String) : Except Error Category :=
  match all.find? fun c => sameIgnoringAsciiCase c.name (trim s) with
  | some c => .ok c
  | none => .error (.invalidArgument ("Unknown binding category '" ++ s ++ "'"))

theorem mem_all (c : Category) : c ∈ all := by cases c <;> decide

end Category

/-- Values filed under clauses, in the order in which they came. -/
abbrev Bindings := List (Category × Value)

namespace Bindings

def get (b : Bindings) (c : Category) : List Value :=
  (b.filter fun entry => entry.1 = c).map Prod.snd

def extend (b : Bindings) (c : Category) (values : List Value) : Bindings :=
  b ++ values.map fun v => (c, v)

def clear (b : Bindings) (c : Category) : Bindings :=
  b.filter fun entry => entry.1 ≠ c

def flatten (b : Bindings) : List Value :=
  Category.all.flatMap b.get

@[simp] theorem get_extend_self (b : Bindings) (c : Category) (values : List Value) :
    (b.extend c values).get c = b.get c ++ values := by
  simp [get, extend, List.filter_append, List.filter_map, Function.comp_def]

theorem get_extend_of_ne (b : Bindings) {c c' : Category} (values : List Value) (h : c ≠ c') :
    (b.extend c values).get c' = b.get c' := by
  simp [get, extend, List.filter_append, List.filter_map, Function.comp_def, h]

@[simp] theorem get_clear_self (b : Bindings) (c : Category) : (b.clear c).get c = [] := by
  simp [get, clear, List.filter_filter]

end Bindings

structure Parameter where
  name : String
  value : Value
  category : Category

/-- What is known of the parameters while a statement is rendered. Nested queries go on with the
same, so that no name is given out twice. -/
structure ParamSink where
  /-- The last number given out for each base name. -/
  counters : Entries Nat := []
  /-- The parameters bound so far. -/
  parameters : List Parameter := []
  /-- The clause that values are filed under. -/
  category : Category := .filter
  /-- How many clauses are open. -/
  depth : Nat := 0
  /-- Values that wait for the raw fragments of the innermost clause. -/
  pending : List Value := []

/-- What an open clause hides and its end brings back: where the clause around it files values, and
what waits there. -/
structure Frame where
  category : Category
  pending : List Value

/-- Rendering: a result or an error, and the parameters bound up to there in either case. -/
abbrev Render := EStateM Error ParamSink

namespace ParamSink

def named (s : ParamSink) : List (String × Value) :=
  s.parameters.map fun p => (p.name, p.value)

def bindings (s : ParamSink) : Bindings :=
  s.parameters.map fun p => (p.category, p.value)

def isUsed (s : ParamSink) (name : String) : Bool :=
  s.parameters.any fun p => p.name == name

/-- Open a clause; only the outermost one decides where values are filed. -/
def openClause (s : ParamSink) (c : Category) (given : List Value) : Frame × ParamSink :=
  (⟨s.category, s.pending⟩,
    { s with
      category := if s.depth = 0 then c else s.category
      depth := s.depth + 1
      pending := given })

def restore (s : ParamSink) (frame : Frame) : ParamSink :=
  { s with category := frame.category, depth := s.depth - 1, pending := frame.pending }

/-- Close a clause; values that no fragment took are an error. -/
def closeClause (frame : Frame) : Render Unit := fun s =>
  if s.pending.isEmpty then .ok () (s.restore frame)
  else .error (.invalidArgument
    (toString s.pending.length ++ " bound value(s) have no matching placeholder"))
    (s.restore frame)

/-- The part of a column name that a parameter's name starts with. -/
def baseName (column : String) : String :=
  let cs := ((lastPiece '.' column).toList.filter isNameChar).map Char.toLower
  match cs with
  | [] => "p"
  | c :: cs => String.ofList (if c.isDigit then 'p' :: c :: cs else c :: cs)

/-- The least number after `n` whose name is free; `fuel` bounds the search. -/
def freeNumber (s : ParamSink) (base : String) (n : Nat) : Nat → Nat
  | 0 => n + 1
  | fuel + 1 =>
    if s.isUsed (base ++ toString (n + 1)) then freeNumber s base (n + 1) fuel else n + 1

/-- The next free number of a base name; one more try than there are parameters is enough. -/
def nextNumber (s : ParamSink) (base : String) : Nat :=
  s.freeNumber base ((s.counters.get? base).getD 0) s.parameters.length

/-- Bind a value under a fresh name and give its placeholder. -/
def bind (column : String) (value : Value) : Render String := fun s =>
  let base := baseName column
  let number := s.nextNumber base
  let name := base ++ toString number
  .ok (":" ++ name)
    { s with
      counters := s.counters.put base number
      parameters := s.parameters ++ [⟨name, value, s.category⟩] }

/-- The next value for a mark of a raw fragment: its own first, then the waiting ones. -/
def nextValue (own : List Value) : Render (Option (Value × List Value)) := fun s =>
  match own, s.pending with
  | v :: own, _ => .ok (some (v, own)) s
  | [], v :: pending => .ok (some (v, [])) { s with pending := pending }
  | [], [] => .ok none s

/-- Replace the marks of a raw fragment from a place on, inside or outside quotes. -/
def expandFrom (sql : String) : Option Char → List Value → List Char → Render (List Char)
  | _, [], [] => pure []
  | _, v :: own, [] => throw (.invalidArgument ("Raw fragment '" ++ sql ++ "' received " ++
      toString (v :: own).length ++ " more value(s) than it has placeholders"))
  | some q, own, c :: cs => do
    let rest ← expandFrom sql (if c = q then none else some q) own cs
    return c :: rest
  | none, own, c :: cs => do
    if c = '?' then
      match ← nextValue own with
      | none => throw (.invalidArgument ("Raw fragment '" ++ sql ++
          "' has more placeholders than bound values"))
      | some (v, own) =>
        let placeholder ← bind "raw" v
        let rest ← expandFrom sql none own cs
        return placeholder.toList ++ rest
    else
      let rest ← expandFrom sql (if isQuote c then some c else none) own cs
      return c :: rest

def expandRaw (sql : String) (own : List Value) : Render String :=
  String.ofList <$> expandFrom sql none own sql.toList

end ParamSink

/-- Render inside a clause, with the values given beforehand for its raw fragments. -/
def inClause (c : Category) (given : List Value) (body : Render α) : Render α := do
  let s ← get
  let (frame, s) := s.openClause c given
  set s
  let result ← body
  ParamSink.closeClause frame
  return result

end RowMapper.Sql
