import RowMapper.Query.Aggregate
import RowMapper.Session.Basic

/-! # Running queries

A query runs on the connection that it names. It is rendered afresh each time,
after the connection was opened and in the connection's dialect.
-/

namespace RowMapper

structure Walk where
  batches : List (List Row)
  outcome : Except Error Unit

namespace Action

variable {σ : Type}

def rows (d : Driver σ) (q : Query) : Action σ (List Row) := do
  let c ← connection d q.connectionName
  let statement ← check (Sql.Statement.ofQuery c.dialect q)
  fetchStatement d c statement

/-- Values under the keys that a query gives to its rows. -/
def keyed (q : Query) (f : Row → α) (rows : List Row) : Entries α :=
  Entries.ofPairs (rows.zipIdx.map fun (row, position) => (q.keyOf row position, f row))

def indexedRows (d : Driver σ) (q : Query) : Action σ (Entries Row) := do
  return keyed q id (← rows d q)

def firstRow (d : Driver σ) (q : Query) : Action σ (Option Row) := do
  return (← rows d (q.atMost 1)).head?

def requireRow (d : Driver σ) (q : Query) : Action σ Row := do
  match ← firstRow d q with
  | some row => return row
  | none => throw (.notFound ("No row matched the query on '" ++ q.baseAlias.getD "" ++ "'"))

def firstValue (row : Row) : Value := (Row.at? row 0).getD .null

def column (d : Driver σ) (q : Query) : Action σ (List Value) := do
  return (← rows d q).map firstValue

def indexedColumn (d : Driver σ) (q : Query) : Action σ (Entries Value) := do
  return keyed q firstValue (← rows d q)

def value (d : Driver σ) (q : Query) : Action σ (Option Value) := do
  return (← firstRow d q).bind fun row => Row.at? row 0

def computed (rows : List Row) : Option Value :=
  rows.head?.bind fun row => (Entries.get? row Aggregate.column).or (Row.at? row 0)

def hasRows (d : Driver σ) (q : Query) : Action σ Bool := do
  let c ← connection d q.connectionName
  let statement ← check (Sql.Statement.ofExistence c.dialect q)
  let rows ← fetchStatement d c statement
  return match computed rows with
    | some v => !v.isEmpty
    | none => false

/-- A function of a column over the rows of a query; null counts as no value. -/
def aggregate (d : Driver σ) (q : Query) (f : Aggregate) (column : String) :
    Action σ (Option Value) := do
  let c ← connection d q.connectionName
  let statement ← check (Sql.Statement.ofQuery c.dialect (q.aggregated c.dialect f column))
  let rows ← fetchStatement d c statement
  return (computed rows).filter fun v => !v.isNull

def countRows (d : Driver σ) (q : Query) (column : String) : Action σ Int := do
  return ((← aggregate d q .count column).bind Value.toInt?).getD 0

/-- Walk through the rows of a query from a page on. What to do after each batch is decided from
the batches so far. -/
def walkFrom (d : Driver σ) (q : Query) (size : Nat) (goOn : List (List Row) → Except Error Bool)
    (seen : List (List Row)) (page : Nat) : Action σ Walk := fun s =>
  match rows d (q.page page size) s with
  | .error e s => .ok ⟨seen, .error e⟩ s
  | .ok batch s =>
    if batch.isEmpty then .ok ⟨seen, .ok ()⟩ s
    else match goOn (seen ++ [batch]) with
      | .error e => .ok ⟨seen ++ [batch], .error e⟩ s
      | .ok false => .ok ⟨seen ++ [batch], .ok ()⟩ s
      | .ok true =>
        if h : size ≤ batch.length ∧ 0 < size ∧ page * size ≤ Query.maxSkipped.toNat then
          walkFrom d q size goOn (seen ++ [batch]) (page + 1) s
        else if batch.length < size then .ok ⟨seen ++ [batch], .ok ()⟩ s
        else .ok ⟨seen ++ [batch], .error (Query.pageOutOfRange (page + 1) size)⟩ s
termination_by Query.maxSkipped.toNat + 1 - page * size
decreasing_by
  have : page * size < (page + 1) * size := Nat.mul_lt_mul_of_pos_right (Nat.lt_succ_self _) h.2.1
  omega

def walk (d : Driver σ) (q : Query) (size : Int) (goOn : List (List Row) → Except Error Bool) :
    Action σ Walk :=
  if 0 < size then walkFrom d q size.toNat goOn [] 1
  else pure ⟨[], .error (.invalidArgument "Chunk size must be positive")⟩

end Action

end RowMapper
