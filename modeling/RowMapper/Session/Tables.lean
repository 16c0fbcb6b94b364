import RowMapper.Session.Basic

/-! # Writing to tables

Inserts, updates, deletes and changes of tables over an open connection. A
statement that would write nothing is not sent.
-/

namespace RowMapper.Action

variable {σ : Type}

/-- Insert rows, and tell the key that the database gave to the first one if it tells it. -/
def insert (d : Driver σ) (c : Connection) (table : String) (rows : List (Entries Value))
    (options : Sql.InsertOptions) : Action σ (Option Value) := do
  match ← check (Sql.insertion c.dialect table rows options) with
  | none => return none
  | some statement => match options.returning.filter fun _ => c.dialect.returnsKeys with
    | some column =>
      let rows ← fetchStatement d c statement
      return (rows.head?.bind (Entries.get? · column)).filter fun v => !v.isNull
    | none =>
      let outcome ← executeStatement d c statement
      return outcome.insertedKey

def affected (d : Driver σ) (c : Connection) (statement : Option Sql.Statement) :
    Action σ Nat := do
  match statement with
  | none => return 0
  | some statement =>
    let outcome ← executeStatement d c statement
    return outcome.affected

def update (d : Driver σ) (c : Connection) (table : String) (values : Entries Value)
    (conditions : List (Condition Query)) (writeNulls : Bool) : Action σ Nat := do
  affected d c (← check (Sql.update c.dialect table values conditions writeNulls))

def delete (d : Driver σ) (c : Connection) (table : String)
    (conditions : List (Condition Query)) : Action σ Nat := do
  affected d c (some (← check (Sql.deletion c.dialect table conditions)))

/-- Change numbers in place and tell whether there was a row. -/
def adjust (d : Driver σ) (c : Connection) (a : Sql.Adjustment) (table : String)
    (deltas : Entries Value) (conditions : List (Condition Query)) : Action σ Bool := do
  let rows ← affected d c (← check (Sql.adjustment c.dialect a table deltas conditions))
  return 0 < rows

def isMissingTable (d : Dialect) : Error → Bool
  | .queryFailed code message => d.isMissingTable code message
  | _ => false

def hasTable (d : Driver σ) (c : Connection) (table : String) : Action σ Bool := do
  match ← attempt (fetch d c (Sql.tableProbe c.dialect table) []) with
  | .ok _ => return true
  | .error e => if isMissingTable c.dialect e then return false else throw e

def createTable (d : Driver σ) (c : Connection) (table : String) (definitions : List String) :
    Action σ Unit := do
  let _ ← execute d c (← check (Sql.tableCreation c.dialect table definitions)) []

def addColumn (d : Driver σ) (c : Connection) (table column definition : String) :
    Action σ Unit := do
  let _ ← execute d c (← check (Sql.columnAddition c.dialect table column definition)) []

def changeColumn (d : Driver σ) (c : Connection) (table column definition : String) :
    Action σ Unit := do
  let _ ← execute d c (← check (Sql.columnChange c.dialect table column definition)) []

end RowMapper.Action
