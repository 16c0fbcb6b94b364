import RowMapper.Sql.Statement

/-! # Statements that write

Inserts, updates, deletes and changes of tables. Nulls, booleans and the current
time stand in the text; all other values are bound.
-/

namespace RowMapper.Sql

open Text

def renderCell (d : Dialect) (column : String) (v : Value) : Render String :=
  match v with
  | .null => pure "NULL"
  | .bool b => pure (d.boolLiteral b)
  | .text s => if s = Value.now then pure d.currentTimestamp else ParamSink.bind column (.text s)
  | v => ParamSink.bind column v

/-! ## Inserts -/

structure InsertOptions where
  /-- Whether nulls are written and not left out. -/
  writeNulls : Bool := false
  /-- Whether rows that are there already are skipped. -/
  skipDuplicates : Bool := false
  /-- The columns that are overwritten in rows that are there already. -/
  overwrite : List String := []
  /-- The columns by which a row is there already. -/
  conflict : List String := []
  /-- The column whose given value is asked for. -/
  returning : Option String := none

/-- Whether a value is written, or left out for being null. -/
def isWritten (writeNulls : Bool) (v : Value) : Bool := writeNulls || !v.isNull

/-- The columns of an insert: those of its first row that are written, whatever the other rows have.
-/
def insertColumns (options : InsertOptions) (first : Entries Value) : List String :=
  (first.filter fun entry => isWritten options.writeNulls entry.2).map Prod.fst

/-- Write the values of a row for columns; a value that the row lacks is null. -/
def renderCells (d : Dialect) (row : Entries Value) : List String → Render (List String)
  | [] => pure []
  | column :: columns => do
    let cell ← renderCell d column ((row.get? column).getD .null)
    let cells ← renderCells d row columns
    return cell :: cells

def renderTuples (d : Dialect) (columns : List String) : List (Entries Value) → Render (List String)
  | [] => pure []
  | row :: rows => do
    let cells ← renderCells d row columns
    let tuples ← renderTuples d columns rows
    return ("(" ++ join ", " cells ++ ")") :: tuples

def conflictText (d : Dialect) (options : InsertOptions) : Except Error String :=
  let columns := options.overwrite.map (quoteIdentifier d)
  if columns.isEmpty then
    .ok (if options.skipDuplicates && d == .postgres then " ON CONFLICT DO NOTHING" else "")
  else if d = .mysql then
    .ok (" ON DUPLICATE KEY UPDATE " ++
      join ", " (columns.map fun column => column ++ " = VALUES(" ++ column ++ ")"))
  else
    let target := if options.conflict.isEmpty then options.returning.toList else options.conflict
    if target.isEmpty then
      .error (.invalidArgument "An upsert needs conflict columns on this backend")
    else .ok (" ON CONFLICT (" ++ join ", " (target.map (quoteIdentifier d)) ++
      ") DO UPDATE SET " ++
      join ", " (columns.map fun column => column ++ " = EXCLUDED." ++ column))

def returningText (d : Dialect) (options : InsertOptions) : String :=
  match options.returning with
  | some column => if d.returnsKeys then " RETURNING " ++ quoteIdentifier d column else ""
  | none => ""

/-- The values of an insert; a row without columns has its defaults. -/
def renderRows (d : Dialect) (columns : List String) (rows : List (Entries Value)) :
    Render String :=
  if columns.isEmpty then
    if 1 < rows.length then
      throw (.invalidArgument "Multi-row insert needs at least one non-null column")
    else pure (if d = .mysql then " () VALUES ()" else " DEFAULT VALUES")
  else do
    let tuples ← renderTuples d columns rows
    return " (" ++ join ", " (columns.map (quoteIdentifier d)) ++ ") VALUES " ++ join ", " tuples

/-- The statement that inserts rows; without rows there is none. -/
def insertion (d : Dialect) (table : String) (rows : List (Entries Value))
    (options : InsertOptions) : Except Error (Option Statement) :=
  match rows with
  | [] => .ok none
  | first :: others => some <$> Statement.ofRender (do
    let values ← renderRows d (insertColumns options first) (first :: others)
    match conflictText d options with
    | .error e => throw e
    | .ok conflict =>
      return "INSERT" ++ (if options.skipDuplicates then d.insertIgnoreWord else "") ++ " INTO " ++
        quoteQualified d table ++ values ++ conflict ++ returningText d options)

/-! ## Updates and deletes -/

def renderWhere (d : Dialect) (conditions : List (Condition Query)) : Render String := do
  let clauses ← renderConditions { dialect := d } conditions
  return afterKeyword " WHERE " (Clauses.text clauses)

def renderAssignments (d : Dialect) : Entries Value → Render (List String)
  | [] => pure []
  | (column, v) :: rest => do
    let cell ← renderCell d column v
    let others ← renderAssignments d rest
    return (quoteIdentifier d column ++ " = " ++ cell) :: others

def updateText (d : Dialect) (table : String) (assignments : List String) (condition : String) :
    String :=
  "UPDATE " ++ quoteQualified d table ++ " SET " ++ join ", " assignments ++ condition

/-- The statement that updates rows; if nothing is written there is none. -/
def update (d : Dialect) (table : String) (values : Entries Value)
    (conditions : List (Condition Query)) (writeNulls : Bool) : Except Error (Option Statement) :=
  let written := values.filter fun entry => isWritten writeNulls entry.2
  if written.isEmpty then .ok none
  else some <$> Statement.ofRender (do
    let assignments ← renderAssignments d written
    let condition ← renderWhere d conditions
    return updateText d table assignments condition)

def deletion (d : Dialect) (table : String) (conditions : List (Condition Query)) :
    Except Error Statement :=
  Statement.ofRender (do
    let condition ← renderWhere d conditions
    return "DELETE FROM " ++ quoteQualified d table ++ condition)

inductive Adjustment where
  | increase
  | decrease
  deriving DecidableEq, Repr

def Adjustment.sign : Adjustment → String
  | increase => "+"
  | decrease => "-"

/-- Write changes of columns, which must be by numbers. -/
def renderAdjustments (d : Dialect) (a : Adjustment) : Entries Value → Render (List String)
  | [] => pure []
  | (column, v) :: rest =>
    if v.isNumeric then do
      let quoted := quoteIdentifier d column
      let placeholder ← ParamSink.bind column v
      let others ← renderAdjustments d a rest
      return (quoted ++ " = " ++ quoted ++ " " ++ a.sign ++ " " ++ placeholder) :: others
    else throw (.invalidArgument ("Cannot adjust column '" ++ column ++
      "' by non-numeric value " ++ v.display))

/-- The statement that changes numbers in place; without changes there is none. -/
def adjustment (d : Dialect) (a : Adjustment) (table : String) (deltas : Entries Value)
    (conditions : List (Condition Query)) : Except Error (Option Statement) :=
  if deltas.isEmpty then .ok none
  else some <$> Statement.ofRender (do
    let assignments ← renderAdjustments d a deltas
    let condition ← renderWhere d conditions
    return updateText d table assignments condition)

/-! ## Tables -/

/-- The statement that finds out whether a table is there. -/
def tableProbe (d : Dialect) (table : String) : String :=
  "SELECT 1 FROM " ++ quoteQualified d table ++ " LIMIT 1"

def tableCreation (d : Dialect) (table : String) (definitions : List String) :
    Except Error String :=
  (validateIdentifier table).map fun _ =>
    "CREATE TABLE IF NOT EXISTS " ++ quoteIdentifier d table ++ " (" ++ join ", " definitions ++ ")"

def columnAddition (d : Dialect) (table column definition : String) : Except Error String :=
  (validateIdentifier column).map fun _ =>
    "ALTER TABLE " ++ quoteQualified d table ++ " ADD COLUMN " ++ quoteIdentifier d column ++ " " ++
      definition

/-- The statement that changes the type of a column, where there is one. -/
def columnChange (d : Dialect) (table column definition : String) : Except Error String := do
  validateIdentifier column
  let start := "ALTER TABLE " ++ quoteQualified d table
  match d with
  | .postgres =>
    return start ++ " ALTER COLUMN " ++ quoteIdentifier d column ++ " TYPE " ++ definition
  | .mysql => return start ++ " MODIFY COLUMN " ++ quoteIdentifier d column ++ " " ++ definition
  | .sqlite =>
    throw (.invalidArgument "SQLite does not support altering a column definition")

end RowMapper.Sql
