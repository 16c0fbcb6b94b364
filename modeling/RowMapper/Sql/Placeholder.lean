import RowMapper.Sql.Literal

/-! # Named placeholders

Compiled SQL names its parameters `:name`. Before a statement is sent each
placeholder becomes a positional mark of the dialect. Quoted text is copied
untouched, and `::` is a cast and no placeholder.
-/

namespace RowMapper.Sql

/-- Where a scan of SQL text stands: outside quotes, inside quotes, or in a placeholder's name. -/
inductive ScanMode where
  | plain
  | quoted (quote : Char)
  | name
  deriving DecidableEq, Repr

def isQuote (c : Char) : Bool := c == '\'' || c == '"' || c == '\x60'

/-- Replace placeholders by marks, counting them from `n`. -/
def positionalFrom (d : Dialect) : ScanMode → Nat → List Char → List Char × Nat
  | _, n, [] => ([], n)
  | .quoted q, n, c :: cs =>
    if c = q then
      match cs with
      | [] => ([c], n)
      | c' :: cs' =>
        if c' = q then
          let (out, m) := positionalFrom d (.quoted q) n cs'
          (c :: q :: out, m)
        else
          let (out, m) := positionalFrom d .plain n (c' :: cs')
          (c :: out, m)
    else
      let (out, m) := positionalFrom d (.quoted q) n cs
      (c :: out, m)
  | mode, n, c :: cs =>
    if mode = .name && isNameChar c then positionalFrom d .name n cs
    else if isQuote c then
      let (out, m) := positionalFrom d (.quoted c) n cs
      (c :: out, m)
    else if c = ':' then
      match cs with
      | [] => ([':'], n)
      | c' :: cs' =>
        if c' = ':' then
          let (out, m) := positionalFrom d .plain n cs'
          (':' :: ':' :: out, m)
        else if isNameStart c' then
          let (out, m) := positionalFrom d .name (n + 1) cs'
          ((d.mark n).toList ++ out, m)
        else
          let (out, m) := positionalFrom d .plain n (c' :: cs')
          (':' :: out, m)
    else
      let (out, m) := positionalFrom d .plain n cs
      (c :: out, m)

def toPositional (d : Dialect) (sql : String) : String × Nat :=
  let (out, n) := positionalFrom d .plain 0 sql.toList
  (String.ofList out, n)

/-- A statement takes exactly as many parameters as it has marks. -/
def checkParameterCount (sql : String) (expected given : Nat) : Except Error Unit :=
  if expected = given then .ok ()
  else .error (.invalidArgument ("statement has " ++ toString expected ++ " placeholders but " ++
    toString given ++ " parameters were bound: " ++ sql))

def positional (d : Dialect) (sql : String) (values : List Value) :
    Except Error (String × List Value) :=
  let (sql, count) := toPositional d sql
  (checkParameterCount sql count values.length).map fun _ => (sql, values)

end RowMapper.Sql
