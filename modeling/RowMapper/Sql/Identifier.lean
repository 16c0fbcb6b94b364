import RowMapper.Dialect

/-! # Identifiers

Names are written bare when they are plain and not reserved, and between the
dialect's quotes otherwise. A qualified name is written segment by segment, and
`name AS alias` in both of its parts.
-/

namespace RowMapper.Sql

open Text

def reservedWords : List String :=
  ["ALL", "AND", "AS", "ASC", "BETWEEN", "BY", "CASE", "CHECK", "COLUMN", "CREATE", "CROSS",
    "DEFAULT", "DELETE", "DESC", "DISTINCT", "DROP", "ELSE", "END", "EXISTS", "FOR", "FROM",
    "FULL", "GROUP", "HAVING", "IN", "INDEX", "INNER", "INSERT", "INTO", "IS", "JOIN", "KEY",
    "LEFT", "LIKE", "LIMIT", "NOT", "NULL", "OFFSET", "ON", "OR", "ORDER", "OUTER", "PRIMARY",
    "REFERENCES", "RIGHT", "SELECT", "SET", "TABLE", "THEN", "TO", "UNION", "UNIQUE", "UPDATE",
    "USER", "USING", "VALUES", "WHEN", "WHERE"]

def isNameStart (c : Char) : Bool := c.isAlpha || c == '_'

def isNameChar (c : Char) : Bool := c.isAlphanum || c == '_'

def isNameChars : List Char → Bool
  | [] => false
  | c :: cs => isNameStart c && cs.all isNameChar

def isPlainIdentifier (name : String) : Bool :=
  isNameChars name.toList && !reservedWords.contains (upper name)

def doubled (quote : Char) (cs : List Char) : List Char :=
  cs.flatMap fun c => if c = quote then [c, c] else [c]

/-- Put text between quotes; quotes inside are written twice. -/
def quoteChars (quote : Char) (cs : List Char) : List Char :=
  quote :: doubled quote cs ++ [quote]

/-- Write one name, without looking for dots: the star and plain names that are not reserved as they
are, all else between quotes. -/
def quoteIdentifier (d : Dialect) (name : String) : String :=
  if name = "*" || isPlainIdentifier name then name
  else String.ofList (quoteChars d.identifierQuote name.toList)

/-- Where ` as ` first stands in the lower-cased text, in bytes. -/
def aliasOffset? (name : String) : Option Nat :=
  (breakPhrase " as ".toList (lower name).toList).map fun (before, _) => byteLength before

/-- The parts of `base AS alias`, trimmed. The offset in the lower-cased text cuts the text itself. -/
def splitAlias (name : String) : Option (String × String) := do
  let offset ← aliasOffset? name
  let (before, rest) ← cutAtByte offset name.toList
  let (_, after) ← cutAtByte 4 rest
  let base := trimChars before
  let asName := trimChars after
  if base.isEmpty || asName.isEmpty then none
  else some (String.ofList base, String.ofList asName)

def quoteSegments (d : Dialect) (name : String) : String :=
  join "." ((split '.' name).map (quoteIdentifier d))

/-- Write a qualified name; each further ` as ` in the base is one more alias. -/
def quoteQualifiedFrom (d : Dialect) : Nat → String → String
  | 0, name => quoteSegments d (trim name)
  | fuel + 1, name =>
    match splitAlias (trim name) with
    | some (base, asName) => quoteQualifiedFrom d fuel base ++ " AS " ++ quoteIdentifier d asName
    | none => quoteSegments d (trim name)

def quoteQualified (d : Dialect) (name : String) : String :=
  quoteQualifiedFrom d name.length name

def isDefinable (c : Char) : Bool := c.isAlphanum || c == '_' || c == '$'

def validateIdentifier (name : String) : Except Error Unit :=
  if name.isEmpty then .error (.invalidArgument "Identifier cannot be empty")
  else if 63 < name.utf8ByteSize then
    .error (.invalidArgument ("Identifier '" ++ name ++ "' is too long (max 63 characters)"))
  else match name.toList.find? fun c => !isDefinable c with
    | some c => .error (.invalidArgument
        ("Identifier '" ++ name ++ "' contains invalid character '" ++ c.toString ++ "'"))
    | none =>
      if (name.toList.head?.map Char.isDigit).getD false then
        .error (.invalidArgument ("Identifier '" ++ name ++ "' cannot start with a number"))
      else .ok ()

end RowMapper.Sql
