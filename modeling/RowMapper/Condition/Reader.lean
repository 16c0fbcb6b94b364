import RowMapper.Condition.Basic
import RowMapper.Sql.Identifier

/-! # Reading conditions

Conditions come as texts such as `age >= 18`, and as JSON: an object of
equalities, a tuple of column, operator, value and connective, and lists of
these, nested as groups.
-/

namespace RowMapper.Condition

open Text Decimal

variable {Query : Type}

def isColumnChar (c : Char) : Bool := Sql.isNameChar c || c == '.'

/-- Whether a text is a plain column name, possibly with dots. -/
def isPlainColumn (s : String) : Bool :=
  match s.toList with
  | [] => false
  | c :: cs => Sql.isNameStart c && cs.all isColumnChar

/-- Cut a comparison sign off the front, the longer one first. -/
def cutSign : List Char → Option (String × List Char)
  | '<' :: '=' :: cs => some ("<=", cs)
  | '>' :: '=' :: cs => some (">=", cs)
  | '<' :: '>' :: cs => some ("<>", cs)
  | '!' :: '=' :: cs => some ("!=", cs)
  | '=' :: cs => some ("=", cs)
  | '<' :: cs => some ("<", cs)
  | '>' :: cs => some (">", cs)
  | _ => none

/-- The column, sign and value of a comparison; the value is trimmed and has one line. -/
def splitComparison (cs : List Char) : Option (String × String × List Char) :=
  let cs := cs.dropWhile isBlank
  let column := cs.takeWhile isColumnChar
  if (column.head?.map Sql.isNameStart).getD false then
    match cutSign ((cs.dropWhile isColumnChar).dropWhile isBlank) with
    | none => none
    | some (sign, rest) =>
      let value := trimChars rest
      if value.contains '\n' then none else some (String.ofList column, sign, value)
  else none

def undouble (quote : Char) : List Char → List Char
  | c :: d :: cs => if c = quote ∧ d = quote then quote :: undouble quote cs else c :: undouble quote (d :: cs)
  | cs => cs

/-- The inside of a text between two equal quotes. -/
def unquote? (quote : Char) (cs : List Char) : Option (List Char) :=
  if 2 ≤ cs.length && cs.head? = some quote && cs.getLast? = some quote then
    some (undouble quote (cs.drop 1).dropLast)
  else none

/-- The operand of a trimmed text: null, a quoted text, a number, or the text itself. -/
def readOperand (cs : List Char) : Operand :=
  if sameIgnoringAsciiCase (String.ofList cs) "null" then .null
  else match unquote? '\'' cs with
    | some inner => .value (.text (String.ofList inner))
    | none => match unquote? '"' cs with
      | some inner => .value (.text (String.ofList inner))
      | none => match readInt64 cs with
        | some n => .value (Value.ofInt n)
        | none => match readFloat cs with
          | some x => .value (.float x)
          | none => .value (.text (String.ofList cs))

/-- Read a text such as `age >= 18`; a text that is no comparison is SQL. -/
def parseText (s : String) : Condition Query :=
  match splitComparison s.toList with
  | none => rawText s
  | some (column, sign, value) =>
    if isRawColumn column then rawText s else compare column sign (readOperand value)

def readMember : Json → Except Error Value
  | .arr items => .error (.invalidArgument
      ("IN list members must be scalars, got " ++ (Json.arr items).render))
  | .obj members => .error (.invalidArgument
      ("IN list members must be scalars, got " ++ (Json.obj members).render))
  | j => .ok (Value.ofJson j)

def readJsonOperand : Json → Except Error Operand
  | .null => .ok .null
  | .arr items => (items.mapM readMember).map .list
  | j => .ok (.value (Value.ofJson j))

def ofParts (column operator : String) (j : Json) (c : Connective) :
    Except Error (Condition Query) :=
  if isRawColumn column then
    .ok (.raw (match j with
      | .str s => s
      | j => j.render) [] c)
  else (readJsonOperand j).map fun operand => .basic column operator operand c

/-- Whether a list is one tuple: two to four members, the first of them a plain column name. -/
def isTuple (items : List Json) : Bool :=
  match items with
  | .str first :: _ => 2 ≤ items.length && items.length ≤ 4 && isPlainColumn first
  | _ => false

def readOperator : Json → Except Error String
  | .str s => .ok s
  | j => .error (.invalidArgument ("Condition operator must be a string, got " ++ j.render))

def readConnective : Option Json → Connective
  | some (.str s) => .parse s
  | _ => .and

/-- Read a tuple, whose first member is the column. -/
def ofTuple (column : String) (rest : List Json) : Except Error (Condition Query) :=
  match rest with
  | [j] => ofParts column "=" j .and
  | [operator, j] => do
    let operator ← readOperator operator
    ofParts column operator j .and
  | [operator, j, connective] => do
    let operator ← readOperator operator
    ofParts column operator j (readConnective (some connective))
  | rest => .error (.invalidArgument ("Condition tuple for '" ++ column ++
      "' must have 2 to 4 elements, got " ++ toString (rest.length + 1)))

/-- The member of a nested group that holds its connective. -/
def connectiveOfGroup (rest : List Json) : Connective :=
  match rest with
  | [j] => readConnective (some j)
  | rest => readConnective rest[2]?

/-- Read the members of an object as equalities. -/
def ofMembers : List (String × Json) → Except Error (List (Condition Query))
  | [] => .ok []
  | (column, j) :: rest => do
    let first ← ofParts column "=" j .and
    let others ← ofMembers rest
    return first :: others

def malformed (j : Json) : Error :=
  .invalidArgument ("Malformed condition clause: " ++ j.render)

mutual
def readClause : Json → Except Error (Condition Query)
  | .str s => .ok (parseText s)
  | .obj members => (ofMembers members).map fun cs => .group cs .and
  | .arr [] => .error (malformed (.arr []))
  | .arr (first :: rest) => match first with
    | .str column => ofTuple column rest
    | .arr items => do
      let children ← if isTuple items then (readClause (.arr items)).map fun c => [c]
        else readClauses items
      return .group children (connectiveOfGroup rest)
    | .obj members => (ofMembers members).map fun cs => .group cs (connectiveOfGroup rest)
    | first => .error (malformed (.arr (first :: rest)))
  | j => .error (malformed j)
def readClauses : List Json → Except Error (List (Condition Query))
  | [] => .ok []
  | j :: js => do
    let first ← readClause j
    let others ← readClauses js
    return first :: others
end

/-- Read an expression: a text, an object, a tuple, or a list of clauses. -/
def ofJson : Json → Except Error (List (Condition Query))
  | .str s => .ok [parseText s]
  | .obj members => ofMembers members
  | .arr items =>
    if isTuple items then (readClause (.arr items)).map fun c => [c] else readClauses items
  | j => .error (.invalidArgument ("Unsupported condition expression: " ++ j.render))

end RowMapper.Condition
