import RowMapper.Error
import RowMapper.Json.Printer

/-! # Access to JSON values

Members and items by key and place, where a missing one is null, and readers for
the plain kinds of values.
-/

namespace RowMapper

namespace Json

/-- The items of an array; any other value has none. -/
def items : Json → List Json
  | .arr js => js
  | _ => []

instance : GetElem Json String Json (fun _ _ => True) where
  getElem j key _ := (j.get? key).getD .null

instance : GetElem Json Nat Json (fun _ _ => True) where
  getElem j i _ := j.items.getD i .null

def has (j : Json) (key : String) : Bool := (j.get? key).isSome

def unexpected (kind : String) (j : Json) : Error :=
  .invalidArgument ("Expected " ++ kind ++ ", got " ++ j.render)

def text? : Json → Option String
  | .str s => some s
  | _ => none

def textOr (other : String) (j : Json) : String := j.text?.getD other

def text (j : Json) : Except Error String :=
  match j with
  | .str s => .ok s
  | j => .error (unexpected "a text" j)

def toInt (j : Json) : Except Error Int :=
  match j with
  | .int n => .ok n
  | j => .error (unexpected "an integer" j)

/-- The number of a value that has to be a natural one; a negative one counts as zero. -/
def toNat (j : Json) : Except Error Nat := Int.toNat <$> j.toInt

def isTrue : Json → Bool
  | .bool b => b
  | _ => false

def each (read : Json → Except Error α) (j : Json) : Except Error (List α) := j.items.mapM read

def pair (read : Json → Except Error α) (j : Json) : Except Error (String × α) := do
  return (← j[0].text, ← read j[1])

end Json

end RowMapper
