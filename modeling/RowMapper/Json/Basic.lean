import RowMapper.Decimal.Shortest
import RowMapper.Entries

/-! # JSON values

Objects keep the order of their members. A number is an integer or a double;
the two kinds are never confused, so `1` and `1.0` differ.
-/

namespace RowMapper

/-- A JSON value whose objects are ordered. -/
inductive Json where
  | null
  | bool (b : Bool)
  | int (n : Int)
  | float (x : Float)
  | str (s : String)
  | arr (items : List Json)
  | obj (members : List (String × Json))
  deriving Inhabited

namespace Json

/-- The number value of a double; a double that is not finite has none and becomes `null`. -/
def ofFloat (x : Float) : Json :=
  if Decimal.isFinite x then .float x else .null

def get? (key : String) : Json → Option Json
  | .obj members => Entries.get? members key
  | _ => none

mutual
/-- Equality of values; the order of an object's members does not count. -/
def equal : Json → Json → Bool
  | .null, .null => true
  | .bool a, .bool b => a == b
  | .int a, .int b => a == b
  | .float a, .float b => a == b
  | .str a, .str b => a == b
  | .arr as, .arr bs => equalItems as bs
  | .obj as, .obj bs => as.length == bs.length && equalMembers as bs
  | _, _ => false
def equalItems : List Json → List Json → Bool
  | [], [] => true
  | a :: as, b :: bs => equal a b && equalItems as bs
  | _, _ => false
def equalMembers : List (String × Json) → List (String × Json) → Bool
  | [], _ => true
  | (key, a) :: as, bs =>
    (match Entries.get? bs key with
      | some b => equal a b
      | none => false) && equalMembers as bs
end

end Json

end RowMapper
