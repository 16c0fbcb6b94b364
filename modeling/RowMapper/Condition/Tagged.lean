import RowMapper.Condition.Basic
import RowMapper.Value.Tagged

/-! # Conditions with their kind, as JSON

A form of conditions for inspection: each is an array that starts with the name
of its kind. Nested queries are left out.
-/

namespace RowMapper

def Operand.toTagged : Operand → Json
  | .null => .null
  | .value v => .obj [("value", v.toTagged)]
  | .exact v => .obj [("exact", v.toTagged)]
  | .list vs => .obj [("list", Value.listToTagged vs)]
  | .column name => .obj [("col", .str name)]
  | .raw sql => .obj [("raw", .str sql)]

/-- Read an operand; a value with its kind is an operand as well. -/
def Operand.ofTagged (j : Json) : Except Error Operand :=
  match j with
  | .obj [("list", vs)] => .list <$> Value.listOfTagged vs
  | .obj [("exact", v)] => .exact <$> Value.ofTagged v
  | .obj [("col", name)] => .column <$> name.text
  | .obj [("raw", sql)] => .raw <$> sql.text
  | j => .ofValue <$> Value.ofTagged j

namespace Condition

variable {Query : Type}

/-- An array that starts with the name of a kind and ends with the connective. -/
def tagged (kind : String) (parts : List Json) (c : Connective) : Json :=
  .arr ([.str kind] ++ parts ++ [.str c.keyword])

mutual
def toTagged : Condition Query → Json
  | .basic column operator operand c =>
    tagged "basic" [.str column, .str operator, operand.toTagged] c
  | .isIn column values negated c =>
    tagged "in" [.str column, Value.listToTagged values, .bool negated] c
  | .between column low high negated c =>
    tagged "between" [.str column, low.toTagged, high.toTagged, .bool negated] c
  | .group children c => tagged "group" [.arr (listToTagged children)] c
  | .sub column operator _ c => tagged "sub" [.str column, .str operator] c
  | .hasRows _ negated c => tagged "exists" [.bool negated] c
  | .raw sql values c => tagged "raw" [.str sql, Value.listToTagged values] c
def listToTagged : List (Condition Query) → List Json
  | [] => []
  | c :: cs => toTagged c :: listToTagged cs
end

end Condition

end RowMapper
