import RowMapper.Naming.Singular

/-! # Names by convention

Foreign keys and junction tables are named after the tables they join. Both
sides of a relation come to the same names.
-/

namespace RowMapper.Naming

open Text

/-- The table name without the prefix of its connection. -/
def stripPrefix (table start : String) : String :=
  if start.toList.isPrefixOf table.toList then String.ofList (table.toList.drop start.length)
  else table

/-- The foreign key that refers to a table: its singular in lower case, and its key. -/
def foreignKey (table primaryKey : String) : String :=
  lower (singular table) ++ "_" ++ primaryKey

/-- The junction table of two tables, whose names stand in order after the common prefix. -/
def junctionTable (first second start : String) : String :=
  let a := stripPrefix first start
  let b := stripPrefix second start
  if b < a then start ++ b ++ "_" ++ a else start ++ a ++ "_" ++ b

/-- The key columns of a junction table: the owner's, and the related one, set apart if equal. -/
def junctionKeys (ownerTable ownerKey relatedTable relatedKey : String) : String × String :=
  let owner := foreignKey ownerTable ownerKey
  let related := foreignKey relatedTable relatedKey
  if owner = related then (owner, "related_" ++ related) else (owner, related)

theorem junctionKeys_ne (ownerTable ownerKey relatedTable relatedKey : String) :
    (junctionKeys ownerTable ownerKey relatedTable relatedKey).1 ≠
      (junctionKeys ownerTable ownerKey relatedTable relatedKey).2 := by
  simp only [junctionKeys]
  split
  · next h =>
    intro he
    have := congrArg String.length he
    simp only [h, String.length_append] at this
    have hp : "related_".length = 8 := by decide
    omega
  · assumption

end RowMapper.Naming
