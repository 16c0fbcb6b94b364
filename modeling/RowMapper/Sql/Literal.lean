import RowMapper.Sql.Identifier
import RowMapper.Value.Basic

/-! # Literals

Values that are written into the SQL text itself. A quote inside a text is
written twice, and in the MySQL dialect a backslash too.
-/

namespace RowMapper.Sql

def escapeChars (d : Dialect) (cs : List Char) : List Char :=
  match d with
  | .mysql => doubled '\'' (doubled '\\' cs)
  | .postgres | .sqlite => doubled '\'' cs

def textLiteral (d : Dialect) (s : String) : String :=
  String.ofList ('\'' :: escapeChars d s.toList ++ ['\''])

/-- A value as a literal; a number that is not finite becomes `NULL`. -/
def literal (d : Dialect) (v : Value) : String :=
  match v with
  | .null => "NULL"
  | .bool b => d.boolLiteral b
  | .int32 n => toString n.toInt
  | .int64 n => toString n.toInt
  | .float x => if Decimal.isFinite x then Decimal.plainText x else "NULL"
  | v => textLiteral d v.display

end RowMapper.Sql
