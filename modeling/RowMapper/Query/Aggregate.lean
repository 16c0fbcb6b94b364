import RowMapper.Query.Build
import RowMapper.Sql.Identifier

/-! # Aggregates

The query that computes one number over the rows of another query. Where repeated
rows are left out, queries are united or only a window of the rows counts, the rows
come from the whole query as a derived table.
-/

namespace RowMapper

inductive Aggregate where
  | count
  | min
  | max
  | sum
  | avg
  deriving DecidableEq, Repr

namespace Aggregate

def name : Aggregate → String
  | count => "COUNT"
  | min => "MIN"
  | max => "MAX"
  | sum => "SUM"
  | avg => "AVG"

def column : String := "aggregate"

def source : String := "aggregate_source"

def item (f : Aggregate) (target : String) : SelectItem Query :=
  .raw (f.name ++ "(" ++ target ++ ") AS " ++ column) []

/-- What the function is applied to: every row, or a quoted column. -/
def target (d : Dialect) (name : String) : String :=
  if name = "*" then "*" else Sql.quoteQualified d name

end Aggregate

namespace Query

/-- Whether the rows of the query differ from those that its conditions select. -/
def hasRowWindow (q : Query) : Bool :=
  !q.unions.isEmpty || q.limit.isSome || q.offset.isSome || q.distinct

def aggregated (q : Query) (d : Dialect) (f : Aggregate) (column : String) : Query :=
  let column := Text.trim column
  if q.hasRowWindow then
    { sources := [.sub q Aggregate.source]
      -- only the column's own name is known outside the derived table
      columns := [f.item (Aggregate.target d (Text.lastPiece '.' column))]
      connection := q.connection
      error := q.error }
  else
    { q with
      columns := [f.item (Aggregate.target d column)]
      orders := if q.groups.isEmpty then [] else q.orders }

end Query

end RowMapper
