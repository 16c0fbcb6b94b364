/-! # Statement counts

How many statements a connection sent and how many of them failed.
-/

namespace RowMapper.Connection

structure Statistics where
  name : String
  statements : Nat
  failures : Nat
  deriving DecidableEq, Repr

/-- Failed statements as a percentage; no statements at all have no failures. -/
def errorRate (statements failures : Nat) : Float :=
  if statements = 0 then Float.ofNat 0
  else Float.ofNat failures / Float.ofNat statements * Float.ofNat 100

namespace Statistics

def errorRate (s : Statistics) : Float := Connection.errorRate s.statements s.failures

/-- What is left to a hundred percent. -/
def successRate (s : Statistics) : Float := Float.ofNat 100 - s.errorRate

/-- Whether more statements failed than the threshold allows. -/
def isConcerning (s : Statistics) (threshold : Float) : Bool := threshold < s.errorRate

end Statistics

structure Totals where
  connections : Nat
  statements : Nat
  failures : Nat
  deriving DecidableEq, Repr

namespace Totals

def ofList (list : List Statistics) : Totals :=
  { connections := list.length
    statements := list.foldl (fun n s => n + s.statements) 0
    failures := list.foldl (fun n s => n + s.failures) 0 }

def errorRate (t : Totals) : Float := Connection.errorRate t.statements t.failures

end Totals

end RowMapper.Connection
