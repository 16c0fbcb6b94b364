import RowMapper.Config.Basic
import RowMapper.Connection.Statistics
import RowMapper.Value.Basic

/-! # Connections and drivers

A driver opens and closes physical connections and sends statements over them.
It is given as functions on a state of its own, so that all that follows holds of
any driver.
-/

namespace RowMapper

/-- What a statement without rows did. -/
structure Outcome where
  affected : Nat
  /-- The key of an inserted row, where the driver tells it. -/
  insertedKey : Option Value := none

structure Connection where
  /-- The number of the physical connection, counted from the first one opened. -/
  serial : Nat
  config : ConnectionConfig
  statistics : Connection.Statistics

namespace Connection

def name (c : Connection) : String := c.statistics.name

def dialect (c : Connection) : Dialect := c.config.adapter

/-- The connection after one more statement. -/
def counted (c : Connection) (failed : Bool) : Connection :=
  { c with statistics := { c.statistics with
      statements := c.statistics.statements + 1
      failures := c.statistics.failures + (if failed then 1 else 0) } }

end Connection

/-- A driver, over a state of the servers that it reaches. Connections are told apart by number. -/
structure Driver (σ : Type) where
  connect : Nat → ConnectionConfig → EStateM Error σ Unit
  close : Nat → ConnectionConfig → EStateM Error σ Unit
  /-- Send a statement for its rows. -/
  fetch : Nat → ConnectionConfig → String → List Value → EStateM Error σ (List Row)
  /-- Send a statement for its effect. -/
  execute : Nat → ConnectionConfig → String → List Value → EStateM Error σ Outcome

end RowMapper
