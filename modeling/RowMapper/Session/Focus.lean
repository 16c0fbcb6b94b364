import RowMapper.Session.Basic

/-! # Work on one record

A session together with the record that is worked on. When such work fails, both
are left as they were when it failed.
-/

namespace RowMapper

/-- A session and the record that is worked on. What is done to the one may depend on the other. -/
structure Focus (σ : Type) where
  session : Session σ
  record : Record

/-- Work on one record: a result or an error, and session and record in either case. -/
abbrev RecordAction (σ : Type) := EStateM Error (Focus σ)

namespace RecordAction

variable {σ : Type}

def record : RecordAction σ Record := return (← get).record

def check (outcome : Except Error α) : RecordAction σ α := fun f =>
  match outcome with
  | .ok a => .ok a f
  | .error e => .error e f

def inSession (action : Action σ α) : RecordAction σ α := fun f =>
  match action f.session with
  | .ok a session => .ok a { f with session }
  | .error e session => .error e { f with session }

def edit (e : Edit α) : RecordAction σ α := fun f =>
  match e f.record with
  | .ok a record => .ok a { f with record }
  | .error e record => .error e { f with record }

def change (f : Record → Record) : RecordAction σ Unit :=
  modify fun s => { s with record := f s.record }

def on (action : RecordAction σ α) (r : Record) : Action σ (Except Error α × Record) := fun s =>
  match action { session := s, record := r } with
  | .ok a f => .ok (.ok a, f.record) f.session
  | .error e f => .ok (.error e, f.record) f.session

end RecordAction

end RowMapper
