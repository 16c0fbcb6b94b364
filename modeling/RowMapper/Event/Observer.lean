import RowMapper.Event.Basic
import RowMapper.Record.Edit

/-! # Observers

Observers are told of the points in the life of the records of one model, or of
every model. Before an operation they may change the record or refuse, but a
record that is deleted is only shown to them; after it they are only told.
-/

namespace RowMapper

/-- What an observer does with something that it may change; a failure keeps the changes. -/
abbrev Reaction (α : Type) := EStateM EventError α

structure Observer where
  label : String
  /-- What happens to the record before an operation that lets it be changed. -/
  editing : Event → Reaction Record Unit := fun _ => pure ()
  /-- What is said to the deletion of a record, which is only shown. -/
  beforeDeletion : Record → Except EventError Unit := fun _ => .ok ()
  /-- What happens to the values of a bulk assignment to a record. -/
  beforeAssignment : Record → Reaction (List (String × FieldValue Record)) Unit := fun _ => pure ()

/-- What happens to the record before an operation: nothing, when it is deleted. -/
def Observer.before (o : Observer) : Event → Reaction Record Unit
  | .deleting => fun r => match o.beforeDeletion r with
    | .ok _ => .ok () r
    | .error failure => .error failure r
  | e => o.editing e

def Edit.asReaction (edit : Edit Unit) : Reaction Record Unit := fun r =>
  match edit r with
  | .ok a r => .ok a r
  | .error e r => .error (.ofError e) r

abbrev Observers := Entries (List Observer)

namespace Observers

def everyModel : String := "*"

def register (observers : Observers) (model : String) (o : Observer) : Observers :=
  Entries.put observers model ((Entries.get? observers model).getD [] ++ [o])

/-- The observers of a model: those of every model, then its own, as they were registered. -/
def ofModel (observers : Observers) (model : String) : List Observer :=
  let own := if model = everyModel then [] else (Entries.get? observers model).getD []
  (Entries.get? observers everyModel).getD [] ++ own

end Observers

namespace Event

/-- Whether observers may change the record at this point. -/
def changesRecord : Event → Bool
  | saving | creating | updating | validating => true
  | _ => false

def asksAboutRecord (e : Event) : Bool := e.changesRecord || e = deleting

end Event

end RowMapper
