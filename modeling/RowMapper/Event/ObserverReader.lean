import RowMapper.Event.Observer
import RowMapper.Record.Tagged

/-! # Observers as JSON

An observer is an object of its label and its hooks. A hook is a list of actions
that are done one after another until one fails; an action that changes nothing is
a failure with a kind and a message. Before a deletion there are no other ones.
-/

namespace RowMapper

def EventError.read (j : Json) : Except Error EventError := do
  let message := j["message"].textOr ""
  match j["kind"].textOr "" with
  | "validation" => return .validation message j["hint"].text?
  | "database" => return .database message
  | "observer" => return .observer message
  | "veto" => return .propagationStopped message
  | "from_query_failed" => return .ofError (.queryFailed (j["code"].textOr "") message)
  | _ => throw (Json.unexpected "a kind of failure" j["kind"])

namespace Observer

def inTurn : List (Reaction α Unit) → Reaction α Unit
  | [] => pure ()
  | first :: rest => do
    first
    inTurn rest

def readRecordAction (j : Json) : Except Error (Reaction Record Unit) := do
  if j["do"].textOr "" = "set" then
    return Edit.asReaction
      (Edit.assign (← j["field"].text) (← FieldValue.ofTagged [] j["value"]))
  else return throw (← EventError.read j)

/-- An action on the values of a bulk assignment: one less, one more, or a failure. -/
def readValuesAction (j : Json) :
    Except Error (Reaction (List (String × FieldValue Record)) Unit) := do
  match j["do"].textOr "" with
  | "remove" =>
    let name ← j["field"].text
    return modify fun values => Entries.erase values name
  | "put" =>
    let name ← j["field"].text
    let v ← FieldValue.ofTagged [] j["value"]
    return modify fun values => Entries.put values name v
  | _ => return throw (← EventError.read j)

def read (j : Json) : Except Error Observer := do
  let hooks := j["hooks"]
  let reactions ← (Event.all.filter Event.changesRecord).mapM fun e => do
    return (e, inTurn (← Json.each readRecordAction hooks[e.verb]))
  let refusals ← Json.each EventError.read hooks[Event.deleting.verb]
  let assigning := inTurn (← Json.each readValuesAction hooks[Event.settingData.verb])
  return {
    label := ← j["label"].text
    editing := fun e => (reactions.lookup e).getD (pure ())
    beforeDeletion := fun _ => (refusals.head?.map .error).getD (.ok ())
    beforeAssignment := fun _ => assigning }

end Observer

end RowMapper
