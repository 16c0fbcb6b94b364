import RowMapper.Error

/-! # Lifecycle events

The points of a record's life at which observers are called, and the ways in
which an observer can fail. A failure that stops the propagation before an
operation vetoes it.
-/

namespace RowMapper

/-- The points of a record's life at which observers are called. -/
inductive Event where
  | saving
  | saved
  | creating
  | created
  | updating
  | updated
  | deleting
  | deleted
  | validating
  | validated
  | settingData
  | dataSet
  deriving DecidableEq, Repr

namespace Event

def isBefore : Event → Bool
  | saving | creating | updating | deleting | validating | settingData => true
  | _ => false

def all : List Event :=
  [saving, saved, creating, created, updating, updated, deleting, deleted, validating, validated,
    settingData, dataSet]

def verb : Event → String
  | saving => "saving"
  | saved => "saved"
  | creating => "creating"
  | created => "created"
  | updating => "updating"
  | updated => "updated"
  | deleting => "deleting"
  | deleted => "deleted"
  | validating => "validating"
  | validated => "validated"
  | settingData => "setting_data"
  | dataSet => "data_set"

def name : Event → String
  | saving => "before_save"
  | saved => "after_save"
  | creating => "before_insert"
  | created => "after_insert"
  | updating => "before_update"
  | updated => "after_update"
  | deleting => "before_delete"
  | deleted => "after_delete"
  | validating => "before_validate"
  | validated => "after_validate"
  | settingData => "before_set_data"
  | dataSet => "after_set_data"

end Event

inductive EventError where
  | validation (message : String) (hint : Option String)
  | database (message : String)
  | observer (message : String)
  | propagationStopped (reason : String)
  deriving DecidableEq, Repr

namespace EventError

def isVeto : EventError → Bool
  | propagationStopped _ => true
  | _ => false

def message : EventError → String
  | validation text hint =>
    "Validation error: " ++ text ++ (match hint with
      | some hint => " (hint: " ++ hint ++ ")"
      | none => "")
  | database text => "Database error: " ++ text
  | observer text => "Observer error: " ++ text
  | propagationStopped reason => "Event propagation stopped: " ++ reason

def ofError (e : Error) : EventError := .database e.message

def toError (e : EventError) : Error := .observer e.message

end EventError

end RowMapper
