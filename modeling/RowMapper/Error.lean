import RowMapper.Entries

/-! # Failures and validation messages

Every hard failure is an `Error`, named for its cause. Validation is soft: a
record collects messages, and a save that finds any reports that it did not
happen.
-/

namespace RowMapper

/-- The causes for which an operation fails. -/
inductive Error where
  /-- A connection is missing, incomplete or of an unknown kind. -/
  | configuration (text : String)
  /-- An argument is malformed. -/
  | invalidArgument (text : String)
  /-- The database refused a statement. -/
  | queryFailed (code message : String)
  /-- The model has no such relation. -/
  | relationNotFound (model relation : String)
  /-- Two donors provide the same field of one model. -/
  | donorConflict (model field first second : String)
  /-- A row that has to be there is not. -/
  | notFound (what : String)
  /-- The record was deleted. -/
  | voided (model : String)
  /-- An observer failed for a reason other than a veto. -/
  | observer (text : String)
  deriving DecidableEq, Repr, Inhabited

namespace Error

def kind : Error → String
  | configuration _ => "Configuration"
  | invalidArgument _ => "InvalidArgument"
  | queryFailed _ _ => "QueryFailed"
  | relationNotFound _ _ => "RelationNotFound"
  | donorConflict _ _ _ _ => "DonorConflict"
  | notFound _ => "NotFound"
  | voided _ => "Voided"
  | observer _ => "Observer"

def message : Error → String
  | configuration text => "Configuration error: " ++ text
  | invalidArgument text => "Invalid argument: " ++ text
  | queryFailed code text => "Query failed [" ++ code ++ "]: " ++ text
  | relationNotFound model relation =>
    "Relation '" ++ relation ++ "' is not declared on model '" ++ model ++ "'"
  | donorConflict model field first second =>
    "Field '" ++ field ++ "' on model '" ++ model ++ "' is provided by both '" ++ first ++
      "' and '" ++ second ++ "'"
  | notFound what => "Record not found in table '" ++ what ++ "'"
  | voided model => "Record of model '" ++ model ++ "' has been deleted"
  | observer text => "Observer failed: " ++ text

def driverCode? : Error → Option String
  | queryFailed code _ => some code
  | _ => none

end Error

/-- The messages of a validation by field, in the order in which the fields first failed. -/
abbrev ValidationErrors := Entries (List String)

namespace ValidationErrors

def add (errors : ValidationErrors) (field message : String) : ValidationErrors :=
  Entries.put errors field ((Entries.get? errors field).getD [] ++ [message])

def text (errors : ValidationErrors) : String :=
  "; ".intercalate (errors.flatMap fun (field, messages) => messages.map fun m => field ++ ": " ++ m)

theorem add_ne_nil (errors : ValidationErrors) (field message : String) :
    errors.add field message ≠ [] := by
  intro h
  have : Entries.get? (errors.add field message) field = none := by rw [h]; rfl
  simp [add] at this

end ValidationErrors

end RowMapper
