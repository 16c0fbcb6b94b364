import RowMapper.Session.Links

/-! # Saving and deleting records

A save calls the observers, validates, writes what changed and links what was
assigned. An observer's veto or a failed validation ends it without an error.
-/

namespace RowMapper.RecordAction

variable {σ : Type}

/-! ## Observers -/

def note (o : Observer) (e : Event) : RecordAction σ Unit :=
  modify fun f => { f with session := { f.session with
    notices := f.session.notices ++ [⟨o.label, e⟩] } }

/-- Whether to go on after an observer's failure: a veto ends the operation, all else is an error. -/
def afterFailure (e : EventError) : RecordAction σ Bool :=
  if e.isVeto then pure false else throw e.toError

def askOne (e : Event) (o : Observer) : RecordAction σ Bool := do
  note o e
  let r ← record
  match o.before e r with
  | .ok _ r =>
    change fun _ => r
    return true
  | .error failure r =>
    change fun _ => r
    afterFailure failure

def askEach (e : Event) : List Observer → RecordAction σ Bool
  | [] => pure true
  | o :: rest => do
    if ← askOne e o then askEach e rest else return false

/-- Let the observers change the record before an operation, and tell whether to go on. -/
def before (e : Event) : RecordAction σ Bool := do
  let f ← get
  let observers := f.session.observers.ofModel f.record.model
  if e.asksAboutRecord || observers.isEmpty then askEach e observers
  else throw (.invalidArgument ("'" ++ e.name ++ "' is not a before hook with a record argument"))

def askAssignment : List Observer → List (String × FieldValue Record) →
    RecordAction σ (Option (List (String × FieldValue Record)))
  | [], values => pure (some values)
  | o :: rest, values => do
    note o .settingData
    let r ← record
    match o.beforeAssignment r values with
    | .ok _ values => askAssignment rest values
    | .error failure _ =>
      let _ ← afterFailure failure
      return none

/-- Tell the observers after an operation; what fails then is of no consequence. -/
def after (e : Event) : RecordAction σ Unit := do
  let f ← get
  if e.isBefore then return ()
  (f.session.observers.ofModel f.record.model).forM fun o => note o e

/-! ## Columns that are kept up -/

/-- Stamp a column, if the model has it; on insert only if it is empty. -/
def stamp (inserting : Bool) (column : String) (v : Value) (r : Record) : Record :=
  let empty := match r.value? column with
    | some present => present.isEmpty
    | none => true
  if r.schema.hasColumn column && (!inserting || empty) then r.storeCoerced column v else r

def stampOption (inserting : Bool) (column : String) (v : Option Value) (r : Record) : Record :=
  match v with
  | some v => stamp inserting column v r
  | none => r

def stampAll (now : Value) (user : Option Value) (inserting : Bool) (r : Record) : Record :=
  let r := if inserting then stampOption true "created_by" user (stamp true "created_at" now r)
    else r
  stampOption inserting "updated_by" user (stamp inserting "updated_at" now r)

/-- Stamp the record with the present time, in whole seconds, and the acting user. -/
def stampNow (inserting : Bool) : RecordAction σ Unit := do
  let s := (← get).session
  change (stampAll (.timestamp s.now.wholeSecond) s.user inserting)

/-! ## Operations -/

/-- Validate the record between its observers, and keep what was found. -/
def validate : RecordAction σ Bool := do
  if !(← before .validating) then return false
  let errors := (← record).validate
  change fun r => { r with errors }
  after .validated
  return errors.isEmpty

def insertRow (d : Driver σ) : RecordAction σ Bool := do
  stampNow true
  if !(← before .creating) then return false
  let r ← record
  let c ← inSession (Action.connectionOf d r.schema)
  let table ← inSession (Action.tableOf r.schema)
  match ← inSession (Action.insert d c table [r.data] { returning := some r.schema.primaryKey }) with
  | some key => change fun r => r.withKey key
  | none => pure ()
  after .created
  return true

/-- The key under which the row is stored: the one before a change of it. A key that was empty
before is no key of a row, and then the present one counts. -/
def storedKey (r : Record) : Value :=
  match ((r.initial? r.schema.primaryKey).bind FieldValue.toScalar?).filter (!·.isEmpty) with
  | some key => key
  | none => r.key?.getD .null

def updateColumns (d : Driver σ) : RecordAction σ Unit := do
  stampNow false
  let r ← record
  let key := storedKey r
  let c ← inSession (Action.connectionOf d r.schema)
  let table ← inSession (Action.tableOf r.schema)
  let _ ← inSession
    (Action.update d c table r.changedColumns [.key r.schema.primaryKey key] true)
  let _ ← inSession (Action.forgetRecord (.of r.model key))

/-- Update the row of the record; without changed columns nothing is sent. -/
def updateRow (d : Driver σ) : RecordAction σ Bool := do
  if !(← before .updating) then return false
  if !(← record).changedColumns.isEmpty then updateColumns d
  after .updated
  return true

def writeRow (d : Driver σ) : RecordAction σ Bool := do
  if (← record).isNew then insertRow d else updateRow d

/-- Save the record: its row first and then its links. The result tells whether it was saved; a veto
and a failed validation are no errors. Only of a new record a copy is put into the identity map. -/
def save (d : Driver σ) : RecordAction σ Bool := do
  check (← record).ensureLive
  if !(← before .saving) then return false
  if !(← validate) then return false
  let inserting := (← record).isNew
  if !(← writeRow d) then return false
  let _ ← saveLinks d
  after .saved
  change Record.clean
  if inserting then inSession (Action.rememberRecord (← record))
  return true

/-- Delete the record's row and void the record, also when there was no row any more. A new record
is left alone. -/
def delete (d : Driver σ) : RecordAction σ Bool := do
  let r ← record
  check r.ensureLive
  match r.key? with
  | none => return false
  | some key =>
    if !(← before .deleting) then return false
    let c ← inSession (Action.connectionOf d r.schema)
    let table ← inSession (Action.tableOf r.schema)
    let deleted ← inSession (Action.delete d c table [.key r.schema.primaryKey key])
    let _ ← inSession (Action.forgetRecord (.of r.model key))
    after .deleted
    change Record.void
    return 0 < deleted

/-- Assign to several fields between the observers of assignments. -/
def fill (values : List (String × FieldValue Record)) : RecordAction σ Bool := do
  let f ← get
  match ← askAssignment (f.session.observers.ofModel f.record.model) values with
  | none => return false
  | some values =>
    edit (Edit.assignAll values)
    after .dataSet
    return true

end RowMapper.RecordAction
