import RowMapper.Schema.Basic

/-! # The schema registry

Each model's schema is put together once, when it is first asked for: the model's
own declaration, and after it the fields that donors gave to the model's name. A
field that the model declares itself stays the model's own.
-/

namespace RowMapper

structure DonorField where
  donor : String
  field : Field

/-- The schemas of all models, and the fields that donors gave. -/
structure SchemaRegistry where
  /-- The own declaration of the model at each place. -/
  declared : Nat → Schema
  /-- The schemas put together so far, by place. -/
  assembled : List (Nat × Schema) := []
  /-- The donors' fields by model name. -/
  extra : Entries (List DonorField) := []

namespace SchemaRegistry

def extraFields (r : SchemaRegistry) (model : String) : List DonorField :=
  (r.extra.get? model).getD []

/-- Add a donor's field, unless the schema has one of that name. -/
def addDonorField (s : Schema) (given : DonorField) : Schema :=
  if (s.field given.field.name).isSome then s else s.declare given.field

def assemble (r : SchemaRegistry) (s : Schema) : Schema :=
  (r.extraFields s.name).foldl addDonorField s

def assembled? (r : SchemaRegistry) (key : Nat) : Option Schema := r.assembled.lookup key

/-- The schema of the model at a place, put together if it was not yet. -/
def resolve (r : SchemaRegistry) (key : Nat) : Schema × SchemaRegistry :=
  match r.assembled? key with
  | some s => (s, r)
  | none =>
    let s := r.assemble (r.declared key)
    (s, { r with assembled := (key, s) :: r.assembled })

/-- Put a donor's field in its place, or at the end. -/
def putDonorField (given : List DonorField) (new : DonorField) : List DonorField :=
  if given.any fun old => old.field.name = new.field.name then
    given.map fun old => if old.field.name = new.field.name then { old with field := new.field } else old
  else given ++ [new]

/-- Give a field to a model. Its schema is put together anew afterwards; a field of that name
may only come from one donor. -/
def giveField (r : SchemaRegistry) (model donor : String) (field : Field) :
    Except Error SchemaRegistry :=
  let given := r.extraFields model
  match given.find? fun old => old.field.name = field.name with
  | some old =>
    if old.donor ≠ donor then .error (.donorConflict model field.name old.donor donor)
    else .ok (put given)
  | none => .ok (put given)
where
  put (given : List DonorField) : SchemaRegistry :=
    { r with
      extra := r.extra.put model (putDonorField given ⟨donor, field⟩)
      assembled := r.assembled.filter fun entry => entry.2.name ≠ model }

def clear (r : SchemaRegistry) : SchemaRegistry := { r with assembled := [], extra := [] }

theorem assembled?_resolve (r : SchemaRegistry) (key : Nat) :
    (r.resolve key).2.assembled? key = some (r.resolve key).1 := by
  unfold resolve
  split
  · assumption
  · simp [assembled?]

end SchemaRegistry

end RowMapper
