import RowMapper.Record.Basic
import RowMapper.Value.Tagged

/-! # Records as JSON

Forms of records for inspection. A brief one has the model and the values; a full
one has the state of change and the relations too, with related records in brief.
-/

namespace RowMapper

namespace Record

def pairs (f : α → Json) (entries : List (String × α)) : Json :=
  .arr (entries.map fun (name, a) => .arr [.str name, f a])

/-- A value that may be missing, so that a missing one differs from null. -/
def present : Option Value → Json
  | some v => .obj [("some", v.toTagged)]
  | none => .null

def toBrief (r : Record) : Json :=
  .obj [("model", .str r.model), ("data", Row.toPairs r.data), ("extra", Row.toPairs r.extra)]

def toBriefs (rs : List Record) : Json := .arr (rs.map toBrief)

end Record

def FieldValue.toTagged : FieldValue Record → Json
  | .null => .null
  | .scalar v => .obj [("scalar", v.toTagged)]
  | .list vs => .obj [("list", Value.listToTagged vs)]
  | .related r => .obj [("rec", r.toBrief)]
  | .relatedList rs => .obj [("recs", Record.toBriefs rs)]
  | .raw sql => .obj [("raw", .str sql)]

/-- Read a field's value; related records are named, and a value with its kind will do as well. -/
def FieldValue.ofTagged (records : Entries Record) (j : Json) :
    Except Error (FieldValue Record) := do
  let record := fun name => do
    match Entries.get? records (← Json.text name) with
    | some r => pure r
    | none => throw (Json.unexpected "the name of a record" name)
  match j with
  | .obj [("list", vs)] => return .list (← Value.listOfTagged vs)
  | .obj [("raw", sql)] => return .raw (← sql.text)
  | .obj [("rec", name)] => return .related (← record name)
  | .obj [("recs", names)] => return .relatedList (← Json.each record names)
  | j => return .ofValue (← Value.ofTagged j)

def Related.toTagged : Related Record → Json
  | .one (some r) => .obj [("one", r.toBrief)]
  | .one none => .obj [("one", .null)]
  | .many rs => .obj [("many", Record.toBriefs rs)]

namespace Record

def toTagged (r : Record) : Json :=
  let relations := r.schema.relations.map Prod.fst
  .obj [("pk", present r.key?), ("new", .bool r.isNew), ("voided", .bool r.voided),
    ("data", Row.toPairs r.data), ("extra", Row.toPairs r.extra),
    ("dirty", pairs FieldValue.toTagged r.initial),
    ("changed", Row.toPairs r.changedColumns),
    ("loaded", .arr ((relations.filter fun name => (r.related? name).isSome).map .str)),
    ("pending", pairs Value.listToTagged (relations.filterMap fun name =>
      (r.pending.get? name).map fun keys => (name, keys))),
    ("errors", pairs (fun messages => .arr (messages.map .str)) r.errors)]

end Record

end RowMapper
