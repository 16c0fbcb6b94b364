import RowMapper.Schema.Basic
import RowMapper.Value.Tagged

/-! # Models declared as JSON

A model is an object of its name, its table and a list of declarations, each an
array that starts with the name of its kind. Relations name the models that they
lead to, in any order and also in circles.
-/

namespace RowMapper

namespace Schema

/-- The models that relations may lead to; before they are known, any name will do. -/
abbrev Known := Option (List ModelRef)

def readTarget (known : Known) (j : Json) : Except Error ModelRef := do
  let name ← j.text
  match known with
  | none => return { key := 0, name, table := "", primaryKey := "" }
  | some refs => match refs.find? fun r => r.name = name with
    | some r => return r
    | none => throw (Json.unexpected "the name of a model" j)

/-- The kind of a relation by its name, such as `has_many`. -/
def readKind (j : Json) : Except Error RelationKind := do
  match RelationKind.all.find? fun k => Text.lowerAscii k.name = j.textOr "" with
  | some kind => return kind
  | none => throw (Json.unexpected "a kind of relation" j)

def readRelation (known : Known) (kind target : Json) : Except Error Relation := do
  return { kind := ← readKind kind, target := ← readTarget known target }

def readType (j : Json) : Except Error SqlType := do SqlType.parse (← j.text)

/-- A field as an object: a column with a type, or a relation with its keys. -/
def readField (known : Known) (j : Json) : Except Error Field := do
  let name ← j["name"].text
  let field : Field ← if j.has "rel" then do
      let r ← readRelation known j["rel"] j["target"]
      pure (.ofRelation name { r with
        foreignKey := j["foreign_key"].text?
        localKey := j["local_key"].text?
        junctionTable := j["junction"].text?
        namesLinks := !j["plain"].isTrue })
    else do pure { name, type := ← readType j["type"] }
  let default ← if j.has "default" then some <$> Value.ofTagged j["default"] else pure none
  return { field with nullable := !j["required"].isTrue, guarded := j["protected"].isTrue, default }

/-- The texts of fields with a separator between them; a missing value has an empty text. -/
def joinFields (separator : String) (fields : List String) (values : Values) : Value :=
  .text (Text.join separator (fields.map fun f => ((values f).map Value.display).getD ""))

def limitLength (field : String) (limit : Nat) (message : String) (values : Values)
    (errors : ValidationErrors) : ValidationErrors :=
  match values field with
  | some (.text s) => if limit < s.length then errors.add field message else errors
  | _ => errors

def readDeclaration (known : Known) (s : Schema) (j : Json) : Except Error Schema := do
  let name := j[1].text
  match j[0].textOr "" with
  | "primary_key" => return s.keyedBy (← name) (← readType j[2])
  | "connection" => return s.onConnection (← name)
  | "column" => return s.withColumn (← name) (← readType j[2])
  | "field" => return s.declare (← readField known j[1])
  | "concat" =>
    return s.withComputed (← name) (joinFields (← j[2].text) (← Json.each Json.text j[3]))
  | "constant" =>
    let v ← Value.ofTagged j[2]
    return s.withComputed (← name) fun _ => v
  | "max_chars" => return s.withValidator (limitLength (← name) (← j[2].toNat) (← j[3].text))
  | "always_invalid" =>
    let field ← name
    let message ← j[2].text
    return s.withValidator fun _ errors => errors.add field message
  | _ => return s.withRelation (← name) (← readRelation known j[0] j[2])

def readModel (known : Known) (j : Json) : Except Error Schema := do
  j["build"].items.foldlM (readDeclaration known) (Schema.new (← j["name"].text) (← j["table"].text))

def refs (schemas : List Schema) : List ModelRef :=
  schemas.zipIdx.map fun (s, key) => s.ref key

/-- Read models: first their names and tables, then all of their relations. -/
def readModels (j : Json) : Except Error (List Schema) := do
  let heads ← Json.each (readModel none) j
  Json.each (readModel (some (refs heads))) j

end Schema

end RowMapper
