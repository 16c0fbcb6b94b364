import RowMapper.Proofs.Outcome
import RowMapper.Query.Basic

/-! # Conditions written as JSON

A list of comparisons, SQL texts and groups of these, to any depth, as an array of
tuples: a comparison is its column, operator, value and connective, and a group has
the array of its members in the place of the column. The reader takes an array for a
tuple, a list, a group or a list of values by its place and by its first member.
Whatever the columns and however the groups are nested, it takes each of these arrays
for what it was written for, so the list that is read is the one that was written.
-/

namespace RowMapper

namespace Value

/-- The values that JSON has too: null, booleans, integers of 64 bits and texts. -/
def isScalar : Value → Bool
  | .null | .bool _ | .int64 _ | .text _ => true
  | _ => false

theorem ofJson_toJson {v : Value} (h : v.isScalar = true) : ofJson v.toJson = v := by
  cases v with
  | null => rfl
  | bool b => rfl
  | text s => rfl
  | int64 n =>
    rw [toJson, ofJson, if_pos (Decimal.fitsInt64_toInt n), ofInt, Int64.ofInt_toInt]
  | _ => cases h

end Value

namespace Operand

/-- The operands that are written as JSON: null, a scalar, or a list of scalars. -/
def isWritten : Operand → Bool
  | .null => true
  | .value v => v.isScalar && !v.isNull
  | .list vs => vs.all Value.isScalar
  | _ => false

/-- The operand as JSON; those that are not written have no form of their own. -/
def toJson : Operand → Json
  | .value v => v.toJson
  | .list vs => .arr (vs.map Value.toJson)
  | _ => .null

end Operand

namespace Condition

variable {Query : Type} {word : Connective → String}

mutual
/-- The conditions that are written as JSON: comparisons with such operands of columns that announce
no SQL text, SQL texts without values, and groups of these. -/
def isWritten : Condition Query → Bool
  | .basic column _ operand _ => !isRawColumn column && operand.isWritten
  | .raw _ values _ => values.isEmpty
  | .group children _ => areWritten children
  | _ => false
def areWritten : List (Condition Query) → Bool
  | [] => true
  | c :: cs => isWritten c && areWritten cs
end

mutual
def toJson (word : Connective → String) : Condition Query → Json
  | .basic column operator operand c =>
    .arr [.str column, .str operator, operand.toJson, .str (word c)]
  | .raw sql _ c => .arr [.str "RAW", .str "=", .str sql, .str (word c)]
  | .group children c => .arr [.arr (listToJson word children), .null, .null, .str (word c)]
  | _ => .null
def listToJson (word : Connective → String) : List (Condition Query) → List Json
  | [] => []
  | c :: cs => toJson word c :: listToJson word cs
end

/-! ## Operands -/

theorem readMembers_toJson {vs : List Value} (h : vs.all Value.isScalar = true) :
    (vs.map Value.toJson).mapM readMember = .ok vs := by
  induction vs with
  | nil => rfl
  | cons v vs ih =>
    rw [List.all_cons, Bool.and_eq_true] at h
    have hv : readMember v.toJson = .ok v := by
      have hread : readMember v.toJson = .ok (Value.ofJson v.toJson) := by
        cases v <;> first | rfl | cases h.1
      rw [hread, Value.ofJson_toJson h.1]
    rw [List.map_cons, List.mapM_cons, hv, ih h.2]
    rfl

theorem readJsonOperand_toJson {operand : Operand} (h : operand.isWritten = true) :
    readJsonOperand operand.toJson = .ok operand := by
  cases operand with
  | null => rfl
  | value v =>
    rw [Operand.isWritten, Bool.and_eq_true] at h
    -- null is no value here: it is read as the operand null
    have hread : readJsonOperand v.toJson = .ok (.value (Value.ofJson v.toJson)) := by
      cases v <;> first | rfl | simp [Value.isScalar, Value.isNull] at h
    rw [Operand.toJson, hread, Value.ofJson_toJson h.1]
  | list vs =>
    rw [Operand.toJson, readJsonOperand, readMembers_toJson h]
    rfl
  | _ => cases h

/-! ## Conditions -/

/-- A written list starts with no text, so it is no tuple. -/
theorem isTuple_listToJson (cs : List (Condition Query)) :
    isTuple (listToJson word cs) = false := by
  rcases cs with _ | ⟨c, cs⟩
  · rfl
  · cases c <;> rfl

mutual
theorem readClause_toJson (hword : ∀ c, Connective.parse (word c) = c) :
    (c : Condition Query) → isWritten c = true → readClause (toJson word c) = .ok c
  | .basic column operator operand c, h => by
    rw [isWritten, Bool.and_eq_true, Bool.not_eq_true'] at h
    have hread : readClause (toJson word (.basic column operator operand c : Condition Query)) =
        (ofParts column operator operand.toJson (.parse (word c)) :
          Except Error (Condition Query)) := rfl
    rw [hread, hword]
    unfold ofParts
    rw [if_neg (by simp [h.1]), readJsonOperand_toJson h.2]
    rfl
  | .raw sql values c, h => by
    obtain rfl : values = [] := List.isEmpty_iff.1 h
    have hread : readClause (toJson word (.raw sql [] c : Condition Query)) =
        (.ok (.raw sql [] (.parse (word c))) : Except Error (Condition Query)) := rfl
    rw [hread, hword]
  | .group children c, h => by
    have hconnective : connectiveOfGroup [.null, .null, .str (word c)] = c := hword c
    rw [toJson, readClause]
    dsimp only
    rw [if_neg (by simp [isTuple_listToJson]), readClauses_listToJson hword children h,
      hconnective]
    rfl
  | .isIn .., h => by cases h
  | .between .., h => by cases h
  | .sub .., h => by cases h
  | .hasRows .., h => by cases h
theorem readClauses_listToJson (hword : ∀ c, Connective.parse (word c) = c) :
    (cs : List (Condition Query)) → areWritten cs = true →
      readClauses (listToJson word cs) = .ok cs
  | [], _ => rfl
  | c :: cs, h => by
    rw [areWritten, Bool.and_eq_true] at h
    rw [listToJson, readClauses, readClause_toJson hword c h.1,
      readClauses_listToJson hword cs h.2]
    rfl
end

/-- Conditions that are written as a JSON array are read back as they were: no column, operator,
operand or connective is changed, and neither order nor nesting is. -/
theorem ofJson_listToJson (hword : ∀ c, Connective.parse (word c) = c)
    {cs : List (Condition Query)} (h : areWritten cs = true) :
    ofJson (.arr (listToJson word cs)) = .ok cs := by
  rw [ofJson, if_neg (by simp [isTuple_listToJson])]
  exact readClauses_listToJson hword cs h

/-- Groups in the first place and without members, a column that looks like a tuple's, and a list of
values. -/
def nestedSample : List (Condition RowMapper.Query) :=
  [.group [.group [] .or, .basic "age >= 18" "=" .null .and] .or,
    .basic "status" "not in" (.list [.null, .text "OR", .int64 (-3), .bool true]) .or,
    .raw "a = b" [] .or, .basic "" "" (.value (.text "RAW")) .and]

theorem nestedSample_roundTrip : (∀ c, Connective.parse (Connective.keyword c) = c) ∧
    areWritten nestedSample = true ∧
      ofJson (.arr (listToJson Connective.keyword nestedSample)) = .ok nestedSample := by
  have hword (c : Connective) : Connective.parse c.keyword = c := by
    cases c <;> decide +kernel
  have hwritten : areWritten nestedSample = true := by decide +kernel
  exact ⟨hword, hwritten, ofJson_listToJson hword hwritten⟩

end Condition

end RowMapper
