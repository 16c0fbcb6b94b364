import RowMapper.Proofs.Condition.Parts

/-! # Where an array of tuples and a connective is a group

Tuples in an array of their own, followed by a connective, are one group where a list
of clauses has them. The rule for the whole expression does not know this shape: there
the array of tuples is a clause and so is each member after it. A connective right
after the tuples becomes a condition, and the nulls before one are refused.
-/

namespace RowMapper.Condition

variable {Query : Type}

/-- A clause that starts with an array is the group of what the array is as an expression. -/
theorem readClause_group (items rest : List Json) :
    readClause (.arr (.arr items :: rest)) =
      (ofJson (.arr items)).map fun cs : List (Condition Query) =>
        .group cs (connectiveOfGroup rest) := by
  rw [readClause, ofJson]
  dsimp only
  split
  · cases readClause (.arr items) <;> rfl
  · cases readClauses items <;> rfl

theorem ofJson_single_group (items rest : List Json) :
    ofJson (.arr [.arr (.arr items :: rest)]) =
      (ofJson (.arr items)).map fun cs : List (Condition Query) =>
        [.group cs (connectiveOfGroup rest)] := by
  have hread : ofJson (.arr [.arr (.arr items :: rest)]) =
      (readClause (.arr (.arr items :: rest)) >>= fun c : Condition Query => pure [c]) := rfl
  rw [hread, readClause_group]
  cases ofJson (.arr items) <;> rfl

/-- As a clause, a list of tuples is a group of its first tuple. -/
theorem readClause_tuples {tuple tuples : List Json} (htuple : isTuple tuple = true)
    (htuples : ∀ j ∈ tuples, ∃ items, j = .arr items) :
    readClause (.arr (.arr tuple :: tuples)) =
      (readClause (.arr tuple)).map fun c : Condition Query => .group [c] .and := by
  have hconnective : connectiveOfGroup tuples = .and := by
    cases tuples with
    | nil => rfl
    | cons j more =>
      obtain ⟨second, rfl⟩ := htuples j List.mem_cons_self
      exact connectiveOfGroup_arr fun k hk => htuples k (List.mem_cons_of_mem _ hk)
  rw [readClause_group, hconnective, ofJson, if_pos htuple]
  cases readClause (.arr tuple) <;> rfl

/-- Tuples in an array of their own with a connective, right after them or after two nulls. In a
list of clauses both shapes are one group of what the tuples are, joined by that connective. As the
whole expression neither is: the first is a group of the first tuple and, apart from it, the
connective read as a condition; the second is refused. -/
theorem ofJson_groupShapes {tuple tuples : List Json} (htuple : isTuple tuple = true)
    (htuples : ∀ j ∈ tuples, ∃ items, j = .arr items) (word : String) :
    let T := .arr tuple :: tuples
    let short : List Json := [.arr T, .str word]
    let long : List Json := [.arr T, .null, .null, .str word]
    (∀ shape ∈ [short, long], ofJson (.arr [.arr shape]) =
      (ofJson (.arr T)).map fun cs : List (Condition Query) => [.group cs (.parse word)]) ∧
    (ofJson (.arr short) =
      (readClause (.arr tuple)).map fun c : Condition Query => [.group [c] .and, parseText word]) ∧
    ofJson (.arr long) = ((readClause (.arr tuple)).bind fun _ : Condition Query =>
      .error (malformed .null) : Except Error (List (Condition Query))) ∧
    ∀ shape ∈ [short, long], ∀ c : Condition Query, ofJson (.arr shape) ≠ .ok [c] := by
  intro T short long
  have hshort : ofJson (.arr short) = (readClause (.arr tuple)).map
      fun c : Condition Query => [.group [c] .and, parseText word] := by
    have hread : ofJson (.arr short) = (readClause (.arr T) >>= fun c : Condition Query =>
        pure [c, parseText word]) := rfl
    rw [hread, readClause_tuples htuple htuples]
    cases readClause (.arr tuple) <;> rfl
  have hlong : ofJson (.arr long) = ((readClause (.arr tuple)).bind fun _ : Condition Query =>
      .error (malformed .null) : Except Error (List (Condition Query))) := by
    have hread : ofJson (.arr long) = (readClause (.arr T) >>= fun _ : Condition Query =>
        .error (malformed .null) : Except Error (List (Condition Query))) := rfl
    rw [hread, readClause_tuples htuple htuples]
    cases readClause (.arr tuple) <;> rfl
  refine ⟨?_, hshort, hlong, ?_⟩
  · intro shape hshape
    rcases List.mem_pair.1 hshape with rfl | rfl <;> exact ofJson_single_group T _
  · intro shape hshape c
    rcases List.mem_pair.1 hshape with rfl | rfl
    · rw [hshort]
      cases readClause (.arr tuple) <;> rintro ⟨⟩
    · rw [hlong]
      cases readClause (.arr tuple) <;> rintro ⟨⟩

def shapeSample : List Json :=
  [.arr [.arr [.str "a", .int 1], .arr [.str "b", .int 2]], .str "OR"]

def shapeConditions : List (Condition RowMapper.Query) :=
  [.basic "a" "=" (.value (Value.ofInt 1)) .and, .basic "b" "=" (.value (Value.ofInt 2)) .and]

/-- In a list of clauses the sample is one group. -/
theorem shapeSample_group : isTuple [.str "a", .int 1] = true ∧
    ofJson (.arr [.arr shapeSample]) = .ok [.group shapeConditions .or] := by
  have htuple : isTuple [.str "a", .int 1] = true := by decide +kernel
  obtain ⟨hgroup, -⟩ := @ofJson_groupShapes RowMapper.Query _ [.arr [.str "b", .int 2]] htuple
    (by simp) "OR"
  refine ⟨htuple, (hgroup _ List.mem_cons_self).trans ?_⟩
  have hor : Connective.parse "OR" = .or := by decide +kernel
  rw [hor]
  rfl

/-- As the whole expression it is a group of the first tuple, and the word is taken for SQL. -/
theorem shapeSample_not_group :
    ofJson (.arr [.arr [.str "a", .int 1], .arr [.str "b", .int 2]]) = .ok shapeConditions ∧
    ofJson (.arr shapeSample) =
      .ok [.group [.basic "a" "=" (.value (Value.ofInt 1)) .and] .and,
        (.raw "OR" [] .and : Condition RowMapper.Query)] ∧
    (ofJson (.arr shapeSample) : Except Error (List (Condition RowMapper.Query))) ≠
      .ok [.group shapeConditions (Connective.parse "OR")] := by
  have hread : ofJson (.arr shapeSample) =
      .ok [.group [.basic "a" "=" (.value (Value.ofInt 1)) .and] .and,
        (.raw "OR" [] .and : Condition RowMapper.Query)] := by
    rfl
  refine ⟨rfl, hread, ?_⟩
  rw [hread]
  simp

end RowMapper.Condition
