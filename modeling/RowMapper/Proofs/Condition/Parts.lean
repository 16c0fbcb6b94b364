import RowMapper.Proofs.Outcome
import RowMapper.Query.Basic
import Mathlib.Data.List.Forall2

/-! # What is read of a condition expression

The texts, equalities and tuples that stand in clause position in an expression, each
with whether the reader looks at it. An array whose first member is an array or an
object is a group of that member alone: of what follows, the reader looks at the text
in the place of the connective and at nothing else. So clauses that follow the first
member of a group are lost, and these are the only ones.
-/

namespace RowMapper.Condition

variable {Query : Type}

/-- A part of an expression that stands for one condition. -/
inductive Part where
  | text (s : String)
  /-- A member of an object, which is an equality. -/
  | member (column : String) (j : Json)
  | tuple (column : String) (rest : List Json)

def Part.read : Part → Except Error (Condition Query)
  | text s => .ok (parseText s)
  | member column j => ofParts column "=" j .and
  | tuple column rest => ofTuple column rest

def Part.ReadsAs (part : Part) (c : Condition Query) : Prop := part.read = .ok c

def memberParts (seen : Bool) (members : List (String × Json)) : List (Bool × Part) :=
  members.map fun m => (seen, .member m.1 m.2)

/-- Parts of a member in the place of the connective: a text there is the connective. -/
def unlessText (j : Json) (parts : List (Bool × Part)) : List (Bool × Part) :=
  match j with
  | .str _ => []
  | _ => parts

mutual
/-- The parts of a clause, each with whether the reader looks at it. -/
def clauseParts (seen : Bool) : Json → List (Bool × Part)
  | .str s => [(seen, .text s)]
  | .obj members => memberParts seen members
  | .arr [] => []
  | .arr (first :: rest) => match first with
    | .str column => [(seen, .tuple column rest)]
    | .arr items =>
      (if isTuple items then clauseParts seen (.arr items) else clausesParts seen items) ++
        tailParts rest
    | .obj members => memberParts seen members ++ tailParts rest
    | _ => []
  | _ => []
def clausesParts (seen : Bool) : List Json → List (Bool × Part)
  | [] => []
  | j :: js => clauseParts seen j ++ clausesParts seen js
/-- The parts of what follows the first member of a group. The connective stands alone after it, or
in the third place. -/
def tailParts : List Json → List (Bool × Part)
  | [] => []
  | [j] => unlessText j (clauseParts false j)
  | [i, j] => clauseParts false i ++ clauseParts false j
  | i :: j :: k :: rest =>
    clauseParts false i ++ clauseParts false j ++ unlessText k (clauseParts false k) ++
      clausesParts false rest
end

def expressionParts : Json → List (Bool × Part)
  | .str s => [(true, .text s)]
  | .obj members => memberParts true members
  | .arr items => if isTuple items then clauseParts true (.arr items) else clausesParts true items
  | _ => []

def seenOf (parts : List (Bool × Part)) : List Part :=
  (parts.filter fun part => part.1).map Prod.snd

def allParts (j : Json) : List Part := (expressionParts j).map Prod.snd

/-- The parts of an expression that the reader never looks at: those that follow the first member
of a group. -/
def lostParts (j : Json) : List Part :=
  ((expressionParts j).filter fun part => !part.1).map Prod.snd

mutual
/-- The conditions inside the groups of a condition. -/
def leaves : Condition Query → List (Condition Query)
  | .group children _ => allLeaves children
  | .basic column operator operand c => [.basic column operator operand c]
  | .isIn column values negated c => [.isIn column values negated c]
  | .between column low high negated c => [.between column low high negated c]
  | .sub column operator query c => [.sub column operator query c]
  | .hasRows query negated c => [.hasRows query negated c]
  | .raw sql values c => [.raw sql values c]
def allLeaves : List (Condition Query) → List (Condition Query)
  | [] => []
  | c :: cs => leaves c ++ allLeaves cs
end

/-! ## What the reader looks at -/

@[simp] theorem seenOf_append (a b : List (Bool × Part)) :
    seenOf (a ++ b) = seenOf a ++ seenOf b := by
  simp [seenOf]

@[simp] theorem seenOf_memberParts_false (members : List (String × Json)) :
    seenOf (memberParts false members) = [] := by
  simp [seenOf, memberParts, List.filter_map, Function.comp_def]

theorem seenOf_unlessText {j : Json} {parts : List (Bool × Part)} (h : seenOf parts = []) :
    seenOf (unlessText j parts) = [] := by
  cases j <;> first | exact h | rfl

mutual
/-- Below what the reader does not look at, it looks at nothing. -/
theorem seenOf_clauseParts_false : (j : Json) → seenOf (clauseParts false j) = []
  | .str _ => rfl
  | .obj members => seenOf_memberParts_false members
  | .arr [] => rfl
  | .arr (first :: rest) => match first with
    | .str _ => rfl
    | .arr items => by
      rw [clauseParts, seenOf_append, seenOf_tailParts rest, List.append_nil]
      split
      · exact seenOf_clauseParts_false (.arr items)
      · exact seenOf_clausesParts_false items
    | .obj members => by
      rw [clauseParts, seenOf_append, seenOf_tailParts rest, List.append_nil]
      exact seenOf_memberParts_false members
    | .null => rfl
    | .bool _ => rfl
    | .int _ => rfl
    | .float _ => rfl
  | .null => rfl
  | .bool _ => rfl
  | .int _ => rfl
  | .float _ => rfl
theorem seenOf_clausesParts_false : (js : List Json) → seenOf (clausesParts false js) = []
  | [] => rfl
  | j :: js => by
    rw [clausesParts, seenOf_append, seenOf_clauseParts_false j, seenOf_clausesParts_false js,
      List.append_nil]
/-- The reader looks at no part of what follows the first member of a group. -/
theorem seenOf_tailParts : (rest : List Json) → seenOf (tailParts rest) = []
  | [] => rfl
  | [j] => seenOf_unlessText (seenOf_clauseParts_false j)
  | [i, j] => by
    rw [tailParts, seenOf_append, seenOf_clauseParts_false i, seenOf_clauseParts_false j,
      List.append_nil]
  | i :: j :: k :: rest => by
    rw [tailParts, seenOf_append, seenOf_append, seenOf_append, seenOf_clauseParts_false i,
      seenOf_clauseParts_false j, seenOf_unlessText (seenOf_clauseParts_false k),
      seenOf_clausesParts_false rest]
    rfl
end

/-! ## Single conditions -/

theorem leaves_parseText (s : String) :
    leaves (parseText s : Condition Query) = [parseText s] := by
  unfold parseText
  split
  · rfl
  · split <;> rfl

theorem leaves_of_ofParts {column operator : String} {j : Json} {connective : Connective}
    {c : Condition Query} (h : ofParts column operator j connective = .ok c) : leaves c = [c] := by
  unfold ofParts at h
  split at h
  · cases h
    rfl
  · obtain ⟨operand, -, rfl⟩ := Outcome.map_eq_ok.1 h
    rfl

theorem leaves_of_ofTuple {column : String} {rest : List Json} {c : Condition Query}
    (h : ofTuple column rest = .ok c) : leaves c = [c] := by
  unfold ofTuple at h
  split at h
  · exact leaves_of_ofParts h
  · obtain ⟨operator, -, h⟩ := Outcome.bind_eq_ok.1 h
    exact leaves_of_ofParts h
  · obtain ⟨operator, -, h⟩ := Outcome.bind_eq_ok.1 h
    exact leaves_of_ofParts h
  · cases h

/-- A part stands for one condition, which is no group. -/
theorem leaves_of_readsAs {part : Part} {c : Condition Query} (h : part.ReadsAs c) :
    leaves c = [c] := by
  cases part with
  | text s =>
    cases h
    exact leaves_parseText s
  | member column j => exact leaves_of_ofParts h
  | tuple column rest => exact leaves_of_ofTuple h

theorem forall₂_leaves {part : Part} {c : Condition Query} (h : part.ReadsAs c) :
    List.Forall₂ Part.ReadsAs [part] (leaves c) := by
  rw [leaves_of_readsAs h]
  exact .cons h .nil

theorem seenOf_memberParts_true (members : List (String × Json)) :
    seenOf (memberParts true members) = members.map fun m => .member m.1 m.2 := by
  simp [seenOf, memberParts, List.filter_map, Function.comp_def]

theorem ofMembers_leaves {members : List (String × Json)} {cs : List (Condition Query)}
    (h : ofMembers members = .ok cs) :
    List.Forall₂ Part.ReadsAs (seenOf (memberParts true members)) (allLeaves cs) := by
  rw [seenOf_memberParts_true]
  induction members generalizing cs with
  | nil =>
    cases h
    exact .nil
  | cons m members ih =>
    obtain ⟨first, hfirst, h⟩ := Outcome.bind_eq_ok.1 h
    obtain ⟨others, hothers, h⟩ := Outcome.bind_eq_ok.1 h
    cases h
    have hpart : (Part.member m.1 m.2).ReadsAs first := hfirst
    exact List.rel_append (forall₂_leaves hpart) (ih hothers)

/-! ## Clauses -/

mutual
/-- The conditions of a clause are those of the parts that the reader looks at. -/
theorem readClause_leaves : (j : Json) → ∀ ⦃c : Condition Query⦄, readClause j = .ok c →
    List.Forall₂ Part.ReadsAs (seenOf (clauseParts true j)) (leaves c)
  | .str s => by
    intro c h
    exact forall₂_leaves (show (Part.text s).ReadsAs c from h)
  | .obj members => by
    intro c h
    obtain ⟨cs, hm, rfl⟩ := Outcome.map_eq_ok.1 h
    exact ofMembers_leaves hm
  | .arr [] => by
    intro c h
    cases h
  | .arr (first :: rest) => match first with
    | .str column => by
      intro c h
      exact forall₂_leaves (show (Part.tuple column rest).ReadsAs c from h)
    | .arr items => by
      intro c h
      rw [clauseParts, seenOf_append, seenOf_tailParts, List.append_nil]
      rw [readClause] at h
      dsimp only at h
      split at h
      · next ht =>
        obtain ⟨children, hchildren, h⟩ := Outcome.bind_eq_ok.1 h
        obtain ⟨child, hchild, rfl⟩ := Outcome.map_eq_ok.1 hchildren
        cases h
        rw [if_pos ht, leaves, allLeaves, allLeaves, List.append_nil]
        exact readClause_leaves (.arr items) hchild
      · next ht =>
        obtain ⟨children, hchildren, h⟩ := Outcome.bind_eq_ok.1 h
        cases h
        rw [if_neg ht, leaves]
        exact readClauses_leaves items hchildren
    | .obj members => by
      intro c h
      rw [clauseParts, seenOf_append, seenOf_tailParts, List.append_nil]
      obtain ⟨cs, hm, rfl⟩ := Outcome.map_eq_ok.1 h
      exact ofMembers_leaves hm
    | .null => by
      intro c h
      cases h
    | .bool _ => by
      intro c h
      cases h
    | .int _ => by
      intro c h
      cases h
    | .float _ => by
      intro c h
      cases h
  | .null => by
    intro c h
    cases h
  | .bool _ => by
    intro c h
    cases h
  | .int _ => by
    intro c h
    cases h
  | .float _ => by
    intro c h
    cases h
theorem readClauses_leaves : (js : List Json) → ∀ ⦃cs : List (Condition Query)⦄,
    readClauses js = .ok cs →
    List.Forall₂ Part.ReadsAs (seenOf (clausesParts true js)) (allLeaves cs)
  | [] => by
    intro cs h
    cases h
    exact .nil
  | j :: js => by
    intro cs h
    obtain ⟨first, hfirst, h⟩ := Outcome.bind_eq_ok.1 h
    obtain ⟨others, hothers, h⟩ := Outcome.bind_eq_ok.1 h
    cases h
    rw [clausesParts, seenOf_append, allLeaves]
    exact List.rel_append (readClause_leaves j hfirst) (readClauses_leaves js hothers)
end

/-- The conditions of an expression are those of the parts that the reader looks at. -/
theorem ofJson_leaves {j : Json} {cs : List (Condition Query)} (h : ofJson j = .ok cs) :
    List.Forall₂ Part.ReadsAs (seenOf (expressionParts j)) (allLeaves cs) := by
  have hone {c : Condition Query} : allLeaves [c] = leaves c := by
    rw [allLeaves, allLeaves, List.append_nil]
  cases j with
  | str s =>
    cases h
    rw [hone]
    exact forall₂_leaves (show (Part.text s).ReadsAs (parseText s) from rfl)
  | obj members => exact ofMembers_leaves h
  | arr items =>
    rw [expressionParts]
    rw [ofJson] at h
    split at h
    · next ht =>
      obtain ⟨c, hc, rfl⟩ := Outcome.map_eq_ok.1 h
      rw [if_pos ht, hone]
      exact readClause_leaves (.arr items) hc
    · next ht =>
      rw [if_neg ht]
      exact readClauses_leaves items h
  | null => cases h
  | bool b => cases h
  | int n => cases h
  | float x => cases h

/-! ## What is lost -/

def seenParts (j : Json) : List Part := seenOf (expressionParts j)

theorem length_allParts (j : Json) :
    (allParts j).length = (seenParts j).length + (lostParts j).length := by
  have hsplit (parts : List (Bool × Part)) : parts.length =
      (parts.filter fun part => part.1).length + (parts.filter fun part => !part.1).length := by
    induction parts with
    | nil => rfl
    | cons part parts ih => cases hp : part.1 <;> simp [hp, ih] <;> omega
  simpa [allParts, seenParts, seenOf, lostParts] using hsplit (expressionParts j)

theorem allParts_eq_seenParts {j : Json} (h : lostParts j = []) : allParts j = seenParts j := by
  rw [lostParts, List.map_eq_nil_iff, List.filter_eq_nil_iff] at h
  rw [allParts, seenParts, seenOf, List.filter_eq_self.2]
  intro part hpart
  simpa using h part hpart

/-- Arrays that follow the first member of a group hold no connective. -/
theorem connectiveOfGroup_arr {second : List Json} {more : List Json}
    (h : ∀ j ∈ more, ∃ items, j = .arr items) :
    connectiveOfGroup (.arr second :: more) = .and := by
  rcases more with _ | ⟨j, _ | ⟨k, more⟩⟩
  · rfl
  · rfl
  · obtain ⟨items, rfl⟩ := h k (by simp)
    rfl

/-- The conditions of an expression are those of all its parts just when no part follows the first
member of a group; a list of tuples among the clauses always has such parts, and becomes a group of
its first tuple. -/
theorem ofJson_complete_iff :
    (∀ (j : Json) (cs : List (Condition Query)), ofJson j = .ok cs →
      List.Forall₂ Part.ReadsAs (seenParts j) (allLeaves cs) ∧
        (List.Forall₂ Part.ReadsAs (allParts j) (allLeaves cs) ↔ lostParts j = [])) ∧
    (∀ first second more : List Json, isTuple first = true →
      (∀ j ∈ more, ∃ items, j = .arr items) →
      readClause (.arr (.arr first :: .arr second :: more)) =
        (readClause (.arr first)).map fun c : Condition Query => .group [c] .and) := by
  refine ⟨fun j cs h => ?_, fun first second more ht hmore => ?_⟩
  · have hseen : List.Forall₂ Part.ReadsAs (seenParts j) (allLeaves cs) := ofJson_leaves h
    refine ⟨hseen, ?_, ?_⟩
    · intro hall
      have hlength := length_allParts j
      rw [hall.length_eq, ← hseen.length_eq] at hlength
      exact List.length_eq_zero_iff.1 (by omega)
    · intro hlost
      rw [allParts_eq_seenParts hlost]
      exact hseen
  · rw [readClause]
    simp only [ht, if_true, connectiveOfGroup_arr hmore]
    cases readClause (.arr first) <;> rfl

/-- A clause list with a group in the documented form. -/
def groupSample : Json :=
  .arr [.arr [.str "status", .str "paid"],
    .arr [.arr [.arr [.str "total", .str ">", .int 100], .arr [.str "vip", .bool true]],
      .null, .null, .str "OR"]]

theorem groupSample_complete : (∃ cs : List (Condition RowMapper.Query),
    ofJson groupSample = .ok cs ∧ List.Forall₂ Part.ReadsAs (allParts groupSample) (allLeaves cs) ∧
      (allLeaves cs).length = 3) ∧
    readClause (.arr [.arr [.str "a", .int 1], .arr [.str "b", .int 2]]) =
      .ok (.group [.basic "a" "=" (.value (Value.ofInt 1)) .and] .and :
        Condition RowMapper.Query) := by
  obtain ⟨cs, hcs⟩ := Outcome.exists_of_isOk
    (x := (ofJson groupSample : Except Error (List (Condition RowMapper.Query)))) (by decide +kernel)
  have hall := ((ofJson_complete_iff.1 groupSample cs hcs).2).2 (by rfl)
  refine ⟨⟨cs, hcs, hall, by rw [← hall.length_eq]; rfl⟩, ?_⟩
  have hlist := (@ofJson_complete_iff RowMapper.Query).2 [.str "a", .int 1] [.str "b", .int 2] []
    (by decide +kernel) (by simp)
  rw [hlist]
  rfl

def tuplesSample : Json :=
  .arr [.arr [.arr [.str "a", .int 1], .arr [.str "b", .int 2]], .arr [.str "c", .int 3]]

theorem tuplesSample_not_complete : ∃ cs : List (Condition RowMapper.Query),
    ofJson tuplesSample = .ok cs ∧
      cs = [.group [.basic "a" "=" (.value (Value.ofInt 1)) .and] .and,
        .basic "c" "=" (.value (Value.ofInt 3)) .and] ∧
      ¬ List.Forall₂ Part.ReadsAs (allParts tuplesSample) (allLeaves cs) := by
  refine ⟨_, rfl, rfl, fun hall => ?_⟩
  exact absurd hall.length_eq (by decide +kernel)

end RowMapper.Condition
