import RowMapper.Proofs.Condition.Formula
import RowMapper.Proofs.Render.Runs
import Mathlib.Data.List.Perm.Basic

/-! # The meaning of grouped conditions

Siblings hold when all those joined by AND do, or one of those joined by OR. Groups in
which nothing stands are left out, so each group that is left has a member. The text of
conditions is read back as a formula of this meaning over the texts of the conditions
that are no groups: by induction on the groups, each of them is read as an operand of the
one around it.
-/

namespace RowMapper.Sql

open Text Render

/-! ## Groups with members -/

mutual
/-- What is left of a condition: a number for one that is no group, or the members of a group. -/
inductive Grouping where
  | leaf (n : Nat)
  | group (members : Siblings)
/-- One or more conditions next to each other, each with its connective. -/
inductive Siblings where
  | one (c : Connective) (g : Grouping)
  | more (c : Connective) (g : Grouping) (rest : Siblings)
end

def Siblings.toList : Siblings → List (Connective × Grouping)
  | .one c g => [(c, g)]
  | .more c g rest => (c, g) :: rest.toList

section

variable {α β : Type}

mutual
/-- Work a value out from the inside: one of each leaf, and one of the members of a group. -/
def Grouping.fold (leaf : Nat → α) (join : List (Connective × α) → α) : Grouping → α
  | .leaf n => leaf n
  | .group members => join (members.fold leaf join)
def Siblings.fold (leaf : Nat → α) (join : List (Connective × α) → α) :
    Siblings → List (Connective × α)
  | .one c g => [(c, g.fold leaf join)]
  | .more c g rest => (c, g.fold leaf join) :: rest.fold leaf join
end

theorem Siblings.fold_eq (leaf : Nat → α) (join : List (Connective × α) → α) (ms : Siblings) :
    ms.fold leaf join = ms.toList.map fun m => (m.1, m.2.fold leaf join) := by
  induction ms using Siblings.toList.induct with
  | case1 c g => rfl
  | case2 c g rest ih => simp [fold, toList, ih]

theorem Siblings.toList_ne_nil (ms : Siblings) : ms.toList ≠ [] := by
  cases ms <;> simp [toList]

mutual
/-- What holds of leaves and of groups whose members it holds of, holds of every grouping. -/
theorem Grouping.ofMembers {P : Grouping → Prop} (leaf : ∀ n, P (.leaf n))
    (group : ∀ ms : Siblings, (∀ m ∈ ms.toList, P m.2) → P (.group ms)) : (g : Grouping) → P g
  | .leaf n => leaf n
  | .group ms => group ms (Siblings.ofMembers leaf group ms)
theorem Siblings.ofMembers {P : Grouping → Prop} (leaf : ∀ n, P (.leaf n))
    (group : ∀ ms : Siblings, (∀ m ∈ ms.toList, P m.2) → P (.group ms)) :
    (ms : Siblings) → ∀ m ∈ ms.toList, P m.2
  | .one c g => by
    simpa [Siblings.toList] using Grouping.ofMembers leaf group g
  | .more c g rest => by
    simpa [Siblings.toList] using
      And.intro (Grouping.ofMembers leaf group g) (Siblings.ofMembers leaf group rest)
end

def side (c : Connective) (ms : List (Connective × α)) : List α :=
  (ms.filter fun m => m.1 = c).map Prod.snd

theorem side_map (c : Connective) (f : α → β) (ms : List (Connective × α)) :
    side c (ms.map fun m => (m.1, f m.2)) = (side c ms).map f := by
  simp [side, List.filter_map, Function.comp_def]

/-- The siblings are those joined by AND and those joined by OR. -/
theorem sides_perm (ms : List (Connective × α)) :
    (side .and ms ++ side .or ms).Perm (ms.map Prod.snd) := by
  have hor : ∀ m : Connective × α, decide (m.1 = .or) = !decide (m.1 = .and) := by
    rintro ⟨c, a⟩
    cases c <;> rfl
  simp only [side, hor, ← List.map_append]
  exact (List.filter_append_perm _ _).map _

end

/-- Whether siblings hold: all those joined by AND, unless there are none, or one joined by OR. -/
def agreed (ms : List (Connective × Bool)) : Bool :=
  (!(side .and ms).isEmpty && (side .and ms).all id) || (side .or ms).any id

def Grouping.holds (v : Nat → Bool) (g : Grouping) : Bool := g.fold v agreed

def Grouping.leaves (g : Grouping) : List Nat := g.fold (fun n => [n]) (List.flatMap Prod.snd)

/-- What a grouping is written as, from the texts of its leaves. -/
def Grouping.text (texts : Nat → String) (g : Grouping) : String := g.fold texts Clauses.text

/-! ## Reading groups -/

/-- A text with the formula that it is to be read as. -/
structure Piece where
  text : String
  formula : Formula

namespace Piece

def parens (p : Piece) : String := "(" ++ p.text ++ ")"

def joined (c : Connective) (p : Piece) (ps : List Piece) : Piece where
  text := join (" " ++ c.keyword ++ " ") ((p :: ps).map parens)
  formula := match c with
    | .and => (ps.map formula).foldl .and p.formula
    | .or => (ps.map formula).foldl .or p.formula

/-- Siblings as one piece, from those joined by AND and those joined by OR. -/
def ofSides : List Piece → List Piece → Piece
  | [], [] => ⟨"", .atom 0⟩
  | p :: ps, [] => joined .and p ps
  | [], q :: qs => joined .or q qs
  | p :: ps, q :: qs => joined .or (joined .and p ps) (q :: qs)

structure InParens (texts : Nat → String) (p : Piece) : Prop where
  nested : WellNested p.text.toList
  short : ∀ n ∈ p.formula.atoms, (texts n).toList.length ≤ p.text.toList.length
  operand : ReadsOperand (fun n => (texts n).toList) p.parens.toList p.formula

/-- The piece is read as a level of its own, which is no atom. -/
structure IsLevel (texts : Nat → String) (p : Piece) : Prop where
  nested : WellNested p.text.toList
  short : ∀ n ∈ p.formula.atoms, (texts n).toList.length < p.text.toList.length
  whole : Whole (fun n => (texts n).toList) p.text.toList p.formula

variable {texts : Nat → String} {p : Piece} {ps : List Piece} {ms : List (Connective × Piece)}

theorem toList_parens (p : Piece) : p.parens.toList = '(' :: (p.text.toList ++ [')']) := by
  simp [parens]

theorem IsLevel.inParens (h : p.IsLevel texts) : p.InParens texts where
  nested := h.nested
  short n hn := Nat.le_of_lt (h.short n hn)
  operand := by
    rw [toList_parens]
    exact h.whole.operand h.nested h.short

theorem inParens_leaf {n : Nat} (h : WellNested (texts n).toList) :
    InParens texts ⟨texts n, .atom n⟩ where
  nested := h
  short := by simp [Formula.atoms]
  operand := by
    rw [toList_parens]
    have hatom : ReadsOperand (fun n => (texts n).toList) _ (.atom n) := operand_atom h
    exact hatom

theorem toList_join_cons (sep s : String) (ss : List String) :
    (join sep (s :: ss)).toList = s.toList ++ ss.flatMap fun t => sep.toList ++ t.toList := by
  induction ss generalizing s with
  | nil => simp [join]
  | cons t ss ih => simp [join, ih]

theorem atoms_joined (c : Connective) (p : Piece) (ps : List Piece) :
    (joined c p ps).formula.atoms = (p :: ps).flatMap fun p => p.formula.atoms := by
  cases c <;> simp [joined, Formula.atoms_foldl_and, Formula.atoms_foldl_or, List.flatMap_map]

theorem length_le_join {sep s : String} {ss : List String} (h : s ∈ ss) :
    s.toList.length ≤ (join sep ss).toList.length := by
  cases ss with
  | nil => cases h
  | cons t ss =>
    rw [toList_join_cons, List.length_append]
    rcases List.mem_cons.1 h with rfl | h
    · omega
    · obtain ⟨before, after, rfl⟩ := List.append_of_mem h
      simp only [List.flatMap_append, List.flatMap_cons, List.length_append]
      omega

theorem toList_joined (c : Connective) (p : Piece) (ps : List Piece) :
    (joined c p ps).text.toList =
      p.parens.toList ++
        ps.flatMap fun q => (" " ++ c.keyword ++ " ").toList ++ q.parens.toList := by
  simp only [joined, List.map_cons, toList_join_cons, List.flatMap_map]

theorem IsLevel.joined (c : Connective) (h : ∀ q ∈ p :: ps, q.InParens texts) :
    (joined c p ps).IsLevel texts where
  nested := by
    have hsep : WellNested (" " ++ c.keyword ++ " ").toList := by cases c <;> decide
    have hparens : ∀ q ∈ p :: ps, WellNested q.parens.toList := by
      intro q hq
      rw [toList_parens]
      exact (h q hq).nested.parens
    rw [List.forall_mem_cons] at hparens
    rw [toList_joined]
    exact hparens.1.append (.flatMap fun q hq => hsep.append (hparens.2 q hq))
  short n hn := by
    rw [atoms_joined, List.mem_flatMap] at hn
    rcases hn with ⟨q, hq, hn⟩
    have hjoin : q.parens.toList.length ≤ (Piece.joined c p ps).text.toList.length :=
      length_le_join (List.mem_map_of_mem hq)
    have hshort := (h q hq).short n hn
    simp only [toList_parens, List.length_cons, List.length_append, List.length_nil] at hjoin
    omega
  whole := by
    rw [List.forall_mem_cons] at h
    have hoperands : ∀ q ∈ ps, ReadsOperand (fun n => (texts n).toList) q.parens.toList q.formula :=
      fun q hq => (h.2 q hq).operand
    rw [toList_joined]
    cases c with
    | and => exact whole_ands h.1.operand hoperands
    | or => exact whole_ors h.1.operand hoperands

theorem isLevel_ofSides {ps qs : List Piece} (hne : ps ++ qs ≠ [])
    (h : ∀ p ∈ ps ++ qs, p.InParens texts) : (ofSides ps qs).IsLevel texts := by
  cases ps with
  | nil =>
    cases qs with
    | nil => exact absurd rfl hne
    | cons q qs => exact .joined .or h
  | cons p ps =>
    cases qs with
    | nil => exact .joined .and (by simpa using h)
    | cons q qs =>
      rw [List.forall_mem_append] at h
      have hands : (Piece.joined .and p ps).IsLevel texts := .joined .and h.1
      exact .joined .or (List.forall_mem_cons.2 ⟨hands.inParens, h.2⟩)

theorem text_ofSides (ms : List (Connective × Piece)) :
    (ofSides (side .and ms) (side .or ms)).text =
      Clauses.text (ms.map fun m => (m.1, m.2.text)) := by
  have htexts : ∀ c, Clauses.texts (ms.map fun m => (m.1, m.2.text)) c =
      (side c ms).map parens := by
    intro c
    simp [Clauses.texts, side, List.filter_map, Function.comp_def, parens]
  simp only [Clauses.text, htexts]
  cases side .and ms with
  | nil => cases side .or ms <;> rfl
  | cons p ps =>
    cases side .or ms with
    | nil => rfl
    | cons q qs =>
      rw [← String.toList_inj]
      simp [ofSides, joined, toList_join_cons, parens, Connective.keyword]

theorem text_joined_ne_empty (c : Connective) (p : Piece) (ps : List Piece) :
    (joined c p ps).text ≠ "" := by
  intro h
  have hlist := toList_joined c p ps
  simp [h, toList_parens] at hlist

theorem text_ofSides_ne_empty {ps qs : List Piece} (hne : ps ++ qs ≠ []) :
    (ofSides ps qs).text ≠ "" := by
  cases ps with
  | nil =>
    cases qs with
    | nil => exact absurd rfl hne
    | cons q qs => exact text_joined_ne_empty .or q qs
  | cons p ps =>
    cases qs with
    | nil => exact text_joined_ne_empty .and p ps
    | cons q qs => exact text_joined_ne_empty .or _ _

theorem eval_ofSides (v : Nat → Bool) {ps qs : List Piece} (hne : ps ++ qs ≠ []) :
    (ofSides ps qs).formula.eval v = (!ps.isEmpty && ps.all (fun p => p.formula.eval v) ||
      qs.any fun q => q.formula.eval v) := by
  cases ps with
  | nil =>
    cases qs with
    | nil => exact absurd rfl hne
    | cons q qs => simp [ofSides, joined, Formula.eval_foldl_or, Function.comp_def]
  | cons p ps =>
    cases qs with
    | nil => simp [ofSides, joined, Formula.eval_foldl_and, Function.comp_def]
    | cons q qs =>
      simp [ofSides, joined, Formula.eval, Formula.eval_foldl_or, Formula.eval_foldl_and,
        Function.comp_def, Bool.or_assoc]

theorem atoms_ofSides {ps qs : List Piece} (hne : ps ++ qs ≠ []) :
    (ofSides ps qs).formula.atoms = (ps ++ qs).flatMap fun p => p.formula.atoms := by
  cases ps with
  | nil =>
    cases qs with
    | nil => exact absurd rfl hne
    | cons q qs => exact atoms_joined .or q qs
  | cons p ps =>
    cases qs with
    | nil => simp [ofSides, atoms_joined]
    | cons q qs => simp [ofSides, atoms_joined]

end Piece

def Grouping.piece (texts : Nat → String) (g : Grouping) : Piece :=
  g.fold (fun n => ⟨texts n, .atom n⟩) fun ms => .ofSides (side .and ms) (side .or ms)

namespace Grouping

variable {texts : Nat → String}

def pieces (texts : Nat → String) (ms : Siblings) : List (Connective × Piece) :=
  ms.toList.map fun m => (m.1, m.2.piece texts)

theorem piece_group (ms : Siblings) : (group ms).piece texts =
    .ofSides (side .and (pieces texts ms)) (side .or (pieces texts ms)) := by
  simp only [piece, fold, Siblings.fold_eq, pieces]

theorem sides_pieces_ne_nil (ms : Siblings) :
    side .and (pieces texts ms) ++ side .or (pieces texts ms) ≠ [] := by
  intro h
  have hperm := sides_perm (pieces texts ms)
  rw [h] at hperm
  simpa [pieces, ms.toList_ne_nil] using hperm.nil_eq

theorem text_piece (g : Grouping) : (g.piece texts).text = g.text texts := by
  induction g using ofMembers with
  | leaf n => rfl
  | group ms ih =>
    rw [piece_group, Piece.text_ofSides, text, fold, Siblings.fold_eq, pieces, List.map_map]
    congr 1
    exact List.map_congr_left fun m hm => by simp [ih m hm, text]

theorem text_group_ne_empty (ms : Siblings) : (group ms).text texts ≠ "" := by
  rw [← text_piece, piece_group]
  exact Piece.text_ofSides_ne_empty (sides_pieces_ne_nil ms)

theorem eval_piece (v : Nat → Bool) (g : Grouping) :
    (g.piece texts).formula.eval v = g.holds v := by
  induction g using ofMembers with
  | leaf n => rfl
  | group ms ih =>
    have hmembers : ms.fold v agreed =
        (pieces texts ms).map fun m => (m.1, m.2.formula.eval v) := by
      rw [Siblings.fold_eq, pieces, List.map_map]
      exact List.map_congr_left fun m hm => by simp [ih m hm, holds]
    have hsides := fun c => side_map c (fun p : Piece => p.formula.eval v) (pieces texts ms)
    rw [piece_group, Piece.eval_ofSides v (sides_pieces_ne_nil ms), holds, fold, hmembers, agreed,
      hsides, hsides]
    simp

/-- Each leaf is read once, and nothing else. -/
theorem atoms_piece_perm (g : Grouping) : (g.piece texts).formula.atoms.Perm g.leaves := by
  induction g using ofMembers with
  | leaf n => exact .refl _
  | group ms ih =>
    rw [piece_group, Piece.atoms_ofSides (sides_pieces_ne_nil ms), leaves, fold, Siblings.fold_eq,
      List.flatMap_map]
    refine ((sides_perm _).flatMap_right _).trans ?_
    rw [pieces, List.map_map, List.flatMap_map]
    exact List.Perm.flatMap_left _ ih

theorem isLevel_group {ms : Siblings} (h : ∀ m ∈ ms.toList, (m.2.piece texts).InParens texts) :
    ((group ms).piece texts).IsLevel texts := by
  rw [piece_group]
  refine Piece.isLevel_ofSides (sides_pieces_ne_nil ms) fun p hp => ?_
  have hmem : p ∈ (pieces texts ms).map Prod.snd := (sides_perm _).mem_iff.1 hp
  simp only [pieces, List.map_map, List.mem_map, Function.comp_apply] at hmem
  rcases hmem with ⟨m, hm, rfl⟩
  exact h m hm

theorem inParens_piece (htexts : ∀ n, WellNested (texts n).toList) (g : Grouping) :
    (g.piece texts).InParens texts := by
  induction g using ofMembers with
  | leaf n => exact Piece.inParens_leaf (htexts n)
  | group ms ih => exact (isLevel_group ih).inParens

end Grouping

/-! ## Conditions -/

mutual
/-- The conditions without groups that a condition holds, in the order in which they are written. -/
def leaves : Condition Query → List (Condition Query)
  | .group children _ => allLeaves children
  | c => [c]
def allLeaves : List (Condition Query) → List (Condition Query)
  | [] => []
  | c :: cs => leaves c ++ allLeaves cs
end

/-- A sibling before others, if anything is left of it. -/
def addSibling (c : Connective) : Option Grouping → Option Siblings → Option Siblings
  | none, ms => ms
  | some g, none => some (.one c g)
  | some g, some ms => some (.more c g ms)

mutual
/-- What is left of a condition, its leaves counted from `n`. -/
def grouping (n : Nat) : Condition Query → Option Grouping
  | .group children _ => (siblings n children).map .group
  | _ => some (.leaf n)
def siblings (n : Nat) : List (Condition Query) → Option Siblings
  | [] => none
  | c :: cs => addSibling c.connective (grouping n c) (siblings (n + (leaves c).length) cs)
end

/-- The clauses that siblings are written as; there are none of nothing. -/
def clausesOf (texts : Nat → String) (ms : Option Siblings) : Clauses :=
  ms.elim [] fun ms => ms.fold texts Clauses.text

theorem clausesOf_addSibling (texts : Nat → String) (c : Connective) (g : Option Grouping)
    (ms : Option Siblings) : clausesOf texts (addSibling c g ms) =
      match g.map (Grouping.text texts) with
      | some text => (c, text) :: clausesOf texts ms
      | none => clausesOf texts ms := by
  cases g <;> cases ms <;> rfl

theorem text_clausesOf (texts : Nat → String) (ms : Option Siblings) :
    (if (Clauses.text (clausesOf texts ms)).isEmpty then none
      else some (Clauses.text (clausesOf texts ms))) =
      (ms.map Grouping.group).map (Grouping.text texts) := by
  cases ms with
  | none => rfl
  | some ms =>
    have hne : (Grouping.group ms).text texts ≠ "" := Grouping.text_group_ne_empty ms
    exact if_neg (String.isEmpty_iff.not.2 hne)

/-! ## Rendering -/

section

variable {scope : Scope} {texts : Nat → String} {n : Nat} {s s' : ParamSink} {flat : Clauses}

theorem isSome_of_bind {α : Type} {x : Render α} {f : α → String} {text : Option String}
    (h : (x >>= fun a => pure (some (f a))) s = .ok text s') : ∃ t, text = some t := by
  obtain ⟨a, _, -, h⟩ := bind_eq_ok.1 h
  exact ⟨f a, (pure_eq_ok.1 h).1.symm⟩

theorem isSome_renderCondition {c : Condition Query} (hc : ∀ children k, c ≠ .group children k)
    {text : Option String} (h : renderCondition scope c s = .ok text s') : ∃ t, text = some t := by
  cases c with
  | group children k => exact absurd rfl (hc children k)
  | basic column operator operand k =>
    rw [renderCondition] at h
    by_cases hraw : Condition.isRawColumn column = true
    · rw [if_pos hraw] at h
      exact ⟨_, (pure_eq_ok.1 h).1.symm⟩
    · rw [if_neg hraw] at h
      cases hop : Comparison.parse operator with
      | error e =>
        rw [hop] at h
        exact absurd h throw_ne_ok
      | ok op =>
        rw [hop] at h
        exact isSome_of_bind h
  | sub column operator query k =>
    rw [renderCondition] at h
    cases hop : Comparison.parse operator with
    | error e =>
      rw [hop] at h
      exact absurd h throw_ne_ok
    | ok op =>
      rw [hop] at h
      exact isSome_of_bind h
  | isIn => exact isSome_of_bind h
  | between => exact isSome_of_bind h
  | hasRows => exact isSome_of_bind h
  | raw => exact isSome_of_bind h

theorem renderConditions_append {as bs : List (Condition Query)} {clauses : Clauses}
    (h : renderConditions scope (as ++ bs) s = .ok clauses s') :
    ∃ first t others, renderConditions scope as s = .ok first t ∧
      renderConditions scope bs t = .ok others s' ∧ clauses = first ++ others := by
  induction as generalizing s clauses with
  | nil => exact ⟨[], s, clauses, rfl, h, rfl⟩
  | cons a as ih =>
    obtain ⟨text, t, ha, h⟩ := bind_eq_ok.1 h
    obtain ⟨rest, t', hrest, h⟩ := bind_eq_ok.1 h
    obtain ⟨rfl, rfl⟩ := pure_eq_ok.1 h
    obtain ⟨first, u, others, hfirst, hothers, rfl⟩ := ih hrest
    refine ⟨_, u, others, bind_eq_ok.2 ⟨text, t, ha, bind_eq_ok.2 ⟨first, u, hfirst, rfl⟩⟩,
      hothers, ?_⟩
    cases text <;> rfl

/-- From its place on in the texts of all leaves, a clause has its leaf's text. -/
def Supplies (texts : Nat → String) (n : Nat) (flat : Clauses) : Prop :=
  ∀ i, (h : i < flat.length) → texts (n + i) = flat[i].2

theorem Supplies.left {first others : Clauses} (h : Supplies texts n (first ++ others)) :
    Supplies texts n first := by
  intro i hi
  rw [h i (by simp; omega), List.getElem_append_left hi]

theorem Supplies.right {first others : Clauses} (h : Supplies texts n (first ++ others)) :
    Supplies texts (n + first.length) others := by
  intro i hi
  rw [Nat.add_assoc, h (first.length + i) (by simp; omega)]
  simp

theorem renderCondition_leaf {c : Condition Query} (hc : ∀ children k, c ≠ .group children k)
    (h : renderConditions scope [c] s = .ok flat s') (ht : Supplies texts n flat) :
    flat.length = 1 ∧ renderCondition scope c s = .ok (some (texts n)) s' := by
  obtain ⟨text, t, hc', h⟩ := bind_eq_ok.1 h
  obtain ⟨text, rfl⟩ := isSome_renderCondition hc hc'
  obtain ⟨rest, t', hrest, h⟩ := bind_eq_ok.1 h
  obtain ⟨rfl, rfl⟩ := pure_eq_ok.1 h
  obtain ⟨rfl, rfl⟩ := pure_eq_ok.1 hrest
  have htext : texts n = text := ht 0 (by simp)
  rw [htext]
  exact ⟨rfl, hc'⟩

mutual
/-- A condition is written from the texts that its leaves have one after another. -/
theorem renderCondition_eq : (c : Condition Query) →
    ∀ ⦃n : Nat⦄ ⦃s s' : ParamSink⦄ ⦃flat : Clauses⦄,
      renderConditions scope (leaves c) s = .ok flat s' →
      Supplies texts n flat → flat.length = (leaves c).length ∧
      renderCondition scope c s = .ok ((grouping n c).map (Grouping.text texts)) s'
  | .group children k => by
    intro n s s' flat h ht
    obtain ⟨hlen, hchildren⟩ := renderConditions_eq children h ht
    refine ⟨hlen, ?_⟩
    rw [renderCondition, Run.bind_of_ok hchildren, grouping, ← text_clausesOf]
    rfl
  | .basic .. | .isIn .. | .between .. | .sub .. | .hasRows .. | .raw .. =>
    fun _ _ _ _ => renderCondition_leaf nofun
theorem renderConditions_eq : (cs : List (Condition Query)) →
    ∀ ⦃n : Nat⦄ ⦃s s' : ParamSink⦄ ⦃flat : Clauses⦄,
      renderConditions scope (allLeaves cs) s = .ok flat s' → Supplies texts n flat →
      flat.length = (allLeaves cs).length ∧
      renderConditions scope cs s = .ok (clausesOf texts (siblings n cs)) s'
  | [] => by
    intro n s s' flat h ht
    obtain ⟨rfl, rfl⟩ := pure_eq_ok.1 h
    exact ⟨rfl, rfl⟩
  | c :: cs => by
    intro n s s' flat h ht
    obtain ⟨first, t, others, hfirst, hothers, rfl⟩ := renderConditions_append h
    obtain ⟨hlen, hc⟩ := renderCondition_eq c hfirst ht.left
    obtain ⟨hlens, hcs⟩ := renderConditions_eq cs hothers (hlen ▸ ht.right)
    refine ⟨by simp [allLeaves, hlen, hlens], ?_⟩
    rw [renderConditions, Run.bind_of_ok hc, Run.bind_of_ok hcs, siblings, clausesOf_addSibling]
    rfl
end

/-! ## The meaning of the text -/

theorem Grouping.leaves_ne_nil (g : Grouping) : g.leaves ≠ [] := by
  intro h
  have hperm : (g.piece fun _ => "").formula.atoms.Perm g.leaves := atoms_piece_perm g
  rw [h] at hperm
  exact Formula.atoms_ne_nil _ hperm.eq_nil

def leavesOf (ms : Option Siblings) : List Nat := ms.elim [] fun ms => (Grouping.group ms).leaves

theorem leavesOf_addSibling (c : Connective) (g : Option Grouping) (ms : Option Siblings) :
    leavesOf (addSibling c g ms) = g.elim [] Grouping.leaves ++ leavesOf ms := by
  cases g <;> cases ms <;>
    simp [addSibling, leavesOf, Grouping.leaves, Grouping.fold, Siblings.fold]

mutual
theorem leaves_grouping : (c : Condition Query) → ∀ n,
    (grouping n c).elim [] Grouping.leaves = List.range' n (leaves c).length
  | .group children k => by
    intro n
    rw [grouping, leaves, ← leavesOf_siblings children n]
    cases siblings n children <;> rfl
  | .basic .. | .isIn .. | .between .. | .sub .. | .hasRows .. | .raw .. => fun _ => rfl
theorem leavesOf_siblings : (cs : List (Condition Query)) → ∀ n,
    leavesOf (siblings n cs) = List.range' n (allLeaves cs).length
  | [] => fun _ => rfl
  | c :: cs => by
    intro n
    rw [siblings, leavesOf_addSibling, leaves_grouping c n, leavesOf_siblings cs, allLeaves,
      List.length_append, List.range'_append_1]
end

theorem siblings_eq_none_iff {cs : List (Condition Query)} :
    siblings n cs = none ↔ allLeaves cs = [] := by
  have hleaves := leavesOf_siblings cs n
  cases hms : siblings n cs with
  | none =>
    have hnil : List.range' n (allLeaves cs).length = [] := by rw [← hleaves, hms]; rfl
    simpa using hnil
  | some ms =>
    have hne : leavesOf (some ms) ≠ [] := (Grouping.group ms).leaves_ne_nil
    rw [← hms, hleaves] at hne
    simpa using hne

/-- Whether conditions hold under truth values of their leaves; of nothing it is not said. -/
def meaning (v : Nat → Bool) (cs : List (Condition Query)) : Option Bool :=
  (siblings 0 cs).map fun ms => (Grouping.group ms).holds v

def textAt (flat : Clauses) (n : Nat) : String := ((flat.map Prod.snd)[n]?).getD ""

theorem supplies_textAt (flat : Clauses) : Supplies (textAt flat) 0 flat := by
  intro i hi
  simp [textAt, hi]

theorem wellNested_textAt (h : ∀ clause ∈ flat, WellNested clause.2.toList) (n : Nat) :
    WellNested (textAt flat n).toList := by
  by_cases hn : n < flat.length
  · simpa [textAt, hn] using h _ (List.getElem_mem hn)
  · rw [textAt, List.getElem?_eq_none (by simpa using hn)]
    rfl

/-- Conditions whose leaves can be written are written, and their text is read back as a formula
of their meaning, over the texts of the leaves, in which each leaf stands once. There is no text
just when there is no leaf, so a WHERE is left out for that alone. -/
theorem renderConditions_meaning {cs : List (Condition Query)}
    (h : renderConditions scope (allLeaves cs) s = .ok flat s')
    (hnested : ∀ clause ∈ flat, WellNested clause.2.toList) :
    flat.length = (allLeaves cs).length ∧
    ∃ clauses, renderConditions scope cs s = .ok clauses s' ∧
      (clauses.text = "" ↔ allLeaves cs = []) ∧
      (allLeaves cs ≠ [] → ∃ e : Formula,
        Formula.read? (flat.map Prod.snd) e.atoms clauses.text = some e ∧
        e.atoms.Perm (List.range (allLeaves cs).length) ∧ ∀ v, meaning v cs = some (e.eval v)) ∧
      ∀ d, scope = { dialect := d } → renderWhere d cs s =
        .ok (if (allLeaves cs).isEmpty then "" else " WHERE " ++ clauses.text) s' := by
  obtain ⟨hlen, hrun⟩ := renderConditions_eq cs h (supplies_textAt flat)
  have hempty : (clausesOf (textAt flat) (siblings 0 cs)).text = "" ↔ allLeaves cs = [] := by
    rw [← siblings_eq_none_iff (n := 0)]
    cases siblings 0 cs with
    | none => exact iff_of_true rfl rfl
    | some ms => exact iff_of_false (Grouping.text_group_ne_empty ms) nofun
  refine ⟨hlen, _, hrun, hempty, fun hne => ?_, fun d hd => ?_⟩
  · cases hms : siblings 0 cs with
    | none => exact absurd (siblings_eq_none_iff.1 hms) hne
    | some ms =>
      have hleaves := leavesOf_siblings cs 0
      rw [hms, ← List.range_eq_range'] at hleaves
      have hlevel : ((Grouping.group ms).piece _).IsLevel _ :=
        Grouping.isLevel_group fun m _ => Grouping.inParens_piece (wellNested_textAt hnested) m.2
      have hwhole := hlevel.whole
      rw [Grouping.text_piece] at hwhole
      refine ⟨_, hwhole.read?, ?_, fun v => ?_⟩
      · exact hleaves ▸ Grouping.atoms_piece_perm (.group ms)
      · rw [meaning, hms, Grouping.eval_piece]
        rfl
  · subst hd
    rw [renderWhere, Run.bind_of_ok hrun, afterKeyword]
    simp only [String.isEmpty_iff, hempty, List.isEmpty_iff]
    rfl

end

/-- An alternative, a group of two, one of them with a parenthesis in quotes, and an empty group. -/
def groupedSample : List (Condition Query) :=
  [.basic "vip" "=" .null .or,
    .group [.equals "total" (.raw "')'"), .group [] .or, .basic "age" "<>" .null .or] .and,
    .group [.group [] .and] .and]

def groupedClauses : Clauses :=
  [(.or, "vip IS NULL"), (.and, "total = ')'"), (.or, "age IS NOT NULL")]

theorem groupedSample_meaning :
    ∃ clauses, renderConditions { dialect := .postgres } groupedSample {} = .ok clauses {} ∧
      clauses.text ≠ "" ∧ ∃ e : Formula,
        Formula.read? ["vip IS NULL", "total = ')'", "age IS NOT NULL"] e.atoms clauses.text =
          some e ∧ e.atoms.Perm [0, 1, 2] ∧ ∀ v, meaning v groupedSample = some (e.eval v) := by
  have hleaves : renderConditions { dialect := .postgres } (allLeaves groupedSample) {} =
      .ok groupedClauses {} := rfl
  have hsome : allLeaves groupedSample ≠ [] := nofun
  obtain ⟨-, clauses, hrun, hempty, hread, -⟩ := renderConditions_meaning hleaves (by decide)
  exact ⟨clauses, hrun, hempty.not.2 hsome, hread hsome⟩

end RowMapper.Sql
