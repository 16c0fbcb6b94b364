import RowMapper.Sql.Predicate
import RowMapper.Sql.Placeholder

/-! # Predicates read as formulas

A predicate is read from left to right, character by character. Parentheses group,
AND binds tighter than OR, and some of the text in parentheses is taken as a whole,
as an atom. Which text that is the reader is told beforehand, in the order in which
the atoms stand; where a parenthesis closes it finds out by itself, with regard to
quotes.
-/

namespace RowMapper.Sql

open Text

inductive Formula where
  | atom (n : Nat)
  | and (a b : Formula)
  | or (a b : Formula)
  deriving DecidableEq, Repr

namespace Formula

def eval (v : Nat → Bool) : Formula → Bool
  | atom n => v n
  | and a b => a.eval v && b.eval v
  | or a b => a.eval v || b.eval v

def atoms : Formula → List Nat
  | atom n => [n]
  | and a b => a.atoms ++ b.atoms
  | or a b => a.atoms ++ b.atoms

theorem atoms_ne_nil (e : Formula) : e.atoms ≠ [] := by
  induction e with
  | atom n => simp [atoms]
  | and a b iha ihb => simp [atoms, iha]
  | or a b iha ihb => simp [atoms, iha]

theorem eval_foldl_and (v : Nat → Bool) (e : Formula) (es : List Formula) :
    (es.foldl and e).eval v = (e.eval v && es.all (eval v)) := by
  induction es generalizing e with
  | nil => simp
  | cons f es ih => simp [ih, eval, Bool.and_assoc]

theorem eval_foldl_or (v : Nat → Bool) (e : Formula) (es : List Formula) :
    (es.foldl or e).eval v = (e.eval v || es.any (eval v)) := by
  induction es generalizing e with
  | nil => simp
  | cons f es ih => simp [ih, eval, Bool.or_assoc]

theorem atoms_foldl_and (e : Formula) (es : List Formula) :
    (es.foldl and e).atoms = e.atoms ++ es.flatMap atoms := by
  induction es generalizing e with
  | nil => simp
  | cons f es ih => simp [ih, atoms]

theorem atoms_foldl_or (e : Formula) (es : List Formula) :
    (es.foldl or e).atoms = e.atoms ++ es.flatMap atoms := by
  induction es generalizing e with
  | nil => simp
  | cons f es ih => simp [ih, atoms]

end Formula

/-! ## Parentheses -/

/-- Where a scan for parentheses stands: the quotes it is in, and the open parentheses. -/
structure Nesting where
  quote : Option Char := none
  depth : Nat := 0
  deriving DecidableEq

namespace Nesting

/-- Scan a character. A parenthesis that closes none of the open ones ends the scan. -/
def step : Nesting → Char → Option Nesting
  | ⟨some q, depth⟩, c => some ⟨if c = q then none else some q, depth⟩
  | ⟨none, depth⟩, c =>
    if isQuote c then some ⟨some c, depth⟩
    else if c = '(' then some ⟨none, depth + 1⟩
    else if c = ')' then (match depth with
      | 0 => none
      | depth + 1 => some ⟨none, depth⟩)
    else some ⟨none, depth⟩

def after : Nesting → List Char → Option Nesting
  | s, [] => some s
  | s, c :: cs => (s.step c).bind fun s => s.after cs

/-- The text up to the parenthesis that ends the scan. -/
def inside : Nesting → List Char → Option (List Char)
  | _, [] => none
  | s, c :: cs => match s.step c with
    | none => some []
    | some s => (s.inside cs).map (c :: ·)

/-- A scan that does not end in a text does not end in it below more open parentheses either. -/
theorem step_deeper {q r : Option Char} {m n : Nat} {c : Char}
    (h : step ⟨q, m⟩ c = some ⟨r, n⟩) (k : Nat) : step ⟨q, m + k⟩ c = some ⟨r, n + k⟩ := by
  cases q with
  | some q => simp_all [step]
  | none =>
    by_cases hc : c = ')'
    · subst hc
      cases m with
      | zero => simp [step, isQuote] at h
      | succ m =>
        obtain ⟨rfl, rfl⟩ : none = r ∧ m = n := by simpa [step, isQuote] using h
        simp [step, isQuote, Nat.succ_add]
    · simp only [step, hc, ↓reduceIte] at h ⊢
      grind

theorem after_deeper {q r : Option Char} {m n : Nat} {cs : List Char}
    (h : after ⟨q, m⟩ cs = some ⟨r, n⟩) (k : Nat) : after ⟨q, m + k⟩ cs = some ⟨r, n + k⟩ := by
  induction cs generalizing q m with
  | nil => simp_all [after]
  | cons c cs ih =>
    obtain ⟨⟨q', m'⟩, hstep, hrest⟩ := Option.bind_eq_some_iff.1 h
    rw [after, step_deeper hstep k]
    exact ih hrest

theorem after_append (s : Nesting) (xs ys : List Char) :
    s.after (xs ++ ys) = (s.after xs).bind fun t => t.after ys := by
  induction xs generalizing s with
  | nil => rfl
  | cons c cs ih =>
    simp only [List.cons_append, after]
    cases s.step c <;> simp [ih]

theorem inside_append {s t : Nesting} {xs : List Char} (h : s.after xs = some t)
    (ys : List Char) : s.inside (xs ++ ys) = (t.inside ys).map (xs ++ ·) := by
  induction xs generalizing s with
  | nil =>
    obtain rfl : s = t := by simpa [after] using h
    simp
  | cons c cs ih =>
    obtain ⟨s', hstep, hrest⟩ := Option.bind_eq_some_iff.1 h
    simp [inside, hstep, ih hrest, Function.comp_def]

end Nesting

/-- A text closes its quotes, and its parentheses outside quotes are well nested. -/
def WellNested (cs : List Char) : Prop := Nesting.after {} cs = some {}

instance (cs : List Char) : Decidable (WellNested cs) := inferInstanceAs (Decidable (_ = _))

namespace WellNested

variable {cs ds : List Char}

theorem append (hc : WellNested cs) (hd : WellNested ds) : WellNested (cs ++ ds) := by
  have hc : Nesting.after {} cs = some {} := hc
  simpa [WellNested, Nesting.after_append, hc] using hd

theorem parens (h : WellNested cs) : WellNested ('(' :: (cs ++ [')'])) := by
  have hdeep : Nesting.after ⟨none, 1⟩ cs = some ⟨none, 1⟩ := by
    simpa using Nesting.after_deeper h 1
  simp [WellNested, Nesting.after, Nesting.after_append, Nesting.step, isQuote, hdeep]

theorem flatMap {ι : Type} {xs : List ι} {f : ι → List Char} (h : ∀ x ∈ xs, WellNested (f x)) :
    WellNested (xs.flatMap f) := by
  induction xs with
  | nil => rfl
  | cons x xs ih =>
    rw [List.forall_mem_cons] at h
    exact h.1.append (ih h.2)

/-- In parentheses a well-nested text is found as a whole. -/
theorem inside_closed (h : WellNested cs) (ds : List Char) :
    Nesting.inside {} (cs ++ ')' :: ds) = some cs := by
  rw [Nesting.inside_append h]
  simp [Nesting.inside, Nesting.step, isQuote]

end WellNested

/-! ## Reading -/

/-- What was read between two parentheses: the alternatives before the present one, and the
present one as far as it was read. -/
structure Level where
  ors : Option Formula := none
  ands : Option Formula := none

namespace Level

def take (l : Level) (e : Formula) : Level :=
  { l with ands := some (match l.ands with
    | none => e
    | some a => a.and e) }

def close (l : Level) : Option Formula :=
  match l.ors with
  | none => l.ands
  | some o => l.ands.map o.or

def next (l : Level) : Level := { ors := l.close }

/-- The parenthesis is closed, and what was read in it is an operand of the level around it. -/
def leave (l : Level) : List Level → Option (List Level)
  | [] => none
  | around :: stack => l.close.map fun e => around.take e :: stack

theorem close_foldl_take (a : Formula) (es : List Formula) :
    (es.foldl take (take {} a)).close = some (es.foldl .and a) := by
  suffices h : ∀ a, es.foldl take ⟨none, some a⟩ = ⟨none, some (es.foldl .and a)⟩ by
    simp [take, h, close]
  induction es with
  | nil => intro a; rfl
  | cons e es ih => exact fun a => ih (a.and e)

theorem close_foldl_next {l : Level} {e : Formula} (h : l.close = some e) (es : List Formula) :
    (es.foldl (fun l e => l.next.take e) l).close = some (es.foldl .or e) := by
  induction es generalizing l e with
  | nil => exact h
  | cons f es ih =>
    refine ih ?_
    have hnext : l.next = ⟨some e, none⟩ := by simp [next, h]
    simp [hnext, take, close]

end Level

/-- Read on: the atoms to come, the levels of the open parentheses from inside out, whether an
operand is due, and how many characters of an atom are still to be passed. -/
def readFrom (texts : Nat → List Char) : List Nat → List Level → Bool → Nat → List Char →
    Option Formula
  | [], [l], false, 0, [] => l.close
  | _, _, _, _, [] => none
  | order, stack, due, k + 1, _ :: cs => readFrom texts order stack due k cs
  | n :: order, l :: stack, true, 0, c :: cs =>
    if c = '(' then
      if Nesting.inside {} cs = some (texts n) then
        readFrom texts order (l.take (.atom n) :: stack) false ((texts n).length + 1) cs
      else readFrom texts (n :: order) ({} :: l :: stack) true 0 cs
    else none
  | order, l :: stack, false, 0, c :: cs =>
    if c = ')' then
      (l.leave stack).bind fun stack => readFrom texts order stack false 0 cs
    else if " AND ".toList.isPrefixOf (c :: cs) then
      readFrom texts order (l :: stack) true 4 cs
    else if " OR ".toList.isPrefixOf (c :: cs) then
      readFrom texts order (l.next :: stack) true 3 cs
    else none
  | _, _, _, _, _ :: _ => none

/-- Read a text as a formula over atoms of some texts, which stand in an order. -/
def Formula.read? (texts : List String) (order : List Nat) (sql : String) : Option Formula :=
  readFrom (fun n => ((texts[n]?).getD "").toList) order [{}] true 0 sql.toList

section

variable {texts : Nat → List Char} {ι : Type}

theorem readFrom_succ (order : List Nat) (stack : List Level) (due : Bool) (k : Nat) (c : Char)
    (cs : List Char) :
    readFrom texts order stack due (k + 1) (c :: cs) = readFrom texts order stack due k cs := by
  rcases stack with _ | ⟨l, _ | ⟨m, stack⟩⟩ <;> cases order <;> cases due <;> rfl

/-- Where an operand is due: the atom to come if its text is all of the parenthesis, else a level
of its own. -/
theorem readFrom_due (n : Nat) (order : List Nat) (l : Level) (stack : List Level)
    (cs : List Char) :
    readFrom texts (n :: order) (l :: stack) true 0 ('(' :: cs) =
      if Nesting.inside {} cs = some (texts n) then
        readFrom texts order (l.take (.atom n) :: stack) false ((texts n).length + 1) cs
      else readFrom texts (n :: order) ({} :: l :: stack) true 0 cs :=
  rfl

/-- Behind an operand: the end of the level, or a connective. -/
theorem readFrom_behind (order : List Nat) (l : Level) (stack : List Level) (c : Char)
    (cs : List Char) :
    readFrom texts order (l :: stack) false 0 (c :: cs) =
      if c = ')' then (l.leave stack).bind fun stack => readFrom texts order stack false 0 cs
      else if " AND ".toList.isPrefixOf (c :: cs) then
        readFrom texts order (l :: stack) true 4 cs
      else if " OR ".toList.isPrefixOf (c :: cs) then
        readFrom texts order (l.next :: stack) true 3 cs
      else none := by
  cases stack <;> cases order <;> rfl

theorem readFrom_pass (order : List Nat) (stack : List Level) (due : Bool) (cs ds : List Char) :
    readFrom texts order stack due cs.length (cs ++ ds) = readFrom texts order stack due 0 ds := by
  induction cs with
  | nil => rfl
  | cons c cs ih => rw [List.length_cons, List.cons_append, readFrom_succ, ih]

theorem readFrom_and (order : List Nat) (l : Level) (stack : List Level) (cs : List Char) :
    readFrom texts order (l :: stack) false 0 (" AND ".toList ++ cs) =
      readFrom texts order (l :: stack) true 0 cs := by
  simp [readFrom_behind, readFrom_succ]

theorem readFrom_or (order : List Nat) (l : Level) (stack : List Level) (cs : List Char) :
    readFrom texts order (l :: stack) false 0 (" OR ".toList ++ cs) =
      readFrom texts order (l.next :: stack) true 0 cs := by
  simp [readFrom_behind, readFrom_succ]

theorem readFrom_close {l : Level} {e : Formula} (h : l.close = some e) (order : List Nat)
    (l' : Level) (stack : List Level) (cs : List Char) :
    readFrom texts order (l :: l' :: stack) false 0 (')' :: cs) =
      readFrom texts order (l'.take e :: stack) false 0 cs := by
  simp [readFrom_behind, Level.leave, h]

/-- Where an operand is due a text is read as one, over the first of the atoms to come. -/
def ReadsOperand (texts : Nat → List Char) (cs : List Char) (e : Formula) : Prop :=
  ∀ order l stack ds, readFrom texts (e.atoms ++ order) (l :: stack) true 0 (cs ++ ds) =
    readFrom texts order (l.take e :: stack) false 0 ds

/-- At the start of a level a text is read as all of the level, over the first of the atoms to
come. -/
def Whole (texts : Nat → List Char) (cs : List Char) (e : Formula) : Prop :=
  ∃ l : Level, l.close = some e ∧ ∀ order stack ds,
    readFrom texts (e.atoms ++ order) ({} :: stack) true 0 (cs ++ ds) =
      readFrom texts order (l :: stack) false 0 ds

theorem operand_atom {n : Nat} (h : WellNested (texts n)) :
    ReadsOperand texts ('(' :: (texts n ++ [')'])) (.atom n) := by
  intro order l stack ds
  have hlen : (texts n).length + 1 = (texts n ++ [')']).length := by simp
  have hinside : Nesting.inside {} (texts n ++ ')' :: ds) = some (texts n) := h.inside_closed ds
  calc
    _ = readFrom texts order (l.take (.atom n) :: stack) false ((texts n).length + 1)
        (texts n ++ [')'] ++ ds) := by simp [Formula.atoms, readFrom_due, hinside]
    _ = _ := by rw [hlen, readFrom_pass]

/-- A level in parentheses; it is not mistaken for its first atom, which is shorter. -/
theorem Whole.operand {cs : List Char} {e : Formula} (h : Whole texts cs e) (hcs : WellNested cs)
    (hlen : ∀ n ∈ e.atoms, (texts n).length < cs.length) :
    ReadsOperand texts ('(' :: (cs ++ [')'])) e := by
  rcases h with ⟨l, hclose, hread⟩
  intro order l' stack ds
  have hinside : Nesting.inside {} (cs ++ ')' :: ds) = some cs := hcs.inside_closed ds
  calc
    _ = readFrom texts (e.atoms ++ order) ({} :: l' :: stack) true 0 (cs ++ ')' :: ds) := by
      obtain ⟨n, ns, hatoms⟩ := List.exists_cons_of_ne_nil e.atoms_ne_nil
      have hne : cs ≠ texts n := by
        rintro rfl
        exact Nat.lt_irrefl _ (hlen n (by simp [hatoms]))
      simp [hatoms, readFrom_due, hinside, hne]
    _ = readFrom texts order (l :: l' :: stack) false 0 (')' :: ds) := hread _ _ _
    _ = _ := readFrom_close hclose _ _ _ _

variable {cs : List Char} {e : Formula} {xs : List ι} {text : ι → List Char} {formula : ι → Formula}

theorem readFrom_ands (h : ∀ x ∈ xs, ReadsOperand texts (text x) (formula x))
    (order : List Nat) (l : Level) (stack : List Level) (ds : List Char) :
    readFrom texts ((xs.map formula).flatMap Formula.atoms ++ order) (l :: stack) false 0
        (xs.flatMap (fun x => " AND ".toList ++ text x) ++ ds) =
      readFrom texts order ((xs.map formula).foldl Level.take l :: stack) false 0 ds := by
  induction xs generalizing l with
  | nil => rfl
  | cons x xs ih =>
    rw [List.forall_mem_cons] at h
    simp only [List.map_cons, List.flatMap_cons, List.append_assoc, readFrom_and, h.1 _ _ _ _,
      ih h.2, List.foldl_cons]

theorem readFrom_ors (h : ∀ x ∈ xs, ReadsOperand texts (text x) (formula x))
    (order : List Nat) (l : Level) (stack : List Level) (ds : List Char) :
    readFrom texts ((xs.map formula).flatMap Formula.atoms ++ order) (l :: stack) false 0
        (xs.flatMap (fun x => " OR ".toList ++ text x) ++ ds) =
      readFrom texts order
        ((xs.map formula).foldl (fun l e => l.next.take e) l :: stack) false 0 ds := by
  induction xs generalizing l with
  | nil => rfl
  | cons x xs ih =>
    rw [List.forall_mem_cons] at h
    simp only [List.map_cons, List.flatMap_cons, List.append_assoc, readFrom_or, h.1 _ _ _ _,
      ih h.2, List.foldl_cons]

theorem whole_ands (he : ReadsOperand texts cs e) (h : ∀ x ∈ xs, ReadsOperand texts (text x) (formula x)) :
    Whole texts (cs ++ xs.flatMap fun x => " AND ".toList ++ text x)
      ((xs.map formula).foldl .and e) := by
  refine ⟨_, Level.close_foldl_take _ _, fun order stack ds => ?_⟩
  rw [Formula.atoms_foldl_and, List.append_assoc, List.append_assoc, he, readFrom_ands h]

theorem whole_ors (he : ReadsOperand texts cs e) (h : ∀ x ∈ xs, ReadsOperand texts (text x) (formula x)) :
    Whole texts (cs ++ xs.flatMap fun x => " OR ".toList ++ text x)
      ((xs.map formula).foldl .or e) := by
  have hfirst : (Level.take {} e).close = some e := rfl
  refine ⟨_, Level.close_foldl_next hfirst _, fun order stack ds => ?_⟩
  rw [Formula.atoms_foldl_or, List.append_assoc, List.append_assoc, he, readFrom_ors h]

end

theorem Whole.read? {texts : List String} {sql : String} {e : Formula}
    (h : Whole (fun n => ((texts[n]?).getD "").toList) sql.toList e) :
    Formula.read? texts e.atoms sql = some e := by
  rcases h with ⟨l, hclose, hread⟩
  have hall := hread [] [] []
  rw [List.append_nil, List.append_nil] at hall
  rw [Formula.read?, hall, ← hclose]
  rfl

example : Formula.read? ["a = 1", "b = ')'", "c = 1"] [1, 2, 0]
    "((b = ')') AND (c = 1)) OR (a = 1)" = some (.or (.and (.atom 1) (.atom 2)) (.atom 0)) := by
  decide +kernel

end RowMapper.Sql
