import RowMapper.Sql.Placeholder

/-! # Tokens of SQL text

SQL text read from left to right: characters outside quotes, quoted characters
and placeholders. The reader keeps no more than its state from one character to
the next, so the tokens of a text that is put together from parts are the tokens
of the parts, as long as no part ends inside quotes and no name runs on into the
next part.
-/

namespace RowMapper.Sql

inductive Token where
  /-- A character outside quotes. -/
  | plain (c : Char)
  /-- A quote, or a character between quotes. -/
  | quoted (c : Char)
  | placeholder (name : List Char)
  deriving DecidableEq

inductive Reading where
  | plain
  | quoted (quote : Char)
  /-- After a colon outside quotes, which may start a placeholder or a cast. -/
  | colon
  | name (read : List Char)
  deriving DecidableEq

namespace Reading

def fresh (c : Char) : List Token × Reading :=
  if isQuote c then ([.quoted c], .quoted c)
  else if c = ':' then ([], .colon)
  else ([.plain c], .plain)

/-- Read one character: the tokens that end with it, and where the reader stands after it. A
doubled quote closes the quotes and opens them again. -/
def step : Reading → Char → List Token × Reading
  | .plain, c => fresh c
  | .quoted q, c => ([.quoted c], if c = q then .plain else .quoted q)
  | .colon, c =>
    if c = ':' then ([.plain ':', .plain ':'], .plain)
    else if isNameStart c then ([], .name [c])
    else (.plain ':' :: (fresh c).1, (fresh c).2)
  | .name cs, c =>
    if isNameChar c then ([], .name (cs ++ [c]))
    else (.placeholder cs :: (fresh c).1, (fresh c).2)

def tokens : Reading → List Char → List Token
  | _, [] => []
  | r, c :: cs => (r.step c).1 ++ tokens (r.step c).2 cs

def after : Reading → List Char → Reading
  | r, [] => r
  | r, c :: cs => after (r.step c).2 cs

def last : Reading → List Token
  | .plain => []
  | .quoted _ => []
  | .colon => [.plain ':']
  | .name cs => [.placeholder cs]

/-- All tokens from a place in a text on. -/
def read (r : Reading) (cs : List Char) : List Token := r.tokens cs ++ (r.after cs).last

def quote? : Reading → Option Char
  | .quoted q => some q
  | _ => none

def ofQuote : Option Char → Reading
  | none => .plain
  | some q => .quoted q

@[simp] theorem tokens_nil (r : Reading) : r.tokens [] = [] := rfl

@[simp] theorem after_nil (r : Reading) : r.after [] = r := rfl

theorem tokens_cons (r : Reading) (c : Char) (cs : List Char) :
    r.tokens (c :: cs) = (r.step c).1 ++ (r.step c).2.tokens cs := rfl

theorem after_cons (r : Reading) (c : Char) (cs : List Char) :
    r.after (c :: cs) = (r.step c).2.after cs := rfl

@[simp] theorem read_nil (r : Reading) : r.read [] = r.last := rfl

theorem read_cons (r : Reading) (c : Char) (cs : List Char) :
    r.read (c :: cs) = (r.step c).1 ++ (r.step c).2.read cs := by
  simp [read, tokens_cons, after_cons]

theorem read_plain_quote {c : Char} (h : isQuote c = true) (cs : List Char) :
    read .plain (c :: cs) = .quoted c :: read (.quoted c) cs := by
  simp [read_cons, step, fresh, h]

theorem read_plain_colon (cs : List Char) : read .plain (':' :: cs) = read .colon cs := by
  simp [read_cons, step, fresh, isQuote]

theorem read_plain_other {c : Char} (hq : isQuote c = false) (hc : c ≠ ':') (cs : List Char) :
    read .plain (c :: cs) = .plain c :: read .plain cs := by
  simp [read_cons, step, fresh, hq, hc]

theorem read_quoted_self (q : Char) (cs : List Char) :
    read (.quoted q) (q :: cs) = .quoted q :: read .plain cs := by
  simp [read_cons, step]

theorem read_quoted_other {q c : Char} (h : c ≠ q) (cs : List Char) :
    read (.quoted q) (c :: cs) = .quoted c :: read (.quoted q) cs := by
  simp [read_cons, step, h]

theorem read_colon_colon (cs : List Char) :
    read .colon (':' :: cs) = .plain ':' :: .plain ':' :: read .plain cs := by
  simp [read_cons, step]

theorem read_colon_name {c : Char} (h : isNameStart c = true) (cs : List Char) :
    read .colon (c :: cs) = read (.name [c]) cs := by
  have hc : c ≠ ':' := by
    rintro rfl
    exact absurd h (by decide)
  simp [read_cons, step, h, hc]

theorem read_colon_other {c : Char} (hc : c ≠ ':') (hs : isNameStart c = false) (cs : List Char) :
    read .colon (c :: cs) = .plain ':' :: read .plain (c :: cs) := by
  simp [read_cons, step, hc, hs]

theorem read_name_char {c : Char} (h : isNameChar c = true) (name cs : List Char) :
    read (.name name) (c :: cs) = read (.name (name ++ [c])) cs := by
  simp [read_cons, step, h]

theorem read_name_other {c : Char} (h : isNameChar c = false) (name cs : List Char) :
    read (.name name) (c :: cs) = .placeholder name :: read .plain (c :: cs) := by
  simp [read_cons, step, h]

theorem step_ofQuote_none {c : Char} (hc : c ≠ ':') : (ofQuote none).step c =
    ([if isQuote c then .quoted c else .plain c], ofQuote (if isQuote c then some c else none)) := by
  cases hq : isQuote c <;> simp [ofQuote, step, fresh, hq, hc]

theorem step_ofQuote_some (q c : Char) :
    (ofQuote (some q)).step c = ([.quoted c], ofQuote (if c = q then none else some q)) := by
  by_cases hc : c = q <;> simp [ofQuote, step, hc]

theorem after_append (r : Reading) (xs ys : List Char) :
    r.after (xs ++ ys) = (r.after xs).after ys := by
  induction xs generalizing r with
  | nil => rfl
  | cons c cs ih => exact ih _

theorem tokens_append (r : Reading) (xs ys : List Char) :
    r.tokens (xs ++ ys) = r.tokens xs ++ (r.after xs).tokens ys := by
  induction xs generalizing r with
  | nil => rfl
  | cons c cs ih => rw [List.cons_append, tokens_cons, tokens_cons, after_cons, ih, List.append_assoc]

/-- A character that is no name character ends a name; after it the reader stands where it would
have stood without the name. -/
theorem step_name (cs : List Char) {c : Char} (h : isNameChar c = false) :
    step (.name cs) c = (.placeholder cs :: (step .plain c).1, (step .plain c).2) := by
  simp [step, h]

end Reading

def tokens (cs : List Char) : List Token := Reading.read .plain cs

def Token.name? : Token → Option String
  | .plain _ => none
  | .quoted _ => none
  | .placeholder name => some (String.ofList name)

@[simp] theorem filterMap_name?_plain (c : Char) (ts : List Token) :
    (Token.plain c :: ts).filterMap Token.name? = ts.filterMap Token.name? := rfl

@[simp] theorem filterMap_name?_quoted (c : Char) (ts : List Token) :
    (Token.quoted c :: ts).filterMap Token.name? = ts.filterMap Token.name? := rfl

@[simp] theorem filterMap_name?_placeholder (name : List Char) (ts : List Token) :
    (Token.placeholder name :: ts).filterMap Token.name? =
      String.ofList name :: ts.filterMap Token.name? := rfl

/-- The names of the placeholders of a text, from left to right. -/
def placeholders (sql : String) : List String := (tokens sql.toList).filterMap Token.name?

/-- The question marks outside quotes, from a place inside or outside quotes on. -/
def marksFrom : Option Char → List Char → Nat
  | _, [] => 0
  | some q, c :: cs => marksFrom (if c = q then none else some q) cs
  | none, c :: cs => (if c = '?' then 1 else 0) + marksFrom (if isQuote c then some c else none) cs

/-- The number of question marks of a text that stand outside quotes. -/
def questionMarks (sql : String) : Nat := marksFrom none sql.toList

/-! ## Question marks among the tokens -/

theorem isQuote_of_isNameChar {c : Char} (h : isNameChar c = true) : isQuote c = false := by
  cases hq : isQuote c with
  | false => rfl
  | true =>
    simp only [isQuote, Bool.or_eq_true, beq_iff_eq] at hq
    rcases hq with (rfl | rfl) | rfl <;> exact absurd h (by decide)

theorem ne_mark_of_isNameChar {c : Char} (h : isNameChar c = true) : c ≠ '?' := by
  rintro rfl
  exact absurd h (by decide)

theorem isNameChar_of_isNameStart {c : Char} (h : isNameStart c = true) : isNameChar c = true := by
  simp only [isNameStart, isNameChar, Char.isAlphanum, Bool.or_eq_true] at h ⊢
  exact h.imp_left Or.inl

namespace Reading

theorem count_fresh (c : Char) : (fresh c).1.count (.plain '?') = if c = '?' then 1 else 0 := by
  unfold fresh
  by_cases hm : c = '?'
  · subst hm
    decide
  · split
    · simp
    · split <;> simp [hm]

theorem quote?_fresh (c : Char) : (fresh c).2.quote? = if isQuote c then some c else none := by
  unfold fresh
  split
  · rfl
  · split <;> rfl

theorem count_step (r : Reading) (c : Char) : (r.step c).1.count (.plain '?') =
    if r.quote? = none ∧ c = '?' then 1 else 0 := by
  cases r with
  | plain => simp [step, quote?, count_fresh]
  | quoted q => simp [step, quote?]
  | colon =>
    simp only [step]
    split
    · next hc => simp [hc]
    · split
      · next hn => simp [ne_mark_of_isNameChar (isNameChar_of_isNameStart hn)]
      · simp [quote?, count_fresh]
  | name cs =>
    simp only [step]
    split
    · next hn => simp [ne_mark_of_isNameChar hn]
    · simp [quote?, count_fresh]

theorem quote?_step (r : Reading) (c : Char) : (r.step c).2.quote? =
    match r.quote? with
    | some q => if c = q then none else some q
    | none => if isQuote c then some c else none := by
  cases r with
  | plain => exact quote?_fresh c
  | quoted q => by_cases h : c = q <;> simp [step, quote?, h]
  | colon =>
    simp only [step]
    split
    · next hc => subst hc; rfl
    · split
      · next hn => simp [quote?, isQuote_of_isNameChar (isNameChar_of_isNameStart hn)]
      · exact quote?_fresh c
  | name cs =>
    simp only [step]
    split
    · next hn => simp [quote?, isQuote_of_isNameChar hn]
    · exact quote?_fresh c

/-- The question marks outside quotes are the plain tokens of that character. -/
theorem count_read (r : Reading) (cs : List Char) :
    (r.read cs).count (.plain '?') = marksFrom r.quote? cs := by
  induction cs generalizing r with
  | nil => cases r <;> simp [last, marksFrom]
  | cons c cs ih =>
    rw [read_cons, List.count_append, ih, count_step, quote?_step]
    cases r.quote? <;> simp [marksFrom]

end Reading

theorem questionMarks_eq_count (sql : String) :
    questionMarks sql = (tokens sql.toList).count (.plain '?') :=
  (Reading.count_read .plain sql.toList).symm

/-! ## Texts in a row -/

/-- A text ends outside quotes, possibly with a placeholder. -/
def IsOpen (cs : List Char) : Prop :=
  Reading.after .plain cs = .plain ∨ ∃ name, Reading.after .plain cs = .name name

/-- A text ends outside quotes and not with a placeholder. -/
def IsClosed (cs : List Char) : Prop := Reading.after .plain cs = .plain

/-- A text does not go on with a name. -/
def Breaks (cs : List Char) : Prop := ∀ c ∈ cs.head?, isNameChar c = false

theorem tokens_append_of_isClosed {xs ys : List Char} (hx : IsClosed xs) :
    tokens (xs ++ ys) = tokens xs ++ tokens ys := by
  have hx : Reading.after .plain xs = .plain := hx
  simp [tokens, Reading.read, Reading.tokens_append, Reading.after_append, hx, Reading.last]

theorem tokens_append_of_breaks {xs ys : List Char} (hx : IsOpen xs) (hy : Breaks ys) :
    tokens (xs ++ ys) = tokens xs ++ tokens ys := by
  rcases hx with hx | ⟨name, hx⟩
  · exact tokens_append_of_isClosed hx
  · cases ys with
    | nil => simp [tokens, Reading.last]
    | cons c cs =>
      have hstep := Reading.step_name name (hy c rfl)
      simp [tokens, Reading.read, Reading.tokens_append, Reading.after_append, hx, Reading.tokens_cons,
        Reading.after_cons, hstep, Reading.last]

theorem IsClosed.append_isOpen {xs ys : List Char} (hx : IsClosed xs) (hy : IsOpen ys) :
    IsOpen (xs ++ ys) := by
  have hx : Reading.after .plain xs = .plain := hx
  simpa [IsOpen, Reading.after_append, hx] using hy

theorem IsClosed.append {xs ys : List Char} (hx : IsClosed xs) (hy : IsClosed ys) :
    IsClosed (xs ++ ys) := by
  have hx : Reading.after .plain xs = .plain := hx
  simpa [IsClosed, Reading.after_append, hx] using hy

/-- After an open text and a character that ends names, the reader stands as after the character. -/
theorem IsOpen.after_append {xs ys : List Char} (hx : IsOpen xs) (hy : Breaks ys)
    (hne : ys ≠ []) : Reading.after .plain (xs ++ ys) = Reading.after .plain ys := by
  rw [Reading.after_append]
  rcases hx with hx | ⟨name, hx⟩
  · rw [hx]
  · cases ys with
    | nil => exact absurd rfl hne
    | cons c cs => rw [hx, Reading.after_cons, Reading.step_name name (hy c rfl), Reading.after_cons]

theorem IsOpen.append {xs ys : List Char} (hx : IsOpen xs) (hb : Breaks ys) (hy : IsOpen ys) :
    IsOpen (xs ++ ys) := by
  by_cases hne : ys = []
  · simpa [hne] using hx
  · rw [IsOpen, hx.after_append hb hne]
    exact hy

theorem IsOpen.append_isClosed {xs ys : List Char} (hx : IsOpen xs) (hb : Breaks ys)
    (hne : ys ≠ []) (hy : IsClosed ys) : IsClosed (xs ++ ys) := by
  rw [IsClosed, hx.after_append hb hne]
  exact hy

end RowMapper.Sql
