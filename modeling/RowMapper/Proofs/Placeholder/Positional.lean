import RowMapper.Proofs.Placeholder.Token

/-! # Positional marks by tokens

Replacing placeholders by positional marks goes token by token: every character
outside a placeholder is copied, and the k-th placeholder becomes the k-th mark.
So the marks are as many as the placeholders, and a statement takes the values
bound to it exactly when they are as many as its placeholders.
-/

namespace RowMapper.Sql

/-- Write tokens with marks for the placeholders, counted from `n`. -/
def marked (d : Dialect) : Nat → List Token → List Char × Nat
  | n, [] => ([], n)
  | n, .plain c :: ts => (c :: (marked d n ts).1, (marked d n ts).2)
  | n, .quoted c :: ts => (c :: (marked d n ts).1, (marked d n ts).2)
  | n, .placeholder _ :: ts =>
    ((d.mark n).toList ++ (marked d (n + 1) ts).1, (marked d (n + 1) ts).2)

theorem marked_snd (d : Dialect) (n : Nat) (ts : List Token) :
    (marked d n ts).2 = n + (ts.filterMap Token.name?).length := by
  induction ts generalizing n with
  | nil => rfl
  | cons t ts ih =>
    cases t with
    | plain c => simp [marked, ih]
    | quoted c => simp [marked, ih]
    | placeholder name =>
      simp [marked, ih]
      omega

/-- A scan in a name goes on like one outside names at the first character that ends the name. -/
theorem positionalFrom_name {d : Dialect} {n : Nat} {c : Char} {cs : List Char}
    (h : isNameChar c = false) :
    positionalFrom d .name n (c :: cs) = positionalFrom d .plain n (c :: cs) := by
  rw [positionalFrom.eq_def, positionalFrom.eq_def d .plain]
  simp [h]

/-- A scan from each kind of place writes what the reader reads from there on. In a name the mark
is written already. -/
theorem positionalFrom_eq (d : Dialect) (cs : List Char) :
    (∀ n, positionalFrom d .plain n cs = marked d n (Reading.plain.read cs)) ∧
    (∀ n q, isQuote q = true →
      positionalFrom d (.quoted q) n cs = marked d n ((Reading.quoted q).read cs)) ∧
    (∀ n name, marked d n ((Reading.name name).read cs) =
      ((d.mark n).toList ++ (positionalFrom d .name (n + 1) cs).1,
        (positionalFrom d .name (n + 1) cs).2)) := by
  induction h : cs.length using Nat.strongRecOn generalizing cs with
  | ind k ih =>
  subst h
  have plain : ∀ n, positionalFrom d .plain n cs = marked d n (Reading.plain.read cs) := by
    intro n
    cases cs with
    | nil => rfl
    | cons c cs =>
      obtain ⟨ihp, ihq, -⟩ := ih cs.length (by simp) cs rfl
      rw [positionalFrom.eq_def]
      by_cases hq : isQuote c = true
      · simp [Reading.read_plain_quote hq, hq, marked, ihq n c hq]
      rw [Bool.not_eq_true] at hq
      by_cases hc : c = ':'
      · subst hc
        rw [Reading.read_plain_colon]
        cases cs with
        | nil => simp [hq, Reading.last, marked]
        | cons c cs =>
          obtain ⟨ihp', -, ihn⟩ := ih cs.length (show cs.length < cs.length + 1 + 1 by omega) cs rfl
          by_cases hc : c = ':'
          · subst hc
            simp [Reading.read_colon_colon, hq, marked, ihp']
          by_cases hs : isNameStart c = true
          · simp [Reading.read_colon_name hs, hq, hc, hs, ihn]
          · rw [Bool.not_eq_true] at hs
            simp [Reading.read_colon_other hc hs, hq, hc, hs, marked, ihp]
      · simp [Reading.read_plain_other hq hc, hq, hc, marked, ihp]
  refine ⟨plain, ?_, ?_⟩
  · intro n q hq
    cases cs with
    | nil => rfl
    | cons c cs =>
      obtain ⟨ihp, ihq, -⟩ := ih cs.length (by simp) cs rfl
      rw [positionalFrom.eq_def]
      by_cases hc : c = q
      · subst hc
        rw [Reading.read_quoted_self]
        cases cs with
        | nil => simp [marked, Reading.last]
        | cons c' cs =>
          obtain ⟨-, ihq', -⟩ := ih cs.length (show cs.length < cs.length + 1 + 1 by omega) cs rfl
          by_cases hc' : c' = c
          · subst hc'
            simp [Reading.read_plain_quote hq, marked, ihq' n c' hq]
          · simp [hc', marked, ihp]
      · simp [Reading.read_quoted_other hc, hc, marked, ihq n q hq]
  · intro n name
    cases cs with
    | nil => simp [Reading.last, marked, positionalFrom]
    | cons c cs =>
      by_cases hc : isNameChar c = true
      · obtain ⟨-, -, ihn⟩ := ih cs.length (by simp) cs rfl
        rw [Reading.read_name_char hc, positionalFrom.eq_def]
        simp [hc, ihn]
      · rw [Bool.not_eq_true] at hc
        rw [Reading.read_name_other hc, positionalFrom_name hc, plain, marked]

theorem toPositional_snd (d : Dialect) (sql : String) :
    (toPositional d sql).2 = (placeholders sql).length := by
  have h := (positionalFrom_eq d sql.toList).1 0
  simp only [toPositional]
  rw [h, marked_snd, Nat.zero_add]
  rfl

/-! ## Question marks as positional marks -/

/-- Where marks are question marks, each placeholder adds one to those of the text itself. -/
theorem marksFrom_marked {d : Dialect} (hd : ∀ n, d.mark n = "?") (r : Reading) (cs : List Char)
    (n : Nat) : marksFrom r.quote? (marked d n (r.read cs)).1 =
      marksFrom r.quote? cs + ((r.read cs).filterMap Token.name?).length := by
  induction cs generalizing r n with
  | nil => cases r <;> simp [Reading.last, Reading.quote?, marked, marksFrom, hd]
  | cons c cs ih =>
    have ihp := ih .plain
    have ihc := ih .colon
    have ihq (q : Char) := ih (.quoted q)
    have ihn (name : List Char) := ih (.name name)
    simp only [Reading.quote?] at ihp ihc ihq ihn
    -- A colon or a name may end before `c`, which is then read as outside both.
    have plain : ∀ n, marksFrom none (marked d n (Reading.plain.read (c :: cs))).1 =
        marksFrom none (c :: cs) + ((Reading.plain.read (c :: cs)).filterMap Token.name?).length := by
      intro n
      by_cases hq : isQuote c = true
      · simp [Reading.read_plain_quote hq, marked, marksFrom, hq, ihq, Nat.add_assoc]
      rw [Bool.not_eq_true] at hq
      by_cases hc : c = ':'
      · subst hc
        simp [Reading.read_plain_colon, marksFrom, hq, ihc]
      · simp [Reading.read_plain_other hq hc, marked, marksFrom, hq, ihp, Nat.add_assoc]
    cases r with
    | plain => exact plain n
    | quoted q =>
      by_cases hc : c = q
      · subst hc
        simp [Reading.read_quoted_self, marked, marksFrom, Reading.quote?, ihp]
      · simp [Reading.read_quoted_other hc, marked, marksFrom, Reading.quote?, hc, ihq]
    | colon =>
      by_cases hc : c = ':'
      · subst hc
        simp [Reading.read_colon_colon, marked, marksFrom, Reading.quote?, isQuote, ihp]
      by_cases hs : isNameStart c = true
      · have hn := isNameChar_of_isNameStart hs
        simp [Reading.read_colon_name hs, marksFrom, Reading.quote?, isQuote_of_isNameChar hn,
          ne_mark_of_isNameChar hn, ihn]
      · rw [Bool.not_eq_true] at hs
        simpa [Reading.read_colon_other hc hs, marked, marksFrom, Reading.quote?, isQuote]
          using plain n
    | name name =>
      by_cases hn : isNameChar c = true
      · simp [Reading.read_name_char hn, marksFrom, Reading.quote?, isQuote_of_isNameChar hn,
          ne_mark_of_isNameChar hn, ihn]
      · rw [Bool.not_eq_true] at hn
        have hmark : marksFrom none ((d.mark n).toList ++
            (marked d (n + 1) (Reading.plain.read (c :: cs))).1) =
              1 + marksFrom none (marked d (n + 1) (Reading.plain.read (c :: cs))).1 := by
          simp [hd, marksFrom, isQuote]
        rw [Reading.read_name_other hn, marked, filterMap_name?_placeholder, List.length_cons]
        simp only [Reading.quote?]
        rw [hmark, plain (n + 1)]
        omega

/-- A sent statement has a question mark for each value, besides those of its own text. -/
theorem questionMarks_toPositional {d : Dialect} (hd : ∀ n, d.mark n = "?") (sql : String) :
    questionMarks (toPositional d sql).1 = questionMarks sql + (placeholders sql).length := by
  have h := marksFrom_marked hd .plain sql.toList 0
  rw [← (positionalFrom_eq d sql.toList).1 0] at h
  rw [questionMarks, toPositional, String.toList_ofList]
  exact h

/-- A statement goes into positional form when it has as many placeholders as values. -/
theorem positional_eq_ok {d : Dialect} {sql text : String} {values given : List Value} :
    positional d sql values = .ok (text, given) ↔
      (placeholders sql).length = values.length ∧ text = (toPositional d sql).1 ∧
        given = values := by
  have hcount := toPositional_snd d sql
  unfold positional checkParameterCount
  dsimp only
  rw [hcount]
  split
  · next h => simp [Except.map, h, eq_comm]
  · next h => simp [Except.map, h]

end RowMapper.Sql
