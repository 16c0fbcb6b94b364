import RowMapper.Proofs.Placeholder.Token
import RowMapper.Sql.Inline

/-! # Literals by tokens

Writing the values into a statement goes token by token, like replacing placeholders
by positional marks: every character outside a placeholder is copied, and each
placeholder gives way to a text of its own. That text is not read again, and when it
closes its quotes nothing after it is read in another way than before.
-/

namespace RowMapper.Sql

def Token.fill (text : List Char → List Char) : Token → List Char
  | .plain c => [c]
  | .quoted c => [c]
  | .placeholder name => text name

def filled (text : List Char → List Char) (ts : List Token) : List Char :=
  ts.flatMap (Token.fill text)

variable {text : List Char → List Char}

@[simp] theorem filled_nil : filled text [] = [] := rfl

@[simp] theorem filled_plain (c : Char) (ts : List Token) :
    filled text (.plain c :: ts) = c :: filled text ts := rfl

@[simp] theorem filled_quoted (c : Char) (ts : List Token) :
    filled text (.quoted c :: ts) = c :: filled text ts := rfl

@[simp] theorem filled_placeholder (name : List Char) (ts : List Token) :
    filled text (.placeholder name :: ts) = text name ++ filled text ts := rfl

theorem filled_append (ts us : List Token) :
    filled text (ts ++ us) = filled text ts ++ filled text us := by
  simp [filled]

theorem filled_congr {text' : List Char → List Char} {ts : List Token}
    (h : ∀ name, .placeholder name ∈ ts → text name = text' name) :
    filled text ts = filled text' ts := by
  rw [filled, filled, List.flatMap_def, List.flatMap_def]
  congr 1
  refine List.map_congr_left fun t ht => ?_
  cases t with
  | plain c => rfl
  | quoted c => rfl
  | placeholder name => exact h name ht

/-! ## Nothing is lost -/

namespace Reading

/-- The characters that the reader keeps for a token that has not ended. -/
def held : Reading → List Char
  | .plain => []
  | .quoted _ => []
  | .colon => [':']
  | .name read => ':' :: read

theorem filled_fresh (c : Char) : filled (':' :: ·) (fresh c).1 ++ (fresh c).2.held = [c] := by
  unfold fresh
  split
  · rfl
  · split
    · next hc => simp [held, hc]
    · rfl

theorem filled_step (r : Reading) (c : Char) :
    filled (':' :: ·) (r.step c).1 ++ (r.step c).2.held = r.held ++ [c] := by
  cases r with
  | plain => exact filled_fresh c
  | quoted q => by_cases hc : c = q <;> simp [step, held, hc]
  | colon =>
    simp only [step]
    split
    · next hc => simp [held, hc]
    · split
      · simp [held]
      · simpa [held] using filled_fresh c
  | name read =>
    simp only [step]
    split
    · simp [held]
    · simpa [held] using filled_fresh c

theorem filled_read (r : Reading) (cs : List Char) :
    filled (':' :: ·) (r.read cs) = r.held ++ cs := by
  induction cs generalizing r with
  | nil => cases r <;> simp [last, held]
  | cons c cs ih =>
    rw [read_cons, filled_append, ih, ← List.append_assoc, filled_step, List.append_assoc,
      List.singleton_append]

end Reading

theorem filled_tokens (cs : List Char) : filled (':' :: ·) (tokens cs) = cs :=
  Reading.filled_read .plain cs

/-! ## Values written in -/

/-- A name that is being read ends at the first character that is no name character. -/
theorem inlineFrom_name {d : Dialect} {values : List (String × Value)} {name : List Char} {c : Char}
    {cs : List Char} (hname : name ≠ []) (h : isNameChar c = false) :
    inlineFrom d values none name (c :: cs) =
      placeholderText d values name.reverse ++ inlineFrom d values none [] (c :: cs) := by
  rw [inlineFrom.eq_def, inlineFrom.eq_def d values none []]
  simp [h, hname]

/-- A scan from each kind of place writes what the reader reads from there on. -/
theorem inlineFrom_eq (d : Dialect) (values : List (String × Value)) (cs : List Char) :
    inlineFrom d values none [] cs = filled (placeholderText d values) (Reading.plain.read cs) ∧
    (∀ q, inlineFrom d values (some q) [] cs =
      filled (placeholderText d values) ((Reading.quoted q).read cs)) ∧
    (∀ name, name ≠ [] → inlineFrom d values none name cs =
      filled (placeholderText d values) ((Reading.name name.reverse).read cs)) := by
  induction h : cs.length using Nat.strongRecOn generalizing cs with
  | ind k ih =>
  subst h
  have plain : inlineFrom d values none [] cs =
      filled (placeholderText d values) (Reading.plain.read cs) := by
    cases cs with
    | nil => rfl
    | cons c cs =>
      obtain ⟨ihp, ihq, -⟩ := ih cs.length (by simp) cs rfl
      rw [inlineFrom.eq_def]
      by_cases hq : isQuote c = true
      · simp [Reading.read_plain_quote hq, hq, ihq]
      rw [Bool.not_eq_true] at hq
      by_cases hc : c = ':'
      · subst hc
        rw [Reading.read_plain_colon]
        cases cs with
        | nil => simp [hq, Reading.last]
        | cons c cs =>
          obtain ⟨ihp', -, ihn⟩ := ih cs.length (show cs.length < cs.length + 1 + 1 by omega) cs rfl
          by_cases hc : c = ':'
          · subst hc
            simp [Reading.read_colon_colon, hq, ihp']
          by_cases hs : isNameStart c = true
          · simp [Reading.read_colon_name hs, hq, hc, hs, ihn]
          · rw [Bool.not_eq_true] at hs
            simp [Reading.read_colon_other hc hs, hq, hc, hs, ihp]
      · simp [Reading.read_plain_other hq hc, hq, hc, ihp]
  refine ⟨plain, ?_, ?_⟩
  · intro q
    cases cs with
    | nil => rfl
    | cons c cs =>
      obtain ⟨ihp, ihq, -⟩ := ih cs.length (by simp) cs rfl
      rw [inlineFrom.eq_def]
      by_cases hc : c = q
      · subst hc
        simp [Reading.read_quoted_self, ihp]
      · simp [Reading.read_quoted_other hc, hc, ihq]
  · intro name hname
    cases cs with
    | nil =>
      cases name with
      | nil => exact absurd rfl hname
      | cons c name => simp [inlineFrom, Reading.last]
    | cons c cs =>
      by_cases hc : isNameChar c = true
      · obtain ⟨-, -, ihn⟩ := ih cs.length (by simp) cs rfl
        have hnext := ihn (c :: name) (List.cons_ne_nil _ _)
        rw [Reading.read_name_char hc, ← List.reverse_cons, ← hnext, inlineFrom.eq_def]
        simp [hc, hname]
      · rw [Bool.not_eq_true] at hc
        rw [Reading.read_name_other hc, inlineFrom_name hname hc, plain, filled_placeholder]

/-! ## The result read again -/

/-- A text for placeholders that closes its quotes and has no placeholder of its own. -/
def Settles (text : List Char → List Char) : Prop :=
  ∀ name, IsClosed (text name) ∧ (tokens (text name)).filterMap Token.name? = []

/-- Where such texts stand for the placeholders, no placeholder is left, nor does a new one arise
where a text meets its neighbours. -/
theorem Settles.read_filled (htext : Settles text) (r : Reading) (cs : List Char) :
    ((Reading.ofQuote r.quote?).read (filled text (r.read cs))).filterMap Token.name? = [] := by
  have settled : ∀ name rest, (Reading.plain.read (text name ++ rest)).filterMap Token.name? =
      (Reading.plain.read rest).filterMap Token.name? := by
    intro name rest
    have happend := @tokens_append_of_isClosed (text name) rest (htext name).1
    have hnone := (htext name).2
    simp only [tokens] at happend hnone
    rw [happend, List.filterMap_append, hnone, List.nil_append]
  induction cs generalizing r with
  | nil =>
    cases r with
    | plain => rfl
    | quoted q => rfl
    | colon => rfl
    | name read => simpa [Reading.last, Reading.ofQuote, Reading.quote?] using settled read []
  | cons c cs ih =>
    have ihp := ih .plain
    have ihc := ih .colon
    have ihq (q : Char) := ih (.quoted q)
    have ihn (name : List Char) := ih (.name name)
    simp only [Reading.quote?, Reading.ofQuote] at ihp ihc ihq ihn ⊢
    -- A colon or a name may end before `c`, which is then read as outside both.
    have plain : (Reading.plain.read (filled text (Reading.plain.read (c :: cs)))).filterMap
        Token.name? = [] := by
      by_cases hq : isQuote c = true
      · simp [Reading.read_plain_quote hq, ihq]
      rw [Bool.not_eq_true] at hq
      by_cases hc : c = ':'
      · subst hc
        simpa [Reading.read_plain_colon] using ihc
      · simp [Reading.read_plain_other hq hc, ihp]
    cases r with
    | plain => exact plain
    | quoted q =>
      by_cases hc : c = q
      · subst hc
        simp [Reading.read_quoted_self, ihp]
      · simp [Reading.read_quoted_other hc, ihq]
    | colon =>
      by_cases hc : c = ':'
      · subst hc
        simp [Reading.read_colon_colon, Reading.read_plain_colon, ihp]
      by_cases hs : isNameStart c = true
      · simpa [Reading.read_colon_name hs] using ihn [c]
      · rw [Bool.not_eq_true] at hs
        -- The character after the colon is written itself, so the colon starts nothing now either.
        have hhead : ∃ rest, filled text (Reading.plain.read (c :: cs)) = c :: rest := by
          by_cases hq : isQuote c = true
          · exact ⟨_, by rw [Reading.read_plain_quote hq, filled_quoted]⟩
          · rw [Bool.not_eq_true] at hq
            exact ⟨_, by rw [Reading.read_plain_other hq hc, filled_plain]⟩
        obtain ⟨rest, hrest⟩ := hhead
        rw [hrest] at plain
        rw [Reading.read_colon_other hc hs, filled_plain, Reading.read_plain_colon, hrest,
          Reading.read_colon_other hc hs, filterMap_name?_plain, plain]
    | name read =>
      by_cases hc : isNameChar c = true
      · simpa [Reading.read_name_char hc] using ihn (read ++ [c])
      · rw [Bool.not_eq_true] at hc
        rw [Reading.read_name_other hc, filled_placeholder, settled, plain]

end RowMapper.Sql
