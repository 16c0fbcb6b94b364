import RowMapper.Condition.Reader
import RowMapper.Proofs.Alias.Occurrence
import RowMapper.Proofs.Placeholder.Texts
import RowMapper.Proofs.Statement.BareNames
import RowMapper.Proofs.Text.Pieces
import RowMapper.Proofs.Value.WrittenIntegers
import RowMapper.Query.Basic

/-! # Bare comparisons read back

A column, a sign and a value with a blank between neighbours are read as the comparison that they
write: a quoted text as the text, digits as the integer. The value of a comparison is one line, so
a quoted text with a line feed makes the whole text SQL.
-/

namespace RowMapper.Condition

open Text Decimal Sql

variable {Query : Type}

/-! ## Written comparisons -/

inductive Sign where
  | equal
  | angled
  | bang
  | less
  | lessOrEqual
  | greater
  | greaterOrEqual
  deriving DecidableEq

namespace Sign

def text : Sign → String
  | equal => "="
  | angled => "<>"
  | bang => "!="
  | less => "<"
  | lessOrEqual => "<="
  | greater => ">"
  | greaterOrEqual => ">="

/-- A sign is cut off as a whole when a blank follows. -/
theorem cutSign_text (sign : Sign) (cs : List Char) :
    cutSign (sign.text.toList ++ ' ' :: cs) = some (sign.text, ' ' :: cs) := by
  cases sign <;> rfl

theorem exists_text (sign : Sign) :
    ∃ c cs, sign.text.toList = c :: cs ∧ isBlank c = false := by
  cases sign <;> exact ⟨_, _, rfl, by decide⟩

end Sign

/-- What is compared, and how: a plain column that does not announce SQL text, and a sign. -/
structure Compared where
  column : String
  sign : Sign
  isPlain : isPlainColumn column = true
  notRaw : isRawColumn column = false

/-- A text between single quotes, in which single quotes are doubled. -/
def quoted (s : String) : String := String.ofList (quoteChars '\'' s.toList)

namespace Compared

variable (c : Compared)

def text (operand : String) : String :=
  c.column ++ " " ++ c.sign.text ++ " " ++ operand

theorem exists_column : ∃ x xs, c.column.toList = x :: xs ∧ isNameStart x = true ∧
    ∀ y ∈ c.column.toList, isColumnChar y = true := by
  have hplain := c.isPlain
  unfold isPlainColumn at hplain
  split at hplain
  · cases hplain
  · next x xs hcolumn =>
    rw [Bool.and_eq_true, List.all_eq_true] at hplain
    refine ⟨x, xs, hcolumn, hplain.1, ?_⟩
    rw [hcolumn, List.forall_mem_cons]
    exact ⟨by rw [isColumnChar, isNameChar_of_isNameStart hplain.1]; rfl, hplain.2⟩

/-- The parts of a written comparison are found again, if the operand is one line. -/
theorem splitComparison_text {operand : String}
    (htrim : trimChars operand.toList = operand.toList) :
    splitComparison (c.text operand).toList =
      if operand.toList.contains '\n' then none
      else some (c.column, c.sign.text, operand.toList) := by
  obtain ⟨x, xs, hcolumn, hstart, hchars⟩ := c.exists_column
  obtain ⟨s, ss, hsign, hblank⟩ := c.sign.exists_text
  have htext : (c.text operand).toList =
      c.column.toList ++ ' ' :: (c.sign.text.toList ++ ' ' :: operand.toList) := by
    simp [text]
  have hfront : (c.text operand).toList.dropWhile isBlank = (c.text operand).toList := by
    have hx := isBlank_of_isNameChar (isNameChar_of_isNameStart hstart)
    rw [htext, hcolumn, List.cons_append, List.dropWhile_cons_of_neg (by simp [hx])]
  have htake : (c.text operand).toList.takeWhile isColumnChar = c.column.toList := by
    rw [htext, List.takeWhile_append_of_pos hchars, List.takeWhile_cons_of_neg (by decide),
      List.append_nil]
  have hdrop : ((c.text operand).toList.dropWhile isColumnChar).dropWhile isBlank =
      c.sign.text.toList ++ ' ' :: operand.toList := by
    rw [htext, List.dropWhile_append_of_pos hchars, List.dropWhile_cons_of_neg (by decide),
      List.dropWhile_cons_of_pos (by decide), hsign, List.cons_append,
      List.dropWhile_cons_of_neg (by simp [hblank])]
  have hhead : ((c.column.toList.head?).map isNameStart).getD false = true := by
    rw [hcolumn, List.head?_cons, Option.map_some, Option.getD_some, hstart]
  unfold splitComparison
  simp only [hfront, htake, hdrop, hhead, if_true, c.sign.cutSign_text]
  rw [trimChars_cons (by decide), htrim, String.ofList_toList]

theorem parseText_text {operand : String} (htrim : trimChars operand.toList = operand.toList) :
    (parseText (c.text operand) : Condition Query) =
      if operand.toList.contains '\n' then rawText (c.text operand)
      else compare c.column c.sign.text (readOperand operand.toList) := by
  rw [parseText, c.splitComparison_text htrim]
  split
  · next hnone =>
    split at hnone
    · next hline => rw [if_pos hline]
    · cases hnone
  · next hsome =>
    split at hsome
    · cases hsome
    · next hline =>
      cases hsome
      rw [if_neg hline, c.notRaw]
      rfl

end Compared

/-! ## Quoted operands -/

theorem undouble_other {c q : Char} (h : c ≠ q) (cs : List Char) :
    undouble q (c :: cs) = c :: undouble q cs := by
  cases cs with
  | nil => rfl
  | cons d cs => rw [undouble, if_neg fun hq => h hq.1]

theorem undouble_doubled (q : Char) (cs : List Char) : undouble q (doubled q cs) = cs := by
  induction cs with
  | nil => rfl
  | cons c cs ih =>
    by_cases hc : c = q
    · subst hc
      rw [doubled_self, undouble, if_pos ⟨rfl, rfl⟩, ih]
    · rw [doubled_other hc, undouble_other hc, ih]

theorem mem_doubled {c q : Char} (h : c ≠ q) (cs : List Char) : c ∈ doubled q cs ↔ c ∈ cs := by
  induction cs with
  | nil => rfl
  | cons d cs ih =>
    by_cases hd : d = q
    · subst hd
      simp [doubled_self, h, ih]
    · simp [doubled_other hd, ih]

theorem unquote?_quoteChars (q : Char) (cs : List Char) :
    unquote? q (quoteChars q cs) = some cs := by
  have hquotes : (decide (2 ≤ (quoteChars q cs).length) && (quoteChars q cs).head? = some q &&
      (quoteChars q cs).getLast? = some q) = true := by
    rw [quoteChars, List.getLast?_concat]
    simp
  have hinner : ((quoteChars q cs).drop 1).dropLast = doubled q cs := by
    simp [quoteChars]
  rw [unquote?, if_pos hquotes, hinner, undouble_doubled]

theorem unquote?_eq_none {q c : Char} (h : c ≠ q) (cs : List Char) :
    unquote? q (c :: cs) = none := by
  simp [unquote?, h]

/-- A text that does not begin as the word does is not null. -/
theorem sameIgnoringAsciiCase_null {c : Char} (h : c.toLower ≠ 'n') (cs : List Char) :
    sameIgnoringAsciiCase (String.ofList (c :: cs)) "null" = false := by
  rw [sameIgnoringAsciiCase, beq_eq_false_iff_ne]
  intro heq
  have hchars := congrArg String.toList heq
  simp only [lowerAscii, String.toList_ofList, List.map_cons] at hchars
  exact h (List.cons.inj hchars).1

theorem readOperand_quoted (s : String) : readOperand (quoted s).toList = .value (.text s) := by
  have hnull := sameIgnoringAsciiCase_null (c := '\'') (by decide)
    (doubled '\'' s.toList ++ ['\''])
  rw [quoted, String.toList_ofList, readOperand, unquote?_quoteChars]
  simp only [quoteChars, List.cons_append, hnull, Bool.false_eq_true, if_false,
    String.ofList_toList]

theorem trimChars_quoted (s : String) : trimChars (quoted s).toList = (quoted s).toList := by
  rw [quoted, String.toList_ofList]
  exact trimChars_eq_self_of_ends (by decide) (by decide) _

theorem mem_quoted (s : String) : '\n' ∈ (quoted s).toList ↔ '\n' ∈ s.toList := by
  rw [quoted, String.toList_ofList, quoteChars, List.mem_append, List.mem_cons,
    mem_doubled (by decide)]
  simp

/-! ## Integers as operands -/

theorem exists_chars (w : WrittenInteger) : ∃ c cs, w.chars = c :: cs ∧
    (c.isDigit = true ∨ c = '+' ∨ c = '-') := by
  cases hsign : w.sign with
  | none =>
    obtain ⟨c, cs, hbody, hc⟩ := w.exists_body
    refine ⟨c, cs, ?_, .inl hc⟩
    rw [WrittenInteger.chars, hsign, hbody]
    rfl
  | plus => exact ⟨'+', _, by rw [WrittenInteger.chars, hsign]; rfl, .inr (.inl rfl)⟩
  | minus => exact ⟨'-', _, by rw [WrittenInteger.chars, hsign]; rfl, .inr (.inr rfl)⟩

theorem not_mem_chars (w : WrittenInteger) : '\n' ∉ w.chars := by
  intro hmem
  rcases List.mem_append.1 hmem with hsign | hbody
  · cases hw : w.sign <;> rw [hw] at hsign <;> exact absurd hsign (by decide)
  · rcases w.isDigit_or_of_mem_body hbody with hdigit | hpoint
    · exact absurd hdigit (by decide)
    · exact absurd hpoint (by decide)

theorem readOperand_chars (w : WrittenInteger) (hpoint : w.zeros = none)
    (hfits : fitsInt64 w.value = true) : readOperand w.chars = .value (Value.ofInt w.value) := by
  obtain ⟨c, cs, hchars, hc⟩ := exists_chars w
  have hfirst : c.toLower ≠ 'n' ∧ c ≠ '\'' ∧ c ≠ '"' := by
    have hascii : c.toNat < 128 := by
      rcases hc with hc | rfl | rfl
      · exact Nat.lt_of_le_of_lt (Char.isDigit_iff_toNat.1 hc).2 (by decide)
      · decide
      · decide
    exact forall_ascii (P := fun c => c.isDigit = true ∨ c = '+' ∨ c = '-' →
      c.toLower ≠ 'n' ∧ c ≠ '\'' ∧ c ≠ '"') (by decide +kernel) hascii hc
  have hread : readInt64 w.chars = some w.value := by
    rw [readInt64, w.readInt_chars, hpoint, Option.isNone_none, if_pos rfl, Option.filter_some,
      hfits]
    rfl
  rw [readOperand, hread, hchars, sameIgnoringAsciiCase_null hfirst.1, unquote?_eq_none hfirst.2.1,
    unquote?_eq_none hfirst.2.2]
  rfl

def writtenInt : Int → WrittenInteger
  | .ofNat n => .ofNat .none n none
  | .negSucc n => .ofNat .minus (n + 1) none

theorem zeros_writtenInt (n : Int) : (writtenInt n).zeros = none := by
  cases n <;> rfl

theorem chars_writtenInt (n : Int) : (writtenInt n).chars = (toString n).toList := by
  have hnat (n : Nat) : (toString n).toList = Nat.toDigits 10 n := by
    rw [Nat.toString_eq_repr, Nat.toList_repr]
  cases n with
  | ofNat n =>
    have htext : toString (Int.ofNat n) = toString n := rfl
    rw [htext, hnat]
    exact List.append_nil _
  | negSucc n =>
    have htext : toString (Int.negSucc n) = "-" ++ toString (n + 1) := rfl
    rw [htext, String.toList_append, hnat]
    exact congrArg ('-' :: ·) (List.append_nil _)

theorem value_writtenInt (n : Int) : (writtenInt n).value = n := by
  cases n with
  | ofNat n => exact congrArg Int.ofNat (Nat.ofDigitChars_ten_toDigits)
  | negSucc n => exact congrArg (fun m : Nat => -(m : Int)) (Nat.ofDigitChars_ten_toDigits)

theorem readOperand_int64 (n : Int64) :
    readOperand (toString n.toInt).toList = .value (.int64 n) := by
  have hfits : fitsInt64 (writtenInt n.toInt).value = true := by
    rw [value_writtenInt, fitsInt64_iff]
    exact ⟨Int64.le_toInt n, Int64.toInt_le n⟩
  rw [← chars_writtenInt, readOperand_chars _ (zeros_writtenInt _) hfits, value_writtenInt,
    Value.ofInt, Int64.ofInt_toInt]

namespace Compared

variable (c : Compared)

/-- A bare comparison is read back whatever its column, its sign and its integer are. With a text
it is read back just when the text is one line, and is SQL otherwise. -/
theorem parseText_comparison :
    (∀ s, ((parseText (c.text (quoted s)) : Condition Query) =
        compare c.column c.sign.text (.value (.text s)) ↔ '\n' ∉ s.toList) ∧
      ('\n' ∈ s.toList → (parseText (c.text (quoted s)) : Condition Query) =
        rawText (c.text (quoted s)))) ∧
    ∀ n : Int64, (parseText (c.text (toString n.toInt)) : Condition Query) =
      compare c.column c.sign.text (.value (.int64 n)) := by
  refine ⟨fun s => ?_, fun n => ?_⟩
  · have hparse : (parseText (c.text (quoted s)) : Condition Query) = _ :=
      c.parseText_text (trimChars_quoted s)
    rw [readOperand_quoted] at hparse
    by_cases hline : '\n' ∈ s.toList
    · have hmem : (quoted s).toList.contains '\n' = true := by simpa using (mem_quoted s).2 hline
      rw [hparse, if_pos hmem]
      exact ⟨iff_of_false nofun (not_not_intro hline), fun _ => rfl⟩
    · have hmem : ¬(quoted s).toList.contains '\n' = true := by
        simpa using mt (mem_quoted s).1 hline
      rw [hparse, if_neg hmem]
      exact ⟨iff_of_true rfl hline, fun h => absurd h hline⟩
  · have htrim : trimChars (toString n.toInt).toList = (toString n.toInt).toList := by
      rw [← chars_writtenInt, WrittenInteger.trimChars_chars]
    have hline : ¬(toString n.toInt).toList.contains '\n' = true := by
      rw [← chars_writtenInt]
      simpa using not_mem_chars (writtenInt n.toInt)
    rw [c.parseText_text htrim, if_neg hline, readOperand_int64]

/-- A sign that begins as a shorter one does, and a column with a dot. -/
def userSample : Compared where
  column := "user.name"
  sign := .lessOrEqual
  isPlain := by decide
  notRaw := by decide

/-- A line feed between the quotes: what is read holds no value, only text. -/
theorem userSample_twoLines : userSample.text (quoted "O'Brien\nDublin") =
      "user.name <= 'O''Brien\nDublin'" ∧
    (parseText (userSample.text (quoted "O'Brien\nDublin")) : Condition RowMapper.Query) =
      .raw "user.name <= 'O''Brien\nDublin'" [] .and :=
  ⟨by decide, rfl⟩

end Compared

end RowMapper.Condition
