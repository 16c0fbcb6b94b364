import RowMapper.Schema.SqlType
import RowMapper.Proofs.Calendar.WrittenItems
import RowMapper.Proofs.Text.Lowering
import RowMapper.Proofs.Text.Pieces

/-! # The numbers of a declaration

A declaration of a decimal or of a text of bounded length states its numbers in parentheses. They
are the numbers of the type just when each of them is written in digits and is in range: a byte
for precision and scale, 32 bits for a length. Past 32 bits, or not in digits, a number is passed
over and another one or a default stands for it; between a byte and 32 bits its low byte does.
-/

namespace RowMapper

open Text Decimal

/-! ## Declarations -/

inductive SizedName where
  | decimal
  | numeric
  | char
  | varchar
  | characterVarying
  deriving DecidableEq

namespace SizedName

def text : SizedName → String
  | decimal => "decimal"
  | numeric => "numeric"
  | char => "char"
  | varchar => "varchar"
  | characterVarying => "character varying"

def limit : SizedName → Nat
  | decimal | numeric => 2 ^ 8
  | char | varchar | characterVarying => 2 ^ 32

def Declares : SizedName → SqlType → Prop
  | decimal, .decimal _ _ => True
  | numeric, .decimal _ _ => True
  | char, .char _ => True
  | varchar, .varchar _ => True
  | characterVarying, .varchar _ => True
  | _, _ => False

def typeOf (name : SizedName) (numbers : List UInt32) : SqlType :=
  match name with
  | decimal | numeric =>
    .decimal (numbers.head?.getD 10).toUInt8 (numbers.tail.head?.getD 0).toUInt8
  | char => .char (numbers.head?.getD 1)
  | varchar | characterVarying => .varchar (numbers.head?.getD 255)

theorem declares_typeOf (name : SizedName) (numbers : List UInt32) :
    name.Declares (name.typeOf numbers) := by
  cases name <;> trivial

theorem exists_text (name : SizedName) :
    ∃ c cs, name.text.toList = c :: cs ∧ isBlank c = false := by
  cases name <;> exact ⟨_, _, rfl, by decide⟩

theorem toNat_lt_of_mem_text {name : SizedName} {c : Char} (h : c ∈ name.text.toList) :
    c.toNat < 128 := by
  have hnames : ∀ c ∈ name.text.toList, c.toNat < 128 := by
    cases name <;> simp [text]
  exact hnames c h

theorem not_mem_text (name : SizedName) : '(' ∉ name.text.toList := by
  cases name <;> decide

end SizedName

/-- The numbers of a type: precision and scale, or a length. -/
def SqlType.sizes : SqlType → List Nat
  | .decimal precision scale => [precision.toNat, scale.toNat]
  | .char length => [length.toNat]
  | .varchar length => [length.toNat]
  | _ => []

theorem SizedName.Declares.lt_limit {name : SizedName} {t : SqlType} (h : name.Declares t) :
    ∀ n ∈ t.sizes, n < name.limit := by
  intro n hn
  cases name <;> cases t <;> try exact h.elim
  all_goals simp only [SqlType.sizes, List.mem_cons, List.not_mem_nil, or_false] at hn
  · rcases hn with rfl | rfl <;> exact UInt8.toNat_lt _
  · rcases hn with rfl | rfl <;> exact UInt8.toNat_lt _
  all_goals exact hn ▸ UInt32.toNat_lt _

/-- The number that is written: digits between blanks, with or without a plus. -/
def writtenNumber (argument : List Char) : Option Nat :=
  match trimChars argument with
  | '+' :: cs => readNat cs
  | cs => readNat cs

theorem readNat_eq_none {cs : List Char} (h : ∃ c ∈ cs, c.isDigit = false) : readNat cs = none := by
  have hall : cs.all Char.isDigit = false := by simpa using h
  rw [readNat, hall, Bool.and_false]
  rfl

theorem writtenNumber_eq_none {argument : List Char} (h : ∃ c ∈ argument, isMark c = false) :
    writtenNumber argument = none := by
  obtain ⟨c, hc, hmark⟩ := h
  simp only [isMark, Bool.or_eq_false_iff, beq_eq_false_iff_ne] at hmark
  obtain ⟨⟨⟨⟨⟨hblank, hdigit⟩, hplus⟩, -⟩, -⟩, -⟩ := hmark
  have hmem : c ∈ trimChars argument := mem_trimChars hc hblank
  rw [writtenNumber]
  split
  · next cs heq =>
    rw [heq] at hmem
    exact readNat_eq_none ⟨c, (List.mem_cons.1 hmem).resolve_left hplus, hdigit⟩
  · exact readNat_eq_none ⟨c, hmem, hdigit⟩

theorem writtenNumber_toDigits (n : Nat) : writtenNumber (Nat.toDigits 10 n) = some n := by
  have hdigit : ∀ c ∈ Nat.toDigits 10 n, c.isDigit = true := fun c hc =>
    Nat.isDigit_of_mem_toDigits (by decide) (by decide) hc
  have hread : readNat (Nat.toDigits 10 n) = some n := by
    have hall : (Nat.toDigits 10 n).all Char.isDigit = true := List.all_eq_true.2 hdigit
    have hne : (!(Nat.toDigits 10 n).isEmpty) = true := by simp [Nat.toDigits_ne_nil]
    rw [readNat, hall, hne, Calendar.foldDigits_eq_ofDigitChars, Nat.ofDigitChars_ten_toDigits]
    rfl
  rw [writtenNumber, trimChars_eq_self fun c hc => Calendar.isBlank_of_isDigit (hdigit c hc)]
  split
  · next cs heq =>
    have hplus := hdigit '+' (heq ▸ List.mem_cons_self)
    exact absurd hplus (by decide)
  · exact hread

/-- The name of a type in any case, and its arguments in parentheses, with any blanks. -/
structure Declaration where
  name : SizedName
  before : List Char
  letters : List Char
  between : List Char
  first : List Char
  rest : List (List Char)
  after : List Char
  isBlank_before : ∀ c ∈ before, isBlank c = true
  isBlank_between : ∀ c ∈ between, isBlank c = true
  isBlank_after : ∀ c ∈ after, isBlank c = true
  map_toLower_letters : letters.map Char.toLower = name.text.toList
  not_separator : ∀ argument ∈ first :: rest, ',' ∉ argument ∧ ')' ∉ argument

namespace Declaration

def arguments (d : Declaration) : List Char :=
  [','].intercalate (d.first :: d.rest)

def core (d : Declaration) : List Char :=
  d.letters ++ d.between ++ '(' :: (d.arguments ++ [')'])

def text (d : Declaration) : String :=
  String.ofList (d.before ++ d.core ++ d.after)

/-- The numbers that the declaration states: precision and scale, which is 0 when it is not there,
or the length. -/
def stated (d : Declaration) : List (Option Nat) :=
  match d.name with
  | .decimal | .numeric =>
    [writtenNumber d.first, d.rest.head?.elim (some 0) writtenNumber]
  | .char | .varchar | .characterVarying => [writtenNumber d.first]

def ofNumbers (name : SizedName) (first : Nat) (rest : List Nat) : Declaration where
  name := name
  before := []
  letters := name.text.toList
  between := []
  first := Nat.toDigits 10 first
  rest := rest.map (Nat.toDigits 10)
  after := []
  isBlank_before := by simp
  isBlank_between := by simp
  isBlank_after := by simp
  map_toLower_letters := by cases name <;> decide
  not_separator := by
    have hdigits {n : Nat} {c : Char} (hc : c.isDigit = false) : c ∉ Nat.toDigits 10 n := by
      intro hmem
      rw [Nat.isDigit_of_mem_toDigits (by decide) (by decide) hmem] at hc
      cases hc
    intro argument hargument
    rw [← List.map_cons (f := Nat.toDigits 10), List.mem_map] at hargument
    obtain ⟨n, -, rfl⟩ := hargument
    exact ⟨hdigits (by decide), hdigits (by decide)⟩

theorem stated_ofNumbers (name : SizedName) (first : Nat) (rest : List Nat) :
    (ofNumbers name first rest).stated = match name with
      | .decimal | .numeric => [some first, some (rest.head?.getD 0)]
      | .char | .varchar | .characterVarying => [some first] := by
  have hscale : ((rest.map (Nat.toDigits 10)).head?).elim (some 0) writtenNumber =
      some (rest.head?.getD 0) := by
    cases rest with
    | nil => rfl
    | cons second rest => exact writtenNumber_toDigits second
  cases name <;> simp only [stated, ofNumbers, writtenNumber_toDigits, hscale]

variable (d : Declaration)

/-! ## Trimming and lower-casing -/

theorem toNat_lt_of_mem_letters {c : Char} (h : c ∈ d.letters) : c.toNat < 128 := by
  have hlower : c.toLower ∈ d.name.text.toList :=
    d.map_toLower_letters ▸ List.mem_map_of_mem h
  have hsmall := SizedName.toNat_lt_of_mem_text hlower
  by_contra hlarge
  rw [toLower_of_not_ascii (by omega)] at hsmall
  exact hlarge hsmall

theorem trimChars_text : trimChars d.text.toList = d.core := by
  obtain ⟨x, xs, htext, hx⟩ := d.name.exists_text
  have hletters := d.map_toLower_letters
  rw [htext] at hletters
  obtain ⟨c, cs, hc, hlower, -⟩ := List.map_eq_cons_iff.1 hletters
  have hblank : isBlank c = false := isBlank_of_isBlank_toLower (by rw [hlower, hx])
  rw [text, String.toList_ofList, trimChars_append d.isBlank_before d.isBlank_after]
  have hcore : d.core = c :: (cs ++ d.between ++ '(' :: d.arguments) ++ [')'] := by
    rw [core, hc]
    simp
  rw [hcore, trimChars_eq_self_of_ends hblank (by decide)]

/-- Lower-casing keeps the numbers that are written, and makes none. -/
theorem writtenNumber_of_lowers {cs ds : List Char} (h : Lowers cs ds) :
    writtenNumber ds = writtenNumber cs := by
  by_cases hmarks : ∀ c ∈ cs, isMark c = true
  · rw [h.eq_of_marks hmarks]
  · have hcs : ∃ c ∈ cs, isMark c = false := by simpa using hmarks
    rw [writtenNumber_eq_none hcs, writtenNumber_eq_none (h.exists_not_mark hcs)]

/-- A lower-cased list has its arguments lower-cased. -/
theorem exists_of_lowers_intercalate {arguments : List (List Char)} {ds : List Char}
    (h : Lowers ([','].intercalate arguments) ds) :
    ∃ lowered, ds = [','].intercalate lowered ∧ List.Forall₂ Lowers arguments lowered := by
  induction arguments generalizing ds with
  | nil =>
    cases h
    exact ⟨[], rfl, .nil⟩
  | cons argument arguments ih =>
    cases arguments with
    | nil =>
      rw [List.intercalate_singleton] at h
      exact ⟨[ds], List.intercalate_singleton.symm, .cons h .nil⟩
    | cons next rest =>
      rw [List.intercalate_cons_cons, List.append_assoc] at h
      obtain ⟨xs, ys, rfl, hargument, hys⟩ := h.of_append
      obtain ⟨zs, rfl, hrest⟩ := hys.of_mark (by decide)
      obtain ⟨lowered, rfl, hlowered⟩ := ih hrest
      refine ⟨xs :: lowered, ?_, .cons hargument hlowered⟩
      have hne : lowered ≠ [] := by
        rintro rfl
        cases hlowered
      obtain ⟨d, ds, rfl⟩ := List.exists_cons_of_ne_nil hne
      rw [List.intercalate_cons_cons, List.append_assoc, List.singleton_append]

theorem map_writtenNumber_of_lowers {arguments lowered : List (List Char)}
    (h : List.Forall₂ Lowers arguments lowered) :
    lowered.map writtenNumber = arguments.map writtenNumber := by
  induction h with
  | nil => rfl
  | cons hargument _ ih => rw [List.map_cons, List.map_cons, writtenNumber_of_lowers hargument, ih]

theorem not_mem_of_lowers {m : Char} (hm : isMark m = true) {arguments lowered : List (List Char)}
    (h : List.Forall₂ Lowers arguments lowered) (hnot : ∀ argument ∈ arguments, m ∉ argument) :
    ∀ argument ∈ lowered, m ∉ argument := by
  induction h with
  | nil => simp
  | cons hargument _ ih =>
    rw [List.forall_mem_cons] at hnot ⊢
    exact ⟨fun hmem => hnot.1 (hargument.mem_of_isMark hm hmem), ih hnot.2⟩

/-- Between the parentheses of the lower-cased declaration stand the lower-cased arguments. -/
theorem exists_lower_core : ∃ lowered, List.Forall₂ Lowers (d.first :: d.rest) lowered ∧
    lowerChars [] d.core =
      d.name.text.toList ++ d.between ++ '(' :: ([','].intercalate lowered ++ [')']) := by
  have hcore := lowers_lowerChars [] d.core
  rw [core] at hcore
  obtain ⟨xs, ys, hsplit, hxs, hys⟩ := hcore.of_append
  obtain ⟨letters, between, rfl, hletters, hbetween⟩ := hxs.of_append
  obtain ⟨zs, rfl, hzs⟩ := hys.of_mark (by decide)
  obtain ⟨arguments, close, rfl, harguments, hclose⟩ := hzs.of_append
  obtain ⟨lowered, rfl, hlowered⟩ := exists_of_lowers_intercalate harguments
  have hmarks : ∀ c ∈ d.between, isMark c = true := fun c hc => by
    rw [isMark, d.isBlank_between c hc]
    rfl
  have hend : close = [')'] := hclose.eq_of_marks (List.forall_mem_singleton.2 (by decide))
  rw [hletters.eq_map_of_ascii fun _ => d.toNat_lt_of_mem_letters, d.map_toLower_letters,
    hbetween.eq_of_marks hmarks, hend] at hsplit
  exact ⟨lowered, hlowered, hsplit⟩

/-! ## Reading -/

def narrow (number : Option Nat) : Option UInt32 :=
  (number.filter (· < Nat.pow 2 32)).map UInt32.ofNat

theorem readArguments_eq (cs : List Char) : SqlType.readArguments (trimChars cs) =
    ((splitChars ',' cs).map writtenNumber).filterMap narrow := by
  have hread (cs : List Char) : SqlType.readArguments cs =
      ((splitChars ',' cs).map trimChars).filterMap SqlType.readUInt32 := by
    rw [SqlType.readArguments, List.filterMap_map]
    rfl
  rw [hread, map_trimChars_splitChars_trimChars (by decide), List.filterMap_map,
    List.filterMap_map]
  rfl

theorem splitDeclaration_text : SqlType.splitDeclaration (lower (trim d.text)).toList =
    (d.name.text.toList, ((d.first :: d.rest).map writtenNumber).filterMap narrow) := by
  obtain ⟨lowered, hlowered, hcore⟩ := d.exists_lower_core
  have htext : (lower (trim d.text)).toList =
      d.name.text.toList ++ d.between ++ '(' :: ([','].intercalate lowered ++ [')']) := by
    rw [lower, String.toList_ofList, toList_trim, d.trimChars_text, hcore]
  have hbase : '(' ∉ d.name.text.toList ++ d.between := by
    rw [List.mem_append, not_or]
    refine ⟨d.name.not_mem_text, fun hmem => ?_⟩
    exact absurd (d.isBlank_between _ hmem) (by decide)
  have hname : trimChars (d.name.text.toList ++ d.between) = d.name.text.toList := by
    rw [← List.nil_append (d.name.text.toList ++ _), ← List.append_assoc,
      trimChars_append (by simp) d.isBlank_between]
    cases d.name <;> decide
  have hcomma := not_mem_of_lowers (m := ',') (by decide) hlowered fun a ha =>
    (d.not_separator a ha).1
  have hparenthesis := not_mem_of_lowers (m := ')') (by decide) hlowered fun a ha =>
    (d.not_separator a ha).2
  have hclose : (([','].intercalate lowered ++ [')']).reverse.dropWhile (· == ')')).reverse =
      [','].intercalate lowered := by
    refine dropWhile_reverse_concat fun hmem => ?_
    rcases mem_intercalate hmem with h | ⟨argument, hargument, hmem⟩
    · exact absurd h (by decide)
    · exact hparenthesis argument hargument hmem
  have hne : lowered ≠ [] := by
    rintro rfl
    cases hlowered
  rw [htext, SqlType.splitDeclaration, breakPhrase_first hbase]
  dsimp only
  rw [hname, hclose, readArguments_eq, splitChars_intercalate hne hcomma,
    map_writtenNumber_of_lowers hlowered]

def kept : List UInt32 := ((d.first :: d.rest).map writtenNumber).filterMap narrow

theorem parse_text : SqlType.parse d.text = .ok (d.name.typeOf d.kept) := by
  rw [SqlType.parse, d.splitDeclaration_text]
  dsimp only
  rw [String.ofList_toList, ← kept]
  cases d.name <;> simp [SizedName.text, SizedName.typeOf]

theorem narrow_of_lt {n : Nat} (h : n < 2 ^ 32) : narrow (some n) = some (UInt32.ofNat n) := by
  have hlt : decide (n < Nat.pow 2 32) = true := decide_eq_true h
  rw [narrow, Option.filter_some, hlt]
  rfl

theorem kept_of_first {n : Nat} (hfirst : writtenNumber d.first = some n) (h : n < 2 ^ 32) :
    d.kept = UInt32.ofNat n :: (d.rest.map writtenNumber).filterMap narrow := by
  rw [kept, List.map_cons, hfirst, List.filterMap_cons_some (narrow_of_lt h)]

theorem toNat_toUInt8_ofNat {n : Nat} (h : n < 2 ^ 8) : (UInt32.ofNat n).toUInt8.toNat = n := by
  have hword : n < UInt32.size := Nat.lt_trans h (by decide)
  rw [UInt32.toNat_toUInt8, UInt32.toNat_ofNat_of_lt' hword, Nat.mod_eq_of_lt h]

theorem head?_kept_rest {n : Nat} (h : d.rest.head?.elim (some 0) writtenNumber = some n)
    (hn : n < 2 ^ 32) :
    ((d.rest.map writtenNumber).filterMap narrow).head?.getD 0 = UInt32.ofNat n := by
  cases hrest : d.rest with
  | nil =>
    rw [hrest] at h
    cases h
    rfl
  | cons second rest =>
    rw [hrest] at h
    rw [List.map_cons, show writtenNumber second = some n from h,
      List.filterMap_cons_some (narrow_of_lt hn)]
    rfl

theorem sizes_typeOf (h : ∀ size ∈ d.stated, ∃ n < d.name.limit, size = some n) :
    (d.name.typeOf d.kept).sizes.map some = d.stated := by
  have hdecimal {precision scale : Option Nat}
      (hstated : ∀ size ∈ [precision, scale], ∃ n < 2 ^ 8, size = some n)
      (hprecision : writtenNumber d.first = precision)
      (hscale : d.rest.head?.elim (some 0) writtenNumber = scale) :
      (SqlType.decimal (d.kept.head?.getD 10).toUInt8
        (d.kept.tail.head?.getD 0).toUInt8).sizes.map some = [precision, scale] := by
    obtain ⟨p, hp, rfl⟩ := hstated _ List.mem_cons_self
    obtain ⟨s, hs, rfl⟩ := hstated _ (List.mem_cons_of_mem _ List.mem_cons_self)
    rw [d.kept_of_first hprecision (by omega), List.tail_cons, d.head?_kept_rest hscale (by omega),
      List.head?_cons, Option.getD_some, SqlType.sizes, toNat_toUInt8_ofNat hp,
      toNat_toUInt8_ofNat hs, List.map_cons, List.map_singleton]
  have hlength {length : Option Nat} (hstated : ∀ size ∈ [length], ∃ n < 2 ^ 32, size = some n)
      (hfirst : writtenNumber d.first = length) (default : UInt32) :
      [some (d.kept.head?.getD default).toNat] = [length] := by
    obtain ⟨n, hn, rfl⟩ := hstated _ List.mem_cons_self
    rw [d.kept_of_first hfirst hn, List.head?_cons, Option.getD_some, UInt32.toNat_ofNat_of_lt' hn]
  unfold stated at h ⊢
  cases hname : d.name <;> simp only [hname] at h ⊢
  · exact hdecimal h rfl rfl
  · exact hdecimal h rfl rfl
  · exact hlength h rfl 1
  · exact hlength h rfl 255
  · exact hlength h rfl 255

/-- Every declaration of these types is read as one of them. Its numbers are those that are stated
just when each is written in digits and is in range. -/
theorem parse_keeps_stated_iff : ∃ t, SqlType.parse d.text = .ok t ∧ d.name.Declares t ∧
    (t.sizes.map some = d.stated ↔ ∀ size ∈ d.stated, ∃ n < d.name.limit, size = some n) := by
  refine ⟨_, d.parse_text, d.name.declares_typeOf _, fun h size hsize => ?_, d.sizes_typeOf⟩
  rw [← h, List.mem_map] at hsize
  obtain ⟨n, hn, rfl⟩ := hsize
  exact ⟨n, (d.name.declares_typeOf _).lt_limit n hn, rfl⟩

def wideDecimal : Declaration := ofNumbers .decimal 300 [2]

def longDecimal : Declaration := ofNumbers .decimal 4294967296 [2]

def longVarchar : Declaration := ofNumbers .varchar 4294967296 []

/-- The low byte stands for the one number, the scale or a default for the others. -/
theorem wideDecimal_narrowed :
    (wideDecimal.text = "decimal(300,2)" ∧ wideDecimal.stated = [some 300, some 2] ∧
      SqlType.parse wideDecimal.text = .ok (.decimal 44 2)) ∧
    (longDecimal.text = "decimal(4294967296,2)" ∧ longDecimal.stated = [some 4294967296, some 2] ∧
      SqlType.parse longDecimal.text = .ok (.decimal 2 0)) ∧
    (longVarchar.text = "varchar(4294967296)" ∧ longVarchar.stated = [some 4294967296] ∧
      SqlType.parse longVarchar.text = .ok (.varchar 255)) :=
  ⟨⟨by decide, stated_ofNumbers .decimal 300 [2], rfl⟩,
    ⟨by decide, stated_ofNumbers .decimal 4294967296 [2], rfl⟩,
    by decide, stated_ofNumbers .varchar 4294967296 [], rfl⟩

end Declaration

end RowMapper
