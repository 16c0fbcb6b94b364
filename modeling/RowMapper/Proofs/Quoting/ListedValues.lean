import RowMapper.Proofs.Calendar.WrittenItems
import RowMapper.Proofs.Parameter.Fragments
import RowMapper.Proofs.Quoting.Literals
import RowMapper.Proofs.Record.KeySpelling
import RowMapper.Proofs.Relation.LinkChanges

/-! # Values in a list

A membership in a list has the values in its text, or it binds them. A bound list hands over the
values themselves. A list in the text has their displayed texts, and values that are displayed
alike are one and the same there: byte strings of one length, timestamps of one second, and a
leap second and the second of its number. All other texts, UUIDs, integers, dates and times are
told apart.
-/

namespace RowMapper

namespace Uuid

theorem hexDigit_ne_hyphen : ∀ n < 16, Text.hexDigit n ≠ '-' := by decide

theorem ne_hyphen_of_mem_hexChars {c : Char} {n count : Nat} (h : c ∈ hexChars n count) :
    c ≠ '-' := by
  induction count generalizing n with
  | zero => cases h
  | succ count ih =>
    rw [hexChars, List.mem_append, List.mem_singleton] at h
    rcases h with h | rfl
    · exact ih h
    · exact hexDigit_ne_hyphen _ (Nat.mod_lt n (by decide))

theorem hexDigit_injective {m n : Nat} (hm : m < 16) (hn : n < 16)
    (h : Text.hexDigit m = Text.hexDigit n) : m = n := by
  have hvalue := Text.hexValue_hexDigit m hm
  rw [h, Text.hexValue_hexDigit n hn] at hvalue
  exact (Option.some.inj hvalue).symm

theorem hexChars_injective {m n count : Nat} (hm : m < 16 ^ count) (hn : n < 16 ^ count)
    (h : hexChars m count = hexChars n count) : m = n := by
  induction count generalizing m n with
  | zero =>
    rw [Nat.pow_zero] at hm hn
    omega
  | succ count ih =>
    obtain ⟨hfront, hlast⟩ := List.append_inj' h rfl
    have hrest : m % 16 = n % 16 := hexDigit_injective (Nat.mod_lt m (by decide))
      (Nat.mod_lt n (by decide)) (List.cons.inj hlast).1
    have hdiv : m / 16 = n / 16 := by
      rw [Nat.pow_succ] at hm hn
      exact ih (Nat.div_lt_of_lt_mul (by omega)) (Nat.div_lt_of_lt_mul (by omega)) hfront
    omega

theorem filter_text (u : Uuid) :
    u.text.toList.filter (· ≠ '-') = hexChars u.bits.toNat 32 := by
  have hdigits : ∀ c ∈ hexChars u.bits.toNat 32, c ≠ '-' := fun _ => ne_hyphen_of_mem_hexChars
  rw [text, String.toList_ofList]
  generalize hexChars u.bits.toNat 32 = cs at hdigits
  have hkeep {part : List Char} (hpart : part ⊆ cs) : part.filter (· ≠ '-') = part :=
    List.filter_eq_self.2 fun c hc => by simpa using hdigits c (hpart hc)
  have hgroup (n : Nat) : ((cs.drop n).take 4).filter (· ≠ '-') = (cs.drop n).take 4 :=
    hkeep (List.Subset.trans (List.take_subset _ _) (List.drop_subset _ _))
  have hjoin (n : Nat) : (cs.drop n).take 4 ++ cs.drop (n + 4) = cs.drop n := by
    rw [← List.drop_drop, List.take_append_drop]
  have hhyphen (part : List Char) : ('-' :: part).filter (· ≠ '-') = part.filter (· ≠ '-') :=
    List.filter_cons_of_neg (by decide)
  simp only [List.filter_append, hhyphen, hgroup, hkeep (List.take_subset 8 cs),
    hkeep (List.drop_subset 20 cs), List.append_assoc]
  rw [hjoin 16, hjoin 12, hjoin 8, List.take_append_drop]

theorem text_injective {u v : Uuid} (h : u.text = v.text) : u = v := by
  have hdigits := filter_text u
  rw [h, filter_text v] at hdigits
  have hlt (u : Uuid) : u.bits.toNat < 16 ^ 32 := u.bits.isLt
  have hbits := hexChars_injective (hlt v) (hlt u) hdigits
  cases u
  cases v
  rw [Uuid.mk.injEq]
  exact (BitVec.eq_of_toNat_eq hbits).symm

end Uuid

/-! ## Values that are displayed alike -/

inductive ListedKind where
  | text
  | bytes
  | uuid
  | int64
  | date
  | time
  | timestamp
  deriving DecidableEq

namespace Value

def listedKind? : Value → Option ListedKind
  | .text _ => some .text
  | .bytes _ => some .bytes
  | .uuid _ => some .uuid
  | .int64 _ => some .int64
  | .date _ => some .date
  | .time _ => some .time
  | .timestamp _ => some .timestamp
  | _ => none

/-- What the displayed text tells of a value is the same for both: of bytes their count, of a
timestamp the second that is shown. -/
def Alike : Value → Value → Prop
  | .bytes b, .bytes c => b.length = c.length
  | .time s, .time t =>
    s.shown = t.shown ∧ s.nano % 1000000000 = t.nano % 1000000000
  | .timestamp s, .timestamp t => s.date = t.date ∧ s.time.shown = t.time.shown
  | v, w => v = w

variable {k : ListedKind} {v w : Value}

theorem display_eq_iff (hv : v.listedKind? = some k) (hw : w.listedKind? = some k) :
    v.display = w.display ↔ v.Alike w := by
  cases v <;> cases hv <;> cases w <;> cases hw
  case text s t => exact Value.text.injEq s t ▸ Iff.rfl
  case bytes b c => exact keyString_bytes_eq_iff
  case uuid u v =>
    exact ⟨fun h => congrArg Value.uuid (Uuid.text_injective h), fun h => by cases h; rfl⟩
  case int64 m n =>
    refine ⟨fun h => congrArg Value.int64 ?_, fun h => by cases h; rfl⟩
    exact Int64.toInt_inj.1 (toString_int_injective h)
  case date d e =>
    refine ⟨fun h => congrArg Value.date (Calendar.Date.text_injective h), fun h => ?_⟩
    cases h
    rfl
  case time s t => exact Calendar.TimeOfDay.text_eq_iff
  case timestamp s t => exact Calendar.Timestamp.text_eq_iff

end Value

namespace Sql

open Run

variable {d : Dialect} {k : ListedKind} {v w : Value} {rest : List Char}

/-- A literal is the displayed text, in quotes unless the value is an integer. -/
theorem literal_of_listedKind (d : Dialect) (hv : v.listedKind? = some k) :
    literal d v = if k = .int64 then v.display else textLiteral d v.display := by
  cases v <;> cases hv <;> rfl

theorem textLiteral_injective {s t : String} (h : textLiteral d s = textLiteral d t) : s = t := by
  have hread (s : String) : readLiteral d ((textLiteral d s).toList ++ []) = some (s.toList, []) :=
    readLiteral_textLiteral d s (by simp)
  have hs := hread s
  rw [h, hread t, Option.some.injEq, Prod.mk.injEq] at hs
  exact String.toList_inj.1 hs.1.symm

theorem literal_eq_iff (d : Dialect) (hv : v.listedKind? = some k) (hw : w.listedKind? = some k) :
    literal d v = literal d w ↔ v.Alike w := by
  rw [literal_of_listedKind d hv, literal_of_listedKind d hw, ← Value.display_eq_iff hv hw]
  split
  · exact Iff.rfl
  · exact ⟨textLiteral_injective, congrArg _⟩

/-! ## A list in the text -/

/-- Read a value of a list, up to the next comma or the closing parenthesis. -/
def readListed (d : Dialect) : List Char → Option (List Char × List Char)
  | '\'' :: cs => readLiteral d ('\'' :: cs)
  | cs =>
    let goesOn := fun c => c ≠ ',' && c ≠ ')'
    some (cs.takeWhile goesOn, cs.dropWhile goesOn)

/-- A value of a list ends before a text: a comma or a closing parenthesis begins it. -/
def EndsListed (rest : List Char) : Prop := rest.head? = some ',' ∨ rest.head? = some ')'

theorem mem_toString_int {n : Int} {c : Char} (h : c ∈ (toString n).toList) :
    isNameChar c = true ∨ c = '-' := by
  cases n with
  | ofNat n => exact .inl (List.all_eq_true.1 (all_isNameChar_toString n) c h)
  | negSucc n =>
    have htext : toString (Int.negSucc n) = "-" ++ toString (n + 1) := rfl
    rw [htext, String.toList_append, List.mem_append] at h
    rcases h with h | h
    · exact .inr (by simpa using h)
    · exact .inl (List.all_eq_true.1 (all_isNameChar_toString (n + 1)) c h)

theorem readListed_bare (d : Dialect) {text : List Char}
    (htext : ∀ c ∈ text, c ≠ '\'' ∧ c ≠ ',' ∧ c ≠ ')') (h : EndsListed rest) :
    readListed d (text ++ rest) = some (text, rest) := by
  have hall : ∀ c ∈ text, (c ≠ ',' && c ≠ ')') = true := fun c hc => by simpa using (htext c hc).2
  have hend : rest.takeWhile (fun c => c ≠ ',' && c ≠ ')') = [] ∧
      rest.dropWhile (fun c => c ≠ ',' && c ≠ ')') = rest := by
    cases rest with
    | nil => exact ⟨rfl, rfl⟩
    | cons c rest =>
      have hc : ¬(c ≠ ',' && c ≠ ')') = true := by
        rcases h with h | h <;> cases h <;> decide
      exact ⟨List.takeWhile_cons_of_neg hc, List.dropWhile_cons_of_neg hc⟩
  unfold readListed
  split
  · next cs hcs =>
    cases text with
    | nil =>
      obtain rfl : rest = '\'' :: cs := hcs
      rcases h with h | h <;> cases h
    | cons c text => exact absurd (List.cons.inj hcs).1 (htext c List.mem_cons_self).1
  · dsimp only
    rw [List.takeWhile_append_of_pos hall, List.dropWhile_append_of_pos hall, hend.1, hend.2,
      List.append_nil]

theorem readListed_int (d : Dialect) (n : Int) (h : EndsListed rest) :
    readListed d ((toString n).toList ++ rest) = some ((toString n).toList, rest) := by
  refine readListed_bare d (fun c hc => ?_) h
  refine ⟨?_, ?_, ?_⟩ <;>
  · rintro rfl
    exact absurd (mem_toString_int hc) (by decide)

/-- A value of a list is read as its displayed text. -/
theorem readListed_literal (d : Dialect) (hv : v.listedKind? = some k) (h : EndsListed rest) :
    readListed d ((literal d v).toList ++ rest) = some (v.display.toList, rest) := by
  rw [literal_of_listedKind d hv]
  split
  · next hk =>
    subst hk
    cases v <;> cases hv
    exact readListed_int d _ h
  · have hquote : rest.head? ≠ some '\'' := by
      rcases h with h | h <;> simp [h]
    have hread := readLiteral_textLiteral d v.display hquote
    rw [textLiteral, String.toList_ofList] at hread ⊢
    exact hread

theorem separated_listed (d : Dialect) {vs : List Value} (hne : vs ≠ [])
    (hkind : ∀ v ∈ vs, v.listedKind? = some k) (rest : List Char) :
    Separated (readListed d) [',', ' ']
      ((Text.join ", " (vs.map (literal d))).toList ++ ')' :: rest)
      (vs.map fun v => v.display.toList) (')' :: rest) := by
  refine .of_join ", " EndsListed hne ?_ ?_ ?_ ?_
  · exact fun v hv rest h => readListed_literal d (hkind v hv) h
  · exact fun _ => .inl rfl
  · exact .inr rfl
  · rintro ⟨after, hafter⟩
    exact absurd (List.cons.inj hafter).1 (by decide)

/-- A value is displayed like one of a list just when it is like one of them. -/
theorem mem_displayed {vs : List Value} (hkind : ∀ v ∈ vs, v.listedKind? = some k)
    (hw : w.listedKind? = some k) :
    w.display.toList ∈ (vs.map fun v => v.display.toList) ↔ ∃ v ∈ vs, v.Alike w := by
  rw [List.mem_map]
  refine exists_congr fun v => and_congr_right fun hv => ?_
  rw [String.toList_inj, Value.display_eq_iff (hkind v hv) hw]

/-! ## A bound list -/

theorem bindAll_gains (column : String) (vs : List Value) (s : ParamSink) :
    ∃ new s', bindAll column vs s = .ok (new.map Parameter.placeholder) s' ∧ s.Gains new s' ∧
      new.map Parameter.value = vs := by
  induction vs generalizing s with
  | nil => exact ⟨[], s, rfl, .refl s, rfl⟩
  | cons v vs ih =>
    obtain ⟨text, t, hbind⟩ : ∃ text t, ParamSink.bind column v s = .ok text t := ⟨_, _, rfl⟩
    obtain ⟨name, rfl, hadded, hfresh, -⟩ := ParamSink.fresh_of_bind hbind
    obtain ⟨new, u, hrest, hgains, hvalues⟩ := ih t
    refine ⟨⟨name, v, s.category⟩ :: new, u, ?_, .cons hadded hfresh hgains, ?_⟩
    · rw [bindAll, bind_of_ok hbind, bind_of_ok hrest]
      rfl
    · rw [List.map_cons, hvalues]

theorem renderMembership_gains (scope : Scope) (column : String) {vs : List Value} (hne : vs ≠ [])
    (negated : Bool) (s : ParamSink) : ∃ new s',
      renderMembership scope column vs negated s =
        .ok (scope.qualify column ++ (if negated then " NOT IN" else " IN") ++ " (" ++
          Text.join ", " (new.map Parameter.placeholder) ++ ")") s' ∧
      s.Gains new s' ∧ new.map Parameter.value = vs := by
  obtain ⟨new, s', hbind, hgains, hvalues⟩ := bindAll_gains column vs s
  refine ⟨new, s', ?_, hgains, hvalues⟩
  rw [renderMembership, if_neg (by simpa using hne), bind_of_ok hbind]
  rfl

/-- Two values of a kind have one literal just when they are displayed alike. A membership in a list
in the text says the displayed texts of the listed values, so that it takes a value for a listed one
just when it is like one of them, while a bound list hands over the listed values, each under a name
of its own. -/
theorem listed_iff (d : Dialect) (k : ListedKind) :
    (∀ v w : Value, v.listedKind? = some k → w.listedKind? = some k →
      (literal d v = literal d w ↔ v.Alike w)) ∧
    ∀ (table : Option String) (column : String) (vs : List Value), vs ≠ [] →
      (∀ v ∈ vs, v.listedKind? = some k) →
      (∀ op : Comparison, ∃ (list : String) (said : List (List Char)),
        renderComparison ⟨d, table⟩ column op (.list vs) =
          pure (Scope.qualify ⟨d, table⟩ column ++
            (if op.isNegated then " NOT IN" else " IN") ++ " (" ++ list ++ ")") ∧
        (∀ rest, Separated (readListed d) [',', ' '] (list.toList ++ ')' :: rest) said
          (')' :: rest)) ∧
        ∀ w : Value, w.listedKind? = some k →
          (w.display.toList ∈ said ↔ ∃ v ∈ vs, v.Alike w)) ∧
      ∀ (negated : Bool) (s : ParamSink), ∃ new s',
        renderMembership ⟨d, table⟩ column vs negated s =
          .ok (Scope.qualify ⟨d, table⟩ column ++ (if negated then " NOT IN" else " IN") ++ " (" ++
            Text.join ", " (new.map Parameter.placeholder) ++ ")") s' ∧
        s.Gains new s' ∧ new.map Parameter.value = vs := by
  refine ⟨fun v w hv hw => literal_eq_iff d hv hw, fun table column vs hne hkind => ⟨?_, ?_⟩⟩
  · intro op
    exact ⟨_, _, renderComparison_list ⟨d, table⟩ column op hne, separated_listed d hne hkind,
      fun w hw => mem_displayed hkind hw⟩
  · exact fun negated s => renderMembership_gains ⟨d, table⟩ column hne negated s

/-- Two byte strings of one length in a list, and one of another length. -/
theorem blobList_shown :
    ([.bytes [1], .bytes [2], .bytes [1, 2]] : List Value) ≠ [] ∧
    (∀ v ∈ ([.bytes [1], .bytes [2], .bytes [1, 2]] : List Value),
      v.listedKind? = some .bytes) ∧
    ∃ (list : String) (said : List (List Char)),
      renderComparison ⟨.postgres, none⟩ "hash" .isIn
          (.list [.bytes [1], .bytes [2], .bytes [1, 2]]) =
        pure (Scope.qualify ⟨.postgres, none⟩ "hash" ++ " IN" ++ " (" ++ list ++ ")") ∧
      (∀ rest, Separated (readListed .postgres) [',', ' '] (list.toList ++ ')' :: rest) said
        (')' :: rest)) ∧
      ∀ w : Value, w.listedKind? = some .bytes → (w.display.toList ∈ said ↔
        ∃ v ∈ ([.bytes [1], .bytes [2], .bytes [1, 2]] : List Value), v.Alike w) :=
  ⟨by simp, by decide, ((listed_iff .postgres .bytes).2 none "hash"
    [.bytes [1], .bytes [2], .bytes [1, 2]] (by simp) (by decide)).1 .isIn⟩

/-- The bytes 1 and 2 are different values with one literal, and so are a moment and the one half a
second later: a list with the one is written as a list with the other. -/
theorem blobs_listed_alike :
    (([1] : List UInt8) ≠ [2] ∧
      literal .postgres (.bytes [1]) = literal .postgres (.bytes [2]) ∧
      renderComparison ⟨.postgres, none⟩ "hash" .isIn (.list [.bytes [1]]) =
        renderComparison ⟨.postgres, none⟩ "hash" .isIn (.list [.bytes [2]])) ∧
    (Calendar.Timestamp.mk .epoch .midnight ≠
        ⟨.epoch, { hour := 0, minute := 0, second := 0, nano := 500000000 }⟩ ∧
      literal .postgres (.timestamp ⟨.epoch, .midnight⟩) = literal .postgres
        (.timestamp ⟨.epoch, { hour := 0, minute := 0, second := 0, nano := 500000000 }⟩)) :=
  ⟨⟨by decide, rfl, rfl⟩, by decide, rfl⟩

end Sql

end RowMapper
