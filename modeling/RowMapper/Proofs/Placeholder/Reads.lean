import RowMapper.Proofs.Placeholder.Token
import RowMapper.Sql.Statement

/-! # Reading a text part by part

`Reads` says what a reader finds in a text: the names of its placeholders, the
number of its question marks outside quotes, and that it ends outside quotes.
A text that `Seals` does not end with a placeholder either, so anything may follow
it. Both go from the parts of a text to the whole.
-/

namespace RowMapper.Sql

open Text

/-- What the reader finds in a text that starts where it stands. -/
structure ReadsFrom (r : Reading) (cs : List Char) (names : List String) (marks : Nat) : Prop where
  ends : r.after cs = .plain ∨ ∃ name, r.after cs = .name name
  names : (r.read cs).filterMap Token.name? = names
  marks : (r.read cs).count (.plain '?') = marks

abbrev Reads (t : String) (names : List String) (marks : Nat) : Prop :=
  ReadsFrom .plain t.toList names marks

/-- What the reader finds in a text, after which it stands outside quotes and names. -/
structure Seals (t : String) (names : List String) (marks : Nat) : Prop where
  closed : IsClosed t.toList
  names : (tokens t.toList).filterMap Token.name? = names
  marks : (tokens t.toList).count (.plain '?') = marks

namespace Reads

variable {a b t : String} {n m : List String} {k l : Nat}

theorem placeholders_eq (h : Reads t n k) : placeholders t = n := h.names

theorem questionMarks_eq (h : Reads t n k) : questionMarks t = k :=
  (questionMarks_eq_count t).trans h.marks

theorem append (ha : Reads a n k) (hbreak : Breaks b.toList) (hb : Reads b m l) :
    Reads (a ++ b) (n ++ m) (k + l) := by
  have hread : Reading.plain.read (a ++ b).toList =
      Reading.plain.read a.toList ++ Reading.plain.read b.toList := by
    rw [String.toList_append]
    exact tokens_append_of_breaks ha.ends hbreak
  refine ⟨?_, ?_, ?_⟩
  · rw [String.toList_append]
    exact IsOpen.append ha.ends hbreak hb.ends
  · rw [hread, List.filterMap_append, ha.names, hb.names]
  · rw [hread, List.count_append, ha.marks, hb.marks]

theorem append_seals (ha : Reads a n k) (hbreak : Breaks b.toList) (hne : b.toList ≠ [])
    (hb : Seals b m l) : Seals (a ++ b) (n ++ m) (k + l) := by
  have hread : tokens (a ++ b).toList = tokens a.toList ++ tokens b.toList := by
    rw [String.toList_append]
    exact tokens_append_of_breaks ha.ends hbreak
  refine ⟨?_, ?_, ?_⟩
  · rw [String.toList_append]
    exact IsOpen.append_isClosed ha.ends hbreak hne hb.closed
  · rw [hread, List.filterMap_append, hb.names]
    exact congrArg (· ++ m) ha.names
  · rw [hread, List.count_append, hb.marks]
    exact congrArg (· + l) ha.marks

end Reads

namespace Seals

variable {a b t : String} {n m : List String} {k l : Nat}

theorem reads (h : Seals t n k) : Reads t n k := ⟨.inl h.closed, h.names, h.marks⟩

theorem append_reads (ha : Seals a n k) (hb : Reads b m l) : Reads (a ++ b) (n ++ m) (k + l) := by
  have hread : Reading.plain.read (a ++ b).toList =
      tokens a.toList ++ Reading.plain.read b.toList := by
    rw [String.toList_append]
    exact tokens_append_of_isClosed ha.closed
  refine ⟨?_, ?_, ?_⟩
  · rw [String.toList_append]
    exact ha.closed.append_isOpen hb.ends
  · rw [hread, List.filterMap_append, ha.names, hb.names]
  · rw [hread, List.count_append, ha.marks, hb.marks]

theorem append (ha : Seals a n k) (hb : Seals b m l) : Seals (a ++ b) (n ++ m) (k + l) := by
  have h := ha.append_reads hb.reads
  refine ⟨?_, h.names, h.marks⟩
  rw [String.toList_append]
  exact ha.closed.append hb.closed

end Seals

/-! ## Texts that mean nothing to the reader -/

/-- A character that means nothing to the reader outside quotes. -/
def isInert (c : Char) : Bool := !isQuote c && c != ':' && c != '?'

def Inert (t : String) : Prop := t.toList.all isInert = true

instance (t : String) : Decidable (Inert t) := inferInstanceAs (Decidable (_ = true))

/-- An inert text that no name runs into. -/
def Delimits (t : String) : Prop :=
  t.toList.all isInert = true ∧ (t.toList.head?.map isNameChar) = some false

instance (t : String) : Decidable (Delimits t) := inferInstanceAs (Decidable (_ ∧ _))

theorem isInert_of_isNameChar {c : Char} (h : isNameChar c = true) : isInert c = true := by
  have hc : c ≠ ':' := by
    rintro rfl
    exact absurd h (by decide)
  simp [isInert, isQuote_of_isNameChar h, hc, ne_mark_of_isNameChar h]

theorem read_inert {cs : List Char} (h : cs.all isInert = true) :
    Reading.after .plain cs = .plain ∧ Reading.plain.read cs = cs.map Token.plain := by
  induction cs with
  | nil => exact ⟨rfl, rfl⟩
  | cons c cs ih =>
    simp only [List.all_cons, Bool.and_eq_true, isInert, bne_iff_ne, Bool.not_eq_true'] at h
    rcases h with ⟨⟨⟨hq, hc⟩, -⟩, hcs⟩
    obtain ⟨hafter, hread⟩ := ih hcs
    constructor
    · simpa [Reading.after_cons, Reading.step, Reading.fresh, hq, hc] using hafter
    · rw [Reading.read_plain_other hq hc, hread, List.map_cons]

theorem Inert.seals {t : String} (h : Inert t) : Seals t [] 0 := by
  obtain ⟨hafter, hread⟩ := read_inert h
  refine ⟨hafter, ?_, ?_⟩
  · rw [tokens, hread]
    exact List.filterMap_eq_nil_iff.2 fun t ht => by
      obtain ⟨c, -, rfl⟩ := List.mem_map.1 ht
      rfl
  · rw [tokens, hread, List.count_eq_zero]
    intro hmem
    obtain ⟨c, hc, heq⟩ := List.mem_map.1 hmem
    obtain rfl : c = '?' := by simpa using heq
    exact absurd (List.all_eq_true.1 h '?' hc) (by decide)

theorem seals_empty : Seals "" [] 0 := Inert.seals rfl

theorem Inert.append {a b : String} (ha : Inert a) (hb : Inert b) : Inert (a ++ b) := by
  simp only [Inert, String.toList_append, List.all_append, Bool.and_eq_true]
  exact ⟨ha, hb⟩

theorem Delimits.inert {t : String} (h : Delimits t) : Inert t := h.1

theorem Delimits.ne_nil {t : String} (h : Delimits t) : t.toList ≠ [] := by
  intro hnil
  have := h.2
  simp [hnil] at this

theorem Delimits.breaks {t : String} (h : Delimits t) : Breaks t.toList := by
  intro c hc
  have := h.2
  rw [Option.mem_def.1 hc] at this
  simpa using this

theorem Delimits.breaks_append {t u : String} (h : Delimits t) : Breaks (t ++ u).toList := by
  rw [String.toList_append]
  cases ht : t.toList with
  | nil => exact absurd ht h.ne_nil
  | cons c cs =>
    have := h.breaks
    rw [ht] at this
    exact this

section

variable {a t : String} {n : List String} {k : Nat}

theorem Reads.prepend (ht : Reads t n k) (ha : Inert a) : Reads (a ++ t) n k := by
  simpa using ha.seals.append_reads ht

theorem Seals.prepend (ht : Seals t n k) (ha : Inert a) : Seals (a ++ t) n k := by
  simpa using ha.seals.append ht

theorem Seals.append_nil (ht : Seals t n k) (ha : Seals a [] 0) : Seals (t ++ a) n k := by
  simpa using ht.append ha

theorem Seals.close (ht : Seals t n k) (ha : Inert a) : Seals (t ++ a) n k :=
  ht.append_nil ha.seals

theorem Reads.close (ht : Reads t n k) (ha : Delimits a) : Seals (t ++ a) n k := by
  simpa using ht.append_seals ha.breaks ha.ne_nil ha.inert.seals

theorem Reads.parens (ht : Reads t n k) : Seals ("(" ++ t ++ ")") n k :=
  (ht.prepend (by decide)).close (by decide)

end

/-! ## Lists of texts -/

inductive ReadsAll : List String → List String → Nat → Prop
  | nil : ReadsAll [] [] 0
  | cons {t : String} {ts n m : List String} {k l : Nat} :
    Reads t n k → ReadsAll ts m l → ReadsAll (t :: ts) (n ++ m) (k + l)

theorem ReadsAll.join {sep : String} (hsep : Delimits sep) {ts n : List String} {k : Nat}
    (h : ReadsAll ts n k) : Reads (join sep ts) n k := by
  induction h with
  | nil => exact ⟨.inl rfl, rfl, rfl⟩
  | @cons t ts n m k l ht hts ih =>
    cases ts with
    | nil =>
      cases hts
      simpa [Text.join] using ht
    | cons u us => exact (ht.close hsep).append_reads ih

theorem concatenated_cons (t : String) (ts : List String) :
    concatenated (t :: ts) = t ++ concatenated ts := by
  have h (us : List String) (u : String) : us.foldl (· ++ ·) u = u ++ us.foldl (· ++ ·) "" := by
    induction us generalizing u with
    | nil => simp
    | cons v vs ih => rw [List.foldl_cons, List.foldl_cons, ih, ih ("" ++ v)]; simp [String.append_assoc]
  rw [concatenated, List.foldl_cons, h]
  simp [concatenated]

theorem ReadsAll.append {ts us n m : List String} {k l : Nat} (ht : ReadsAll ts n k)
    (hu : ReadsAll us m l) : ReadsAll (ts ++ us) (n ++ m) (k + l) := by
  induction ht with
  | nil => simpa using hu
  | cons h _ ih =>
    rw [List.cons_append, List.append_assoc, Nat.add_assoc]
    exact .cons h ih

theorem breaks_concatenated {ts : List String} (hb : ∀ t ∈ ts, Breaks t.toList) :
    Breaks (concatenated ts).toList := by
  induction ts with
  | nil => intro c hc; cases hc
  | cons t ts ih =>
    rw [concatenated_cons, String.toList_append]
    cases ht : t.toList with
    | nil => exact ih fun u hu => hb u (List.mem_cons_of_mem _ hu)
    | cons c cs =>
      have := hb t List.mem_cons_self
      rw [ht] at this
      exact this

theorem ReadsAll.concatenated {ts n : List String} {k : Nat} (h : ReadsAll ts n k)
    (hb : ∀ t ∈ ts, Breaks t.toList) : Reads (concatenated ts) n k := by
  induction h with
  | nil => exact ⟨.inl rfl, rfl, rfl⟩
  | @cons t ts n m k l ht _ ih =>
    have hrest : ∀ u ∈ ts, Breaks u.toList := fun u hu => hb u (List.mem_cons_of_mem _ hu)
    rw [concatenated_cons]
    exact ht.append (breaks_concatenated hrest) (ih hrest)

end RowMapper.Sql
