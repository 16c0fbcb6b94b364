import RowMapper.Query.Build
import RowMapper.Proofs.Text.Pieces
import Mathlib.Data.List.Forall2

/-! # Entries listed in one text

Selected columns and tables are given in one text with commas between them. A comma inside
parentheses belongs to its entry, and so do the blanks inside an entry; only those at its ends
are taken off. Entries whose parentheses nest are read back as they were listed. Of any other
text nothing is lost but commas and blanks.
-/

namespace RowMapper

open Text

/-! ## Entries -/

/-- As many parentheses are closed as are opened, and none is closed before it is opened. -/
def Nests (cs : List Char) : Prop :=
  cs.count ')' = cs.count '(' ∧ ∀ n ≤ cs.length, (cs.take n).count ')' ≤ (cs.take n).count '('

instance (cs : List Char) : Decidable (Nests cs) := inferInstanceAs (Decidable (_ ∧ _))

/-- Some comma stands outside parentheses: before it as many are closed as are opened. -/
def HasBareComma (cs : List Char) : Prop :=
  ∃ n < cs.length, cs[n]? = some ',' ∧ (cs.take n).count ')' = (cs.take n).count '('

instance (cs : List Char) : Decidable (HasBareComma cs) := Nat.decidableExistsLT _

/-- A text that can be one entry of a list. -/
structure IsEntry (part : String) : Prop where
  ne_empty : part ≠ ""
  trim_eq : trim part = part
  nests : Nests part.toList
  noBareComma : ¬ HasBareComma part.toList

instance (part : String) : Decidable (IsEntry part) :=
  decidable_of_iff
    (part ≠ "" ∧ trim part = part ∧ Nests part.toList ∧ ¬ HasBareComma part.toList)
    ⟨fun h => ⟨h.1, h.2.1, h.2.2.1, h.2.2.2⟩,
      fun h => ⟨h.ne_empty, h.trim_eq, h.nests, h.noBareComma⟩⟩

def Surrounds (piece : List Char) (part : String) : Prop :=
  ∃ before after, (∀ c ∈ before, isBlank c = true) ∧ (∀ c ∈ after, isBlank c = true) ∧
    piece = before ++ part.toList ++ after

/-- A text lists parts in a row, with commas between them and blanks around them. -/
def Lists (line : String) (parts : List String) : Prop :=
  ∃ pieces, List.Forall₂ Surrounds pieces parts ∧ line.toList = [','].intercalate pieces

/-! ## Reading one piece -/

def depthAfter (depth : Nat) (c : Char) : Nat :=
  if c = '(' then depth + 1 else if c = ')' then depth - 1 else depth

theorem listedFrom_comma (cs : List Char) : listedFrom 0 (',' :: cs) = [] :: listedFrom 0 cs := rfl

/-- Any character but a comma outside parentheses goes to the first piece. -/
theorem listedFrom_cons {depth : Nat} {c : Char} (h : c = ',' → depth ≠ 0) (cs : List Char) :
    listedFrom depth (c :: cs) =
      (listedFrom (depthAfter depth c) cs).modifyHead (c :: ·) := by
  have hinside : (c = ',' && depth == 0) = false := by simpa using h
  obtain ⟨piece, pieces, hcs⟩ :=
    List.exists_cons_of_ne_nil (listedFrom_ne_nil (depthAfter depth c) cs)
  rw [hcs, List.modifyHead_cons]
  unfold depthAfter at hcs
  simp [listedFrom, hinside, hcs]

/-- Read from a depth on, a text closes only what is open, and its commas stand inside. -/
structure Unbroken (depth : Nat) (cs : List Char) : Prop where
  closes : ∀ n, (cs.take n).count ')' ≤ depth + (cs.take n).count '('
  covers : ∀ n, cs[n]? = some ',' → (cs.take n).count ')' < depth + (cs.take n).count '('

namespace Unbroken

variable {depth : Nat} {c : Char} {cs : List Char}

theorem pos_of_close (h : Unbroken depth (c :: cs)) (hc : c = ')') : 0 < depth := by
  subst hc
  have hone : 1 ≤ depth := by simpa using h.closes 1
  exact hone

theorem pos_of_comma (h : Unbroken depth (c :: cs)) (hc : c = ',') : 0 < depth := by
  subst hc
  simpa using h.covers 0 rfl

/-- What a character does to the depth is what it does to the counts: nothing is closed where
nothing is open, so that the depth is never held back at zero. -/
theorem depthAfter_count (h : Unbroken depth (c :: cs)) (ds : List Char) :
    depthAfter depth c + ds.count '(' + (c :: ds).count ')' =
      depth + (c :: ds).count '(' + ds.count ')' := by
  have hclose := h.pos_of_close
  simp only [List.count_cons, depthAfter]
  grind

theorem tail (h : Unbroken depth (c :: cs)) : Unbroken (depthAfter depth c) cs := by
  refine ⟨fun n => ?_, fun n hcomma => ?_⟩
  · have hcloses := h.closes (n + 1)
    have hcount := h.depthAfter_count (cs.take n)
    rw [List.take_succ_cons] at hcloses
    omega
  · have hcovers := h.covers (n + 1) hcomma
    have hcount := h.depthAfter_count (cs.take n)
    rw [List.take_succ_cons] at hcovers
    omega

/-- An unbroken text stands whole at the start of the first piece, and the rest is read at the
depth that it leads to. -/
theorem listedFrom_append (h : Unbroken depth cs) (rest : List Char) :
    listedFrom depth (cs ++ rest) =
      (listedFrom (depth + cs.count '(' - cs.count ')') rest).modifyHead (cs ++ ·) := by
  induction cs generalizing depth with
  | nil => exact (congrFun List.modifyHead_id _).symm
  | cons c cs ih =>
    have hinside (hc : c = ',') : depth ≠ 0 := Nat.ne_of_gt (h.pos_of_comma hc)
    have hdepth : depthAfter depth c + cs.count '(' - cs.count ')' =
        depth + (c :: cs).count '(' - (c :: cs).count ')' := by
      have hcount := h.depthAfter_count cs
      omega
    rw [List.cons_append, listedFrom_cons hinside, ih h.tail, hdepth, List.modifyHead_modifyHead]
    rfl

end Unbroken

/-- A text stands whole in one piece, wherever a list is read outside parentheses. -/
def StaysWhole (cs : List Char) : Prop :=
  ∀ rest, listedFrom 0 (cs ++ rest) = (listedFrom 0 rest).modifyHead (cs ++ ·)

theorem StaysWhole.listedFrom_eq {cs : List Char} (h : StaysWhole cs) : listedFrom 0 cs = [cs] := by
  simpa [listedFrom] using h []

theorem StaysWhole.append {cs ds : List Char} (hcs : StaysWhole cs) (hds : StaysWhole ds) :
    StaysWhole (cs ++ ds) := by
  intro rest
  rw [List.append_assoc, hcs, hds, List.modifyHead_modifyHead]
  simp only [Function.comp_def, List.append_assoc]

theorem staysWhole_of_plain {cs : List Char} (h : ∀ c ∈ cs, c ≠ ',' ∧ c ≠ '(' ∧ c ≠ ')') :
    StaysWhole cs := by
  intro rest
  induction cs with
  | nil => exact (congrFun List.modifyHead_id _).symm
  | cons c cs ih =>
    obtain ⟨hcomma, hopen, hclose⟩ := h c List.mem_cons_self
    rw [List.cons_append, listedFrom_cons fun hc => absurd hc hcomma, depthAfter, if_neg hopen,
      if_neg hclose, ih fun d hd => h d (List.mem_cons_of_mem c hd), List.modifyHead_modifyHead]
    rfl

theorem staysWhole_of_blank {cs : List Char} (h : ∀ c ∈ cs, isBlank c = true) : StaysWhole cs := by
  refine staysWhole_of_plain fun c hc => ?_
  have hne {mark : Char} (hmark : isBlank mark = false) : c ≠ mark := by
    rintro rfl
    rw [h c hc] at hmark
    cases hmark
  exact ⟨hne (by decide), hne (by decide), hne (by decide)⟩

theorem Nests.staysWhole {cs : List Char} (h : Nests cs) (hcomma : ¬ HasBareComma cs) :
    StaysWhole cs := by
  obtain ⟨hclosed, hcloses⟩ := h
  have hbegin (n : Nat) : (cs.take n).count ')' ≤ (cs.take n).count '(' := by
    rcases Nat.le_total n cs.length with hn | hn
    · exact hcloses n hn
    · rw [List.take_of_length_le hn, hclosed]
  have hunbroken : Unbroken 0 cs := by
    refine ⟨fun n => by simpa using hbegin n, fun n hn => ?_⟩
    have hlt : n < cs.length := (List.getElem?_eq_some_iff.1 hn).1
    have hne : (cs.take n).count ')' ≠ (cs.take n).count '(' :=
      fun heq => hcomma ⟨n, hlt, hn, heq⟩
    rw [Nat.zero_add]
    exact Nat.lt_of_le_of_ne (hbegin n) hne
  intro rest
  rw [hunbroken.listedFrom_append, hclosed, Nat.zero_add, Nat.sub_self]

theorem Surrounds.staysWhole {piece : List Char} {part : String} (h : Surrounds piece part)
    (hpart : IsEntry part) : StaysWhole piece := by
  obtain ⟨before, after, hbefore, hafter, rfl⟩ := h
  have hwhole := hpart.nests.staysWhole hpart.noBareComma
  exact ((staysWhole_of_blank hbefore).append hwhole).append (staysWhole_of_blank hafter)

theorem Surrounds.trim_eq {piece : List Char} {part : String} (h : Surrounds piece part)
    (hpart : IsEntry part) : trim (String.ofList piece) = part := by
  obtain ⟨before, after, hbefore, hafter, rfl⟩ := h
  rw [trim, String.toList_ofList, trimChars_append hbefore hafter]
  exact hpart.trim_eq

/-! ## Reading a list -/

theorem listedFrom_intercalate {pieces : List (List Char)} (hne : pieces ≠ [])
    (h : ∀ piece ∈ pieces, StaysWhole piece) : listedFrom 0 ([','].intercalate pieces) = pieces := by
  induction pieces with
  | nil => exact absurd rfl hne
  | cons piece pieces ih =>
    have hpiece := h piece List.mem_cons_self
    cases pieces with
    | nil => rw [List.intercalate_singleton, hpiece.listedFrom_eq]
    | cons next rest =>
      rw [List.intercalate_cons_cons, List.append_assoc, List.singleton_append, hpiece,
        listedFrom_comma, ih (List.cons_ne_nil _ _) fun p hp => h p (List.mem_cons_of_mem _ hp),
        List.modifyHead_cons, List.append_nil]

/-- Entries between blanks stay whole, and trimming gives them back. -/
theorem read_of_surrounds {pieces : List (List Char)} {parts : List String}
    (h : List.Forall₂ Surrounds pieces parts) (hparts : ∀ part ∈ parts, IsEntry part) :
    (∀ piece ∈ pieces, StaysWhole piece) ∧
      (pieces.map fun piece => trim (String.ofList piece)) = parts := by
  induction h with
  | nil => exact ⟨fun _ hpiece => (nomatch hpiece), rfl⟩
  | cons hfirst _ ih =>
    obtain ⟨hpart, hrest⟩ := List.forall_mem_cons.1 hparts
    obtain ⟨hwhole, htrim⟩ := ih hrest
    refine ⟨List.forall_mem_cons.2 ⟨hfirst.staysWhole hpart, hwhole⟩, ?_⟩
    rw [List.map_cons, hfirst.trim_eq hpart, htrim]

theorem listed_of_lists {line : String} {parts : List String} (h : Lists line parts)
    (hparts : ∀ part ∈ parts, IsEntry part) : listed line = parts := by
  obtain ⟨pieces, hpieces, hline⟩ := h
  obtain ⟨hwhole, htrim⟩ := read_of_surrounds hpieces hparts
  rw [listed, hline]
  by_cases hne : pieces = []
  · -- an empty text has one piece, which is blank
    subst hne
    rw [← htrim]
    rfl
  · rw [listedFrom_intercalate hne hwhole, htrim, List.filter_eq_self]
    exact fun part hpart => decide_eq_true (hparts part hpart).ne_empty

/-! ## What is left out -/

/-- A text without some of the commas and blanks of another. -/
inductive Thins : List Char → List Char → Prop
  | nil : Thins [] []
  | keep {c : Char} {cs ds : List Char} : Thins cs ds → Thins (c :: cs) (c :: ds)
  | drop {c : Char} {cs ds : List Char} : c = ',' ∨ isBlank c = true → Thins cs ds →
    Thins (c :: cs) ds

namespace Thins

variable {cs ds es fs : List Char}

theorem refl (cs : List Char) : Thins cs cs := by
  induction cs with
  | nil => exact .nil
  | cons c cs ih => exact .keep ih

theorem append (h : Thins cs ds) (h' : Thins es fs) : Thins (cs ++ es) (ds ++ fs) := by
  induction h with
  | nil => exact h'
  | keep _ ih => exact .keep ih
  | drop hc _ ih => exact .drop hc ih

theorem trans (h : Thins cs ds) (h' : Thins ds es) : Thins cs es := by
  induction h generalizing es with
  | nil => exact h'
  | drop hc _ ih => exact .drop hc (ih h')
  | keep _ ih =>
    cases h' with
    | keep hrest => exact .keep (ih hrest)
    | drop hc hrest => exact .drop hc (ih hrest)

theorem of_blank (h : ∀ c ∈ cs, isBlank c = true) : Thins cs [] := by
  induction cs with
  | nil => exact .nil
  | cons c cs ih =>
    obtain ⟨hc, hcs⟩ := List.forall_mem_cons.1 h
    exact .drop (.inr hc) (ih hcs)

theorem trimChars (cs : List Char) : Thins cs (trimChars cs) := by
  obtain ⟨before, after, hbefore, hafter, hcs⟩ := exists_trimChars cs
  have h := ((of_blank hbefore).append (refl (Text.trimChars cs))).append (of_blank hafter)
  rwa [List.nil_append, List.append_nil, ← hcs] at h

theorem flatten_listedFrom (depth : Nat) (cs : List Char) :
    Thins cs (listedFrom depth cs).flatten := by
  induction cs generalizing depth with
  | nil => exact .nil
  | cons c cs ih =>
    by_cases hc : c = ',' → depth ≠ 0
    · obtain ⟨piece, pieces, hcs⟩ :=
        List.exists_cons_of_ne_nil (listedFrom_ne_nil (depthAfter depth c) cs)
      have hrest := ih (depthAfter depth c)
      rw [listedFrom_cons hc, hcs, List.modifyHead_cons]
      rw [hcs] at hrest
      exact .keep hrest
    · obtain ⟨rfl, rfl⟩ : c = ',' ∧ depth = 0 := by simpa using hc
      exact .drop (.inl rfl) (ih 0)

/-- Entries lack the blanks at the ends of their pieces, and blank pieces are no entries. -/
theorem flatMap_trim (pieces : List (List Char)) :
    Thins pieces.flatten
      (((pieces.map fun piece => trim (String.ofList piece)).filter (· ≠ "")).flatMap
        String.toList) := by
  induction pieces with
  | nil => exact .nil
  | cons piece pieces ih =>
    have hpiece : Thins piece (trim (String.ofList piece)).toList := by
      simpa using Thins.trimChars piece
    have h := hpiece.append ih
    rw [List.map_cons, List.flatten_cons]
    by_cases hblank : trim (String.ofList piece) = ""
    · rw [hblank] at h ⊢
      exact h
    · rw [List.filter_cons_of_pos (by simpa using hblank), List.flatMap_cons]
      exact h

theorem flatMap_listed (line : String) : Thins line.toList ((listed line).flatMap String.toList) :=
  (flatten_listedFrom 0 line.toList).trans (flatMap_trim _)

end Thins

/-! ## Queries -/

/-- Listed entries are selected and taken for tables one by one; of any text that is split the
entries have everything but commas and blanks, in its order. -/
theorem Query.listed_entries (q : Query) :
    (∀ (line : String) (parts : List String), (∀ part ∈ parts, IsEntry part) → Lists line parts →
      q.select line = { q with columns := parts.map .column } ∧
      q.selectAlso line = { q with columns := q.columns ++ parts.map .column } ∧
      q.fromTables line = { q with sources := parts.map .table }) ∧
    ∀ line : String, ∃ pieces : List String,
      q.select line = { q with columns := pieces.map .column } ∧
      q.selectAlso line = { q with columns := q.columns ++ pieces.map .column } ∧
      q.fromTables line = { q with sources := pieces.map .table } ∧
      Thins line.toList (pieces.flatMap String.toList) := by
  constructor
  · intro line parts hparts hline
    rw [Query.select, Query.selectAlso, Query.fromTables, listed_of_lists hline hparts]
    exact ⟨rfl, rfl, rfl⟩
  · intro line
    exact ⟨listed line, rfl, rfl, rfl, .flatMap_listed line⟩

def nestedCalls : List String := ["COALESCE(a, GREATEST(b, c)) AS d", "é", "t.*"]

def nestedCallsLine : String := "COALESCE(a, GREATEST(b, c)) AS d ,\u3000é, t.*"

theorem Query.nestedCalls_listed :
    (∀ part ∈ nestedCalls, IsEntry part) ∧ Lists nestedCallsLine nestedCalls ∧
      Query.select {} nestedCallsLine = { columns := nestedCalls.map .column } := by
  have hparts : ∀ part ∈ nestedCalls, IsEntry part := by decide +kernel
  have hline : Lists nestedCallsLine nestedCalls := by
    refine ⟨["COALESCE(a, GREATEST(b, c)) AS d".toList ++ [' '], '\u3000' :: "é".toList,
      ' ' :: "t.*".toList], .cons ?_ (.cons ?_ (.cons ?_ .nil)), by decide +kernel⟩
    · exact ⟨[], [' '], by simp, List.forall_mem_singleton.2 rfl, rfl⟩
    · exact ⟨['\u3000'], [], List.forall_mem_singleton.2 rfl, by simp, by simp⟩
    · exact ⟨[' '], [], List.forall_mem_singleton.2 rfl, by simp, by simp⟩
  exact ⟨hparts, hline, ((Query.listed_entries {}).1 nestedCallsLine nestedCalls hparts hline).1⟩

/-- A parenthesis that closes nothing counts for nothing; one that stays open hides the commas
behind it. -/
example : listed "a), b, , c(d, e" = ["a)", "b", "c(d, e"] := by decide +kernel

end RowMapper
