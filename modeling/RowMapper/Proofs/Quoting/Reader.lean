import RowMapper.Proofs.Placeholder.Texts
import RowMapper.Proofs.Statement.Updates

/-! # Quoted text read back

A quoted text is read up to the quote that closes it. Two quotes in a row stand for one, and
where a backslash escapes, it gives way to the character after it. Items of a list are read
one after another, with a separator between neighbours. The scans of a statement copy a quoted
text from one end to the other without a change.
-/

namespace RowMapper.Sql

open Text

/-- Read from inside quotes up to the closing one: what the quotes hold, and the text after them. -/
def readQuoted (escapes : Bool) (q : Char) : List Char → Option (List Char × List Char)
  | [] => none
  | c :: cs =>
    if c = q then
      match cs with
      | [] => some ([], [])
      | c' :: cs' =>
        if c' = q then (readQuoted escapes q cs').map fun (held, rest) => (q :: held, rest)
        else some ([], c' :: cs')
    else if escapes && c = '\\' then
      match cs with
      | [] => none
      | c' :: cs' => (readQuoted escapes q cs').map fun (held, rest) => (c' :: held, rest)
    else (readQuoted escapes q cs).map fun (held, rest) => (c :: held, rest)

variable {escapes : Bool} {q : Char} {cs rest : List Char}

theorem readQuoted_close (h : rest.head? ≠ some q) :
    readQuoted escapes q (q :: rest) = some ([], rest) := by
  cases rest with
  | nil => simp [readQuoted]
  | cons c rest =>
    have hc : c ≠ q := by simpa using h
    simp [readQuoted, hc]

theorem readQuoted_quote (cs : List Char) : readQuoted escapes q (q :: q :: cs) =
    (readQuoted escapes q cs).map fun (held, rest) => (q :: held, rest) := by
  simp [readQuoted]

theorem readQuoted_other {c : Char} (hq : c ≠ q) (hc : escapes = true → c ≠ '\\')
    (cs : List Char) : readQuoted escapes q (c :: cs) =
      (readQuoted escapes q cs).map fun (held, rest) => (c :: held, rest) := by
  have hplain : (escapes && decide (c = '\\')) = false := by
    simpa using hc
  rw [readQuoted.eq_def]
  simp only [if_neg hq, hplain, Bool.false_eq_true, if_false]

theorem readQuoted_escaped (hq : '\\' ≠ q) (c : Char) (cs : List Char) :
    readQuoted true q ('\\' :: c :: cs) =
      (readQuoted true q cs).map fun (held, rest) => (c :: held, rest) := by
  simp [readQuoted, hq]

theorem readQuoted_doubled (h : rest.head? ≠ some q) (cs : List Char) :
    readQuoted false q (doubled q cs ++ q :: rest) = some (cs, rest) := by
  induction cs with
  | nil => exact readQuoted_close h
  | cons c cs ih =>
    by_cases hc : c = q
    · subst hc
      rw [doubled_self, List.cons_append, List.cons_append, readQuoted_quote, ih]
      rfl
    · rw [doubled_other hc, List.cons_append, readQuoted_other hc (by simp), ih]
      rfl

/-- Where a backslash escapes, a text with doubled backslashes and doubled quotes is read back. -/
theorem readQuoted_escaped_doubled (hq : q ≠ '\\') (h : rest.head? ≠ some q) (cs : List Char) :
    readQuoted true q (doubled q (doubled '\\' cs) ++ q :: rest) = some (cs, rest) := by
  induction cs with
  | nil => exact readQuoted_close h
  | cons c cs ih =>
    by_cases hslash : c = '\\'
    · subst hslash
      rw [doubled_self, doubled_other hq.symm, doubled_other hq.symm, List.cons_append,
        List.cons_append, readQuoted_escaped hq.symm, ih]
      rfl
    · rw [doubled_other hslash]
      by_cases hc : c = q
      · subst hc
        rw [doubled_self, List.cons_append, List.cons_append, readQuoted_quote, ih]
        rfl
      · rw [doubled_other hc, List.cons_append, readQuoted_other hc (fun _ => hslash), ih]
        rfl

/-! ## Items with separators -/

/-- A text is read as items with a separator between neighbours; the last argument is what follows
the last item. -/
inductive Separated (item : List Char → Option (List Char × List Char)) (sep : List Char) :
    List Char → List (List Char) → List Char → Prop where
  | last {cs x rest : List Char} (h : item cs = some (x, rest)) (hend : ¬sep <+: rest) :
      Separated item sep cs [x] rest
  | more {cs x rest after : List Char} {xs : List (List Char)}
      (h : item cs = some (x, sep ++ rest)) (hrest : Separated item sep rest xs after) :
      Separated item sep cs (x :: xs) after

namespace Separated

variable {item : List Char → Option (List Char × List Char)} {sep cs after after' : List Char}
  {xs ys : List (List Char)}

/-- A text is read in one way only, both as to its items and as to what follows them. -/
theorem unique (hx : Separated item sep cs xs after) (hy : Separated item sep cs ys after') :
    xs = ys ∧ after = after' := by
  induction hx generalizing ys with
  | last h hend =>
    cases hy with
    | last h' _ =>
      rw [h, Option.some.injEq, Prod.mk.injEq] at h'
      exact ⟨by rw [h'.1], h'.2⟩
    | more h' _ =>
      rw [h, Option.some.injEq, Prod.mk.injEq] at h'
      exact absurd ⟨_, h'.2.symm⟩ hend
  | more h _ ih =>
    cases hy with
    | last h' hend =>
      rw [h, Option.some.injEq, Prod.mk.injEq] at h'
      exact absurd ⟨_, h'.2⟩ hend
    | more h' hrest =>
      rw [h, Option.some.injEq, Prod.mk.injEq, List.append_cancel_left_eq] at h'
      obtain ⟨rfl, rfl⟩ := h'
      obtain ⟨rfl, rfl⟩ := ih hrest
      exact ⟨rfl, rfl⟩

/-- Joined texts are read as what they were written for, when each of them is read back before
every text that it does not go on with: the separator and what follows the last one are such. -/
theorem of_join {α : Type} {write : α → String} {said : α → List Char}
    (sep : String) (Stops : List Char → Prop) {as : List α} (hne : as ≠ [])
    (hitem : ∀ a ∈ as, ∀ rest, Stops rest → item ((write a).toList ++ rest) = some (said a, rest))
    (hsep : ∀ rest, Stops (sep.toList ++ rest)) (hafter : Stops after)
    (hend : ¬sep.toList <+: after) :
    Separated item sep.toList ((join sep (as.map write)).toList ++ after) (as.map said) after := by
  induction as with
  | nil => exact absurd rfl hne
  | cons a as ih =>
    have ha := hitem a List.mem_cons_self
    cases as with
    | nil => exact .last (ha after hafter) hend
    | cons b bs =>
      have hrest := ih (by simp) fun b hb => hitem b (List.mem_cons_of_mem a hb)
      refine .more ?_ hrest
      rw [List.map_cons, List.map_cons, join, String.toList_append, String.toList_append,
        List.append_assoc, List.append_assoc]
      exact ha _ (hsep _)

end Separated

/-! ## Scans across quoted text -/

def ScanMode.ofQuote : Option Char → ScanMode
  | none => .plain
  | some q => .quoted q

/-- Both scans of statement text, the one for placeholders and the one for the marks of raw
fragments, copy a text from a place inside or outside quotes to another one, whatever follows. -/
structure Passes (before : Option Char) (t : List Char) (after : Option Char) : Prop where
  positional : ∀ (d : Dialect) (n : Nat) (rest : List Char),
    positionalFrom d (.ofQuote before) n (t ++ rest) =
      (t ++ (positionalFrom d (.ofQuote after) n rest).1,
        (positionalFrom d (.ofQuote after) n rest).2)
  expanded : ∀ (sql : String) (own : List Value) (rest : List Char),
    ParamSink.expandFrom sql before own (t ++ rest) =
      (t ++ ·) <$> ParamSink.expandFrom sql after own rest

def IsPlace (quote : Option Char) : Prop := ∀ q ∈ quote, isQuote q = true

theorem positionalFrom_ofQuote {quote : Option Char} (h : IsPlace quote) (d : Dialect) (n : Nat)
    (cs : List Char) : positionalFrom d (.ofQuote quote) n cs =
      marked d n ((Reading.ofQuote quote).read cs) := by
  cases quote with
  | none => exact (positionalFrom_eq d cs).1 n
  | some q => exact (positionalFrom_eq d cs).2.1 n q (h q rfl)

theorem expandFrom_append (sql : String) (own : List Value) (rest : List Char) {t : List Char} :
    ∀ {r : Reading}, marksFrom r.quote? t = 0 →
      ParamSink.expandFrom sql r.quote? own (t ++ rest) =
        (t ++ ·) <$> ParamSink.expandFrom sql (r.after t).quote? own rest := by
  induction t with
  | nil =>
    intro r _
    exact (id_map _).symm
  | cons c cs ih =>
    intro r hmarks
    have hstep := Reading.quote?_step r c
    rw [List.cons_append, Reading.after_cons]
    cases hquote : r.quote? with
    | some q =>
      rw [hquote] at hstep hmarks
      dsimp only at hstep
      rw [marksFrom, ← hstep] at hmarks
      rw [ParamSink.expandFrom, ← hstep, ih hmarks]
      simp
    | none =>
      rw [hquote] at hstep hmarks
      dsimp only at hstep
      rw [marksFrom, Nat.add_eq_zero_iff, ← hstep] at hmarks
      have hc : c ≠ '?' := by
        rintro rfl
        simp at hmarks
      rw [ParamSink.expandFrom, if_neg hc, ← hstep, ih hmarks.2]
      simp

/-- A text in which the reader finds nothing is passed over from the place where it starts to the
one where the reader stands after it. -/
theorem Passes.of_reading {before after : Option Char} {t : List Char} (hbefore : IsPlace before)
    (hafter : IsPlace after) (hplace : (Reading.ofQuote before).after t = .ofQuote after)
    (hnames : ((Reading.ofQuote before).read t).filterMap Token.name? = [])
    (hmarks : marksFrom before t = 0) : Passes before t after := by
  have hquote (quote : Option Char) : (Reading.ofQuote quote).quote? = quote := by
    cases quote <;> rfl
  constructor
  · intro d n rest
    have hread : (Reading.ofQuote before).tokens t = (Reading.ofQuote before).read t := by
      rw [Reading.read, hplace]
      cases after <;> exact (List.append_nil _).symm
    have hheld : (Reading.ofQuote before).held = [] := by
      cases before <;> rfl
    rw [positionalFrom_ofQuote hbefore, positionalFrom_ofQuote hafter, Reading.read,
      Reading.tokens_append, Reading.after_append, hplace, List.append_assoc, hread, marked_append,
      marked_read hnames, hheld, List.nil_append]
    rfl
  · intro sql own rest
    have h := expandFrom_append sql own rest (t := t) (r := .ofQuote before)
      (by rwa [hquote])
    rwa [hquote, hplace, hquote] at h

theorem Passes.of_seals {t : String} (h : Seals t [] 0) : Passes none t.toList none := by
  refine .of_reading (fun _ hq => nomatch hq) (fun _ hq => nomatch hq) h.closed h.names ?_
  exact (questionMarks_eq_count t).trans h.marks

end RowMapper.Sql
