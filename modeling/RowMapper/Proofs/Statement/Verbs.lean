import RowMapper.Proofs.Placeholder.Positional
import RowMapper.Proofs.Render.Runs
import RowMapper.Proofs.Statement.Alignment

/-! # The verb of a statement

The kind of a statement is its first word. It is written first by every rendering, and
it stands before all names and values, so the marks that are put for placeholders
leave it as it is.
-/

namespace RowMapper.Sql

open Run

/-- The letters with which a statement begins. -/
def verb (sql : String) : String := String.ofList (sql.toList.takeWhile Char.isAlpha)

structure Begins (word sql : String) : Prop where
  letters : word.toList.all Char.isAlpha = true
  starts : word.toList ++ [' '] <+: sql.toList

variable {word sql : String} {d : Dialect}

theorem Begins.verb_eq (h : Begins word sql) : verb sql = word := by
  obtain ⟨rest, hrest⟩ := h.starts
  have hword : ∀ c ∈ word.toList, c.isAlpha = true := List.all_eq_true.1 h.letters
  rw [verb, ← hrest, List.append_assoc, List.takeWhile_append_of_pos hword]
  simp

theorem Begins.append (h : Begins word sql) (text : String) : Begins word (sql ++ text) where
  letters := h.letters
  starts := by
    rw [String.toList_append]
    exact h.starts.trans (List.prefix_append _ _)

/-! ## Placeholders -/

/-- Outside quotes letters and blanks are left as they are. -/
theorem positionalFrom_of_letters (d : Dialect) (n : Nat) {cs : List Char}
    (h : ∀ c ∈ cs, isQuote c = false ∧ c ≠ ':') (rest : List Char) :
    (positionalFrom d .plain n (cs ++ rest)).1 = cs ++ (positionalFrom d .plain n rest).1 := by
  induction cs with
  | nil => rfl
  | cons c cs ih =>
    obtain ⟨hquote, hcolon⟩ := h c List.mem_cons_self
    rw [List.cons_append, positionalFrom.eq_def]
    simp only [reduceCtorEq, decide_false, Bool.false_and, Bool.false_eq_true, if_false, hquote,
      hcolon]
    rw [List.cons_append, ih fun c' hc' => h c' (List.mem_cons_of_mem c hc')]

theorem plain_of_isAlpha {c : Char} (h : c.isAlpha = true) : isQuote c = false ∧ c ≠ ':' := by
  constructor
  · by_contra hquote
    simp only [isQuote, Bool.not_eq_false, Bool.or_eq_true, beq_iff_eq] at hquote
    rcases hquote with (rfl | rfl) | rfl <;> exact absurd h (by decide)
  · rintro rfl
    exact absurd h (by decide)

theorem Begins.toPositional (h : Begins word sql) (d : Dialect) :
    Begins word (toPositional d sql).1 where
  letters := h.letters
  starts := by
    obtain ⟨rest, hrest⟩ := h.starts
    have hplain : ∀ c ∈ word.toList ++ [' '], isQuote c = false ∧ c ≠ ':' := by
      intro c hc
      rcases List.mem_append.1 hc with hc | hc
      · exact plain_of_isAlpha (List.all_eq_true.1 h.letters c hc)
      · rw [List.mem_singleton.1 hc]
        decide
    change _ <+: (String.ofList (positionalFrom d .plain 0 sql.toList).1).toList
    rw [String.toList_ofList, ← hrest, positionalFrom_of_letters d 0 hplain]
    exact List.prefix_append _ _

theorem Begins.positional {values given : List Value} {text : String} (h : Begins word sql)
    (hsent : positional d sql values = .ok (text, given)) : Begins word text := by
  obtain ⟨-, rfl, -⟩ := positional_eq_ok.1 hsent
  exact h.toPositional d

/-! ## The statements -/

theorem begins_insertion {table : String} {rows : List (Entries Value)} {options : InsertOptions}
    {statement : Statement} (h : insertion d table rows options = .ok (some statement)) :
    Begins "INSERT" statement.sql := by
  cases rows with
  | nil => cases h
  | cons first others =>
    obtain ⟨text, sink, hrun, rfl⟩ := Statement.ofRender_eq_ok (Statement.eq_ok_of_map_some h)
    obtain ⟨values, t, -, hrest⟩ := bind_eq_ok.1 hrun
    cases hconflict : conflictText d options with
    | error e =>
      rw [hconflict] at hrest
      cases hrest
    | ok conflict =>
      rw [hconflict] at hrest
      obtain ⟨rfl, -⟩ := pure_eq_ok.1 hrest
      have hhead : Begins "INSERT" ("INSERT" ++
          (if options.skipDuplicates then d.insertIgnoreWord else "") ++ " INTO ") := by
        refine ⟨by decide, ?_⟩
        split
        · cases d <;> decide
        · decide
      exact (((hhead.append _).append _).append _).append _

theorem begins_deletion {table : String} {conditions : List (Condition Query)}
    {statement : Statement} (h : deletion d table conditions = .ok statement) :
    Begins "DELETE" statement.sql := by
  obtain ⟨text, sink, hrun, rfl⟩ := Statement.ofRender_eq_ok h
  obtain ⟨condition, t, -, hrest⟩ := bind_eq_ok.1 hrun
  obtain ⟨rfl, -⟩ := pure_eq_ok.1 hrest
  have hhead : Begins "DELETE" "DELETE FROM " := ⟨by decide, by decide⟩
  exact (hhead.append _).append _

theorem begins_update {table : String} {values : Entries Value}
    {conditions : List (Condition Query)} {writeNulls : Bool} {statement : Statement}
    (h : update d table values conditions writeNulls = .ok (some statement)) :
    Begins "UPDATE" statement.sql := by
  unfold update at h
  dsimp only at h
  split at h
  · cases h
  · obtain ⟨text, sink, hrun, rfl⟩ := Statement.ofRender_eq_ok (Statement.eq_ok_of_map_some h)
    obtain ⟨assignments, t, -, hrest⟩ := bind_eq_ok.1 hrun
    obtain ⟨condition, t', -, hrest⟩ := bind_eq_ok.1 hrest
    obtain ⟨rfl, -⟩ := pure_eq_ok.1 hrest
    have hhead : Begins "UPDATE" "UPDATE " := ⟨by decide, by decide⟩
    exact (((hhead.append _).append _).append _).append _

theorem begins_ofQuery {q : Query} {statement : Statement}
    (h : Statement.ofQuery d q = .ok statement) : Begins "SELECT" statement.sql := by
  obtain ⟨text, sink, hrun, rfl⟩ := Statement.ofRender_eq_ok h
  obtain ⟨p, rfl, -⟩ := Render.renderQuery_eq_ok hrun
  have hhead : Begins "SELECT" "SELECT " := ⟨by decide, by decide⟩
  unfold Render.QueryParts.text
  simp only [String.append_assoc]
  exact hhead.append _

theorem begins_tableProbe (d : Dialect) (table : String) :
    Begins "SELECT" (tableProbe d table) := by
  have hhead : Begins "SELECT" "SELECT 1 FROM " := ⟨by decide, by decide⟩
  exact (hhead.append _).append _

theorem begins_tableCreation {table sql : String} {definitions : List String}
    (h : tableCreation d table definitions = .ok sql) : Begins "CREATE" sql := by
  unfold tableCreation at h
  cases hname : validateIdentifier table with
  | error e =>
    rw [hname] at h
    cases h
  | ok _ =>
    rw [hname] at h
    cases h
    have hhead : Begins "CREATE" "CREATE TABLE IF NOT EXISTS " := ⟨by decide, by decide⟩
    exact (((hhead.append _).append _).append _).append _

end RowMapper.Sql
