import RowMapper.Proofs.Parameter.Filing
import RowMapper.Proofs.Statement.Alignment
import RowMapper.Proofs.Statement.Updates

/-! # The assignments of any update

Whatever the conditions of an update are, its text is sent with the assignments first,
one for each value and in their order, and with the values that these bind before those
of the conditions. Nothing that stands in the conditions reaches back into them.
-/

namespace RowMapper.Sql

open Text

def IsWhere (text : String) : Prop := text = "" ∨ ∃ predicate, text = " WHERE " ++ predicate

theorem isWhere_afterKeyword (predicate : String) : IsWhere (afterKeyword " WHERE " predicate) := by
  unfold afterKeyword
  split
  · exact .inl rfl
  · exact .inr ⟨predicate, rfl⟩

/-- When marks take the place of placeholders, the conditions after a text leave it as it is. -/
theorem Becomes.toPositional_append {d : Dialect} {n : Nat} {t u w : String}
    (h : Becomes d 0 t n u) (hw : IsWhere w) :
    ∃ w', IsWhere w' ∧ (Sql.toPositional d (t ++ w)).1 = u ++ w' := by
  obtain rfl | ⟨predicate, rfl⟩ := hw
  · exact ⟨"", .inl rfl, by rw [String.append_empty, h.toPositional, String.append_empty]⟩
  · have hkeyword : Delimits " WHERE " := by decide
    have hwhere := Becomes.ofReads hkeyword.inert.seals.reads d n
    have htokens : tokens (t ++ (" WHERE " ++ predicate)).toList =
        tokens t.toList ++ (tokens " WHERE ".toList ++ tokens predicate.toList) := by
      rw [String.toList_append, tokens_append_of_breaks h.ends hkeyword.breaks_append,
        String.toList_append, tokens_append_of_isClosed hkeyword.inert.seals.closed]
    have hfrom := (positionalFrom_eq d (t ++ (" WHERE " ++ predicate)).toList).1 0
    have hread : Reading.plain.read (t ++ (" WHERE " ++ predicate)).toList = _ := htokens
    rw [hread, marked_append, h.marked, marked_append, hwhere.marked] at hfrom
    refine ⟨_, .inr ⟨String.ofList (Sql.marked d n (tokens predicate.toList)).1, rfl⟩, ?_⟩
    rw [Sql.toPositional, hfrom]
    simp only [String.ofList_append, String.ofList_toList]

/-- An update under any conditions is sent with its assignments in order, and with their bound
values before those of the conditions. -/
theorem update_assigns {d : Dialect} {table : String} {values : Entries Value}
    {conditions : List (Condition Query)} {statement : Statement} {sql : String}
    {params : List Value} (h : update d table values conditions true = .ok (some statement))
    (hsql : statement.toPositional d = .ok (sql, params)) : ∃ condition keys, IsWhere condition ∧
      sql = updateText d table (assignmentTexts d 0 values) condition ∧
      params = boundValues d values ++ keys := by
  have hwritten : (values.filter fun entry => isWritten true entry.2) = values := by
    simp [isWritten]
  rw [update, hwritten] at h
  split at h
  · cases h
  obtain ⟨text, sink, hrender, rfl⟩ :=
    Statement.ofRender_eq_ok (Statement.eq_ok_of_map_some h)
  obtain ⟨texts, t, hassign, hbecomes, hbound⟩ := renderAssignments_becomes d values 0 {}
  obtain ⟨texts', t', hassign', hrest⟩ := Render.bind_eq_ok.1 hrender
  rw [hassign] at hassign'
  cases hassign'
  obtain ⟨condition, s, hwhere, hlast⟩ := Render.bind_eq_ok.1 hrest
  obtain ⟨rfl, rfl⟩ := Render.pure_eq_ok.1 hlast
  obtain ⟨clauses, s', hclauses, hlast⟩ := Render.bind_eq_ok.1 hwhere
  obtain ⟨rfl, rfl⟩ := Render.pure_eq_ok.1 hlast
  have hfiled : ParamSink.Filed t s' :=
    Render.renderConditions_keeps ParamSink.stable_filed { dialect := d } conditions hclauses
  obtain ⟨added, hadded, -⟩ := hfiled.added
  obtain ⟨-, rfl, rfl⟩ := positional_eq_ok.1 hsql
  have hhead := ((seals_quoteQualified d table).prepend (a := "UPDATE ") (by decide)).close
    (a := " SET ") (by decide)
  have hjoined : Becomes d 0 (join ", " texts) _ _ := hbecomes.join (by decide)
  obtain ⟨condition, hcondition, htext⟩ :=
    (hjoined.after hhead).toPositional_append (isWhere_afterKeyword (Clauses.text clauses))
  have hvalues : s'.parameters.map Parameter.value =
      boundValues d values ++ added.map Parameter.value := by
    rw [hadded, List.map_append, hbound]
    rfl
  have hparams : s'.named.map Prod.snd = s'.parameters.map Parameter.value := by
    simp [ParamSink.named]
  exact ⟨condition, added.map Parameter.value, hcondition, htext, hparams.trans hvalues⟩

end RowMapper.Sql
