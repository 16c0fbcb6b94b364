import RowMapper.Proofs.Placeholder.Queries

/-! # Placeholders of statements that write

An update binds the values of its assignments before those of its conditions, and
writes them in this order, so only its conditions can be out of order.
-/

namespace RowMapper.Sql

open Text Render

/-- The value of a column is bound, or it stands in the text and binds nothing. -/
theorem renderCell_weaves {d : Dialect} {column : String} {v : Value} {s s' : ParamSink}
    {text : String} (h : renderCell d column v s = .ok text s') :
    ∃ count, Weaves s.parameters s'.parameters text [.values count] True := by
  have hbound (v : Value) (h : ParamSink.bind column v s = .ok text s') :
      ∃ count, Weaves s.parameters s'.parameters text [.values count] True := by
    obtain ⟨name, rfl, hname, hthreads⟩ := Threads.ofBind h
    exact ⟨1, [name], hthreads, reads_placeholder hname⟩
  have hwritten {t : String} (ht : Inert t) :
      ∃ count, Weaves s.parameters s.parameters t [.values count] True :=
    ⟨0, ht.seals.weaves rfl s.parameters⟩
  unfold renderCell at h
  split at h
  · obtain ⟨rfl, rfl⟩ := pure_eq_ok.1 h
    exact hwritten (by decide)
  · obtain ⟨rfl, rfl⟩ := pure_eq_ok.1 h
    exact hwritten (inert_boolLiteral d _)
  · split at h
    · obtain ⟨rfl, rfl⟩ := pure_eq_ok.1 h
      exact hwritten (inert_currentTimestamp d)
    · exact hbound _ h
  · exact hbound _ h

theorem WeavesAll.consValues {ps qs rs : List Parameter} {text : String} {texts : List String}
    {m n : Nat} (h : Weaves ps qs text [.values m] True)
    (hs : WeavesAll qs rs texts [.values n] True) :
    WeavesAll ps rs (text :: texts) [.values (m + n)] True := by
  obtain ⟨names, hthreads, hreads⟩ := (WeavesAll.cons h hs).congr (and_self_iff ..)
  exact ⟨names, hthreads, hreads⟩

theorem renderAssignments_weaves {d : Dialect} {values : Entries Value} {s s' : ParamSink}
    {texts : List String} (h : renderAssignments d values s = .ok texts s') :
    ∃ count, WeavesAll s.parameters s'.parameters texts [.values count] True := by
  induction values generalizing s texts with
  | nil =>
    obtain ⟨rfl, rfl⟩ := pure_eq_ok.1 h
    exact ⟨0, .nil _⟩
  | cons entry rest ih =>
    obtain ⟨cell, t, hcell, h⟩ := bind_eq_ok.1 h
    obtain ⟨others, t', hothers, h⟩ := bind_eq_ok.1 h
    obtain ⟨rfl, rfl⟩ := pure_eq_ok.1 h
    obtain ⟨m, hfirst⟩ := renderCell_weaves hcell
    obtain ⟨n, hrest⟩ := ih hothers
    have hleft := (seals_quoteIdentifier d entry.1).close (a := " = ") (by decide)
    exact ⟨m + n, .consValues (hfirst.around fun hr => by simpa using hleft.append_reads hr) hrest⟩

theorem renderAdjustments_weaves {d : Dialect} {a : Adjustment} {deltas : Entries Value}
    {s s' : ParamSink} {texts : List String} (h : renderAdjustments d a deltas s = .ok texts s') :
    ∃ count, WeavesAll s.parameters s'.parameters texts [.values count] True := by
  induction deltas generalizing s texts with
  | nil =>
    obtain ⟨rfl, rfl⟩ := pure_eq_ok.1 h
    exact ⟨0, .nil _⟩
  | cons entry rest ih =>
    rw [renderAdjustments] at h
    split at h
    · obtain ⟨mark, t, hbind, h⟩ := bind_eq_ok.1 h
      obtain ⟨others, t', hothers, h⟩ := bind_eq_ok.1 h
      obtain ⟨rfl, rfl⟩ := pure_eq_ok.1 h
      obtain ⟨n, hrest⟩ := ih hothers
      have hcolumn := seals_quoteIdentifier d entry.1
      have hsign : Inert a.sign := by
        cases a <;> decide
      have hleft : Seals _ [] (marksOf []) := ((((hcolumn.close (a := " = ") (by decide)).append_nil
        hcolumn).close (a := " ") (by decide)).close hsign).close (a := " ") (by decide)
      exact ⟨1 + n, .consValues (bind_weaves hbind hleft rfl) hrest⟩
    · exact absurd h throw_ne_ok

theorem renderWhere_weaves {d : Dialect} {conditions : List (Condition Query)} {s s' : ParamSink}
    {text : String} (h : renderWhere d conditions s = .ok text s')
    (ht : AllTame (conditionsParts conditions)) :
    Weaves s.parameters s'.parameters text (conditionsParts conditions)
      (conditionsInOrder conditions = true) ∧ Breaks text.toList := by
  obtain ⟨clauses, t, hclauses, h⟩ := bind_eq_ok.1 h
  obtain ⟨rfl, rfl⟩ := pure_eq_ok.1 h
  have htext := (renderConditions_weaves { dialect := d } conditions hclauses ht).text
  exact ⟨htext.around fun hr => hr.afterKeyword (by decide), breaks_afterKeyword (by decide) _⟩

/-- Assignments and conditions of an update, whatever the assignments are. -/
theorem updateText_weaves {d : Dialect} {table : String} {assignments : List String}
    {condition : String} {ps qs rs : List Parameter} {count : Nat}
    {conditions : List (Condition Query)}
    (ha : WeavesAll ps qs assignments [.values count] True)
    (hc : Weaves qs rs condition (conditionsParts conditions) (conditionsInOrder conditions = true))
    (hb : Breaks condition.toList) :
    Weaves ps rs (updateText d table assignments condition)
      (.values count :: conditionsParts conditions) (conditionsInOrder conditions = true) := by
  rcases ha with ⟨names, hthreads, hreads⟩
  have hhead := ((seals_quoteQualified d table).prepend (a := "UPDATE ") (by decide)).close
    (a := " SET ") (by decide)
  have hset : Weaves ps qs ("UPDATE " ++ quoteQualified d table ++ " SET " ++ join ", " assignments)
      [.values count] True :=
    ⟨names, hthreads, by simpa using hhead.append_reads (hreads.join (by decide))⟩
  exact (hset.append hc hb).congr (by rw [true_and])

end RowMapper.Sql
