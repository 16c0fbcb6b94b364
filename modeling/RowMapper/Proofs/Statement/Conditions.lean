import RowMapper.Proofs.Statement.Binding

/-! # Conditions that are joined by AND

Conditions on keys and lists of keys bind their values in the order in which they
stand. Each becomes a comparison with the next marks, in parentheses, with AND between
neighbours.
-/

namespace RowMapper.Sql

open Text

def conjunction (texts : List String) : String := join " AND " (texts.map parenthesized)

def Conjoined (d : Dialect) (n : Nat) (clauses : Clauses) (m : Nat) (texts : List String) : Prop :=
  ∃ written : List String, clauses = written.map (fun text => (.and, text)) ∧
    BecomesAll d n written m texts

section

variable {d : Dialect} {n m k : Nat}

theorem BecomesAll.length_eq {ts us : List String} (h : BecomesAll d n ts m us) :
    ts.length = us.length := by
  induction h with
  | nil => rfl
  | cons _ _ ih => rw [List.length_cons, List.length_cons, ih]

theorem BecomesAll.parenthesized {ts us : List String} (h : BecomesAll d n ts m us) :
    BecomesAll d n (ts.map Sql.parenthesized) m (us.map Sql.parenthesized) := by
  induction h with
  | nil => exact .nil
  | cons h _ ih => exact .cons h.parenthesized ih

theorem clausesText_conjoined (texts : List String) :
    Clauses.text (texts.map fun text => (.and, text)) = conjunction texts := by
  have hand : Clauses.texts (texts.map fun text => (.and, text)) .and =
      texts.map parenthesized := by
    simp [Clauses.texts, List.filter_map, Function.comp_def, parenthesized]
  have hor : Clauses.texts (texts.map fun text => (.and, text)) .or = [] := by
    simp [Clauses.texts, List.filter_map, Function.comp_def]
  rw [Clauses.text, hand, hor]
  rfl

theorem Conjoined.text {clauses : Clauses} {texts : List String}
    (h : Conjoined d n clauses m texts) :
    Becomes d n (Clauses.text clauses) m (conjunction texts) := by
  obtain ⟨written, rfl, hwritten⟩ := h
  rw [clausesText_conjoined]
  exact hwritten.parenthesized.join (by decide)

theorem conjunction_cons_ne_empty (text : String) (texts : List String) :
    (conjunction (text :: texts)).isEmpty = false := by
  rw [String.isEmpty_eq_false_iff]
  intro h
  have hlist := congrArg String.toList h
  cases texts <;> simp [conjunction, parenthesized, join] at hlist

theorem Conjoined.text_ne_empty {clauses : Clauses} {texts : List String} (hne : texts ≠ [])
    (h : Conjoined d n clauses m texts) : (Clauses.text clauses).isEmpty = false := by
  obtain ⟨written, rfl, hwritten⟩ := h
  have hlength := hwritten.length_eq
  rw [clausesText_conjoined]
  cases written with
  | nil => exact absurd (List.length_eq_zero_iff.1 hlength.symm) hne
  | cons first rest => exact conjunction_cons_ne_empty first rest

theorem Conjoined.afterKeyword {clauses : Clauses} {texts : List String} (keyword : String)
    (hkeyword : Inert keyword) (hne : texts ≠ []) (h : Conjoined d n clauses m texts) :
    Becomes d n (afterKeyword keyword (Clauses.text clauses)) m (keyword ++ conjunction texts) := by
  rw [Sql.afterKeyword, h.text_ne_empty hne, if_neg Bool.false_ne_true]
  exact h.text.after hkeyword.seals

/-! ## Single conditions -/

def ConditionBinds (scope : Scope) (n : Nat) (c : Condition Query) (values : List Value)
    (text : String) : Prop :=
  c.connective = .and ∧ Binds (renderCondition scope c) values fun written =>
    ∃ t, written = some t ∧ Becomes scope.dialect n t (n + values.length) text

theorem conditionBinds_key {scope : Scope} {column : String} {key : Value}
    (hplain : Condition.isRawColumn column = false) (hkey : key ≠ .null)
    (hcolumn : Seals (scope.qualify column) [] 0) (n : Nat) :
    ConditionBinds scope n (.key column key) [key]
      (scope.qualify column ++ " = " ++ scope.dialect.mark n) := by
  refine ⟨rfl, fun s => ?_⟩
  obtain ⟨placeholder, t, hbind, hmark, hadds⟩ := binds_bind scope.dialect n column key s
  refine ⟨_, t, renderCondition_key scope hplain hkey hbind, ⟨_, rfl, ?_⟩, hadds⟩
  have hequals : " = " = " " ++ Comparison.equal.symbol ++ " " := by decide
  have hhead := hcolumn.close (a := " = ") (by decide)
  rw [hequals] at hhead ⊢
  rw [List.length_singleton]
  simpa only [String.append_assoc] using hmark.after hhead

theorem bindAll_binds (d : Dialect) (n : Nat) (column : String) (values : List Value) :
    Binds (bindAll column values) values fun texts =>
      BecomesAll d n texts (n + values.length) (markRow d n values.length) := by
  induction values generalizing n with
  | nil => exact .pure .nil
  | cons v vs ih =>
    rw [bindAll, List.length_cons, markRow_succ, ← Nat.add_assoc, Nat.add_right_comm]
    exact (binds_bind d n column v).seq fun text htext =>
      (ih (n + 1)).map fun texts htexts => .cons htext htexts

theorem conditionBinds_isIn {scope : Scope} {column : String} {values : List Value}
    (hvalues : values ≠ []) (hcolumn : Seals (scope.qualify column) [] 0) (n : Nat) :
    ConditionBinds scope n (.isIn column values false .and) values
      (scope.qualify column ++ " IN (" ++ join ", " (markRow scope.dialect n values.length) ++
        ")") := by
  refine ⟨rfl, ?_⟩
  have hnonempty : values.isEmpty = false := by simpa using hvalues
  have hhead := (hcolumn.close (a := " IN") (by decide)).close (a := " (") (by decide)
  have hmembership : Binds (renderMembership scope column values false) values fun t =>
      Becomes scope.dialect n t (n + values.length) (scope.qualify column ++ " IN" ++ " (" ++
        join ", " (markRow scope.dialect n values.length) ++ ")") := by
    rw [renderMembership, hnonempty, if_neg Bool.false_ne_true]
    exact (bindAll_binds scope.dialect n column values).map fun texts htexts =>
      ((htexts.join (by decide)).after hhead).close (by decide)
  have hopen : " IN (" = " IN" ++ " (" := by decide
  rw [hopen, renderCondition]
  simp only [← String.append_assoc]
  exact hmembership.map fun t ht => ⟨t, rfl, ht⟩

/-! ## Siblings -/

variable {scope : Scope} {c : Condition Query} {cs : List (Condition Query)} {vs ws : List Value}
  {text : String} {texts : List String}

theorem renderConditions_nil_binds (scope : Scope) (n : Nat) :
    Binds (renderConditions scope []) [] fun clauses => Conjoined scope.dialect n clauses n [] :=
  .pure ⟨[], rfl, .nil⟩

theorem renderConditions_cons_binds (hfirst : ConditionBinds scope n c vs text)
    (hrest : Binds (renderConditions scope cs) ws fun clauses =>
      Conjoined scope.dialect (n + vs.length) clauses (n + vs.length + ws.length) texts) :
    Binds (renderConditions scope (c :: cs)) (vs ++ ws) fun clauses =>
      Conjoined scope.dialect n clauses (n + (vs ++ ws).length) (text :: texts) := by
  obtain ⟨hand, hfirst⟩ := hfirst
  rw [renderConditions, List.length_append, ← Nat.add_assoc]
  refine hfirst.seq fun written hwritten => hrest.map fun clauses hclauses => ?_
  obtain ⟨t, rfl, ht⟩ := hwritten
  obtain ⟨ts, rfl, hts⟩ := hclauses
  exact ⟨t :: ts, by rw [hand, List.map_cons], .cons ht hts⟩

theorem conditionBinds_group (hne : texts ≠ []) (h : Binds (renderConditions scope cs) vs
    fun clauses => Conjoined scope.dialect n clauses (n + vs.length) texts) :
    ConditionBinds scope n (.group cs .and) vs (conjunction texts) := by
  refine ⟨rfl, ?_⟩
  rw [renderCondition]
  refine h.map fun clauses hclauses => ⟨Clauses.text clauses, ?_, hclauses.text⟩
  simp only [hclauses.text_ne_empty hne, Bool.false_eq_true, if_false]

theorem renderWhere_binds (hne : texts ≠ []) (h : Binds (renderConditions { dialect := d } cs) vs
    fun clauses => Conjoined d n clauses m texts) :
    Binds (renderWhere d cs) vs fun text => Becomes d n text m (" WHERE " ++ conjunction texts) :=
  h.map fun _ hclauses => hclauses.afterKeyword " WHERE " (by decide) hne

end

end RowMapper.Sql
