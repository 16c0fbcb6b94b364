import RowMapper.Proofs.Parameter.Filing

/-! # Clauses left as they were found

Queries and predicates are rendered inside each other to any depth, and each query opens its own
seven clauses. Every clause is closed again before the query ends, so that a rendering that
succeeds leaves the open clauses as it found them. A query has its own waiting values; only the
fragments of a predicate take from those that wait already, the first one first.
-/

namespace RowMapper.Sql

open Render

namespace ParamSink

/-- From one sink to the other, waiting values were only taken, from the first one on. -/
def Taken (s t : ParamSink) : Prop := t.pending <:+ s.pending

theorem stable_taken : Stable Taken where
  refl s := List.suffix_refl s.pending
  trans h h' := List.IsSuffix.trans h' h
  bind column v := by
    intro s a s' h
    cases h
    exact List.suffix_refl s.pending
  take h := by
    rw [Taken, h]
    exact List.suffix_cons _ _
  clause _ _ _ := List.suffix_refl _

theorem pending_inClause {α : Type} {c : Category} {given : List Value} {body : Render α}
    {s s' : ParamSink} {a : α} (h : inClause c given body s = .ok a s') : s'.pending = s.pending := by
  obtain ⟨t, -, -, rfl⟩ := inClause_eq_ok.1 h
  rfl

end ParamSink

theorem pending_renderQuery {d : Dialect} {q : Query} {s s' : ParamSink} {text : String}
    (h : renderQuery d q s = .ok text s') : s'.pending = s.pending := by
  obtain ⟨p, -, s₁, s₂, s₃, s₄, s₅, s₆, h₁, h₂, h₃, h₄, h₅, h₆, h₇⟩ := renderQuery_eq_ok h
  calc s'.pending = s₆.pending := ParamSink.pending_inClause h₇
    _ = s₅.pending := ParamSink.pending_inClause h₆
    _ = s₄.pending := ParamSink.pending_inClause h₅
    _ = s₃.pending := ParamSink.pending_inClause h₄
    _ = s₂.pending := ParamSink.pending_inClause h₃
    _ = s₁.pending := ParamSink.pending_inClause h₂
    _ = s.pending := ParamSink.pending_inClause h₁

/-- Rendering a query or a predicate, in whatever state, leaves the depth and the clause that is
open as they are, and only adds to the bound values; inside an open clause all that is added is
filed under it. A query leaves the waiting values, a predicate takes some from the front. -/
theorem renderings_keep_frame (d : Dialect) (q : Query) (scope : Scope)
    (conditions : List (Condition Query)) (s : ParamSink) :
    (∀ text s', renderQuery d q s = .ok text s' →
      s'.depth = s.depth ∧ s'.category = s.category ∧ s'.pending = s.pending ∧
      ∃ new, s'.parameters = s.parameters ++ new ∧
        (0 < s.depth → ∀ p ∈ new, p.category = s.category)) ∧
    ∀ clauses s', renderConditions scope conditions s = .ok clauses s' →
      s'.depth = s.depth ∧ s'.category = s.category ∧ s'.pending <:+ s.pending ∧
      ∃ new, s'.parameters = s.parameters ++ new ∧
        (0 < s.depth → ∀ p ∈ new, p.category = s.category) := by
  constructor
  · intro text s' h
    have hfiled := renderQuery_keeps ParamSink.stable_filed d q h
    exact ⟨hfiled.depth, hfiled.category, pending_renderQuery h, hfiled.added⟩
  · intro clauses s' h
    have hfiled := renderConditions_keeps ParamSink.stable_filed scope conditions h
    have htaken := renderConditions_keeps ParamSink.stable_taken scope conditions h
    exact ⟨hfiled.depth, hfiled.category, htaken, hfiled.added⟩

def busySink : ParamSink :=
  { counters := [("n", 1)], parameters := [⟨"n1", .int64 1, .join⟩], category := .having,
    depth := 2, pending := [.int64 2, .int64 3] }

def nestedSource : Query :=
  { sources := [.sub { sources := [.table "t"], wheres := [.isIn "n" [.int64 4] false .and] } "u"]
    wheres := [.raw "m < ?" [] .and]
    given := [(.filter, .int64 5)] }

def nestedPredicate : List (Condition Query) :=
  [.raw "k = ?" [] .and, .hasRows nestedSource false .or]

theorem busySink_framed : ∃ text s' clauses s'',
    renderQuery .mysql nestedSource busySink = .ok text s' ∧
    (s'.depth = 2 ∧ s'.category = .having ∧ s'.pending = [.int64 2, .int64 3] ∧
      ∃ new, s'.parameters = busySink.parameters ++ new ∧
        (0 < busySink.depth → ∀ p ∈ new, p.category = .having)) ∧
    renderConditions { dialect := .mysql } nestedPredicate busySink = .ok clauses s'' ∧
    (s''.depth = 2 ∧ s''.category = .having ∧ s''.pending <:+ [.int64 2, .int64 3] ∧
      ∃ new, s''.parameters = busySink.parameters ++ new ∧
        (0 < busySink.depth → ∀ p ∈ new, p.category = .having)) := by
  have hquery := Run.eq_ok_of_value? (x := renderQuery .mysql nestedSource busySink)
    (a := "SELECT * FROM (SELECT * FROM t WHERE (t.n IN (:n2))) AS u WHERE (m < :raw1)")
    (by decide +kernel)
  have hpredicate := Run.eq_ok_of_value?
    (x := renderConditions { dialect := .mysql } nestedPredicate busySink)
    (a := [(.and, "k = :raw1"), (.or, "EXISTS (SELECT * FROM (SELECT * FROM t WHERE " ++
      "(t.n IN (:n2))) AS u WHERE (m < :raw2))")])
    (by decide +kernel)
  have hframe := renderings_keep_frame .mysql nestedSource { dialect := .mysql } nestedPredicate
    busySink
  exact ⟨_, _, _, _, hquery, hframe.1 _ _ hquery, hpredicate, hframe.2 _ _ hpredicate⟩

end RowMapper.Sql
