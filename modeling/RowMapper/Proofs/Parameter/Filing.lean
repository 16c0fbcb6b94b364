import RowMapper.Proofs.Outcome
import RowMapper.Proofs.Render.Runs

/-! # Values under their clauses

A rendered query files its values clause by clause in the order in which the
clauses stand, so the values put together clause by clause are the values in the
order in which they were bound. Queries nested in a clause open clauses of their
own and still file everything under the clause that they stand in.
-/

namespace RowMapper.Sql

open Render

namespace Bindings

def Under (b : Bindings) (c : Category) : Prop := ∀ entry ∈ b, entry.1 = c

theorem get_append (a b : Bindings) (c : Category) : get (a ++ b) c = a.get c ++ b.get c := by
  simp [get, List.filter_append]

theorem Under.get_self {b : Bindings} {c : Category} (h : b.Under c) :
    b.get c = b.map Prod.snd := by
  rw [get, List.filter_eq_self.2 fun entry he => by simpa using h entry he]

theorem Under.get_of_ne {b : Bindings} {c c' : Category} (h : b.Under c) (hne : c ≠ c') :
    b.get c' = [] := by
  rw [get, List.filter_eq_nil_iff.2, List.map_nil]
  intro entry he
  simpa [h entry he] using hne

/-- Values that came clause after clause stay in place when they are put together by clauses. -/
theorem flatten_flatMap {blocks : Category → Bindings} (h : ∀ c, (blocks c).Under c) :
    flatten (Category.all.flatMap blocks) = (Category.all.flatMap blocks).map Prod.snd := by
  have hget : get (Category.all.flatMap blocks) = fun c => (blocks c).map Prod.snd := by
    funext c
    rw [← (h c).get_self]
    cases c <;>
      simp [Category.all, get_append, (h .select).get_of_ne, (h .source).get_of_ne,
        (h .join).get_of_ne, (h .filter).get_of_ne, (h .having).get_of_ne, (h .order).get_of_ne,
        (h .union).get_of_ne]
  rw [flatten, hget, List.map_flatMap]

end Bindings

namespace ParamSink

/-- From one sink to the other, the open clauses are the same, and values were only added; inside
an open clause all of them were filed under the clause that is being rendered. -/
structure Filed (s s' : ParamSink) : Prop where
  depth : s'.depth = s.depth
  category : s'.category = s.category
  added : ∃ new, s'.parameters = s.parameters ++ new ∧
    (0 < s.depth → ∀ p ∈ new, p.category = s.category)

theorem Filed.trans {s t u : ParamSink} (h : Filed s t) (h' : Filed t u) : Filed s u := by
  obtain ⟨new, hnew, hcat⟩ := h.added
  obtain ⟨new', hnew', hcat'⟩ := h'.added
  refine ⟨h'.depth.trans h.depth, h'.category.trans h.category, new ++ new', ?_, ?_⟩
  · rw [hnew', hnew, List.append_assoc]
  · intro hd p hp
    rcases List.mem_append.1 hp with hp | hp
    · exact hcat hd p hp
    · exact (hcat' (h.depth ▸ hd) p hp).trans h.category

theorem filed_bind (column : String) (v : Value) : Keeps Filed (bind column v) := by
  intro s a s' h
  cases h
  exact ⟨rfl, rfl, _, rfl, fun _ p hp => by rw [List.mem_singleton.1 hp]⟩

/-- What was filed inside an opened clause: under that clause at the outermost level, and under
the clause that was open already below it. -/
theorem Filed.ofOpen {s t : ParamSink} {c : Category} {given : List Value}
    (h : Filed (s.openClause c given).2 t) : ∃ new, t.parameters = s.parameters ++ new ∧
      ∀ p ∈ new, p.category = if s.depth = 0 then c else s.category := by
  obtain ⟨new, hnew, hcat⟩ := h.added
  exact ⟨new, hnew, hcat (Nat.succ_pos _)⟩

theorem filed_restore {s t : ParamSink} {c : Category} {given : List Value}
    (h : Filed (s.openClause c given).2 t) : Filed s (t.restore (s.openClause c given).1) := by
  obtain ⟨new, hnew, hcat⟩ := h.ofOpen
  refine ⟨?_, rfl, new, hnew, fun hd p hp => ?_⟩
  · change t.depth - 1 = s.depth
    rw [h.depth]
    rfl
  · rw [hcat p hp, if_neg (Nat.pos_iff_ne_zero.1 hd)]

theorem stable_filed : Stable Filed where
  refl s := ⟨rfl, rfl, [], by simp, by simp⟩
  trans := Filed.trans
  bind := filed_bind
  take _ := ⟨rfl, rfl, [], by simp, by simp⟩
  clause _ _ := filed_restore

/-- At the outermost level a clause files everything under itself. -/
theorem inClause_filed {α : Type} {c : Category} {given : List Value} {body : Render α}
    (hbody : Keeps Filed body) {s s' : ParamSink} {a : α} (h : inClause c given body s = .ok a s')
    (hs : s.depth = 0) : s'.depth = 0 ∧ ∃ new, s'.parameters = s.parameters ++ new ∧
      ∀ p ∈ new, p.category = c := by
  refine ⟨((stable_filed.within c given hbody) h).depth.trans hs, ?_⟩
  obtain ⟨t, ht, -, rfl⟩ := inClause_eq_ok.1 h
  obtain ⟨new, hnew, hcat⟩ := (hbody ht).ofOpen
  exact ⟨new, hnew, by simpa [hs] using hcat⟩

end ParamSink

def byClause {α : Type} (selected sources joined filter having ordered united : List α) :
    Category → List α
  | .select => selected
  | .source => sources
  | .join => joined
  | .filter => filter
  | .having => having
  | .order => ordered
  | .union => united

/-- A query that is rendered at the outermost level adds one block of values for each clause. -/
theorem renderQuery_blocks {d : Dialect} {q : Query} {s s' : ParamSink} {text : String}
    (h : renderQuery d q s = .ok text s') (hs : s.depth = 0) :
    ∃ blocks : Category → List Parameter,
      s'.parameters = s.parameters ++ Category.all.flatMap blocks ∧
        ∀ c, ∀ p ∈ blocks c, p.category = c := by
  obtain ⟨parts, -, s₁, s₂, s₃, s₄, s₅, s₆, h₁, h₂, h₃, h₄, h₅, h₆, h₇⟩ := renderQuery_eq_ok h
  have hR := ParamSink.stable_filed
  obtain ⟨d₁, selected, e₁, c₁⟩ := ParamSink.inClause_filed (renderColumns_keeps hR _ _) h₁ hs
  obtain ⟨d₂, sources, e₂, c₂⟩ := ParamSink.inClause_filed (renderSources_keeps hR _ _) h₂ d₁
  obtain ⟨d₃, joined, e₃, c₃⟩ := ParamSink.inClause_filed (renderJoins_keeps hR _ _) h₃ d₂
  obtain ⟨d₄, filter, e₄, c₄⟩ := ParamSink.inClause_filed (renderConditions_keeps hR _ _) h₄ d₃
  obtain ⟨d₅, having, e₅, c₅⟩ := ParamSink.inClause_filed (renderConditions_keeps hR _ _) h₅ d₄
  obtain ⟨d₆, ordered, e₆, c₆⟩ := ParamSink.inClause_filed (hR.renderOrders _ _) h₆ d₅
  obtain ⟨-, united, e₇, c₇⟩ := ParamSink.inClause_filed (renderUnions_keeps hR _ _) h₇ d₆
  refine ⟨byClause selected sources joined filter having ordered united, ?_, ?_⟩
  · simp [e₇, e₆, e₅, e₄, e₃, e₂, e₁, Category.all, byClause]
  · intro c
    cases c <;> assumption

namespace Statement

theorem flatten_bindings_of_ofQuery {d : Dialect} {q : Query} {s : Statement}
    (h : ofQuery d q = .ok s) : s.bindings.flatten = s.params := by
  rw [ofQuery, ofRender] at h
  split at h
  · next text sink hr =>
    cases h
    obtain ⟨blocks, hp, hc⟩ := renderQuery_blocks hr rfl
    have hb : sink.bindings
        = Category.all.flatMap fun c => (blocks c).map fun p => (p.category, p.value) := by
      simp [ParamSink.bindings, hp, List.map_flatMap]
    have hv : sink.named.map Prod.snd = sink.bindings.map Prod.snd := by
      simp [ParamSink.named, ParamSink.bindings]
    change sink.bindings.flatten = sink.named.map Prod.snd
    rw [hv, hb, Bindings.flatten_flatMap]
    intro c entry he
    obtain ⟨p, hp, rfl⟩ := List.mem_map.1 he
    exact hc c p hp
  · cases h

/-- The statement of a query, and the one that asks for its rows, have the values in the order of
their clauses. -/
theorem flatten_bindings (d : Dialect) (q : Query) (s : Statement)
    (h : ofQuery d q = .ok s ∨ ofExistence d q = .ok s) : s.bindings.flatten = s.params := by
  rcases h with h | h
  · exact flatten_bindings_of_ofQuery h
  · rw [ofExistence] at h
    cases hq : ofQuery d q with
    | error e => rw [hq] at h; cases h
    | ok t =>
      rw [hq] at h
      cases h
      simpa [params] using flatten_bindings_of_ofQuery hq

/-- A query with a query in its select list, its source, its join, its conditions, its group
conditions and its union, each of which binds a value. -/
def nestedSample : Query :=
  let inner (column : String) : Query :=
    { sources := [.table "t"], wheres := [.basic column "=" (.value (.int64 1)) .and],
      havings := [.basic column "=" (.value (.int64 2)) .and] }
  { columns := [.sub (inner "a") "x"]
    sources := [.sub (inner "b") "y"]
    joins := [{ kind := .left, target := .sub (inner "c") "z"
                conditions := [.hasRows (inner "d") false .and] }]
    wheres := [.hasRows (inner "e") false .or, .group [.hasRows (inner "f") true .and] .and]
    havings := [.sub "g" "=" (inner "g") .and]
    unions := [(inner "h", true)] }

theorem nestedSample_flatten : ∃ s, ofExistence .mysql nestedSample = .ok s ∧
    s.bindings.flatten = s.params ∧ s.params.length = 16 := by
  obtain ⟨s, hs⟩ := Outcome.exists_of_isOk (x := ofExistence .mysql nestedSample) (by decide +kernel)
  have hlength : (ofExistence .mysql nestedSample).toOption.map (fun s => s.params.length) =
      some 16 := by decide +kernel
  rw [hs] at hlength
  exact ⟨s, hs, flatten_bindings .mysql nestedSample s (.inr hs), Option.some.inj hlength⟩

end Statement

end RowMapper.Sql
