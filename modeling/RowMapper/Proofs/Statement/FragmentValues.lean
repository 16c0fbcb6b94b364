import RowMapper.Proofs.Render.HandedOut

/-! # Values of the fragments of a clause

The raw fragments of a clause take exactly the values given for it: the clause renders when
no fragment has more values of its own than marks and the marks left over are as many as
the given values. Then it is the clause whose fragments were handed these values in order,
and a fragment with as many values as marks binds them in order to new placeholders.
-/

namespace RowMapper

namespace Sql

open ClausePart

namespace ClausePart

def fragment? : ClausePart → Option Fragment
  | fragment sql own => some ⟨sql, own⟩
  | inner _ => none

def fragments (parts : List ClausePart) : List Fragment := parts.filterMap fragment?

theorem fragments_append (parts others : List ClausePart) :
    fragments (parts ++ others) = fragments parts ++ fragments others :=
  List.filterMap_append

theorem mem_fragments {parts : List ClausePart} {f : Fragment} :
    f ∈ fragments parts ↔ ClausePart.fragment f.sql f.own ∈ parts := by
  rw [fragments, List.mem_filterMap]
  constructor
  · rintro ⟨part, hpart, hf⟩
    cases part with
    | fragment sql own =>
      cases hf
      exact hpart
    | inner b => cases hf
  · intro h
    exact ⟨_, h, rfl⟩

theorem sum_missing (parts : List ClausePart) :
    (parts.map missing).sum = ((fragments parts).map Fragment.missing).sum := by
  induction parts with
  | nil => rfl
  | cons part parts ih =>
    cases part with
    | fragment sql own =>
      exact congrArg (questionMarks sql - own.length + ·) ih
    | inner b =>
      rw [List.map_cons, List.sum_cons, missing, Nat.zero_add, ih]
      rfl

/-- Parts are sound when the fragments have no values too many and everything else renders. -/
theorem forall_sound_iff (parts : List ClausePart) : (∀ part ∈ parts, part.Sound) ↔
    (∀ bound, inner bound ∈ parts → bound.isSome) ∧
      ∀ f ∈ fragments parts, f.own.length ≤ questionMarks f.sql := by
  constructor
  · intro h
    exact ⟨fun bound hbound => h _ hbound, fun f hf => h _ (mem_fragments.1 hf)⟩
  · rintro ⟨hinner, hfragments⟩ part hpart
    cases part with
    | fragment sql own => exact hfragments ⟨sql, own⟩ (mem_fragments.2 hpart)
    | inner bound => exact hinner bound hpart

end ClausePart

/-! ## Handing out keeps the fragments -/

namespace Fragment

theorem handOut_append (fs gs : List Fragment) (waiting : List Value) :
    handOut (fs ++ gs) waiting = handOut fs waiting ++ handOut gs (leave fs waiting) := by
  induction fs generalizing waiting with
  | nil => rfl
  | cons f fs ih =>
    rw [List.cons_append, handOut, handOut, ih, List.cons_append, leave, leave, List.drop_drop,
      List.map_cons, List.sum_cons]

theorem leave_append (fs gs : List Fragment) (waiting : List Value) :
    leave (fs ++ gs) waiting = leave gs (leave fs waiting) := by
  rw [leave, leave, leave, List.drop_drop, List.map_append, List.sum_append]

end Fragment

open Fragment

structure Filled (parts others : List ClausePart) (waiting left : List Value) : Prop where
  fragments : fragments others = handOut (fragments parts) waiting
  left : left = leave (ClausePart.fragments parts) waiting

namespace Filled

theorem refl {parts : List ClausePart} (h : ClausePart.fragments parts = [])
    (waiting : List Value) : Filled parts parts waiting waiting := by
  constructor <;> rw [h] <;> rfl

theorem append {xs ys xs' ys' : List ClausePart} {waiting mid left : List Value}
    (hx : Filled xs xs' waiting mid) (hy : Filled ys ys' mid left) :
    Filled (xs ++ ys) (xs' ++ ys') waiting left where
  fragments := by
    rw [fragments_append, fragments_append, hx.fragments, hy.fragments, hx.left, handOut_append]
  left := by rw [fragments_append, leave_append, ← hx.left, hy.left]

theorem raw (sql : String) (own waiting : List Value) :
    Filled [.fragment sql own] [.fragment sql (handRaw sql own waiting).1] waiting
      (handRaw sql own waiting).2 where
  fragments := rfl
  left := rfl

theorem handAll {α : Type} {parts : α → List ClausePart} {hand : α → List Value → α × List Value}
    (h : ∀ a waiting, Filled (parts a) (parts (hand a waiting).1) waiting (hand a waiting).2)
    (entries : List α) (waiting : List Value) :
    Filled (entries.flatMap parts) ((Sql.handAll hand entries waiting).1.flatMap parts) waiting
      (Sql.handAll hand entries waiting).2 := by
  induction entries generalizing waiting with
  | nil => exact refl rfl waiting
  | cons a rest ih =>
    rw [Sql.handAll, List.flatMap_cons, List.flatMap_cons]
    exact (h a waiting).append (ih _)

theorem handColumn (d : Dialect) (column : SelectItem Query) (waiting : List Value) :
    Filled (ofColumn d column) (ofColumn d (Sql.handColumn column waiting).1) waiting
      (Sql.handColumn column waiting).2 := by
  cases column with
  | column text => exact refl rfl _
  | raw sql own => exact raw _ _ _
  | sub query asName => exact refl rfl _

theorem handOrder (order : OrderItem) (waiting : List Value) :
    Filled (ofOrder order) (ofOrder (Sql.handOrder order waiting).1) waiting
      (Sql.handOrder order waiting).2 := by
  cases order with
  | column name direction => exact refl rfl _
  | raw sql own => exact raw _ _ _

mutual
theorem handConditions (scope : Scope) :
    (conditions : List (Condition Query)) → (waiting : List Value) →
      Filled (ofConditions scope conditions)
        (ofConditions scope (Sql.handConditions conditions waiting).1)
        waiting (Sql.handConditions conditions waiting).2
  | [], waiting => refl rfl waiting
  | c :: cs, waiting => (handCondition scope c waiting).append (handConditions scope cs _)
theorem handCondition (scope : Scope) : (c : Condition Query) → (waiting : List Value) →
    Filled (ofCondition scope c) (ofCondition scope (Sql.handCondition c waiting).1)
      waiting (Sql.handCondition c waiting).2
  | .basic _ _ _ _, waiting => refl rfl waiting
  | .isIn _ _ _ _, waiting => refl rfl waiting
  | .between _ _ _ _ _, waiting => refl rfl waiting
  | .group children _, waiting => handConditions scope children waiting
  | .sub _ _ _ _, waiting => refl rfl waiting
  | .hasRows _ _ _, waiting => refl rfl waiting
  | .raw sql own _, waiting => raw sql own waiting
end

theorem fragments_ofSource (d : Dialect) (source : Source Query) :
    ClausePart.fragments (ofSource d source) = [] := by
  cases source <;> rfl

theorem fragments_ofSources (d : Dialect) (sources : List (Source Query)) :
    ClausePart.fragments (sources.flatMap (ofSource d)) = [] := by
  induction sources with
  | nil => rfl
  | cons source rest ih => rw [List.flatMap_cons, fragments_append, fragments_ofSource, ih]; rfl

theorem fragments_ofUnions (d : Dialect) (unions : List (Query × Bool)) :
    ClausePart.fragments (unions.map fun united => .alone (renderQuery d united.1)) = [] := by
  induction unions with
  | nil => rfl
  | cons united rest ih => exact ih

theorem handJoin (d : Dialect) (j : Join Query) (waiting : List Value) :
    Filled (ofJoin d j) (ofJoin d (Sql.handJoin j waiting).1) waiting
      (Sql.handJoin j waiting).2 := by
  have hsource := refl (fragments_ofSource d j.target) waiting
  by_cases hcross : j.kind = .cross
  · simpa [Sql.handJoin, ofJoin, hcross] using hsource
  · simpa [Sql.handJoin, ofJoin, hcross] using
      hsource.append (handConditions { dialect := d } j.conditions waiting)

end Filled

end Sql

namespace Query

open Sql Render ClausePart

/-- The query with the values given for a clause handed out to the fragments of the clause. -/
def handedOut (q : Query) (c : Category) : Query :=
  let given := Bindings.get q.given c
  let cleared := { q with given := Bindings.clear q.given c }
  match c with
  | .select => { cleared with columns := (handAll handColumn q.columns given).1 }
  | .join => { cleared with joins := (handAll handJoin q.joins given).1 }
  | .filter => { cleared with wheres := (handConditions q.wheres given).1 }
  | .having => { cleared with havings := (handConditions q.havings given).1 }
  | .order => { cleared with orders := (handAll handOrder q.orders given).1 }
  | .source => cleared
  | .union => cleared

/-- The raw fragments of a clause in the order in which they stand; those of nested queries belong
to the clauses of these. -/
def fragments (q : Query) (d : Dialect) (c : Category) : List Fragment :=
  ClausePart.fragments (q.clauseParts d c)

/-- Everything in a clause but its raw fragments renders. -/
def OthersRender (q : Query) (d : Dialect) (c : Category) : Prop :=
  ∀ bound, .inner bound ∈ q.clauseParts d c → bound.isSome

theorem get_given_handedOut (q : Query) (c : Category) :
    Bindings.get (q.handedOut c).given c = [] := by
  cases c <;> exact Bindings.get_clear_self _ _

theorem hands_clauseBody (q : Query) (d : Dialect) (c : Category) :
    ∃ left, Hands (q.clauseBody d c) ((q.handedOut c).clauseBody d c)
      (Bindings.get q.given c) left := by
  cases c with
  | select => exact ⟨_, Hands.renderColumns d q.columns _⟩
  | source =>
    refine ⟨Bindings.get q.given .source, ?_⟩
    change Hands (q.clauseBody d .source) (q.clauseBody d .source) _ _
    unfold clauseBody
    split
    · exact (Hands.fail _ _).seq fun _ => Hands.renderSources d q.sources _
    · exact Hands.renderSources d q.sources _
  | join => exact ⟨_, Hands.renderJoins d q.joins _⟩
  | filter => exact ⟨_, Hands.renderConditions _ q.wheres _⟩
  | having => exact ⟨_, Hands.renderConditions _ q.havings _⟩
  | order => exact ⟨_, Hands.renderOrders d q.orders _⟩
  | union => exact ⟨_, Hands.renderUnions d q.unions _⟩

/-- A clause that renders does so to the same text with the given values handed out. -/
theorem clause_handedOut {q : Query} {d : Dialect} {c : Category} {s t : ParamSink}
    {text : ClauseText c} (h : q.clause d c s = .ok text t) :
    (q.handedOut c).clause d c s = .ok text t := by
  obtain ⟨left, hhands⟩ := hands_clauseBody q d c
  obtain ⟨u, hbody, hpending, rfl⟩ := inClause_eq_ok.1 h
  obtain ⟨-, hhanded⟩ := hhands rfl hbody
  rw [clause, get_given_handedOut]
  exact inClause_eq_ok.2 ⟨_, hhanded [], rfl, rfl⟩

theorem filled_clauseParts (q : Query) (d : Dialect) (c : Category) :
    ∃ left, Filled (q.clauseParts d c) ((q.handedOut c).clauseParts d c)
      (Bindings.get q.given c) left := by
  cases c with
  | select => exact ⟨_, .handAll (Filled.handColumn d) q.columns _⟩
  | source =>
    refine ⟨_, @Filled.refl (q.clauseParts d .source) ?_ _⟩
    rw [clauseParts]
    split
    · rfl
    · exact Filled.fragments_ofSources d q.sources
  | join => exact ⟨_, .handAll (Filled.handJoin d) q.joins _⟩
  | filter => exact ⟨_, .handConditions _ q.wheres _⟩
  | having => exact ⟨_, .handConditions _ q.havings _⟩
  | order => exact ⟨_, .handAll Filled.handOrder q.orders _⟩
  | union => exact ⟨_, .refl (Filled.fragments_ofUnions d q.unions) _⟩

/-- A clause renders when everything but its fragments does, no fragment has values too many, and
the marks left over are as many as the given values. -/
theorem clause_renders_iff_fragments (q : Query) (d : Dialect) (c : Category) (s : ParamSink) :
    (∃ text t, q.clause d c s = .ok text t) ↔ q.OthersRender d c ∧
      (∀ f ∈ q.fragments d c, f.own.length ≤ questionMarks f.sql) ∧
      ((q.fragments d c).map Fragment.missing).sum = (Bindings.get q.given c).length := by
  rw [clause_renders_iff, clauseBound, boundBy_isSome_iff, forall_sound_iff, sum_missing, and_assoc]
  rfl

/-- The fragments of a clause that renders without given values have as many values as marks. -/
theorem length_own_of_renders {q : Query} {d : Dialect} {c : Category} {s t : ParamSink}
    {text : ClauseText c} (h : q.clause d c s = .ok text t) (hgiven : Bindings.get q.given c = [])
    {f : Fragment} (hf : f ∈ q.fragments d c) : f.own.length = questionMarks f.sql := by
  obtain ⟨-, hown, hsum⟩ := (clause_renders_iff_fragments q d c s).1 ⟨text, t, h⟩
  rw [hgiven, List.length_nil, List.sum_eq_zero_iff_forall_eq_nat] at hsum
  have hmissing : f.missing = 0 := hsum _ (List.mem_map.2 ⟨f, hf, rfl⟩)
  have hle := hown f hf
  rw [Fragment.missing] at hmissing
  omega

/-- A clause takes exactly the values that its fragments have and that were given for it. -/
theorem clause_fragments (q : Query) (d : Dialect) (c : Category) (s : ParamSink) :
    ((∃ text t, q.clause d c s = .ok text t) ↔ q.OthersRender d c ∧
      (∀ f ∈ q.fragments d c, f.own.length ≤ questionMarks f.sql) ∧
      ((q.fragments d c).map Fragment.missing).sum = (Bindings.get q.given c).length) ∧
    -- the given values go to the fragments in order, each after the fragment's own values
    Bindings.get (q.handedOut c).given c = [] ∧
    (q.handedOut c).fragments d c = Fragment.handOut (q.fragments d c) (Bindings.get q.given c) ∧
    (∀ text t, q.clause d c s = .ok text t → (q.handedOut c).clause d c s = .ok text t ∧
      ∀ f ∈ (q.handedOut c).fragments d c, f.own.length = questionMarks f.sql) ∧
    -- such a fragment binds its values in order to new placeholders
    (∀ (f : Fragment) (u : ParamSink), f.own.length = questionMarks f.sql → ∃ new v,
      ParamSink.expandRaw f.sql f.own u = .ok (String.ofList
        (replaceMarks none f.sql.toList (new.map Parameter.placeholder))) v ∧
      u.Gains new v ∧ new.map Parameter.value = f.own ∧ v.pending = u.pending) ∧
    -- a nested query neither takes nor loses a waiting value
    (∀ (nested : Query) (u v : ParamSink) (text : String), renderQuery d nested u = .ok text v →
      v.pending = u.pending ∧
      ∀ p, renderQuery d nested { u with pending := p } = .ok text { v with pending := p }) := by
  obtain ⟨left, hfilled⟩ := filled_clauseParts q d c
  refine ⟨clause_renders_iff_fragments q d c s, get_given_handedOut q c, hfilled.fragments,
    fun text t h => ?_, fun f u hf => ?_, fun nested u v text h => Hands.renderQuery d nested _ rfl h⟩
  · have hhanded := clause_handedOut h
    exact ⟨hhanded, fun f hf => length_own_of_renders hhanded (get_given_handedOut q c) hf⟩
  · have hfits : ParamSink.Fits (questionMarks f.sql) f.own u.pending :=
      ⟨Nat.le_of_eq hf, by rw [List.length_append]; omega⟩
    obtain ⟨new, v, hrun, hserves⟩ := ParamSink.expandRaw_of_fits hfits
    refine ⟨new, v, hrun, hserves.toGains, ?_, ?_⟩
    · rw [hserves.values, ← hf, List.take_left]
    · rw [hserves.pending, ← hf, List.drop_left]

/-- Two given values go to the second mark of the first fragment and to the second fragment; the
nested query between them keeps the value given for its own fragment. -/
example :
    let nested : Query :=
      { columns := [.raw "?" []], sources := [.table "u"], given := [(.select, .int64 3)] }
    let q : Query :=
      { columns := [.raw "? + '?' + ?" [.int64 1], .sub nested "n", .raw "?" []]
        sources := [.table "t"]
        given := [(.select, .int64 2), (.select, .int64 4)] }
    (Statement.ofQuery .sqlite q).toOption.map (fun s => (s.sql, s.params.map Value.display)) =
      some ("SELECT :raw1 + '?' + :raw2, (SELECT :raw3 FROM u) AS n, :raw4 FROM t",
        ["1", "2", "3", "4"]) := by
  decide +kernel

end Query

end RowMapper
