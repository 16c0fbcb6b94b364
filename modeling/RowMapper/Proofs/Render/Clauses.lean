import RowMapper.Proofs.Parameter.Filing
import RowMapper.Proofs.Render.ClauseParts

/-! # The clauses of a query

A query is rendered clause by clause, each with the values given for it. Whether a clause
renders and what it binds is decided by its parts and these values alone, so a query has a
statement exactly when each of its clauses takes the values given for it, and the statement
files under each clause what the parts of that clause bind.
-/

namespace RowMapper

namespace Sql

open Render ClausePart

def ClauseText : Category → Type
  | .filter => Clauses
  | .having => Clauses
  | _ => List String

/-! ## The parts that clauses have -/

namespace ClausePart

mutual
/-- The parts of a condition; a group has those of its children. -/
def ofCondition (scope : Scope) : Condition Query → List ClausePart
  | .group children _ => ofConditions scope children
  | .raw sql values _ => [.fragment sql values]
  | .basic column operator operand c =>
    [.alone (renderCondition scope (.basic column operator operand c))]
  | .isIn column values negated c =>
    [.alone (renderCondition scope (.isIn column values negated c))]
  | .between column low high negated c =>
    [.alone (renderCondition scope (.between column low high negated c))]
  | .sub column operator query c =>
    [.alone (renderCondition scope (.sub column operator query c))]
  | .hasRows query negated c => [.alone (renderCondition scope (.hasRows query negated c))]
def ofConditions (scope : Scope) : List (Condition Query) → List ClausePart
  | [] => []
  | c :: cs => ofCondition scope c ++ ofConditions scope cs
end

def ofColumn (d : Dialect) : SelectItem Query → List ClausePart
  | .column _ => []
  | .raw sql values => [.fragment sql values]
  | .sub query _ => [.alone (renderQuery d query)]

def ofSource (d : Dialect) : Source Query → List ClausePart
  | .table _ => []
  | .sub query _ => [.alone (renderQuery d query)]

def ofJoin (d : Dialect) (j : Join Query) : List ClausePart :=
  ofSource d j.target ++ if j.kind = .cross then [] else ofConditions { dialect := d } j.conditions

def ofOrder : OrderItem → List ClausePart
  | .column _ _ => []
  | .raw sql values => [.fragment sql values]

end ClausePart

end Sql

namespace Query

open Sql Render ClausePart

def clauseBody (q : Query) (d : Dialect) : (c : Category) → Render (ClauseText c)
  | .select => renderColumns d q.columns
  | .source => do
    if q.sources.isEmpty then throw (.invalidArgument "Query has no FROM table")
    renderSources d q.sources
  | .join => renderJoins d q.joins
  | .filter => renderConditions { dialect := d, table := q.baseAlias } q.wheres
  | .having => renderConditions { dialect := d } q.havings
  | .order => renderOrders d q.orders
  | .union => renderUnions d q.unions

def clause (q : Query) (d : Dialect) (c : Category) : Render (ClauseText c) :=
  inClause c (Bindings.get q.given c) (q.clauseBody d c)

def clauseParts (q : Query) (d : Dialect) : Category → List ClausePart
  | .select => q.columns.flatMap (ofColumn d)
  | .source => if q.sources.isEmpty then [.inner none] else q.sources.flatMap (ofSource d)
  | .join => q.joins.flatMap (ofJoin d)
  | .filter => ofConditions { dialect := d, table := q.baseAlias } q.wheres
  | .having => ofConditions { dialect := d } q.havings
  | .order => q.orders.flatMap ofOrder
  | .union => q.unions.map fun united => .alone (renderQuery d united.1)

def clauseBound (q : Query) (d : Dialect) (c : Category) : Option (List Value) :=
  boundBy (q.clauseParts d c) (Bindings.get q.given c)

/-- A query without an error is rendered clause by clause. -/
theorem renderQuery_eq_clauses {q : Query} (h : q.error = none) (d : Dialect) :
    renderQuery d q = (do
      let selected : List String ← q.clause d .select
      let sources : List String ← q.clause d .source
      let joined : List String ← q.clause d .join
      let filter : Clauses ← q.clause d .filter
      let having : Clauses ← q.clause d .having
      let ordered : List String ← q.clause d .order
      let united : List String ← q.clause d .union
      return QueryParts.text ⟨selected, sources, joined, filter, having, ordered, united⟩ d q) := by
  cases q
  subst h
  rw [renderQuery]
  rfl

/-- A query draws, as parts, what its clauses bind. -/
theorem draws_of_clauses {q : Query} {d : Dialect} {parts : Category → List ClausePart}
    (h : q.error = none) (hclauses : ∀ c, Draws (q.clauseBody d c) (parts c)) :
    Draws (renderQuery d q)
      (Category.all.map fun c => .inner (boundBy (parts c) (Bindings.get q.given c))) := by
  have hclause (c : Category) := (hclauses c).within c (Bindings.get q.given c)
  rw [renderQuery_eq_clauses h]
  exact (hclause .select).seq fun _ => (hclause .source).seq fun _ => (hclause .join).seq fun _ =>
    (hclause .filter).seq fun _ => (hclause .having).seq fun _ => (hclause .order).seq fun _ =>
      (hclause .union).andThen fun _ => .result _

theorem draws_alone {q : Query} {d : Dialect} (parts : Category → List ClausePart)
    (h : q.error = none) (hclauses : ∀ c, Draws (q.clauseBody d c) (parts c)) :
    Draws (renderQuery d q) [.alone (renderQuery d q)] := by
  refine (draws_of_clauses h hclauses).alone fun part hpart => ?_
  obtain ⟨c, -, rfl⟩ := List.mem_map.1 hpart
  rfl

/-- Without a table or a query to take rows from there is no text. -/
theorem draws_source {q : Query} {d : Dialect}
    (h : Draws (renderSources d q.sources) (q.sources.flatMap (ofSource d))) :
    Draws (q.clauseBody d .source) (q.clauseParts d .source) := by
  unfold clauseBody clauseParts
  split
  · exact .refused fun _ _ _ ht => by cases ht
  · exact h

theorem draws_of_error {q : Query} {e : Error} (h : q.error = some e) (d : Dialect) :
    Draws (renderQuery d q) [.alone (renderQuery d q)] := by
  refine Draws.alone (Draws.refused fun s a t ht => ?_) (by simp [isInner])
  cases q
  subst h
  exact throw_ne_ok ht

end Query

namespace Sql

open Render ClausePart

theorem draws_renderOrders (d : Dialect) (orders : List OrderItem) :
    Draws (renderOrders d orders) (orders.flatMap ofOrder) := by
  induction orders with
  | nil => exact .result _
  | cons order rest ih =>
    cases order with
    | column name direction => exact ih.andThen fun _ => .result _
    | raw sql values =>
      exact (Draws.expandRaw sql values).seq fun _ => ih.andThen fun _ => .result _

mutual
theorem draws_renderQuery (d : Dialect) :
    (q : Query) → Draws (renderQuery d q) [.alone (renderQuery d q)]
  | ⟨columns, distinct, sources, joins, wheres, groups, havings, orders, limit, offset, unions,
      given, indexKey, relations, connection, error⟩ => by
    cases error with
    | some e => exact Query.draws_of_error rfl d
    | none =>
      refine Query.draws_alone (Query.clauseParts ⟨columns, distinct, sources, joins,
        wheres, groups, havings, orders, limit, offset, unions, given, indexKey, relations,
        connection, none⟩ d) rfl fun c => ?_
      cases c with
      | select => exact draws_renderColumns d columns
      | source => exact Query.draws_source (draws_renderSources d sources)
      | join => exact draws_renderJoins d joins
      | filter => exact draws_renderConditions _ wheres
      | having => exact draws_renderConditions _ havings
      | order => exact draws_renderOrders d orders
      | union => exact draws_renderUnions d unions
theorem draws_renderColumns (d : Dialect) : (columns : List (SelectItem Query)) →
    Draws (renderColumns d columns) (columns.flatMap (ofColumn d))
  | [] => .result _
  | .column _ :: rest => (draws_renderColumns d rest).andThen fun _ => .result _
  | .raw sql values :: rest =>
    (Draws.expandRaw sql values).seq fun _ => (draws_renderColumns d rest).andThen fun _ => .result _
  | .sub query _ :: rest =>
    (draws_renderQuery d query).seq fun _ => (draws_renderColumns d rest).andThen fun _ => .result _
theorem draws_renderSource (d : Dialect) :
    (source : Source Query) → Draws (renderSource d source) (ofSource d source)
  | .table _ => .result _
  | .sub query _ => (draws_renderQuery d query).andThen fun _ => .result _
theorem draws_renderSources (d : Dialect) : (sources : List (Source Query)) →
    Draws (renderSources d sources) (sources.flatMap (ofSource d))
  | [] => .result _
  | source :: rest =>
    (draws_renderSource d source).seq fun _ => (draws_renderSources d rest).andThen fun _ =>
      .result _
theorem draws_renderJoins (d : Dialect) :
    (joins : List (Join Query)) → Draws (renderJoins d joins) (joins.flatMap (ofJoin d))
  | [] => .result _
  | ⟨kind, target, conditions⟩ :: rest => by
    rw [renderJoins, List.flatMap_cons, ofJoin, List.append_assoc]
    refine (draws_renderSource d target).seq fun _ => ?_
    dsimp only
    split
    · exact (Draws.result _).seq fun _ => (draws_renderJoins d rest).andThen fun _ => .result _
    · exact (draws_renderConditions _ conditions).seq fun _ =>
        (draws_renderJoins d rest).andThen fun _ => .result _
theorem draws_renderConditions (scope : Scope) : (conditions : List (Condition Query)) →
    Draws (renderConditions scope conditions) (ofConditions scope conditions)
  | [] => .result _
  | c :: cs =>
    (draws_renderCondition scope c).seq fun _ => (draws_renderConditions scope cs).andThen fun _ =>
      .result _
theorem draws_renderCondition (scope : Scope) : (c : Condition Query) →
    Draws (renderCondition scope c) (ofCondition scope c)
  | .basic column operator operand c => by
    rw [ofCondition]
    suffices h : ∃ parts, Draws (renderCondition scope (.basic column operator operand c)) parts ∧
        ∀ part ∈ parts, part.isInner by
      obtain ⟨parts, hdraws, hinner⟩ := h
      exact hdraws.alone hinner
    rw [renderCondition]
    split
    · exact ⟨_, .result _, by simp⟩
    · split
      · exact ⟨_, .fail _, by simp [isInner]⟩
      · next op _ =>
        obtain ⟨parts, hdraws, hinner⟩ := Draws.renderComparison scope column op operand
        exact ⟨parts, hdraws.andThen fun _ => .result _, hinner⟩
  | .isIn column values negated c => by
    obtain ⟨parts, hdraws, hinner⟩ := Draws.renderMembership scope column values negated
    have h : Draws (renderCondition scope (.isIn column values negated c)) parts :=
      hdraws.andThen fun _ => .result _
    exact h.alone hinner
  | .between column low high negated c => by
    have h : Draws (renderCondition scope (.between column low high negated c)) _ :=
      (Draws.renderRange scope column low high negated).andThen fun _ => .result _
    exact h.alone (by simp [isInner])
  | .group children _ => (draws_renderConditions scope children).andThen fun _ => .result _
  | .sub column operator query c => by
    rw [ofCondition]
    suffices h : ∃ parts, Draws (renderCondition scope (.sub column operator query c)) parts ∧
        ∀ part ∈ parts, part.isInner by
      obtain ⟨parts, hdraws, hinner⟩ := h
      exact hdraws.alone hinner
    rw [renderCondition]
    split
    · exact ⟨_, .fail _, by simp [isInner]⟩
    · exact ⟨_, (draws_renderQuery _ query).andThen fun _ => .result _, by simp [isInner, alone]⟩
  | .hasRows query negated c => by
    have h : Draws (renderCondition scope (.hasRows query negated c)) _ :=
      (draws_renderQuery _ query).andThen fun _ => .result _
    exact h.alone (by simp [isInner, alone])
  | .raw sql values _ => (Draws.expandRaw sql values).andThen fun _ => .result _
theorem draws_renderUnions (d : Dialect) : (unions : List (Query × Bool)) →
    Draws (renderUnions d unions) (unions.map fun united => .alone (renderQuery d united.1))
  | [] => .result _
  | (query, _) :: rest =>
    (draws_renderQuery d query).seq fun _ => (draws_renderUnions d rest).andThen fun _ => .result _
end

end Sql

namespace Query

open Sql Render ClausePart

variable {q : Query} {d : Dialect} {c : Category}

/-! ## What a clause binds -/

theorem draws_clauseBody (q : Query) (d : Dialect) (c : Category) :
    Draws (q.clauseBody d c) (q.clauseParts d c) := by
  cases c with
  | select => exact draws_renderColumns d q.columns
  | source => exact draws_source (draws_renderSources d q.sources)
  | join => exact draws_renderJoins d q.joins
  | filter => exact draws_renderConditions _ q.wheres
  | having => exact draws_renderConditions _ q.havings
  | order => exact draws_renderOrders d q.orders
  | union => exact draws_renderUnions d q.unions

theorem draws_clause (q : Query) (d : Dialect) (c : Category) :
    Draws (q.clause d c) [.inner (q.clauseBound d c)] :=
  (draws_clauseBody q d c).within c _

/-- From whatever sink a clause starts, it renders when its parts take the values given for it. -/
theorem clause_renders_iff (q : Query) (d : Dialect) (c : Category) (s : ParamSink) :
    (∃ text t, q.clause d c s = .ok text t) ↔ (q.clauseBound d c).isSome := by
  constructor
  · rintro ⟨text, t, h⟩
    obtain ⟨bound, hbound, -⟩ := (draws_clause q d c).drawn h
    rw [drawAll_inner, Option.map_eq_some_iff] at hbound
    obtain ⟨values, hvalues, -⟩ := hbound
    exact Option.isSome_iff_exists.2 ⟨values, hvalues⟩
  · intro h
    exact (draws_clause q d c).renders s (by rwa [drawAll_inner, Option.isSome_map])

theorem keeps_clauseBody {R : ParamSink → ParamSink → Prop} (hR : Stable R) (q : Query)
    (d : Dialect) (c : Category) : Keeps R (q.clauseBody d c) := by
  cases c with
  | select => exact renderColumns_keeps hR d q.columns
  | source =>
    unfold clauseBody
    split
    · exact hR.seq (.throw _) fun _ => renderSources_keeps hR d q.sources
    · exact renderSources_keeps hR d q.sources
  | join => exact renderJoins_keeps hR d q.joins
  | filter => exact renderConditions_keeps hR _ q.wheres
  | having => exact renderConditions_keeps hR _ q.havings
  | order => exact hR.renderOrders d q.orders
  | union => exact renderUnions_keeps hR d q.unions

/-- At the outermost level a clause files what it binds under itself. -/
theorem bindings_of_clause {s t : ParamSink} {text : ClauseText c}
    (h : q.clause d c s = .ok text t) (hs : s.depth = 0) : t.depth = 0 ∧
      ∃ bound, q.clauseBound d c = some bound ∧ t.bindings = s.bindings.extend c bound := by
  obtain ⟨hdepth, new, hnew, hcategory⟩ :=
    ParamSink.inClause_filed (keeps_clauseBody ParamSink.stable_filed q d c) h hs
  obtain ⟨bound, hbound, hvalues⟩ := (draws_clause q d c).drawn h
  rw [drawAll_inner, Option.map_eq_some_iff] at hbound
  obtain ⟨values, hsome, heq⟩ := hbound
  obtain ⟨rfl, -⟩ := Prod.mk.inj heq
  have hadded : new.map Parameter.value = values := by
    rw [ParamSink.values, hnew, List.map_append] at hvalues
    exact List.append_cancel_left hvalues
  have hfiled : new.map (fun p => (p.category, p.value)) = values.map fun v => (c, v) := by
    rw [← hadded, List.map_map]
    exact List.map_congr_left fun p hp => Prod.ext (hcategory p hp) rfl
  refine ⟨hdepth, values, hsome, ?_⟩
  rw [ParamSink.bindings, hnew, List.map_append, hfiled]
  rfl

inductive Rendered (q : Query) (d : Dialect) : List Category → ParamSink → ParamSink → Prop
  | nil (s : ParamSink) : Rendered q d [] s s
  | cons {c : Category} {cs : List Category} {s t u : ParamSink} {text : ClauseText c}
      (first : q.clause d c s = .ok text t) (rest : Rendered q d cs t u) :
      Rendered q d (c :: cs) s u

theorem rendered_of_ok {s t : ParamSink} {text : String} (h : renderQuery d q s = .ok text t) :
    q.error = none ∧ Rendered q d Category.all s t := by
  cases herror : q.error with
  | some e =>
    cases q
    subst herror
    exact absurd h throw_ne_ok
  | none =>
    rw [renderQuery_eq_clauses herror] at h
    obtain ⟨_, _, hselect, h⟩ := bind_eq_ok.1 h
    obtain ⟨_, _, hsource, h⟩ := bind_eq_ok.1 h
    obtain ⟨_, _, hjoin, h⟩ := bind_eq_ok.1 h
    obtain ⟨_, _, hfilter, h⟩ := bind_eq_ok.1 h
    obtain ⟨_, _, hhaving, h⟩ := bind_eq_ok.1 h
    obtain ⟨_, _, horder, h⟩ := bind_eq_ok.1 h
    obtain ⟨_, _, hunion, h⟩ := bind_eq_ok.1 h
    obtain ⟨-, rfl⟩ := pure_eq_ok.1 h
    exact ⟨rfl, .cons hselect (.cons hsource (.cons hjoin (.cons hfilter (.cons hhaving
      (.cons horder (.cons hunion (.nil _)))))))⟩

/-- A clause that is rendered once adds the values that it binds, and no other clause does. -/
theorem Rendered.get_bindings {cs : List Category} {s t : ParamSink} (h : Rendered q d cs s t)
    (hs : s.depth = 0) (hcs : cs.Nodup) (c : Category) :
    if c ∈ cs then ∃ bound, q.clauseBound d c = some bound ∧
        t.bindings.get c = s.bindings.get c ++ bound
      else t.bindings.get c = s.bindings.get c := by
  induction h with
  | nil s => simp
  | @cons first cs s t u text hfirst hrest ih =>
    obtain ⟨hnot, hcs⟩ := List.nodup_cons.1 hcs
    obtain ⟨hdepth, bound, hbound, hbindings⟩ := bindings_of_clause hfirst hs
    have ih := ih hdepth hcs
    by_cases hc : c = first
    · subst hc
      rw [if_neg hnot, hbindings, Bindings.get_extend_self] at ih
      rw [if_pos List.mem_cons_self]
      exact ⟨bound, hbound, ih⟩
    · have hsame : t.bindings.get c = s.bindings.get c := by
        rw [hbindings, Bindings.get_extend_of_ne _ _ (Ne.symm hc)]
      simpa [hc, hsame] using ih

end Query

namespace Sql.Statement

open Render ClausePart

/-- A query has a statement when it keeps no error and every clause takes the values given for it. -/
theorem ofQuery_isOk_iff (d : Dialect) (q : Query) : (∃ st, ofQuery d q = .ok st) ↔
    q.error = none ∧ ∀ c, (q.clauseBound d c).isSome := by
  constructor
  · rintro ⟨st, h⟩
    rw [ofQuery, ofRender] at h
    split at h
    · next text t hrun =>
      obtain ⟨herror, hrendered⟩ := Query.rendered_of_ok hrun
      refine ⟨herror, fun c => ?_⟩
      have hget := hrendered.get_bindings rfl (by decide) c
      rw [if_pos (Category.mem_all c)] at hget
      obtain ⟨bound, hbound, -⟩ := hget
      rw [hbound]
      rfl
    · cases h
  · rintro ⟨herror, hclauses⟩
    have hparts : ∀ cs : List Category,
        (drawAll (cs.map fun c => .inner (q.clauseBound d c)) []).isSome := by
      intro cs
      induction cs with
      | nil => rfl
      | cons c cs ih =>
        obtain ⟨bound, hbound⟩ := Option.isSome_iff_exists.1 (hclauses c)
        simpa [drawAll, draw, hbound] using ih
    obtain ⟨text, t, hrun⟩ :=
      (Query.draws_of_clauses herror (Query.draws_clauseBody q d)).renders {} (hparts _)
    rw [ofQuery, ofRender, hrun]
    exact ⟨_, rfl⟩

/-- The statement of a query files under each clause what the clause binds. -/
theorem get_bindings_of_ofQuery {d : Dialect} {q : Query} {st : Statement}
    (h : ofQuery d q = .ok st) (c : Category) : q.clauseBound d c = some (st.bindings.get c) := by
  rw [ofQuery, ofRender] at h
  split at h
  · next text t hrun =>
    cases h
    have hget := (Query.rendered_of_ok hrun).2.get_bindings rfl (by decide) c
    rw [if_pos (Category.mem_all c)] at hget
    obtain ⟨bound, hbound, hvalues⟩ := hget
    rw [hbound, hvalues]
    rfl
  · cases h

end Sql.Statement

end RowMapper
