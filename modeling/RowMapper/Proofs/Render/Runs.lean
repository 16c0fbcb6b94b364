import RowMapper.Proofs.Run
import RowMapper.Sql.Write

/-! # Successful runs of rendering

What a successful run of a rendering program says about its parts, and how a
relation between the parameters before and after a run is shown for whole
queries: it has to hold of binding one value, of taking one waiting value and of
opening and closing a clause, and to be kept by running one step after another.
-/

namespace RowMapper.Sql

open Text

variable {α β : Type}

namespace Render

theorem bind_eq_ok {x : Render α} {f : α → Render β} {s s'' : ParamSink} {b : β} :
    (x >>= f) s = .ok b s'' ↔ ∃ a s', x s = .ok a s' ∧ f a s' = .ok b s'' :=
  Run.bind_eq_ok

@[simp] theorem pure_eq_ok {a b : α} {s s' : ParamSink} :
    (pure a : Render α) s = .ok b s' ↔ a = b ∧ s = s' :=
  Run.pure_eq_ok

@[simp] theorem throw_ne_ok {e : Error} {b : α} {s s' : ParamSink} :
    (throw e : Render α) s ≠ .ok b s' :=
  Run.throw_ne_ok

theorem map_eq_ok {x : Render α} {f : α → β} {s s' : ParamSink} {b : β} :
    (f <$> x) s = .ok b s' ↔ ∃ a, x s = .ok a s' ∧ f a = b := by
  simp only [Functor.map, EStateM.map]
  cases x s with
  | ok a t =>
    constructor
    · intro h
      cases h
      exact ⟨a, rfl, rfl⟩
    · rintro ⟨_, h, rfl⟩
      cases h
      rfl
  | error e t => simp

/-- A clause succeeds when its body does and has taken all values given for it. -/
theorem inClause_eq_ok {c : Category} {given : List Value} {body : Render α} {s s' : ParamSink}
    {a : α} : inClause c given body s = .ok a s' ↔
      ∃ t, body (s.openClause c given).2 = .ok a t ∧ t.pending = [] ∧
        s' = t.restore (s.openClause c given).1 := by
  constructor
  · intro h
    rw [inClause, bind_eq_ok] at h
    rcases h with ⟨_, _, hget, h⟩
    cases hget
    obtain ⟨_, _, hset, h⟩ := bind_eq_ok.1 h
    cases hset
    obtain ⟨b, t, hbody, h⟩ := bind_eq_ok.1 h
    obtain ⟨_, v, hclose, h⟩ := bind_eq_ok.1 h
    obtain ⟨rfl, rfl⟩ := pure_eq_ok.1 h
    rw [ParamSink.closeClause] at hclose
    split at hclose
    · next hp =>
      cases hclose
      exact ⟨t, hbody, List.isEmpty_iff.1 hp, rfl⟩
    · cases hclose
  · rintro ⟨t, hbody, hp, rfl⟩
    refine bind_eq_ok.2 ⟨s, s, rfl, bind_eq_ok.2 ⟨⟨⟩, _, rfl, ?_⟩⟩
    refine bind_eq_ok.2 ⟨a, t, hbody, bind_eq_ok.2 ⟨⟨⟩, _, ?_, pure_eq_ok.2 ⟨rfl, rfl⟩⟩⟩
    exact if_pos (List.isEmpty_iff.2 hp)

/-! ## The parts of a query's text -/

structure QueryParts where
  selected : List String
  sources : List String
  joined : List String
  filter : Clauses
  having : Clauses
  ordered : List String
  united : List String

def QueryParts.text (p : QueryParts) (d : Dialect) (q : Query) : String :=
  "SELECT " ++ (if q.distinct then "DISTINCT " else "") ++
    (if q.columns.isEmpty then "*" else join ", " p.selected) ++
    " FROM " ++ join ", " p.sources ++
    concatenated (p.joined ++ (neededRelations q).map fun r => " " ++ relationJoinText d r) ++
    afterKeyword " WHERE " (Clauses.text p.filter) ++ groupText d q.groups ++
    afterKeyword " HAVING " (Clauses.text p.having) ++
    (if q.orders.isEmpty then "" else " ORDER BY " ++ join ", " p.ordered) ++
    limitText d q.limit q.offset ++ concatenated p.united

theorem renderQuery_eq_ok {d : Dialect} {q : Query} {s s' : ParamSink} {text : String}
    (h : renderQuery d q s = .ok text s') : ∃ p : QueryParts, text = p.text d q ∧
      ∃ s₁ s₂ s₃ s₄ s₅ s₆,
        inClause .select (Bindings.get q.given .select) (renderColumns d q.columns) s
          = .ok p.selected s₁ ∧
        inClause .source (Bindings.get q.given .source) (renderSources d q.sources) s₁
          = .ok p.sources s₂ ∧
        inClause .join (Bindings.get q.given .join) (renderJoins d q.joins) s₂
          = .ok p.joined s₃ ∧
        inClause .filter (Bindings.get q.given .filter)
          (renderConditions { dialect := d, table := q.baseAlias } q.wheres) s₃
          = .ok p.filter s₄ ∧
        inClause .having (Bindings.get q.given .having)
          (renderConditions { dialect := d } q.havings) s₄ = .ok p.having s₅ ∧
        inClause .order (Bindings.get q.given .order) (renderOrders d q.orders) s₅
          = .ok p.ordered s₆ ∧
        inClause .union (Bindings.get q.given .union) (renderUnions d q.unions) s₆
          = .ok p.united s' := by
  obtain ⟨columns, distinct, sources, joins, wheres, groups, havings, orders, limit, offset,
    unions, given, indexKey, relations, connection, error⟩ := q
  cases error with
  | some e => exact absurd h throw_ne_ok
  | none =>
    rw [renderQuery] at h
    obtain ⟨selected, s₁, h₁, h⟩ := bind_eq_ok.1 h
    obtain ⟨from', s₂, h₂, h⟩ := bind_eq_ok.1 h
    obtain ⟨joined, s₃, h₃, h⟩ := bind_eq_ok.1 h
    obtain ⟨filter, s₄, h₄, h⟩ := bind_eq_ok.1 h
    obtain ⟨having, s₅, h₅, h⟩ := bind_eq_ok.1 h
    obtain ⟨ordered, s₆, h₆, h⟩ := bind_eq_ok.1 h
    obtain ⟨united, s₇, h₇, h⟩ := bind_eq_ok.1 h
    obtain ⟨rfl, rfl⟩ := pure_eq_ok.1 h
    refine ⟨⟨selected, from', joined, filter, having, ordered, united⟩, rfl,
      s₁, s₂, s₃, s₄, s₅, s₆, h₁, ?_, h₃, h₄, h₅, h₆, h₇⟩
    obtain ⟨t, ht, hp, rfl⟩ := inClause_eq_ok.1 h₂
    refine inClause_eq_ok.2 ⟨t, ?_, hp, rfl⟩
    split at ht
    · obtain ⟨_, _, hthrow, -⟩ := bind_eq_ok.1 ht
      exact absurd hthrow throw_ne_ok
    · exact ht

/-! ## Relations that every run keeps -/

/-- Every successful run relates the parameters before it to those after it. -/
def Keeps (R : ParamSink → ParamSink → Prop) (x : Render α) : Prop :=
  ∀ ⦃s a s'⦄, x s = .ok a s' → R s s'

/-- A relation that each step of rendering establishes and that steps in a row keep. -/
structure Stable (R : ParamSink → ParamSink → Prop) : Prop where
  refl : ∀ s, R s s
  trans : ∀ {s t u}, R s t → R t u → R s u
  bind : ∀ column v, Keeps R (ParamSink.bind column v)
  take : ∀ {s v pending}, s.pending = v :: pending → R s { s with pending := pending }
  clause : ∀ {s t} c given, R (s.openClause c given).2 t →
    R s (t.restore (s.openClause c given).1)

variable {R : ParamSink → ParamSink → Prop}

theorem Keeps.throw (e : Error) : Keeps R (throw e : Render α) := by
  intro s b s' h
  exact absurd h throw_ne_ok

theorem Keeps.map {x : Render α} (hx : Keeps R x) (f : α → β) : Keeps R (f <$> x) := by
  intro s b s' h
  obtain ⟨a, ha, -⟩ := map_eq_ok.1 h
  exact hx ha

namespace Stable

theorem result (hR : Stable R) (a : α) : Keeps R (pure a) := by
  intro s b s' h
  obtain ⟨-, rfl⟩ := pure_eq_ok.1 h
  exact hR.refl s

theorem seq (hR : Stable R) {x : Render α} {f : α → Render β} (hx : Keeps R x)
    (hf : ∀ a, Keeps R (f a)) : Keeps R (x >>= f) := by
  intro s b s' h
  obtain ⟨a, t, ha, hb⟩ := bind_eq_ok.1 h
  exact hR.trans (hx ha) (hf a hb)

theorem within (hR : Stable R) (c : Category) (given : List Value) {body : Render α}
    (hbody : Keeps R body) : Keeps R (inClause c given body) := by
  intro s a s' h
  obtain ⟨t, ht, -, rfl⟩ := inClause_eq_ok.1 h
  exact hR.clause c given (hbody ht)

/-! ## The parts of a predicate -/

theorem nextValue (hR : Stable R) (own : List Value) : Keeps R (ParamSink.nextValue own) := by
  intro s a s' h
  unfold ParamSink.nextValue at h
  split at h <;> cases h
  · exact hR.refl s
  · next hp => exact hR.take hp
  · exact hR.refl s

theorem expandFrom (hR : Stable R) (sql : String) (quote : Option Char) (own : List Value)
    (cs : List Char) : Keeps R (ParamSink.expandFrom sql quote own cs) := by
  induction cs generalizing quote own with
  | nil =>
    cases own with
    | nil => cases quote <;> exact hR.result _
    | cons v own => cases quote <;> exact .throw _
  | cons c cs ih =>
    cases quote with
    | some q =>
      rw [ParamSink.expandFrom]
      exact hR.seq (ih _ _) fun _ => hR.result _
    | none =>
      rw [ParamSink.expandFrom]
      split
      · refine hR.seq (hR.nextValue own) fun next => ?_
        cases next with
        | none => exact .throw _
        | some entry => exact hR.seq (hR.bind _ _) fun _ => hR.seq (ih _ _) fun _ => hR.result _
      · exact hR.seq (ih _ _) fun _ => hR.result _

theorem expandRaw (hR : Stable R) (sql : String) (own : List Value) :
    Keeps R (ParamSink.expandRaw sql own) :=
  (hR.expandFrom sql none own sql.toList).map _

theorem renderBound (hR : Stable R) (left column : String) (op : Comparison) (v : Value) :
    Keeps R (Sql.renderBound left column op v) :=
  hR.seq (hR.bind column v) fun _ => hR.result _

theorem renderComparison (hR : Stable R) (scope : Scope) (column : String) (op : Comparison)
    (operand : Operand) : Keeps R (Sql.renderComparison scope column op operand) := by
  unfold Sql.renderComparison
  split
  · exact hR.result _
  · exact hR.result _
  · exact hR.result _
  · exact hR.result _
  · exact hR.result _
  · split
    · exact hR.seq (hR.bind _ _) fun _ => hR.result _
    · exact hR.renderBound _ _ _ _
  · exact hR.renderBound _ _ _ _
  · exact hR.renderBound _ _ _ _

theorem bindAll (hR : Stable R) (column : String) (values : List Value) :
    Keeps R (Sql.bindAll column values) := by
  induction values with
  | nil => exact hR.result _
  | cons v vs ih => exact hR.seq (hR.bind column v) fun _ => hR.seq ih fun _ => hR.result _

theorem renderMembership (hR : Stable R) (scope : Scope) (column : String) (values : List Value)
    (negated : Bool) : Keeps R (Sql.renderMembership scope column values negated) := by
  unfold Sql.renderMembership
  split
  · exact hR.result _
  · exact hR.seq (hR.bindAll column values) fun _ => hR.result _

theorem renderRange (hR : Stable R) (scope : Scope) (column : String) (low high : Value)
    (negated : Bool) : Keeps R (Sql.renderRange scope column low high negated) :=
  hR.seq (hR.bind column low) fun _ => hR.seq (hR.bind column high) fun _ => hR.result _

theorem renderOrders (hR : Stable R) (d : Dialect) (orders : List OrderItem) :
    Keeps R (Sql.renderOrders d orders) := by
  induction orders with
  | nil => exact hR.result _
  | cons order rest ih =>
    cases order with
    | column name direction => exact hR.seq ih fun _ => hR.result _
    | raw sql values => exact hR.seq (hR.expandRaw sql values) fun _ => hR.seq ih fun _ => hR.result _

end Stable

/-! ## Whole queries -/

mutual
theorem renderQuery_keeps (hR : Stable R) (d : Dialect) : (q : Query) → Keeps R (renderQuery d q)
  | ⟨columns, _, sources, joins, wheres, _, havings, orders, _, _, unions, _, _, _, _, error⟩ => by
    cases error with
    | some e => exact .throw e
    | none =>
      rw [renderQuery]
      refine hR.seq (hR.within _ _ (renderColumns_keeps hR d columns)) fun _ => ?_
      refine hR.seq (hR.within _ _ ?_) fun _ => ?_
      · split
        · exact hR.seq (.throw _) fun _ => renderSources_keeps hR d sources
        · exact renderSources_keeps hR d sources
      refine hR.seq (hR.within _ _ (renderJoins_keeps hR d joins)) fun _ => ?_
      refine hR.seq (hR.within _ _ (renderConditions_keeps hR _ wheres)) fun _ => ?_
      refine hR.seq (hR.within _ _ (renderConditions_keeps hR _ havings)) fun _ => ?_
      refine hR.seq (hR.within _ _ (hR.renderOrders d orders)) fun _ => ?_
      exact hR.seq (hR.within _ _ (renderUnions_keeps hR d unions)) fun _ => hR.result _
theorem renderColumns_keeps (hR : Stable R) (d : Dialect) :
    (columns : List (SelectItem Query)) → Keeps R (renderColumns d columns)
  | [] => hR.result _
  | .column _ :: rest => hR.seq (renderColumns_keeps hR d rest) fun _ => hR.result _
  | .raw sql values :: rest =>
    hR.seq (hR.expandRaw sql values) fun _ => hR.seq (renderColumns_keeps hR d rest) fun _ =>
      hR.result _
  | .sub query _ :: rest =>
    hR.seq (renderQuery_keeps hR d query) fun _ => hR.seq (renderColumns_keeps hR d rest) fun _ =>
      hR.result _
theorem renderSource_keeps (hR : Stable R) (d : Dialect) :
    (source : Source Query) → Keeps R (renderSource d source)
  | .table _ => hR.result _
  | .sub query _ => hR.seq (renderQuery_keeps hR d query) fun _ => hR.result _
theorem renderSources_keeps (hR : Stable R) (d : Dialect) :
    (sources : List (Source Query)) → Keeps R (renderSources d sources)
  | [] => hR.result _
  | source :: rest =>
    hR.seq (renderSource_keeps hR d source) fun _ => hR.seq (renderSources_keeps hR d rest) fun _ =>
      hR.result _
theorem renderJoins_keeps (hR : Stable R) (d : Dialect) :
    (joins : List (Join Query)) → Keeps R (renderJoins d joins)
  | [] => hR.result _
  | ⟨kind, target, conditions⟩ :: rest => by
    rw [renderJoins]
    refine hR.seq (renderSource_keeps hR d target) fun _ => ?_
    dsimp only
    split
    · exact hR.seq (hR.result _) fun _ => hR.seq (renderJoins_keeps hR d rest) fun _ => hR.result _
    · exact hR.seq (renderConditions_keeps hR _ conditions) fun _ =>
        hR.seq (renderJoins_keeps hR d rest) fun _ => hR.result _
theorem renderConditions_keeps (hR : Stable R) (scope : Scope) :
    (conditions : List (Condition Query)) → Keeps R (renderConditions scope conditions)
  | [] => hR.result _
  | c :: cs =>
    hR.seq (renderCondition_keeps hR scope c) fun _ =>
      hR.seq (renderConditions_keeps hR scope cs) fun _ => hR.result _
theorem renderCondition_keeps (hR : Stable R) (scope : Scope) :
    (c : Condition Query) → Keeps R (renderCondition scope c)
  | .basic column operator operand _ => by
    rw [renderCondition]
    split
    · exact hR.result _
    · split
      · exact .throw _
      · exact hR.seq (hR.renderComparison _ _ _ _) fun _ => hR.result _
  | .isIn column values negated _ =>
    hR.seq (hR.renderMembership scope column values negated) fun _ => hR.result _
  | .between column low high negated _ =>
    hR.seq (hR.renderRange scope column low high negated) fun _ => hR.result _
  | .group children _ => hR.seq (renderConditions_keeps hR scope children) fun _ => hR.result _
  | .sub column operator query _ => by
    rw [renderCondition]
    split
    · exact .throw _
    · exact hR.seq (renderQuery_keeps hR _ query) fun _ => hR.result _
  | .hasRows query _ _ => hR.seq (renderQuery_keeps hR _ query) fun _ => hR.result _
  | .raw sql values _ => hR.seq (hR.expandRaw sql values) fun _ => hR.result _
theorem renderUnions_keeps (hR : Stable R) (d : Dialect) :
    (unions : List (Query × Bool)) → Keeps R (renderUnions d unions)
  | [] => hR.result _
  | (query, _) :: rest =>
    hR.seq (renderQuery_keeps hR d query) fun _ => hR.seq (renderUnions_keeps hR d rest) fun _ =>
      hR.result _
end

end Render

end RowMapper.Sql
