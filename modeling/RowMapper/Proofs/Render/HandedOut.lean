import RowMapper.Proofs.Render.Clauses

/-! # Values handed out to fragments

The values given for a clause go to its raw fragments one after another: each takes, after
the values of its own, as many as its marks still miss. A clause that renders could have
had these values in its fragments from the start: it renders to the same text and binds
the same parameters. Whatever stands between the fragments, nested queries too, neither
takes a waiting value nor loses one.
-/

namespace RowMapper

namespace Sql

open Render ParamSink

variable {α β : Type}

/-! ## What waits does not matter to names -/

namespace ParamSink

theorem freeNumber_pending (s : ParamSink) (p : List Value) (base : String) (n fuel : Nat) :
    freeNumber { s with pending := p } base n fuel = s.freeNumber base n fuel := by
  induction fuel generalizing n with
  | zero => rfl
  | succ fuel ih =>
    rw [freeNumber, freeNumber, ih]
    rfl

theorem bind_pending {column : String} {v : Value} {s t : ParamSink} {text : String}
    (h : bind column v s = .ok text t) (p : List Value) :
    bind column v { s with pending := p } = .ok text { t with pending := p } := by
  have hnumber : nextNumber { s with pending := p } (baseName column) =
      s.nextNumber (baseName column) := freeNumber_pending s p _ _ _
  cases h
  simp only [bind, hnumber]

theorem nextValue_of_ok {own rest : List Value} {v : Value} {s u : ParamSink}
    (h : nextValue own s = .ok (some (v, rest)) u) :
    own ++ s.pending = v :: (rest ++ u.pending) ∧
      ∀ p, { u with pending := p } = { s with pending := p } := by
  rcases s with ⟨counters, parameters, category, depth, pending⟩
  cases own with
  | cons w own =>
    cases h
    exact ⟨rfl, fun _ => rfl⟩
  | nil =>
    cases pending with
    | nil => cases h
    | cons w pending =>
      cases h
      exact ⟨rfl, fun _ => rfl⟩

/-- A fragment that renders would do so with all values of its marks as its own. -/
theorem expandFrom_handed (sql : String) {cs : List Char} :
    ∀ {quote : Option Char} {own : List Value} {s t : ParamSink} {text : List Char},
      expandFrom sql quote own cs s = .ok text t → ∀ p,
      expandFrom sql quote ((own ++ s.pending).take (marksFrom quote cs)) cs
        { s with pending := p } = .ok text { t with pending := p } := by
  induction cs with
  | nil =>
    intro quote own s t text h p
    have hnone : marksFrom quote [] = 0 := by cases quote <;> rfl
    rw [hnone, List.take_zero]
    cases own with
    | cons v own => cases quote <;> exact absurd h throw_ne_ok
    | nil =>
      cases quote <;>
      · cases h
        rfl
  | cons c cs ih =>
    intro quote own s t text h p
    cases quote with
    | some q =>
      rw [expandFrom] at h ⊢
      obtain ⟨rest, u, hrest, hdone⟩ := bind_eq_ok.1 h
      obtain ⟨rfl, rfl⟩ := pure_eq_ok.1 hdone
      exact bind_eq_ok.2 ⟨rest, _, ih hrest p, rfl⟩
    | none =>
      by_cases hc : c = '?'
      · subst hc
        rw [expandFrom, if_pos rfl] at h
        obtain ⟨next, u, hnext, h⟩ := bind_eq_ok.1 h
        cases next with
        | none => exact absurd h throw_ne_ok
        | some entry =>
          obtain ⟨v, own'⟩ := entry
          obtain ⟨placeholder, w, hbind, h⟩ := bind_eq_ok.1 h
          obtain ⟨rest, t', hrest, hdone⟩ := bind_eq_ok.1 h
          obtain ⟨rfl, rfl⟩ := pure_eq_ok.1 hdone
          obtain ⟨hqueue, hsame⟩ := nextValue_of_ok hnext
          have hpending : w.pending = u.pending := by
            cases hbind
            rfl
          rw [marksFrom_mark, hqueue, List.take_succ_cons, expandFrom, if_pos rfl]
          refine bind_eq_ok.2 ⟨_, { s with pending := p }, rfl, bind_eq_ok.2
            ⟨placeholder, { w with pending := p }, ?_, bind_eq_ok.2 ⟨rest, _, ?_, rfl⟩⟩⟩
          · rw [← hsame]
            exact bind_pending hbind p
          · rw [← hpending]
            exact ih hrest p
      · rw [expandFrom, if_neg hc] at h ⊢
        rw [marksFrom_other hc]
        obtain ⟨rest, u, hrest, hdone⟩ := bind_eq_ok.1 h
        obtain ⟨rfl, rfl⟩ := pure_eq_ok.1 hdone
        exact bind_eq_ok.2 ⟨rest, _, ih hrest p, rfl⟩

end ParamSink

/-! ## Fragments -/

structure Fragment where
  sql : String
  own : List Value

namespace Fragment

def missing (f : Fragment) : Nat := questionMarks f.sql - f.own.length

/-- The fragment with as many of the waiting values as it misses, after its own. -/
def filled (f : Fragment) (waiting : List Value) : Fragment :=
  { f with own := f.own ++ waiting.take f.missing }

def handOut : List Fragment → List Value → List Fragment
  | [], _ => []
  | f :: fs, waiting => f.filled waiting :: handOut fs (waiting.drop f.missing)

def leave (fs : List Fragment) (waiting : List Value) : List Value :=
  waiting.drop (fs.map missing).sum

end Fragment

/-! ## Programs with their values handed out -/

/-- A program that starts with some values waiting and leaves others does the same, whatever waits,
as a second program that takes none of them. -/
def Hands (x y : Render α) (waiting left : List Value) : Prop :=
  ∀ ⦃s a t⦄, s.pending = waiting → x s = .ok a t →
    t.pending = left ∧ ∀ p, y { s with pending := p } = .ok a { t with pending := p }

namespace Hands

theorem result (a : α) (waiting : List Value) : Hands (pure a) (pure a) waiting waiting := by
  intro s b t hs h
  obtain ⟨rfl, rfl⟩ := pure_eq_ok.1 h
  exact ⟨hs, fun _ => rfl⟩

theorem fail (e : Error) (waiting : List Value) :
    Hands (throw e : Render α) (throw e) waiting waiting :=
  fun _ _ _ _ h => absurd h throw_ne_ok

theorem seq {x y : Render α} {f g : α → Render β} {waiting mid left : List Value}
    (hx : Hands x y waiting mid) (hf : ∀ a, Hands (f a) (g a) mid left) :
    Hands (x >>= f) (y >>= g) waiting left := by
  intro s b u hs h
  obtain ⟨a, t, ha, hb⟩ := bind_eq_ok.1 h
  obtain ⟨hmid, hy⟩ := hx hs ha
  obtain ⟨hleft, hg⟩ := hf a hmid hb
  exact ⟨hleft, fun p => bind_eq_ok.2 ⟨a, _, hy p, hg p⟩⟩

theorem bind (column : String) (v : Value) (waiting : List Value) :
    Hands (ParamSink.bind column v) (ParamSink.bind column v) waiting waiting := by
  intro s text t hs h
  refine ⟨?_, bind_pending h⟩
  cases h
  exact hs

theorem within (c : Category) (given : List Value) (body : Render α) (waiting : List Value) :
    Hands (inClause c given body) (inClause c given body) waiting waiting := by
  intro s a u hs h
  obtain ⟨t, ht, hpending, rfl⟩ := inClause_eq_ok.1 h
  exact ⟨hs, fun p => inClause_eq_ok.2 ⟨t, ht, hpending, rfl⟩⟩

theorem expandRaw (f : Fragment) (waiting : List Value) :
    Hands (ParamSink.expandRaw f.sql f.own)
      (ParamSink.expandRaw f.sql (f.filled waiting).own) waiting (waiting.drop f.missing) := by
  intro s text t hs h
  obtain ⟨bound, hbound, -⟩ := (Draws.expandRaw f.sql f.own).drawn h
  obtain ⟨first, mid, second, hdraw, hnone, -⟩ := ClausePart.drawAll_cons_eq_some.1 hbound
  cases hnone
  rw [ClausePart.draw, hs] at hdraw
  split at hdraw
  · next hfits =>
    have hown : f.own.take (questionMarks f.sql) = f.own := List.take_of_length_le hfits.1
    have hnothing : f.own.drop (questionMarks f.sql) = [] := List.drop_eq_nil_of_le hfits.1
    have hfilled : (f.filled waiting).own = (f.own ++ waiting).take (questionMarks f.sql) := by
      rw [List.take_append, hown]
      rfl
    rw [List.drop_append, hnothing, List.nil_append] at hdraw
    obtain ⟨cs, hcs, rfl⟩ := map_eq_ok.1 h
    refine ⟨(Prod.mk.inj (Option.some.inj hdraw)).2.symm, fun p => ?_⟩
    rw [hfilled, ← hs]
    exact map_eq_ok.2 ⟨cs, expandFrom_handed f.sql hcs p, rfl⟩
  · cases hdraw

/-! ### What is no fragment -/

theorem renderQuery (d : Dialect) (q : Query) (waiting : List Value) :
    Hands (Sql.renderQuery d q) (Sql.renderQuery d q) waiting waiting := by
  have hclause (c : Category) : Hands (q.clause d c) (q.clause d c) waiting waiting :=
    within c _ _ waiting
  cases herror : q.error with
  | some e =>
    cases q
    subst herror
    exact fail e waiting
  | none =>
    rw [Query.renderQuery_eq_clauses herror]
    exact (hclause .select).seq fun _ => (hclause .source).seq fun _ => (hclause .join).seq fun _ =>
      (hclause .filter).seq fun _ => (hclause .having).seq fun _ => (hclause .order).seq fun _ =>
        (hclause .union).seq fun _ => result _ _

theorem renderBound (left column : String) (op : Comparison) (v : Value) (waiting : List Value) :
    Hands (Sql.renderBound left column op v) (Sql.renderBound left column op v) waiting waiting :=
  (bind column v waiting).seq fun _ => result _ _

theorem renderComparison (scope : Scope) (column : String) (op : Comparison) (operand : Operand)
    (waiting : List Value) : Hands (Sql.renderComparison scope column op operand)
      (Sql.renderComparison scope column op operand) waiting waiting := by
  unfold Sql.renderComparison
  split
  · exact result _ _
  · exact result _ _
  · exact result _ _
  · exact result _ _
  · exact result _ _
  · split
    · exact (bind _ _ _).seq fun _ => result _ _
    · exact renderBound _ _ _ _ _
  · exact renderBound _ _ _ _ _
  · exact renderBound _ _ _ _ _

theorem bindAll (column : String) (values waiting : List Value) :
    Hands (Sql.bindAll column values) (Sql.bindAll column values) waiting waiting := by
  induction values with
  | nil => exact result _ _
  | cons v vs ih => exact (bind column v waiting).seq fun _ => ih.seq fun _ => result _ _

theorem renderMembership (scope : Scope) (column : String) (values : List Value) (negated : Bool)
    (waiting : List Value) : Hands (Sql.renderMembership scope column values negated)
      (Sql.renderMembership scope column values negated) waiting waiting := by
  unfold Sql.renderMembership
  split
  · exact result _ _
  · exact (bindAll column values waiting).seq fun _ => result _ _

theorem renderRange (scope : Scope) (column : String) (low high : Value) (negated : Bool)
    (waiting : List Value) : Hands (Sql.renderRange scope column low high negated)
      (Sql.renderRange scope column low high negated) waiting waiting :=
  (bind column low waiting).seq fun _ => (bind column high waiting).seq fun _ => result _ _

theorem renderSource (d : Dialect) (source : Source Query) (waiting : List Value) :
    Hands (Sql.renderSource d source) (Sql.renderSource d source) waiting waiting := by
  cases source with
  | table name => exact result _ _
  | sub query asName => exact (renderQuery d query waiting).seq fun _ => result _ _

theorem renderSources (d : Dialect) (sources : List (Source Query)) (waiting : List Value) :
    Hands (Sql.renderSources d sources) (Sql.renderSources d sources) waiting waiting := by
  induction sources with
  | nil => exact result _ _
  | cons source rest ih =>
    exact (renderSource d source waiting).seq fun _ => ih.seq fun _ => result _ _

theorem renderUnions (d : Dialect) (unions : List (Query × Bool)) (waiting : List Value) :
    Hands (Sql.renderUnions d unions) (Sql.renderUnions d unions) waiting waiting := by
  induction unions with
  | nil => exact result _ _
  | cons united rest ih =>
    exact (renderQuery d united.1 waiting).seq fun _ => ih.seq fun _ => result _ _

end Hands

/-! ## Entries of clauses with their values handed out -/

/-- Entries one after another, each with its share of the waiting values, and what is left. -/
def handAll (hand : α → List Value → α × List Value) : List α → List Value → List α × List Value
  | [], waiting => ([], waiting)
  | a :: as, waiting =>
    ((hand a waiting).1 :: (handAll hand as (hand a waiting).2).1,
      (handAll hand as (hand a waiting).2).2)

def handRaw (sql : String) (own waiting : List Value) : List Value × List Value :=
  ((Fragment.filled ⟨sql, own⟩ waiting).own, waiting.drop (Fragment.missing ⟨sql, own⟩))

def handColumn : SelectItem Query → List Value → SelectItem Query × List Value
  | .raw sql own, waiting => (.raw sql (handRaw sql own waiting).1, (handRaw sql own waiting).2)
  | .column text, waiting => (.column text, waiting)
  | .sub query asName, waiting => (.sub query asName, waiting)

def handOrder : OrderItem → List Value → OrderItem × List Value
  | .raw sql own, waiting => (.raw sql (handRaw sql own waiting).1, (handRaw sql own waiting).2)
  | .column name direction, waiting => (.column name direction, waiting)

mutual
def handCondition : Condition Query → List Value → Condition Query × List Value
  | .raw sql own c, waiting =>
    (.raw sql (handRaw sql own waiting).1 c, (handRaw sql own waiting).2)
  | .group children c, waiting =>
    (.group (handConditions children waiting).1 c, (handConditions children waiting).2)
  | .basic column operator operand c, waiting => (.basic column operator operand c, waiting)
  | .isIn column values negated c, waiting => (.isIn column values negated c, waiting)
  | .between column low high negated c, waiting => (.between column low high negated c, waiting)
  | .sub column operator query c, waiting => (.sub column operator query c, waiting)
  | .hasRows query negated c, waiting => (.hasRows query negated c, waiting)
def handConditions : List (Condition Query) → List Value → List (Condition Query) × List Value
  | [], waiting => ([], waiting)
  | c :: cs, waiting =>
    ((handCondition c waiting).1 :: (handConditions cs (handCondition c waiting).2).1,
      (handConditions cs (handCondition c waiting).2).2)
end

/-- A join with the shares of its conditions; those of a cross join are not rendered. -/
def handJoin (j : Join Query) (waiting : List Value) : Join Query × List Value :=
  if j.kind = .cross then (j, waiting)
  else ({ j with conditions := (handConditions j.conditions waiting).1 },
    (handConditions j.conditions waiting).2)

namespace Hands

theorem renderColumns (d : Dialect) (columns : List (SelectItem Query)) (waiting : List Value) :
    Hands (Sql.renderColumns d columns) (Sql.renderColumns d (handAll handColumn columns waiting).1)
      waiting (handAll handColumn columns waiting).2 := by
  induction columns generalizing waiting with
  | nil => exact result _ _
  | cons column rest ih =>
    cases column with
    | column text => exact (ih waiting).seq fun _ => result _ _
    | raw sql own =>
      exact (expandRaw ⟨sql, own⟩ waiting).seq fun _ => (ih _).seq fun _ => result _ _
    | sub query asName =>
      exact (renderQuery d query waiting).seq fun _ => (ih waiting).seq fun _ => result _ _

theorem renderOrders (d : Dialect) (orders : List OrderItem) (waiting : List Value) :
    Hands (Sql.renderOrders d orders) (Sql.renderOrders d (handAll handOrder orders waiting).1)
      waiting (handAll handOrder orders waiting).2 := by
  induction orders generalizing waiting with
  | nil => exact result _ _
  | cons order rest ih =>
    cases order with
    | column name direction => exact (ih waiting).seq fun _ => result _ _
    | raw sql own =>
      exact (expandRaw ⟨sql, own⟩ waiting).seq fun _ => (ih _).seq fun _ => result _ _

theorem connective_handCondition (c : Condition Query) (waiting : List Value) :
    (handCondition c waiting).1.connective = c.connective := by
  cases c <;> rfl

mutual
theorem renderConditions (scope : Scope) :
    (conditions : List (Condition Query)) → (waiting : List Value) →
      Hands (Sql.renderConditions scope conditions)
        (Sql.renderConditions scope (handConditions conditions waiting).1)
        waiting (handConditions conditions waiting).2
  | [], _ => result _ _
  | c :: cs, waiting => by
    rw [handConditions, Sql.renderConditions, Sql.renderConditions, connective_handCondition]
    exact (renderCondition scope c waiting).seq fun _ => (renderConditions scope cs _).seq fun _ =>
      result _ _
theorem renderCondition (scope : Scope) : (c : Condition Query) → (waiting : List Value) →
    Hands (Sql.renderCondition scope c) (Sql.renderCondition scope (handCondition c waiting).1)
      waiting (handCondition c waiting).2
  | .basic column operator operand c, waiting => by
    rw [handCondition, Sql.renderCondition]
    split
    · exact result _ _
    · split
      · exact fail _ _
      · exact (renderComparison _ _ _ _ _).seq fun _ => result _ _
  | .isIn column values negated _, waiting =>
    (renderMembership scope column values negated waiting).seq fun _ => result _ _
  | .between column low high negated _, waiting =>
    (renderRange scope column low high negated waiting).seq fun _ => result _ _
  | .group children _, waiting => (renderConditions scope children waiting).seq fun _ => result _ _
  | .sub column operator query c, waiting => by
    rw [handCondition, Sql.renderCondition]
    split
    · exact fail _ _
    · exact (renderQuery _ query waiting).seq fun _ => result _ _
  | .hasRows query _ _, waiting => (renderQuery _ query waiting).seq fun _ => result _ _
  | .raw sql own _, waiting => (expandRaw ⟨sql, own⟩ waiting).seq fun _ => result _ _
end

theorem isEmpty_handConditions (conditions : List (Condition Query)) (waiting : List Value) :
    (handConditions conditions waiting).1.isEmpty = conditions.isEmpty := by
  cases conditions <;> rfl

theorem renderJoins (d : Dialect) (joins : List (Join Query)) (waiting : List Value) :
    Hands (Sql.renderJoins d joins) (Sql.renderJoins d (handAll handJoin joins waiting).1)
      waiting (handAll handJoin joins waiting).2 := by
  induction joins generalizing waiting with
  | nil => exact result _ _
  | cons j rest ih =>
    obtain ⟨kind, target, conditions⟩ := j
    by_cases hcross : kind = .cross
    · subst hcross
      exact (renderSource d target waiting).seq fun _ => (result _ _).seq fun _ =>
        (ih waiting).seq fun _ => result _ _
    · rw [handAll, handJoin, if_neg hcross, Sql.renderJoins, Sql.renderJoins,
        isEmpty_handConditions]
      simp only [hcross, if_false]
      exact (renderSource d target waiting).seq fun _ =>
        (renderConditions { dialect := d } conditions waiting).seq fun _ => (ih _).seq fun _ =>
          result _ _

end Hands

end Sql

end RowMapper
