import RowMapper.Proofs.Parameter.Names
import RowMapper.Proofs.Placeholder.Token

/-! # Marks of raw fragments

A raw fragment takes one value for each of its question marks outside quotes: first its
own values and then those that wait. It is refused when values of its own are left over,
and when there are fewer values than marks. Otherwise each mark becomes the placeholder of
a fresh name, and the rest of the text stays as it is.
-/

namespace RowMapper.Sql

open Run

def Parameter.placeholder (p : Parameter) : String := ":" ++ p.name

/-- Text from a place inside or outside quotes on, with other texts in the place of the question
marks outside quotes, one after another. -/
def replaceMarks : Option Char → List Char → List String → List Char
  | _, [], _ => []
  | some q, c :: cs, texts => c :: replaceMarks (if c = q then none else some q) cs texts
  | none, c :: cs, texts =>
    if c = '?' then (texts.headD "?").toList ++ replaceMarks none cs texts.tail
    else c :: replaceMarks (if isQuote c then some c else none) cs texts

namespace ParamSink

def values (s : ParamSink) : List Value := s.parameters.map Parameter.value

/-- New parameters were bound, each under a name that was not given out before. -/
structure Gains (s : ParamSink) (new : List Parameter) (t : ParamSink) : Prop where
  parameters : t.parameters = s.parameters ++ new
  nodup : (new.map Parameter.name).Nodup
  unused : ∀ p ∈ new, p.name ∉ s.names

/-- A number of marks was given values, first from a list and then from the waiting ones. -/
structure Serves (marks : Nat) (own : List Value) (s : ParamSink) (new : List Parameter)
    (t : ParamSink) : Prop extends Gains s new t where
  values : new.map Parameter.value = (own ++ s.pending).take marks
  pending : t.pending = (own ++ s.pending).drop marks

theorem Gains.values {s t : ParamSink} {new : List Parameter} (h : s.Gains new t) :
    t.values = s.values ++ new.map Parameter.value := by
  rw [ParamSink.values, h.parameters, List.map_append, ParamSink.values]

theorem Gains.refl (s : ParamSink) : s.Gains [] s where
  parameters := (List.append_nil _).symm
  nodup := List.nodup_nil
  unused _ h := nomatch h

theorem Gains.cons {s t u : ParamSink} {p : Parameter} {new : List Parameter}
    (hp : t.parameters = s.parameters ++ [p]) (hfresh : p.name ∉ s.names) (h : t.Gains new u) :
    s.Gains (p :: new) u where
  parameters := by
    rw [h.parameters, hp, List.append_assoc]
    rfl
  nodup := by
    refine List.nodup_cons.2 ⟨fun hmem => ?_, h.nodup⟩
    obtain ⟨other, hother, hname⟩ := List.mem_map.1 hmem
    refine h.unused other hother ?_
    simp [names, hp, hname]
  unused := by
    have hrest : ∀ other ∈ new, other.name ∉ s.names := by
      intro other hother hname
      refine h.unused other hother ?_
      rw [names, hp, List.map_append]
      exact List.mem_append_left _ hname
    exact List.forall_mem_cons.2 ⟨hfresh, hrest⟩

theorem nextValue_of_cons {own queue : List Value} {v : Value} {s : ParamSink}
    (h : own ++ s.pending = v :: queue) : ∃ s', nextValue own s = .ok (some (v, own.tail)) s' ∧
      own.tail ++ s'.pending = queue ∧ s'.parameters = s.parameters := by
  cases own with
  | cons w own =>
    obtain ⟨rfl, hrest⟩ := List.cons.inj h
    exact ⟨s, rfl, hrest, rfl⟩
  | nil =>
    rcases s with ⟨counters, parameters, category, depth, pending⟩
    obtain rfl : pending = v :: queue := h
    exact ⟨_, rfl, rfl, rfl⟩

/-- A mark takes the first of the values at hand and becomes a new placeholder. -/
theorem expandFrom_mark (sql : String) {own queue : List Value} {v : Value} {s : ParamSink}
    (h : own ++ s.pending = v :: queue) : ∃ p u,
      u.parameters = s.parameters ++ [p] ∧ p.value = v ∧ p.name ∉ s.names ∧
      own.tail ++ u.pending = queue ∧
      ∀ cs, expandFrom sql none own ('?' :: cs) s = (do
        let rest ← expandFrom sql none own.tail cs
        return p.placeholder.toList ++ rest) u := by
  obtain ⟨s', hnext, hrest, hsame⟩ := nextValue_of_cons h
  obtain ⟨text, u, hbind⟩ : ∃ text u, bind "raw" v s' = .ok text u := ⟨_, _, rfl⟩
  have hpending : u.pending = s'.pending := by
    cases hbind
    rfl
  obtain ⟨name, rfl, hadded, hfresh, -⟩ := fresh_of_bind hbind
  refine ⟨⟨name, v, s'.category⟩, u, hsame ▸ hadded, rfl, ?_, hpending ▸ hrest, fun cs => ?_⟩
  · rwa [names, hsame] at hfresh
  · rw [expandFrom, if_pos rfl, bind_of_ok hnext]
    exact bind_of_ok hbind _

theorem expandFrom_mark_of_nil (sql : String) {own : List Value} {s : ParamSink}
    (h : own ++ s.pending = []) (cs : List Char) :
    ∃ e, expandFrom sql none own ('?' :: cs) s = .error e s := by
  rcases s with ⟨counters, parameters, category, depth, pending⟩
  obtain ⟨rfl, hpending⟩ := List.append_eq_nil_iff.1 h
  obtain rfl : pending = [] := hpending
  exact ⟨_, rfl⟩

theorem marksFrom_mark (cs : List Char) :
    marksFrom none ('?' :: cs) = marksFrom none cs + 1 := by
  rw [marksFrom, if_pos rfl, Nat.add_comm]
  rfl

theorem marksFrom_other {c : Char} (h : c ≠ '?') (cs : List Char) :
    marksFrom none (c :: cs) = marksFrom (if isQuote c then some c else none) cs := by
  rw [marksFrom, if_neg h, Nat.zero_add]

/-- As long as the marks take all of the own values and find enough of them, each becomes a
placeholder. -/
theorem expandFrom_of_enough (sql : String) {cs : List Char} :
    ∀ (quote : Option Char) {own : List Value} {s : ParamSink},
      own.length ≤ marksFrom quote cs → marksFrom quote cs ≤ (own ++ s.pending).length →
      ∃ new t, expandFrom sql quote own cs s =
        .ok (replaceMarks quote cs (new.map Parameter.placeholder)) t ∧
          Serves (marksFrom quote cs) own s new t := by
  induction cs with
  | nil =>
    intro quote own s hown _
    have hnone : marksFrom quote [] = 0 := by cases quote <;> rfl
    rw [hnone] at hown ⊢
    obtain rfl : own = [] := List.length_eq_zero_iff.1 (Nat.le_zero.1 hown)
    refine ⟨[], s, ?_, Gains.refl s, rfl, rfl⟩
    cases quote <;> rfl
  | cons c cs ih =>
    intro quote own s hown henough
    cases quote with
    | some q =>
      obtain ⟨new, t, hrun, hserves⟩ := ih (if c = q then none else some q) hown henough
      refine ⟨new, t, ?_, hserves⟩
      rw [expandFrom, replaceMarks]
      exact bind_of_ok hrun _
    | none =>
      by_cases hc : c = '?'
      · subst hc
        rw [marksFrom_mark] at hown henough ⊢
        cases hqueue : own ++ s.pending with
        | nil => simp [hqueue] at henough
        | cons v queue =>
          obtain ⟨p, u, hadded, rfl, hfresh, hrest, hstep⟩ := expandFrom_mark sql hqueue
          rw [hqueue, List.length_cons] at henough
          have hown' : own.tail.length ≤ marksFrom none cs := by
            rw [List.length_tail]
            omega
          have henough' : marksFrom none cs ≤ (own.tail ++ u.pending).length := by
            rw [hrest]
            omega
          obtain ⟨new, t, hrun, hserves⟩ := ih none hown' henough'
          refine ⟨p :: new, t, ?_, .cons hadded hfresh hserves.toGains, ?_, ?_⟩
          · rw [hstep]
            exact bind_of_ok hrun _
          · rw [List.map_cons, hserves.values, hrest, hqueue, List.take_succ_cons]
          · rw [hserves.pending, hrest, hqueue, List.drop_succ_cons]
      · rw [marksFrom_other hc] at hown henough ⊢
        obtain ⟨new, t, hrun, hserves⟩ := ih _ hown henough
        refine ⟨new, t, ?_, hserves⟩
        rw [expandFrom, if_neg hc, replaceMarks, if_neg hc]
        exact bind_of_ok hrun _

/-- When own values are left over, or the marks are more than the values, there is no text. -/
theorem expandFrom_of_not_enough (sql : String) {cs : List Char} :
    ∀ (quote : Option Char) {own : List Value} {s : ParamSink},
      ¬(own.length ≤ marksFrom quote cs ∧ marksFrom quote cs ≤ (own ++ s.pending).length) →
      ∃ e t, expandFrom sql quote own cs s = .error e t := by
  induction cs with
  | nil =>
    intro quote own s h
    cases own with
    | nil => cases quote <;> simp [marksFrom] at h
    | cons v own => cases quote <;> exact ⟨_, s, rfl⟩
  | cons c cs ih =>
    intro quote own s h
    cases quote with
    | some q =>
      obtain ⟨e, t, hrun⟩ := ih (if c = q then none else some q) h
      rw [expandFrom]
      exact ⟨e, t, bind_of_error hrun _⟩
    | none =>
      by_cases hc : c = '?'
      · subst hc
        cases hqueue : own ++ s.pending with
        | nil =>
          obtain ⟨e, hrun⟩ := expandFrom_mark_of_nil sql hqueue cs
          exact ⟨e, s, hrun⟩
        | cons v queue =>
          obtain ⟨p, u, -, -, -, hrest, hstep⟩ := expandFrom_mark sql hqueue
          have h' : ¬(own.tail.length ≤ marksFrom none cs ∧
              marksFrom none cs ≤ (own.tail ++ u.pending).length) := by
            rw [marksFrom_mark, hqueue, List.length_cons] at h
            rw [hrest, List.length_tail]
            omega
          obtain ⟨e, t, hrun⟩ := ih none h'
          rw [hstep]
          exact ⟨e, t, bind_of_error hrun _⟩
      · rw [marksFrom_other hc] at h
        obtain ⟨e, t, hrun⟩ := ih _ h
        rw [expandFrom, if_neg hc]
        exact ⟨e, t, bind_of_error hrun _⟩

/-- Whether a fragment with some marks can be served: all of its own values are used, and the
values at hand are enough. -/
def Fits (marks : Nat) (own waiting : List Value) : Prop :=
  own.length ≤ marks ∧ marks ≤ (own ++ waiting).length

instance (marks : Nat) (own waiting : List Value) : Decidable (Fits marks own waiting) :=
  inferInstanceAs (Decidable (_ ∧ _))

/-- A fragment that can be served is written with a new placeholder for each mark, and with the
rest of its text as it is. -/
theorem expandRaw_of_fits {sql : String} {own : List Value} {s : ParamSink}
    (h : Fits (questionMarks sql) own s.pending) : ∃ new t,
      expandRaw sql own s = .ok
        (String.ofList (replaceMarks none sql.toList (new.map Parameter.placeholder))) t ∧
      Serves (questionMarks sql) own s new t := by
  obtain ⟨new, t, hrun, hserves⟩ := expandFrom_of_enough sql none h.1 h.2
  refine ⟨new, t, ?_, hserves⟩
  rw [expandRaw, ← bind_pure_comp]
  exact bind_of_ok hrun _

theorem expandRaw_of_not_fits {sql : String} {own : List Value} {s : ParamSink}
    (h : ¬Fits (questionMarks sql) own s.pending) : ∃ e t, expandRaw sql own s = .error e t := by
  obtain ⟨e, t, hrun⟩ := expandFrom_of_not_enough sql none h
  rw [expandRaw, ← bind_pure_comp]
  exact ⟨e, t, bind_of_error hrun _⟩

end ParamSink

end RowMapper.Sql
