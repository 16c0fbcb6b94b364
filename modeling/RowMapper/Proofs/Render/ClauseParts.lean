import Mathlib.Algebra.GroupWithZero.Nat
import RowMapper.Proofs.Parameter.Fragments
import RowMapper.Proofs.Render.Runs

/-! # Parts of a clause

A clause is a row of parts. A raw fragment takes values of its own and then those that
wait for the fragments of the clause. Every other part, a nested query too, takes none of
these, and it binds the same values whatever sink it starts from. So what a clause binds,
and whether it renders at all, can be told part by part without a sink.
-/

namespace RowMapper.Sql

open Run ParamSink

variable {α β : Type}

/-- A part of a clause, as far as the values go that it takes and binds. -/
inductive ClausePart where
  | fragment (sql : String) (own : List Value)
  /-- Anything but a fragment, with the values that it binds if it renders at all. -/
  | inner (bound : Option (List Value))

namespace ClausePart

def isInner : ClausePart → Bool
  | fragment _ _ => false
  | inner _ => true

/-- The values that a part binds, and those that it leaves waiting. -/
def draw : ClausePart → List Value → Option (List Value × List Value)
  | fragment sql own, waiting =>
    if Fits (questionMarks sql) own waiting then
      some ((own ++ waiting).take (questionMarks sql), (own ++ waiting).drop (questionMarks sql))
    else none
  | inner bound, waiting => bound.map fun values => (values, waiting)

def drawAll : List ClausePart → List Value → Option (List Value × List Value)
  | [], waiting => some ([], waiting)
  | part :: parts, waiting =>
    (part.draw waiting).bind fun (bound, left) =>
      (drawAll parts left).map fun (others, rest) => (bound ++ others, rest)

/-- The values that the parts of a clause bind; all values given for the clause have to be taken. -/
def boundBy (parts : List ClausePart) (given : List Value) : Option (List Value) :=
  match drawAll parts given with
  | some (bound, []) => some bound
  | _ => none

variable {part : ClausePart} {parts others : List ClausePart} {waiting bound left : List Value}

theorem drawAll_cons_eq_some : drawAll (part :: parts) waiting = some (bound, left) ↔
    ∃ first mid second, part.draw waiting = some (first, mid) ∧
      drawAll parts mid = some (second, left) ∧ bound = first ++ second := by
  rw [drawAll, Option.bind_eq_some_iff]
  constructor
  · rintro ⟨⟨first, mid⟩, hfirst, hrest⟩
    obtain ⟨⟨second, rest⟩, hsecond, heq⟩ := Option.map_eq_some_iff.1 hrest
    cases heq
    exact ⟨first, mid, second, hfirst, hsecond, rfl⟩
  · rintro ⟨first, mid, second, hfirst, hsecond, rfl⟩
    exact ⟨(first, mid), hfirst, Option.map_eq_some_iff.2 ⟨(second, left), hsecond, rfl⟩⟩

theorem drawAll_append_eq_some : drawAll (parts ++ others) waiting = some (bound, left) ↔
    ∃ first mid second, drawAll parts waiting = some (first, mid) ∧
      drawAll others mid = some (second, left) ∧ bound = first ++ second := by
  induction parts generalizing waiting bound with
  | nil =>
    constructor
    · intro h
      exact ⟨[], waiting, bound, rfl, h, rfl⟩
    · rintro ⟨first, mid, second, hfirst, hsecond, rfl⟩
      cases hfirst
      exact hsecond
  | cons part parts ih =>
    rw [List.cons_append, drawAll_cons_eq_some]
    constructor
    · rintro ⟨first, mid, rest, hfirst, hrest, rfl⟩
      obtain ⟨second, mid', third, hsecond, hthird, rfl⟩ := ih.1 hrest
      exact ⟨first ++ second, mid', third,
        drawAll_cons_eq_some.2 ⟨first, mid, second, hfirst, hsecond, rfl⟩, hthird,
        (List.append_assoc ..).symm⟩
    · rintro ⟨both, mid', third, hboth, hthird, rfl⟩
      obtain ⟨first, mid, second, hfirst, hsecond, rfl⟩ := drawAll_cons_eq_some.1 hboth
      exact ⟨first, mid, second ++ third, hfirst, ih.2 ⟨second, mid', third, hsecond, hthird, rfl⟩,
        List.append_assoc ..⟩

theorem drawAll_inner (b : Option (List Value)) (waiting : List Value) :
    drawAll [inner b] waiting = b.map fun values => (values, waiting) := by
  cases b with
  | none => rfl
  | some values => simp [drawAll, draw]

/-- Parts without fragments leave all values waiting and look at none of them. -/
theorem drawAll_of_isInner (h : ∀ part ∈ parts, part.isInner) (waiting : List Value) :
    drawAll parts waiting = (drawAll parts []).map fun result => (result.1, waiting) := by
  induction parts with
  | nil => rfl
  | cons part parts ih =>
    obtain ⟨hpart, hparts⟩ := List.forall_mem_cons.1 h
    cases part with
    | fragment sql own => simp [isInner] at hpart
    | inner b =>
      cases b with
      | none => rfl
      | some values =>
        simp only [drawAll, draw, Option.map_some, Option.bind_some]
        rw [ih hparts]
        cases drawAll parts [] <;> rfl

theorem boundBy_eq_some {given : List Value} :
    boundBy parts given = some bound ↔ drawAll parts given = some (bound, []) := by
  unfold boundBy
  split
  · next heq => simp [heq]
  · next hne =>
    constructor
    · intro h
      cases h
    · intro h
      exact absurd h (hne bound)

/-! ## When parts take exactly the values given for them -/

/-- The number of marks of a part that its own values do not fill. -/
def missing : ClausePart → Nat
  | fragment sql own => questionMarks sql - own.length
  | inner _ => 0

/-- Whether a part can be rendered once there are enough values: a fragment has no more values of
its own than marks, and anything else renders. -/
def Sound : ClausePart → Prop
  | fragment sql own => own.length ≤ questionMarks sql
  | inner b => b.isSome

instance : (part : ClausePart) → Decidable part.Sound
  | fragment sql own => inferInstanceAs (Decidable (own.length ≤ questionMarks sql))
  | inner b => inferInstanceAs (Decidable (b.isSome = true))

/-- A part draws when it is sound and finds enough values; it leaves what it did not miss. -/
theorem draw_isSome_iff (waiting : List Value) : (part.draw waiting).isSome ↔
    part.Sound ∧ part.missing ≤ waiting.length := by
  cases part with
  | fragment sql own =>
    simp only [draw, Sound, missing]
    split
    · next h =>
      obtain ⟨hown, henough⟩ := h
      rw [List.length_append] at henough
      simp only [Option.isSome_some, true_iff]
      omega
    · next h =>
      simp only [Option.isSome_none, Bool.false_eq_true, false_iff]
      intro hfits
      refine h ⟨hfits.1, ?_⟩
      rw [List.length_append]
      omega
  | inner b => cases b <;> simp [draw, Sound, missing]

theorem length_left_of_draw (h : part.draw waiting = some (bound, left)) :
    left.length + part.missing = waiting.length := by
  cases part with
  | fragment sql own =>
    rw [draw] at h
    split at h
    · next hfits =>
      cases h
      obtain ⟨hown, henough⟩ := hfits
      rw [List.length_append] at henough
      rw [missing, List.length_drop, List.length_append]
      omega
    · cases h
  | inner b =>
    obtain ⟨values, -, heq⟩ := Option.map_eq_some_iff.1 h
    cases heq
    rfl

/-- The parts of a clause take exactly the values given for it when each is sound and together they
miss as many as there are. -/
theorem boundBy_isSome_iff {given : List Value} : (boundBy parts given).isSome ↔
    (∀ part ∈ parts, part.Sound) ∧ (parts.map missing).sum = given.length := by
  induction parts generalizing given with
  | nil => cases given <;> simp [boundBy, drawAll]
  | cons part parts ih =>
    rw [List.forall_mem_cons, List.map_cons, List.sum_cons]
    constructor
    · intro h
      obtain ⟨bound, hbound⟩ := Option.isSome_iff_exists.1 h
      obtain ⟨first, mid, second, hfirst, hrest, -⟩ :=
        drawAll_cons_eq_some.1 (boundBy_eq_some.1 hbound)
      obtain ⟨hsound, hsum⟩ := ih.1 (Option.isSome_iff_exists.2 ⟨second, boundBy_eq_some.2 hrest⟩)
      have hlength := length_left_of_draw hfirst
      have hpart := ((draw_isSome_iff given).1 (Option.isSome_iff_exists.2 ⟨_, hfirst⟩)).1
      exact ⟨⟨hpart, hsound⟩, by omega⟩
    · rintro ⟨⟨hpart, hsound⟩, hsum⟩
      have hdraw := (draw_isSome_iff given).2 ⟨hpart, by omega⟩
      obtain ⟨⟨first, mid⟩, hfirst⟩ := Option.isSome_iff_exists.1 hdraw
      have hlength := length_left_of_draw hfirst
      obtain ⟨second, hsecond⟩ := Option.isSome_iff_exists.1 (ih.2 ⟨hsound, show _ = mid.length by omega⟩)
      exact Option.isSome_iff_exists.2 ⟨first ++ second, boundBy_eq_some.2
        (drawAll_cons_eq_some.2 ⟨first, mid, second, hfirst, boundBy_eq_some.1 hsecond, rfl⟩)⟩

/-- A program that is not a fragment, as a part: the values that it binds when nothing is there. -/
def alone (x : Render α) : ClausePart :=
  inner (match x {} with
    | .ok _ t => some t.values
    | .error _ _ => none)

end ClausePart

open ClausePart

/-! ## What rendering draws -/

/-- A program renders from a sink exactly when its parts can be drawn from what waits there, and
then it binds and leaves what they do. -/
structure Draws (x : Render α) (parts : List ClausePart) : Prop where
  renders : ∀ s, (drawAll parts s.pending).isSome → ∃ a t, x s = .ok a t
  drawn : ∀ {s a t}, x s = .ok a t →
    ∃ bound, drawAll parts s.pending = some (bound, t.pending) ∧ t.values = s.values ++ bound

namespace Draws

theorem result (a : α) : Draws (pure a) [] where
  renders s _ := ⟨a, s, rfl⟩
  drawn h := by
    cases h
    exact ⟨[], rfl, (List.append_nil _).symm⟩

theorem refused {x : Render α} (h : ∀ s a t, x s ≠ .ok a t) : Draws x [.inner none] where
  renders s hs := by simp [drawAll_inner] at hs
  drawn ht := absurd ht (h _ _ _)

theorem fail (e : Error) : Draws (throw e : Render α) [.inner none] :=
  refused fun _ _ _ h => Render.throw_ne_ok h

theorem seq {x : Render α} {f : α → Render β} {parts others : List ClausePart} (hx : Draws x parts)
    (hf : ∀ a, Draws (f a) others) : Draws (x >>= f) (parts ++ others) where
  renders s hs := by
    obtain ⟨⟨bound, left⟩, hdraw⟩ := Option.isSome_iff_exists.1 hs
    obtain ⟨first, mid, second, hfirst, hsecond, -⟩ := drawAll_append_eq_some.1 hdraw
    obtain ⟨a, t, ha⟩ := hx.renders s (Option.isSome_iff_exists.2 ⟨_, hfirst⟩)
    obtain ⟨bound', hbound', -⟩ := hx.drawn ha
    rw [hfirst] at hbound'
    cases hbound'
    obtain ⟨b, u, hb⟩ := (hf a).renders t (Option.isSome_iff_exists.2 ⟨_, hsecond⟩)
    exact ⟨b, u, Render.bind_eq_ok.2 ⟨a, t, ha, hb⟩⟩
  drawn h := by
    obtain ⟨a, t, ha, hb⟩ := Render.bind_eq_ok.1 h
    obtain ⟨first, hfirst, hvalues⟩ := hx.drawn ha
    obtain ⟨second, hsecond, hvalues'⟩ := (hf a).drawn hb
    refine ⟨first ++ second, drawAll_append_eq_some.2 ⟨first, _, second, hfirst, hsecond, rfl⟩, ?_⟩
    rw [hvalues', hvalues, List.append_assoc]

theorem andThen {x : Render α} {f : α → Render β} {parts : List ClausePart} (hx : Draws x parts)
    (hf : ∀ a, Draws (f a) []) : Draws (x >>= f) parts := by
  have h := hx.seq hf
  rwa [List.append_nil] at h

theorem bind (column : String) (v : Value) :
    Draws (ParamSink.bind column v) [.inner (some [v])] where
  renders s _ := ⟨_, _, rfl⟩
  drawn h := by
    cases h
    exact ⟨[v], rfl, by simp [values]⟩

theorem expandRaw (sql : String) (own : List Value) :
    Draws (ParamSink.expandRaw sql own) [.fragment sql own] := by
  have hdraw (waiting : List Value) :
      drawAll [.fragment sql own] waiting = (ClausePart.fragment sql own).draw waiting := by
    cases h : (ClausePart.fragment sql own).draw waiting <;> simp [drawAll, h]
  constructor
  · intro s hs
    rw [hdraw, draw] at hs
    split at hs
    · next hfits =>
      obtain ⟨new, t, hrun, -⟩ := expandRaw_of_fits hfits
      exact ⟨_, t, hrun⟩
    · cases hs
  · intro s a t h
    by_cases hfits : Fits (questionMarks sql) own s.pending
    · obtain ⟨new, t', hrun, hserves⟩ := expandRaw_of_fits hfits
      rw [hrun] at h
      cases h
      refine ⟨(own ++ s.pending).take (questionMarks sql), ?_, ?_⟩
      · rw [hdraw, draw, if_pos hfits, hserves.pending]
      · rw [hserves.toGains.values, hserves.values]
    · obtain ⟨e, t', hrun⟩ := expandRaw_of_not_fits hfits
      rw [hrun] at h
      cases h

theorem within {body : Render α} {parts : List ClausePart} (hbody : Draws body parts) (c : Category)
    (given : List Value) : Draws (inClause c given body) [.inner (boundBy parts given)] where
  renders s hs := by
    rw [drawAll_inner, Option.isSome_map] at hs
    obtain ⟨bound, hbound⟩ := Option.isSome_iff_exists.1 hs
    have hdraw := boundBy_eq_some.1 hbound
    obtain ⟨a, t, ha⟩ := hbody.renders (s.openClause c given).2 (Option.isSome_iff_exists.2 ⟨_, hdraw⟩)
    obtain ⟨bound', hbound', -⟩ := hbody.drawn ha
    have hpending : t.pending = [] := congrArg Prod.snd (Option.some.inj (hbound'.symm.trans hdraw))
    exact ⟨a, _, Render.inClause_eq_ok.2 ⟨t, ha, hpending, rfl⟩⟩
  drawn h := by
    obtain ⟨t, ht, hpending, rfl⟩ := Render.inClause_eq_ok.1 h
    obtain ⟨bound, hbound, hvalues⟩ := hbody.drawn ht
    rw [hpending] at hbound
    have hall : boundBy parts given = some bound := boundBy_eq_some.2 hbound
    refine ⟨bound, ?_, hvalues⟩
    rw [drawAll_inner, hall]
    rfl

/-- A program without fragments binds everywhere what it binds when nothing is there. -/
theorem alone {x : Render α} {parts : List ClausePart} (hx : Draws x parts)
    (hparts : ∀ part ∈ parts, part.isInner) : Draws x [ClausePart.alone x] where
  renders s hs := by
    rw [ClausePart.alone, drawAll_inner, Option.isSome_map] at hs
    split at hs
    · next a t ha =>
      obtain ⟨bound, hbound, -⟩ := hx.drawn ha
      have hnothing : drawAll parts [] = some (bound, t.pending) := hbound
      refine hx.renders s ?_
      rw [drawAll_of_isInner hparts, hnothing]
      rfl
    · cases hs
  drawn := by
    intro s a t h
    obtain ⟨bound, hbound, hvalues⟩ := hx.drawn h
    rw [drawAll_of_isInner hparts, Option.map_eq_some_iff] at hbound
    obtain ⟨⟨bound', rest⟩, hnothing, heq⟩ := hbound
    obtain ⟨rfl, hpending⟩ := Prod.mk.inj heq
    obtain ⟨b, u, hb⟩ := hx.renders {} (Option.isSome_iff_exists.2 ⟨_, hnothing⟩)
    obtain ⟨bound'', hbound'', hvalues'⟩ := hx.drawn hb
    have hsame : bound'' = bound' := congrArg Prod.fst (Option.some.inj (hbound''.symm.trans hnothing))
    have hu : u.values = bound' := hvalues'.trans hsame
    refine ⟨bound', ?_, hvalues⟩
    rw [ClausePart.alone, drawAll_inner, hb, ← hpending]
    exact congrArg (fun values => some (values, s.pending)) hu

/-! ## Parts of a predicate that are no fragments -/

theorem renderBound (left column : String) (op : Comparison) (v : Value) :
    Draws (Sql.renderBound left column op v) [.inner (some [v])] :=
  (bind column v).andThen fun _ => result _

theorem renderComparison (scope : Scope) (column : String) (op : Comparison) (operand : Operand) :
    ∃ parts, Draws (Sql.renderComparison scope column op operand) parts ∧
      ∀ part ∈ parts, part.isInner := by
  unfold Sql.renderComparison
  split
  · exact ⟨_, result _, by simp⟩
  · exact ⟨_, result _, by simp⟩
  · exact ⟨_, result _, by simp⟩
  · exact ⟨_, result _, by simp⟩
  · exact ⟨_, result _, by simp⟩
  · split
    · exact ⟨_, (bind _ _).andThen fun _ => result _, by simp [isInner]⟩
    · exact ⟨_, renderBound _ _ _ _, by simp [isInner]⟩
  · exact ⟨_, renderBound _ _ _ _, by simp [isInner]⟩
  · exact ⟨_, renderBound _ _ _ _, by simp [isInner]⟩

theorem bindAll (column : String) (values : List Value) :
    Draws (Sql.bindAll column values) (values.map fun v => .inner (some [v])) := by
  induction values with
  | nil => exact result _
  | cons v vs ih => exact (bind column v).seq fun _ => ih.andThen fun _ => result _

theorem renderMembership (scope : Scope) (column : String) (values : List Value) (negated : Bool) :
    ∃ parts, Draws (Sql.renderMembership scope column values negated) parts ∧
      ∀ part ∈ parts, part.isInner := by
  unfold Sql.renderMembership
  split
  · exact ⟨_, result _, by simp⟩
  · exact ⟨_, (bindAll column values).andThen fun _ => result _, by simp [isInner]⟩

theorem renderRange (scope : Scope) (column : String) (low high : Value) (negated : Bool) :
    Draws (Sql.renderRange scope column low high negated)
      [.inner (some [low]), .inner (some [high])] :=
  (bind column low).seq fun _ => (bind column high).andThen fun _ => result _

end Draws

end RowMapper.Sql
