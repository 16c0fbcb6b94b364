import RowMapper.Proofs.Statement.Updates

/-! # What a rendering binds and writes

A rendering that cannot fail binds the same values in whatever state it starts, and
writes a text in which their placeholders stand in the same order. Both go from the
parts of a statement to the whole, so that what is sent is read off the program that
renders it.
-/

namespace RowMapper.Sql

open Text Run

variable {α β : Type}

/-- Values were bound one after another, and no waiting one was taken. -/
structure ParamSink.Adds (values : List Value) (s s' : ParamSink) : Prop where
  values : s'.parameters.map Parameter.value = s.parameters.map Parameter.value ++ values
  pending : s'.pending = s.pending

theorem ParamSink.Adds.trans {vs ws : List Value} {s t u : ParamSink} (h : Adds vs s t)
    (h' : Adds ws t u) : Adds (vs ++ ws) s u where
  values := by rw [h'.values, h.values, List.append_assoc]
  pending := h'.pending.trans h.pending

/-- From every state a rendering succeeds, binds values in order and gives a result of a kind. -/
def Binds (x : Render α) (values : List Value) (kind : α → Prop) : Prop :=
  ∀ s, ∃ a s', x s = .ok a s' ∧ kind a ∧ ParamSink.Adds values s s'

namespace Binds

variable {x : Render α} {f : α → Render β} {vs ws : List Value} {kind : α → Prop}
  {kind' : β → Prop}

theorem pure {a : α} (h : kind a) : Binds (pure a) [] kind := by
  intro s
  exact ⟨a, s, rfl, h, (List.append_nil _).symm, rfl⟩

theorem seq (hx : Binds x vs kind) (hf : ∀ a, kind a → Binds (f a) ws kind') :
    Binds (x >>= f) (vs ++ ws) kind' := by
  intro s
  obtain ⟨a, t, hrun, ha, hadds⟩ := hx s
  obtain ⟨b, u, hrun', hb, hadds'⟩ := hf a ha t
  exact ⟨b, u, by rw [bind_of_ok hrun, hrun'], hb, hadds.trans hadds'⟩

theorem second (hx : Binds x [] kind) (hf : ∀ a, kind a → Binds (f a) ws kind') :
    Binds (x >>= f) ws kind' :=
  hx.seq hf

theorem first (hx : Binds x vs kind) (hf : ∀ a, kind a → Binds (f a) [] kind') :
    Binds (x >>= f) vs kind' := by
  have h := hx.seq hf
  rwa [List.append_nil] at h

theorem map {g : α → β} (hx : Binds x vs kind) (hg : ∀ a, kind a → kind' (g a)) :
    Binds (x >>= fun a => Pure.pure (g a)) vs kind' :=
  hx.first fun a ha => .pure (hg a ha)

theorem inClause (hx : Binds x vs kind) (c : Category) : Binds (inClause c [] x) vs kind := by
  intro s
  obtain ⟨a, t, hrun, ha, hadds⟩ := hx (s.openClause c []).2
  exact ⟨a, _, Render.inClause_eq_ok.2 ⟨t, hrun, hadds.pending, rfl⟩, ha, hadds.values, rfl⟩

end Binds

/-! ## Marks and parentheses -/

def parenthesized (text : String) : String := "(" ++ text ++ ")"

theorem Becomes.parenthesized {d : Dialect} {n m : Nat} {t u : String} (h : Becomes d n t m u) :
    Becomes d n (parenthesized t) m (Sql.parenthesized u) :=
  (h.after (Inert.seals (t := "(") (by decide))).close (by decide)

def markRow (d : Dialect) (n count : Nat) : List String := (List.range' n count).map d.mark

theorem markRow_succ (d : Dialect) (n count : Nat) :
    markRow d n (count + 1) = d.mark n :: markRow d (n + 1) count := by
  rw [markRow, List.range'_succ, List.map_cons, markRow]

theorem binds_bind (d : Dialect) (n : Nat) (column : String) (v : Value) :
    Binds (ParamSink.bind column v) [v] fun text => Becomes d n text (n + 1) (d.mark n) := by
  intro s
  obtain ⟨text, t, hbind⟩ : ∃ text t, ParamSink.bind column v s = .ok text t := ⟨_, _, rfl⟩
  have hpending : t.pending = s.pending := by
    cases hbind
    rfl
  obtain ⟨name, rfl, hadded, -, hname⟩ := ParamSink.fresh_of_bind hbind
  exact ⟨_, t, hbind, becomes_placeholder hname d n, by simp [hadded], hpending⟩

/-! ## The statement -/

theorem Binds.params {x : Render String} {values : List Value} {kind : String → Prop}
    {statement : Statement} (h : Binds x values kind)
    (hstatement : Statement.ofRender x = .ok statement) : statement.params = values := by
  obtain ⟨t, s, hrun, -, hadds⟩ := h {}
  rw [Statement.ofRender, hrun] at hstatement
  cases hstatement
  have hnamed : s.named.map Prod.snd = s.parameters.map Parameter.value := by
    simp [ParamSink.named]
  rw [Statement.params, hnamed, hadds.values]
  rfl

/-- The statement of a rendering is sent with its marks counted from the first on, and with the
bound values. -/
theorem Binds.positional {x : Render String} {values : List Value} {d : Dialect} {text : String}
    (h : Binds x values fun t => Becomes d 0 t values.length text) :
    ∃ statement, Statement.ofRender x = .ok statement ∧
      statement.toPositional d = .ok (text, values) := by
  obtain ⟨t, s, hrun, hbecomes, hadds⟩ := h {}
  let statement : Statement := { sql := t, named := s.named, bindings := s.bindings }
  have hstatement : Statement.ofRender x = .ok statement := by rw [Statement.ofRender, hrun]
  refine ⟨statement, hstatement, ?_⟩
  rw [Statement.toPositional, positional_eq_ok, ← toPositional_snd d, hbecomes.toPositional,
    h.params hstatement]
  exact ⟨rfl, rfl, rfl⟩

end RowMapper.Sql
