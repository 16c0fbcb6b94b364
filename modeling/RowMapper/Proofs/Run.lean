import RowMapper.Entries

/-! # Runs of programs with a state

What a result says about the steps that led to it, and how a relation between the
states before and after a run is shown of a whole program: it has to hold across
each single step and across steps in a row. A run that fails ends in a state too,
and the relation has to hold of that one as well.
-/

namespace RowMapper.Run

variable {ε σ α β : Type}

/-- The state in which a run ended, with or without an error. -/
def final : EStateM.Result ε σ α → σ
  | .ok _ s => s
  | .error _ s => s

def value? : EStateM.Result ε σ α → Option α
  | .ok a _ => some a
  | .error _ _ => none

def failure? : EStateM.Result ε σ α → Option ε
  | .ok _ _ => none
  | .error e _ => some e

theorem eq_ok_of_value? {x : EStateM.Result ε σ α} {a : α} (h : value? x = some a) :
    x = .ok a (final x) := by
  cases x <;> simp_all [value?, final]

theorem eq_error_of_failure? {x : EStateM.Result ε σ α} {e : ε} (h : failure? x = some e) :
    x = .error e (final x) := by
  cases x <;> simp_all [failure?, final]

/-! ## What a result says about the steps -/

theorem bind_eq_ok {x : EStateM ε σ α} {f : α → EStateM ε σ β} {s s'' : σ} {b : β} :
    (x >>= f) s = .ok b s'' ↔ ∃ a s', x s = .ok a s' ∧ f a s' = .ok b s'' := by
  simp only [bind, EStateM.bind]
  cases x s <;> simp [and_assoc]

theorem bind_eq_error {x : EStateM ε σ α} {f : α → EStateM ε σ β} {s s'' : σ} {e : ε} :
    (x >>= f) s = .error e s'' ↔
      x s = .error e s'' ∨ ∃ a s', x s = .ok a s' ∧ f a s' = .error e s'' := by
  simp only [bind, EStateM.bind]
  cases x s <;> simp [and_assoc]

theorem bind_of_ok {x : EStateM ε σ α} {s s' : σ} {a : α} (h : x s = .ok a s')
    (f : α → EStateM ε σ β) : (x >>= f) s = f a s' := by
  simp only [bind, EStateM.bind, h]

theorem bind_of_error {x : EStateM ε σ α} {s s' : σ} {e : ε} (h : x s = .error e s')
    (f : α → EStateM ε σ β) : (x >>= f) s = .error e s' := by
  simp only [bind, EStateM.bind, h]

theorem final_bind_pure (x : EStateM ε σ α) (f : α → β) (s : σ) :
    final ((x >>= fun a => pure (f a)) s) = final (x s) := by
  cases h : x s with
  | ok a t =>
    rw [bind_of_ok h]
    rfl
  | error e t =>
    rw [bind_of_error h]
    rfl

@[simp] theorem pure_eq_ok {a b : α} {s s' : σ} :
    (pure a : EStateM ε σ α) s = .ok b s' ↔ a = b ∧ s = s' := by
  simp [pure, EStateM.pure]

@[simp] theorem pure_ne_error {a : α} {e : ε} {s s' : σ} :
    (pure a : EStateM ε σ α) s ≠ .error e s' := by
  simp [pure, EStateM.pure]

@[simp] theorem throw_ne_ok {e : ε} {b : α} {s s' : σ} :
    (throw e : EStateM ε σ α) s ≠ .ok b s' := by
  intro h
  cases h

/-! ## Relations that every run keeps -/

/-- Every run relates the state before it to the state after it, also when it fails. -/
def Keeps (R : σ → σ → Prop) (x : EStateM ε σ α) : Prop := ∀ s, R s (final (x s))

/-- A relation that holds across doing nothing and across steps in a row. -/
structure Chained (R : σ → σ → Prop) : Prop where
  refl : ∀ s, R s s
  trans : ∀ {s t u}, R s t → R t u → R s u

variable {R : σ → σ → Prop}

theorem Keeps.of_ok {x : EStateM ε σ α} (hx : Keeps R x) {s s' : σ} {a : α}
    (h : x s = .ok a s') : R s s' := by
  have hs := hx s
  rwa [h] at hs

theorem Keeps.of_error {x : EStateM ε σ α} (hx : Keeps R x) {s s' : σ} {e : ε}
    (h : x s = .error e s') : R s s' := by
  have hs := hx s
  rwa [h] at hs

namespace Chained

theorem result (hR : Chained R) (a : α) : Keeps R (pure a : EStateM ε σ α) := hR.refl

theorem fail (hR : Chained R) (e : ε) : Keeps R (throw e : EStateM ε σ α) := hR.refl

theorem read (hR : Chained R) : Keeps R (get : EStateM ε σ σ) := hR.refl

/-- Across two steps from one state on, the second of which is taken only if the first succeeds. -/
theorem bind (hR : Chained R) {x : EStateM ε σ α} {f : α → EStateM ε σ β} {s : σ}
    (hx : R s (final (x s))) (hf : ∀ a t, x s = .ok a t → R t (final (f a t))) :
    R s (final ((x >>= f) s)) := by
  cases h : x s with
  | ok a t =>
    rw [h] at hx
    rw [bind_of_ok h]
    exact hR.trans hx (hf a t h)
  | error e t =>
    rw [h] at hx
    rw [bind_of_error h]
    exact hx

theorem seq (hR : Chained R) {x : EStateM ε σ α} {f : α → EStateM ε σ β} (hx : Keeps R x)
    (hf : ∀ a, Keeps R (f a)) : Keeps R (x >>= f) :=
  fun s => hR.bind (hx s) fun a t _ => hf a t

end Chained

/-! ## Operations one after another -/

section Operations

variable {Op : Type} {after : Op → σ → σ} {ops : List Op} {op : Op} {s t : σ}

/-- The states of a run of operations, from the first to the last. -/
def states (after : Op → σ → σ) : List Op → σ → List σ
  | [], s => [s]
  | op :: ops, s => s :: states after ops (after op s)

/-- The operations of a run, each with the state before it. -/
def visited (after : Op → σ → σ) : List Op → σ → List (σ × Op)
  | [], _ => []
  | op :: ops, s => (s, op) :: visited after ops (after op s)

theorem mem_states_self (after : Op → σ → σ) (ops : List Op) (s : σ) : s ∈ states after ops s := by
  cases ops <;> exact List.mem_cons_self

theorem mem_of_visited (h : (t, op) ∈ visited after ops s) : op ∈ ops := by
  induction ops generalizing s with
  | nil => cases h
  | cons first rest ih =>
    rcases List.mem_cons.1 h with h | h
    · cases h
      exact List.mem_cons_self
    · exact List.mem_cons_of_mem _ (ih h)

theorem mem_states_of_visited (h : (t, op) ∈ visited after ops s) : t ∈ states after ops s := by
  induction ops generalizing s with
  | nil => cases h
  | cons first rest ih =>
    rcases List.mem_cons.1 h with h | h
    · cases h
      exact List.mem_cons_self
    · exact List.mem_cons_of_mem _ (ih h)

theorem after_mem_states (h : (t, op) ∈ visited after ops s) :
    after op t ∈ states after ops s := by
  induction ops generalizing s with
  | nil => cases h
  | cons first rest ih =>
    rcases List.mem_cons.1 h with h | h
    · cases h
      exact List.mem_cons_of_mem _ (mem_states_self after rest _)
    · exact List.mem_cons_of_mem _ (ih h)

/-- What every operation of a run keeps holds in all its states. -/
theorem forall_mem_states {P : σ → Prop} (hs : P s)
    (hstep : ∀ t op, (t, op) ∈ visited after ops s → P t → P (after op t)) :
    ∀ t ∈ states after ops s, P t := by
  induction ops generalizing s with
  | nil =>
    intro t ht
    rwa [List.mem_singleton.1 ht]
  | cons first rest ih =>
    have hfirst := hstep s first List.mem_cons_self hs
    have hrest := ih hfirst fun t op h => hstep t op (List.mem_cons_of_mem _ h)
    exact List.forall_mem_cons.2 ⟨hs, hrest⟩

end Operations

end RowMapper.Run
