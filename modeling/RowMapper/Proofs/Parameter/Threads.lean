import RowMapper.Proofs.Parameter.Names

/-! # Parameters along a text

How the names that are read off a text compare with the parameters that were
bound while it was rendered. The two are always the same up to order. Whether they
are in the same order is decided part by part, and one more condition comes in
where a part that was rendered first is written after others.
-/

namespace RowMapper.Sql

/-- When two lists with nothing in common stand in a row, what comes from the second one can stand
in front only if one of the two fronts is empty. -/
theorem nil_or_nil_of_append_eq {xs ys front rest : List String} (h : front ++ rest = xs ++ ys)
    (hdisj : xs.Disjoint ys) (hfront : ∀ x ∈ front, x ∈ ys) : xs = [] ∨ front = [] := by
  cases xs with
  | nil => exact .inl rfl
  | cons x xs =>
    cases front with
    | nil => exact .inr rfl
    | cons y front =>
      obtain rfl : y = x := (List.cons.inj h).1
      exact absurd (hfront y List.mem_cons_self) (hdisj List.mem_cons_self)

/-- Between two lists of parameters, `bound` parameters were added, whose names are those read off
the text; as long as all names differ, they are in the order of the text just when `ordered`. -/
structure Threads (ps qs : List Parameter) (read : List String) (bound : Nat) (ordered : Prop) :
    Prop where
  added : ∃ new, qs = ps ++ new ∧ new.length = bound ∧ read.Perm (new.map Parameter.name) ∧
    ((qs.map Parameter.name).Nodup → (read = new.map Parameter.name ↔ ordered))
  fresh : (ps.map Parameter.name).Nodup → (qs.map Parameter.name).Nodup

namespace Threads

variable {ps qs rs : List Parameter} {n m as os : List String} {b c : Nat} {o p : Prop}

theorem length_eq (h : Threads ps qs n b o) : n.length = b := by
  obtain ⟨new, -, hlen, hperm, -⟩ := h.added
  rw [hperm.length_eq, List.length_map, hlen]

theorem refl (ps : List Parameter) : Threads ps ps [] 0 True :=
  ⟨⟨[], by simp, rfl, .refl _, by simp⟩, id⟩

theorem congr (h : Threads ps qs n b o) (ho : o ↔ p) : Threads ps qs n b p := by
  obtain ⟨new, heq, hlen, hperm, hiff⟩ := h.added
  exact ⟨⟨new, heq, hlen, hperm, fun hnd => (hiff hnd).trans ho⟩, h.fresh⟩

theorem trans (h : Threads ps qs n b o) (h' : Threads qs rs m c p) :
    Threads ps rs (n ++ m) (b + c) (o ∧ p) := by
  obtain ⟨new, heq, hlen, hperm, hiff⟩ := h.added
  obtain ⟨new', heq', hlen', hperm', hiff'⟩ := h'.added
  refine ⟨⟨new ++ new', by rw [heq', heq, List.append_assoc], by simp [hlen, hlen'], ?_, ?_⟩,
    fun hnd => h'.fresh (h.fresh hnd)⟩
  · rw [List.map_append]
    exact hperm.append hperm'
  · intro hnd
    have hnd' : (qs.map Parameter.name).Nodup := by
      rw [heq', List.map_append] at hnd
      exact hnd.of_append_left
    rw [List.map_append, ← hiff hnd', ← hiff' hnd]
    constructor
    · intro h
      exact List.append_inj h hperm.length_eq
    · rintro ⟨rfl, rfl⟩
      rfl

/-- Parameters of two parts, when the text of the first stands inside that of the second: with
names on both sides of the split this is never the order in which they were bound. -/
theorem after (h : Threads ps qs n b o) (h' : Threads qs rs (as ++ os) c p) :
    Threads ps rs (as ++ (n ++ os)) (b + c) ((b = 0 ∨ as = []) ∧ o ∧ p) := by
  obtain ⟨new, heq, hlen, hperm, hiff⟩ := h.added
  obtain ⟨new', heq', hlen', hperm', hiff'⟩ := h'.added
  refine ⟨⟨new ++ new', by rw [heq', heq, List.append_assoc], by simp [hlen, hlen'], ?_, ?_⟩,
    fun hnd => h'.fresh (h.fresh hnd)⟩
  · rw [List.map_append, ← List.append_assoc]
    exact ((List.perm_append_comm.append_right os).trans (by rw [List.append_assoc])).trans
      (hperm.append hperm')
  · intro hnd
    have hnames : rs.map Parameter.name =
        ps.map Parameter.name ++ (new.map Parameter.name ++ new'.map Parameter.name) := by
      simp [heq', heq]
    have hnd' : (qs.map Parameter.name).Nodup := by
      rw [heq', List.map_append] at hnd
      exact hnd.of_append_left
    have hdisj : (new.map Parameter.name).Disjoint (new'.map Parameter.name) := by
      rw [hnames] at hnd
      exact List.disjoint_of_nodup_append hnd.of_append_right
    rw [List.map_append, ← hiff hnd', ← hiff' hnd]
    constructor
    · intro heq
      have hfront : ∀ name ∈ as, name ∈ new'.map Parameter.name :=
        fun name hname => hperm'.mem_iff.1 (List.mem_append_left os hname)
      have hsplit : b = 0 ∨ as = [] := by
        refine (nil_or_nil_of_append_eq heq hdisj hfront).imp_left fun hnil => ?_
        rw [← hlen, List.map_eq_nil_iff.1 hnil]
        rfl
      refine ⟨hsplit, ?_⟩
      rcases hsplit with hb | rfl
      · have hnew : new = [] := List.length_eq_zero_iff.1 (hlen.trans hb)
        subst hnew
        obtain rfl : n = [] := hperm.eq_nil
        exact ⟨rfl, by simpa using heq⟩
      · exact List.append_inj heq hperm.length_eq
    · rintro ⟨hb | rfl, rfl, heq⟩
      · have hnew : new = [] := List.length_eq_zero_iff.1 (hlen.trans hb)
        simpa [hnew] using heq
      · rw [← heq]
        rfl

/-- Binding one value: the placeholder is read back as the new name. -/
theorem ofBind {column : String} {v : Value} {s s' : ParamSink} {text : String}
    (h : ParamSink.bind column v s = .ok text s') : ∃ name, text = ":" ++ name ∧
      isNameChars name.toList = true ∧ Threads s.parameters s'.parameters [name] 1 True := by
  obtain ⟨name, rfl, hps, hfresh, hname⟩ := ParamSink.fresh_of_bind h
  refine ⟨name, rfl, hname, ⟨_, hps, rfl, .refl _, by simp⟩, fun hnd => ?_⟩
  rw [hps, List.map_append]
  refine hnd.append (by simp) ?_
  simpa [ParamSink.names] using hfresh

theorem inClause {α : Type} {cat : Category} {given : List Value} {body : Render α}
    {s s' : ParamSink} {a : α} (h : inClause cat given body s = .ok a s') :
    ∃ t u, body t = .ok a u ∧ t.parameters = s.parameters ∧ u.parameters = s'.parameters := by
  obtain ⟨u, hu, -, rfl⟩ := Render.inClause_eq_ok.1 h
  exact ⟨_, u, hu, rfl, rfl⟩

end Threads

end RowMapper.Sql
