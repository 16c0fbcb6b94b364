import RowMapper.Proofs.Parameter.Fragments
import RowMapper.Proofs.Statement.Updates

/-! # Names given out in a row

A name is the base name of a column and a number. Different columns can lead to the same name,
so the search for the number counts on from the one given out last for the base name until it
meets a name that is free. It is a search without a bound, and it ends after at most one try
more than there are names. So any values can be bound in a row, and their placeholders are
different bare names that are read back whole wherever they are written.
-/

namespace RowMapper.Sql

open Render Run

namespace ParamSink

variable {s : ParamSink} {base : String} {n m tries fuel : Nat}

/-! ## The search for a number -/

def lastNumber (s : ParamSink) (base : String) : Nat := (s.counters.get? base).getD 0

/-- Counting on from `n` until a name is free ends at `m`, after a number of tries. -/
inductive Search (s : ParamSink) (base : String) : Nat → Nat → Nat → Prop
  | free {n : Nat} : base ++ toString (n + 1) ∉ s.names → Search s base n 1 (n + 1)
  | taken {n tries m : Nat} : base ++ toString (n + 1) ∈ s.names → Search s base (n + 1) tries m →
    Search s base n (tries + 1) m

theorem Search.unique {tries' m' : Nat} (h : Search s base n tries m)
    (h' : Search s base n tries' m') : tries = tries' ∧ m = m' := by
  induction h generalizing tries' with
  | free hfree =>
    cases h' with
    | free => exact ⟨rfl, rfl⟩
    | taken htaken => exact absurd htaken hfree
  | taken htaken _ ih =>
    cases h' with
    | free hfree => exact absurd htaken hfree
    | taken _ hrest =>
      obtain ⟨rfl, rfl⟩ := ih hrest
      exact ⟨rfl, rfl⟩

/-- Where the bound leaves a free name, it did not cut the search short. -/
theorem search_freeNumber (h : base ++ toString (s.freeNumber base n fuel) ∉ s.names) :
    ∃ tries ≤ fuel + 1, Search s base n tries (s.freeNumber base n fuel) := by
  induction fuel generalizing n with
  | zero => exact ⟨1, Nat.le_refl 1, .free h⟩
  | succ fuel ih =>
    rw [freeNumber] at h ⊢
    split at h
    · next hused =>
      rw [if_pos hused]
      obtain ⟨tries, hle, hsearch⟩ := ih h
      exact ⟨tries + 1, Nat.succ_le_succ hle, .taken (isUsed_iff.1 hused) hsearch⟩
    · next hfree =>
      rw [if_neg hfree]
      exact ⟨1, Nat.le_add_left 1 _, .free h⟩

/-- The search ends, and at the number that is given out. -/
theorem search_nextNumber (s : ParamSink) (base : String) :
    ∃ tries ≤ s.names.length + 1, Search s base (s.lastNumber base) tries (s.nextNumber base) := by
  have hlength : s.names.length = s.parameters.length := List.length_map _
  rw [hlength]
  refine search_freeNumber fun h => ?_
  have hfree := isUsed_freeNumber s base (s.lastNumber base)
  exact Bool.false_ne_true (hfree ▸ isUsed_iff.2 h)

/-! ## Values bound in a row -/

def bindEach : List (String × Value) → Render (List String)
  | [] => pure []
  | (column, v) :: calls => do
    let placeholder ← bind column v
    let rest ← bindEach calls
    return placeholder :: rest

theorem gains_bindEach (calls : List (String × Value)) (s : ParamSink) :
    ∃ new t, bindEach calls s = .ok (new.map Parameter.placeholder) t ∧ s.Gains new t ∧
      new.map Parameter.value = calls.map Prod.snd ∧
      ∀ p ∈ new, isNameChars p.name.toList = true := by
  induction calls generalizing s with
  | nil => exact ⟨[], s, rfl, .refl s, rfl, fun p hp => nomatch hp⟩
  | cons call calls ih =>
    obtain ⟨column, v⟩ := call
    obtain ⟨text, t, hbind⟩ : ∃ text t, bind column v s = .ok text t := ⟨_, _, rfl⟩
    obtain ⟨name, rfl, hadded, hfresh, hname⟩ := fresh_of_bind hbind
    obtain ⟨new, u, hrun, hgains, hvalues, hnames⟩ := ih t
    refine ⟨⟨name, v, s.category⟩ :: new, u, ?_, hgains.cons hadded hfresh,
      congrArg (v :: ·) hvalues, List.forall_mem_cons.2 ⟨hname, hnames⟩⟩
    rw [bindEach, bind_of_ok hbind, bind_of_ok hrun]
    rfl

end ParamSink

/-! ## Names read back -/

/-- A placeholder gives way to one mark, whatever stands before it outside quotes and after it. -/
theorem toPositional_around {name : String} (h : isNameChars name.toList = true) (d : Dialect)
    {before after : String} (hbefore : IsOpen before.toList) (hafter : Breaks after.toList) :
    (toPositional d (before ++ (":" ++ name) ++ after)).1 =
      (toPositional d before).1 ++ d.mark (toPositional d before).2 ++
        String.ofList (positionalFrom d .plain ((toPositional d before).2 + 1) after.toList).1 := by
  have hmarked (t : String) (n : Nat) : positionalFrom d .plain n t.toList =
      marked d n (tokens t.toList) := (positionalFrom_eq d t.toList).1 n
  have hfront : Becomes d 0 before (toPositional d before).2 (toPositional d before).1 :=
    ⟨hbefore, by rw [toPositional, hmarked, String.toList_ofList]⟩
  have hplaceholder := hfront.append (breaks_placeholder name) (becomes_placeholder h d _)
  rw [toPositional, hmarked, String.toList_append,
    tokens_append_of_breaks hplaceholder.ends hafter, marked_append, hplaceholder.marked, hmarked,
    ← String.toList_inj]
  simp

/-- The name of a placeholder is read off a text as a whole. -/
theorem placeholders_around {name : String} (h : isNameChars name.toList = true)
    {before after : String} (hbefore : IsOpen before.toList) (hafter : Breaks after.toList) :
    placeholders (before ++ (":" ++ name) ++ after) =
      placeholders before ++ name :: placeholders after := by
  have hplaceholder := reads_placeholder h
  have hopen : IsOpen (before ++ (":" ++ name)).toList := by
    rw [String.toList_append]
    exact IsOpen.append hbefore (breaks_placeholder name) hplaceholder.ends
  rw [placeholders, String.toList_append, tokens_append_of_breaks hopen hafter,
    String.toList_append, tokens_append_of_breaks hbefore (breaks_placeholder name),
    List.filterMap_append, List.filterMap_append, List.append_assoc]
  exact congrArg (fun read => placeholders before ++ (read ++ placeholders after))
    hplaceholder.names

namespace ParamSink

/-- Values bound in a row, whatever their columns are, get different names that are read back. -/
theorem bindEach_fresh (s : ParamSink) (calls : List (String × Value)) :
    -- every search ends, in one way, and a value is bound under the name at which it ends
    (∀ (u : ParamSink) (column : String) (v : Value), ∃ tries number,
      (∀ k m, Search u (baseName column) (u.lastNumber (baseName column)) k m ↔
        k = tries ∧ m = number) ∧
      tries ≤ u.names.length + 1 ∧
      value? (bind column v u) = some (":" ++ (baseName column ++ toString number))) ∧
    ∃ names t, bindEach calls s = .ok (names.map (":" ++ ·)) t ∧ t.names = s.names ++ names ∧
      names.length = calls.length ∧ names.Nodup ∧
      ∀ name ∈ names, name ∉ s.names ∧ isNameChars name.toList = true ∧
        ∀ before after : String, IsOpen before.toList → Breaks after.toList →
          placeholders (before ++ (":" ++ name) ++ after) =
            placeholders before ++ name :: placeholders after ∧
          ∀ d : Dialect, (toPositional d (before ++ (":" ++ name) ++ after)).1 =
            (toPositional d before).1 ++ d.mark (toPositional d before).2 ++
              String.ofList
                (positionalFrom d .plain ((toPositional d before).2 + 1) after.toList).1 := by
  constructor
  · intro u column v
    obtain ⟨tries, hle, hsearch⟩ := search_nextNumber u (baseName column)
    refine ⟨tries, _, fun k m => ⟨fun h => h.unique hsearch, ?_⟩, hle, rfl⟩
    rintro ⟨rfl, rfl⟩
    exact hsearch
  · obtain ⟨new, t, hrun, hgains, hvalues, hbare⟩ := gains_bindEach calls s
    refine ⟨new.map Parameter.name, t, ?_, ?_, ?_, hgains.nodup, fun name hname => ?_⟩
    · rw [hrun, List.map_map]
      rfl
    · rw [names, hgains.parameters, List.map_append, names]
    · simpa using congrArg List.length hvalues
    · obtain ⟨p, hp, rfl⟩ := List.mem_map.1 hname
      exact ⟨hgains.unused p hp, hbare p hp, fun before after hbefore hafter =>
        ⟨placeholders_around (hbare p hp) hbefore hafter,
          fun d => toPositional_around (hbare p hp) d hbefore hafter⟩⟩

/-- Eleven values of one column take the name that another column comes to next. -/
example : value? (bindEach (List.replicate 11 ("a", .null) ++ [("t.a1", .null), ("9?", .null)]) {}) =
    some [":a1", ":a2", ":a3", ":a4", ":a5", ":a6", ":a7", ":a8", ":a9", ":a10", ":a11", ":a12",
      ":p91"] := by
  decide +kernel

end ParamSink

end RowMapper.Sql
