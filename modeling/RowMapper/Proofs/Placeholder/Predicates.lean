import RowMapper.Proofs.Parameter.Threads
import RowMapper.Proofs.Placeholder.Texts

/-! # Placeholders of predicates

What a successful run writes, for the parts of a query that hold no query: the
placeholders in its text are the names it has bound, in the order of the text, and
the question marks in its text are those of the text it has taken over.
-/

namespace RowMapper.Sql

open Text Render

/-- Between two lists of parameters a text was written from parts of a query: its placeholders are
the names bound on the way, in the order of the text just when `ordered`. -/
def Weaves (ps qs : List Parameter) (text : String) (parts : List Ingredient) (ordered : Prop) :
    Prop :=
  ∃ names, Threads ps qs names (boundOf parts) ordered ∧ Reads text names (marksOf parts)

def WeavesAll (ps qs : List Parameter) (texts : List String) (parts : List Ingredient)
    (ordered : Prop) : Prop :=
  ∃ names, Threads ps qs names (boundOf parts) ordered ∧ ReadsAll texts names (marksOf parts)

section

variable {ps qs rs : List Parameter} {text : String} {texts : List String}
  {parts others : List Ingredient} {o p : Prop}

theorem Weaves.congr (h : Weaves ps qs text parts o) (hop : o ↔ p) : Weaves ps qs text parts p := by
  rcases h with ⟨names, hthreads, hreads⟩
  exact ⟨names, hthreads.congr hop, hreads⟩

theorem WeavesAll.congr (h : WeavesAll ps qs texts parts o) (hop : o ↔ p) :
    WeavesAll ps qs texts parts p := by
  rcases h with ⟨names, hthreads, hreads⟩
  exact ⟨names, hthreads.congr hop, hreads⟩

/-- What is written around a text does not matter as long as the reader finds the same. -/
theorem Weaves.around (h : Weaves ps qs text parts o) {text' : String}
    (hr : ∀ {n k}, Reads text n k → Reads text' n k) : Weaves ps qs text' parts o := by
  rcases h with ⟨names, hthreads, hreads⟩
  exact ⟨names, hthreads, hr hreads⟩

theorem Weaves.append {text' : String} (h : Weaves ps qs text parts o)
    (h' : Weaves qs rs text' others p) (hb : Breaks text'.toList) :
    Weaves ps rs (text ++ text') (parts ++ others) (o ∧ p) := by
  rcases h with ⟨names, hthreads, hreads⟩
  rcases h' with ⟨names', hthreads', hreads'⟩
  refine ⟨names ++ names', ?_, ?_⟩
  · rw [boundOf_append]
    exact hthreads.trans hthreads'
  · rw [marksOf_append]
    exact hreads.append hb hreads'

theorem Seals.weaves (h : Seals text [] (marksOf parts)) (hb : boundOf parts = 0)
    (ps : List Parameter) : Weaves ps ps text parts True :=
  ⟨[], hb ▸ .refl _, h.reads⟩

theorem WeavesAll.nil (ps : List Parameter) : WeavesAll ps ps [] [] True :=
  ⟨[], .refl _, .nil⟩

theorem WeavesAll.cons (h : Weaves ps qs text parts o) (hs : WeavesAll qs rs texts others p) :
    WeavesAll ps rs (text :: texts) (parts ++ others) (o ∧ p) := by
  rcases h with ⟨names, hthreads, hreads⟩
  rcases hs with ⟨names', hthreads', hreads'⟩
  refine ⟨names ++ names', ?_, ?_⟩
  · rw [boundOf_append]
    exact hthreads.trans hthreads'
  · rw [marksOf_append]
    exact .cons hreads hreads'

end

/-! ## Placeholders -/

theorem reads_name (name : List Char) {cs : List Char} (h : cs.all isNameChar = true) :
    ReadsFrom (.name name) cs [String.ofList (name ++ cs)] 0 := by
  induction cs generalizing name with
  | nil => exact ⟨.inr ⟨name, rfl⟩, by simp [Reading.last, Token.name?], by simp [Reading.last]⟩
  | cons c cs ih =>
    rw [List.all_cons, Bool.and_eq_true] at h
    obtain ⟨hends, hnames, hmarks⟩ := ih (name ++ [c]) h.2
    rw [List.append_assoc] at hnames
    refine ⟨?_, by rw [Reading.read_name_char h.1]; exact hnames,
      by rw [Reading.read_name_char h.1]; exact hmarks⟩
    simpa [Reading.after_cons, Reading.step, h.1] using hends

theorem reads_placeholder {name : String} (h : isNameChars name.toList = true) :
    Reads (":" ++ name) [name] 0 := by
  cases hn : name.toList with
  | nil => simp [hn, isNameChars] at h
  | cons c cs =>
    rw [hn, isNameChars, Bool.and_eq_true] at h
    obtain ⟨hends, hnames, hmarks⟩ := reads_name [c] h.2
    have hc : c ≠ ':' := by
      rintro rfl
      exact absurd h.1 (by decide)
    have hlist : (":" ++ name).toList = ':' :: c :: cs := by simp [hn]
    have hname : String.ofList ([c] ++ cs) = name := by
      rw [← String.toList_inj]
      simp [hn]
    rw [Reads, hlist]
    refine ⟨?_, ?_, ?_⟩
    · simpa [Reading.after_cons, Reading.step, Reading.fresh, isQuote, hc, h.1] using hends
    · rw [Reading.read_plain_colon, Reading.read_colon_name h.1, hnames, hname]
    · rw [Reading.read_plain_colon, Reading.read_colon_name h.1, hmarks]

theorem breaks_placeholder (name : String) : Breaks (":" ++ name).toList := by
  intro c hc
  obtain rfl : ':' = c := by simpa using hc
  decide

/-! ## Raw fragments -/

theorem ReadsFrom.cons {r r' : Reading} {c : Char} {cs : List Char} {ts : List Token}
    {n : List String} {k : Nat} (hstep : r.step c = (ts, r')) (h : ReadsFrom r' cs n k) :
    ReadsFrom r (c :: cs) (ts.filterMap Token.name? ++ n) (ts.count (.plain '?') + k) := by
  refine ⟨?_, ?_, ?_⟩
  · rw [Reading.after_cons, hstep]
    exact h.ends
  · rw [Reading.read_cons, hstep, List.filterMap_append, h.names]
  · rw [Reading.read_cons, hstep, List.count_append, h.marks]

theorem ReadsFrom.consQuoted {q c : Char} {cs : List Char} {n : List String}
    (h : ReadsFrom (.ofQuote (if c = q then none else some q)) cs n 0) :
    ReadsFrom (.ofQuote (some q)) (c :: cs) n 0 :=
  h.cons (Reading.step_ofQuote_some q c)

theorem ReadsFrom.consPlain {c : Char} {cs : List Char} {n : List String} (hc : c ≠ ':')
    (hm : c ≠ '?') (h : ReadsFrom (.ofQuote (if isQuote c then some c else none)) cs n 0) :
    ReadsFrom (.ofQuote none) (c :: cs) n 0 := by
  have hcons := h.cons (Reading.step_ofQuote_none hc)
  cases hq : isQuote c <;> simpa [hq, hm, Token.name?] using hcons

theorem parameters_of_nextValue {own : List Value} {s s' : ParamSink}
    {next : Option (Value × List Value)} (h : ParamSink.nextValue own s = .ok next s') :
    s'.parameters = s.parameters := by
  unfold ParamSink.nextValue at h
  split at h <;> cases h <;> rfl

theorem Breaks.cons {c : Char} {cs out : List Char} (h : Breaks (c :: cs)) : Breaks (c :: out) :=
  fun x hx => h x (by simpa using hx)

/-- Each question mark outside quotes becomes a placeholder, all else stays. -/
theorem expandFrom_threads {sql : String} {cs : List Char} :
    ∀ {quote : Option Char} {own : List Value} {s s' : ParamSink} {out : List Char},
      ParamSink.expandFrom sql quote own cs s = .ok out s' → isTameFrom quote cs = true →
      ∃ names, Threads s.parameters s'.parameters names (marksFrom quote cs) True ∧
        ReadsFrom (.ofQuote quote) out names 0 ∧ (Breaks cs → Breaks out) := by
  induction cs with
  | nil =>
    intro quote own s s' out h ht
    cases quote with
    | some q => cases ht
    | none =>
      cases own with
      | cons v own => exact absurd h throw_ne_ok
      | nil =>
        obtain ⟨rfl, rfl⟩ := pure_eq_ok.1 h
        exact ⟨[], .refl _, ⟨.inl rfl, rfl, rfl⟩, id⟩
  | cons c cs ih =>
    intro quote own s s' out h ht
    cases quote with
    | some q =>
      rw [ParamSink.expandFrom] at h
      obtain ⟨rest, t, hrest, h⟩ := bind_eq_ok.1 h
      obtain ⟨rfl, rfl⟩ := pure_eq_ok.1 h
      obtain ⟨names, hthreads, hreads, -⟩ := ih hrest ht
      exact ⟨names, hthreads, hreads.consQuoted, .cons⟩
    | none =>
      rw [isTameFrom, Bool.and_eq_true, Bool.and_eq_true, bne_iff_ne] at ht
      obtain ⟨⟨hc, hmark⟩, ht⟩ := ht
      rw [ParamSink.expandFrom] at h
      by_cases hq : c = '?'
      · rw [if_pos hq] at h
        subst hq
        obtain ⟨next, u, hnext, h⟩ := bind_eq_ok.1 h
        cases next with
        | none => exact absurd h throw_ne_ok
        | some entry =>
          obtain ⟨mark, t, hbind, h⟩ := bind_eq_ok.1 h
          obtain ⟨rest, t', hrest, h⟩ := bind_eq_ok.1 h
          obtain ⟨rfl, rfl⟩ := pure_eq_ok.1 h
          obtain ⟨name, rfl, hname, hone⟩ := Threads.ofBind hbind
          rw [parameters_of_nextValue hnext] at hone
          obtain ⟨names, hthreads, hreads, hbreaks⟩ := ih hrest ht
          -- the fragment has no name character after the mark, so the new name ends there
          have hrestBreaks : Breaks rest := by
            refine hbreaks fun x hx => ?_
            rw [Option.mem_def.1 hx] at hmark
            simpa using hmark
          refine ⟨name :: names, ?_, ?_, fun _ x hx => breaks_placeholder name x (by simpa using hx)⟩
          · simpa [marksFrom, isQuote] using hone.trans hthreads
          · have hjoin := (reads_placeholder hname).append (b := String.ofList rest)
              (by simpa using hrestBreaks) (by simpa [Reads, Reading.ofQuote] using hreads)
            simpa [Reads, Reading.ofQuote] using hjoin
      · rw [if_neg hq] at h
        obtain ⟨rest, t, hrest, h⟩ := bind_eq_ok.1 h
        obtain ⟨rfl, rfl⟩ := pure_eq_ok.1 h
        obtain ⟨names, hthreads, hreads, -⟩ := ih hrest ht
        refine ⟨names, ?_, hreads.consPlain hc hq, .cons⟩
        rw [marksFrom, if_neg hq, Nat.zero_add]
        exact hthreads

theorem expandRaw_weaves {sql : String} {own : List Value} {s s' : ParamSink} {text : String}
    (h : ParamSink.expandRaw sql own s = .ok text s')
    (ht : (Ingredient.expanded sql).isTame = true) :
    Weaves s.parameters s'.parameters text [.expanded sql] True := by
  obtain ⟨out, hout, rfl⟩ := map_eq_ok.1 h
  obtain ⟨names, hthreads, hreads, -⟩ := expandFrom_threads hout ht
  exact ⟨names, hthreads, by simpa [Reads, Ingredient.marks, Reading.ofQuote] using hreads⟩

/-! ## Comparisons -/

theorem seals_alwaysFalse : Seals alwaysFalse [] 0 :=
  ⟨rfl, rfl, rfl⟩

@[simp] theorem boundOf_columnParts (column : String) : boundOf (columnParts column) = 0 := by
  unfold columnParts
  split <;> rfl

@[simp] theorem boundOf_selectedParts (column : String) : boundOf (selectedParts column) = 0 := by
  unfold selectedParts
  split <;> rfl

theorem bind_weaves {column left mark : String} {v : Value} {s s' : ParamSink}
    {parts : List Ingredient} (h : ParamSink.bind column v s = .ok mark s')
    (hl : Seals left [] (marksOf parts)) (hb : boundOf parts = 0) :
    Weaves s.parameters s'.parameters (left ++ mark) (parts ++ [.values 1]) True := by
  obtain ⟨name, rfl, hname, hthreads⟩ := Threads.ofBind h
  refine ⟨[name], by simpa [hb, Ingredient.bound] using hthreads, ?_⟩
  simpa [Ingredient.marks] using hl.append_reads (reads_placeholder hname)

theorem renderBound_weaves {left column : String} {op : Comparison} {v : Value}
    {s s' : ParamSink} {text : String} {parts : List Ingredient}
    (h : renderBound left column op v s = .ok text s') (hl : Seals left [] (marksOf parts))
    (hb : boundOf parts = 0) :
    Weaves s.parameters s'.parameters text (parts ++ [.values 1]) True := by
  obtain ⟨mark, t, hbind, h⟩ := bind_eq_ok.1 h
  obtain ⟨rfl, rfl⟩ := pure_eq_ok.1 h
  have hleft := (hl.close (a := " ") (by decide)).close (inert_symbol op)
  split
  · have hopen := bind_weaves hbind (hleft.close (a := " (") (by decide)) hb
    exact hopen.around fun hr => (hr.close (a := ")") (by decide)).reads
  · exact bind_weaves hbind (hleft.close (a := " ") (by decide)) hb

theorem seals_literals (d : Dialect) (values : List Value) :
    Seals (join ", " (values.map (literal d))) [] 0 := by
  refine seals_join (by decide) fun t ht => ?_
  obtain ⟨v, -, rfl⟩ := List.mem_map.1 ht
  exact seals_literal d v

/-- A comparison with a value, which becomes a pattern when it has a star. -/
theorem renderComparison_value_weaves {scope : Scope} {column : String} {op : Comparison}
    {v : Value} {s s' : ParamSink} {text : String}
    (h : renderComparison scope column op (.value v) s = .ok text s')
    (hleft : Seals (scope.qualify column) [] (marksOf (columnParts column))) :
    Weaves s.parameters s'.parameters text (columnParts column ++ [.values 1]) True := by
  have hplain (v : Value) (h : renderBound (scope.qualify column) column op v s = .ok text s') :
      Weaves s.parameters s'.parameters text (columnParts column ++ [.values 1]) True :=
    renderBound_weaves h hleft (boundOf_columnParts column)
  unfold renderComparison at h
  cases v with
  | text str =>
    dsimp only at h
    split at h
    · obtain ⟨mark, t, hbind, h⟩ := bind_eq_ok.1 h
      obtain ⟨rfl, rfl⟩ := pure_eq_ok.1 h
      have hop := ((hleft.close (a := " ") (by decide)).close (inert_symbol op.asPattern)).close
        (a := " ") (by decide)
      exact bind_weaves hbind hop (boundOf_columnParts column)
    · exact hplain _ h
  | _ => exact hplain _ h

theorem renderComparison_weaves {scope : Scope} {column : String} {op : Comparison}
    {operand : Operand} {s s' : ParamSink} {text : String}
    (h : renderComparison scope column op operand s = .ok text s')
    (ht : AllTame (operandParts column operand)) :
    Weaves s.parameters s'.parameters text (operandParts column operand) True := by
  cases operand with
  | null =>
    obtain ⟨rfl, rfl⟩ := pure_eq_ok.1 h
    have hleft := (seals_qualify scope ht).close (a := " IS ") (by decide)
    refine Seals.weaves ?_ (boundOf_columnParts column) _
    exact (hleft.close (a := if op.isNegated then "NOT " else "") (by split <;> decide)).close
      (a := "NULL") (by decide)
  | list values =>
    cases values with
    | nil =>
      obtain ⟨rfl, rfl⟩ := pure_eq_ok.1 h
      exact seals_alwaysFalse.weaves rfl _
    | cons v vs =>
      obtain ⟨rfl, rfl⟩ := pure_eq_ok.1 h
      have hleft := (seals_qualify scope ht).close
        (a := if op.isNegated then " NOT IN" else " IN") (by split <;> decide)
      have hlist := seals_literals scope.dialect (v :: vs)
      refine Seals.weaves ?_ (boundOf_columnParts column) _
      exact ((hleft.close (a := " (") (by decide)).append_nil hlist).close (a := ")") (by decide)
  | column other =>
    obtain ⟨rfl, rfl⟩ := pure_eq_ok.1 h
    rw [operandParts, allTame_append] at ht
    have hleft := (seals_qualify scope ht.1).close (a := " ") (by decide)
    refine Seals.weaves ?_ (by simp [operandParts]) _
    rw [operandParts, marksOf_append]
    exact ((hleft.close (inert_symbol op)).close (a := " ") (by decide)).append
      (seals_qualify scope ht.2)
  | raw sql =>
    obtain ⟨rfl, rfl⟩ := pure_eq_ok.1 h
    rw [operandParts, allTame_append, allTame_cons] at ht
    have hleft := (seals_qualify scope ht.1).close (a := " ") (by decide)
    refine Seals.weaves ?_ (by simp [operandParts, Ingredient.bound]) _
    rw [operandParts, marksOf_append]
    exact ((hleft.close (inert_symbol op)).close (a := " ") (by decide)).append
      (seals_of_isTame ht.2.1)
  | value v =>
    rw [operandParts, allTame_append] at ht
    exact renderComparison_value_weaves h (seals_qualify scope ht.1)
  | exact v =>
    rw [operandParts, allTame_append] at ht
    exact renderBound_weaves h (seals_qualify scope ht.1) (boundOf_columnParts column)

/-! ## Lists and ranges -/

theorem bindAll_threads {column : String} {values : List Value} {s s' : ParamSink}
    {texts : List String} (h : bindAll column values s = .ok texts s') :
    ∃ names, Threads s.parameters s'.parameters names values.length True ∧
      ReadsAll texts names 0 := by
  induction values generalizing s texts with
  | nil =>
    obtain ⟨rfl, rfl⟩ := pure_eq_ok.1 h
    exact ⟨[], .refl _, .nil⟩
  | cons v vs ih =>
    obtain ⟨mark, t, hbind, h⟩ := bind_eq_ok.1 h
    obtain ⟨rest, t', hrest, h⟩ := bind_eq_ok.1 h
    obtain ⟨rfl, rfl⟩ := pure_eq_ok.1 h
    obtain ⟨name, rfl, hname, hone⟩ := Threads.ofBind hbind
    obtain ⟨names, hthreads, hreads⟩ := ih hrest
    refine ⟨[name] ++ names, ?_, .cons (k := 0) (reads_placeholder hname) hreads⟩
    rw [List.length_cons, Nat.add_comm]
    exact (hone.trans hthreads).congr (and_self_iff ..)

theorem renderMembership_weaves {scope : Scope} {column : String} {values : List Value}
    {negated : Bool} {s s' : ParamSink} {text : String}
    (h : renderMembership scope column values negated s = .ok text s')
    {parts : List Ingredient} (hparts : parts =
      if values.isEmpty then [] else columnParts column ++ [.values values.length])
    (ht : AllTame parts) : Weaves s.parameters s'.parameters text parts True := by
  subst hparts
  unfold renderMembership at h
  split at h
  · next he =>
    obtain ⟨rfl, rfl⟩ := pure_eq_ok.1 h
    rw [if_pos he]
    exact seals_alwaysFalse.weaves rfl _
  · next he =>
    obtain ⟨marks, t, hbind, h⟩ := bind_eq_ok.1 h
    obtain ⟨rfl, rfl⟩ := pure_eq_ok.1 h
    obtain ⟨names, hthreads, hreads⟩ := bindAll_threads hbind
    rw [if_neg he, allTame_append] at ht
    rw [if_neg he]
    have hleft := (seals_qualify scope ht.1).close
      (a := if negated then " NOT IN" else " IN") (by split <;> decide)
    have hlist : Reads (join ", " marks) names 0 := hreads.join (by decide)
    refine ⟨names, by simpa [Ingredient.bound] using hthreads, ?_⟩
    simpa [Ingredient.marks] using (((hleft.close (a := " (") (by decide)).append_reads hlist).close
      (a := ")") (by decide)).reads

theorem renderRange_weaves {scope : Scope} {column : String} {low high : Value} {negated : Bool}
    {s s' : ParamSink} {text : String}
    (h : renderRange scope column low high negated s = .ok text s')
    (ht : AllTame (columnParts column ++ [.values 2])) :
    Weaves s.parameters s'.parameters text (columnParts column ++ [.values 2]) True := by
  obtain ⟨lowMark, t, hlow, h⟩ := bind_eq_ok.1 h
  obtain ⟨highMark, t', hhigh, h⟩ := bind_eq_ok.1 h
  obtain ⟨rfl, rfl⟩ := pure_eq_ok.1 h
  obtain ⟨first, rfl, hfirst, hone⟩ := Threads.ofBind hlow
  obtain ⟨second, rfl, hsecond, htwo⟩ := Threads.ofBind hhigh
  have hleft := (seals_qualify scope (allTame_append.1 ht).1).close
    (a := if negated then " NOT BETWEEN " else " BETWEEN ") (by split <;> decide)
  refine ⟨[first, second], ?_, ?_⟩
  · simpa [Ingredient.bound] using hone.trans htwo
  · simpa [Ingredient.marks] using
      ((hleft.append_reads (reads_placeholder hfirst)).close (a := " AND ") (by decide)).append_reads
        (reads_placeholder hsecond)

/-! ## Orderings -/

theorem renderOrders_weaves {d : Dialect} {orders : List OrderItem} {s s' : ParamSink}
    {texts : List String} (h : renderOrders d orders s = .ok texts s')
    (ht : AllTame (ordersParts orders)) :
    WeavesAll s.parameters s'.parameters texts (ordersParts orders) True := by
  induction orders generalizing s texts with
  | nil =>
    obtain ⟨rfl, rfl⟩ := pure_eq_ok.1 h
    exact .nil _
  | cons order rest ih =>
    cases order with
    | column name direction =>
      obtain ⟨others, t, hothers, h⟩ := bind_eq_ok.1 h
      obtain ⟨rfl, rfl⟩ := pure_eq_ok.1 h
      rw [ordersParts, allTame_append] at ht
      have htext := ((seals_columnText d ht.1).close (a := " ") (by decide)).close
        (inert_directionKeyword direction)
      have hfirst := htext.weaves (boundOf_selectedParts name) s.parameters
      exact (WeavesAll.cons hfirst (ih hothers ht.2)).congr (and_self_iff ..)
    | raw sql values =>
      obtain ⟨text, t, hraw, h⟩ := bind_eq_ok.1 h
      obtain ⟨others, t', hothers, h⟩ := bind_eq_ok.1 h
      obtain ⟨rfl, rfl⟩ := pure_eq_ok.1 h
      rw [ordersParts, allTame_cons] at ht
      exact (WeavesAll.cons (expandRaw_weaves hraw ht.1) (ih hothers ht.2)).congr (and_self_iff ..)

end RowMapper.Sql
