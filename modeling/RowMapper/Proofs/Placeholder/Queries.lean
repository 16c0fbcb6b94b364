import RowMapper.Proofs.Placeholder.Predicates

/-! # Placeholders of queries

The text of a query is put together from the texts of its clauses after all of them
have been rendered. Its placeholders are the names that were bound, and they are in
the order of binding just when no siblings are written in another order than they
were rendered in.
-/

namespace RowMapper.Sql

open Text Render

/-! ## Siblings -/

/-- Sibling conditions were written from conditions: the names of the AND clauses together, and
after them those of the OR clauses. -/
def WeavesClauses (ps qs : List Parameter) (clauses : Clauses) (conditions : List (Condition Query)) :
    Prop :=
  ∃ ands ors k l, Threads ps qs (ands ++ ors) (boundOf (conditionsParts conditions))
      (conditionsInOrder conditions = true) ∧
    ReadsAll (clauses.texts .and) ands k ∧ ReadsAll (clauses.texts .or) ors l ∧
    k + l = marksOf (conditionsParts conditions) ∧ ands.length = andBound conditions

section

variable {ps qs rs : List Parameter} {t : String} {clauses : Clauses} {c : Condition Query}
  {cs : List (Condition Query)}

theorem WeavesClauses.nil (ps : List Parameter) : WeavesClauses ps ps [] [] :=
  ⟨[], [], 0, 0, (Threads.refl ps).congr (iff_of_true trivial rfl), .nil, .nil, rfl, rfl⟩

theorem WeavesClauses.cons
    (h : Weaves ps qs t (conditionParts c) (conditionInOrder c = true))
    (hs : WeavesClauses qs rs clauses cs) :
    WeavesClauses ps rs ((c.connective, t) :: clauses) (c :: cs) := by
  rcases h with ⟨names, hthreads, hreads⟩
  rcases hs with ⟨ands, ors, k, l, hthreads', hands, hors, hmarks, hlen⟩
  have hparens := hreads.parens.reads
  have hbound : boundOf (conditionsParts (c :: cs)) =
      boundOf (conditionParts c) + boundOf (conditionsParts cs) := by
    rw [conditionsParts, boundOf_append]
  cases hc : c.connective with
  | and =>
    refine ⟨names ++ ands, ors, marksOf (conditionParts c) + k, l, ?_, ?_, ?_, ?_, ?_⟩
    · rw [hbound, List.append_assoc]
      exact (hthreads.trans hthreads').congr (by simp [conditionsInOrder, hc])
    · simpa [Clauses.texts] using ReadsAll.cons hparens hands
    · simpa [Clauses.texts] using hors
    · rw [conditionsParts, marksOf_append]
      omega
    · rw [List.length_append, hthreads.length_eq, hlen, andBound, if_pos hc]
  | or =>
    have hands' : ands = [] ↔ andBound cs = 0 := by
      rw [← hlen, List.length_eq_zero_iff]
    refine ⟨ands, names ++ ors, k, marksOf (conditionParts c) + l, ?_, ?_, ?_, ?_, ?_⟩
    · -- the AND clauses after this one are written before it
      rw [hbound]
      refine (hthreads.after hthreads').congr ?_
      simp [hands', conditionsInOrder, hc, and_comm, and_left_comm]
    · simpa [Clauses.texts] using hands
    · simpa [Clauses.texts] using ReadsAll.cons hparens hors
    · rw [conditionsParts, marksOf_append]
      omega
    · simp [andBound, hc, hlen]

theorem WeavesClauses.skip (h : Weaves ps qs "" (conditionParts c) (conditionInOrder c = true))
    (hs : WeavesClauses qs rs clauses cs) : WeavesClauses ps rs clauses (c :: cs) := by
  rcases h with ⟨names, hthreads, hreads⟩
  rcases hs with ⟨ands, ors, k, l, hthreads', hands, hors, hmarks, hlen⟩
  obtain rfl : names = [] := hreads.placeholders_eq.symm
  have hzero : boundOf (conditionParts c) = 0 := hthreads.length_eq.symm
  have hnone : marksOf (conditionParts c) = 0 := hreads.questionMarks_eq.symm
  refine ⟨ands, ors, k, l, ?_, hands, hors, ?_, ?_⟩
  · rw [conditionsParts, boundOf_append]
    exact (hthreads.trans hthreads').congr (by simp [conditionsInOrder, hzero])
  · rw [conditionsParts, marksOf_append, hnone, hmarks, Nat.zero_add]
  · simp [andBound, hzero, hlen]

theorem WeavesClauses.text (h : WeavesClauses ps qs clauses cs) :
    Weaves ps qs clauses.text (conditionsParts cs) (conditionsInOrder cs = true) := by
  rcases h with ⟨ands, ors, k, l, hthreads, hands, hors, hmarks, -⟩
  refine ⟨ands ++ ors, hthreads, ?_⟩
  rw [← hmarks]
  have handsText : Reads (join " AND " (clauses.texts .and)) ands k := hands.join (by decide)
  have horsText : Reads (join " OR " (clauses.texts .or)) ors l := hors.join (by decide)
  unfold Clauses.text
  dsimp only
  split
  · next he =>
    rw [List.isEmpty_iff.1 he] at hors
    cases hors
    simpa using handsText
  · split
    · next he =>
      rw [List.isEmpty_iff.1 he] at hands
      cases hands
      simpa using horsText
    · have hopen := (handsText.prepend (a := "(") (by decide)).close (a := ") OR ") (by decide)
      exact hopen.append_reads horsText

end

/-! ## The text of a query -/

theorem breaks_empty : Breaks "".toList := by
  intro c hc
  cases hc

theorem Reads.afterKeyword {keyword text : String} {n : List String} {k : Nat}
    (hk : Inert keyword) (h : Reads text n k) : Reads (afterKeyword keyword text) n k := by
  unfold Sql.afterKeyword
  split
  · next he =>
    rw [String.isEmpty_iff.1 he] at h
    exact h
  · exact h.prepend hk

theorem breaks_afterKeyword {keyword : String} (hk : Delimits keyword) (text : String) :
    Breaks (afterKeyword keyword text).toList := by
  unfold afterKeyword
  split
  · exact breaks_empty
  · exact hk.breaks_append

theorem breaks_limitText (d : Dialect) (limit offset : Option Nat) :
    Breaks (limitText d limit offset).toList := by
  unfold limitText
  split
  · rw [String.append_assoc, String.append_assoc]
    exact Delimits.breaks_append (by decide)
  · split <;> exact Delimits.breaks_append (by decide)
  · exact breaks_empty

theorem breaks_groupText (d : Dialect) (groups : List String) :
    Breaks (groupText d groups).toList := by
  unfold groupText
  split
  · exact breaks_empty
  · exact Delimits.breaks_append (by decide)

theorem readsAll_columnTexts (d : Dialect) {columns : List String}
    (h : AllTame (columns.flatMap selectedParts)) :
    ReadsAll (columns.map (columnText d)) [] (marksOf (columns.flatMap selectedParts)) := by
  induction columns with
  | nil => exact .nil
  | cons column columns ih =>
    rw [List.flatMap_cons, allTame_append] at h
    rw [List.flatMap_cons, marksOf_append]
    exact .cons (seals_columnText d h.1).reads (ih h.2)

theorem reads_groupText (d : Dialect) {groups : List String}
    (h : AllTame (groups.flatMap selectedParts)) :
    Reads (groupText d groups) [] (marksOf (groups.flatMap selectedParts)) := by
  unfold groupText
  split
  · next he =>
    rw [List.isEmpty_iff.1 he]
    exact seals_empty.reads
  · exact ((readsAll_columnTexts d h).join (by decide)).prepend (by decide)

theorem seals_relationJoinText (d : Dialect) {r : RelationJoin} (h : AllTame (relationParts r)) :
    Seals (relationJoinText d r) [] (marksOf (relationParts r)) := by
  rw [relationParts, allTame_append] at h
  rw [relationParts, marksOf_append]
  have hjoin := ((inert_joinKeywords .left).seals.close (a := " ") (by decide)).append_nil
    (seals_quoteQualified d (r.table ++ " AS " ++ r.name))
  have hleft := (hjoin.close (a := " ON (") (by decide)).append
    (seals_qualify { dialect := d } h.1)
  have hboth := (hleft.close (a := " = ") (by decide)).append (seals_qualify { dialect := d } h.2)
  simpa only [relationJoinText, List.append_nil, Nat.zero_add] using hboth.close (a := ")") (by decide)

theorem readsAll_relationTexts (d : Dialect) {relations : List RelationJoin}
    (h : AllTame (relations.flatMap relationParts)) :
    ReadsAll (relations.map fun r => " " ++ relationJoinText d r) []
      (marksOf (relations.flatMap relationParts)) := by
  induction relations with
  | nil => exact .nil
  | cons r relations ih =>
    rw [List.flatMap_cons, allTame_append] at h
    rw [List.flatMap_cons, marksOf_append]
    exact .cons ((seals_relationJoinText d h.1).prepend (by decide)).reads (ih h.2)

/-- The reader finds in the text of a query what it finds in the texts of the clauses. -/
theorem reads_queryText {p : QueryParts} {d : Dialect} {q : Query}
    {n₁ n₂ n₃ n₄ n₅ n₆ n₇ : List String} {k₁ k₂ k₃ k₄ k₅ k₆ k₇ k₈ k₉ : Nat}
    (hselected : Reads (if q.columns.isEmpty then "*" else join ", " p.selected) n₁ k₁)
    (hsources : Reads (join ", " p.sources) n₂ k₂)
    (hjoined : ReadsAll p.joined n₃ k₃) (hbreaks : ∀ t ∈ p.joined, Breaks t.toList)
    (hrelations : ReadsAll ((neededRelations q).map fun r => " " ++ relationJoinText d r) [] k₄)
    (hfilter : Reads p.filter.text n₄ k₅) (hgroups : Reads (groupText d q.groups) [] k₆)
    (hhaving : Reads p.having.text n₅ k₇)
    (hordered : Reads (if q.orders.isEmpty then "" else " ORDER BY " ++ join ", " p.ordered) n₆ k₈)
    (hunited : ReadsAll p.united n₇ k₉) (hbreaks' : ∀ t ∈ p.united, Breaks t.toList) :
    Reads (p.text d q) (n₁ ++ n₂ ++ n₃ ++ n₄ ++ n₅ ++ n₆ ++ n₇)
      (k₁ + k₂ + k₃ + k₄ + k₅ + k₆ + k₇ + k₈ + k₉) := by
  have hjoins : ∀ t ∈ p.joined ++ (neededRelations q).map fun r => " " ++ relationJoinText d r,
      Breaks t.toList := by
    intro t ht
    rcases List.mem_append.1 ht with ht | ht
    · exact hbreaks t ht
    · obtain ⟨r, -, rfl⟩ := List.mem_map.1 ht
      exact Delimits.breaks_append (by decide)
  have horderBreaks : Breaks
      (if q.orders.isEmpty then "" else " ORDER BY " ++ join ", " p.ordered).toList := by
    split
    · exact breaks_empty
    · exact Delimits.breaks_append (by decide)
  have hhead : Inert ("SELECT " ++ if q.distinct then "DISTINCT " else "") := by
    split <;> decide
  have hselect := hselected.prepend hhead
  have hfrom := (hselect.close (a := " FROM ") (by decide)).append_reads hsources
  have hjoin := hfrom.append (breaks_concatenated hjoins)
    ((hjoined.append hrelations).concatenated hjoins)
  have hwhere := hjoin.append (breaks_afterKeyword (by decide) _)
    (Reads.afterKeyword (show Inert " WHERE " by decide) hfilter)
  have hgroup := hwhere.append (breaks_groupText d q.groups) hgroups
  have hhav := hgroup.append (breaks_afterKeyword (by decide) _)
    (Reads.afterKeyword (show Inert " HAVING " by decide) hhaving)
  have horder := hhav.append horderBreaks hordered
  have hlimit := horder.append (breaks_limitText d q.limit q.offset)
    (inert_limitText d q.limit q.offset).seals.reads
  have hunion := hlimit.append (breaks_concatenated hbreaks') (hunited.concatenated hbreaks')
  simp only [List.append_nil, Nat.add_zero, ← Nat.add_assoc] at hunion
  exact hunion

/-! ## Whole queries -/

@[simp] theorem boundOf_flatMap_selectedParts (columns : List String) :
    boundOf (columns.flatMap selectedParts) = 0 := by
  induction columns with
  | nil => rfl
  | cons column columns ih => simp [ih]

@[simp] theorem boundOf_flatMap_relationParts (relations : List RelationJoin) :
    boundOf (relations.flatMap relationParts) = 0 := by
  induction relations with
  | nil => rfl
  | cons r relations ih => simp [relationParts, ih]

theorem WeavesAll.ofClause {c : Category} {given : List Value} {body : Render (List String)}
    {s s' : ParamSink} {texts : List String} {parts : List Ingredient} {o : Prop}
    (h : inClause c given body s = .ok texts s')
    (hbody : ∀ {t t'}, body t = .ok texts t' →
      WeavesAll t.parameters t'.parameters texts parts o) :
    WeavesAll s.parameters s'.parameters texts parts o := by
  obtain ⟨t, t', ht, hs, hs'⟩ := Threads.inClause h
  rw [← hs, ← hs']
  exact hbody ht

theorem WeavesClauses.ofClause {c : Category} {given : List Value} {body : Render Clauses}
    {s s' : ParamSink} {clauses : Clauses} {cs : List (Condition Query)}
    (h : inClause c given body s = .ok clauses s')
    (hbody : ∀ {t t'}, body t = .ok clauses t' →
      WeavesClauses t.parameters t'.parameters clauses cs) :
    WeavesClauses s.parameters s'.parameters clauses cs := by
  obtain ⟨t, t', ht, hs, hs'⟩ := Threads.inClause h
  rw [← hs, ← hs']
  exact hbody ht

theorem seals_aliased (d : Dialect) (asName : String) {text : String} {n : List String} {k : Nat}
    (h : Reads text n k) : Seals (aliased d text asName) n k :=
  ((h.prepend (a := "(") (by decide)).close (a := ") AS ") (by decide)).append_nil
    (seals_quoteIdentifier d asName)

def onText (kind : JoinKind) (conditions : List (Condition Query)) (clauses : Clauses) : String :=
  if kind = .cross || conditions.isEmpty then "" else " ON " ++ clauses.text

theorem breaks_onText (kind : JoinKind) (conditions : List (Condition Query)) (clauses : Clauses) :
    Breaks (onText kind conditions clauses).toList := by
  unfold onText
  split
  · exact breaks_empty
  · exact Delimits.breaks_append (by decide)

theorem renderJoins_cons_eq_ok {d : Dialect} {kind : JoinKind} {target : Source Query}
    {conditions : List (Condition Query)} {rest : List (Join Query)} {s s' : ParamSink}
    {texts : List String}
    (h : renderJoins d (⟨kind, target, conditions⟩ :: rest) s = .ok texts s') :
    ∃ source t clauses u others, renderSource d target s = .ok source t ∧
      (kind = .cross ∧ t = u ∨
        kind ≠ .cross ∧ renderConditions { dialect := d } conditions t = .ok clauses u) ∧
      renderJoins d rest u = .ok others s' ∧
      texts = (" " ++ kind.keywords ++ " " ++ source ++ onText kind conditions clauses) :: others := by
  rw [renderJoins] at h
  obtain ⟨source, t, hsource, h⟩ := bind_eq_ok.1 h
  dsimp only at h
  split at h
  · next hk =>
    obtain ⟨clauses, u, hclauses, h⟩ := bind_eq_ok.1 h
    obtain ⟨rfl, rfl⟩ := pure_eq_ok.1 hclauses
    obtain ⟨others, u', hothers, h⟩ := bind_eq_ok.1 h
    obtain ⟨rfl, rfl⟩ := pure_eq_ok.1 h
    exact ⟨source, t, [], t, others, hsource, .inl ⟨hk, rfl⟩, hothers, rfl⟩
  · next hk =>
    obtain ⟨clauses, u, hclauses, h⟩ := bind_eq_ok.1 h
    obtain ⟨others, u', hothers, h⟩ := bind_eq_ok.1 h
    obtain ⟨rfl, rfl⟩ := pure_eq_ok.1 h
    exact ⟨source, t, clauses, u, others, hsource, .inr ⟨hk, hclauses⟩, hothers, rfl⟩

/-- The conditions of a join write what conditions write; an empty list of them writes nothing. -/
theorem WeavesClauses.onText {ps qs : List Parameter} {kind : JoinKind} (hk : kind ≠ .cross)
    {clauses : Clauses} {conditions : List (Condition Query)}
    (h : WeavesClauses ps qs clauses conditions) :
    Weaves ps qs (onText kind conditions clauses) (conditionsParts conditions)
      (conditionsInOrder conditions = true) := by
  cases conditions with
  | nil =>
    obtain ⟨names, hthreads, -⟩ := h.text
    obtain rfl : names = [] := List.length_eq_zero_iff.1 hthreads.length_eq
    have htext : Sql.onText kind [] clauses = "" := by simp [Sql.onText]
    rw [htext]
    exact ⟨[], hthreads, seals_empty.reads⟩
  | cons c cs =>
    have htext : Sql.onText kind (c :: cs) clauses = " ON " ++ clauses.text := by
      simp [Sql.onText, hk]
    rw [htext]
    exact h.text.around fun hr => hr.prepend (by decide)

mutual
theorem renderQuery_weaves (d : Dialect) : (q : Query) → ∀ ⦃s s' : ParamSink⦄ ⦃text : String⦄,
    renderQuery d q s = .ok text s' → AllTame (queryParts q) →
      Weaves s.parameters s'.parameters text (queryParts q) (queryInOrder q = true)
  | ⟨columns, distinct, sources, joins, wheres, groups, havings, orders, limit, offset, unions,
      given, indexKey, relations, connection, error⟩ => by
    intro s s' text h ht
    obtain ⟨parts, rfl, s₁, s₂, s₃, s₄, s₅, s₆, h₁, h₂, h₃, h₄, h₅, h₆, h₇⟩ := renderQuery_eq_ok h
    simp only [queryParts, allTame_append] at ht
    rcases ht with ⟨⟨⟨⟨⟨⟨⟨⟨t₁, t₂⟩, t₃⟩, tr⟩, t₄⟩, tg⟩, t₅⟩, t₆⟩, t₇⟩
    obtain ⟨n₁, w₁, r₁⟩ := WeavesAll.ofClause h₁ fun h => renderColumns_weaves d columns h t₁
    obtain ⟨n₂, w₂, r₂⟩ := WeavesAll.ofClause h₂ fun h => renderSources_weaves d sources h t₂
    obtain ⟨t, t', hjoins, hs, hs'⟩ := Threads.inClause h₃
    obtain ⟨⟨n₃, w₃, r₃⟩, b₃⟩ := renderJoins_weaves d joins hjoins t₃
    rw [hs, hs'] at w₃
    obtain ⟨n₄, w₄, r₄⟩ := (WeavesClauses.ofClause h₄ fun h =>
      renderConditions_weaves _ wheres h t₄).text
    obtain ⟨n₅, w₅, r₅⟩ := (WeavesClauses.ofClause h₅ fun h =>
      renderConditions_weaves _ havings h t₅).text
    obtain ⟨n₆, w₆, r₆⟩ := WeavesAll.ofClause h₆ fun h => renderOrders_weaves h t₆
    obtain ⟨t, t', hunions, hs, hs'⟩ := Threads.inClause h₇
    obtain ⟨⟨n₇, w₇, r₇⟩, b₇⟩ := renderUnions_weaves d unions hunions t₇
    rw [hs, hs'] at w₇
    refine ⟨n₁ ++ n₂ ++ n₃ ++ n₄ ++ n₅ ++ n₆ ++ n₇, ?_, ?_⟩
    · have hall := (((((w₁.trans w₂).trans w₃).trans w₄).trans w₅).trans w₆).trans w₇
      simpa [queryParts, queryInOrder, Nat.add_assoc] using hall
    · have hselected : Reads (if columns.isEmpty then "*" else join ", " parts.selected) n₁
          (marksOf (columnsParts columns)) := by
        cases columns with
        | nil =>
          obtain rfl : n₁ = [] := List.length_eq_zero_iff.1 w₁.length_eq
          exact (Inert.seals (t := "*") (by decide)).reads
        | cons column rest => exact r₁.join (by decide)
      have hordered : Reads (if orders.isEmpty then "" else " ORDER BY " ++ join ", " parts.ordered)
          n₆ (marksOf (ordersParts orders)) := by
        cases orders with
        | nil =>
          obtain rfl : n₆ = [] := List.length_eq_zero_iff.1 w₆.length_eq
          exact seals_empty.reads
        | cons order rest => exact (r₆.join (by decide)).prepend (by decide)
      have htext := reads_queryText hselected (r₂.join (by decide)) r₃ b₃
        (readsAll_relationTexts d tr) r₄ (reads_groupText d tg) r₅ hordered r₇ b₇
      simpa only [queryParts, marksOf_append] using htext
theorem renderColumns_weaves (d : Dialect) : (columns : List (SelectItem Query)) →
    ∀ ⦃s s' : ParamSink⦄ ⦃texts : List String⦄, renderColumns d columns s = .ok texts s' →
      AllTame (columnsParts columns) →
      WeavesAll s.parameters s'.parameters texts (columnsParts columns)
        (columnsInOrder columns = true)
  | [] => by
    intro s s' texts h _
    obtain ⟨rfl, rfl⟩ := pure_eq_ok.1 h
    exact (WeavesAll.nil _).congr (iff_of_true trivial rfl)
  | .column text :: rest => by
    intro s s' texts h ht
    obtain ⟨others, t, hothers, h⟩ := bind_eq_ok.1 h
    obtain ⟨rfl, rfl⟩ := pure_eq_ok.1 h
    rw [columnsParts, allTame_append] at ht
    have hfirst := (seals_columnText d ht.1).weaves (boundOf_selectedParts text) s.parameters
    exact (WeavesAll.cons hfirst (renderColumns_weaves d rest hothers ht.2)).congr
      (by rw [columnsInOrder, true_and])
  | .raw sql values :: rest => by
    intro s s' texts h ht
    obtain ⟨text, t, hraw, h⟩ := bind_eq_ok.1 h
    obtain ⟨others, t', hothers, h⟩ := bind_eq_ok.1 h
    obtain ⟨rfl, rfl⟩ := pure_eq_ok.1 h
    rw [columnsParts, allTame_cons] at ht
    exact (WeavesAll.cons (expandRaw_weaves hraw ht.1)
      (renderColumns_weaves d rest hothers ht.2)).congr
      (by rw [columnsInOrder, true_and])
  | .sub query asName :: rest => by
    intro s s' texts h ht
    obtain ⟨text, t, hquery, h⟩ := bind_eq_ok.1 h
    obtain ⟨others, t', hothers, h⟩ := bind_eq_ok.1 h
    obtain ⟨rfl, rfl⟩ := pure_eq_ok.1 h
    rw [columnsParts, allTame_append] at ht
    have hfirst := (renderQuery_weaves d query hquery ht.1).around fun hr =>
      (seals_aliased d asName hr).reads
    exact (WeavesAll.cons hfirst (renderColumns_weaves d rest hothers ht.2)).congr
      (by rw [columnsInOrder, Bool.and_eq_true])
theorem renderSource_weaves (d : Dialect) : (source : Source Query) →
    ∀ ⦃s s' : ParamSink⦄ ⦃text : String⦄, renderSource d source s = .ok text s' →
      AllTame (sourceParts source) →
      Weaves s.parameters s'.parameters text (sourceParts source) (sourceInOrder source = true)
  | .table name => by
    intro s s' text h _
    obtain ⟨rfl, rfl⟩ := pure_eq_ok.1 h
    exact (Seals.weaves (seals_quoteQualified d name) rfl _).congr (iff_of_true trivial rfl)
  | .sub query asName => by
    intro s s' text h ht
    obtain ⟨inner, t, hquery, h⟩ := bind_eq_ok.1 h
    obtain ⟨rfl, rfl⟩ := pure_eq_ok.1 h
    exact (renderQuery_weaves d query hquery ht).around fun hr => (seals_aliased d asName hr).reads
theorem renderSources_weaves (d : Dialect) : (sources : List (Source Query)) →
    ∀ ⦃s s' : ParamSink⦄ ⦃texts : List String⦄, renderSources d sources s = .ok texts s' →
      AllTame (sourcesParts sources) →
      WeavesAll s.parameters s'.parameters texts (sourcesParts sources)
        (sourcesInOrder sources = true)
  | [] => by
    intro s s' texts h _
    obtain ⟨rfl, rfl⟩ := pure_eq_ok.1 h
    exact (WeavesAll.nil _).congr (iff_of_true trivial rfl)
  | source :: rest => by
    intro s s' texts h ht
    obtain ⟨text, t, hsource, h⟩ := bind_eq_ok.1 h
    obtain ⟨others, t', hothers, h⟩ := bind_eq_ok.1 h
    obtain ⟨rfl, rfl⟩ := pure_eq_ok.1 h
    rw [sourcesParts, allTame_append] at ht
    exact (WeavesAll.cons (renderSource_weaves d source hsource ht.1)
      (renderSources_weaves d rest hothers ht.2)).congr (by rw [sourcesInOrder, Bool.and_eq_true])
theorem renderJoins_weaves (d : Dialect) : (joins : List (Join Query)) →
    ∀ ⦃s s' : ParamSink⦄ ⦃texts : List String⦄, renderJoins d joins s = .ok texts s' →
      AllTame (joinsParts joins) →
      WeavesAll s.parameters s'.parameters texts (joinsParts joins) (joinsInOrder joins = true) ∧
        ∀ t ∈ texts, Breaks t.toList
  | [] => by
    intro s s' texts h _
    obtain ⟨rfl, rfl⟩ := pure_eq_ok.1 h
    exact ⟨(WeavesAll.nil _).congr (iff_of_true trivial rfl), by simp⟩
  | ⟨kind, target, conditions⟩ :: rest => by
    intro s s' texts h ht
    obtain ⟨source, t, clauses, u, others, hsource, hon, hothers, rfl⟩ := renderJoins_cons_eq_ok h
    rw [joinsParts, allTame_append, allTame_append] at ht
    rcases ht with ⟨⟨htarget, hconditions⟩, hrest⟩
    have hkeywords : Inert (" " ++ kind.keywords ++ " ") := by
      cases kind <;> decide
    have hsourceWeave := (renderSource_weaves d target hsource htarget).around fun hr =>
      hr.prepend hkeywords
    obtain ⟨hothersWeave, hbreaks⟩ := renderJoins_weaves d rest hothers hrest
    have honWeave : Weaves t.parameters u.parameters (onText kind conditions clauses)
        (if kind = .cross then [] else conditionsParts conditions)
        ((kind == .cross || conditionsInOrder conditions) = true) := by
      rcases hon with ⟨rfl, rfl⟩ | ⟨hk, hclauses⟩
      · exact Weaves.congr ⟨[], .refl _, seals_empty.reads⟩
          (iff_of_true trivial rfl)
      · rw [if_neg hk] at hconditions ⊢
        have hk' : (kind == .cross) = false := by simpa using hk
        rw [hk', Bool.false_or]
        exact (renderConditions_weaves _ conditions hclauses hconditions).onText hk
    have hfirst := hsourceWeave.append honWeave (breaks_onText kind conditions clauses)
    refine ⟨(WeavesAll.cons hfirst hothersWeave).congr ?_, ?_⟩
    · rw [joinsInOrder, Bool.and_eq_true, Bool.and_eq_true]
    · refine List.forall_mem_cons.2 ⟨?_, hbreaks⟩
      simp only [String.append_assoc]
      exact Delimits.breaks_append (by decide)
theorem renderConditions_weaves (scope : Scope) : (conditions : List (Condition Query)) →
    ∀ ⦃s s' : ParamSink⦄ ⦃clauses : Clauses⦄, renderConditions scope conditions s = .ok clauses s' →
      AllTame (conditionsParts conditions) →
      WeavesClauses s.parameters s'.parameters clauses conditions
  | [] => by
    intro s s' clauses h _
    obtain ⟨rfl, rfl⟩ := pure_eq_ok.1 h
    exact .nil _
  | c :: cs => by
    intro s s' clauses h ht
    obtain ⟨first, t, hfirst, h⟩ := bind_eq_ok.1 h
    obtain ⟨others, t', hothers, h⟩ := bind_eq_ok.1 h
    obtain ⟨rfl, rfl⟩ := pure_eq_ok.1 h
    rw [conditionsParts, allTame_append] at ht
    have hone := renderCondition_weaves scope c hfirst ht.1
    have hrest := renderConditions_weaves scope cs hothers ht.2
    cases first with
    | some text => exact .cons hone hrest
    | none => exact .skip hone hrest
theorem renderCondition_weaves (scope : Scope) : (c : Condition Query) →
    ∀ ⦃s s' : ParamSink⦄ ⦃text : Option String⦄, renderCondition scope c s = .ok text s' →
      AllTame (conditionParts c) →
      Weaves s.parameters s'.parameters (text.getD "") (conditionParts c)
        (conditionInOrder c = true)
  | .basic column operator operand _ => by
    intro s s' text h ht
    rw [conditionParts, comparisonParts] at ht ⊢
    rw [renderCondition] at h
    by_cases hraw : Condition.isRawColumn column = true
    · rw [if_pos hraw] at h ht ⊢
      obtain ⟨rfl, rfl⟩ := pure_eq_ok.1 h
      have htext : Seals (rawOperandText operand) [] (marksOf [.copied (rawOperandText operand)]) :=
        seals_of_isTame (allTame_cons.1 ht).1
      exact (htext.weaves rfl _).congr (iff_of_true trivial rfl)
    · rw [if_neg hraw] at h ht ⊢
      cases hop : Comparison.parse operator with
      | error e =>
        rw [hop] at h
        exact absurd h throw_ne_ok
      | ok op =>
        rw [hop] at h
        obtain ⟨inner, t, hcomparison, h⟩ := bind_eq_ok.1 h
        obtain ⟨rfl, rfl⟩ := pure_eq_ok.1 h
        exact (renderComparison_weaves hcomparison ht).congr (iff_of_true trivial rfl)
  | .isIn column values negated _ => by
    intro s s' text h ht
    obtain ⟨inner, t, hmembership, h⟩ := bind_eq_ok.1 h
    obtain ⟨rfl, rfl⟩ := pure_eq_ok.1 h
    rw [conditionParts] at ht ⊢
    exact (renderMembership_weaves hmembership rfl ht).congr (iff_of_true trivial rfl)
  | .between column low high negated _ => by
    intro s s' text h ht
    obtain ⟨inner, t, hrange, h⟩ := bind_eq_ok.1 h
    obtain ⟨rfl, rfl⟩ := pure_eq_ok.1 h
    rw [conditionParts] at ht ⊢
    exact (renderRange_weaves hrange ht).congr (iff_of_true trivial rfl)
  | .group children _ => by
    intro s s' text h ht
    obtain ⟨clauses, t, hchildren, h⟩ := bind_eq_ok.1 h
    obtain ⟨rfl, rfl⟩ := pure_eq_ok.1 h
    have htext := (renderConditions_weaves scope children hchildren ht).text
    split
    · next he =>
      rw [String.isEmpty_iff.1 he] at htext
      exact htext
    · exact htext
  | .sub column operator query _ => by
    intro s s' text h ht
    rw [renderCondition] at h
    cases hop : Comparison.parse operator with
    | error e =>
      rw [hop] at h
      exact absurd h throw_ne_ok
    | ok op =>
      rw [hop] at h
      obtain ⟨inner, t, hquery, h⟩ := bind_eq_ok.1 h
      obtain ⟨rfl, rfl⟩ := pure_eq_ok.1 h
      rw [conditionParts, allTame_append] at ht
      have hleft := ((seals_qualify scope ht.1).close (a := " ") (by decide)).close (inert_symbol op)
      obtain ⟨names, hthreads, hreads⟩ := renderQuery_weaves scope.dialect query hquery ht.2
      refine ⟨names, ?_, ?_⟩
      · rw [conditionParts, boundOf_append, boundOf_columnParts, Nat.zero_add]
        exact hthreads
      · rw [conditionParts, marksOf_append]
        exact (((hleft.close (a := " (") (by decide)).append_reads hreads).close (a := ")")
          (by decide)).reads
  | .hasRows query negated _ => by
    intro s s' text h ht
    obtain ⟨inner, t, hquery, h⟩ := bind_eq_ok.1 h
    obtain ⟨rfl, rfl⟩ := pure_eq_ok.1 h
    refine (renderQuery_weaves scope.dialect query hquery ht).around fun hr => ?_
    have hhead : Inert ((if negated then "NOT " else "") ++ "EXISTS (") := by
      split <;> decide
    exact ((hr.prepend hhead).close (a := ")") (by decide)).reads
  | .raw sql values _ => by
    intro s s' text h ht
    obtain ⟨inner, t, hraw, h⟩ := bind_eq_ok.1 h
    obtain ⟨rfl, rfl⟩ := pure_eq_ok.1 h
    exact (expandRaw_weaves hraw (allTame_cons.1 ht).1).congr (iff_of_true trivial rfl)
theorem renderUnions_weaves (d : Dialect) : (unions : List (Query × Bool)) →
    ∀ ⦃s s' : ParamSink⦄ ⦃texts : List String⦄, renderUnions d unions s = .ok texts s' →
      AllTame (unionsParts unions) →
      WeavesAll s.parameters s'.parameters texts (unionsParts unions)
        (unionsInOrder unions = true) ∧ ∀ t ∈ texts, Breaks t.toList
  | [] => by
    intro s s' texts h _
    obtain ⟨rfl, rfl⟩ := pure_eq_ok.1 h
    exact ⟨(WeavesAll.nil _).congr (iff_of_true trivial rfl), by simp⟩
  | (query, all) :: rest => by
    intro s s' texts h ht
    obtain ⟨text, t, hquery, h⟩ := bind_eq_ok.1 h
    obtain ⟨others, t', hothers, h⟩ := bind_eq_ok.1 h
    obtain ⟨rfl, rfl⟩ := pure_eq_ok.1 h
    rw [unionsParts, allTame_append] at ht
    have hkeyword : Delimits (if all then " UNION ALL " else " UNION ") := by
      split <;> decide
    have hfirst := (renderQuery_weaves d query hquery ht.1).around fun hr =>
      hr.prepend hkeyword.inert
    obtain ⟨hrest, hbreaks⟩ := renderUnions_weaves d rest hothers ht.2
    refine ⟨(WeavesAll.cons hfirst hrest).congr (by rw [unionsInOrder, Bool.and_eq_true]), ?_⟩
    exact List.forall_mem_cons.2 ⟨hkeyword.breaks_append, hbreaks⟩
end

end RowMapper.Sql
