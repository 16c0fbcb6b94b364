import RowMapper.Proofs.Alias.Cuts
import RowMapper.Proofs.Outcome
import RowMapper.Proofs.Render.Clauses
import RowMapper.Proofs.Statement.BareNames

/-! # Joins of the relations that a query refers to

A query declares relations, and columns of its conditions and of its ordering may be
qualified with their names. Each relation that is referred to, and whose name is not the
alias of a join that the query has, is joined once. The statement of the query is the one
that it has with these joins written out behind its own, in the order in which the
relations are first referred to.
-/

namespace RowMapper

open Text

/-! ## Columns that conditions refer to -/

/-- A condition refers to a column on its left or right side, in groups at any depth; what a nested
query refers to does not count. -/
inductive Condition.RefersTo : Condition Query → String → Prop
  | basic (column operator : String) (operand : Operand) (c : Connective) :
      RefersTo (.basic column operator operand c) column
  | operand (column operator other : String) (c : Connective) :
      RefersTo (.basic column operator (.column other) c) other
  | isIn (column : String) (values : List Value) (negated : Bool) (c : Connective) :
      RefersTo (.isIn column values negated c) column
  | between (column : String) (low high : Value) (negated : Bool) (c : Connective) :
      RefersTo (.between column low high negated c) column
  | sub (column operator : String) (query : Query) (c : Connective) :
      RefersTo (.sub column operator query c) column
  | group {child : Condition Query} {children : List (Condition Query)} {column : String}
      (hchild : child ∈ children) (h : RefersTo child column) (c : Connective) :
      RefersTo (.group children c) column

namespace Sql

mutual
theorem mem_mentionedColumns {column : String} :
    (c : Condition Query) → (column ∈ mentionedColumns c ↔ c.RefersTo column)
  | .basic left operator (.column other) c => by
    rw [mentionedColumns, List.mem_cons, List.mem_singleton]
    constructor
    · rintro (rfl | rfl)
      · exact .basic ..
      · exact .operand ..
    · rintro (_ | _)
      · exact .inl rfl
      · exact .inr rfl
  | .basic left operator .null c | .basic left operator (.value _) c
  | .basic left operator (.exact _) c | .basic left operator (.list _) c
  | .basic left operator (.raw _) c =>
    List.mem_singleton.trans ⟨fun h => h ▸ .basic .., fun h => by cases h; rfl⟩
  | .isIn left values negated c =>
    List.mem_singleton.trans ⟨fun h => h ▸ .isIn .., fun h => by cases h; rfl⟩
  | .between left low high negated c =>
    List.mem_singleton.trans ⟨fun h => h ▸ .between .., fun h => by cases h; rfl⟩
  | .sub left operator query c =>
    List.mem_singleton.trans ⟨fun h => h ▸ .sub .., fun h => by cases h; rfl⟩
  | .group children c => by
    rw [mentionedColumns, mem_allMentionedColumns children]
    constructor
    · rintro ⟨child, hchild, h⟩
      exact .group hchild h c
    · rintro (_ | _)
      exact ⟨_, ‹_›, ‹_›⟩
  | .hasRows _ _ _ => ⟨fun h => (by cases h), fun h => nomatch h⟩
  | .raw _ _ _ => ⟨fun h => (by cases h), fun h => nomatch h⟩
theorem mem_allMentionedColumns {column : String} : (cs : List (Condition Query)) →
    (column ∈ allMentionedColumns cs ↔ ∃ c ∈ cs, c.RefersTo column)
  | [] => ⟨fun h => (by cases h), fun ⟨_, h, _⟩ => nomatch h⟩
  | c :: cs => by
    rw [allMentionedColumns, List.mem_append, mem_mentionedColumns c,
      mem_allMentionedColumns cs]
    simp
end

end Sql

/-! ## Names before the first dot -/

def IsQualifier (name column : String) : Prop :=
  '.' ∉ name.toList ∧ name.toList ++ ['.'] <+: column.toList

instance (name column : String) : Decidable (IsQualifier name column) :=
  inferInstanceAs (Decidable (_ ∧ _))

theorem breakPhrase_singleton {x : Char} {cs before : List Char} :
    (∃ after, breakPhrase [x] cs = some (before, after)) ↔ x ∉ before ∧ before ++ [x] <+: cs := by
  induction cs generalizing before with
  | nil => simp [breakPhrase]
  | cons c cs ih =>
    rw [breakPhrase]
    by_cases hc : x = c
    · subst hc
      rw [if_pos (by simp)]
      cases before with
      | nil => simp
      | cons b before =>
        have hne (h : x ∉ b :: before) : b ≠ x := fun hb => h (hb ▸ List.mem_cons_self)
        simp only [Option.some.injEq, Prod.mk.injEq, List.nil_eq, reduceCtorEq, false_and,
          exists_false, List.cons_append, List.cons_prefix_cons, false_iff]
        rintro ⟨hbefore, hb, -⟩
        exact hne hbefore hb
    · rw [if_neg (by simpa using hc)]
      cases before with
      | nil => simp [hc]
      | cons b before =>
        rw [List.cons_append, List.cons_prefix_cons, List.mem_cons, not_or]
        constructor
        · rintro ⟨after, hbreak⟩
          obtain ⟨⟨b', a'⟩, hrest, heq⟩ := Option.map_eq_some_iff.1 hbreak
          obtain ⟨⟨rfl, rfl⟩, rfl⟩ := (by simpa using heq : (c = b ∧ b' = before) ∧ a' = after)
          obtain ⟨hbefore, hprefix⟩ := ih.1 ⟨_, hrest⟩
          exact ⟨⟨hc, hbefore⟩, rfl, hprefix⟩
        · rintro ⟨⟨-, hbefore⟩, rfl, hprefix⟩
          obtain ⟨after, hrest⟩ := ih.2 ⟨hbefore, hprefix⟩
          exact ⟨after, by rw [hrest]; rfl⟩

theorem relationOf_eq_some_iff {relations : List RelationJoin}
    (hnames : (relations.map RelationJoin.name).Nodup) {column : String} {r : RelationJoin} :
    Sql.relationOf relations column = some r ↔ r ∈ relations ∧ IsQualifier r.name column := by
  have hfind (name : String) :
      relations.find? (fun r => r.name = name) = some r ↔ r ∈ relations ∧ r.name = name := by
    induction relations with
    | nil => simp
    | cons s relations ih =>
      obtain ⟨hnot, hnames⟩ := List.nodup_cons.1 hnames
      rw [List.find?_cons]
      by_cases hs : s.name = name
      · have hother (h : r ∈ relations) : r.name ≠ name := by
          rintro rfl
          exact hnot (List.mem_map.2 ⟨r, h, hs.symm⟩)
        simp only [hs, decide_true, Option.some.injEq, List.mem_cons]
        constructor
        · rintro rfl
          exact ⟨.inl rfl, hs⟩
        · rintro ⟨rfl | h, hr⟩
          · rfl
          · exact absurd hr (hother h)
      · have hne (hr : r.name = name) : r ≠ s := by
          rintro rfl
          exact hs hr
        simp only [hs, decide_false, ih hnames, List.mem_cons]
        exact ⟨fun h => ⟨.inr h.1, h.2⟩, fun h => ⟨h.1.resolve_left (hne h.2), h.2⟩⟩
  have hbreak (before : List Char) :
      (∃ after, breakPhrase ['.'] column.toList = some (before, after)) ↔
        '.' ∉ before ∧ before ++ ['.'] <+: column.toList := breakPhrase_singleton
  unfold Sql.relationOf IsQualifier
  split
  · next name after h =>
    rw [hfind, ← hbreak, h]
    constructor
    · rintro ⟨hr, hname⟩
      exact ⟨hr, after, by rw [hname, String.toList_ofList]⟩
    · rintro ⟨hr, _, heq⟩
      obtain ⟨rfl, -⟩ := Prod.mk.inj (Option.some.inj heq)
      exact ⟨hr, String.ofList_toList.symm⟩
  · next h =>
    rw [← hbreak, h]
    simp

namespace RelationJoin

def toJoin (r : RelationJoin) : Join Query where
  kind := .left
  target := .table (r.table ++ " AS " ++ r.name)
  conditions := [.columns (r.name ++ "." ++ r.foreignColumn) "=" r.localColumn .and]

end RelationJoin

namespace Sql

theorem renderJoins_append (d : Dialect) (js ks : List (Join Query)) :
    renderJoins d (js ++ ks) = do
      let first ← renderJoins d js
      let second ← renderJoins d ks
      return first ++ second := by
  induction js with
  | nil => simp [renderJoins]
  | cons j js ih =>
    obtain ⟨kind, target, conditions⟩ := j
    by_cases hcross : kind = .cross <;> simp [renderJoins, ih, hcross]

theorem isRawColumn_of_dot {column : String} (h : '.' ∈ column.toList) :
    Condition.isRawColumn column = false := by
  have hne {word : String} (hword : '.' ∉ (lowerAscii word).toList) :
      sameIgnoringAsciiCase column word = false := by
    rw [sameIgnoringAsciiCase, beq_eq_false_iff_ne]
    intro heq
    rw [← heq, lowerAscii, String.toList_ofList] at hword
    exact hword (List.mem_map.2 ⟨'.', h, rfl⟩)
  rw [Condition.isRawColumn, hne (by decide), hne (by decide)]
  rfl

theorem renderJoins_toJoin (d : Dialect) (rs : List RelationJoin) :
    renderJoins d (rs.map RelationJoin.toJoin) =
      pure (rs.map fun r => " " ++ relationJoinText d r) := by
  induction rs with
  | nil => rfl
  | cons r rs ih =>
    have hraw : Condition.isRawColumn (r.name ++ "." ++ r.foreignColumn) = false :=
      isRawColumn_of_dot (by simp)
    have hequal : Comparison.parse "=" = .ok .equal := by decide
    have hequals (x y : String) : x ++ " " ++ "=" ++ " " ++ y = x ++ " = " ++ y := by
      simp only [String.append_assoc]
      rfl
    have hcondition (scope : Scope) : renderConditions scope r.toJoin.conditions =
        pure [(.and, scope.qualify (r.name ++ "." ++ r.foreignColumn) ++ " = " ++
          scope.qualify r.localColumn)] := by
      simp [RelationJoin.toJoin, Condition.columns, renderConditions, renderCondition, hraw, hequal,
        renderComparison, Comparison.symbol, Condition.connective, hequals]
    have hclauses (text : String) :
        " ON " ++ Clauses.text [(.and, text)] = " ON (" ++ text ++ ")" := by
      simp only [Clauses.text, Clauses.texts, List.filter_cons, decide_true, if_true,
        List.filter_nil, List.map_cons, List.map_nil, join]
      rw [← String.append_assoc, ← String.append_assoc]
      rfl
    have htarget : renderSource d r.toJoin.target =
        pure (quoteQualified d (r.table ++ " AS " ++ r.name)) := by
      rw [RelationJoin.toJoin, renderSource]
    have hkind : r.toJoin.kind = .left := rfl
    have hon : r.toJoin.conditions.isEmpty = false := rfl
    rw [List.map_cons, renderJoins, hcondition, ih, htarget]
    simp [hkind, hon, hclauses, relationJoinText, String.append_assoc]

end Sql

/-! ## The relations that are joined -/

namespace Query

open Sql

/-- The columns that a query refers to, those of its conditions before those of its ordering. -/
def referredColumns (q : Query) : List String :=
  allMentionedColumns q.wheres ++ orderColumns q.orders

/-- A query refers to a column in its conditions or in its ordering. -/
def RefersTo (q : Query) (column : String) : Prop :=
  (∃ c ∈ q.wheres, c.RefersTo column) ∨ ∃ direction, .column column direction ∈ q.orders

theorem mem_referredColumns {q : Query} {column : String} :
    column ∈ q.referredColumns ↔ q.RefersTo column := by
  rw [referredColumns, List.mem_append, mem_allMentionedColumns, RefersTo, orderColumns,
    List.mem_filterMap]
  apply or_congr_right
  constructor
  · rintro ⟨order, horder, h⟩
    cases order with
    | column name direction =>
      cases h
      exact ⟨direction, horder⟩
    | raw sql values => cases h
  · rintro ⟨direction, horder⟩
    exact ⟨_, horder, rfl⟩

/-- The place of the first column that a name qualifies. -/
def firstReference (columns : List String) (name : String) : Nat :=
  columns.findIdx fun column => IsQualifier name column

theorem firstReference_lt_iff {columns : List String} {name : String} :
    firstReference columns name < columns.length ↔ ∃ c ∈ columns, IsQualifier name c := by
  simp [firstReference, List.findIdx_lt_length]

theorem firstReference_append (columns rest : List String) (name : String) :
    firstReference (columns ++ rest) name =
      if firstReference columns name < columns.length then firstReference columns name
      else firstReference rest name + columns.length :=
  List.findIdx_append

/-- The relations of some columns: those that qualify one, in the order of the first of them. -/
structure Ordered (relations : List RelationJoin) (columns : List String)
    (found : List RelationJoin) : Prop where
  mem_iff : ∀ r, r ∈ found ↔ r ∈ relations ∧ ∃ c ∈ columns, IsQualifier r.name c
  ordered : found.Pairwise fun r s =>
    firstReference columns r.name < firstReference columns s.name

/-- The step: one more column adds the relation that it is qualified with, unless it is there. -/
theorem Ordered.concat {relations found : List RelationJoin} {columns : List String}
    (hnames : (relations.map RelationJoin.name).Nodup) (h : Ordered relations columns found)
    (column : String) : Ordered relations (columns ++ [column])
      ((relationOf relations column).toList.foldl addRelation found) := by
  have hkept {r : RelationJoin} (hr : r ∈ found) :
      firstReference (columns ++ [column]) r.name = firstReference columns r.name := by
    rw [firstReference_append, if_pos (firstReference_lt_iff.2 ((h.mem_iff r).1 hr).2)]
  have hordered : found.Pairwise fun r s => firstReference (columns ++ [column]) r.name <
      firstReference (columns ++ [column]) s.name :=
    h.ordered.imp_of_mem fun hr hs hlt => by rwa [hkept hr, hkept hs]
  have hmem (s : RelationJoin) : (s ∈ relations ∧ ∃ c ∈ columns ++ [column], IsQualifier s.name c) ↔
      s ∈ found ∨ relationOf relations column = some s := by
    rw [h.mem_iff, relationOf_eq_some_iff hnames]
    simp [or_and_right, exists_or, and_or_left]
  cases hrelation : relationOf relations column with
  | none =>
    refine ⟨fun s => ?_, hordered⟩
    rw [hmem, hrelation]
    simp
  | some r =>
    obtain ⟨hr, hqualifies⟩ := (relationOf_eq_some_iff hnames).1 hrelation
    rw [Option.toList_some, List.foldl_cons, List.foldl_nil, addRelation]
    split
    · next hthere =>
      -- a relation of that name is the relation, since the names are different
      have hfound : r ∈ found := by
        obtain ⟨s, hs, hname⟩ := List.any_eq_true.1 hthere
        have heq := List.inj_on_of_nodup_map hnames ((h.mem_iff s).1 hs).1 hr
          (of_decide_eq_true hname)
        exact heq ▸ hs
      refine ⟨fun s => ?_, hordered⟩
      rw [hmem, hrelation, Option.some.injEq]
      exact ⟨.inl, fun hs => hs.elim id fun heq => heq ▸ hfound⟩
    · next hnew =>
      have hfresh : ¬firstReference columns r.name < columns.length := by
        intro hlt
        have hfound := (h.mem_iff r).2 ⟨hr, firstReference_lt_iff.1 hlt⟩
        exact hnew (List.any_eq_true.2 ⟨r, hfound, decide_eq_true rfl⟩)
      refine ⟨fun s => ?_, List.pairwise_append.2 ⟨hordered, List.pairwise_singleton _ _, ?_⟩⟩
      · rw [hmem, hrelation, List.mem_append, List.mem_singleton, Option.some.injEq, eq_comm (a := r)]
      · intro s hs r' hr'
        obtain rfl := List.mem_singleton.1 hr'
        have hbefore := firstReference_lt_iff.2 ((h.mem_iff s).1 hs).2
        rw [hkept hs, firstReference_append, if_neg hfresh]
        omega

/-- The run: the relations of columns stand in the order in which the columns name them. -/
theorem ordered_relationsOf {relations : List RelationJoin}
    (hnames : (relations.map RelationJoin.name).Nodup) (columns : List String) :
    Ordered relations columns (relationsOf relations columns) := by
  have hrun (rest seen : List String) (found : List RelationJoin)
      (h : Ordered relations seen found) : Ordered relations (seen ++ rest)
        ((rest.filterMap (relationOf relations)).foldl addRelation found) := by
    induction rest generalizing seen found with
    | nil => simpa using h
    | cons column rest ih =>
      have hnext := ih (seen ++ [column]) _ (h.concat hnames column)
      rw [List.append_assoc, List.singleton_append, ← List.foldl_append] at hnext
      cases hrelation : relationOf relations column <;>
        simpa [List.filterMap_cons, hrelation] using hnext
  exact hrun columns [] [] ⟨by simp, List.Pairwise.nil⟩

/-! ## The statement with its joins -/

/-- The query with the joins of some relations behind its own, and without declared relations. -/
def joining (q : Query) (rs : List RelationJoin) : Query :=
  { q with joins := q.joins ++ rs.map RelationJoin.toJoin, relations := [] }

theorem neededRelations_joining (q : Query) (rs : List RelationJoin) :
    neededRelations (q.joining rs) = [] := by
  have hnone (columns : List String) : columns.filterMap (relationOf []) = [] := by
    rw [List.filterMap_eq_nil_iff]
    intro column _
    unfold relationOf
    split <;> rfl
  simp [neededRelations, relationsOf, joining, hnone]

/-- Joins that bind no values may be written after a clause as well as in it. -/
theorem inClause_append (c : Category) (given : List Value) (body : Render (List String))
    (rest : List String) : inClause c given (do return (← body) ++ rest) =
      (do return (← inClause c given body) ++ rest) := by
  simp [inClause]

theorem clause_joining (q : Query) (rs : List RelationJoin) (d : Dialect) {c : Category}
    (hc : c ≠ .join) : (q.joining rs).clause d c = q.clause d c := by
  cases c with
  | join => exact absurd rfl hc
  | _ => rfl

theorem clause_join_joining (q : Query) (rs : List RelationJoin) (d : Dialect) :
    (q.joining rs).clause d .join = (do
      let joined : List String ← q.clause d .join
      return joined ++ rs.map fun r => " " ++ relationJoinText d r) := by
  change inClause .join _ (renderJoins d (q.joins ++ rs.map RelationJoin.toJoin)) = _
  rw [renderJoins_append, renderJoins_toJoin]
  simp only [pure_bind]
  exact inClause_append ..

theorem text_joining {p p' : Render.QueryParts} (q : Query) (rs : List RelationJoin) (d : Dialect)
    (h : p' = { p with joined := p.joined ++ (neededRelations q).map fun r =>
      " " ++ relationJoinText d r }) : p'.text d (q.joining rs) = p.text d q := by
  subst h
  unfold Render.QueryParts.text
  rw [neededRelations_joining, List.map_nil, List.append_nil]
  dsimp only [joining]
  -- the two sides differ in how the tests of their conditionals are decided
  congr

/-- A query renders as the query that has the joins of the relations written out. -/
theorem renderQuery_joining (q : Query) (d : Dialect) :
    renderQuery d (q.joining (neededRelations q)) = renderQuery d q := by
  cases herror : q.error with
  | some e =>
    cases q
    subst herror
    rw [joining, renderQuery, renderQuery]
  | none =>
    rw [renderQuery_eq_clauses (q := q.joining _) herror, renderQuery_eq_clauses herror,
      clause_join_joining]
    simp only [clause_joining, ne_eq, reduceCtorEq, not_false_eq_true]
    refine bind_congr fun selected => bind_congr fun sources => ?_
    refine (bind_assoc ..).trans (bind_congr fun joined => ?_)
    refine (pure_bind ..).trans ?_
    refine bind_congr fun filter => bind_congr fun having => bind_congr fun ordered =>
      bind_congr fun united => congrArg pure (text_joining q _ d rfl)

end Query

/-! ## Names and aliases -/

namespace Sql

def IsDotted (name : String) : Prop := ∀ piece ∈ split '.' name, IsBare piece

instance (name : String) : Decidable (IsDotted name) := inferInstanceAs (Decidable (∀ _ ∈ _, _))

namespace IsDotted

variable {name : String}

theorem isNameChar_or_dot (h : IsDotted name) {c : Char} (hc : c ∈ name.toList) :
    isNameChar c = true ∨ c = '.' := by
  have hpieces {cs : List Char} (hc : c ∈ cs) :
      c = '.' ∨ ∃ piece ∈ splitChars '.' cs, c ∈ piece := by
    induction cs with
    | nil => cases hc
    | cons d cs ih =>
      rw [splitChars]
      split
      · next hd =>
        rcases List.mem_cons.1 hc with rfl | hc
        · exact .inl hd
        · rcases ih hc with hdot | ⟨piece, hpiece, hmem⟩
          · exact .inl hdot
          · exact .inr ⟨piece, List.mem_cons_of_mem _ hpiece, hmem⟩
      · split
        · next hnone => exact absurd hnone (splitChars_ne_nil '.' cs)
        · next piece rest hsplit =>
          rcases List.mem_cons.1 hc with rfl | hc
          · exact .inr ⟨_, List.mem_cons_self, List.mem_cons_self⟩
          · rcases ih hc with hdot | ⟨piece', hpiece', hmem⟩
            · exact .inl hdot
            · rw [hsplit] at hpiece'
              rcases List.mem_cons.1 hpiece' with rfl | hpiece'
              · exact .inr ⟨_, List.mem_cons_self, List.mem_cons_of_mem _ hmem⟩
              · exact .inr ⟨_, List.mem_cons_of_mem _ hpiece', hmem⟩
  rcases hpieces hc with hdot | ⟨piece, hpiece, hmem⟩
  · exact .inr hdot
  · refine .inl ((h (String.ofList piece) (List.mem_map.2 ⟨piece, hpiece, rfl⟩)).isNameChar c ?_)
    rwa [String.toList_ofList]

theorem isBlank_eq (h : IsDotted name) {c : Char} (hc : c ∈ name.toList) : isBlank c = false := by
  rcases h.isNameChar_or_dot hc with hname | rfl
  · exact isBlank_of_isNameChar hname
  · decide

theorem ne_empty (h : IsDotted name) : name ≠ "" := by
  rintro rfl
  exact absurd h (by decide)

theorem trim_eq (h : IsDotted name) : trim name = name := trim_eq_self fun _ => h.isBlank_eq

/-- A text that needs a blank does not occur in the name, in whatever case. -/
theorem not_isInfix (h : IsDotted name) {phrase : List Char} (hblank : ' ' ∈ phrase) :
    ¬phrase <:+: name.toList.map Char.toLower := by
  intro hoccurs
  obtain ⟨c, hc, hlower⟩ := List.mem_map.1 (hoccurs.subset hblank)
  have hnot := h.isBlank_eq hc
  rw [eq_space_of_toLower hlower] at hnot
  exact absurd hnot (by decide)

/-- Behind ` AS ` a dotted name is the alias of a dotted name. -/
theorem asName_eq {table : String} (htable : IsDotted table) (h : IsDotted name) :
    (Source.table (table ++ " AS " ++ name) : Source Query).asName = name := by
  have hlengths : ∀ c ∈ table.toList, byteLength (lowerChar c) = c.utf8Size := by
    intro c hc
    refine byteLength_lowerChar_of_ascii ?_
    rcases htable.isNameChar_or_dot hc with hname | rfl
    · exact toNat_lt_of_isNameChar hname
    · decide
  have hopen : endsOpen table.toList = false := by
    rw [endsOpen, Bool.eq_false_iff]
    intro hsuffix
    exact htable.not_isInfix (by decide) (List.isSuffixOf_iff_suffix.1 hsuffix).isInfix
  have hword : " AS ".toList.map Char.toLower = aliasPhrase := by decide
  have hsplit := splitAlias_append (by rw [htable.trim_eq]; exact htable.ne_empty)
    (by rw [h.trim_eq]; exact h.ne_empty) (htable.not_isInfix (by decide)) hword hlengths hopen
  rw [h.trim_eq] at hsplit
  rw [Source.asName, hsplit]

end IsDotted

end Sql

namespace Query

open Sql

/-- The relations that a query refers to and does not join itself, each once and in the order of the
first references to them, with conditions before the ordering. Each is joined under its name. -/
structure JoinsReferred (q : Query) (rs : List RelationJoin) : Prop where
  mem_iff : ∀ r, r ∈ rs ↔ r ∈ q.relations ∧
    (∃ column, q.RefersTo column ∧ IsQualifier r.name column) ∧
    ∀ j ∈ q.joins, j.target.asName ≠ r.name
  nodup : rs.Nodup
  ordered : rs.Pairwise fun r s =>
    firstReference q.referredColumns r.name < firstReference q.referredColumns s.name
  joined : ∀ r ∈ rs, r.toJoin.kind = .left ∧ r.toJoin.target.asName = r.name

theorem JoinsReferred.unique {q : Query} {rs ss : List RelationJoin} (hr : q.JoinsReferred rs)
    (hs : q.JoinsReferred ss) : rs = ss :=
  ((List.perm_ext_iff_of_nodup hr.nodup hs.nodup).2 fun r =>
    (hr.mem_iff r).trans (hs.mem_iff r).symm).eq_of_pairwise
      (fun _ _ _ _ hlt hgt => absurd hlt (Nat.lt_asymm hgt)) hr.ordered hs.ordered

/-- The statement of a query is the one with its own joins and, behind them, one left join for each
relation that it refers to and does not join itself. -/
theorem referred_relations_joined {q : Query} {d : Dialect} {st : Statement}
    (hnames : (q.relations.map RelationJoin.name).Nodup)
    (hdotted : ∀ r ∈ q.relations, IsDotted r.name ∧ IsDotted r.table)
    (h : Statement.ofQuery d q = .ok st) :
    ∃ rs, q.JoinsReferred rs ∧ (∀ ss, q.JoinsReferred ss → ss = rs) ∧
      Statement.ofQuery d (q.joining rs) = .ok st := by
  have hfound := ordered_relationsOf hnames q.referredColumns
  have hmem (r : RelationJoin) : r ∈ neededRelations q ↔ r ∈ q.relations ∧
      (∃ column, q.RefersTo column ∧ IsQualifier r.name column) ∧
      ∀ j ∈ q.joins, j.target.asName ≠ r.name := by
    rw [neededRelations, List.mem_filter]
    change r ∈ relationsOf q.relations q.referredColumns ∧ _ ↔ _
    rw [hfound.mem_iff, and_assoc]
    simp only [mem_referredColumns, Bool.not_eq_true', List.contains_eq_mem, decide_eq_false_iff_not,
      List.mem_map, not_exists, not_and, ne_eq]
  have hordered := hfound.ordered.filter fun r =>
    !(q.joins.map fun j => j.target.asName).contains r.name
  have hjoins : q.JoinsReferred (neededRelations q) := by
    refine ⟨hmem, hordered.imp fun hlt heq => ?_, hordered, fun r hr => ⟨rfl, ?_⟩⟩
    · rw [heq] at hlt
      exact Nat.lt_irrefl _ hlt
    · obtain ⟨hname, htable⟩ := hdotted r ((hmem r).1 hr).1
      exact htable.asName_eq hname
  refine ⟨neededRelations q, hjoins, fun ss hss => hss.unique hjoins, ?_⟩
  rw [Statement.ofQuery, renderQuery_joining]
  exact h

/-- Books of one town with their shop and their author, and with an owner that is joined already. -/
def bookSample : Query where
  sources := [.table "books"]
  joins := [{ kind := .inner, target := .table "men AS owner" }]
  wheres := [.group [.columns "shop.town" "=" "author.town" .and] .and]
  orders := [.column "owner.name" .asc, .column "shop.town" .asc]
  relations := [⟨"author", "authors", "author_id", "id"⟩, ⟨"shop", "shops", "shop_id", "id"⟩,
    ⟨"owner", "men", "owner_id", "id"⟩]

theorem bookSample_joined : ∃ st rs, Statement.ofQuery .postgres bookSample = .ok st ∧
    Statement.ofQuery .postgres (bookSample.joining rs) = .ok st ∧ bookSample.JoinsReferred rs ∧
    ⟨"shop", "shops", "shop_id", "id"⟩ ∈ rs ∧ ⟨"owner", "men", "owner_id", "id"⟩ ∉ rs := by
  obtain ⟨st, hst⟩ :=
    Outcome.exists_of_isOk (x := Statement.ofQuery .postgres bookSample) (by decide +kernel)
  obtain ⟨rs, hjoins, -, hrs⟩ := referred_relations_joined (by decide) (by decide) hst
  refine ⟨st, rs, hst, hrs, hjoins, ?_, fun howner => ?_⟩
  · exact (hjoins.mem_iff _).2 ⟨by decide, ⟨"shop.town", mem_referredColumns.1 (by decide),
      by decide⟩, by decide⟩
  · exact ((hjoins.mem_iff _).1 howner).2.2 _ List.mem_cons_self (by decide)

end Query

end RowMapper
