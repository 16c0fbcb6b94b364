import RowMapper.Proofs.Condition.Grouping
import RowMapper.Proofs.Placeholder.Queries

/-! # Keywords and their predicates

A predicate is made of the conditions inside all groups, its leaves, and a keyword is to
stand in front of it just when there is a leaf. WHERE and HAVING are written by what was
rendered, which is nothing just when there is no leaf. ON is written by what is listed, so
empty groups leave it without a predicate. A leaf is written as blank text only where SQL
text is expected and a list without values is given.
-/

namespace RowMapper.Sql

open Text Render

/-! ## Leaves that can be seen -/

def isBlankText (s : String) : Bool := s.toList.all isBlank

def fragmentTexts : Operand → List String
  | .list vs => vs.map Value.display
  | operand => [rawOperandText operand]

/-- The pieces of SQL text that a condition consists of, where it consists of nothing else. -/
def wholeTexts : Condition Query → List String
  | .basic column _ operand _ =>
    if Condition.isRawColumn column then fragmentTexts operand else []
  | .raw sql _ _ => [sql]
  | _ => []

/-- Whether a condition is to be SQL text and lists no values for it. -/
def listsNothing : Condition Query → Bool
  | .basic column _ (.list []) _ => Condition.isRawColumn column
  | _ => false

@[simp] theorem isBlankText_append (s t : String) :
    isBlankText (s ++ t) = (isBlankText s && isBlankText t) := by
  simp [isBlankText]

@[simp] theorem isBlankText_symbol (op : Comparison) : isBlankText op.symbol = false := by
  cases op <;> rfl

theorem isBlankText_join {s : String} (sep : String) (ss : List String)
    (h : isBlankText s = false) : isBlankText (join sep (s :: ss)) = false := by
  cases ss with
  | nil => exact h
  | cons t ss => simp [join, h]

section

variable {scope : Scope} {s s' : ParamSink} {text : String}

theorem isBlankText_bound {left column : String} {op : Comparison} {v : Value}
    (h : renderBound left column op v s = .ok text s') : isBlankText text = false := by
  obtain ⟨placeholder, t, -, h⟩ := bind_eq_ok.1 h
  obtain ⟨rfl, rfl⟩ := pure_eq_ok.1 h
  split <;> simp

theorem isBlankText_comparison {column : String} {op : Comparison} {operand : Operand}
    (h : renderComparison scope column op operand s = .ok text s') : isBlankText text = false := by
  have hin : isBlankText (if op.isNegated then " NOT IN" else " IN") = false := by
    split <;> rfl
  unfold renderComparison at h
  split at h
  · obtain ⟨rfl, -⟩ := pure_eq_ok.1 h
    simp [show isBlankText " IS " = false from rfl]
  · obtain ⟨rfl, -⟩ := pure_eq_ok.1 h
    rfl
  · obtain ⟨rfl, -⟩ := pure_eq_ok.1 h
    simp [hin]
  · obtain ⟨rfl, -⟩ := pure_eq_ok.1 h
    simp
  · obtain ⟨rfl, -⟩ := pure_eq_ok.1 h
    simp
  · split at h
    · obtain ⟨placeholder, t, -, h⟩ := bind_eq_ok.1 h
      obtain ⟨rfl, -⟩ := pure_eq_ok.1 h
      simp
    · exact isBlankText_bound h
  · exact isBlankText_bound h
  · exact isBlankText_bound h

theorem isBlankText_membership {column : String} {values : List Value} {negated : Bool}
    (h : renderMembership scope column values negated s = .ok text s') :
    isBlankText text = false := by
  have hin : isBlankText (if negated then " NOT IN" else " IN") = false := by
    split <;> rfl
  unfold renderMembership at h
  split at h
  · obtain ⟨rfl, -⟩ := pure_eq_ok.1 h
    rfl
  · obtain ⟨placeholders, t, -, h⟩ := bind_eq_ok.1 h
    obtain ⟨rfl, -⟩ := pure_eq_ok.1 h
    simp [hin]

theorem isBlankText_range {column : String} {low high : Value} {negated : Bool}
    (h : renderRange scope column low high negated s = .ok text s') : isBlankText text = false := by
  obtain ⟨lowMark, t, -, h⟩ := bind_eq_ok.1 h
  obtain ⟨highMark, u, -, h⟩ := bind_eq_ok.1 h
  obtain ⟨rfl, -⟩ := pure_eq_ok.1 h
  simp [show isBlankText " AND " = false from rfl]

/-- A character that can be seen is copied, or it is a mark and a placeholder stands for it. -/
theorem expandFrom_seen {sql : String} {quote : Option Char} {own : List Value}
    {cs out : List Char} {s : ParamSink} (h : ParamSink.expandFrom sql quote own cs s = .ok out s')
    (hcs : cs.all isBlank = false) : out.all isBlank = false := by
  induction cs generalizing quote own out s with
  | nil => cases hcs
  | cons c cs ih =>
    rw [List.all_cons, Bool.and_eq_false_iff] at hcs
    cases quote with
    | some q =>
      rw [ParamSink.expandFrom] at h
      obtain ⟨rest, t, hrest, h⟩ := bind_eq_ok.1 h
      obtain ⟨rfl, rfl⟩ := pure_eq_ok.1 h
      rw [List.all_cons, Bool.and_eq_false_iff]
      exact hcs.imp_right (ih hrest)
    | none =>
      rw [ParamSink.expandFrom] at h
      split at h
      · obtain ⟨next, t, -, h⟩ := bind_eq_ok.1 h
        cases next with
        | none => exact absurd h throw_ne_ok
        | some entry =>
          obtain ⟨placeholder, u, hbind, h⟩ := bind_eq_ok.1 h
          obtain ⟨rest, u', -, h⟩ := bind_eq_ok.1 h
          obtain ⟨rfl, rfl⟩ := pure_eq_ok.1 h
          cases hbind
          simp [show isBlank ':' = false from rfl]
      · obtain ⟨rest, t, hrest, h⟩ := bind_eq_ok.1 h
        obtain ⟨rfl, rfl⟩ := pure_eq_ok.1 h
        rw [List.all_cons, Bool.and_eq_false_iff]
        exact hcs.imp_right (ih hrest)

theorem isBlankText_expandRaw {sql : String} {own : List Value}
    (h : ParamSink.expandRaw sql own s = .ok text s') (hsql : isBlankText sql = false) :
    isBlankText text = false := by
  obtain ⟨out, hout, rfl⟩ := map_eq_ok.1 h
  rw [isBlankText, String.toList_ofList]
  exact expandFrom_seen hout hsql

/-- Where SQL text is expected only a list of nothing is blank. -/
theorem isBlankText_rawOperandText {operand : Operand}
    (h : ∀ t ∈ fragmentTexts operand, isBlankText t = false) (hne : operand ≠ .list []) :
    isBlankText (rawOperandText operand) = false := by
  cases operand with
  | list vs =>
    cases vs with
    | nil => exact absurd rfl hne
    | cons v vs => exact isBlankText_join " " _ (h _ List.mem_cons_self)
  | null => exact h _ List.mem_cons_self
  | value v => exact h _ List.mem_cons_self
  | exact v => exact h _ List.mem_cons_self
  | column name => exact h _ List.mem_cons_self
  | raw sql => exact h _ List.mem_cons_self

/-- A leaf whose SQL texts can be seen is written as text that can be seen, unless it is a list of
nothing where SQL text is expected. -/
theorem isBlankText_leaf {c : Condition Query} (hc : ∀ children k, c ≠ .group children k)
    (h : renderCondition scope c s = .ok (some text) s')
    (hwhole : ∀ t ∈ wholeTexts c, isBlankText t = false) :
    isBlankText text = listsNothing c := by
  cases c with
  | group children k => exact absurd rfl (hc children k)
  | basic column operator operand k =>
    rw [renderCondition] at h
    by_cases hraw : Condition.isRawColumn column = true
    · rw [if_pos hraw] at h
      rw [wholeTexts, if_pos hraw] at hwhole
      cases h
      by_cases hempty : operand = .list []
      · subst hempty
        exact hraw.symm
      · rw [isBlankText_rawOperandText hwhole hempty, listsNothing]
        rintro _ _ _ ⟨⟩
        exact hempty rfl
    · have hlists : listsNothing (.basic column operator operand k) = false := by
        unfold listsNothing
        split
        · next heq =>
          cases heq
          simpa using hraw
        · rfl
      rw [if_neg hraw] at h
      rw [hlists]
      cases hop : Comparison.parse operator with
      | error e =>
        rw [hop] at h
        exact absurd h throw_ne_ok
      | ok op =>
        rw [hop] at h
        obtain ⟨written, t, hwritten, h⟩ := bind_eq_ok.1 h
        cases h
        exact isBlankText_comparison hwritten
  | isIn column values negated k =>
    obtain ⟨written, t, hwritten, h⟩ := bind_eq_ok.1 h
    obtain rfl := Option.some.inj (pure_eq_ok.1 h).1
    exact isBlankText_membership hwritten
  | between column low high negated k =>
    obtain ⟨written, t, hwritten, h⟩ := bind_eq_ok.1 h
    obtain rfl := Option.some.inj (pure_eq_ok.1 h).1
    exact isBlankText_range hwritten
  | sub column operator query k =>
    rw [renderCondition] at h
    cases hop : Comparison.parse operator with
    | error e =>
      rw [hop] at h
      exact absurd h throw_ne_ok
    | ok op =>
      rw [hop] at h
      obtain ⟨written, t, -, h⟩ := bind_eq_ok.1 h
      obtain rfl := Option.some.inj (pure_eq_ok.1 h).1
      rw [listsNothing]
      · simp
      · nofun
  | hasRows query negated k =>
    rw [renderCondition] at h
    obtain ⟨written, t, -, h⟩ := bind_eq_ok.1 h
    obtain rfl := Option.some.inj (pure_eq_ok.1 h).1
    rw [listsNothing]
    · simp [show isBlankText "EXISTS (" = false from rfl]
    · nofun
  | raw sql values k =>
    rw [renderCondition] at h
    obtain ⟨written, t, hwritten, h⟩ := bind_eq_ok.1 h
    obtain rfl := Option.some.inj (pure_eq_ok.1 h).1
    exact isBlankText_expandRaw hwritten (hwhole _ List.mem_cons_self)

mutual
theorem not_group_of_mem_leaves : (c : Condition Query) → ∀ leaf ∈ leaves c,
    ∀ children k, leaf ≠ .group children k
  | .group children _ => not_group_of_mem_allLeaves children
  | .basic .. | .isIn .. | .between .. | .sub .. | .hasRows .. | .raw .. => by
    rintro leaf hleaf _ _ rfl
    cases List.mem_singleton.1 hleaf
theorem not_group_of_mem_allLeaves : (cs : List (Condition Query)) → ∀ leaf ∈ allLeaves cs,
    ∀ children k, leaf ≠ .group children k
  | [] => nofun
  | c :: cs => fun leaf hleaf =>
    (List.mem_append.1 hleaf).elim (not_group_of_mem_leaves c leaf)
      (not_group_of_mem_allLeaves cs leaf)
end

/-- Of leaves written one after another all can be seen unless one of them lists nothing. -/
theorem all_seen_iff {cs : List (Condition Query)} {flat : Clauses}
    (hcs : ∀ c ∈ cs, ∀ children k, c ≠ .group children k)
    (h : renderConditions scope cs s = .ok flat s')
    (hwhole : ∀ c ∈ cs, ∀ t ∈ wholeTexts c, isBlankText t = false) :
    (∀ clause ∈ flat, isBlankText clause.2 = false) ↔ ∀ c ∈ cs, listsNothing c = false := by
  induction cs generalizing s flat with
  | nil =>
    obtain ⟨rfl, -⟩ := pure_eq_ok.1 h
    exact iff_of_true nofun nofun
  | cons c cs ih =>
    obtain ⟨text, t, hc, h⟩ := bind_eq_ok.1 h
    obtain ⟨others, t', hothers, h⟩ := bind_eq_ok.1 h
    obtain ⟨text, rfl⟩ := isSome_renderCondition (hcs c List.mem_cons_self) hc
    obtain ⟨rfl, rfl⟩ := pure_eq_ok.1 h
    have hfirst := isBlankText_leaf (hcs c List.mem_cons_self) hc (hwhole c List.mem_cons_self)
    have hrest := ih (fun c hc => hcs c (List.mem_cons_of_mem _ hc)) hothers
      fun c hc => hwhole c (List.mem_cons_of_mem _ hc)
    simp only [List.forall_mem_cons, hfirst, hrest]

/-! ## Predicates from their leaves -/

theorem renderConditions_append_of_ok {as bs : List (Condition Query)} {first others : Clauses}
    {t : ParamSink} (h : renderConditions scope as s = .ok first t)
    (h' : renderConditions scope bs t = .ok others s') :
    renderConditions scope (as ++ bs) s = .ok (first ++ others) s' := by
  induction as generalizing s first with
  | nil =>
    obtain ⟨rfl, rfl⟩ := pure_eq_ok.1 h
    exact h'
  | cons a as ih =>
    obtain ⟨text, u, ha, h⟩ := bind_eq_ok.1 h
    obtain ⟨rest, u', hrest, h⟩ := bind_eq_ok.1 h
    obtain ⟨rfl, rfl⟩ := pure_eq_ok.1 h
    rw [List.cons_append, renderConditions, Run.bind_of_ok ha, Run.bind_of_ok (ih hrest)]
    cases text <;> rfl

theorem renderConditions_singleton {c : Condition Query} {text : Option String}
    (h : renderCondition scope c s = .ok text s') :
    ∃ flat, renderConditions scope [c] s = .ok flat s' := by
  rw [renderConditions, Run.bind_of_ok h]
  exact ⟨_, rfl⟩

mutual
/-- What is written is written leaf by leaf. -/
theorem renderCondition_leaves : (c : Condition Query) →
    ∀ ⦃s text s'⦄, renderCondition scope c s = .ok text s' →
      ∃ flat, renderConditions scope (leaves c) s = .ok flat s'
  | .group children k => by
    intro s text s' h
    obtain ⟨clauses, t, hchildren, h⟩ := bind_eq_ok.1 h
    obtain ⟨-, rfl⟩ := pure_eq_ok.1 h
    exact renderConditions_leaves children hchildren
  | .basic .. | .isIn .. | .between .. | .sub .. | .hasRows .. | .raw .. =>
    fun _ _ _ => renderConditions_singleton
theorem renderConditions_leaves : (cs : List (Condition Query)) →
    ∀ ⦃s clauses s'⦄, renderConditions scope cs s = .ok clauses s' →
      ∃ flat, renderConditions scope (allLeaves cs) s = .ok flat s'
  | [] => fun _ clauses _ h => ⟨clauses, h⟩
  | c :: cs => by
    intro s clauses s' h
    obtain ⟨text, t, hc, h⟩ := bind_eq_ok.1 h
    obtain ⟨rest, t', hcs, h⟩ := bind_eq_ok.1 h
    obtain ⟨-, rfl⟩ := pure_eq_ok.1 h
    obtain ⟨first, hfirst⟩ := renderCondition_leaves c hc
    obtain ⟨others, hothers⟩ := renderConditions_leaves cs hcs
    exact ⟨_, renderConditions_append_of_ok hfirst hothers⟩
end

/-- The predicate that conditions are, from the texts of their leaves. -/
def predicateText (cs : List (Condition Query)) (flat : Clauses) : String :=
  (clausesOf (textAt flat) (siblings 0 cs)).text

/-- A keyword and its predicate if there is a leaf, and nothing otherwise. -/
def announced (keyword : String) (cs : List (Condition Query)) (flat : Clauses) : String :=
  if (allLeaves cs).isEmpty then "" else keyword ++ predicateText cs flat

theorem predicateText_eq_empty_iff {cs : List (Condition Query)} {flat : Clauses} :
    predicateText cs flat = "" ↔ allLeaves cs = [] := by
  rw [predicateText, ← siblings_eq_none_iff (n := 0)]
  cases siblings 0 cs with
  | none => exact iff_of_true rfl rfl
  | some ms => exact iff_of_false (Grouping.text_group_ne_empty ms) nofun

/-- Conditions are written as the predicate that their leaves make up. -/
theorem exists_leaves_of_renderConditions {cs : List (Condition Query)} {clauses : Clauses}
    (h : renderConditions scope cs s = .ok clauses s') :
    ∃ flat, renderConditions scope (allLeaves cs) s = .ok flat s' ∧
      clauses.text = predicateText cs flat := by
  obtain ⟨flat, hflat⟩ := renderConditions_leaves cs h
  have hrun := (renderConditions_eq cs hflat (supplies_textAt flat)).2
  rw [h] at hrun
  cases hrun
  exact ⟨flat, hflat, rfl⟩

/-- A keyword that is written by what was rendered stands just when there is a leaf. -/
theorem afterKeyword_predicateText (keyword : String) (cs : List (Condition Query))
    (flat : Clauses) :
    afterKeyword keyword (predicateText cs flat) = announced keyword cs flat := by
  simp only [afterKeyword, announced, String.isEmpty_iff, List.isEmpty_iff,
    predicateText_eq_empty_iff]

end

/-! ## Joins -/

/-- The conditions of a join that are written; a cross join has none. -/
def onConditions (j : Join Query) : List (Condition Query) :=
  if j.kind = .cross then [] else j.conditions

def listedOn (j : Join Query) (flat : Clauses) : String :=
  if (onConditions j).isEmpty then "" else " ON " ++ predicateText (onConditions j) flat

/-- Whether a join has conditions, but only empty groups. -/
def dangles (j : Join Query) : Bool :=
  !(onConditions j).isEmpty && (allLeaves (onConditions j)).isEmpty

def renderJoinPieces (d : Dialect) : List (Join Query) → Render (List (String × Clauses))
  | [] => pure []
  | j :: rest => do
    let source ← renderSource d j.target
    let flat ← renderConditions { dialect := d } (allLeaves (onConditions j))
    let others ← renderJoinPieces d rest
    return (source, flat) :: others

def joinTexts (on : Join Query → Clauses → String) (joins : List (Join Query))
    (pieces : List (String × Clauses)) : List String :=
  List.zipWith (fun j piece => " " ++ j.kind.keywords ++ " " ++ piece.1 ++ on j piece.2)
    joins pieces

variable {d : Dialect} {s s' : ParamSink}

theorem renderJoins_pieces {joins : List (Join Query)} {joined : List String}
    (h : renderJoins d joins s = .ok joined s') :
    ∃ pieces, renderJoinPieces d joins s = .ok pieces s' ∧
      joined = joinTexts listedOn joins pieces := by
  induction joins generalizing s joined with
  | nil =>
    obtain ⟨rfl, rfl⟩ := pure_eq_ok.1 h
    exact ⟨[], rfl, rfl⟩
  | cons j rest ih =>
    obtain ⟨kind, target, conditions⟩ := j
    obtain ⟨source, t, clauses, u, others, hsource, hclauses, hothers, rfl⟩ :=
      renderJoins_cons_eq_ok h
    obtain ⟨pieces, hpieces, rfl⟩ := ih hothers
    obtain ⟨flat, hflat, htext⟩ : ∃ flat, renderConditions { dialect := d }
        (allLeaves (onConditions ⟨kind, target, conditions⟩)) t = .ok flat u ∧
        onText kind conditions clauses = listedOn ⟨kind, target, conditions⟩ flat := by
      rcases hclauses with ⟨hcross, rfl⟩ | ⟨hcross, hclauses⟩
      · refine ⟨[], ?_, by simp [onText, listedOn, onConditions, hcross]⟩
        rw [onConditions, if_pos hcross]
        rfl
      · obtain ⟨flat, hflat, htext⟩ := exists_leaves_of_renderConditions hclauses
        refine ⟨flat, ?_, by simp [onText, listedOn, onConditions, hcross, htext]⟩
        rwa [onConditions, if_neg hcross]
    refine ⟨(source, flat) :: pieces, ?_, ?_⟩
    · rw [renderJoinPieces, Run.bind_of_ok hsource, Run.bind_of_ok hflat, Run.bind_of_ok hpieces]
      rfl
    · rw [htext]
      rfl

theorem length_renderJoinPieces {joins : List (Join Query)} {pieces : List (String × Clauses)}
    (h : renderJoinPieces d joins s = .ok pieces s') : pieces.length = joins.length := by
  induction joins generalizing s pieces with
  | nil =>
    obtain ⟨rfl, -⟩ := pure_eq_ok.1 h
    rfl
  | cons j rest ih =>
    obtain ⟨source, t, -, h⟩ := bind_eq_ok.1 h
    obtain ⟨flat, u, -, h⟩ := bind_eq_ok.1 h
    obtain ⟨others, v, hothers, h⟩ := bind_eq_ok.1 h
    obtain ⟨rfl, rfl⟩ := pure_eq_ok.1 h
    rw [List.length_cons, List.length_cons, ih hothers]

theorem joinPieces_seen_iff {joins : List (Join Query)} {pieces : List (String × Clauses)}
    (h : renderJoinPieces d joins s = .ok pieces s')
    (hwhole : ∀ c ∈ joins.flatMap fun j => allLeaves (onConditions j),
      ∀ t ∈ wholeTexts c, isBlankText t = false) :
    (∀ clause ∈ pieces.flatMap Prod.snd, isBlankText clause.2 = false) ↔
      ∀ c ∈ joins.flatMap fun j => allLeaves (onConditions j), listsNothing c = false := by
  induction joins generalizing s pieces with
  | nil =>
    obtain ⟨rfl, -⟩ := pure_eq_ok.1 h
    exact iff_of_true nofun nofun
  | cons j rest ih =>
    obtain ⟨source, t, -, h⟩ := bind_eq_ok.1 h
    obtain ⟨flat, u, hflat, h⟩ := bind_eq_ok.1 h
    obtain ⟨others, v, hothers, h⟩ := bind_eq_ok.1 h
    obtain ⟨rfl, rfl⟩ := pure_eq_ok.1 h
    simp only [List.flatMap_cons, List.forall_mem_append] at hwhole ⊢
    rw [all_seen_iff (not_group_of_mem_allLeaves _) hflat hwhole.1, ih hothers hwhole.2]

/-- The text behind the source of a join is what its leaves announce, unless the join dangles. -/
theorem listedOn_eq (j : Join Query) (flat : Clauses) :
    listedOn j flat =
      if dangles j then " ON " else announced " ON " (onConditions j) flat := by
  unfold listedOn dangles announced
  by_cases hlisted : (onConditions j).isEmpty = true
  · rw [List.isEmpty_iff.1 hlisted]
    rfl
  · by_cases hleaf : allLeaves (onConditions j) = []
    · simp [hlisted, hleaf, predicateText_eq_empty_iff.2 hleaf]
    · simp [hlisted, hleaf]

/-- Each join that dangles adds the four characters of the keyword. -/
theorem length_joinTexts (joins : List (Join Query)) (pieces : List (String × Clauses))
    (h : pieces.length = joins.length) :
    (concatenated (joinTexts listedOn joins pieces)).length =
      (concatenated (joinTexts (fun j => announced " ON " (onConditions j)) joins pieces)).length +
        4 * joins.countP dangles := by
  induction joins generalizing pieces with
  | nil => rfl
  | cons j rest ih =>
    cases pieces with
    | nil => cases h
    | cons piece pieces =>
      have hrest := ih pieces (Nat.succ.inj h)
      simp only [joinTexts, List.zipWith_cons_cons, concatenated_cons, String.length_append]
        at hrest ⊢
      rw [hrest, listedOn_eq, List.countP_cons]
      by_cases hj : dangles j = true
      · have hleaf : (allLeaves (onConditions j)).isEmpty = true := by
          unfold dangles at hj
          exact (Bool.and_eq_true_iff.1 hj).2
        have hnone : announced " ON " (onConditions j) piece.2 = "" := by
          rw [announced, if_pos hleaf]
        rw [hnone, if_pos hj, if_pos hj]
        show _ + 4 + _ = _ + 0 + _ + _
        omega
      · rw [if_neg hj, if_neg hj]
        omega

theorem joinTexts_of_not_dangles {joins : List (Join Query)}
    (h : ∀ j ∈ joins, dangles j = false) (pieces : List (String × Clauses)) :
    joinTexts listedOn joins pieces =
      joinTexts (fun j => announced " ON " (onConditions j)) joins pieces := by
  induction joins generalizing pieces with
  | nil => rfl
  | cons j rest ih =>
    cases pieces with
    | nil => rfl
    | cons piece pieces =>
      have hrest := ih (fun j hj => h j (List.mem_cons_of_mem _ hj)) pieces
      have hj : ¬ dangles j = true := by simp [h j List.mem_cons_self]
      simp only [joinTexts, List.zipWith_cons_cons] at hrest ⊢
      rw [hrest, listedOn_eq, if_neg hj]

/-! ## Queries -/

/-- What the text of a query is made of, with the leaves of its conditions. -/
structure QueryPieces where
  selected : List String
  sources : List String
  joins : List (String × Clauses)
  filter : Clauses
  having : Clauses
  ordered : List String
  united : List String

def renderPieces (d : Dialect) (q : Query) : Render QueryPieces := do
  let selected ← inClause .select (Bindings.get q.given .select) (renderColumns d q.columns)
  let sources ← inClause .source (Bindings.get q.given .source) (renderSources d q.sources)
  let joins ← inClause .join (Bindings.get q.given .join) (renderJoinPieces d q.joins)
  let filter ← inClause .filter (Bindings.get q.given .filter)
    (renderConditions { dialect := d, table := q.baseAlias } (allLeaves q.wheres))
  let having ← inClause .having (Bindings.get q.given .having)
    (renderConditions { dialect := d } (allLeaves q.havings))
  let ordered ← inClause .order (Bindings.get q.given .order) (renderOrders d q.orders)
  let united ← inClause .union (Bindings.get q.given .union) (renderUnions d q.unions)
  return { selected, sources, joins, filter, having, ordered, united }

namespace QueryPieces

def leafClauses (p : QueryPieces) : Clauses := p.joins.flatMap Prod.snd ++ p.filter ++ p.having

def text (p : QueryPieces) (d : Dialect) (q : Query) (on : Join Query → Clauses → String) :
    String :=
  "SELECT " ++ (if q.distinct then "DISTINCT " else "") ++
    (if q.columns.isEmpty then "*" else join ", " p.selected) ++
    " FROM " ++ join ", " p.sources ++
    concatenated (joinTexts on q.joins p.joins ++
      (neededRelations q).map fun r => " " ++ relationJoinText d r) ++
    announced " WHERE " q.wheres p.filter ++ groupText d q.groups ++
    announced " HAVING " q.havings p.having ++
    (if q.orders.isEmpty then "" else " ORDER BY " ++ join ", " p.ordered) ++
    limitText d q.limit q.offset ++ concatenated p.united

/-- The text in which each keyword stands just before a predicate. -/
def announcedText (p : QueryPieces) (d : Dialect) (q : Query) : String :=
  p.text d q fun j => announced " ON " (onConditions j)

end QueryPieces

/-- The leaves of all conditions that a query writes behind a keyword. -/
def predicateLeaves (q : Query) : List (Condition Query) :=
  (q.joins.flatMap fun j => allLeaves (onConditions j)) ++ allLeaves q.wheres ++ allLeaves q.havings

theorem inClause_of_ok {α β : Type} {R : α → β → Prop} {c : Category} {given : List Value}
    {x : Render α} {y : Render β} {a : α}
    (hxy : ∀ ⦃s a s'⦄, x s = .ok a s' → ∃ b, y s = .ok b s' ∧ R a b)
    (h : inClause c given x s = .ok a s') : ∃ b, inClause c given y s = .ok b s' ∧ R a b := by
  obtain ⟨t, hx, hpending, rfl⟩ := inClause_eq_ok.1 h
  obtain ⟨b, hy, hR⟩ := hxy hx
  exact ⟨b, inClause_eq_ok.2 ⟨t, hy, hpending, rfl⟩, hR⟩

theorem concatenated_append (ts us : List String) :
    concatenated (ts ++ us) = concatenated ts ++ concatenated us := by
  induction ts with
  | nil => simp [concatenated]
  | cons t ts ih =>
    rw [List.cons_append, concatenated_cons, concatenated_cons, ih, String.append_assoc]

section

variable {q : Query} {p : QueryPieces} {text : String}

/-- A query is written from its pieces: WHERE and HAVING by their leaves, ON by what is listed. -/
theorem renderQuery_pieces (h : renderQuery d q s = .ok text s') :
    ∃ p, renderPieces d q s = .ok p s' ∧ text = p.text d q listedOn := by
  obtain ⟨p, rfl, s₁, s₂, s₃, s₄, s₅, s₆, hselected, hsources, hjoined, hfilter, hhaving, hordered,
    hunited⟩ := renderQuery_eq_ok h
  obtain ⟨joins, hjoins, hjointexts⟩ := inClause_of_ok (fun _ _ _ => renderJoins_pieces) hjoined
  obtain ⟨filter, hwheres, hwhere⟩ :=
    inClause_of_ok (fun _ _ _ => exists_leaves_of_renderConditions) hfilter
  obtain ⟨having, hhavings, hhaving'⟩ :=
    inClause_of_ok (fun _ _ _ => exists_leaves_of_renderConditions) hhaving
  refine ⟨⟨p.selected, p.sources, joins, filter, having, p.ordered, p.united⟩, ?_, ?_⟩
  · rw [renderPieces, Run.bind_of_ok hselected, Run.bind_of_ok hsources, Run.bind_of_ok hjoins,
      Run.bind_of_ok hwheres, Run.bind_of_ok hhavings, Run.bind_of_ok hordered,
      Run.bind_of_ok hunited]
    rfl
  · unfold QueryParts.text QueryPieces.text
    dsimp only
    rw [hjointexts, hwhere, hhaving', afterKeyword_predicateText, afterKeyword_predicateText]

theorem renderPieces_eq_ok (h : renderPieces d q s = .ok p s') :
    (∃ t t', renderJoinPieces d q.joins t = .ok p.joins t') ∧
    (∃ t t', renderConditions { dialect := d, table := q.baseAlias } (allLeaves q.wheres) t =
      .ok p.filter t') ∧
    ∃ t t', renderConditions { dialect := d } (allLeaves q.havings) t = .ok p.having t' := by
  obtain ⟨_, _, -, h⟩ := bind_eq_ok.1 h
  obtain ⟨_, _, -, h⟩ := bind_eq_ok.1 h
  obtain ⟨joins, _, hjoins, h⟩ := bind_eq_ok.1 h
  obtain ⟨filter, _, hfilter, h⟩ := bind_eq_ok.1 h
  obtain ⟨having, _, hhaving, h⟩ := bind_eq_ok.1 h
  obtain ⟨_, _, -, h⟩ := bind_eq_ok.1 h
  obtain ⟨_, _, -, h⟩ := bind_eq_ok.1 h
  obtain ⟨rfl, -⟩ := pure_eq_ok.1 h
  obtain ⟨_, hjoins, -⟩ := inClause_eq_ok.1 hjoins
  obtain ⟨_, hfilter, -⟩ := inClause_eq_ok.1 hfilter
  obtain ⟨_, hhaving, -⟩ := inClause_eq_ok.1 hhaving
  exact ⟨⟨_, _, hjoins⟩, ⟨_, _, hfilter⟩, _, _, hhaving⟩

theorem leafClauses_seen_iff (h : renderPieces d q s = .ok p s')
    (hwhole : ∀ c ∈ predicateLeaves q, ∀ t ∈ wholeTexts c, isBlankText t = false) :
    (∀ clause ∈ p.leafClauses, isBlankText clause.2 = false) ↔
      ∀ c ∈ predicateLeaves q, listsNothing c = false := by
  obtain ⟨⟨_, _, hjoins⟩, ⟨_, _, hfilter⟩, _, _, hhaving⟩ := renderPieces_eq_ok h
  simp only [predicateLeaves, QueryPieces.leafClauses, List.forall_mem_append] at hwhole ⊢
  rw [joinPieces_seen_iff hjoins hwhole.1.1,
    all_seen_iff (not_group_of_mem_allLeaves _) hfilter hwhole.1.2,
    all_seen_iff (not_group_of_mem_allLeaves _) hhaving hwhole.2]

theorem text_eq_announcedText_iff (h : p.joins.length = q.joins.length) :
    p.text d q listedOn = p.announcedText d q ↔ ∀ j ∈ q.joins, dangles j = false := by
  constructor
  · intro htext
    have hlength := congrArg String.length htext
    have hjoins := length_joinTexts q.joins p.joins h
    unfold QueryPieces.announcedText QueryPieces.text at hlength
    simp only [concatenated_append, String.length_append] at hlength
    have hcount : q.joins.countP dangles = 0 := by omega
    intro j hj
    simpa using List.countP_eq_zero.1 hcount j hj
  · intro hnone
    unfold QueryPieces.announcedText QueryPieces.text
    rw [joinTexts_of_not_dangles hnone]

/-- A query that is written has each keyword just before a predicate whose leaves can all be seen
just when no join lists empty groups only, and no leaf lists nothing where SQL text is expected. -/
theorem renderQuery_announced_iff (h : renderQuery d q s = .ok text s')
    (hwhole : ∀ c ∈ predicateLeaves q, ∀ t ∈ wholeTexts c, isBlankText t = false) :
    ∃ p, renderPieces d q s = .ok p s' ∧ text = p.text d q listedOn ∧
      ((text = p.announcedText d q ∧ ∀ clause ∈ p.leafClauses, isBlankText clause.2 = false) ↔
        (∀ j ∈ q.joins, dangles j = false) ∧ ∀ c ∈ predicateLeaves q, listsNothing c = false) := by
  obtain ⟨p, hp, rfl⟩ := renderQuery_pieces h
  obtain ⟨⟨_, _, hjoins⟩, -, -⟩ := renderPieces_eq_ok hp
  refine ⟨p, hp, rfl, ?_⟩
  rw [text_eq_announcedText_iff (length_renderJoinPieces hjoins), leafClauses_seen_iff hp hwhole]

end

/-- Groups in all three places, a cross join, and empty groups beside leaves and without one. -/
def groupedQuery : Query where
  sources := [.table "t"]
  joins := [⟨.inner, .table "u", [.group [] .or, .group [.equals "a" .null] .or]⟩,
    ⟨.cross, .table "v", [.group [] .and]⟩]
  wheres := [.group [.group [] .and] .and]
  havings := [.group [.rawText "b"] .and]

theorem groupedQuery_announced : ∃ s p, renderPieces .postgres groupedQuery {} = .ok p s ∧
    p.announcedText .postgres groupedQuery =
      "SELECT * FROM t INNER JOIN u ON ((a IS NULL)) CROSS JOIN v HAVING ((b))" ∧
    ∀ clause ∈ p.leafClauses, isBlankText clause.2 = false := by
  have hread : Run.value? (renderQuery .postgres groupedQuery {}) =
      some "SELECT * FROM t INNER JOIN u ON ((a IS NULL)) CROSS JOIN v HAVING ((b))" := by
    decide +kernel
  have hrun := Run.eq_ok_of_value? hread
  have hwhole : ∀ c ∈ predicateLeaves groupedQuery, ∀ t ∈ wholeTexts c, isBlankText t = false := by
    rintro c (_ | ⟨_, _ | ⟨_, ⟨⟩⟩⟩) t ht
    · cases ht
    · cases List.mem_singleton.1 ht
      rfl
  have hlisted : ∀ c ∈ predicateLeaves groupedQuery, listsNothing c = false := by
    rintro c (_ | ⟨_, _ | ⟨_, ⟨⟩⟩⟩) <;> rfl
  have hjoins : ∀ j ∈ groupedQuery.joins, dangles j = false := by
    rintro j (_ | ⟨_, _ | ⟨_, ⟨⟩⟩⟩) <;> rfl
  obtain ⟨p, hp, -, hiff⟩ := renderQuery_announced_iff hrun hwhole
  obtain ⟨htext, hseen⟩ := hiff.2 ⟨hjoins, hlisted⟩
  exact ⟨_, p, hp, htext.symm, hseen⟩

/-- A join with an empty group, and one with a list of nothing as its SQL text. -/
def danglingJoin : Query where
  sources := [.table "t"]
  joins := [⟨.inner, .table "u", [.group [] .and]⟩]

def hollowJoin : Query where
  sources := [.table "t"]
  joins := [⟨.inner, .table "u", [.equals "raw" (.list [])]⟩]

/-- The keyword stands without a predicate where there is no leaf, and before one of nothing where
there is a leaf. -/
theorem danglingJoin_keyword_alone :
    (predicateLeaves danglingJoin = [] ∧
      (Statement.ofQuery .postgres danglingJoin).toOption.map Statement.sql =
        some "SELECT * FROM t INNER JOIN u ON ") ∧
    predicateLeaves hollowJoin = [.equals "raw" (.list [])] ∧
      (predicateLeaves hollowJoin).flatMap wholeTexts = [] ∧
      (Statement.ofQuery .postgres hollowJoin).toOption.map Statement.sql =
        some "SELECT * FROM t INNER JOIN u ON ()" :=
  ⟨⟨rfl, by decide +kernel⟩, rfl, rfl, by decide +kernel⟩

end RowMapper.Sql
