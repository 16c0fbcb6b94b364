import RowMapper.Proofs.Render.Runs

/-! # Rendering without the values

A query whose bound values are taken out renders as the query itself does, with the
same names and the same errors. What stays besides the shape of the query is what
rendering reads of a value: the literals of a list, the operand of a column whose
name announces SQL text, and whether a compared text has a star.
-/

namespace RowMapper

/-! ## Values taken out -/

def redactValues (values : List Value) : List Value := values.map fun _ => .null

theorem redactValues_eq_iff {values others : List Value} :
    redactValues values = redactValues others ↔ values.length = others.length := by
  simp [redactValues, List.map_const', List.replicate_inj]

@[simp] theorem redactValues_idem (values : List Value) :
    redactValues (redactValues values) = redactValues values := by
  simp [redactValues]

/-- An operand without the content of its bound value; a compared text keeps its star. -/
def Operand.redact : Operand → Operand
  | .value (.text s) => .value (if s.toList.contains '*' then .text "*" else .null)
  | .value _ => .value .null
  | .exact _ => .exact .null
  | operand => operand

def OrderItem.redact : OrderItem → OrderItem
  | .column name direction => .column name direction
  | .raw sql values => .raw sql (redactValues values)

mutual
def Query.redact : Query → Query
  | ⟨columns, distinct, sources, joins, wheres, groups, havings, orders, limit, offset, unions,
      given, indexKey, relations, connection, error⟩ =>
    ⟨redactColumns columns, distinct, redactSources sources, redactJoins joins,
      redactConditions wheres, groups, redactConditions havings, orders.map OrderItem.redact,
      limit, offset, redactUnions unions, given.map fun entry => (entry.1, .null), indexKey,
      relations, connection, error⟩
def redactColumns : List (SelectItem Query) → List (SelectItem Query)
  | [] => []
  | .column text :: rest => .column text :: redactColumns rest
  | .raw sql values :: rest => .raw sql (redactValues values) :: redactColumns rest
  | .sub query asName :: rest => .sub query.redact asName :: redactColumns rest
def redactSource : Source Query → Source Query
  | .table name => .table name
  | .sub query asName => .sub query.redact asName
def redactSources : List (Source Query) → List (Source Query)
  | [] => []
  | source :: rest => redactSource source :: redactSources rest
def redactJoins : List (Join Query) → List (Join Query)
  | [] => []
  | ⟨kind, target, conditions⟩ :: rest =>
    ⟨kind, redactSource target, redactConditions conditions⟩ :: redactJoins rest
def redactConditions : List (Condition Query) → List (Condition Query)
  | [] => []
  | c :: cs => redactCondition c :: redactConditions cs
def redactCondition : Condition Query → Condition Query
  | .basic column operator operand c =>
    .basic column operator (if Condition.isRawColumn column then operand else operand.redact) c
  | .isIn column values negated c => .isIn column (redactValues values) negated c
  | .between column _ _ negated c => .between column .null .null negated c
  | .group children c => .group (redactConditions children) c
  | .sub column operator query c => .sub column operator query.redact c
  | .hasRows query negated c => .hasRows query.redact negated c
  | .raw sql values c => .raw sql (redactValues values) c
def redactUnions : List (Query × Bool) → List (Query × Bool)
  | [] => []
  | (query, keepRepeats) :: rest => (query.redact, keepRepeats) :: redactUnions rest
end

/-! ## What taking values out leaves -/

@[simp] theorem connective_redactCondition (c : Condition Query) :
    (redactCondition c).connective = c.connective := by
  cases c <;> rfl

@[simp] theorem asName_redactSource (source : Source Query) :
    (redactSource source).asName = source.asName := by
  cases source <;> rfl

@[simp] theorem isEmpty_redactColumns (columns : List (SelectItem Query)) :
    (redactColumns columns).isEmpty = columns.isEmpty := by
  rcases columns with _ | ⟨item, rest⟩
  · rfl
  · cases item <;> rfl

@[simp] theorem isEmpty_redactSources (sources : List (Source Query)) :
    (redactSources sources).isEmpty = sources.isEmpty := by
  cases sources <;> rfl

@[simp] theorem isEmpty_redactConditions (conditions : List (Condition Query)) :
    (redactConditions conditions).isEmpty = conditions.isEmpty := by
  cases conditions <;> rfl

theorem redactConditions_append (cs cs' : List (Condition Query)) :
    redactConditions (cs ++ cs') = redactConditions cs ++ redactConditions cs' := by
  induction cs with
  | nil => rfl
  | cons c cs ih => simp [redactConditions, ih]

theorem baseAlias_redact (q : Query) : q.redact.baseAlias = q.baseAlias := by
  rcases q with ⟨_, _, sources, _⟩
  cases sources <;> simp [Query.redact, Query.baseAlias, redactSources]

theorem joinNames_redact (joins : List (Join Query)) :
    ((redactJoins joins).map fun j => j.target.asName) = joins.map fun j => j.target.asName := by
  induction joins with
  | nil => rfl
  | cons j rest ih => simp [redactJoins, ih]

namespace Sql

theorem orderColumns_redact (orders : List OrderItem) :
    orderColumns (orders.map OrderItem.redact) = orderColumns orders := by
  induction orders with
  | nil => rfl
  | cons order rest ih =>
    rw [orderColumns] at ih ⊢
    cases order <;> simp [OrderItem.redact, orderColumns, ih]

mutual
theorem mentionedColumns_redact :
    (c : Condition Query) → mentionedColumns (redactCondition c) = mentionedColumns c
  | .basic column _ operand _ => by
    rw [redactCondition]
    split
    · rfl
    · cases operand with
      | value v => cases v <;> rfl
      | _ => rfl
  | .isIn _ _ _ _ => rfl
  | .between _ _ _ _ _ => rfl
  | .group children _ => allMentionedColumns_redact children
  | .sub _ _ _ _ => rfl
  | .hasRows _ _ _ => rfl
  | .raw _ _ _ => rfl
theorem allMentionedColumns_redact : (cs : List (Condition Query)) →
    allMentionedColumns (redactConditions cs) = allMentionedColumns cs
  | [] => rfl
  | c :: cs => by
    rw [redactConditions, allMentionedColumns, allMentionedColumns, mentionedColumns_redact c,
      allMentionedColumns_redact cs]
end

theorem neededRelations_redact (q : Query) : neededRelations q.redact = neededRelations q := by
  rcases q with ⟨_, _, _, joins, wheres, _, _, orders, _⟩
  simp only [Query.redact, neededRelations, allMentionedColumns_redact, orderColumns_redact,
    joinNames_redact]

theorem get_redact (given : Bindings) (c : Category) :
    Bindings.get (given.map fun entry => (entry.1, Value.null)) c =
      redactValues (Bindings.get given c) := by
  simp [Bindings.get, redactValues, List.filter_map, Function.comp_def]

/-! ## Two renderings that differ in values only -/

def ParamSink.redact (s : ParamSink) : ParamSink :=
  { s with
    parameters := s.parameters.map fun p => { p with value := .null }
    pending := redactValues s.pending }

theorem ParamSink.isUsed_redact (s : ParamSink) (name : String) :
    s.redact.isUsed name = s.isUsed name := by
  simp [ParamSink.isUsed, ParamSink.redact, Function.comp_def]

theorem ParamSink.nextNumber_redact (s : ParamSink) (base : String) :
    s.redact.nextNumber base = s.nextNumber base := by
  have search : ∀ fuel n, s.redact.freeNumber base n fuel = s.freeNumber base n fuel := by
    intro fuel
    induction fuel with
    | zero => intro n; rfl
    | succ fuel ih => intro n; simp only [freeNumber, isUsed_redact, ih]
  rw [nextNumber, search]
  simp [nextNumber, ParamSink.redact]

namespace Render

variable {α β : Type}

def redactResult : EStateM.Result Error ParamSink α → EStateM.Result Error ParamSink α
  | .ok a s => .ok a s.redact
  | .error e s => .error e s.redact

/-- From parameters that differ in their values only, both runs end alike: with the same text or
the same error, and again with parameters that differ in their values only. -/
def Agree (x y : Render α) : Prop :=
  ∀ ⦃s t : ParamSink⦄, s.redact = t.redact → redactResult (x s) = redactResult (y t)

namespace Agree

theorem symm {x y : Render α} (h : Agree x y) : Agree y x :=
  fun _ _ hst => (h hst.symm).symm

theorem trans {x y z : Render α} (h : Agree x y) (h' : Agree y z) : Agree x z :=
  fun _ _ hst => (h hst).trans (h' rfl)

theorem result (a : α) : Agree (pure a) (pure a) := by
  intro s t h
  exact congrArg (EStateM.Result.ok a) h

theorem throw (e : Error) : Agree (throw e : Render α) (throw e) := by
  intro s t h
  exact congrArg (EStateM.Result.error e) h

theorem seq {x y : Render α} {f g : α → Render β} (hx : Agree x y) (hf : ∀ a, Agree (f a) (g a)) :
    Agree (x >>= f) (y >>= g) := by
  intro s t h
  have hxy := hx h
  simp only [bind, EStateM.bind]
  cases hs : x s with
  | ok a s' =>
    cases ht : y t with
    | ok b t' =>
      simp only [hs, ht, redactResult, EStateM.Result.ok.injEq] at hxy
      rcases hxy with ⟨rfl, hst⟩
      exact hf a hst
    | error e t' => simp [hs, ht, redactResult] at hxy
  | error e s' =>
    cases ht : y t with
    | ok b t' => simp [hs, ht, redactResult] at hxy
    | error e' t' => simpa [hs, ht, redactResult] using hxy

theorem map {x y : Render α} (h : Agree x y) (f : α → β) : Agree (f <$> x) (f <$> y) := by
  rw [← bind_pure_comp, ← bind_pure_comp]
  exact h.seq fun a => result (f a)

theorem bind (column : String) (v w : Value) :
    Agree (ParamSink.bind column v) (ParamSink.bind column w) := by
  intro s t h
  have hnumber : s.nextNumber (ParamSink.baseName column) =
      t.nextNumber (ParamSink.baseName column) := by
    rw [← s.nextNumber_redact, h, t.nextNumber_redact]
  simp only [ParamSink.redact, ParamSink.mk.injEq] at h
  simp [ParamSink.bind, redactResult, ParamSink.redact, hnumber, h]

theorem close {frame frame' : Frame} (hcategory : frame.category = frame'.category)
    (hpending : redactValues frame.pending = redactValues frame'.pending) :
    Agree (ParamSink.closeClause frame) (ParamSink.closeClause frame') := by
  intro s t h
  simp only [ParamSink.redact, ParamSink.mk.injEq, redactValues_eq_iff] at h
  rcases h with ⟨hcounters, hparameters, -, hdepth, hlength⟩
  have hempty : s.pending.isEmpty = t.pending.isEmpty := by
    rw [Bool.eq_iff_iff, List.isEmpty_iff_length_eq_zero, List.isEmpty_iff_length_eq_zero, hlength]
  rw [ParamSink.closeClause, ParamSink.closeClause, hempty]
  split <;>
    simp [redactResult, ParamSink.redact, ParamSink.restore, hcounters, hparameters, hdepth,
      hlength, hcategory, hpending]

theorem within (c : Category) {given given' : List Value} {x y : Render α}
    (hgiven : redactValues given = redactValues given') (h : Agree x y) :
    Agree (inClause c given x) (inClause c given' y) := by
  intro s t hst
  have hframe := hst
  simp only [ParamSink.redact, ParamSink.mk.injEq] at hframe
  rcases hframe with ⟨hcounters, hparameters, hcategory, hdepth, hpending⟩
  have hopen : (s.openClause c given).2.redact = (t.openClause c given').2.redact := by
    simp [ParamSink.openClause, ParamSink.redact, hcounters, hparameters, hcategory, hdepth,
      hgiven]
  exact (h.seq fun a => (close hcategory hpending).seq fun _ => result a) hopen

/-! ## The parts of a predicate -/

theorem nextValue {own own' : List Value} (h : own.length = own'.length)
    {f g : Option (Value × List Value) → Render β} (hnone : Agree (f none) (g none))
    (hsome : ∀ v w {own own' : List Value}, own.length = own'.length →
      Agree (f (some (v, own))) (g (some (w, own')))) :
    Agree (ParamSink.nextValue own >>= f) (ParamSink.nextValue own' >>= g) := by
  intro s t hst
  cases own with
  | cons v own =>
    cases own' with
    | cons w own' => exact hsome v w (Nat.succ.inj h) hst
    | nil => simp at h
  | nil =>
    rw [List.length_nil] at h
    obtain rfl := List.eq_nil_of_length_eq_zero h.symm
    rcases s with ⟨_, _, _, _, waiting⟩
    rcases t with ⟨_, _, _, _, waiting'⟩
    have hwaiting := congrArg ParamSink.pending hst
    simp only [ParamSink.redact, redactValues_eq_iff] at hwaiting
    cases waiting with
    | nil =>
      obtain rfl := List.eq_nil_of_length_eq_zero hwaiting.symm
      exact hnone hst
    | cons v waiting =>
      cases waiting' with
      | nil => simp at hwaiting
      | cons w waiting' =>
        refine hsome v w rfl ?_
        simpa [ParamSink.redact, redactValues] using hst

theorem expandFrom (sql : String) (quote : Option Char) (cs : List Char) {own own' : List Value}
    (h : own.length = own'.length) :
    Agree (ParamSink.expandFrom sql quote own cs) (ParamSink.expandFrom sql quote own' cs) := by
  induction cs generalizing quote own own' with
  | nil =>
    cases own with
    | nil =>
      obtain rfl := List.eq_nil_of_length_eq_zero h.symm
      cases quote <;> exact result _
    | cons v own =>
      cases own' with
      | nil => simp at h
      | cons w own' => cases quote <;> (simp only [ParamSink.expandFrom, h]; exact throw _)
  | cons c cs ih =>
    cases quote with
    | some q =>
      rw [ParamSink.expandFrom, ParamSink.expandFrom]
      exact (ih _ h).seq fun _ => result _
    | none =>
      rw [ParamSink.expandFrom, ParamSink.expandFrom]
      split
      · exact nextValue h (throw _) fun v w _ _ hrest =>
          (bind "raw" v w).seq fun _ => (ih none hrest).seq fun _ => result _
      · exact (ih _ h).seq fun _ => result _

theorem expandRaw (sql : String) {own own' : List Value} (h : own.length = own'.length) :
    Agree (ParamSink.expandRaw sql own) (ParamSink.expandRaw sql own') :=
  (expandFrom sql none sql.toList h).map _

theorem expandRaw_redact (sql : String) (own : List Value) :
    Agree (ParamSink.expandRaw sql own) (ParamSink.expandRaw sql (redactValues own)) :=
  expandRaw sql (by simp [redactValues])

theorem renderBound (left column : String) (op : Comparison) (v w : Value) :
    Agree (Sql.renderBound left column op v) (Sql.renderBound left column op w) :=
  (bind column v w).seq fun _ => result _

theorem renderComparison (scope : Scope) (column : String) (op : Comparison) (operand : Operand) :
    Agree (Sql.renderComparison scope column op operand)
      (Sql.renderComparison scope column op operand.redact) := by
  cases operand with
  | null => exact result _
  | list vs => cases vs <;> exact result _
  | column other => exact result _
  | raw sql => exact result _
  | exact v => exact renderBound _ _ _ _ _
  | value v =>
    cases v with
    | text s =>
      by_cases hstar : s.toList.contains '*'
      · -- Both texts have a star, so both runs decide alike whether it is a pattern match.
        simp only [Operand.redact, hstar, if_true, Sql.renderComparison]
        split
        · next h =>
          rw [if_pos (by simpa using h)]
          exact (bind _ _ _).seq fun _ => result _
        · next h =>
          rw [if_neg (by simpa using h)]
          exact renderBound _ _ _ _ _
      · simp only [Operand.redact, hstar, Sql.renderComparison]
        exact renderBound _ _ _ _ _
    | _ => exact renderBound _ _ _ _ _

theorem bindAll (column : String) {values values' : List Value}
    (h : values.length = values'.length) :
    Agree (Sql.bindAll column values) (Sql.bindAll column values') := by
  induction values generalizing values' with
  | nil =>
    obtain rfl := List.eq_nil_of_length_eq_zero h.symm
    exact result _
  | cons v vs ih =>
    cases values' with
    | nil => simp at h
    | cons w ws => exact (bind column v w).seq fun _ => (ih (Nat.succ.inj h)).seq fun _ => result _

theorem renderMembership (scope : Scope) (column : String) (values : List Value) (negated : Bool) :
    Agree (Sql.renderMembership scope column values negated)
      (Sql.renderMembership scope column (redactValues values) negated) := by
  cases values with
  | nil => exact result _
  | cons v vs => exact (bindAll column (by simp [redactValues])).seq fun _ => result _

theorem renderRange (scope : Scope) (column : String) (low high low' high' : Value)
    (negated : Bool) :
    Agree (Sql.renderRange scope column low high negated)
      (Sql.renderRange scope column low' high' negated) :=
  (bind column low low').seq fun _ => (bind column high high').seq fun _ => result _

theorem renderOrders (d : Dialect) (orders : List OrderItem) :
    Agree (Sql.renderOrders d orders) (Sql.renderOrders d (orders.map OrderItem.redact)) := by
  induction orders with
  | nil => exact result _
  | cons order rest ih =>
    cases order with
    | column name direction => exact ih.seq fun _ => result _
    | raw sql values => exact (expandRaw_redact sql values).seq fun _ => ih.seq fun _ => result _

end Agree

/-! ## Whole queries -/

mutual
/-- A query renders as it does without its values. -/
theorem renderQuery_redact (d : Dialect) :
    (q : Query) → Agree (renderQuery d q) (renderQuery d q.redact)
  | ⟨columns, distinct, sources, joins, wheres, groups, havings, orders, limit, offset, unions,
      given, indexKey, relations, connection, error⟩ => by
    have hneeded := neededRelations_redact ⟨columns, distinct, sources, joins, wheres, groups,
      havings, orders, limit, offset, unions, given, indexKey, relations, connection, error⟩
    have halias := baseAlias_redact ⟨columns, distinct, sources, joins, wheres, groups,
      havings, orders, limit, offset, unions, given, indexKey, relations, connection, error⟩
    rw [Query.redact] at hneeded halias ⊢
    cases error with
    | some e => exact .throw e
    | none =>
      have hgiven : ∀ c, redactValues (Bindings.get given c) = redactValues
          (Bindings.get (given.map fun entry => (entry.1, Value.null)) c) := by
        intro c
        rw [get_redact, redactValues_idem]
      rw [renderQuery, renderQuery]
      simp only [hneeded, halias, isEmpty_redactColumns, isEmpty_redactSources, List.isEmpty_map]
      refine (Agree.within _ (hgiven _) (renderColumns_redact d columns)).seq fun _ => ?_
      refine (Agree.within _ (hgiven _) ?_).seq fun _ => ?_
      · split
        · exact (Agree.throw _).seq fun _ => renderSources_redact d sources
        · exact renderSources_redact d sources
      refine (Agree.within _ (hgiven _) (renderJoins_redact d joins)).seq fun _ => ?_
      refine (Agree.within _ (hgiven _) (renderConditions_redact _ wheres)).seq fun _ => ?_
      refine (Agree.within _ (hgiven _) (renderConditions_redact _ havings)).seq fun _ => ?_
      refine (Agree.within _ (hgiven _) (.renderOrders d orders)).seq fun _ => ?_
      exact (Agree.within _ (hgiven _) (renderUnions_redact d unions)).seq fun _ => .result _
theorem renderColumns_redact (d : Dialect) : (columns : List (SelectItem Query)) →
    Agree (renderColumns d columns) (renderColumns d (redactColumns columns))
  | [] => .result _
  | .column _ :: rest => (renderColumns_redact d rest).seq fun _ => .result _
  | .raw sql values :: rest =>
    (Agree.expandRaw_redact sql values).seq fun _ => (renderColumns_redact d rest).seq fun _ =>
      .result _
  | .sub query _ :: rest =>
    (renderQuery_redact d query).seq fun _ => (renderColumns_redact d rest).seq fun _ => .result _
theorem renderSource_redact (d : Dialect) : (source : Source Query) →
    Agree (renderSource d source) (renderSource d (redactSource source))
  | .table _ => .result _
  | .sub query _ => (renderQuery_redact d query).seq fun _ => .result _
theorem renderSources_redact (d : Dialect) : (sources : List (Source Query)) →
    Agree (renderSources d sources) (renderSources d (redactSources sources))
  | [] => .result _
  | source :: rest =>
    (renderSource_redact d source).seq fun _ => (renderSources_redact d rest).seq fun _ => .result _
theorem renderJoins_redact (d : Dialect) : (joins : List (Join Query)) →
    Agree (renderJoins d joins) (renderJoins d (redactJoins joins))
  | [] => .result _
  | ⟨kind, target, conditions⟩ :: rest => by
    rw [redactJoins, renderJoins, renderJoins]
    simp only [isEmpty_redactConditions]
    refine (renderSource_redact d target).seq fun _ => ?_
    split
    · exact (Agree.result _).seq fun _ => (renderJoins_redact d rest).seq fun _ => .result _
    · exact (renderConditions_redact _ conditions).seq fun _ =>
        (renderJoins_redact d rest).seq fun _ => .result _
theorem renderConditions_redact (scope : Scope) : (conditions : List (Condition Query)) →
    Agree (renderConditions scope conditions) (renderConditions scope (redactConditions conditions))
  | [] => .result _
  | c :: cs => by
    rw [redactConditions, renderConditions, renderConditions]
    simp only [connective_redactCondition]
    exact (renderCondition_redact scope c).seq fun _ =>
      (renderConditions_redact scope cs).seq fun _ => .result _
theorem renderCondition_redact (scope : Scope) : (c : Condition Query) →
    Agree (renderCondition scope c) (renderCondition scope (redactCondition c))
  | .basic column operator operand _ => by
    rw [redactCondition, renderCondition, renderCondition]
    split
    · exact .result _
    · cases Comparison.parse operator with
      | error e => exact .throw e
      | ok op => exact (Agree.renderComparison _ _ _ _).seq fun _ => .result _
  | .isIn column values negated _ =>
    (Agree.renderMembership scope column values negated).seq fun _ => .result _
  | .between column low high negated _ =>
    (Agree.renderRange scope column low high .null .null negated).seq fun _ => .result _
  | .group children _ => (renderConditions_redact scope children).seq fun _ => .result _
  | .sub column operator query _ => by
    rw [redactCondition, renderCondition, renderCondition]
    cases Comparison.parse operator with
    | error e => exact .throw e
    | ok op => exact (renderQuery_redact _ query).seq fun _ => .result _
  | .hasRows query _ _ => (renderQuery_redact _ query).seq fun _ => .result _
  | .raw sql values _ => (Agree.expandRaw_redact sql values).seq fun _ => .result _
theorem renderUnions_redact (d : Dialect) : (unions : List (Query × Bool)) →
    Agree (renderUnions d unions) (renderUnions d (redactUnions unions))
  | [] => .result _
  | (query, _) :: rest =>
    (renderQuery_redact d query).seq fun _ => (renderUnions_redact d rest).seq fun _ => .result _
end

end Render

end Sql

end RowMapper
