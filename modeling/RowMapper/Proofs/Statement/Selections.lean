import RowMapper.Proofs.Statement.BareNames
import RowMapper.Proofs.Statement.Conditions

/-! # The selection of a column

A query of one column of one table writes both names, and its conditions after them.
-/

namespace RowMapper.Sql

open Text

theorem neededRelations_of_nil {q : Query} (h : q.relations = []) : neededRelations q = [] := by
  have hnone (column : String) : relationOf [] column = none := by
    rw [relationOf]
    split <;> rfl
  simp [neededRelations, relationsOf, h, hnone]

variable {d : Dialect} {column table : String}

theorem asName_table (h : IsBare table) : Source.asName (.table table) = table := by
  rw [Source.asName, h.splitAlias_eq, h.trim_eq]

/-- The conditions of a query of one column bind their values, and nothing else is bound. -/
theorem renderQuery_column_binds (hcolumn : IsBare column) (htable : IsBare table)
    {conditions : List (Condition Query)} {values : List Value} {texts : List String}
    (hne : texts ≠ []) (hconditions : Binds
      (renderConditions { dialect := d, table := some table } conditions) values
      fun clauses => Conjoined d 0 clauses values.length texts) :
    Binds (renderQuery d
      { columns := [.column column], sources := [.table table], wheres := conditions }) values
      fun text => Becomes d 0 text values.length ("SELECT " ++ quoteIdentifier d column ++
        " FROM " ++ quoteIdentifier d table ++ " WHERE " ++ conjunction texts) := by
  have hselected : Binds (renderColumns d [.column column]) []
      fun texts => texts = [quoteIdentifier d column] := by
    rw [renderColumns, renderColumns, hcolumn.columnText_eq]
    exact .pure rfl
  have hsource : Binds (renderSources d [.table table]) []
      fun texts => texts = [quoteIdentifier d table] := by
    rw [renderSources, renderSource, renderSources, htable.quoteQualified_eq]
    exact .pure rfl
  have hjoined : Binds (renderJoins d []) [] fun texts => texts = [] := .pure rfl
  have hhaving : Binds (renderConditions { dialect := d } []) [] fun clauses => clauses = [] :=
    .pure rfl
  have hordered : Binds (renderOrders d []) [] fun texts => texts = [] := .pure rfl
  have hunited : Binds (renderUnions d []) [] fun texts => texts = [] := .pure rfl
  have halias : Query.baseAlias
      { columns := [.column column], sources := [.table table], wheres := conditions } =
        some table := congrArg some (asName_table htable)
  have hneeded : neededRelations
      { columns := [.column column], sources := [.table table], wheres := conditions } = [] :=
    neededRelations_of_nil rfl
  rw [← halias] at hconditions
  rw [renderQuery]
  refine (hselected.inClause .select).second fun selected hselected =>
    (hsource.inClause .source).second fun sources hsources =>
    (hjoined.inClause .join).second fun joined hjoined =>
    (hconditions.inClause .filter).first fun filter hfilter =>
    (hhaving.inClause .having).second fun having hhaving =>
    (hordered.inClause .order).second fun ordered hordered =>
    (hunited.inClause .union).map fun united hunited => ?_
  subst hselected hsources hjoined hhaving hordered hunited
  have hhead := ((seals_quoteIdentifier d column).prepend (a := "SELECT ") (by decide)).close
    (a := " FROM ") (by decide)
  have htext := (hfilter.afterKeyword " WHERE " (by decide) hne).after
    (hhead.append (seals_quoteIdentifier d table))
  have hnone : afterKeyword " HAVING " (Clauses.text []) = "" := by decide
  have hnothing : concatenated [] = "" := rfl
  have hlimit : limitText d none none = "" := rfl
  simpa only [hneeded, hnone, hnothing, hlimit, List.map_nil, List.append_nil, List.isEmpty_nil,
    List.isEmpty_cons, join, groupText, Bool.false_eq_true, if_false, if_true,
    String.append_empty, String.append_assoc] using htext

/-! ## Queries by a key -/

theorem renderQuery_key_binds (columns : List String) {tables : List String} {key : Value}
    (htables : tables ≠ []) (hplain : Condition.isRawColumn column = false) (hkey : key ≠ .null)
    (limit : Option Nat) (relations : List RelationJoin) (connection : Option String) :
    Binds (renderQuery d
      { columns := columns.map .column, sources := tables.map .table, wheres := [.key column key],
        limit, relations, connection }) [key] fun _ => True := by
  have hselected (columns : List String) :
      Binds (renderColumns d (columns.map .column)) [] fun _ => True := by
    induction columns with
    | nil => exact .pure trivial
    | cons column columns ih =>
      rw [List.map_cons, renderColumns]
      exact ih.map fun _ _ => trivial
  have hsource (tables : List String) :
      Binds (renderSources d (tables.map .table)) [] fun _ => True := by
    induction tables with
    | nil => exact .pure trivial
    | cons table tables ih =>
      rw [List.map_cons, renderSources, renderSource]
      have hfirst : Binds (pure (quoteQualified d table)) [] fun _ => True := .pure trivial
      exact hfirst.second fun _ _ => ih.map fun _ _ => trivial
  have hjoined : Binds (renderJoins d []) [] fun _ => True := .pure trivial
  have hcondition (scope : Scope) :
      Binds (renderConditions scope [.key column key]) [key] fun _ => True := by
    have hfirst : Binds (renderCondition scope (.key column key)) [key] fun _ => True := by
      intro s
      obtain ⟨_, t, hbind, -, hadds⟩ := binds_bind d 0 column key s
      exact ⟨_, t, renderCondition_key scope hplain hkey hbind, trivial, hadds⟩
    rw [renderConditions]
    exact hfirst.first fun _ _ => (renderConditions_nil_binds scope 0).map fun _ _ => trivial
  have hhaving : Binds (renderConditions { dialect := d } []) [] fun _ => True := .pure trivial
  have hordered : Binds (renderOrders d []) [] fun _ => True := .pure trivial
  have hunited : Binds (renderUnions d []) [] fun _ => True := .pure trivial
  have hnonempty : (tables.map .table : List (Source Query)).isEmpty = false := by
    simpa using htables
  rw [renderQuery]
  dsimp only
  rw [hnonempty]
  exact ((hselected columns).inClause .select).second fun _ _ =>
    ((hsource tables).inClause .source).second fun _ _ =>
    (hjoined.inClause .join).second fun _ _ =>
    ((hcondition _).inClause .filter).first fun _ _ =>
    (hhaving.inClause .having).second fun _ _ =>
    (hordered.inClause .order).second fun _ _ =>
    (hunited.inClause .union).map fun _ _ => trivial

end RowMapper.Sql
