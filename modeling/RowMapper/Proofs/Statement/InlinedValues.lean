import RowMapper.Proofs.Placeholder.Inlined
import RowMapper.Proofs.Statement.Alignment

/-! # Statements with their values written in

When the caller's text hides no placeholder, each bound name stands in the text of a
query once, and the text for logs is the text of the query with the literal of its own
value in the place of each name. Quotes and colons of a value change nothing around
it and are not read again.
-/

namespace RowMapper.Sql

namespace Statement

theorem toList_inlined (s : Statement) (d : Dialect) :
    (s.inlined d).toList = filled (placeholderText d s.named) (tokens s.sql.toList) := by
  rw [inlined, String.toList_ofList]
  exact (inlineFrom_eq d s.named s.sql.toList).1

theorem mem_placeholders {sql : String} {name : List Char}
    (h : .placeholder name ∈ tokens sql.toList) : String.ofList name ∈ placeholders sql :=
  List.mem_filterMap.2 ⟨_, h, rfl⟩

theorem settles_literal (d : Dialect) (value : List Char → Value) :
    Settles fun name => (literal d (value name)).toList :=
  fun name => ⟨(seals_literal d (value name)).closed, (seals_literal d (value name)).names⟩

theorem valueOf?_of_mem {s : Statement} (h : s.names.Nodup) {name : String} {v : Value}
    (hmem : (name, v) ∈ s.named) : s.valueOf? name = some v := by
  obtain ⟨i, hi, hget⟩ := List.mem_iff_getElem.1 hmem
  have hvalues := congrArg (·[i]?) (map_get?_keys h)
  simpa [hi, hget, valueOf?] using hvalues

/-- In a query without wild text each bound name is a placeholder once, and there are no other
placeholders. The text with the values written in has, in the place of each placeholder, the literal
of the value bound under its name, and everything else as it was; it has no placeholder any more. -/
theorem inlined_ofQuery {d : Dialect} {q : Query} {s : Statement} (h : ofQuery d q = .ok s)
    (ht : AllTame (queryParts q)) :
    (∀ name ∈ s.names, (placeholders s.sql).count name = 1) ∧
    (∀ name ∈ placeholders s.sql, name ∈ s.names) ∧
    filled (':' :: ·) (tokens s.sql.toList) = s.sql.toList ∧
    ∃ value : String → Value, (∀ name v, (name, v) ∈ s.named → value name = v) ∧
      ∀ d', (s.inlined d').toList = filled
          (fun name => (literal d' (value (String.ofList name))).toList) (tokens s.sql.toList) ∧
        placeholders (s.inlined d') = [] := by
  have hw := (Built.query h).woven ht
  refine ⟨fun name hname => ?_, fun name hname => hw.perm.mem_iff.1 hname, filled_tokens _, ?_⟩
  · rw [hw.perm.count_eq]
    exact List.count_eq_one_of_mem hw.distinct hname
  · refine ⟨fun name => (s.valueOf? name).getD .null, fun name v hmem => ?_, fun d' => ?_⟩
    · simp [valueOf?_of_mem hw.distinct hmem]
    · have hfilled : (s.inlined d').toList = filled
          (fun name => (literal d' ((s.valueOf? (String.ofList name)).getD .null)).toList)
          (tokens s.sql.toList) := by
        rw [toList_inlined]
        refine filled_congr fun name hname => ?_
        have hbound := hw.perm.mem_iff.1 (mem_placeholders hname)
        obtain ⟨⟨_, v⟩, hmem, rfl⟩ := List.mem_map.1 hbound
        have hvalue := valueOf?_of_mem hw.distinct hmem
        rw [valueOf?] at hvalue
        rw [placeholderText, valueOf?, hvalue]
        rfl
      refine ⟨hfilled, ?_⟩
      rw [placeholders, hfilled]
      have hsettles := settles_literal d' fun name => (s.valueOf? (String.ofList name)).getD .null
      exact hsettles.read_filled .plain s.sql.toList

/-- Values with quotes and with the names of other parameters, and columns whose names look like
numbered ones. -/
def colonSample : Query where
  sources := [.table "t"]
  wheres := [.key "a" (.text "x':a2"), .key "a1" (.text ":a11"), .key "a" (.text "::'")]

theorem colonSample_inlined : ∃ s, ofQuery .postgres colonSample = .ok s ∧
    s.names = ["a1", "a11", "a2"] ∧ (placeholders s.sql).count "a11" = 1 ∧
    s.inlined .postgres =
      "SELECT * FROM t WHERE (t.a = 'x'':a2') AND (t.a1 = ':a11') AND (t.a = '::''')" ∧
    placeholders (s.inlined .postgres) = [] := by
  obtain ⟨s, hs⟩ := Outcome.exists_of_isOk (x := ofQuery .postgres colonSample) (by decide +kernel)
  obtain ⟨hcount, -, -, value, -, hinlined⟩ := inlined_ofQuery hs (by decide +kernel)
  have hread : (ofQuery .postgres colonSample).toOption.map
      (fun s => (s.names, s.inlined .postgres)) = some (["a1", "a11", "a2"],
        "SELECT * FROM t WHERE (t.a = 'x'':a2') AND (t.a1 = ':a11') AND (t.a = '::''')") := by
    decide +kernel
  rw [hs] at hread
  obtain ⟨hnames, htext⟩ := Prod.mk.inj (Option.some.inj hread)
  exact ⟨s, hs, hnames, hcount "a11" (by simp [hnames]), htext, (hinlined .postgres).2⟩

end Statement

end RowMapper.Sql
