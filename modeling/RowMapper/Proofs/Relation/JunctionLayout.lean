import Mathlib.Data.String.Basic
import RowMapper.Relation.Junction

/-! # The junction table from both sides

Two models that are related to each other in both directions share one junction
table, whatever the prefix of their connection is. Each side calls its own key
column the owner's; the two layouts are mirror images unless both tables lead to
the same foreign key, as a singular and its plural do. Then the rule for a relation
of a table to itself applies on both sides, and both keep their own keys in the
same column.
-/

namespace RowMapper

namespace Naming

/-- The prefix of a connection is stripped once, also from a name that begins with it again. -/
@[simp] theorem stripPrefix_append (start table : String) :
    stripPrefix (start ++ table) start = table := by
  have hstart : start.toList.isPrefixOf (start ++ table).toList = true := by
    rw [List.isPrefixOf_iff_prefix, String.toList_append]
    exact List.prefix_append _ _
  have hrest : (start ++ table).toList.drop start.length = table.toList := by
    rw [String.toList_append, ← String.length_toList]
    simp
  rw [stripPrefix, if_pos hstart, hrest, String.ofList_toList]

@[simp] theorem stripPrefix_empty (table : String) : stripPrefix table "" = table := by
  simpa using stripPrefix_append "" table

theorem junctionTable_comm (first second start : String) :
    junctionTable first second start = junctionTable second first start := by
  simp only [junctionTable]
  by_cases hlt : stripPrefix second start < stripPrefix first start
  · rw [if_pos hlt, if_neg (String.lt_asymm hlt)]
  · by_cases hgt : stripPrefix first start < stripPrefix second start
    · rw [if_neg hlt, if_pos hgt]
    · rw [String.le_antisymm hlt hgt]

theorem junctionTable_append (first second start : String) :
    junctionTable (start ++ first) (start ++ second) start =
      start ++ junctionTable first second "" := by
  simp only [junctionTable, stripPrefix_append, stripPrefix_empty]
  split <;> simp [String.append_assoc]

theorem junctionKeys_of_ne {ownerTable ownerKey relatedTable relatedKey : String}
    (h : foreignKey ownerTable ownerKey ≠ foreignKey relatedTable relatedKey) :
    junctionKeys ownerTable ownerKey relatedTable relatedKey =
      (foreignKey ownerTable ownerKey, foreignKey relatedTable relatedKey) := by
  rw [junctionKeys, if_neg h]

theorem junctionKeys_of_eq {ownerTable ownerKey relatedTable relatedKey : String}
    (h : foreignKey ownerTable ownerKey = foreignKey relatedTable relatedKey) :
    junctionKeys ownerTable ownerKey relatedTable relatedKey =
      (foreignKey ownerTable ownerKey, "related_" ++ foreignKey ownerTable ownerKey) := by
  rw [junctionKeys, if_pos h, h]

end Naming

namespace Junction

open Naming

/-- Each layout's owner key is the related key of the other. -/
def Mirrors (j j' : Junction) : Prop :=
  j.ownerKey = j'.relatedKey ∧ j.relatedKey = j'.ownerKey

variable {owner target : Schema} {r r' : Relation}

theorem mirrors_iff (field field' start : String) :
    (ofRelation owner field r target start).Mirrors (ofRelation target field' r' owner start) ↔
      foreignKey owner.table owner.primaryKey ≠ foreignKey target.table target.primaryKey := by
  constructor
  · rintro ⟨hkey, -⟩ heq
    -- With equal foreign keys the owner's column on one side is no related column on the other.
    simp only [ofRelation, junctionKeys_of_eq heq, junctionKeys_of_eq heq.symm] at hkey
    have hlength := congrArg String.length hkey
    have hadded : "related_".length = 8 := by decide
    rw [String.length_append, heq, hadded] at hlength
    omega
  · intro hne
    simp [Mirrors, ofRelation, junctionKeys_of_ne hne, junctionKeys_of_ne hne.symm]

/-- Both sides of a relation without a table of its own name the same junction table: the prefix
before the name that it has without a prefix. Their key columns are the same the other way round
just when the foreign keys of the two tables differ; otherwise each side keeps its own keys in the
column where the other side keeps its own. -/
theorem ofRelation_both_sides (field field' start : String) (h : r.junctionTable = none)
    (h' : r'.junctionTable = none) :
    (ofRelation owner field r target start).table =
      (ofRelation target field' r' owner start).table ∧
    (ofRelation owner field r target start).table =
      start ++ (ofRelation owner field r target "").table ∧
    ((ofRelation owner field r target start).Mirrors (ofRelation target field' r' owner start) ↔
      foreignKey owner.table owner.primaryKey ≠ foreignKey target.table target.primaryKey) ∧
    (foreignKey owner.table owner.primaryKey = foreignKey target.table target.primaryKey →
      (ofRelation owner field r target start).ownerKey =
        (ofRelation target field' r' owner start).ownerKey ∧
      (ofRelation owner field r target start).relatedKey =
        (ofRelation target field' r' owner start).relatedKey) := by
  have hempty : ∀ table : String, "" ++ table = table := fun table => by simp
  refine ⟨?_, ?_, mirrors_iff field field' start, ?_⟩
  · simp only [ofRelation, h, h']
    exact junctionTable_comm _ _ start
  · simp only [ofRelation, h, hempty]
    exact junctionTable_append owner.table target.table start
  · intro heq
    simp [ofRelation, junctionKeys_of_eq heq, junctionKeys_of_eq heq.symm, heq]

def linkSample (name table : String) : Relation where
  kind := .manyToMany
  target := { key := 1, name, table, primaryKey := "id" }

/-- The prefix of the connection begins the name of one table, too. -/
theorem mediaSample_mirrors :
    (ofRelation (.new "Media" "media") "news" (linkSample "News" "news") (.new "News" "news")
      "me").Mirrors
      (ofRelation (.new "News" "news") "media" (linkSample "Media" "media") (.new "Media" "media")
        "me") ∧
    (ofRelation (.new "Media" "media") "news" (linkSample "News" "news") (.new "News" "news")
      "me").table = "memedia_news" := by
  have h := @ofRelation_both_sides (.new "Media" "media") (.new "News" "news")
    (linkSample "News" "news") (linkSample "Media" "media") "news" "media" "me" rfl rfl
  exact ⟨h.2.2.1.2 (by decide +kernel), by decide +kernel⟩

/-- Two tables, one named by the singular of the other: both sides take the same columns for their
own keys. -/
theorem singularSample_not_mirrors :
    "quiz" ≠ "quizzes" ∧
    ¬ (ofRelation (.new "Quiz" "quiz") "rounds" (linkSample "Round" "quizzes")
      (.new "Round" "quizzes") "").Mirrors
      (ofRelation (.new "Round" "quizzes") "quizzes" (linkSample "Quiz" "quiz")
        (.new "Quiz" "quiz") "") :=
  ⟨by decide, fun h => (mirrors_iff "rounds" "quizzes" "").1 h (by decide +kernel)⟩

end Junction

end RowMapper
