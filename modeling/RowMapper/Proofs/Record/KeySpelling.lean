import RowMapper.Proofs.Parameter.Names
import RowMapper.Proofs.Record.Tracking

/-! # How integer keys are spelled

Copies of rows are kept under the text of their key. A database may take a value for an
integer key without that being its text: to some of them SQL text such as `06` is the key 6.
A key column of integers brings what is assigned to it into the form of an integer, so that
SQL text is the only way for such a value to become the key of a record.
-/

namespace RowMapper

open Run

namespace Value

def integer? : Value → Option Int
  | .int32 n => some n.toInt
  | .int64 n => some n.toInt
  | _ => none

theorem toString_int_injective {m n : Int} (h : toString m = toString n) : m = n := by
  have hsign (m n : Nat) : (Int.ofNat m).repr ≠ (Int.negSucc n).repr := by
    intro heq
    have hchar := Sql.all_isNameChar_toString m
    have htext : toString m = "-" ++ toString (n + 1) := heq
    rw [htext, String.toList_append, List.all_append, Bool.and_eq_true] at hchar
    exact absurd hchar.1 (by decide)
  cases m with
  | ofNat m =>
    cases n with
    | ofNat n => rw [Sql.toString_injective (m := m) (n := n) h]
    | negSucc n => exact absurd h (hsign m n)
  | negSucc m =>
    cases n with
    | ofNat n => exact absurd h.symm (hsign n m)
    | negSucc n =>
      have htext : "-" ++ toString (m + 1) = "-" ++ toString (n + 1) := h
      have hsame := Sql.toString_injective ((String.append_right_inj "-").1 htext)
      rw [Nat.succ.inj hsame]

variable {v : Value} {n : Int}

theorem keyString_of_integer? (h : v.integer? = some n) : v.keyString = toString n := by
  cases v <;> cases h <;> rfl

theorem isEmpty_of_integer? (h : v.integer? = some n) : v.isEmpty = true ↔ n = 0 := by
  cases v with
  | int32 m =>
    cases h
    rw [isEmpty, beq_iff_eq, ← Int32.toInt_inj]
    rfl
  | int64 m =>
    cases h
    rw [isEmpty, beq_iff_eq, ← Int64.toInt_inj]
    rfl
  | _ => cases h

/-- A value stands for at most the integer that its text spells, where `keyOf` is the integer key
for which a database takes a value. -/
def Spells (keyOf : Value → Option Int) (v : Value) : Prop :=
  v.isEmpty = false → ∀ n, keyOf v = some n → v.keyString = toString n

/-- A database takes every integer for itself. -/
def TakesIntegers (keyOf : Value → Option Int) : Prop :=
  ∀ v n, integer? v = some n → keyOf v = some n

variable {keyOf : Value → Option Int}

theorem TakesIntegers.spells (hkeyOf : TakesIntegers keyOf) (h : v.integer? = some n) :
    v.Spells keyOf := by
  intro _ m hm
  rw [hkeyOf v n h] at hm
  cases hm
  exact keyString_of_integer? h

theorem integer?_coerce {type : SqlType} (htype : type.family = .integer) (filter : ImportFilter)
    (v : Value) : v.coerce type filter = .null ∨ ∃ n, (v.coerce type filter).integer? = some n := by
  have hform : v.toIntegerForm = .null ∨ ∃ n, v.toIntegerForm.integer? = some n := by
    have hint (n : Int) : ∃ m, (ofInt n).integer? = some m := ⟨_, rfl⟩
    have hfloat (x : Float) : (float x).toIntegerForm = .null ∨
        ∃ n, (float x).toIntegerForm.integer? = some n := by
      simp only [toIntegerForm]
      split
      · exact .inr (hint _)
      · exact .inl rfl
    cases v with
    | null | bytes _ | uuid _ | timestamp _ | date _ | time _ | json _ => exact .inl rfl
    | bool b => exact .inr (hint _)
    | int32 n => exact .inr (hint _)
    | int64 n => exact .inr ⟨_, rfl⟩
    | float x => exact hfloat x
    | text s =>
      simp only [toIntegerForm]
      split
      · exact .inr (hint _)
      · split
        · exact hfloat _
        · exact .inl rfl
  unfold coerce
  split
  · exact .inl rfl
  · rw [htype]
    simpa [keepsNow] using hform

theorem TakesIntegers.spells_coerce (hkeyOf : TakesIntegers keyOf) {type : SqlType}
    (htype : type.family = .integer) (filter : ImportFilter) (v : Value) :
    (v.coerce type filter).Spells keyOf := by
  obtain hnull | ⟨n, hn⟩ := integer?_coerce htype filter v
  · rw [hnull]
    intro h
    cases h
  · exact hkeyOf.spells hn

end Value

/-- The primary key of a model is a column of integers. -/
structure Schema.IntegerKeyed (s : Schema) : Prop where
  column : s.hasColumn s.primaryKey = true
  integer : ∃ f, (s.field s.primaryKey).filter Field.isColumn = some f ∧ f.type.family = .integer

namespace Record

/-- What a record of a model has for its key, and what it had when it was last stored, stand for at
most the integers that they spell. -/
structure Spelled (keyOf : Value → Option Int) (s : Schema) (r : Record) : Prop where
  schema : r.schema = s
  value : ∀ v, r.value? s.primaryKey = some v → v.Spells keyOf
  initial : ∀ b v, r.initial? s.primaryKey = some b → b.toScalar? = some v → v.Spells keyOf

namespace Spelled

variable {keyOf : Value → Option Int} {schema : Schema} {r s : Record} {name : String}

theorem of_same (h : Spelled keyOf schema r) (hs : SameAt schema.primaryKey r s) :
    Spelled keyOf schema s where
  schema := hs.schema.trans h.schema
  value v hv := h.value v (by rwa [value?, hs.data, hs.extra] at hv)
  initial b v hb := h.initial b v (hs.initial ▸ hb)

theorem current (h : Spelled keyOf schema r) :
    ((r.value? schema.primaryKey).getD .null).Spells keyOf := by
  cases hv : r.value? schema.primaryKey with
  | none =>
    intro hempty
    cases hempty
  | some v => exact h.value v hv

theorem remember (h : Spelled keyOf schema r) {b : FieldValue Record}
    (hb : ∀ v, b.toScalar? = some v → v.Spells keyOf) (name : String) :
    Spelled keyOf schema (r.remember name b) := by
  unfold Record.remember
  split
  · exact h
  · refine ⟨h.schema, h.value, fun c v hc hv => ?_⟩
    by_cases hname : name = schema.primaryKey
    · subst hname
      have hput : some b = some c := (Entries.get?_put_self r.initial _ b).symm.trans hc
      exact hb v (Option.some.inj hput ▸ hv)
    · have hother : r.initial? schema.primaryKey = some c :=
        (Entries.get?_put_of_ne _ _ hname).symm.trans hc
      exact h.initial c v hother hv

theorem store (h : Spelled keyOf schema r) {v : Value}
    (hv : name = schema.primaryKey → v.Spells keyOf) (unchanged : Bool) :
    Spelled keyOf schema (r.store name v unchanged) := by
  by_cases hname : name = schema.primaryKey
  · subst hname
    have put {t : Record} (ht : Spelled keyOf schema t) :
        Spelled keyOf schema (t.putData schema.primaryKey v) := by
      refine ⟨ht.schema, fun w hw => ?_, ht.initial⟩
      have hdata : (t.putData schema.primaryKey v).value? schema.primaryKey = some v := by
        simp [value?, putData]
      cases hdata.symm.trans hw
      exact hv rfl
    have hbefore (w : Value) (hw : (FieldValue.ofValue
        ((r.value? schema.primaryKey).getD .null) : FieldValue Record).toScalar? = some w) :
        w.Spells keyOf := by
      have hcurrent := h.current
      cases hc : (r.value? schema.primaryKey).getD .null with
      | null =>
        rw [hc] at hw
        cases hw
      | _ =>
        rw [hc] at hw hcurrent
        cases hw
        exact hcurrent
    unfold Record.store
    split
    · exact h
    · dsimp only
      split
      · exact put h
      · exact put (h.remember hbefore _)
  · exact h.of_same (r.sameAt_store hname v unchanged)

theorem storeCoerced (h : Spelled keyOf schema r) (hschema : schema.IntegerKeyed)
    (hkeyOf : Value.TakesIntegers keyOf) (name : String) (v : Value) :
    Spelled keyOf schema (r.storeCoerced name v) := by
  unfold Record.storeCoerced
  obtain ⟨f, hf, htype⟩ := hschema.integer
  rw [h.schema]
  split
  · next g hg =>
    refine h.store (fun hname => ?_) _
    rw [hname, hf] at hg
    cases hg
    exact hkeyOf.spells_coerce htype _ _
  · next hnone =>
    refine h.store (fun hname => ?_) _
    rw [hname, hf] at hnone
    cases hnone

/-- An assignment keeps the key spelled unless it is SQL text that the database takes for an integer
with another text. -/
theorem effect {v : FieldValue Record} (h : Spelled keyOf schema r) (hschema : schema.IntegerKeyed)
    (hkeyOf : Value.TakesIntegers keyOf)
    (hv : ∀ sql, v = .raw sql → name = schema.primaryKey → (Value.text sql).Spells keyOf)
    (he : Edit.Effect name v r s) : Spelled keyOf schema s := by
  have hstored (column : String) (w : Value) := h.storeCoerced hschema hkeyOf column w
  have hne (hname : r.schema.hasColumn name = false) : name ≠ schema.primaryKey := by
    rintro rfl
    rw [h.schema, hschema.column] at hname
    cases hname
  cases he with
  | refused => exact h
  | column _ w => exact hstored name w
  | sqlText _ sql hsql => exact h.store (hv sql hsql) _
  | owner _ relation => exact (hstored relation.localColumn _).of_same ⟨rfl, rfl, rfl, rfl⟩
  | noOwner _ relation => exact (hstored relation.localColumn _).of_same ⟨rfl, rfl, rfl, rfl⟩
  | ownerKey _ relation => exact (hstored relation.localColumn _).of_same ⟨rfl, rfl, rfl, rfl⟩
  | dependents => exact h.of_same ⟨rfl, rfl, rfl, rfl⟩
  | links hname _ _ _ before _ found =>
    have hbefore := h.of_same (r.sameAt_remember (hne hname) before)
    cases found <;> exact hbefore.of_same ⟨rfl, rfl, rfl, rfl⟩
  | undeclared hname =>
    have hother : name ≠ schema.primaryKey := hne (by simp [Schema.hasColumn, hname])
    exact h.of_same ⟨rfl, rfl, Entries.get?_put_of_ne _ _ hother, rfl⟩

theorem ofRow (hkeyOf : Value.TakesIntegers keyOf) {row : Row} {filter : ImportFilter} {v : Value}
    {n : Int} (hdata : (Record.ofRow schema row filter).data.get? schema.primaryKey = some v)
    (hv : v.integer? = some n) : Spelled keyOf schema (.ofRow schema row filter) := by
  have hloaded := loaded_ofRow schema row filter
  refine ⟨hloaded.schema, fun w hw => ?_, fun b w hb => ?_⟩
  · rw [value?, hdata] at hw
    cases hw
    exact hkeyOf.spells hv
  · rw [initial?, hloaded.initial] at hb
    cases hb

theorem clean (h : Spelled keyOf schema r) : Spelled keyOf schema r.clean :=
  ⟨h.schema, h.value, fun _ _ hb => nomatch hb⟩

theorem void (h : Spelled keyOf schema r) : Spelled keyOf schema r.void :=
  ⟨h.schema, fun _ hv => (nomatch hv), fun _ _ hb => nomatch hb⟩

theorem key? (h : Spelled keyOf schema r) {key : Value} (hkey : r.key? = some key) :
    key.isEmpty = false ∧ key.Spells keyOf := by
  obtain ⟨hdata, hempty⟩ := Option.filter_eq_some_iff.1 hkey
  rw [h.schema] at hdata
  exact ⟨by simpa using hempty, h.value key (by rw [value?, hdata]; rfl)⟩

end Spelled

end Record

end RowMapper
