import Mathlib.Data.List.Induction
import RowMapper.Proofs.Record.Requirements

/-! # Fields under computed values

A model is declared by calls in any order, and names may be used again. A field that is declared
anew takes the place of what had its name, and with a new key the field of the former one goes;
in both cases the field and the way the name is served change together. A computed value changes
only the way: the field that had its name stays in the list beneath it. Just these names are
served otherwise than the fields say. If such a field is a required column, validation asks for a
value that cannot be assigned.
-/

namespace RowMapper

theorem Field.access_eq_column_iff (f : Field) : f.access = .column ↔ f.isColumn = true := by
  cases h : f.relation <;> simp [access, isColumn, h]

theorem Field.access_eq_relation_iff (f : Field) :
    (∃ kind, f.access = .relation kind) ↔ f.isColumn = false := by
  cases h : f.relation <;> simp [access, isColumn, h]

namespace Schema

/-! ## Names and their fields -/

/-- A name is served as a computed value although there is a field of the name. -/
def Overlays (s : Schema) (name : String) : Prop :=
  s.access name = some .computed ∧ (s.field name).isSome = true

/-- For a name the way it is served and the fields agree: it is served as a column just when it is
listed among the columns, and as a relation just when there is one of the name. -/
structure Agrees (s : Schema) (name : String) : Prop where
  columns : s.hasColumn name = true ↔ name ∈ s.columns
  relations : (∃ kind, s.access name = some (.relation kind)) ↔ (s.relation name).isSome = true

variable {s : Schema} {name : String}

theorem Built.mem_columns_iff (h : s.Built) :
    name ∈ s.columns ↔ ∃ f, s.field name = some f ∧ f.isColumn = true := by
  constructor
  · intro hmem
    obtain ⟨f, hf, rfl⟩ := List.mem_map.1 hmem
    obtain ⟨hlisted, hcolumn⟩ := List.mem_filter.1 hf
    obtain ⟨⟨key, f⟩, hentry, rfl⟩ := List.mem_map.1 hlisted
    obtain rfl : f.name = key := h.coherent.named _ hentry
    exact ⟨f, Entries.get?_of_mem h.nodup_fields hentry, hcolumn⟩
  · rintro ⟨f, hf, hcolumn⟩
    have hentry := Entries.mem_of_get? hf
    obtain rfl : f.name = name := h.coherent.named _ hentry
    exact List.mem_map.2 ⟨f, List.mem_filter.2 ⟨List.mem_map.2 ⟨_, hentry, rfl⟩, hcolumn⟩, rfl⟩

theorem isSome_relation_iff : (s.relation name).isSome = true ↔
    ∃ f, s.field name = some f ∧ f.isColumn = false := by
  rw [relation]
  cases s.field name with
  | none => simp
  | some f => simp [Field.isColumn]

theorem Built.isSome_field_iff (h : s.Built) : (s.field name).isSome = true ↔
    name ∈ s.columns ∨ (s.relation name).isSome = true := by
  rw [h.mem_columns_iff, isSome_relation_iff, Option.isSome_iff_exists]
  constructor
  · rintro ⟨f, hf⟩
    cases hcolumn : f.isColumn with
    | true => exact .inl ⟨f, hf, hcolumn⟩
    | false => exact .inr ⟨f, hf, hcolumn⟩
  · rintro (⟨f, hf, -⟩ | ⟨f, hf, -⟩) <;> exact ⟨f, hf⟩

/-- The names that disagree are those under which a computed value lies over a field. -/
theorem Built.agrees_iff (h : s.Built) : s.Agrees name ↔ ¬ s.Overlays name := by
  constructor
  · rintro hagrees ⟨hcomputed, hfield⟩
    rcases h.isSome_field_iff.1 hfield with hlisted | hrelation
    · have hcolumn := hagrees.columns.2 hlisted
      simp [hasColumn, hcomputed] at hcolumn
    · obtain ⟨kind, hkind⟩ := hagrees.relations.2 hrelation
      simp [hcomputed] at hkind
  · intro hfree
    rcases h.coherent.served name with hcomputed | hserved
    · have hnone : ¬ (name ∈ s.columns ∨ (s.relation name).isSome = true) := fun hfield =>
        hfree ⟨hcomputed, h.isSome_field_iff.2 hfield⟩
      constructor
      · simpa [hasColumn, hcomputed] using fun hlisted => hnone (.inl hlisted)
      · simpa [hcomputed] using fun hrelation => hnone (.inr hrelation)
    · constructor
      · rw [h.mem_columns_iff, hasColumn, hserved]
        simp [Option.map_eq_some_iff, Field.access_eq_column_iff]
      · rw [isSome_relation_iff, hserved]
        simp only [Option.map_eq_some_iff, ← Field.access_eq_relation_iff]
        rw [exists_comm]
        simp only [exists_and_left]

/-! ## Calls that declare a model -/

/-- One call of a declaration. Columns and relations are fields. -/
inductive Call where
  | keyedBy (column : String) (type : SqlType)
  | onConnection (name : String)
  | declare (f : Field)
  | withComputed (name : String) (compute : Values → Value)
  | withValidator (check : Values → ValidationErrors → ValidationErrors)

namespace Call

def apply (s : Schema) : Call → Schema
  | keyedBy column type => s.keyedBy column type
  | onConnection name => s.onConnection name
  | declare f => s.declare f
  | withComputed name compute => s.withComputed name compute
  | withValidator check => s.withValidator check

def Declares (name : String) : Call → Prop
  | keyedBy column _ => column = name
  | declare f => f.name = name
  | withComputed other _ => other = name
  | _ => False

/-- A call declares a field of a name, or takes it away with the key of that name. -/
def Renews (key name : String) : Call → Prop
  | keyedBy column _ => column = name ∨ key = name
  | declare f => f.name = name
  | _ => False

end Call

def build (model table : String) (calls : List Call) : Schema :=
  calls.foldl Call.apply (new model table)

/-- The latest call for a name declares a computed value. -/
def LatestComputed (calls : List Call) (name : String) : Prop :=
  ∃ before compute after, calls = before ++ .withComputed name compute :: after ∧
    ∀ call ∈ after, ¬ call.Declares name

/-- A computed value was declared for a name that had a field, and no later call declares a field of
the name or takes it away with the key. -/
def Overlaid (model table : String) (calls : List Call) (name : String) : Prop :=
  ∃ before compute after, calls = before ++ .withComputed name compute :: after ∧
    ((build model table before).field name).isSome = true ∧
    ∀ call ∈ after, ¬ call.Renews (build model table before).primaryKey name

variable {model table : String} {call : Call} {calls after : List Call}

theorem build_concat (model table : String) (calls : List Call) (call : Call) :
    build model table (calls ++ [call]) = call.apply (build model table calls) :=
  List.foldl_append

theorem Built.apply (h : s.Built) (call : Call) : (call.apply s).Built := by
  cases call with
  | keyedBy column type => exact h.keyedBy column type
  | onConnection name => exact h.onConnection name
  | declare f => exact h.declare f
  | withComputed name compute => exact h.withComputed name compute
  | withValidator check => exact h.withValidator check

theorem built_build (model table : String) (calls : List Call) : (build model table calls).Built :=
  List.foldlRecOn calls Call.apply (.new model table) fun _ h call _ => h.apply call

/-! ## One call -/

theorem access_keyedBy_self (s : Schema) (column : String) (type : SqlType) :
    (s.keyedBy column type).access column = some .column :=
  access_declare_self _ _

/-- A new key takes away what had the name of the former one, and leaves other names alone. -/
theorem keyedBy_of_ne {column : String} (h : column ≠ name) (type : SqlType) :
    (s.keyedBy column type).access name = (if s.primaryKey = name then none else s.access name) ∧
      (s.keyedBy column type).field name =
        (if s.primaryKey = name then none else s.field name) := by
  rw [keyedBy, access_declare_of_ne _ _ h, field_declare_of_ne _ _ h]
  by_cases hsame : s.primaryKey = column
  · rw [if_pos hsame, if_neg (hsame ▸ h), if_neg (hsame ▸ h)]
    exact ⟨rfl, rfl⟩
  · rw [if_neg hsame]
    by_cases hname : s.primaryKey = name
    · rw [if_pos hname, if_pos hname, ← hname]
      exact ⟨Entries.get?_erase_self _ _, Entries.get?_erase_self _ _⟩
    · rw [if_neg hname, if_neg hname]
      exact ⟨Entries.get?_erase_of_ne _ hname, Entries.get?_erase_of_ne _ hname⟩

theorem primaryKey_keyedBy (s : Schema) (column : String) (type : SqlType) :
    (s.keyedBy column type).primaryKey = column := by
  unfold keyedBy
  dsimp only
  split
  · assumption
  · rfl

theorem access_withComputed_self (s : Schema) (name : String) (compute : Values → Value) :
    (s.withComputed name compute).access name = some .computed :=
  Entries.get?_put_self _ _ _

theorem access_withComputed_of_ne {other : String} (h : other ≠ name)
    (compute : Values → Value) : (s.withComputed other compute).access name = s.access name :=
  Entries.get?_put_of_ne _ _ h

/-- The step: a computed value lies over a field after a call just when the call declares it over a
field, or it did before and the call leaves the field. -/
theorem overlays_apply_iff (s : Schema) (call : Call) (name : String) :
    (call.apply s).Overlays name ↔
      ((∃ compute, call = .withComputed name compute) ∧ (s.field name).isSome = true) ∨
        (s.Overlays name ∧ ¬ call.Renews s.primaryKey name) := by
  cases call with
  | keyedBy column type =>
    change (s.keyedBy column type).Overlays name ↔ _
    by_cases hcolumn : column = name
    · subst hcolumn
      simp [Overlays, access_keyedBy_self, Call.Renews]
    · obtain ⟨haccess, hfield⟩ := s.keyedBy_of_ne hcolumn type
      rw [Overlays, haccess, hfield]
      by_cases hkey : s.primaryKey = name <;> simp [Overlays, hcolumn, hkey, Call.Renews]
  | onConnection _ | withValidator _ => simp [Call.apply, Call.Renews]; rfl
  | declare f =>
    change (s.declare f).Overlays name ↔ _
    by_cases hname : f.name = name
    · subst hname
      simp [Overlays, f.access_ne_computed, Call.Renews]
    · simp [Overlays, access_declare_of_ne s f hname, field_declare_of_ne s f hname, hname,
        Call.Renews]
  | withComputed other compute =>
    change (s.withComputed other compute).Overlays name ↔ _
    have hfield : (s.withComputed other compute).field name = s.field name := rfl
    by_cases hname : other = name
    · subst hname
      simp [Overlays, access_withComputed_self, hfield, Call.Renews]
    · simp [Overlays, access_withComputed_of_ne hname, hfield, hname, Call.Renews]

/-! ## Calls in a row -/

/-- A call that leaves a field of a name keeps the key away from the name, or at it. -/
theorem renews_apply_iff (h : ¬ call.Renews s.primaryKey name) (other : Call) :
    other.Renews (call.apply s).primaryKey name ↔ other.Renews s.primaryKey name := by
  have hkey : (call.apply s).primaryKey = name ↔ s.primaryKey = name := by
    cases call with
    | keyedBy column type =>
      obtain ⟨hcolumn, hformer⟩ := not_or.1 h
      simp [Call.apply, primaryKey_keyedBy, hcolumn, hformer]
    | _ => rfl
  cases other with
  | keyedBy column _ => exact or_congr_right hkey
  | _ => rfl

/-- The run: calls that leave a field of a name all do so by the key that there was at first. -/
theorem renews_foldl_iff (h : ∀ call ∈ after, ¬ call.Renews s.primaryKey name) (other : Call) :
    other.Renews (after.foldl Call.apply s).primaryKey name ↔ other.Renews s.primaryKey name := by
  induction after generalizing s with
  | nil => rfl
  | cons call after ih =>
    rw [List.forall_mem_cons] at h
    rw [List.foldl_cons, ih fun later hlater hrenews =>
      h.2 later hlater ((renews_apply_iff h.1 later).1 hrenews), renews_apply_iff h.1]

/-- The run: under calls that leave the field a computed value stays over it. -/
theorem Overlays.foldl (hs : s.Overlays name)
    (h : ∀ call ∈ after, ¬ call.Renews s.primaryKey name) :
    (after.foldl Call.apply s).Overlays name := by
  induction after generalizing s with
  | nil => exact hs
  | cons call after ih =>
    rw [List.forall_mem_cons] at h
    refine ih ((overlays_apply_iff s call name).2 (.inr ⟨hs, h.1⟩)) fun later hlater hrenews => ?_
    exact h.2 later hlater ((renews_apply_iff h.1 later).1 hrenews)

/-- In the declared schema a computed value lies over a field just when calls laid it there. -/
theorem overlays_build_iff (model table : String) (calls : List Call) (name : String) :
    (build model table calls).Overlays name ↔ Overlaid model table calls name := by
  constructor
  · intro h
    induction calls using List.reverseRecOn with
    | nil =>
      rcases (overlays_apply_iff { name := model, table } (.declare _) name).1 h with
        ⟨⟨_, hcall⟩, -⟩ | ⟨⟨hcomputed, -⟩, -⟩
      · cases hcall
      · cases hcomputed
    | append_singleton calls call ih =>
      rw [build_concat, overlays_apply_iff] at h
      rcases h with ⟨⟨compute, rfl⟩, hfield⟩ | ⟨hover, hleft⟩
      · exact ⟨calls, compute, [], rfl, hfield, List.forall_mem_nil _⟩
      · obtain ⟨before, compute, after, rfl, hfield, hafter⟩ := ih hover
        have hover : ∀ other ∈ after, ¬ other.Renews
            ((build model table before).withComputed name compute).primaryKey name := hafter
        rw [build, List.foldl_append, List.foldl_cons] at hleft
        refine ⟨before, compute, after ++ [call], ?_, hfield, List.forall_mem_append.2 ⟨hafter, ?_⟩⟩
        · rw [List.append_assoc, List.cons_append]
        · exact List.forall_mem_singleton.2 fun hrenews =>
            hleft ((renews_foldl_iff hover call).2 hrenews)
  · rintro ⟨before, compute, after, rfl, hfield, hafter⟩
    have hover : ((build model table before).withComputed name compute).Overlays name :=
      ⟨access_withComputed_self _ _ _, hfield⟩
    rw [build, List.foldl_append, List.foldl_cons]
    exact hover.foldl hafter

/-- The step: a call that does not declare a name leaves it as it is served, or takes it away. -/
theorem access_apply (h : ¬ call.Declares name) (s : Schema) :
    (call.apply s).access name = s.access name ∨ (call.apply s).access name = none := by
  cases call with
  | keyedBy column type =>
    rw [Call.apply, (keyedBy_of_ne h type).1]
    split
    · exact .inr rfl
    · exact .inl rfl
  | onConnection _ | withValidator _ => exact .inl rfl
  | declare f => exact .inl (access_declare_of_ne s f h)
  | withComputed other compute => exact .inl (access_withComputed_of_ne h compute)

/-- The run: so do calls in a row. -/
theorem access_foldl (h : ∀ call ∈ after, ¬ call.Declares name) (s : Schema) :
    (after.foldl Call.apply s).access name = s.access name ∨
      (after.foldl Call.apply s).access name = none := by
  induction after generalizing s with
  | nil => exact .inl rfl
  | cons call after ih =>
    rw [List.forall_mem_cons] at h
    rcases ih h.2 (call.apply s) with hrest | hrest
    · exact (access_apply h.1 s).imp hrest.trans hrest.trans
    · exact .inr hrest

/-- A name whose latest call declares a computed value is served by it, or not at all. -/
theorem LatestComputed.access (h : LatestComputed calls name) (model table : String) :
    (build model table calls).access name = some .computed ∨
      (build model table calls).access name = none := by
  obtain ⟨before, compute, after, rfl, hafter⟩ := h
  rw [build, List.foldl_append, List.foldl_cons]
  exact (access_foldl hafter _).imp_left fun hsame =>
    hsame.trans (access_withComputed_self _ _ _)

/-! ## The declared model -/

variable {r : Record} {f : Field}

theorem Built.exists_assign (h : s.Built) (hschema : r.schema = s) (hlive : r.voided = false)
    (hf : f ∈ s.fieldList) (hcolumn : f.isColumn = true) (hfree : ¬ s.Overlays f.name)
    (v : Value) : ∃ t, Edit.assign f.name (.scalar v) r = .ok () t := by
  have hlisted : f.name ∈ s.columns := List.mem_map.2 ⟨f, List.mem_filter.2 ⟨hf, hcolumn⟩, rfl⟩
  have haccess := (h.agrees_iff.2 hfree).columns.2 hlisted
  rw [hasColumn, decide_eq_true_eq, ← hschema] at haccess
  exact ⟨_, Edit.assign_column hlive haccess v⟩

theorem Overlays.assign_ne_ok (h : s.Overlays name) (hschema : r.schema = s)
    (hlive : r.voided = false) (v : FieldValue Record) (t : Record) :
    Edit.assign name v r ≠ .ok () t := by
  have hcomputed : r.schema.access name = some .computed := hschema ▸ h.1
  change (Edit.check r.ensureLive >>= _) r ≠ _
  rw [Run.bind_of_ok (Edit.check_ensureLive hlive), hcomputed]
  nofun

/-- In every declared model each name agrees, unless a computed value was declared over a field of the
name and the field was left there. If the latest call for a name declares a computed value, the name
is served neither as a column nor as a relation, and there is none of the name either, but for the
same exception. A column of which validation asks for a value takes every value, and in the
exception none. -/
theorem agrees_build_iff (model table : String) (calls : List Call) :
    let s := build model table calls
    (∀ name, s.Agrees name ↔ ¬ Overlaid model table calls name) ∧
    (∀ name, LatestComputed calls name →
      (s.hasColumn name = false ∧ ∀ kind, s.access name ≠ some (.relation kind)) ∧
        (name ∉ s.columns ∧ s.relation name = none ↔ ¬ Overlaid model table calls name)) ∧
    ∀ r : Record, r.schema = s → r.voided = false →
      ∀ f ∈ s.fieldList, r.isRequired f = true →
        (¬ Overlaid model table calls f.name →
          ∀ v, ∃ t, Edit.assign f.name (.scalar v) r = .ok () t) ∧
        (Overlaid model table calls f.name → ∀ v t, Edit.assign f.name v r ≠ .ok () t) := by
  intro s
  have hbuilt : s.Built := built_build model table calls
  have hagrees (name : String) : s.Agrees name ↔ ¬ Overlaid model table calls name := by
    rw [hbuilt.agrees_iff, overlays_build_iff]
  refine ⟨hagrees, fun name hlatest => ?_, fun r hschema hlive f hf hrequired => ?_⟩
  · have hserved := hlatest.access model table
    have hcolumn : s.hasColumn name = false := by
      rcases hserved with hserved | hserved <;> simp [s, hasColumn, hserved]
    have hrelation (kind : RelationKind) : s.access name ≠ some (.relation kind) := by
      rcases hserved with hserved | hserved <;> simp [s, hserved]
    rw [← hagrees]
    refine ⟨⟨hcolumn, hrelation⟩, ?_, fun hname => ?_⟩
    · rintro ⟨hunlisted, hnone⟩
      exact ⟨by simp [hcolumn, hunlisted], by simp [hrelation, hnone]⟩
    · refine ⟨fun hlisted => ?_, ?_⟩
      · simpa [hcolumn] using hname.columns.2 hlisted
      · simpa [hrelation] using hname.relations
  · have hcolumn : f.isColumn = true := by
      simp only [Record.isRequired, Bool.and_eq_true] at hrequired
      exact hrequired.1.1.1
    rw [← overlays_build_iff]
    exact ⟨hbuilt.exists_assign hschema hlive hf hcolumn, fun hover =>
      hover.assign_ne_ok hschema hlive⟩

def labelCalls : List Call :=
  [.declare { name := "label", type := .varchar 64, nullable := false }]

/-- A computed value by a name of its own leaves the required column as it is. -/
theorem markedLabel_agrees :
    let calls := labelCalls ++ [.withComputed "mark" fun _ => .text "red"]
    let s := build "Tag" "tags" calls
    s.Agrees "label" ∧
      (LatestComputed calls "mark" ∧ s.hasColumn "mark" = false ∧ "mark" ∉ s.columns) ∧
      ∃ t, Edit.assign "label" (.scalar (.text "red")) (Record.new s) = .ok () t := by
  intro calls s
  obtain ⟨hagrees, hlatest, hassign⟩ := agrees_build_iff "Tag" "tags" calls
  have hmark : LatestComputed calls "mark" := ⟨labelCalls, _, [], rfl, List.forall_mem_nil _⟩
  have hlabelFree : ¬ Overlaid "Tag" "tags" calls "label" := fun hover =>
    absurd ((overlays_build_iff "Tag" "tags" calls "label").2 hover).1 (by decide)
  have hmarkFree : ¬ Overlaid "Tag" "tags" calls "mark" := fun hover =>
    absurd ((overlays_build_iff "Tag" "tags" calls "mark").2 hover).2 (by decide)
  obtain ⟨⟨hcolumn, -⟩, hnone⟩ := hlatest "mark" hmark
  refine ⟨(hagrees "label").2 hlabelFree, ⟨hmark, hcolumn, (hnone.2 hmarkFree).1⟩, ?_⟩
  exact (hassign (Record.new s) rfl rfl { name := "label", type := .varchar 64, nullable := false }
    (.tail _ (.head _)) rfl).1 hlabelFree (.text "red")

/-- A computed value by the name of the required column hides it: the column is still listed, and
validation asks for its value, but no value can be assigned. -/
theorem hiddenLabel_unassignable :
    let calls := labelCalls ++ [.withComputed "label" fun _ => .text "red"]
    let s := build "Tag" "tags" calls
    (s.hasColumn "label" = false ∧ "label" ∈ s.columns) ∧ ¬ s.Agrees "label" ∧
      (Record.new s).validate = [("label", ["is required"])] ∧
      ∀ v t, Edit.assign "label" v (Record.new s) ≠ .ok () t := by
  intro calls s
  have hlisted : s.hasColumn "label" = false ∧ "label" ∈ s.columns := by decide
  refine ⟨hlisted, fun hagrees => ?_, by decide, fun v t => nofun⟩
  rw [hagrees.columns.2 hlisted.2] at hlisted
  exact absurd hlisted.1 (by decide)

end Schema

end RowMapper
