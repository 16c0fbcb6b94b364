import RowMapper.Proofs.Schema.DonorFields
import RowMapper.Proofs.Session.Lookups
import RowMapper.Proofs.Session.PendingLinks

/-! # Copies with an outdated schema

A record keeps the schema with which it was made. When a field is given to a model, the
copies of the model's records are dropped, but records that are alive keep their schema,
and so do schemas that were handed out. Two operations keep a copy afterwards: a save that
inserts, which keeps the record that it saved, and a look-up that has to ask the driver,
which keeps the record that it made with the schema it was given. Only through these can a
look-up come to serve a record without the field.
-/

namespace RowMapper

open Run SchemaRegistry

variable {σ : Type}

/-! ## Runs -/

/-- One use of records of a session, or a field given to a model. -/
inductive Session.Operation where
  /-- Make a record of the model at a place. -/
  | create (place : Nat)
  | find (schema : Schema) (key : Value)
  | save (r : Record)
  | delete (r : Record)
  | give (model donor : String) (field : Field)

namespace Session.Operation

def after (d : Driver σ) : Operation → Session σ → Session σ
  | create place, s => final (Action.newRecord place s)
  | find schema key, s => final (Action.findRecord d schema key s)
  | save r, s => (final (RecordAction.save d ⟨s, r⟩)).session
  | delete r, s => (final (RecordAction.delete d ⟨s, r⟩)).session
  | give model donor field, s => final (Action.giveField model donor field s)

def afterAll (d : Driver σ) (ops : List Operation) (s : Session σ) : Session σ :=
  ops.foldl (fun s op => op.after d s) s

/-- The record of which an operation keeps a copy: what a look-up found without having one, and
what a save inserted, if it has a key. -/
inductive Keeps (d : Driver σ) (s : Session σ) : Operation → Record → Prop
  | found {schema : Schema} {key : Value} {r : Record} {t : Session σ}
      (hnone : s.identities.find? (.of schema.name key) = none)
      (hfound : Action.findRecord d schema key s = .ok (some r) t) (hkey : r.isNew = false) :
      Keeps d s (find schema key) r
  | inserted {r : Record} {f g : Focus σ}
      (hrow : RecordAction.saveRow d ⟨s, r⟩ = .ok (some true) f)
      (hsave : RecordAction.save d ⟨s, r⟩ = .ok true g) (hkey : g.record.isNew = false) :
      Keeps d s (save r) g.record

end Session.Operation

/-! ## What is kept -/

theorem IdentityMap.entries_get (m : IdentityMap) (i : Identity) :
    (m.get i).2.entries = m.entries := by
  unfold get
  split <;> rfl

theorem IdentityMap.mem_of_find? {m : IdentityMap} {i : Identity} {r : Record}
    (h : m.find? i = some r) : (i, r) ∈ m.entries := by
  obtain ⟨before, after, hentries, -⟩ := List.lookup_eq_some_iff.1 h
  simp [hentries]

theorem IdentityMap.mem_invalidate {m : IdentityMap} {i : Identity} {entry : Identity × Record}
    (h : entry ∈ (m.invalidate i).2.entries) : entry ∈ m.entries ∧ entry.1 ≠ i := by
  unfold invalidate at h
  split at h
  · exact (List.mem_filter.1 h).imp_right of_decide_eq_true
  · next hnone =>
    have hfree : ∀ r, (i, r) ∉ m.entries := by simpa [contains, find?] using hnone
    exact ⟨h, fun hi => hfree entry.2 (hi ▸ h)⟩

theorem IdentityMap.mem_store {m : IdentityMap} {r : Record} {entry : Identity × Record}
    (h : entry ∈ (m.store r).entries) : entry ∈ m.entries ∨
      ∃ key, r.key? = some key ∧ entry = (.of r.model key, r.detached) := by
  unfold store at h
  split at h
  · exact .inl h
  · next key hkey =>
    rcases List.mem_cons.1 h with rfl | h
    · exact .inr ⟨key, hkey, rfl⟩
    · exact .inl (List.mem_filter.1 h).1

namespace Action

/-- No operation but those that keep a copy adds to the identity map. -/
theorem forgetting_entries (d : Driver σ) :
    Forgetting d fun s t => t.identities.entries ⊆ s.identities.entries :=
  have hsame := sending_identities d
  { refl := fun _ _ h => h
    trans := fun hst htu _ h => hst (htu h)
    connect := fun name config s _ h => hsame.connect name config s ▸ h
    schema := fun key s _ h => hsame.schema key s ▸ h
    note := fun s notice _ h => hsame.note s notice ▸ h
    fetch := fun c sql values s _ h => hsame.fetch c sql values s ▸ h
    execute := fun c sql values s _ h => hsame.execute c sql values s ▸ h
    forget := by
      intro i s entry h
      exact (IdentityMap.mem_invalidate h).1 }

variable {d : Driver σ} {schema : Schema} {key : Value} {s t : Session σ} {r : Record}

theorem schema_takeIn (r : Record) (name : String) (v : Value) :
    (r.takeIn name v).schema = r.schema := by
  unfold Record.takeIn
  split <;> rfl

theorem schema_ofRow (schema : Schema) (row : Row) (filter : ImportFilter) :
    (Record.ofRow schema row filter).schema = schema := by
  have hfold (r : Record) :
      (row.foldl (fun r (entry : String × Value) => r.takeIn entry.1 entry.2) r).schema =
        r.schema := by
    induction row generalizing r with
    | nil => rfl
    | cons entry row ih => rw [List.foldl_cons, ih, schema_takeIn]
  exact hfold { schema, filter }

theorem schema_of_records {q : Query} {found : List Record} (h : records d schema q s = .ok found t)
    (hr : r ∈ found) : r.schema = schema := by
  obtain ⟨rows, u, -, h⟩ := bind_eq_ok.1 h
  obtain ⟨rfl, rfl⟩ := pure_eq_ok.1 h
  obtain ⟨row, -, rfl⟩ := List.mem_map.1 hr
  exact schema_ofRow schema row _

theorem schema_of_findRecord (hnone : s.identities.find? (.of schema.name key) = none)
    (h : findRecord d schema key s = .ok (some r) t) : r.schema = schema := by
  obtain hcopy | ⟨-, q, s₁, s₂, s₃, found, -, hfound, hhead⟩ := findRecord_cases h
  · simp [hnone] at hcopy
  · exact schema_of_records hfound (List.mem_of_mem_head? hhead)

/-- A look-up without a copy ends before it finds a record, or finds one and keeps a copy of it. -/
theorem findRecord_of_none (hnone : s.identities.find? (.of schema.name key) = none) :
    ((final (findRecord d schema key s)).identities.entries ⊆ s.identities.entries ∧
      ∀ r t, findRecord d schema key s ≠ .ok (some r) t) ∨
    ∃ (r : Record) (t : Session σ) (identities : IdentityMap),
      findRecord d schema key s = .ok (some r) t ∧
      identities.entries ⊆ s.identities.entries ∧ t.identities = identities.store r := by
  have hentries := forgetting_entries d
  unfold findRecord
  split
  · exact .inl ⟨fun _ h => h, by simp⟩
  rw [bind_of_ok (remembered_eq _), hnone]
  dsimp only
  have hq := hentries.queryOf schema
    { s with identities := (s.identities.get (.of schema.name key)).2 }
  rw [IdentityMap.entries_get] at hq
  cases hquery : queryOf schema
      { s with identities := (s.identities.get (.of schema.name key)).2 } with
  | error e t =>
    rw [hquery] at hq
    rw [bind_of_error hquery]
    exact .inl ⟨hq, by simp⟩
  | ok q t =>
    rw [hquery] at hq
    rw [bind_of_ok hquery]
    have hr := hentries.records schema ((q.filter (.key schema.primaryKey key)).atMost 1) t
    cases hrecords : records d schema ((q.filter (.key schema.primaryKey key)).atMost 1) t with
    | error e u =>
      rw [hrecords] at hr
      rw [bind_of_error hrecords]
      exact .inl ⟨fun _ h => hq (hr h), by simp⟩
    | ok found u =>
      rw [hrecords] at hr
      rw [bind_of_ok hrecords]
      cases hhead : found.head? with
      | none =>
        refine .inl ⟨fun _ h => hq (hr h), fun r v h => ?_⟩
        cases h
      | some r => exact .inr ⟨r, _, u.identities, rfl, fun _ h => hq (hr h), rfl⟩

theorem entries_findRecord_of_some {copy : Record}
    (hsome : s.identities.find? (.of schema.name key) = some copy) :
    (final (findRecord d schema key s)).identities.entries = s.identities.entries := by
  unfold findRecord
  split
  · rfl
  · rw [bind_of_ok (remembered_eq _), hsome]
    exact s.identities.entries_get _

/-- Giving a field fails and changes nothing, or it succeeds and drops the copies of the model. -/
theorem giveField_eq (model donor : String) (field : Field) (s : Session σ) :
    giveField model donor field s = match s.schemas.giveField model donor field with
      | .ok schemas => .ok () { s with schemas, identities := s.identities.dropModel model }
      | .error e => .error e s := by
  change (check (s.schemas.giveField model donor field) >>= _) s = _
  cases h : s.schemas.giveField model donor field <;> rfl

end Action

namespace RecordAction

variable {d : Driver σ}

/-- After its links a save only changes the record's marks and keeps a copy of an inserted one. -/
theorem finishSave_eq (inserting : Bool) (f : Focus σ) : ∃ notices,
    finishSave inserting f = .ok true
      { session := { f.session with
          notices
          identities := if inserting then f.session.identities.store f.record.clean
            else f.session.identities }
        record := f.record.clean } := by
  obtain ⟨notices, hafter⟩ := after_eq_ok .saved f
  refine ⟨notices, ?_⟩
  rw [finishSave, bind_of_ok hafter]
  cases inserting <;> rfl

/-- A save ends with its row or its links, or it finishes. -/
theorem save_cases (d : Driver σ) (f : Focus σ) :
    (final (save d f)).session.identities.entries ⊆ f.session.identities.entries ∨
      ∃ f₁ f₂ links, saveRow d f = .ok (some true) f₁ ∧ saveLinks d f₁ = .ok links f₂ ∧
        f₂.session.identities.entries ⊆ f.session.identities.entries ∧
        save d f = finishSave true f₂ := by
  have hentries := Action.forgetting_entries d
  have hrow := hentries.writing.saveRow f
  rw [save_eq]
  cases hsave : saveRow d f with
  | error e g =>
    rw [hsave] at hrow
    rw [bind_of_error hsave]
    exact .inl hrow
  | ok saved f₁ =>
    rw [hsave] at hrow
    rw [bind_of_ok hsave]
    cases saved with
    | none => exact .inl hrow
    | some inserting =>
      dsimp only
      have hlinks := hentries.saveLinks f₁
      cases hlink : saveLinks d f₁ with
      | error e g =>
        rw [hlink] at hlinks
        rw [bind_of_error hlink]
        exact .inl fun _ h => hrow (hlinks h)
      | ok links f₂ =>
        rw [hlink] at hlinks
        rw [bind_of_ok hlink]
        cases inserting with
        | true => exact .inr ⟨f₁, f₂, links, rfl, hlink, fun _ h => hrow (hlinks h), rfl⟩
        | false =>
          obtain ⟨notices, hfinish⟩ := finishSave_eq false f₂
          rw [hfinish]
          exact .inl fun _ h => hrow (hlinks h)

end RecordAction

namespace Session.Operation

variable {d : Driver σ} {s : Session σ} {op : Operation} {copy : Record} {key : Value}

theorem isNew_of_key? (h : copy.key? = some key) : copy.isNew = false := by
  rw [Record.isNew, h]
  rfl

/-- The step: a copy was there before the operation or is one that the operation keeps. -/
theorem mem_entries_after {entry : Identity × Record}
    (h : entry ∈ (op.after d s).identities.entries) : entry ∈ s.identities.entries ∨
      ∃ copy own, op.Keeps d s copy ∧ entry = (.of copy.model own, copy.detached) := by
  have hentries := Action.forgetting_entries d
  cases op with
  | create place => exact .inl h
  | find schema key =>
    cases hfind : s.identities.find? (.of schema.name key) with
    | some copy => exact .inl (Action.entries_findRecord_of_some hfind ▸ h)
    | none =>
      obtain ⟨hsub, -⟩ | ⟨r, t, identities, hfound, hsub, hstore⟩ := Action.findRecord_of_none hfind
      · exact .inl (hsub h)
      · rw [after, hfound] at h
        change entry ∈ t.identities.entries at h
        rw [hstore] at h
        obtain hold | ⟨own, hown, rfl⟩ := IdentityMap.mem_store h
        · exact .inl (hsub hold)
        · exact .inr ⟨r, own, .found hfind hfound (isNew_of_key? hown), rfl⟩
  | save r =>
    obtain hsub | ⟨f, g, links, hrow, hlink, hsub, hsave⟩ := RecordAction.save_cases d ⟨s, r⟩
    · exact .inl (hsub h)
    · obtain ⟨notices, hfinish⟩ := RecordAction.finishSave_eq true g
      rw [hfinish] at hsave
      rw [after, hsave] at h
      obtain hold | ⟨own, hown, rfl⟩ := IdentityMap.mem_store h
      · exact .inl (hsub hold)
      · exact .inr ⟨_, own, .inserted hrow hsave (isNew_of_key? hown), rfl⟩
  | delete r => exact .inl (hentries.delete ⟨s, r⟩ h)
  | give model donor field =>
    rw [after, Action.giveField_eq] at h
    cases hgive : s.schemas.giveField model donor field with
    | error e => exact .inl (by rwa [hgive] at h)
    | ok schemas =>
      rw [hgive] at h
      exact .inl (List.mem_filter.1 h).1

/-- The copy that an operation keeps is found after it. -/
theorem find?_after (h : op.Keeps d s copy) : ∃ key, key.isEmpty = false ∧
    (op.after d s).identities.find? (.of copy.model key) = some copy.detached := by
  have stored {r : Record} (hr : r.isNew = false) (m : IdentityMap) :
      ∃ key, key.isEmpty = false ∧ (m.store r).find? (.of r.model key) = some r.detached := by
    obtain ⟨key, hkey⟩ := Option.isSome_iff_exists.1 (Option.isNone_eq_false_iff.1 hr)
    have hempty := (Option.filter_eq_some_iff.1 hkey).2
    exact ⟨key, by simpa using hempty, IdentityMap.find?_store_self m r hkey⟩
  cases h with
  | @found schema _ _ t hnone hfound hkey =>
    obtain ⟨-, hno⟩ | ⟨r, u, identities, hfound', -, hstore⟩ := Action.findRecord_of_none hnone
    · exact absurd hfound (hno _ _)
    · rw [hfound] at hfound'
      cases hfound'
      rw [after, hfound]
      change ∃ key, _ ∧ t.identities.find? _ = _
      rw [hstore]
      exact stored hkey identities
  | @inserted r f g hrow hsave hkey =>
    rw [after, hsave]
    rw [RecordAction.save_eq, bind_of_ok hrow] at hsave
    obtain ⟨links, f', -, hfinish⟩ := bind_eq_ok.1 hsave
    obtain ⟨notices, hfinish'⟩ := RecordAction.finishSave_eq true f'
    rw [hfinish] at hfinish'
    cases hfinish'
    exact stored hkey _

/-! ## The registry in a run -/

/-- What resolving a model keeps of the registry is kept by all uses of records. -/
theorem remembering_schemas (d : Driver σ) {P : SchemaRegistry → Prop}
    (hP : ∀ r key, P r → P (r.resolve key).2) :
    Action.Remembering d fun s t => P s.schemas → P t.schemas where
  refl _ h := h
  trans hst htu h := htu (hst h)
  connect name config s h := by
    unfold Action.connect
    dsimp only
    split <;> exact h
  schema key s h := hP s.schemas key h
  note _ _ h := h
  fetch c sql values s h := by
    unfold Action.send
    dsimp only
    split <;> exact h
  execute c sql values s h := by
    unfold Action.send
    dsimp only
    split <;> exact h
  ask _ _ h := h
  remember _ _ h := h
  forget _ _ h := h

/-- The step: what resolving and giving keep of the registry is kept by every operation. -/
theorem schemas_after {P : SchemaRegistry → Prop} (hresolve : ∀ r key, P r → P (r.resolve key).2)
    (hgive : ∀ r model donor field r', r.giveField model donor field = .ok r' → P r → P r')
    (op : Operation) (hs : P s.schemas) : P (op.after d s).schemas := by
  have hR := remembering_schemas d hresolve
  cases op with
  | create place => exact hR.schema place s hs
  | find schema key => exact hR.findRecord schema key s hs
  | save r => exact hR.save ⟨s, r⟩ hs
  | delete r => exact hR.delete ⟨s, r⟩ hs
  | give model donor field =>
    rw [after, Action.giveField_eq]
    cases h : s.schemas.giveField model donor field with
    | error e => exact hs
    | ok schemas => exact hgive _ _ _ _ _ h hs

/-! ## Runs -/

theorem afterAll_induction {P : Session σ → Prop} (hstep : ∀ s (op : Operation), P s →
    P (op.after d s)) (ops : List Operation) (hs : P s) : P (afterAll d ops s) := by
  induction ops generalizing s with
  | nil => exact hs
  | cons first rest ih => exact ih (hstep s first hs)

/-- The registry keeps the models' declarations, and what it put together has their names. -/
theorem named_afterAll (ops : List Operation) (hs : s.schemas.Named) :
    (afterAll d ops s).schemas.Named ∧
      (afterAll d ops s).schemas.declared = s.schemas.declared := by
  have hstep (t : Session σ) (op : Operation) :=
    schemas_after (d := d) (s := t) (P := fun r => r.Named ∧ r.declared = s.schemas.declared)
      (fun r key h => ⟨h.1.resolve key, (r.declared_resolve key).trans h.2⟩)
      (fun _ _ _ _ _ hr h => ⟨h.1.giveField hr, (declared_giveField hr).trans h.2⟩) op
  exact afterAll_induction (P := fun t => t.schemas.Named ∧
    t.schemas.declared = s.schemas.declared) hstep ops ⟨hs, rfl⟩

/-- Once a field was given to a model, the registry's schemas of the model declare it. -/
theorem declares_of_gives {model name : String} {ops : List Operation} (hnamed : s.schemas.Named)
    (hgives : s.schemas.Gives model name) {t : Session σ} (ht : t ∈ states (after d) ops s)
    {place : Nat}
    (hplace : (s.schemas.declared place).name = model) :
    (t.schemas.resolve place).1.name = model ∧ (t.schemas.resolve place).1.Declares name := by
  have hstep (t : Session σ) (op : Operation) := schemas_after (d := d) (s := t)
    (P := fun r => r.Named ∧ r.declared = s.schemas.declared ∧ r.Gives model name)
    (fun r key h => ⟨h.1.resolve key, (r.declared_resolve key).trans h.2.1, h.2.2.resolve key⟩)
    (fun _ _ _ _ _ hr h =>
      ⟨h.1.giveField hr, (declared_giveField hr).trans h.2.1, h.2.2.giveField hr⟩) op
  obtain ⟨hn, hdeclared, hg⟩ := forall_mem_states (P := fun t => t.schemas.Named ∧
    t.schemas.declared = s.schemas.declared ∧ t.schemas.Gives model name)
    ⟨hnamed, rfl, hgives⟩ (fun t op _ => hstep t op) t ht
  rw [← hdeclared] at hplace
  exact ⟨hn.name_resolve hplace, hg.declares_resolve hn hplace⟩

/-! ## What look-ups serve -/

/-- All copies of a model's records have a schema with a field. -/
def Current (model name : String) (m : IdentityMap) : Prop :=
  ∀ entry ∈ m.entries, entry.1.model = model → entry.2.schema.Declares name

/-- A look-up by a schema of a model that declares a field finds only records with the field. -/
def Serves (d : Driver σ) (s : Session σ) (model name : String) : Prop :=
  ∀ schema key r t, schema.name = model → schema.Declares name →
    Action.findRecord d schema key s = .ok (some r) t → r.schema.Declares name

variable {model donor name : String}

theorem Current.serves (h : Current model name s.identities) : Serves d s model name := by
  rintro schema key r t rfl hdeclares hfound
  cases hfind : s.identities.find? (.of schema.name key) with
  | none => rwa [Action.schema_of_findRecord hfind hfound]
  | some copy =>
    obtain hcopy | ⟨hnone, -⟩ := Action.findRecord_cases hfound
    · exact h _ (IdentityMap.mem_of_find? hcopy) rfl
    · simp [hfind] at hnone

/-- The step: the copies stay current if the operation keeps no outdated one. -/
theorem Current.after (h : Current model name s.identities)
    (hkeeps : ∀ copy, op.Keeps d s copy → copy.model = model → copy.schema.Declares name) :
    Current model name (op.after d s).identities := by
  intro entry hentry hmodel
  obtain hold | ⟨copy, own, hcopy, rfl⟩ := mem_entries_after hentry
  · exact h entry hold hmodel
  · exact hkeeps copy hcopy hmodel

/-- After an operation that kept an outdated copy a look-up finds it. -/
theorem not_serves_after (h : op.Keeps d s copy)
    (houtdated : ¬ copy.schema.Declares name) : ¬ Serves d (op.after d s) copy.model name := by
  intro hserves
  obtain ⟨key, hkey, hfind⟩ := find?_after h
  let schema := copy.schema.declare { name, type := .bigInt }
  have hfield : schema.field name = some { name, type := .bigInt } :=
    copy.schema.field_declare_self { name, type := .bigInt }
  have hdeclares : schema.Declares name := by rw [Schema.Declares, hfield]; rfl
  exact houtdated (hserves schema key copy.detached _ rfl hdeclares
    (Action.findRecord_of_find? hkey hfind))

/-- The run: look-ups serve the field in all its sessions just when no operation keeps an outdated
copy. -/
theorem serves_iff {ops : List Operation} (hs : Current model name s.identities) :
    (∀ t ∈ states (after d) ops s, Serves d t model name) ↔
      ∀ t op copy, (t, op) ∈ visited (after d) ops s → op.Keeps d t copy → copy.model = model →
        copy.schema.Declares name := by
  constructor
  · rintro hserves t op copy hmem hkeeps rfl
    by_contra houtdated
    exact not_serves_after hkeeps houtdated (hserves _ (after_mem_states hmem))
  · intro hkeeps
    have hcurrent := forall_mem_states (P := fun t => Current model name t.identities) hs
      fun t op hmem ht => ht.after fun copy => hkeeps t op copy hmem
    exact fun t ht => (hcurrent t ht).serves

/-- In a session that began without schemas put together, a field is given to a model. In all
sessions of a run from then on, the registry's schemas of the model declare the field. Look-ups by
schemas that declare it serve only records that have it, all through the run, just when no operation
of the run keeps a copy of a record of the model that lacks it: no save inserts a record that was
made with an older schema, and no look-up by an older schema asks the driver, which makes the record
with the schema of the look-up. -/
theorem given_field_served_iff (d : Driver σ) {s s₁ : Session σ} {earlier : List Operation}
    (later : List Operation) {field : Field} (hfresh : s.schemas.assembled = [])
    (hgive : Action.giveField model donor field (afterAll d earlier s) = .ok () s₁) :
    (∀ t ∈ states (after d) later s₁, ∀ place, (s.schemas.declared place).name = model →
      (t.schemas.resolve place).1.name = model ∧
        (t.schemas.resolve place).1.Declares field.name) ∧
    ((∀ t ∈ states (after d) later s₁, Serves d t model field.name) ↔
      ∀ t op copy, (t, op) ∈ visited (after d) later s₁ → op.Keeps d t copy → copy.model = model →
        copy.schema.Declares field.name) ∧
    ∀ t schema key r u, t.identities.find? (.of schema.name key) = none →
      Action.findRecord d schema key t = .ok (some r) u → r.schema = schema := by
  rw [Action.giveField_eq] at hgive
  cases hschemas : (afterAll d earlier s).schemas.giveField model donor field with
  | error e =>
    rw [hschemas] at hgive
    cases hgive
  | ok schemas =>
    rw [hschemas] at hgive
    cases hgive
    have hnil : s.schemas.Named := fun entry hentry => by simp [hfresh] at hentry
    obtain ⟨hnamed, hdeclared⟩ := named_afterAll (d := d) earlier hnil
    refine ⟨fun t ht place hplace => ?_, serves_iff fun entry hentry hmodel => ?_,
      fun t schema key r u hnone hfound => Action.schema_of_findRecord hnone hfound⟩
    · refine declares_of_gives (hnamed.giveField hschemas) (gives_of_giveField hschemas) ht ?_
      rw [declared_giveField hschemas, hdeclared, hplace]
    · exact absurd hmodel (of_decide_eq_true (List.mem_filter.1 hentry).2)

def playerModel : Schema := (Schema.new "Player" "players").withColumn "name" (.varchar 32)

def rankField : Field := { name := "rank", type := .integer }

/-- A session with a server that gives the key 7 to the row it stores and returns. -/
def playerSession : Session Scripted.Servers :=
  Scripted.session [playerModel]
    { scripts := [⟨"players", .rows [[("id", .int64 7), ("name", .text "Ann")]], false⟩] }

def rankedSession : Session Scripted.Servers :=
  final (Action.giveField "Player" "Guild" rankField playerSession)

theorem rankedSession_serves :
    Action.giveField "Player" "Guild" rankField (afterAll Scripted.driver [] playerSession) =
      .ok () rankedSession ∧
    ∀ t ∈ states (after Scripted.driver) [.find (playerModel.declare rankField) (.int64 7)]
        rankedSession,
      Serves Scripted.driver t "Player" "rank" := by
  have hgive : Action.giveField "Player" "Guild" rankField
      (afterAll Scripted.driver [] playerSession) = .ok () rankedSession :=
    eq_ok_of_value? (by decide +kernel)
  obtain ⟨-, hserves, -⟩ := given_field_served_iff Scripted.driver
    [.find (playerModel.declare rankField) (.int64 7)] rfl hgive
  refine ⟨hgive, hserves.2 fun t op copy hmem hkeeps _ => ?_⟩
  cases List.mem_singleton.1 hmem
  cases hkeeps with
  | found hnone hfound _ =>
    rw [Action.schema_of_findRecord hnone hfound]
    decide +kernel

def olderPlayer : Record := final (Edit.assign "name" (.scalar (.text "Ann")) (.new playerModel))

def savedSession : Session Scripted.Servers :=
  afterAll Scripted.driver [.save olderPlayer] rankedSession

/-- The registry's schema declares the field, and the record that it finds does not. -/
theorem savedSession_outdated :
    (savedSession.schemas.resolve 0).1.Declares "rank" ∧
    (value? (Action.findRecord Scripted.driver (savedSession.schemas.resolve 0).1 (.int64 7)
      savedSession)).map (fun found => found.map fun r =>
        (r.model, decide (r.schema.Declares "rank"))) = some (some ("Player", false)) := by
  decide +kernel

end Session.Operation

end RowMapper
