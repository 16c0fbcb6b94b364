import RowMapper.Proofs.Record.Tracking
import RowMapper.Proofs.Schema.Declarations
import RowMapper.Proofs.Session.Loads
import RowMapper.Proofs.Session.Lookups

/-! # The owner that a record is known to have

Of a relation whose key this row holds there are two copies: the key in its column, and
the related record once that is known. Assigning to the relation and loading it write
both. An assignment to the column itself, or to another relation with the same column,
writes the key and leaves the related record, so it stays known although the key is now
another one. As long as no such assignment changes the text of the key, and the column
takes the keys of assigned records as they are, the two copies agree.
-/

namespace RowMapper

open Run

variable {σ : Type}

namespace Record

def keyText (r : Record) (column : String) : String := ((r.value? column).getD .null).keyString

def ownerText? (r : Record) (name : String) : Option String :=
  match r.related? name with
  | some (.one (some owner)) => some owner.ownKey.keyString
  | _ => none

/-- A related record that is known has the key that the row holds for it. -/
def Agrees (name : String) (relation : Relation) (r : Record) : Prop :=
  ∀ owner, r.related? name = some (.one (some owner)) →
    owner.ownKey.keyString = r.keyText relation.localColumn

variable {r s : Record} {name field : String} {v : FieldValue Record} {relation : Relation}

/-! ## What assignments leave alone -/

/-- An assignment to another field leaves what is known of a relation. -/
theorem related?_effect_of_ne (he : Edit.Effect field v r s) (hne : field ≠ name) :
    s.related? name = r.related? name := by
  have kept (r : Record) (found : Related Record) :
      (r.keep field found).related? name = r.related? name :=
    Entries.get?_put_of_ne _ _ hne
  have forgotten (r : Record) : (r.forget field).related? name = r.related? name :=
    Entries.get?_erase_of_ne _ hne
  cases he with
  | refused => rfl
  | column => exact (r.changesRow_storeCoerced _ _).related? name
  | sqlText => exact (r.changesRow_store _ _ _).related? name
  | owner => rw [kept, (r.changesRow_storeCoerced _ _).related?]
  | noOwner => rw [kept, (r.changesRow_storeCoerced _ _).related?]
  | ownerKey => rw [forgotten, (r.changesRow_storeCoerced _ _).related?]
  | dependents => exact kept _ _
  | links _ _ _ _ before keys found =>
    have hsame := (r.changesRow_remember field before).related? name
    cases found with
    | some found => exact (kept _ found).trans hsame
    | none => exact (forgotten _).trans hsame
  | undeclared => rfl

def WritesKey (s : Schema) (relation : Relation) (field : String) : Prop :=
  field = relation.localColumn ∨
    ∃ other, s.relation field = some other ∧ other.localColumn = relation.localColumn

theorem SameAt.value?_eq {name : String} (h : SameAt name r s) : s.value? name = r.value? name := by
  rw [value?, value?, h.data, h.extra]

theorem keyText_effect (he : Edit.Effect field v r s)
    (hfield : ¬ WritesKey r.schema relation field) :
    s.keyText relation.localColumn = r.keyText relation.localColumn := by
  have hcolumn : field ≠ relation.localColumn := fun h => hfield (.inl h)
  have hother (other : Relation) (h : r.schema.relation field = some other) :
      other.localColumn ≠ relation.localColumn := fun hsame => hfield (.inr ⟨other, h, hsame⟩)
  unfold keyText
  congr 2
  cases he with
  | refused => rfl
  | column _ w => exact (r.sameAt_storeCoerced hcolumn w).value?_eq
  | sqlText _ sql => exact (r.sameAt_store hcolumn _ _).value?_eq
  | owner _ _ h => exact (r.sameAt_storeCoerced (hother _ h) _).value?_eq
  | noOwner _ _ h => exact (r.sameAt_storeCoerced (hother _ h) _).value?_eq
  | ownerKey _ _ h => exact (r.sameAt_storeCoerced (hother _ h) _).value?_eq
  | dependents => rfl
  | links _ _ _ _ before keys found =>
    unfold assigned remember
    split <;> cases found <;> rfl
  | undeclared _ w =>
    change (r.data.get? _).or ((r.extra.put field w).get? _) = _
    rw [Entries.get?_put_of_ne _ _ hcolumn]
    rfl

/-! ## One assignment -/

/-- A record that is assigned to its relation is kept with its key, if it is accepted. -/
theorem final_assign_related (h : r.schema.BelongsTo name relation) (owner : Record) :
    final (Edit.assign name (.related owner) r) =
      if r.voided = false ∧ owner.model = relation.target.name then
        (r.storeCoerced relation.localColumn owner.ownKey).keep name (.one (some owner))
      else r := by
  change final ((Edit.check r.ensureLive >>= _) r) = _
  rw [Edit.final_check_bind, ensureLive]
  cases hv : r.voided with
  | true => rfl
  | false =>
    have hrun : final (Edit.assignOwner name relation (.related owner) r) =
        if owner.model = relation.target.name then
          (r.storeCoerced relation.localColumn owner.ownKey).keep name (.one (some owner))
        else r := by
      change final ((Edit.check (r.checkTarget name relation owner) >>= _) r) = _
      rw [Edit.final_check_bind, checkTarget]
      by_cases hmodel : owner.model = relation.target.name
      · simp only [hmodel, if_true]
        rfl
      · simp only [hmodel, if_false]
    simp [h.access, h.declared, Edit.assignRelation, h.kind, hrun]

/-- When an assignment leaves the copies of a key in agreement: of the relation itself if the
column takes the key of the assigned record as it is, and of any other field that writes the key
if no related record is known or the text of the key stays the same. -/
def SetAgrees (name : String) (relation : Relation) (r : Record) (field : String)
    (v : FieldValue Record) : Prop :=
  if field = name then
    ∀ owner, v = .related owner → r.voided = false → owner.model = relation.target.name →
      (r.storeCoerced relation.localColumn owner.ownKey).keyText relation.localColumn =
        owner.ownKey.keyString
  else
    WritesKey r.schema relation field → ∀ owner, r.related? name = some (.one (some owner)) →
      (final (Edit.assign field v r)).keyText relation.localColumn =
        r.keyText relation.localColumn

/-- Of the relation itself only the assignment of a record makes one known. -/
theorem agrees_effect_self (h : r.schema.BelongsTo name relation) (hr : Agrees name relation r)
    (hv : ∀ owner, v ≠ .related owner) (he : Edit.Effect name v r s) :
    Agrees name relation s := by
  have hcolumn : r.schema.hasColumn name = false := by simp [Schema.hasColumn, h.access]
  have hkind (other : Relation) (hother : r.schema.relation name = some other) :
      other.kind = .belongsTo := by
    rw [← h.kind, Option.some.inj (hother.symm.trans h.declared)]
  have unknown (s : Record) (hs : ∀ owner, s.related? name ≠ some (.one (some owner))) :
      Agrees name relation s := fun owner howner => absurd howner (hs owner)
  cases he with
  | refused => exact hr
  | column hname => simp [hcolumn] at hname
  | sqlText hname => simp [hcolumn] at hname
  | owner _ _ _ _ owner howner => exact absurd howner (hv owner)
  | noOwner =>
    apply unknown
    intro owner
    simp [keep, related?]
  | ownerKey =>
    apply unknown
    intro owner
    simp [forget, related?, Entries.get?_erase_self]
  | dependents _ other hother hne => exact absurd (hkind other hother) hne
  | links _ other hother hne => exact absurd (hkind other hother) hne
  | undeclared hname => simp [h.access] at hname

/-- The step for an assignment: the copies agree after it just when it is one that leaves them in
agreement. -/
theorem agrees_assign_iff (h : r.schema.BelongsTo name relation) (hr : Agrees name relation r)
    (field : String) (v : FieldValue Record) :
    Agrees name relation (final (Edit.assign field v r)) ↔
      SetAgrees name relation r field v := by
  have he := Edit.effect_assign field v r
  unfold SetAgrees
  by_cases hfield : field = name
  · subst hfield
    rw [if_pos rfl]
    by_cases hv : ∃ owner, v = .related owner
    · rcases hv with ⟨owner, rfl⟩
      rw [final_assign_related h]
      by_cases haccepted : r.voided = false ∧ owner.model = relation.target.name
      · rw [if_pos haccepted]
        have hknown : ((r.storeCoerced relation.localColumn owner.ownKey).keep field
            (.one (some owner))).related? field = some (.one (some owner)) :=
          Entries.get?_put_self _ _ _
        constructor
        · rintro hs _ ⟨⟩ - -
          exact (hs owner hknown).symm
        · intro hs other hother
          obtain rfl : owner = other := by simpa [hknown] using hother
          exact (hs owner rfl haccepted.1 haccepted.2).symm
      · rw [if_neg haccepted]
        refine iff_of_true hr ?_
        rintro _ ⟨⟩ hlive hmodel
        exact absurd ⟨hlive, hmodel⟩ haccepted
    · rw [not_exists] at hv
      exact iff_of_true (agrees_effect_self h hr hv he) fun owner howner => absurd howner (hv owner)
  · rw [if_neg hfield]
    have hknown := related?_effect_of_ne he hfield
    constructor
    · intro hs _ owner howner
      rw [← hs owner (hknown.trans howner), ← hr owner howner]
    · intro hs owner howner
      rw [hknown] at howner
      rw [hr owner howner]
      by_cases hwrites : WritesKey r.schema relation field
      · exact (hs hwrites owner howner).symm
      · exact (keyText_effect he hwrites).symm

end Record

/-! ## Loading -/

namespace RecordAction

variable {name : String} {relation : Relation}

/-- What the driver returns for the query of a key has the text of that key. -/
def AnswersKey (d : Driver σ) (s : Session σ) (schema : Schema) (key : Value) : Prop :=
  ∀ q t found u r,
    Action.queryOf schema
      { s with identities := (s.identities.get (.of schema.name key)).2 } = .ok q t →
    Action.records d schema ((q.filter (.key schema.primaryKey key)).atMost 1) t = .ok found u →
    found.head? = some r → r.ownKey.keyString = key.keyString

theorem answersKey_of_value? {d : Driver σ} {s : Session σ} {schema : Schema} {key : Value}
    (h : value? ((do
      let q ← Action.queryOf schema
      let found ← Action.records d schema ((q.filter (.key schema.primaryKey key)).atMost 1)
      return found.head?.all fun r => r.ownKey.keyString = key.keyString : Action σ Bool)
        { s with identities := (s.identities.get (.of schema.name key)).2 }) = some true) :
    AnswersKey d s schema key := by
  intro q t found u r hq hfound hhead
  rw [bind_of_ok hq, bind_of_ok hfound, hhead] at h
  have hown : decide (r.ownKey.keyString = key.keyString) = true := Option.some.inj h
  exact of_decide_eq_true hown

theorem ownKey_of_findRecord {d : Driver σ} {schema : Schema} {key : Value} {s t : Session σ}
    {r : Record} (hfiled : s.identities.Filed) (hanswers : AnswersKey d s schema key)
    (h : Action.findRecord d schema key s = .ok (some r) t) :
    r.ownKey.keyString = key.keyString := by
  unfold Action.findRecord at h
  split at h
  · simp at h
  · rw [bind_of_ok (Action.remembered_eq _)] at h
    cases hfind : s.identities.find? (.of schema.name key) with
    | some copy =>
      simp only [hfind, pure_eq_ok, Option.some.injEq] at h
      obtain ⟨own, hown, -, htext⟩ := hfiled.find? hfind
      have hdata : copy.data.get? copy.schema.primaryKey = some own :=
        (Option.filter_eq_some_iff.1 hown).1
      have hkey : copy.ownKey = own := by simp [Record.ownKey, Record.value?, hdata]
      rw [← h.1, hkey, htext]
    | none =>
      simp only [hfind] at h
      obtain ⟨q, t, hq, h⟩ := bind_eq_ok.1 h
      obtain ⟨found, u, hfound, h⟩ := bind_eq_ok.1 h
      obtain ⟨_, _, -, h⟩ := bind_eq_ok.1 h
      exact hanswers q t found u r hq hfound (pure_eq_ok.1 h).1

theorem ownKey_of_ownerRecord {d : Driver σ} {r : Record} {target : Schema} {s t : Session σ}
    {owner : Record} (hfiled : s.identities.Filed)
    (hanswers : ∀ key, r.value? relation.localColumn = some key → AnswersKey d s target key)
    (h : Action.ownerRecord d r relation target s = .ok (some owner) t) :
    owner.ownKey.keyString = r.keyText relation.localColumn := by
  unfold Action.ownerRecord at h
  cases hkey : r.value? relation.localColumn with
  | none => simp [hkey] at h
  | some key =>
    simp only [hkey] at h
    split at h
    · simp at h
    · rw [ownKey_of_findRecord hfiled (hanswers key hkey) h, Record.keyText, hkey]
      rfl

/-- The driver's answers to the loading of a relation match the key that is queried. -/
def Answered (d : Driver σ) (f : Focus σ) (field : String) : Prop :=
  ∀ relation target s key, f.record.schema.relation field = some relation →
    Action.targetSchema relation f.session = .ok target s →
      f.record.value? relation.localColumn = some key → AnswersKey d s target key

/-- The step for loading: the copies agree after it. -/
theorem agrees_load {d : Driver σ} {f : Focus σ}
    (h : f.record.schema.BelongsTo name relation) (hfiled : f.session.identities.Filed)
    (hr : f.record.Agrees name relation) {field : String} (hanswered : Answered d f field) :
    (final (load d field f)).record.Agrees name relation := by
  rcases load_cases d field f with ⟨hsame, -⟩ | ⟨other, target, s, found, s', hother, -, htarget,
    hresolve, hload⟩
  · rwa [hsame]
  rw [hload]
  change (f.record.keep field found).Agrees name relation
  intro owner howner
  change owner.ownKey.keyString = f.record.keyText relation.localColumn
  by_cases hfield : field = name
  · subst hfield
    obtain rfl : other = relation := Option.some.inj (hother.symm.trans h.declared)
    have hs : s.identities = f.session.identities := by
      cases htarget
      rfl
    have hfound : found = .one (some owner) := by
      simpa [Record.keep, Record.related?] using howner
    rw [Action.resolve, if_pos h.kind] at hresolve
    obtain ⟨o, t, howner', hresolve⟩ := bind_eq_ok.1 hresolve
    obtain rfl : o = some owner := by
      have hsome := (pure_eq_ok.1 hresolve).1
      simpa [hfound] using hsome
    exact ownKey_of_ownerRecord (hs ▸ hfiled)
      (fun key => hanswered other target s key hother htarget) howner'
  · have hknown : (f.record.keep field found).related? name = f.record.related? name :=
      Entries.get?_put_of_ne _ _ hfield
    exact hr owner (hknown.symm.trans howner)

/-! ## Runs -/

inductive Use where
  | set (field : String) (v : FieldValue Record)
  | load (field : String)

def Use.after (d : Driver σ) : Use → Focus σ → Focus σ
  | set field v, f => { f with record := final (Edit.assign field v f.record) }
  | load field, f => final (RecordAction.load d field f)

def visited (d : Driver σ) : List Use → Focus σ → List (Focus σ × Use)
  | [], _ => []
  | use :: rest, f => (f, use) :: visited d rest (use.after d f)

theorem Use.after_setting (d : Driver σ) (use : Use) {f : Focus σ}
    (hfiled : f.session.identities.Filed) :
    (use.after d f).record.schema = f.record.schema ∧
      (use.after d f).session.identities.Filed := by
  cases use with
  | set field v =>
    exact ⟨Record.acrossWrites_schema.effect (Edit.effect_assign field v f.record), hfiled⟩
  | load field =>
    refine ⟨?_, (Action.remembering_filed d).load field f hfiled⟩
    change (final (RecordAction.load d field f)).record.schema = _
    rcases load_cases d field f with ⟨hsame, -⟩ | ⟨_, _, _, _, _, -, -, -, -, hload⟩
    · rw [hsame]
    · rw [hload]
      rfl

theorem visited_setting {d : Driver σ} {uses : List Use} {f : Focus σ}
    (hfiled : f.session.identities.Filed) :
    ∀ g use, (g, use) ∈ visited d uses f →
      g.record.schema = f.record.schema ∧ g.session.identities.Filed := by
  induction uses generalizing f with
  | nil => exact fun _ _ h => nomatch h
  | cons first rest ih =>
    obtain ⟨hschema, hfiled'⟩ := first.after_setting d hfiled
    intro g use hmem
    rcases List.mem_cons.1 hmem with h | h
    · cases h
      exact ⟨rfl, hfiled⟩
    · obtain ⟨hsame, hg⟩ := ih hfiled' g use h
      exact ⟨hsame.trans hschema, hg⟩

/-- The run: from a record whose copies agree, they agree after every use just when each assignment
is one that leaves them in agreement. -/
theorem agrees_after_iff {d : Driver σ} {uses : List Use} {f : Focus σ}
    (h : f.record.schema.BelongsTo name relation) (hfiled : f.session.identities.Filed)
    (hr : f.record.Agrees name relation)
    (hanswered : ∀ g field, (g, Use.load field) ∈ visited d uses f → Answered d g field) :
    (∀ g use, (g, use) ∈ visited d uses f → (use.after d g).record.Agrees name relation) ↔
      ∀ g field v, (g, Use.set field v) ∈ visited d uses f →
        g.record.SetAgrees name relation field v := by
  induction uses generalizing f with
  | nil => exact iff_of_true (fun _ _ h => nomatch h) fun _ _ _ h => nomatch h
  | cons first rest ih =>
    obtain ⟨hschema, hfiled'⟩ := first.after_setting d hfiled
    have hfirst : (first.after d f).record.Agrees name relation ↔
        ∀ field v, first = .set field v → f.record.SetAgrees name relation field v := by
      cases first with
      | set field v =>
        refine (Record.agrees_assign_iff h hr field v).trans ⟨?_, fun hset => hset field v rfl⟩
        rintro hset _ _ ⟨⟩
        exact hset
      | load field =>
        exact iff_of_true (agrees_load h hfiled hr (hanswered f field (List.mem_cons_self ..)))
          fun _ _ h => nomatch h
    have hrest (hagrees : (first.after d f).record.Agrees name relation) :=
      ih (hschema.symm ▸ h) hfiled' hagrees fun g field hmem =>
        hanswered g field (List.mem_cons_of_mem _ hmem)
    constructor
    · intro hall g field v hmem
      have hagrees := hall f first (List.mem_cons_self ..)
      rcases List.mem_cons.1 hmem with hhead | htail
      · cases hhead
        exact hfirst.1 hagrees field v rfl
      · exact (hrest hagrees).1 (fun g use hmem => hall g use (List.mem_cons_of_mem _ hmem))
          g field v htail
    · intro hall g use hmem
      have hagrees : (first.after d f).record.Agrees name relation :=
        hfirst.2 fun field v hset => hall f field v (hset ▸ List.mem_cons_self ..)
      rcases List.mem_cons.1 hmem with hhead | htail
      · cases hhead
        exact hagrees
      · exact (hrest hagrees).2
          (fun g field v hmem => hall g field v (List.mem_cons_of_mem _ hmem)) g use htail

/-- Of a live record just the related record that is known is read. -/
theorem fieldValue_eq_related_iff {r owner : Record} (h : r.schema.BelongsTo name relation) :
    r.fieldValue name = .ok (.related owner) ↔
      r.voided = false ∧ r.related? name = some (.one (some owner)) := by
  rw [Record.fieldValue, h.access, Record.ensureLive]
  cases r.voided with
  | true => simp [bind, Except.bind]
  | false =>
    cases hknown : r.related? name with
    | none =>
      cases hpending : r.pending.get? name <;>
        simp [bind, Except.bind, pure, Except.pure]
    | some found =>
      rcases found with (_ | other) | records <;>
        simp [Related.toFieldValue, bind, Except.bind, pure, Except.pure]

theorem read_of_ownerText? (d : Driver σ) {r : Record} {key : String}
    (h : r.schema.BelongsTo name relation) (hlive : r.voided = false)
    (hkey : r.ownerText? name = some key) :
    ∃ owner, r.fieldValue name = .ok (.related owner) ∧
      (∀ s, load d name ⟨s, r⟩ = .ok (.one (some owner)) ⟨s, r⟩) ∧
      owner.ownKey.keyString = key := by
  unfold Record.ownerText? at hkey
  split at hkey
  · next owner hknown =>
      refine ⟨owner, (fieldValue_eq_related_iff h).2 ⟨hlive, hknown⟩, fun s => ?_,
        Option.some.inj hkey⟩
      exact load_of_related? hlive h.declared hknown
  · cases hkey

/-- From a record whose copies of a key agree, and with answers that match the keys that are
queried: the copies agree after each use just when every assignment is one that leaves them in
agreement. Where they agree, no related record is read or loaded that the key does not name. -/
theorem owner_agrees_iff {d : Driver σ} {uses : List Use} {f : Focus σ}
    (h : f.record.schema.BelongsTo name relation) (hfiled : f.session.identities.Filed)
    (hr : f.record.Agrees name relation)
    (hanswered : ∀ g field, (g, Use.load field) ∈ visited d uses f → Answered d g field) :
    ((∀ g use, (g, use) ∈ visited d uses f → (use.after d g).record.Agrees name relation) ↔
      ∀ g field v, (g, Use.set field v) ∈ visited d uses f →
        g.record.SetAgrees name relation field v) ∧
    ∀ g use, (g, use) ∈ visited d uses f → g.record.Agrees name relation → ∀ owner,
      (g.record.fieldValue name = .ok (.related owner) →
        owner.ownKey.keyString = g.record.keyText relation.localColumn) ∧
      ∀ g', use = .load name → load d name g = .ok (.one (some owner)) g' →
        owner.ownKey.keyString = g'.record.keyText relation.localColumn := by
  refine ⟨agrees_after_iff h hfiled hr hanswered, fun g use hmem hagrees owner => ?_⟩
  obtain ⟨hschema, hg⟩ := visited_setting hfiled g use hmem
  have hbelongs : g.record.schema.BelongsTo name relation := hschema.symm ▸ h
  refine ⟨fun hread => hagrees owner ((fieldValue_eq_related_iff hbelongs).1 hread).2, ?_⟩
  rintro g' rfl hload
  have hafter := agrees_load hbelongs hg hagrees (hanswered g name hmem)
  rw [hload] at hafter
  exact hafter owner (related?_of_load hload)

def authorSample : Schema := .new "Author" "authors"

def authorRelation : Relation :=
  { kind := .belongsTo, target := authorSample.ref 1, localKey := some "author_id" }

def bookSample : Schema :=
  ((Schema.new "Book" "books").withColumn "author_id" .bigInt).withRelation "author" authorRelation

def authorOf (key : Int64) : Record := .ofRow authorSample [("id", .int64 key)]

def loadedBook : Focus Scripted.Servers where
  session := Scripted.session [bookSample, authorSample]
    { scripts := [⟨"authors", .rows [[("id", .int64 5)]], false⟩] }
  record := .ofRow bookSample [("id", .int64 1), ("author_id", .int64 5)]

def readBook : Focus Scripted.Servers := (Use.load "author").after Scripted.driver loadedBook

theorem belongsTo_bookSample : bookSample.BelongsTo "author" authorRelation where
  access := by decide +kernel
  declared := rfl
  kind := rfl

theorem agrees_loadedBook : loadedBook.record.Agrees "author" authorRelation :=
  fun _ h => nomatch h

theorem answered_loadedBook : Answered Scripted.driver loadedBook "author" := by
  intro relation target s key hrelation htarget hkey
  obtain rfl : authorRelation = relation := Option.some.inj hrelation
  cases htarget
  obtain rfl : Value.int64 5 = key := Option.some.inj hkey
  exact answersKey_of_value? (by decide +kernel)

/-- The author is loaded, the column is set to the key that it has, and another author assigned:
the author that is read is the one whose key the book holds. -/
theorem loadedBook_agrees : loadedBook.record.Agrees "author" authorRelation ∧
    ∀ g use, (g, use) ∈ visited Scripted.driver
      [.load "author", .set "author_id" (.scalar (.int64 5)),
        .set "author" (.related (authorOf 6))] loadedBook →
      (use.after Scripted.driver g).record.Agrees "author" authorRelation := by
  refine ⟨agrees_loadedBook,
    (owner_agrees_iff belongsTo_bookSample (.of_nil rfl) agrees_loadedBook ?_).1.2 ?_⟩
  · intro g field hmem
    obtain ⟨rfl, rfl⟩ : g = loadedBook ∧ field = "author" := by simpa [visited] using hmem
    exact answered_loadedBook
  · intro g field v hmem
    simp only [visited, List.mem_cons, List.not_mem_nil, or_false, Prod.mk.injEq, Use.set.injEq,
      reduceCtorEq, and_false, false_or] at hmem
    rcases hmem with ⟨hg, rfl, rfl⟩ | ⟨hg, rfl, rfl⟩
    · have hread : g = readBook := hg
      rw [hread, Record.SetAgrees, if_neg (by decide)]
      have hkey : (final (Edit.assign "author_id" (.scalar (.int64 5)) readBook.record)).keyText
          authorRelation.localColumn = readBook.record.keyText authorRelation.localColumn := by
        decide +kernel
      exact fun _ _ _ => hkey
    · rw [hg, Record.SetAgrees, if_pos rfl]
      rintro _ ⟨⟩ - -
      decide +kernel

/-- The book with another author assigned, and then its column set to the key of a third one. -/
def staleBook : Record :=
  final (Edit.assignAll
    [("author", .related (authorOf 6)), ("author_id", .scalar (.int64 7))] loadedBook.record)

theorem belongsTo_staleBook : staleBook.schema.BelongsTo "author" authorRelation where
  access := by decide +kernel
  declared := by decide +kernel
  kind := rfl

/-- The book has the key 7, and the author 6 is read and loaded. -/
theorem staleBook_owner : ∃ owner, staleBook.fieldValue "author" = .ok (.related owner) ∧
    (∀ s, load Scripted.driver "author" ⟨s, staleBook⟩ = .ok (.one (some owner)) ⟨s, staleBook⟩) ∧
      owner.ownKey.keyString = "6" ∧ staleBook.keyText "author_id" = "7" := by
  have hlive : staleBook.voided = false := by decide +kernel
  have hkey : staleBook.keyText "author_id" = "7" := by decide +kernel
  have hfound : staleBook.ownerText? "author" = some "6" := by decide +kernel
  obtain ⟨owner, hread, hload, howner⟩ :=
    read_of_ownerText? Scripted.driver belongsTo_staleBook hlive hfound
  exact ⟨owner, hread, hload, howner, hkey⟩

end RecordAction

end RowMapper
