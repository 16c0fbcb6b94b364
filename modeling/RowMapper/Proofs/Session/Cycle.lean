import RowMapper.Proofs.Record.Changes
import RowMapper.Proofs.Session.Loads
import RowMapper.Proofs.Session.PendingLinks

/-! # From one save to the next

A record starts without changes when it is loaded and when it was saved. From then on,
whatever is assigned to it, a changed column knows the value that it had at the start,
an unchanged one still has it, and an update writes the changed columns with their
present values. Observers must not give a column's value to a name that the model does
not declare; no assignment can do so.
-/

namespace RowMapper

open Run

variable {σ : Type}

namespace RecordAction

/-! ## Tidy records in a session -/

/-- Observers leave a tidy record tidy: none of them gives a column a value among the names that the
model does not declare. -/
def TidyObservers (s : Session σ) : Prop :=
  ∀ model, ∀ o ∈ s.observers.ofModel model, ∀ e r, r.Tidy → (final (o.before e r)).Tidy

def KeepsTidy (f g : Focus σ) : Prop :=
  TidyObservers f.session → f.record.Tidy →
    g.session.observers = f.session.observers ∧ g.record.Tidy

theorem chained_keepsTidy : Chained (KeepsTidy (σ := σ)) where
  refl f _ h := ⟨rfl, h⟩
  trans {_ g _} hfg hgh ho h := by
    obtain ⟨hobservers, hg⟩ := hfg ho h
    have ho' : TidyObservers g.session := by
      rw [TidyObservers, hobservers]
      exact ho
    obtain ⟨hobservers', hh⟩ := hgh ho' hg
    exact ⟨hobservers'.trans hobservers, hh⟩

theorem keepsTidy_inSession {α : Type} {x : Action σ α} (hx : Keeps Session.SameSetup x) :
    Keeps KeepsTidy (inSession x) := by
  intro f _ h
  have hs := hx f.session
  unfold inSession
  cases hf : x f.session <;> rw [hf] at hs <;> exact ⟨hs.observers, h⟩

theorem keepsTidy_change {change : Record → Record} (hchange : ∀ r, r.Tidy → (change r).Tidy) :
    Keeps KeepsTidy (RecordAction.change change : RecordAction σ Unit) :=
  fun _ _ h => ⟨rfl, hchange _ h⟩

theorem keepsTidy_askOne (e : Event) {o : Observer}
    (ho : ∀ r : Record, r.Tidy → (final (o.before e r)).Tidy) :
    Keeps KeepsTidy (askOne e o : RecordAction σ Bool) := by
  have hF := chained_keepsTidy (σ := σ)
  have hnote : Keeps KeepsTidy (note o e : RecordAction σ Unit) := fun _ _ h => ⟨rfl, h⟩
  apply hF.seq hnote
  intro _ f _ h
  have hreaction := ho f.record h
  simp only [record_bind]
  cases hb : o.before e f.record with
  | ok _ r =>
    rw [hb] at hreaction
    exact ⟨rfl, hreaction⟩
  | error failure r =>
    rw [hb] at hreaction
    cases hv : failure.isVeto <;> simp only [afterFailure, hv] <;> exact ⟨rfl, hreaction⟩

theorem keepsTidy_askEach (e : Event) {observers : List Observer}
    (ho : ∀ o ∈ observers, ∀ r : Record, r.Tidy → (final (o.before e r)).Tidy) :
    Keeps KeepsTidy (askEach e observers : RecordAction σ Bool) := by
  have hF := chained_keepsTidy (σ := σ)
  induction observers with
  | nil => exact hF.result _
  | cons o rest ih =>
    rw [List.forall_mem_cons] at ho
    apply hF.seq (keepsTidy_askOne e ho.1)
    intro goOn
    split
    · exact ih ho.2
    · exact hF.result _

theorem keepsTidy_before (e : Event) : Keeps KeepsTidy (before e : RecordAction σ Bool) := by
  intro f ho h
  simp only [before, get_bind]
  split
  · exact keepsTidy_askEach e (fun o hmem => ho _ o hmem e) f ho h
  · exact ⟨rfl, h⟩

theorem keepsTidy_after (e : Event) : Keeps KeepsTidy (after e : RecordAction σ Unit) := by
  intro f _ h
  obtain ⟨notices, hafter⟩ := after_eq_ok e f
  rw [hafter]
  exact ⟨rfl, h⟩

theorem writing_keepsTidy (d : Driver σ) : Writing d KeepsTidy where
  toChained := chained_keepsTidy
  before := keepsTidy_before
  after := keepsTidy_after
  change f hf := by
    apply keepsTidy_change
    intro r h
    cases hf with
    | stamp => exact stampAll_stores (fun _ column v h => h.storeCoerced column v) _ _ _ h
    | errors => exact h.of_same rfl rfl
    | key => exact h.of_same rfl rfl
  inSession _ hx := keepsTidy_inSession (hx _ (Action.remembering_setup d).toForgetting)

theorem keepsTidy_saveLinks (d : Driver σ) : Keeps KeepsTidy (saveLinks d) := by
  have hsetup := Action.remembering_setup d
  exact keeps_saveLinks chained_keepsTidy
    (fun schema => keepsTidy_inSession (hsetup.connectionOf schema))
    (keepsTidy_change fun _ h => h.of_same rfl rfl)
    fun c r key links => keepsTidy_inSession (hsetup.linkEach c r key links)

theorem keepsTidy_finishSave (d : Driver σ) (inserting : Bool) :
    Keeps KeepsTidy (finishSave inserting : RecordAction σ Bool) := by
  have hF := chained_keepsTidy (σ := σ)
  apply hF.seq (keepsTidy_after .saved)
  intro _
  apply hF.seq
  · exact keepsTidy_change fun _ h => h.of_same rfl rfl
  intro _
  split
  · apply hF.seq (writing_keepsTidy d).record
    intro r
    apply hF.seq (keepsTidy_inSession ((Action.remembering_setup d).remember r))
    exact fun _ => hF.result _
  · exact hF.result _

theorem keepsTidy_save (d : Driver σ) : Keeps KeepsTidy (save d) := by
  have hF := chained_keepsTidy (σ := σ)
  rw [save_eq]
  apply hF.seq (writing_keepsTidy d).saveRow
  intro outcome
  split
  · exact hF.result _
  · apply hF.seq (keepsTidy_saveLinks d)
    exact fun _ => keepsTidy_finishSave d _

theorem keepsTidy_delete (d : Driver σ) : Keeps KeepsTidy (delete d) :=
  (writing_keepsTidy d).delete (keepsTidy_change fun _ _ => Record.tidy_of_nil rfl)

theorem keepsTidy_validate : Keeps KeepsTidy (validate : RecordAction σ Bool) :=
  keeps_validate chained_keepsTidy (keepsTidy_before .validating)
    (fun _ => keepsTidy_change fun _ h => h.of_same rfl rfl) (keepsTidy_after .validated)

theorem tidy_load (d : Driver σ) (name : String) {f : Focus σ} (h : f.record.Tidy) :
    (final (load d name f)).record.Tidy := by
  rcases load_cases d name f with ⟨hsame, -⟩ | ⟨_, _, _, found, s', -, -, -, -, hload⟩
  · rwa [hsame]
  · rw [hload]
    exact h.of_same rfl rfl

theorem initial_of_save {d : Driver σ} {f g : Focus σ} (h : save d f = .ok true g) :
    g.record.initial = [] := by
  rw [save_eq] at h
  obtain ⟨outcome, f₁, -, h⟩ := bind_eq_ok.1 h
  cases outcome with
  | none => cases h
  | some inserting =>
    obtain ⟨_, f₂, -, h⟩ := bind_eq_ok.1 h
    obtain ⟨notices, hafter⟩ := after_eq_ok .saved f₂
    rw [finishSave, bind_of_ok hafter] at h
    cases inserting <;> cases h <;> rfl

end RecordAction

/-! ## Cycles -/

open RecordAction

/-- The records that a program comes to hold: new and loaded ones, the copies that the identity map
keeps of them, and what becomes of any of these. -/
inductive Held : Record → Prop
  | new (schema : Schema) (filter : ImportFilter) : Held (.new schema filter)
  | loaded (schema : Schema) (row : Row) (filter : ImportFilter) : Held (.ofRow schema row filter)
  | copied {r : Record} (h : Held r) : Held r.detached
  | edited {r : Record} (h : Held r) (call : Edit.Call) : Held (final (call.edit r))
  | validated {σ : Type} {f : Focus σ} (h : Held f.record) (hobservers : TidyObservers f.session) :
      Held (final (validate f)).record
  | linked {σ : Type} (d : Driver σ) {f : Focus σ} (h : Held f.record)
      (hobservers : TidyObservers f.session) : Held (final (saveLinks d f)).record
  | resolved {σ : Type} (d : Driver σ) {f : Focus σ} (h : Held f.record) (name : String) :
      Held (final (load d name f)).record
  | saved {σ : Type} (d : Driver σ) {f : Focus σ} (h : Held f.record)
      (hobservers : TidyObservers f.session) : Held (final (save d f)).record
  | deleted {σ : Type} (d : Driver σ) {f : Focus σ} (h : Held f.record)
      (hobservers : TidyObservers f.session) : Held (final (delete d f)).record

theorem Held.tidy {r : Record} (h : Held r) : r.Tidy := by
  induction h with
  | new schema filter => exact Record.tidy_of_nil rfl
  | loaded schema row filter => exact Record.tidy_ofRow schema row filter
  | copied _ ih => exact ih.of_same rfl rfl
  | @edited r _ call ih => exact (Edit.Assigned.start.afterCalls [call]).tidy ih
  | validated _ hobservers ih => exact (keepsTidy_validate _ hobservers ih).2
  | linked d _ hobservers ih => exact (keepsTidy_saveLinks d _ hobservers ih).2
  | resolved d _ name ih => exact tidy_load d name ih
  | saved d _ hobservers ih => exact (keepsTidy_save d _ hobservers ih).2
  | deleted d _ hobservers ih => exact (keepsTidy_delete d _ hobservers ih).2

/-- The records that start a cycle: those that were loaded, those that were saved, and the copies that
the identity map keeps of either and serves in place of their rows. -/
inductive StartsCycle : Record → Prop
  | loaded (schema : Schema) (row : Row) (filter : ImportFilter) :
      StartsCycle (.ofRow schema row filter)
  | saved {σ : Type} (d : Driver σ) {f g : Focus σ} (h : Held f.record)
      (hobservers : TidyObservers f.session) (hsave : save d f = .ok true g) :
      StartsCycle g.record
  | copied {r : Record} (h : StartsCycle r) : StartsCycle r.detached

theorem StartsCycle.initial {r : Record} (h : StartsCycle r) : r.initial = [] := by
  induction h with
  | loaded schema row filter => exact (Record.loaded_ofRow schema row filter).initial
  | saved d _ _ hsave => exact initial_of_save hsave
  | copied _ ih => exact ih

theorem StartsCycle.tidy {r : Record} (h : StartsCycle r) : r.Tidy := by
  induction h with
  | loaded schema row filter => exact Record.tidy_ofRow schema row filter
  | saved d hheld hobservers hsave =>
    have htidy := (keepsTidy_save d _ hobservers hheld.tidy).2
    rwa [hsave] at htidy
  | copied _ ih => exact ih.of_same rfl rfl

/-- After any calls that assign to a record, with or without success, each changed column knows
the value that it had at the start of the cycle, and each other one still has it. An update writes
the changed fields that are no relations, each once and with its present value. -/
theorem afterCalls_changes {start r : Record} (hstart : StartsCycle start)
    (calls : List Edit.Call) (hr : r = Edit.afterCalls calls start) :
    (∀ column, start.schema.hasColumn column = true →
      (r.isDirty column = true → r.initial? column = some (.ofValue (start.current column))) ∧
      (r.isDirty column = false → r.current column = start.current column)) ∧
    (Entries.names r.changedColumns).Nodup ∧
    ∀ name v, (name, v) ∈ r.changedColumns ↔
      r.isDirty name = true ∧ (∀ kind, r.schema.access name ≠ some (.relation kind)) ∧
        v = r.current name := by
  have hassigned : Edit.Assigned start r := hr ▸ Edit.Assigned.start.afterCalls calls
  refine ⟨fun column hcolumn => ?_, ?_, fun name v => ?_⟩
  · have htracks : Record.Tracks start column r :=
      hassigned.tracks (by simpa [Schema.hasColumn] using hcolumn)
        (hstart.tidy.tracks hstart.initial hcolumn)
    constructor
    · intro hd
      obtain ⟨x, hx⟩ := Option.isSome_iff_exists.1 hd
      have hknown : r.initial? column = some x := hx
      rw [hknown, htracks.dirty x hknown]
    · intro hd
      exact htracks.clean (by simpa [Record.isDirty, Entries.has, Record.initial?] using hd)
  · have hnames : r.changedNames.Nodup := by
      refine hassigned.nodup_changedNames ?_
      simp [Record.changedNames, hstart.initial, Entries.names]
    rw [Record.names_changedColumns]
    exact hnames.filter _
  · rw [Record.mem_changedColumns, Record.isWritable_iff]

def playerSample : Schema := (Schema.new "Player" "players").withColumn "score" .bigInt

/-- A loaded record whose score was changed, in a session without observers. -/
def unsavedPlayer : Focus Scripted.Servers where
  session := Scripted.session [playerSample]
  record := Edit.afterCalls [.set "score" (.scalar (.int64 2))]
    (Record.ofRow playerSample [("id", .int64 1), ("score", .int64 1)])

def savedPlayer : Record := (final (save Scripted.driver unsavedPlayer)).record

theorem savedPlayer_starts : StartsCycle savedPlayer := by
  have hheld : Held unsavedPlayer.record :=
    .edited (.loaded playerSample [("id", .int64 1), ("score", .int64 1)] .passThrough)
      (.set "score" (.scalar (.int64 2)))
  have hobservers : TidyObservers unsavedPlayer.session := by
    intro model o ho
    have hnone : unsavedPlayer.session.observers.ofModel model = [] := by
      change Observers.ofModel [] model = []
      simp [Observers.ofModel]
    rw [hnone] at ho
    cases ho
  have hsave : value? (save Scripted.driver unsavedPlayer) = some true := by decide +kernel
  exact .saved Scripted.driver hheld hobservers (eq_ok_of_value? hsave)

/-- The saved score is known after it was set to 3, and to 4 together with the key. -/
theorem savedPlayer_changes : ∃ r, r = Edit.afterCalls [.set "score" (.scalar (.int64 3)),
    .setAll [("score", .scalar (.int64 4)), ("id", .scalar (.int64 1))]] savedPlayer ∧
      (r.isDirty "score" = true ∧
        r.initial? "score" = some (.ofValue (savedPlayer.current "score"))) ∧
      r.isDirty "id" = false ∧ r.current "id" = savedPlayer.current "id" := by
  let calls : List Edit.Call := [.set "score" (.scalar (.int64 3)),
    .setAll [("score", .scalar (.int64 4)), ("id", .scalar (.int64 1))]]
  have hscore : (Edit.afterCalls calls savedPlayer).isDirty "score" = true := by decide +kernel
  have hid : (Edit.afterCalls calls savedPlayer).isDirty "id" = false := by decide +kernel
  obtain ⟨hcolumns, -⟩ := afterCalls_changes savedPlayer_starts calls rfl
  exact ⟨_, rfl, ⟨hscore, (hcolumns "score" (by decide +kernel)).1 hscore⟩, hid,
    (hcolumns "id" (by decide +kernel)).2 hid⟩

end RowMapper
