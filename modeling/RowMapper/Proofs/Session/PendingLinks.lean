import RowMapper.Proofs.Record.Tracking
import RowMapper.Proofs.Session.Runs

/-! # Links that a failed save leaves to the next one

A save writes the record's row first and the assigned links after it. When the
links fail, the record is asked to keep those that were not written, so that the
next save writes them. Which links these are is said of the run itself; whether the
record still has them depends on one thing only, namely whether linking had begun.
-/

namespace RowMapper

open Run

variable {σ α : Type}

namespace Action

variable (d : Driver σ) (c : Connection) (r : Record) (owner : Value)

/-- The assigned links from the first relation on whose links cannot be written. -/
def unlinked : Entries (List Value) → Session σ → Entries (List Value)
  | [], _ => []
  | (name, wanted) :: rest, s =>
    match linkRelation d c r owner name wanted s with
    | .ok _ s => unlinked rest s
    | .error _ _ => (name, wanted) :: rest

theorem unlinked_suffix (entries : Entries (List Value)) (s : Session σ) :
    unlinked d c r owner entries s <:+ entries := by
  induction entries generalizing s with
  | nil => simp [unlinked]
  | cons entry rest ih =>
    simp only [unlinked]
    split
    · exact (ih _).trans (List.suffix_cons entry rest)
    · exact List.suffix_rfl

/-- Linking fails just when there are links that it did not write. -/
theorem linkEach_isError_iff (entries : Entries (List Value)) (s : Session σ) :
    (∃ e t, linkEach d c r owner entries s = .error e t) ↔
      unlinked d c r owner entries s ≠ [] := by
  induction entries generalizing s with
  | nil => simp [linkEach, unlinked]
  | cons entry rest ih =>
    obtain ⟨name, wanted⟩ := entry
    rw [linkEach, unlinked]
    cases h : linkRelation d c r owner name wanted s with
    | ok first s' =>
      simp only [bind_of_ok h, bind_eq_error, pure_ne_error, and_false, exists_false, or_false]
      exact ih s'
    | error e s' =>
      rw [bind_of_error h]
      simp

end Action

namespace RecordAction

/-! ## The parts of a save -/

/-- A save up to its links: whether the row is a new one, unless the save was refused. -/
def saveRow (d : Driver σ) : RecordAction σ (Option Bool) := do
  check (← record).ensureLive
  if !(← before .saving) then return none
  if !(← validate) then return none
  let inserting := (← record).isNew
  if !(← writeRow d) then return none
  return some inserting

def finishSave (inserting : Bool) : RecordAction σ Bool := do
  after .saved
  change Record.clean
  if inserting then inSession (Action.rememberRecord (← record))
  return true

theorem save_eq (d : Driver σ) : save d = (do
    match ← saveRow d with
    | none => return false
    | some inserting =>
      let _ ← saveLinks d
      finishSave inserting) := by
  unfold save saveRow finishSave
  simp only [bind_assoc]
  refine bind_congr fun _ => bind_congr fun _ => bind_congr fun allowed => ?_
  split
  · simp only [pure_bind]
  simp only [bind_assoc]
  refine bind_congr fun valid => ?_
  split
  · simp only [pure_bind]
  simp only [bind_assoc]
  refine bind_congr fun r => bind_congr fun written => ?_
  split
  · simp only [pure_bind]
  · simp only [pure_bind]

theorem finishSave_ne_error {inserting : Bool} {f f' : Focus σ} {e : Error} :
    finishSave inserting f ≠ .error e f' := by
  intro h
  obtain ⟨notices, hafter⟩ := after_eq_ok .saved f
  rw [finishSave, bind_of_ok hafter] at h
  cases inserting <;> cases h

/-! ## The links that a save comes to -/

/-- Without observers there are none later either, and the record is related to what it was. -/
def Unwatched (R : Record → Record → Prop) (f g : Focus σ) : Prop :=
  Unobserved f → Unobserved g ∧ R f.record g.record

section

variable {R : Record → Record → Prop} (hR : Chained R)
include hR

theorem chained_unwatched : Chained (Unwatched (σ := σ) R) where
  refl f h := ⟨h, hR.refl f.record⟩
  trans hfg hgh h := by
    obtain ⟨hg, hfirst⟩ := hfg h
    obtain ⟨hh, hsecond⟩ := hgh hg
    exact ⟨hh, hR.trans hfirst hsecond⟩

theorem unwatched_inSession {x : Action σ α} (hx : Keeps Session.SameSetup x) :
    Keeps (Unwatched R) (inSession x) := by
  intro f h
  have hs := hx f.session
  unfold inSession
  have same {t : Session σ} (ht : t.observers = f.session.observers) :
      Unobserved { f with session := t } := by
    change t.observers.ofModel f.record.model = []
    rw [ht]
    exact h
  cases hf : x f.session <;> rw [hf] at hs <;> exact ⟨same hs.observers, hR.refl f.record⟩

/-- Without observers a relation of records that holds across the changes of a row holds across the
steps of writing it. -/
theorem writing_unwatched (d : Driver σ) (hchange : ∀ f, RowChange f → ∀ r, R r (f r)) :
    Writing d (Unwatched R) where
  toChained := chained_unwatched hR
  before e f h := by
    rw [before_of_unobserved h]
    exact ⟨h, hR.refl f.record⟩
  after e f h := by
    rw [after_of_unobserved h]
    exact ⟨h, hR.refl f.record⟩
  change f hf g h := by
    refine ⟨?_, hchange f hf g.record⟩
    change g.session.observers.ofModel (f g.record).schema.name = []
    rw [(hf.keepsLinks g.record).1]
    exact h
  inSession _ hx := unwatched_inSession hR (hx _ (Action.remembering_setup d).toForgetting)

end

/-- What holds across the steps of writing a row holds across a save up to its links. -/
theorem Writing.saveRow {d : Driver σ} {F : Focus σ → Focus σ → Prop} (hF : Writing d F) :
    Keeps F (RecordAction.saveRow d) := by
  apply hF.seq hF.record
  intro r
  apply hF.seq (keeps_check hF.toChained _)
  intro _
  apply hF.seq (hF.before .saving)
  intro allowed
  split
  · exact hF.result _
  apply hF.seq hF.validate
  intro valid
  split
  · exact hF.result _
  apply hF.seq hF.record
  intro r
  apply hF.seq hF.writeRow
  intro written
  split
  · exact hF.result _
  · exact hF.result _

def SameLinks (f g : Focus σ) : Prop :=
  Unobserved f → Unobserved g ∧ g.record.pending = f.record.pending

/-- Without observers a save comes to its links with those that were assigned before it. -/
theorem sameLinks_saveRow (d : Driver σ) : Keeps SameLinks (saveRow d) := by
  have hR : Chained fun r s : Record => s.pending = r.pending :=
    ⟨fun _ => rfl, fun h h' => h'.trans h⟩
  exact (writing_unwatched hR d fun f hf r => (hf.keepsLinks r).2).saveRow

/-! ## Linking -/

/-- The record has a key, and the connection to its table can be opened. -/
def StartsLinking (d : Driver σ) (f : Focus σ) : Prop :=
  ∃ key c s, f.record.key? = some key ∧
    Action.connectionOf d f.record.schema f.session = .ok c s

def unlinked (d : Driver σ) (f : Focus σ) : Entries (List Value) :=
  match f.record.key?, Action.connectionOf d f.record.schema f.session with
  | some key, .ok c s => Action.unlinked d c f.record key f.record.pending s
  | _, _ => f.record.pending

variable {d : Driver σ} {f f' : Focus σ} {e : Error}

theorem saveLinks_of_pending_nil (h : f.record.pending = []) : saveLinks d f = .ok [] f := by
  unfold saveLinks
  simp only [record_bind, h, List.isEmpty_nil, if_true]
  rfl

/-- Only the assigned links of the record change. -/
def Relinks (f g : Focus σ) : Prop := ∃ pending, g.record = { f.record with pending }

theorem chained_relinks : Chained (Relinks (σ := σ)) where
  refl f := ⟨f.record.pending, by cases f.record; rfl⟩
  trans := by
    rintro f g h ⟨_, hg⟩ ⟨pending, hh⟩
    exact ⟨pending, by rw [hh, hg]⟩

theorem relinks_inSession (x : Action σ α) : Keeps Relinks (inSession x) := by
  intro f
  refine ⟨f.record.pending, ?_⟩
  unfold inSession
  cases x f.session <;> cases f.record <;> rfl

/-- The links of a record are saved without a change of its values. -/
theorem relinks_saveLinks (d : Driver σ) : Keeps Relinks (saveLinks d) :=
  keeps_saveLinks chained_relinks (fun _ => relinks_inSession _) (fun _ => ⟨[], rfl⟩)
    fun _ _ _ _ => relinks_inSession _

/-- Linking takes all assigned links from the record before it writes the first of them. -/
theorem saveLinks_of_starts {key : Value} {c : Connection} {s : Session σ}
    (hp : f.record.pending ≠ []) (hkey : f.record.key? = some key)
    (hc : Action.connectionOf d f.record.schema f.session = .ok c s) :
    saveLinks d f = inSession (Action.linkEach d c f.record key f.record.pending)
      ⟨s, { f.record with pending := [] }⟩ := by
  have hopen : inSession (Action.connectionOf d f.record.schema) f =
      .ok c { f with session := s } :=
    inSession_eq_ok.2 ⟨s, hc, rfl⟩
  unfold saveLinks
  simp only [record_bind, List.isEmpty_iff, hp, if_false, hkey, bind_of_ok hopen]
  rfl

/-- A failure before the first link leaves the record as it was. -/
theorem record_of_not_starts (hstarts : ¬ StartsLinking d f) (h : saveLinks d f = .error e f') :
    f'.record = f.record := by
  by_cases hp : f.record.pending = []
  · simp [saveLinks_of_pending_nil hp] at h
  unfold saveLinks at h
  simp only [record_bind, List.isEmpty_iff, hp, if_false] at h
  cases hkey : f.record.key? with
  | none =>
    rw [hkey] at h
    cases h
    rfl
  | some key =>
    simp only [hkey] at h
    rcases bind_eq_error.1 h with h | ⟨c, g, h, -⟩
    · obtain ⟨s, -, rfl⟩ := inSession_eq_error.1 h
      rfl
    · obtain ⟨s, hc, -⟩ := inSession_eq_ok.1 h
      exact absurd ⟨key, c, s, hkey, hc⟩ hstarts

/-- When linking fails there are links that were not written, and from the first one on the record
has lost them all. -/
theorem pending_of_starts (hstarts : StartsLinking d f) (h : saveLinks d f = .error e f') :
    unlinked d f ≠ [] ∧ f'.record.pending = [] := by
  obtain ⟨key, c, s, hkey, hc⟩ := hstarts
  by_cases hp : f.record.pending = []
  · simp [saveLinks_of_pending_nil hp] at h
  · rw [saveLinks_of_starts hp hkey hc] at h
    obtain ⟨t, hlink, rfl⟩ := inSession_eq_error.1 h
    constructor
    · simp only [unlinked, hkey, hc]
      exact (Action.linkEach_isError_iff d c f.record key _ s).1 ⟨e, t, hlink⟩
    · rfl

theorem unlinked_suffix (d : Driver σ) (f : Focus σ) : unlinked d f <:+ f.record.pending := by
  unfold unlinked
  split
  · exact Action.unlinked_suffix d _ _ _ _ _
  · exact List.suffix_rfl

theorem unlinked_of_not_starts (hstarts : ¬ StartsLinking d f) :
    unlinked d f = f.record.pending := by
  unfold unlinked
  split
  · next key c s hkey hc => exact absurd ⟨key, c, s, hkey, hc⟩ hstarts
  · rfl

/-- A save whose row is written and which then fails, fails at its links. -/
theorem saveLinks_of_save {f₁ : Focus σ} {inserting : Bool}
    (hrow : saveRow d f = .ok (some inserting) f₁) (hsave : save d f = .error e f') :
    saveLinks d f₁ = .error e f' := by
  rw [save_eq, bind_of_ok hrow] at hsave
  rcases bind_eq_error.1 hsave with h | ⟨_, g, -, h⟩
  · exact h
  · exact absurd h finishSave_ne_error

/-- A save that fails at its links leaves those from some relation on unwritten. The record keeps
them just when the save failed before the first of them: the record had no key, or its connection
could not be opened. Otherwise the record has no assigned links any more, although some were not
written, and no later save links anything. -/
theorem pending_save_iff {f₁ : Focus σ} {inserting : Bool}
    (hrow : saveRow d f = .ok (some inserting) f₁) (hsave : save d f = .error e f') :
    (Unobserved f → f₁.record.pending = f.record.pending) ∧
      unlinked d f₁ <:+ f₁.record.pending ∧
      ((∀ entry ∈ unlinked d f₁, entry ∈ f'.record.pending) ↔ ¬ StartsLinking d f₁) ∧
      (¬ StartsLinking d f₁ → f'.record = f₁.record ∧ unlinked d f₁ = f₁.record.pending) ∧
      (StartsLinking d f₁ → unlinked d f₁ ≠ [] ∧ f'.record.pending = [] ∧
        ∀ (d' : Driver σ) (s : Session σ),
          saveLinks d' ⟨s, f'.record⟩ = .ok [] ⟨s, f'.record⟩) := by
  have hlinks := saveLinks_of_save hrow hsave
  have kept (h : ¬ StartsLinking d f₁) :
      f'.record = f₁.record ∧ unlinked d f₁ = f₁.record.pending :=
    ⟨record_of_not_starts h hlinks, unlinked_of_not_starts h⟩
  have lost (h : StartsLinking d f₁) : unlinked d f₁ ≠ [] ∧ f'.record.pending = [] :=
    pending_of_starts h hlinks
  refine ⟨fun h => ((sameLinks_saveRow d).of_ok hrow h).2, unlinked_suffix d f₁,
    ⟨fun hall hstarts => ?_, fun h => ?_⟩, kept, fun h => ?_⟩
  · obtain ⟨hne, hnil⟩ := lost hstarts
    obtain ⟨entry, hmem⟩ := List.exists_mem_of_ne_nil _ hne
    have hin := hall entry hmem
    simp [hnil] at hin
  · obtain ⟨hrecord, hunlinked⟩ := kept h
    simp [hrecord, hunlinked]
  · obtain ⟨hne, hnil⟩ := lost h
    exact ⟨hne, hnil, fun d' s => saveLinks_of_pending_nil hnil⟩

def productSample : Schema := .new "Product" "products"

def orderSample : Schema :=
  (Schema.new "Order" "orders").withRelation "products"
    { kind := .manyToMany, target := productSample.ref 1 }

/-- A loaded record with an assigned link, and a server that cannot look at the junction table. -/
def unlinkedSample : Focus Scripted.Servers where
  session := Scripted.session [orderSample, productSample]
    { scripts := [⟨"orders_products", .failure "40001" "serialization failure", false⟩] }
  record := { Record.ofRow orderSample [("id", .int64 5)] with
    pending := [("products", [.int64 7])] }

theorem saveRow_unlinkedSample : saveRow Scripted.driver unlinkedSample =
    .ok (some false) (final (saveRow Scripted.driver unlinkedSample)) :=
  eq_ok_of_value? (by decide +kernel)

theorem save_unlinkedSample : save Scripted.driver unlinkedSample =
    .error (.queryFailed "40001" "serialization failure")
      (final (save Scripted.driver unlinkedSample)) :=
  eq_error_of_failure? (by decide +kernel)

theorem unlinkedSample_pending : ∃ f₁ e f',
    saveRow Scripted.driver unlinkedSample = .ok (some false) f₁ ∧
      save Scripted.driver unlinkedSample = .error e f' ∧
        f₁.record.pending = unlinkedSample.record.pending ∧
          ((∀ entry ∈ unlinked Scripted.driver f₁, entry ∈ f'.record.pending) ↔
            ¬ StartsLinking Scripted.driver f₁) := by
  have h := pending_save_iff saveRow_unlinkedSample save_unlinkedSample
  exact ⟨_, _, _, saveRow_unlinkedSample, save_unlinkedSample, h.1 rfl, h.2.2.1⟩

/-- The refused question for the junction table makes the save fail, and the link is lost. -/
theorem unlinkedSample_lost : ∃ f₁ e f',
    saveRow Scripted.driver unlinkedSample = .ok (some false) f₁ ∧
      save Scripted.driver unlinkedSample = .error e f' ∧
        (unlinked Scripted.driver f₁).names = ["products"] ∧ f'.record.pending = [] := by
  refine ⟨_, _, _, saveRow_unlinkedSample, save_unlinkedSample, by decide +kernel, ?_⟩
  exact List.isEmpty_iff.1 (by decide +kernel)

end RecordAction

end RowMapper
