import RowMapper.Proofs.Session.OutdatedCopies
import RowMapper.Proofs.Session.Refusals

/-! # Saving a record again

A save that succeeds leaves nothing to write: the record is live, no column of it is
changed and no link is assigned. Once it has a key, it is stored as well, and saves
send nothing until something is assigned to it again.
-/

namespace RowMapper

open Run

variable {σ : Type}

/-- A stored record of which nothing is left to write: it was not deleted, and it has a key, no
changed fields and no assigned links. -/
structure Record.Settled (r : Record) : Prop where
  live : r.voided = false
  stored : r.isNew = false
  initial : r.initial = []
  pending : r.pending = []

namespace RecordAction

variable {d : Driver σ} {f g : Focus σ}

/-! ## What a save leaves -/

/-- Without observers writing a row does not void the record. -/
theorem sameVoided_saveRow (d : Driver σ) :
    Keeps (Unwatched fun r s => s.voided = r.voided) (saveRow d) := by
  have hR : Chained fun r s : Record => s.voided = r.voided :=
    ⟨fun _ => rfl, fun h h' => h'.trans h⟩
  refine (writing_unwatched hR d fun f hf r => ?_).saveRow
  cases hf with
  | stamp now user inserting =>
    obtain ⟨_, _, _, h⟩ := changesRow_stampAll now user inserting r
    rw [h]
  | errors => rfl
  | key => rfl

theorem pending_of_saveLinks {report : Entries LinkChanges} (h : saveLinks d f = .ok report g) :
    g.record.pending = [] := by
  by_cases hpending : f.record.pending = []
  · rw [saveLinks_of_pending_nil hpending] at h
    cases h
    exact hpending
  · unfold saveLinks at h
    simp only [record_bind, List.isEmpty_iff, hpending, if_false] at h
    cases hkey : f.record.key? with
    | none => simp [hkey, throw_ne_ok] at h
    | some key =>
      simp only [hkey] at h
      obtain ⟨c, f₁, -, hlink⟩ := bind_eq_ok.1 h
      obtain ⟨_, f₂, htake, hlinks⟩ := bind_eq_ok.1 hlink
      obtain ⟨t, -, rfl⟩ := inSession_eq_ok.1 hlinks
      cases htake
      rfl

theorem unobserved_of_saveLinks {report : Entries LinkChanges} (hnone : Unobserved f)
    (h : saveLinks d f = .ok report g) : Unobserved g := by
  have hsetup : f.session.SameSetup g.session := (Action.remembering_setup d).saveLinks.of_ok h
  obtain ⟨pending, hrecord⟩ := (relinks_saveLinks d).of_ok h
  change g.session.observers.ofModel g.record.schema.name = []
  rw [hsetup.observers, hrecord]
  exact hnone

/-- Without observers a save that succeeds leaves nothing to write. -/
theorem settled_of_save (hnone : Unobserved f) (h : save d f = .ok true g) :
    Unobserved g ∧ (g.record.isNew = false → g.record.Settled) := by
  obtain ⟨f₀, -, hadmitted, -⟩ := writeRow_of_save h
  rw [save_eq] at h
  obtain ⟨written, f₁, hrow, h⟩ := bind_eq_ok.1 h
  cases written with
  | none => cases h
  | some inserting =>
    obtain ⟨report, f₂, hlinks, hfinish⟩ := bind_eq_ok.1 h
    obtain ⟨hnone₁, hvoided⟩ := (sameVoided_saveRow d).of_ok hrow hnone
    have hnone₂ := unobserved_of_saveLinks hnone₁ hlinks
    obtain ⟨pending, hrelinked⟩ := (relinks_saveLinks d).of_ok hlinks
    have hpending := pending_of_saveLinks hlinks
    obtain ⟨notices, heq⟩ := finishSave_eq inserting f₂
    rw [heq] at hfinish
    cases hfinish
    refine ⟨hnone₂, fun hstored => ⟨?_, hstored, rfl, hpending⟩⟩
    change f₂.record.voided = false
    rw [hrelinked]
    exact hvoided.trans (live_of_admitted hadmitted)

/-! ## The next save -/

theorem updateRow_of_settled (hnone : Unobserved f) (h : f.record.Settled) :
    updateRow d f = .ok true f := by
  have hunchanged : f.record.changedColumns = [] := by
    simp [Record.changedColumns, Entries.names, h.initial]
  rw [updateRow_of_unobserved hnone, hunchanged]
  rfl

theorem finishSave_of_unobserved (h : Unobserved f) :
    finishSave false f = .ok true ⟨f.session, f.record.clean⟩ := by
  rw [finishSave, bind_of_ok (after_of_unobserved h .saved)]
  rfl

theorem save_of_settled (hnone : Unobserved f) (h : f.record.Settled) : save d f =
    .ok f.record.validate.isEmpty ⟨f.session, { f.record with errors := f.record.validate }⟩ := by
  have hadmitted := admitted_of_live hnone h.live
  generalize hr : ({ f.record with errors := f.record.validate } : Record) = r at hadmitted ⊢
  have hsettled : r.Settled := hr ▸ ⟨h.live, h.stored, h.initial, h.pending⟩
  have hnone' : Unobserved ⟨f.session, r⟩ := hr ▸ hnone
  cases hvalid : f.record.validate.isEmpty with
  | false =>
    rw [hvalid] at hadmitted
    exact save_of_not_cleared (cleared_of_invalid hadmitted)
  | true =>
    rw [hvalid] at hadmitted
    have hwrite : writeRow d ⟨f.session, r⟩ = .ok true ⟨f.session, r⟩ := by
      unfold writeRow
      rw [record_bind, hsettled.stored]
      exact updateRow_of_settled hnone' hsettled
    have hrow : saveRow d f = .ok (some false) ⟨f.session, r⟩ := by
      rw [saveRow_of_admitted hadmitted, bind_of_ok hwrite, hsettled.stored]
      rfl
    have hclean : r.clean = r := by
      cases r
      cases hsettled.initial
      rfl
    rw [save_eq, bind_of_ok hrow]
    dsimp only
    rw [bind_of_ok (saveLinks_of_pending_nil hsettled.pending), finishSave_of_unobserved hnone',
      hclean]

/-- Without observers, a record that was saved with success has no changed columns and no assigned
links, and if it has a key, it can be saved again, by any driver. That only validates it: it does
not touch the session, neither a statement is sent nor a connection opened, and nothing of the
record changes but what the validation finds, which decides the result. -/
theorem save_again (hnone : Unobserved f) (hsave : save d f = .ok true g)
    (hkey : g.record.isNew = false) :
    g.record.initial = [] ∧ g.record.pending = [] ∧
      ∀ d' : Driver σ, save d' g = .ok g.record.validate.isEmpty
        ⟨g.session, { g.record with errors := g.record.validate }⟩ := by
  obtain ⟨hnone', hsettled⟩ := settled_of_save hnone hsave
  have h := hsettled hkey
  exact ⟨h.initial, h.pending, fun d' => save_of_settled hnone' h⟩

def attachedMedia : Schema := .new "Media" "media"

def datedNews : Schema :=
  ((Schema.new "News" "news").withRelation "media"
    { kind := .manyToMany, target := attachedMedia.ref 1, junctionTable := some "clips",
      namesLinks := false }).withColumn "updated_at" .dateTime

def newStory : Focus Scripted.Servers where
  session := Scripted.session [datedNews, attachedMedia]
  record := { Record.new datedNews with pending := [("media", [.int64 7])] }

def savedStory : Focus Scripted.Servers := final (save Scripted.driver newStory)

theorem savedStory_eq : value? (save Scripted.driver newStory) = some true ∧
    savedStory.record.isNew = false ∧ savedStory.record.validate.isEmpty = true ∧
    savedStory.session.sent.length = 4 ∧ savedStory.record.data.names = ["updated_at", "id"] := by
  decide +kernel

/-- The first save sends the row, asks for the junction table and for links, and sends the link.
The second sends nothing. -/
theorem savedStory_again : savedStory.session.sent.length = 4 ∧
    savedStory.record.data.names = ["updated_at", "id"] ∧
    save Scripted.driver savedStory =
      .ok true ⟨savedStory.session, { savedStory.record with errors := [] }⟩ := by
  have hnone : Unobserved newStory := rfl
  obtain ⟨hsaved, hkey, hvalid, hsent, hnames⟩ := savedStory_eq
  have hsave : save Scripted.driver newStory = .ok true savedStory := eq_ok_of_value? hsaved
  obtain ⟨-, -, hagain⟩ := save_again hnone hsave hkey
  have hsecond := hagain Scripted.driver
  rw [List.isEmpty_iff.1 hvalid] at hsecond
  exact ⟨hsent, hnames, hsecond⟩

end RecordAction

end RowMapper
