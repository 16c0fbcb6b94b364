import RowMapper.Proofs.Session.Runs

/-! # What loading a relation does

A relation that is loaded is resolved and kept with the record, unless it is known
already or cannot be resolved; nothing else of the record changes. In the session no
more happens than statements being sent and the identity map being used.
-/

namespace RowMapper

open Run

variable {σ α : Type}

/-! ## The session -/

namespace Action

variable {d : Driver σ} {R : Session σ → Session σ → Prop}

theorem Quiet.dependentQuery (hR : Quiet d R) (owner : Schema) (key : Value) (relation : Relation)
    (target : Schema) : Keeps R (Action.dependentQuery (σ := σ) owner key relation target) :=
  hR.seq (hR.queryOf target) fun _ => hR.result _

theorem Quiet.linkedQuery (hR : Quiet d R) (owner : Schema) (key : Value) (name : String)
    (relation : Relation) (target : Schema) :
    Keeps R (Action.linkedQuery (σ := σ) owner key name relation target) := by
  apply hR.seq (hR.seq (hR.tablePrefix _) fun _ => hR.result _)
  intro j
  apply hR.seq (hR.tableOf target)
  intro table
  exact hR.seq (hR.queryOf target) fun _ => hR.result _

theorem Sending.recordsOfKeys (hR : Sending d R) (target : Schema) (keys : List Value) :
    Keeps R (Action.recordsOfKeys d target keys) := by
  unfold Action.recordsOfKeys
  split
  · exact hR.result _
  · exact hR.seq (hR.queryOf target) fun q => hR.records target _

theorem Sending.linkedRecords (hR : Sending d R) (owner : Schema) (key : Value) (name : String)
    (relation : Relation) (target : Schema) :
    Keeps R (Action.linkedRecords d owner key name relation target) := by
  apply hR.seq (hR.linkedQuery owner key name relation target)
  intro q
  apply hR.seq (keeps_attempt (hR.records target q))
  intro outcome
  split
  · exact hR.result _
  · apply hR.seq (hR.connectionOf target)
    intro c
    split
    · exact hR.result _
    · exact hR.fail _
  · exact hR.fail _

theorem Sending.dependents (hR : Sending d R) (r : Record) (key : Value) (name : String)
    (relation : Relation) (target : Schema) :
    Keeps R (Action.dependents d r key name relation target) := by
  unfold Action.dependents
  split
  · apply hR.seq (hR.dependentQuery r.schema key relation target)
    exact fun q => hR.seq (hR.records target _) fun _ => hR.result _
  · apply hR.seq (hR.dependentQuery r.schema key relation target)
    exact fun q => hR.seq (hR.records target q) fun _ => hR.result _
  · exact hR.seq (hR.linkedRecords r.schema key name relation target) fun _ => hR.result _

theorem Remembering.ownerRecord (hR : Remembering d R) (r : Record) (relation : Relation)
    (target : Schema) : Keeps R (Action.ownerRecord d r relation target) := by
  unfold Action.ownerRecord
  split
  · split
    · exact hR.result _
    · exact hR.findRecord target _
  · exact hR.result _

theorem Remembering.resolve (hR : Remembering d R) (r : Record) (name : String)
    (relation : Relation) (target : Schema) :
    Keeps R (Action.resolve d r name relation target) := by
  unfold Action.resolve
  split
  · exact hR.seq (hR.ownerRecord r relation target) fun _ => hR.result _
  · split
    · exact hR.seq (hR.recordsOfKeys target _) fun _ => hR.result _
    · split
      · exact hR.result _
      · exact hR.seq (hR.toSending.dependents r _ name relation target) fun _ => hR.result _

theorem Remembering.load (hR : Remembering d R) (name : String) :
    Keeps (Focus.Across R) (RecordAction.load d name) := by
  have hF := RecordAction.chained_across hR.toChained
  apply hF.seq (RecordAction.across_record hR.toChained)
  intro r
  apply hF.seq (RecordAction.across_check hR.toChained _)
  intro _
  split
  · exact hF.fail _
  · split
    · exact hF.result _
    · apply hF.seq (RecordAction.across_inSession (hR.schema _))
      intro target
      apply hF.seq (RecordAction.across_inSession (hR.resolve r name _ target))
      intro found
      split
      · exact hF.seq (RecordAction.across_change hR.toChained _) fun _ => hF.result _
      · exact hF.result _

end Action

/-! ## The record -/

namespace RecordAction

/-- Either loading leaves the record alone, and returns what is known or that there is nothing, or
it resolves the relation and keeps what is found. -/
theorem load_cases (d : Driver σ) (name : String) (f : Focus σ) :
    ((final (load d name f)).record = f.record ∧ ∀ found g, load d name f = .ok found g →
      f.record.related? name = some found ∨ ∃ kind, found = .empty kind) ∨
      ∃ relation target s found s', f.record.schema.relation name = some relation ∧
        f.record.related? name = none ∧
        Action.targetSchema relation f.session = .ok target s ∧
        Action.resolve d f.record name relation target s = .ok (some found) s' ∧
        load d name f = .ok found ⟨s', f.record.keep name found⟩ := by
  unfold load
  simp only [record_bind]
  cases hlive : f.record.ensureLive with
  | error e => exact .inl ⟨rfl, fun _ _ h => by cases h⟩
  | ok _ =>
    have hcheck : check (.ok ()) f = .ok () f := rfl
    rw [bind_of_ok hcheck]
    cases hrelation : f.record.schema.relation name with
    | none => exact .inl ⟨rfl, fun _ _ h => by cases h⟩
    | some relation =>
      cases hrelated : f.record.related? name with
      | some found =>
        refine .inl ⟨rfl, fun other g h => .inl ?_⟩
        rw [(pure_eq_ok.1 h).1]
      | none =>
        obtain ⟨target, s, htarget⟩ : ∃ target s,
            Action.targetSchema relation f.session = .ok target s := ⟨_, _, rfl⟩
        dsimp only
        rw [bind_of_ok (inSession_eq_ok.2 ⟨s, htarget, rfl⟩)]
        cases hresolve : Action.resolve d f.record name relation target s with
        | error e s' =>
          left
          rw [bind_of_error (inSession_eq_error.2 ⟨s', hresolve, rfl⟩)]
          exact ⟨rfl, fun _ _ h => by cases h⟩
        | ok outcome s' =>
          rw [bind_of_ok (inSession_eq_ok.2 ⟨s', hresolve, rfl⟩)]
          cases outcome with
          | none => exact .inl ⟨rfl, fun other g h => .inr ⟨_, (pure_eq_ok.1 h).1.symm⟩⟩
          | some found =>
            exact .inr ⟨relation, target, s, found, s', rfl, rfl, htarget, hresolve, rfl⟩

/-- What is known of a relation is returned, and nothing is asked. -/
theorem load_of_related? {d : Driver σ} {name : String} {f : Focus σ} {relation : Relation}
    {found : Related Record} (hlive : f.record.voided = false)
    (hrelation : f.record.schema.relation name = some relation)
    (h : f.record.related? name = some found) : load d name f = .ok found f := by
  rw [load, record_bind, bind_of_ok (check_ensureLive hlive)]
  simp only [hrelation, h]
  rfl

theorem related?_of_load {d : Driver σ} {name : String} {f g : Focus σ} {r : Record}
    (h : load d name f = .ok (.one (some r)) g) :
    g.record.related? name = some (.one (some r)) := by
  rcases load_cases d name f with ⟨hsame, hresult⟩ | ⟨_, _, _, found, s', -, -, -, -, hload⟩
  · rw [h] at hsame
    rcases hresult _ _ h with hknown | ⟨kind, hempty⟩
    · rw [← hknown]
      exact congrArg (Record.related? · name) hsame
    · cases kind <;> simp [Related.empty, RelationKind.isCollection] at hempty
  · rw [h] at hload
    cases hload
    exact Entries.get?_put_self _ _ _

end RecordAction

end RowMapper
