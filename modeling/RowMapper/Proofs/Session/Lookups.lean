import Mathlib.Logic.Relation
import RowMapper.Proofs.Record.Identities
import RowMapper.Proofs.Relation.LinkChanges
import RowMapper.Proofs.Session.Runs

/-! # Which record a look-up finds

Records are found, saved and deleted in any order, and copies of them are kept and
dropped. What a look-up takes from the identity map has the text of the key that
was asked for. For keys that are bytes this text is their number, so that another
record of the model is found as soon as its key has the same length.
-/

namespace RowMapper

open Run

variable {σ α : Type}

/-! ## Runs -/

/-- One use of records or of the identity map, whether it succeeds or not. -/
inductive Session.Step (d : Driver σ) (s : Session σ) : Session σ → Prop
  | find (schema : Schema) (key : Value) : Step d s (final (Action.findRecord d schema key s))
  | save (r : Record) : Step d s (final (RecordAction.save d ⟨s, r⟩)).session
  | delete (r : Record) : Step d s (final (RecordAction.delete d ⟨s, r⟩)).session
  | ask (i : Identity) : Step d s (final (Action.remembered i s))
  | remember (r : Record) : Step d s (final (Action.rememberRecord r s))
  | forget (i : Identity) : Step d s (final (Action.forgetRecord i s))
  | dropModel (model : String) : Step d s { s with identities := s.identities.dropModel model }
  | clear : Step d s { s with identities := s.identities.clear }

namespace Action

/-- Sending leaves the copies alone, and each use of the identity map keeps them filed. -/
theorem remembering_filed (d : Driver σ) :
    Remembering d fun s t => s.identities.Filed → t.identities.Filed :=
  have hsame := sending_identities d
  { refl := fun _ h => h
    trans := fun hst htu h => htu (hst h)
    connect := fun name config s h => hsame.connect name config s ▸ h
    schema := fun key s h => hsame.schema key s ▸ h
    note := fun s notice h => hsame.note s notice ▸ h
    fetch := fun c sql values s h => hsame.fetch c sql values s ▸ h
    execute := fun c sql values s h => hsame.execute c sql values s ▸ h
    ask := fun i _ h => h.get i
    remember := fun r _ h => h.store r
    forget := fun i _ h => h.invalidate i }

variable {d : Driver σ} {schema : Schema} {key : Value} {s t : Session σ}

theorem remembered_eq (i : Identity) : remembered i s =
    .ok (s.identities.find? i) { s with identities := (s.identities.get i).2 } := by
  have hget : (s.identities.get i).1 = s.identities.find? i := by
    unfold IdentityMap.get
    split <;> simp_all
  rw [← hget]
  rfl

theorem findRecord_of_find? {r : Record} (hkey : key.isEmpty = false)
    (hfind : s.identities.find? (.of schema.name key) = some r) :
    findRecord d schema key s = .ok (some r)
      { s with identities := (s.identities.get (.of schema.name key)).2 } := by
  rw [findRecord, hkey, if_neg Bool.false_ne_true, bind_of_ok (remembered_eq _), hfind]
  rfl

/-- What a look-up finds is the copy of the identity map, or without a copy the first row of the
driver's answer to the query of the key. -/
theorem findRecord_cases {r : Record} (h : findRecord d schema key s = .ok (some r) t) :
    s.identities.find? (.of schema.name key) = some r ∨
      s.identities.find? (.of schema.name key) = none ∧ ∃ q s₁ s₂ s₃ found,
        queryOf schema s₁ = .ok q s₂ ∧
          records d schema ((q.filter (.key schema.primaryKey key)).atMost 1) s₂ = .ok found s₃ ∧
            found.head? = some r := by
  unfold findRecord at h
  split at h
  · simp at h
  · rw [bind_of_ok (remembered_eq _)] at h
    cases hfind : s.identities.find? (.of schema.name key) with
    | some copy =>
      simp only [hfind, pure_eq_ok, Option.some.injEq] at h
      exact .inl (h.1 ▸ rfl)
    | none =>
      simp only [hfind] at h
      obtain ⟨q, s₂, hq, h⟩ := bind_eq_ok.1 h
      obtain ⟨found, s₃, hfound, h⟩ := bind_eq_ok.1 h
      obtain ⟨_, _, -, h⟩ := bind_eq_ok.1 h
      exact .inr ⟨rfl, q, _, s₂, s₃, found, hq, hfound, (pure_eq_ok.1 h).1⟩

end Action

/-- The step: copies stay under their own keys. -/
theorem Session.Step.filed {d : Driver σ} {s t : Session σ} (h : Session.Step d s t)
    (hs : s.identities.Filed) : t.identities.Filed := by
  have hR := Action.remembering_filed d
  cases h with
  | find schema key => exact hR.findRecord schema key s hs
  | save r => exact hR.save ⟨s, r⟩ hs
  | delete r => exact hR.delete ⟨s, r⟩ hs
  | ask i => exact hR.ask i s hs
  | remember r => exact hR.remember r s hs
  | forget i => exact hR.forget i s hs
  | dropModel model => exact hs.dropModel model
  | clear => exact .clear _

/-- The run: whatever is done in a session that began without copies, all copies stand under their
own keys. -/
theorem filed_of_run {d : Driver σ} {s t : Session σ} (hs : s.identities.entries = [])
    (h : Relation.ReflTransGen (Session.Step d) s t) : t.identities.Filed := by
  induction h with
  | refl => exact .of_nil hs
  | tail _ hstep ih => exact hstep.filed ih

/-! ## Keys of bytes -/

variable {d : Driver σ} {s₀ : Session σ} {schema : Schema}

/-- A copy that is found for a key of bytes and has a key of bytes itself has one of that length. -/
theorem length_eq_of_find? {s : Session σ} {b c : List UInt8} {r : Record}
    (hs : s₀.identities.entries = []) (hrun : Relation.ReflTransGen (Session.Step d) s₀ s)
    (hfind : s.identities.find? (.of schema.name (.bytes b)) = some r)
    (hr : r.key? = some (.bytes c)) : b.length = c.length := by
  obtain ⟨own, hown, -, htext⟩ := (filed_of_run hs hrun).find? hfind
  cases hown.symm.trans hr
  exact (Value.keyString_bytes_eq_iff.1 htext).symm

variable (d s₀ schema) in
/-- A record whose key has the same length is found after its copy was kept. -/
theorem exists_find?_of_length_eq {b c : List UInt8} (hc : c ≠ []) (hlength : b.length = c.length) :
    ∃ s r, Relation.ReflTransGen (Session.Step d) s₀ s ∧
      s.identities.find? (.of schema.name (.bytes b)) = some r ∧ r.key? = some (.bytes c) := by
  let r : Record := { schema, data := [(schema.primaryKey, .bytes c)] }
  have hkey : r.key? = some (.bytes c) := by
    simp [Record.key?, r, Entries.get?, Value.isEmpty, hc]
  refine ⟨_, r.detached, .single (.remember r), ?_, hkey⟩
  exact IdentityMap.find?_store hkey (Value.keyString_bytes_eq_iff.2 hlength.symm)

/-- Of two different keys that are bytes, in a session that began without copies: some run leads to
a look-up by the one that takes a record with the other from the identity map just when the two
have the same length, and all comparisons of links tell them apart just when they have not. Without
a copy, a look-up takes the first row that the driver returns for the query of the key. -/
theorem bytes_confused_iff {b c : List UInt8} (hs : s₀.identities.entries = []) (hb : b ≠ [])
    (hc : c ≠ []) (hne : b ≠ c) :
    ((∃ s t r, Relation.ReflTransGen (Session.Step d) s₀ s ∧
        s.identities.contains (.of schema.name (.bytes b)) = true ∧
          Action.findRecord d schema (.bytes b) s = .ok (some r) t ∧
            r.key? = some (.bytes c)) ↔ b.length = c.length) ∧
      (∀ s t r, s.identities.contains (.of schema.name (.bytes b)) = false →
        Action.findRecord d schema (.bytes b) s = .ok (some r) t → ∃ q s₁ s₂ s₃ found,
          Action.queryOf schema s₁ = .ok q s₂ ∧
            Action.records d schema ((q.filter (.key schema.primaryKey (.bytes b))).atMost 1) s₂ =
              .ok found s₃ ∧ found.head? = some r) ∧
      ((∀ present wanted : List Value, (∀ v ∈ present ++ wanted, v = .bytes b ∨ v = .bytes c) →
        LinkChanges.Exact present wanted) ↔ b.length ≠ c.length) := by
  refine ⟨⟨?_, fun hlength => ?_⟩, fun s t r hnone hfound => ?_, LinkChanges.exact_bytes_iff hb hne⟩
  · rintro ⟨s, t, r, hrun, hcopy, hfound, hr⟩
    rcases Action.findRecord_cases hfound with hfind | ⟨hnone, -⟩
    · exact length_eq_of_find? hs hrun hfind hr
    · simp [IdentityMap.contains, hnone] at hcopy
  · obtain ⟨s, r, hrun, hfind, hr⟩ := exists_find?_of_length_eq d s₀ schema hc hlength
    have hkey : (Value.bytes b).isEmpty = false := by simpa [Value.isEmpty] using hb
    exact ⟨s, _, r, hrun, by simp [IdentityMap.contains, hfind],
      Action.findRecord_of_find? hkey hfind, hr⟩
  · rcases Action.findRecord_cases hfound with hfind | ⟨-, hrows⟩
    · simp [IdentityMap.contains, hfind] at hnone
    · exact hrows

def blobSample : Schema := (Schema.new "Blob" "blobs").keyedBy "hash" .binary

theorem blobSample_confused : ([2] : List UInt8) ≠ [1] ∧
    ((∃ s t r, Relation.ReflTransGen (Session.Step Scripted.driver)
        (Scripted.session [blobSample]) s ∧
          s.identities.contains (.of blobSample.name (.bytes [2])) = true ∧
            Action.findRecord Scripted.driver blobSample (.bytes [2]) s = .ok (some r) t ∧
              r.key? = some (.bytes [1])) ↔
                ([2] : List UInt8).length = ([1] : List UInt8).length) :=
  ⟨by decide, (bytes_confused_iff rfl (by decide) (by decide) (by decide)).1⟩

/-- The record with the key 1 is found by the key 2, and as links the two are the same. -/
theorem blobSample_found : ∃ s t r, Relation.ReflTransGen (Session.Step Scripted.driver)
    (Scripted.session [blobSample]) s ∧
      Action.findRecord Scripted.driver blobSample (.bytes [2]) s = .ok (some r) t ∧
        r.key? = some (.bytes [1]) ∧
          (LinkChanges.between [.bytes [1]] [.bytes [2]]).isEmpty = true := by
  let r : Record := Record.ofRow blobSample [("hash", .bytes [1])]
  have hkey : r.key? = some (.bytes [1]) := rfl
  have htext : (Value.bytes [1]).keyString = (Value.bytes [2]).keyString :=
    Value.keyString_bytes_eq_iff.2 rfl
  have hfind := IdentityMap.find?_store (m := {}) hkey htext
  exact ⟨_, _, _, .single (.remember r), Action.findRecord_of_find? rfl hfind, hkey,
    by decide +kernel⟩

end RowMapper
