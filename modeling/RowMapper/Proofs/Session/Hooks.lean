import Mathlib.Data.List.Induction
import RowMapper.Proofs.Record.Marks
import RowMapper.Proofs.Session.Runs

/-! # How observers are asked

The observers of every model are asked first and those of the record's own model after
them, each in the order in which they were registered. Each is given what the one before
it left, up to the first that fails; those after it are not told. A veto refuses the
operation, and any other failure is its error.
-/

namespace RowMapper

open Run

variable {σ α β : Type}

namespace Observers

def registered (registrations : List (String × Observer)) : Observers :=
  registrations.foldl (fun observers entry => observers.register entry.1 entry.2) []

def registeredFor (registrations : List (String × Observer)) (model : String) : List Observer :=
  (registrations.filter fun entry => entry.1 = model).map Prod.snd

/-- The observers of a model's records: those of every model, then those of the model. -/
def inOrder (registrations : List (String × Observer)) (model : String) : List Observer :=
  registeredFor registrations everyModel ++
    if model = everyModel then [] else registeredFor registrations model

variable {registrations : List (String × Observer)} {model : String}

theorem get?_registered (registrations : List (String × Observer)) (model : String) :
    (Entries.get? (registered registrations) model).getD [] =
      registeredFor registrations model := by
  induction registrations using List.reverseRecOn with
  | nil => rfl
  | append_singleton earlier entry ih =>
    obtain ⟨name, o⟩ := entry
    have hlast : registered (earlier ++ [(name, o)]) = (registered earlier).register name o := by
      rw [registered, List.foldl_append]
      rfl
    rw [hlast, register, registeredFor, List.filter_append, List.map_append]
    by_cases hname : name = model
    · subst hname
      rw [Entries.get?_put_self, Option.getD_some, ih]
      simp [registeredFor]
    · rw [Entries.get?_put_of_ne _ _ hname, ih]
      simp [registeredFor, hname]

theorem ofModel_registered (registrations : List (String × Observer)) (model : String) :
    (registered registrations).ofModel model = inOrder registrations model := by
  unfold ofModel inOrder
  dsimp only
  rw [get?_registered, get?_registered]

theorem mem_of_mem_inOrder {o : Observer} (h : o ∈ inOrder registrations model) :
    ∃ name, (name, o) ∈ registrations := by
  have mem {name : String} (h : o ∈ registeredFor registrations name) :
      ∃ name, (name, o) ∈ registrations := by
    obtain ⟨entry, hentry, rfl⟩ := List.mem_map.1 h
    exact ⟨entry.1, (List.mem_filter.1 hentry).1⟩
  rcases List.mem_append.1 h with h | h
  · exact mem h
  · split at h
    · cases h
    · exact mem h

end Observers

/-! ## Reactions in turn -/

namespace Observer

/-- An observer that does nothing to a record but assign to its fields. -/
def AssignsOnly (o : Observer) : Prop := ∀ e r, Edit.Assigned r (final (o.before e r))

theorem final_before_deleting (o : Observer) (r : Record) : final (o.before .deleting r) = r := by
  unfold Observer.before
  dsimp only
  cases o.beforeDeletion r <;> rfl

theorem assignsOnly_of_editing {o : Observer}
    (h : ∀ e r, Edit.Assigned r (final (o.editing e r))) : o.AssignsOnly := by
  intro e r
  cases e with
  | deleting =>
    rw [final_before_deleting]
    exact .start
  | _ => exact h _ r

/-- What observers do to a record before an operation, each to what the one before it left, up to
the first that fails. -/
def beforeAll (e : Event) (observers : List Observer) : Reaction Record Unit :=
  observers.forM fun o => o.before e

/-- The observers that are told, of some who are to react in turn: those up to the first that
fails. -/
def heard (react : Observer → Reaction α Unit) : List Observer → α → List Observer
  | [], _ => []
  | o :: rest, a => match react o a with
    | .ok _ a => o :: heard react rest a
    | .error _ _ => [o]

variable {react : Observer → Reaction α Unit} {observers : List Observer} {a b : α}
  {failure : EventError}

theorem heard_of_ok (h : observers.forM react a = .ok () b) :
    heard react observers a = observers := by
  induction observers generalizing a with
  | nil => rfl
  | cons o rest ih =>
    obtain ⟨_, c, hfirst, hrest⟩ := bind_eq_ok.1 h
    rw [heard, hfirst]
    exact congrArg (o :: ·) (ih hrest)

/-- When observers fail, the last of those that are told is the one that fails. -/
theorem heard_of_error (h : observers.forM react a = .error failure b) :
    ∃ front o rest c, observers = front ++ o :: rest ∧ heard react observers a = front ++ [o] ∧
      front.forM react a = .ok () c ∧ react o c = .error failure b := by
  induction observers generalizing a with
  | nil => cases h
  | cons o rest ih =>
    rcases bind_eq_error.1 h with hfirst | ⟨_, c, hfirst, hrest⟩
    · exact ⟨[], o, rest, a, rfl, by rw [heard, hfirst]; rfl, rfl, hfirst⟩
    · obtain ⟨front, last, others, c', hsplit, hheard, hfront, hlast⟩ := ih hrest
      refine ⟨o :: front, last, others, c', by rw [hsplit]; rfl, ?_, ?_, hlast⟩
      · rw [heard, hfirst]
        exact congrArg (o :: ·) hheard
      · exact (bind_of_ok hfirst _).trans hfront

theorem assigned_beforeAll {e : Event} (ho : ∀ o ∈ observers, o.AssignsOnly) (r : Record) :
    Edit.Assigned r (final (beforeAll e observers r)) := by
  induction observers generalizing r with
  | nil => exact .start
  | cons o rest ih =>
    rw [List.forall_mem_cons] at ho
    have hfirst := ho.1 e r
    change Edit.Assigned r (final ((o.before e >>= fun _ => beforeAll e rest) r))
    cases h : o.before e r with
    | ok _ s =>
      rw [h] at hfirst
      rw [bind_of_ok h]
      exact Edit.Assigned.trans hfirst (ih ho.2 s)
    | error failure s =>
      rw [h] at hfirst
      rw [bind_of_error h]
      exact hfirst

theorem final_beforeAll_deleting (observers : List Observer) (r : Record) :
    final (beforeAll .deleting observers r) = r := by
  have hR : Chained fun r s : Record => s = r := ⟨fun _ => rfl, fun h h' => h'.trans h⟩
  induction observers generalizing r with
  | nil => rfl
  | cons o rest ih => exact hR.seq (final_before_deleting o) (fun _ => ih) r

end Observer

/-! ## Sessions with a journal -/

namespace Session

def noting (s : Session σ) (e : Event) (told : List Observer) : Session σ :=
  { s with notices := s.notices ++ told.map fun o => ⟨o.label, e⟩ }

def hearings (s : Session σ) : List Notice := s.notices.filter fun notice => notice.event.isBefore

theorem noting_nil (s : Session σ) (e : Event) : s.noting e [] = s := by
  simp [noting]

theorem noting_cons (s : Session σ) (e : Event) (o : Observer) (told : List Observer) :
    (s.noting e [o]).noting e told = s.noting e (o :: told) := by
  simp [noting]

@[simp] theorem hearings_noting (s : Session σ) (e : Event) (told : List Observer) :
    (s.noting e told).hearings =
      s.hearings ++ if e.isBefore then told.map fun o => ⟨o.label, e⟩ else [] := by
  rw [hearings, noting, List.filter_append, List.filter_map]
  cases he : e.isBefore with
  | true => simp [hearings, Function.comp_def, he, List.filter_eq_self.2]
  | false => simp [hearings, Function.comp_def, he]

end Session

namespace RecordAction

open Observer

def ObservedBy (observers : List Observer) (f : Focus σ) : Prop :=
  f.session.observers.ofModel f.record.model = observers

/-- What becomes of an operation of which an observer fails: a veto gives it a result, and all else
is an error. -/
def refusal (failure : EventError) (refused : α) : RecordAction σ α :=
  if failure.isVeto then pure refused else throw failure.toError

variable {failure : EventError} {observers : List Observer} {e : Event} {f g : Focus σ}

/-- An operation that goes no further when a part of it is refused is refused with the part. -/
theorem bind_of_refusal {x : RecordAction σ α} {k : α → RecordAction σ β} {a : α} {b : β}
    (h : x f = refusal failure a g) (hk : k a = pure b) : (x >>= k) f = refusal failure b g := by
  unfold refusal at h ⊢
  cases hveto : failure.isVeto with
  | true =>
    rw [hveto] at h
    exact (bind_of_ok h k).trans (congrFun hk g)
  | false =>
    rw [hveto] at h
    exact bind_of_error h k

theorem final_refusal (failure : EventError) (a : α) (f : Focus σ) :
    final (refusal failure a f) = f := by
  unfold refusal
  cases failure.isVeto <;> rfl

theorem askOne_of_ok {o : Observer} {r : Record} (h : o.before e f.record = .ok () r) :
    askOne e o f = .ok true ⟨f.session.noting e [o], r⟩ := by
  have hnote : note o e f = .ok () ⟨f.session.noting e [o], f.record⟩ := rfl
  rw [askOne, bind_of_ok hnote, record_bind, h]
  rfl

theorem askOne_of_error {o : Observer} {r : Record} (h : o.before e f.record = .error failure r) :
    askOne e o f = refusal failure false ⟨f.session.noting e [o], r⟩ := by
  have hnote : note o e f = .ok () ⟨f.session.noting e [o], f.record⟩ := rfl
  rw [askOne, bind_of_ok hnote, record_bind, h]
  rfl

theorem askEach_of_ok {r : Record} (h : beforeAll e observers f.record = .ok () r) :
    askEach e observers f = .ok true ⟨f.session.noting e observers, r⟩ := by
  induction observers generalizing f with
  | nil =>
    obtain ⟨-, rfl⟩ := pure_eq_ok.1 h
    rw [Session.noting_nil]
    rfl
  | cons o rest ih =>
    obtain ⟨_, s, hfirst, hrest⟩ := bind_eq_ok.1 h
    rw [askEach, bind_of_ok (askOne_of_ok hfirst)]
    simpa only [Session.noting_cons, if_true] using
      ih (f := ⟨f.session.noting e [o], s⟩) hrest

theorem askEach_of_error {r : Record}
    (h : beforeAll e observers f.record = .error failure r) :
    askEach e observers f = refusal failure false
      ⟨f.session.noting e (heard (fun o => o.before e) observers f.record), r⟩ := by
  induction observers generalizing f with
  | nil => cases h
  | cons o rest ih =>
    rw [askEach, heard]
    rcases bind_eq_error.1 h with hfirst | ⟨_, s, hfirst, hrest⟩
    · dsimp only at hfirst
      rw [hfirst]
      exact bind_of_refusal (askOne_of_error hfirst) rfl
    · dsimp only at hfirst
      rw [hfirst, bind_of_ok (askOne_of_ok hfirst)]
      simpa only [Session.noting_cons, if_true] using
        ih (f := ⟨f.session.noting e [o], s⟩) hrest

theorem before_eq (hobserved : ObservedBy observers f) (he : e.asksAboutRecord = true) :
    before e f = askEach e observers f := by
  unfold before
  rw [get_bind, show f.session.observers.ofModel f.record.model = observers from hobserved, he]
  rfl

/-- Observers that only assign do no more before an operation, and the journal tells of them. -/
theorem assigned_before (e : Event) (f : Focus σ)
    (hassigns : ∀ o ∈ f.session.observers.ofModel f.record.model, o.AssignsOnly) :
    (∃ notices, (final (before e f)).session = { f.session with notices }) ∧
      Edit.Assigned f.record (final (before e f)).record := by
  unfold before
  rw [get_bind]
  split
  · have hassigned := assigned_beforeAll (e := e) hassigns f.record
    cases h : beforeAll e (f.session.observers.ofModel f.record.model) f.record with
    | ok _ r =>
      rw [h] at hassigned
      rw [askEach_of_ok h]
      exact ⟨⟨_, rfl⟩, hassigned⟩
    | error failure r =>
      rw [h] at hassigned
      rw [askEach_of_error h, final_refusal]
      exact ⟨⟨_, rfl⟩, hassigned⟩
  · exact ⟨⟨f.session.notices, rfl⟩, .start⟩

/-- Observers of a deletion leave the record as it is, whoever they are and whether one of them
objects or not. -/
theorem record_before_deleting : Keeps (fun f g : Focus σ => g.record = f.record)
    (before .deleting : RecordAction σ Bool) := by
  intro f
  have hkept := final_beforeAll_deleting (f.session.observers.ofModel f.record.model) f.record
  unfold before
  rw [get_bind]
  split
  · cases h : beforeAll .deleting (f.session.observers.ofModel f.record.model) f.record with
    | ok _ r =>
      rw [h] at hkept
      rw [askEach_of_ok h]
      exact hkept
    | error failure r =>
      rw [h] at hkept
      rw [askEach_of_error h, final_refusal]
      exact hkept
  · rfl

theorem after_eq (hobserved : ObservedBy observers f) (he : e.isBefore = false) :
    after e f = .ok () ⟨f.session.noting e observers, f.record⟩ := by
  have told (observers : List Observer) (f : Focus σ) :
      (observers.forM fun o => note o e : RecordAction σ Unit) f =
        .ok () ⟨f.session.noting e observers, f.record⟩ := by
    induction observers generalizing f with
    | nil =>
      rw [Session.noting_nil]
      rfl
    | cons o rest ih =>
      rw [← Session.noting_cons]
      exact ih ⟨f.session.noting e [o], f.record⟩
  unfold after
  rw [get_bind, show f.session.observers.ofModel f.record.model = observers from hobserved, he]
  exact told observers f

/-! ## Assignments to several fields -/

variable {values given : List (String × FieldValue Record)}

theorem askAssignment_of_ok
    (h : observers.forM (fun o => o.beforeAssignment f.record) values = .ok () given) :
    askAssignment observers values f =
      .ok (some given) ⟨f.session.noting .settingData observers, f.record⟩ := by
  induction observers generalizing f values with
  | nil =>
    obtain ⟨-, rfl⟩ := pure_eq_ok.1 h
    rw [Session.noting_nil]
    rfl
  | cons o rest ih =>
    obtain ⟨_, others, hfirst, hrest⟩ := bind_eq_ok.1 h
    have hnote : note o .settingData f =
      .ok () ⟨f.session.noting .settingData [o], f.record⟩ := rfl
    dsimp only at hfirst
    rw [askAssignment, bind_of_ok hnote, record_bind]
    dsimp only
    rw [hfirst]
    simpa only [Session.noting_cons] using
      ih (f := ⟨f.session.noting .settingData [o], f.record⟩) hrest

theorem askAssignment_of_error
    (h : observers.forM (fun o => o.beforeAssignment f.record) values = .error failure given) :
    askAssignment observers values f = refusal failure none
      ⟨f.session.noting .settingData
        (heard (fun o => o.beforeAssignment f.record) observers values), f.record⟩ := by
  induction observers generalizing f values with
  | nil => cases h
  | cons o rest ih =>
    have hnote : note o .settingData f =
      .ok () ⟨f.session.noting .settingData [o], f.record⟩ := rfl
    rw [askAssignment, bind_of_ok hnote, record_bind, heard]
    rcases bind_eq_error.1 h with hfirst | ⟨_, others, hfirst, hrest⟩
    · dsimp only at hfirst ⊢
      rw [hfirst]
      exact bind_of_refusal (a := false) rfl rfl
    · dsimp only at hfirst ⊢
      rw [hfirst]
      simpa only [Session.noting_cons] using
        ih (f := ⟨f.session.noting .settingData [o], f.record⟩) hrest

end RecordAction

end RowMapper
