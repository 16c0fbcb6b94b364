import RowMapper.Proofs.Session.KeyedTables

/-! # Rosters

A server with one table of numbered players. It takes text that reads as an integer for it,
keeps numbers unique, and refuses what it does not know. Its driver serves the table faithfully.
-/

namespace RowMapper

open Run Sql

/-! ## The server -/

abbrev Roster := List (Int64 × String)

namespace Roster

open Session.Operation (playerModel)

def row? (players : Roster) (n : Int) : Option Row :=
  (players.find? fun p => p.1.toInt = n).map fun p => [("id", .int64 p.1), ("name", .text p.2)]

def table : KeyedTable Roster where
  row? := row?
  keyOf := Value.toInt?

def HasKey (key : Value) (p : Int64 × String) : Prop := key.toInt? = some p.1.toInt

instance (key : Value) (p : Int64 × String) : Decidable (HasKey key p) :=
  inferInstanceAs (Decidable (_ = _))

def alter (key : Value) (change : Int64 × String → Option (Int64 × String)) (players : Roster) :
    Roster :=
  players.filterMap fun p => if HasKey key p then change p else some p

/-- Give another number to the player with a number, unless another player has it. -/
def renumber (key new : Value) (players : Roster) : Option Roster := do
  let n ← new.toInt?
  if players.any fun p => p.1 = .ofInt n ∧ ¬ HasKey key p then none
  else return players.alter key fun p => some (.ofInt n, p.2)

/-- The players after a statement, if the server does not refuse it. -/
def changed? (sql : String) (values : List Value) (players : Roster) : Option Roster :=
  match values with
  | [new, key] =>
    if sql = "UPDATE players SET name = ? WHERE (id = ?)" then
      new.toText?.map fun name => players.alter key fun p => some (p.1, name)
    else if sql = "UPDATE players SET id = ? WHERE (id = ?)" then players.renumber key new
    else none
  | [key] =>
    if sql = "DELETE FROM players WHERE (id = ?)" then some (players.alter key fun _ => none)
    else none
  | _ => none

def asked? (sql : String) (values : List Value) (players : Roster) : Option (List Row) :=
  match values with
  | [key] =>
    if sql = "SELECT players.* FROM players WHERE (players.id = ?) LIMIT 1 OFFSET 0" then
      some (key.toInt?.bind players.row?).toList
    else none
  | _ => none

/-- How many players a statement is for, by its last value. -/
def affected (values : List Value) (players : Roster) : Nat :=
  match values.getLast? with
  | some key => players.countP fun p => HasKey key p
  | none => 0

def refusal : Error := .queryFailed "1" "constraint failed"

def driver : Driver Roster where
  connect _ _ := pure ()
  close _ _ := pure ()
  fetch _ _ sql values := fun players =>
    match players.asked? sql values with
    | some rows => .ok rows players
    | none => .error refusal players
  execute _ _ sql values := fun players =>
    match players.changed? sql values with
    | some players' => .ok { affected := players.affected values } players'
    | none => .error refusal players

def session (players : Roster) : Session Roster where
  config := [(defaultConnection, .new .sqlite "test")]
  served := [.sqlite]
  servers := players
  schemas := { declared := fun _ => playerModel }
  now := .atMidnight .epoch

/-! ## What a change spares -/

variable {sql : String} {key : Value} {players players' : Roster} {n : Int} {row : Row}

theorem row?_cons (p : Int64 × String) (players : Roster) (n : Int) :
    row? (p :: players) n = if p.1.toInt = n then some [("id", .int64 p.1), ("name", .text p.2)]
      else row? players n := by
  by_cases hp : p.1.toInt = n <;> simp [row?, hp]

/-- A change of a player leaves the row of another number, which it does not give away. -/
theorem row?_alter {change : Int64 × String → Option (Int64 × String)}
    (hrow : players.row? n = some row) (hkey : key.toInt? ≠ some n)
    (hchange : ∀ p q, change p = some q → HasKey key p → q.1.toInt ≠ n) :
    (players.alter key change).row? n = some row := by
  induction players with
  | nil => cases hrow
  | cons p players ih =>
    rw [row?_cons] at hrow
    rw [alter, List.filterMap_cons]
    by_cases hown : HasKey key p
    · have hp : p.1.toInt ≠ n := fun hp => hkey (hp ▸ hown)
      rw [if_neg hp] at hrow
      rw [if_pos hown]
      cases hq : change p with
      | none => exact ih hrow
      | some q =>
        dsimp only
        rw [row?_cons, if_neg (hchange p q hq hown)]
        exact ih hrow
    · rw [if_neg hown]
      dsimp only
      rw [row?_cons]
      split
      · next hp => rwa [if_pos hp] at hrow
      · next hp =>
        rw [if_neg hp] at hrow
        exact ih hrow

/-- A number that has a row is given to no other player. -/
theorem row?_renumber {new : Value} (h : players.renumber key new = some players')
    (hrow : players.row? n = some row) (hkey : key.toInt? ≠ some n) :
    players'.row? n = some row := by
  obtain ⟨m, -, h⟩ := Option.bind_eq_some_iff.1 h
  split at h
  · cases h
  · next hfree =>
    cases h
    refine row?_alter hrow hkey fun p q hq hown hn => hfree ?_
    cases hq
    obtain ⟨taken, htaken, -⟩ := Option.map_eq_some_iff.1 hrow
    have hnumber : taken.1.toInt = n := by simpa using List.find?_some htaken
    have hsame : taken.1 = .ofInt m := Int64.toInt_inj.1 (hnumber.trans hn.symm)
    have hother : ¬ HasKey key taken := fun h => hkey (hnumber ▸ h)
    exact List.any_eq_true.2 ⟨taken, List.mem_of_find?_eq_some htaken,
      decide_eq_true ⟨hsame, hother⟩⟩

/-- A statement changes the row of the number that is its last value at most. -/
theorem row?_changed {assigned : List Value}
    (h : players.changed? sql (assigned ++ [key]) = some players')
    (hrow : players.row? n = some row) (hkey : key.toInt? ≠ some n) :
    players'.row? n = some row := by
  match assigned with
  | [] =>
    unfold changed? at h
    dsimp only [List.nil_append] at h
    split at h
    · cases h
      exact row?_alter hrow hkey fun _ _ hq => nomatch hq
    · cases h
  | [new] =>
    unfold changed? at h
    dsimp only [List.cons_append, List.nil_append] at h
    split at h
    · obtain ⟨name, -, rfl⟩ := Option.map_eq_some_iff.1 h
      refine row?_alter hrow hkey fun p q hq hown hn => hkey ?_
      cases hq
      exact hn ▸ hown
    · split at h
      · exact row?_renumber h hrow hkey
      · cases h
  | _ :: _ :: [] => cases h
  | _ :: _ :: _ :: _ => cases h

/-! ## The driver -/

theorem takesIntegers : Value.TakesIntegers table.keyOf := by
  intro v n h
  cases v <;> cases h <;> rfl

theorem asked?_key {sql : String} {rows : List Row} (h : players.asked? sql [key] = some rows)
    (hkey : key.toInt? = some n) : rows = (players.row? n).toList := by
  unfold asked? at h
  dsimp only at h
  split at h
  · cases h
    rw [hkey, Option.bind_some]
  · cases h

theorem changed?_create (hsql : Begins "CREATE" sql) (values : List Value) (players : Roster) :
    players.changed? sql values = none := by
  have hother {text : String} (h : ¬ "CREATE".toList ++ [' '] <+: text.toList) : sql ≠ text :=
    fun heq => h (heq ▸ hsql.starts)
  unfold changed?
  split
  · rw [if_neg (hother (by decide)), if_neg (hother (by decide))]
  · rw [if_neg (hother (by decide))]
  · rfl

theorem faithful : table.Faithful driver playerModel "" where
  integers := takesIntegers
  keyed := by
    intro players n row hrow
    obtain ⟨p, hp, rfl⟩ := Option.map_eq_some_iff.1 hrow
    have hnumber : p.1.toInt = n := by simpa using List.find?_some hp
    exact ⟨.int64 p.1, rfl, congrArg some hnumber⟩
  connect _ _ _ := rfl
  select := by
    intro serial config sql values players _
    unfold driver
    dsimp only
    cases players.asked? sql values <;> rfl
  links := by
    intro serial config sql values players h
    have hnone (table : String) : ¬ playerModel.LinkTable "" table := by
      rintro ⟨name, relation, target, hrelation, -⟩
      have hplain : ∀ entry ∈ playerModel.fields, entry.2.relation.isNone = true := by
        decide +kernel
      obtain ⟨f, hf, hlinks⟩ := Option.bind_eq_some_iff.1 hrelation
      have hnone := hplain _ (Entries.mem_of_get? hf)
      rw [hlinks] at hnone
      cases hnone
    cases h with
    | create hsql =>
      unfold driver
      dsimp only
      rw [changed?_create hsql]
      rfl
    | unlink htable => exact absurd htable (hnone _)
    | link htable => exact absurd htable (hnone _)
  answers := by
    intro serial config key n sql values rows players players' hasks hkey hrun
    have hnull : key ≠ .null := by
      rintro rfl
      cases hkey
    obtain rfl := hasks.values_eq (by decide) (by decide) hnull
    unfold driver at hrun
    dsimp only at hrun
    split at hrun
    · next rows' hasked =>
      cases hrun
      exact asked?_key hasked (takesIntegers key n hkey)
    · cases hrun
  fails := by
    intro serial config key sql values e players players' _ _ hrun
    unfold driver at hrun
    dsimp only at hrun
    split at hrun <;> cases hrun
    rfl
  spares := by
    intro serial config key sql values outcome players players' hempty hchanges hrun n row hrow hkey
    have hnull : key ≠ .null := by
      rintro rfl
      cases hempty
    have hclosed : ClosedColumn playerModel.primaryKey := fun h => absurd h (by decide)
    obtain ⟨assigned, rfl⟩ := hchanges.values_eq (by decide) hclosed hnull
    unfold driver at hrun
    dsimp only at hrun
    split at hrun
    · next changed hchanged =>
      cases hrun
      exact row?_changed hchanged hrow hkey
    · cases hrun

end Roster

end RowMapper
