import RowMapper.Proofs.Relation.LinkDifference
import RowMapper.Proofs.Session.Runs
import RowMapper.Proofs.Statement.Links

/-! # Linking sends the difference

Where the junction table is there and no statement fails, the links of an owner are
read once and then changed by the statements of the difference between the keys that
were read and the wanted ones: a deletion when a key is removed, and an insertion when
one is added.
-/

namespace RowMapper

open Run

variable {σ : Type}

def Driver.executes (d : Driver σ) (c : Connection) : List (String × List Value) → σ → Bool
  | [], _ => true
  | (sql, values) :: rest, servers =>
    match d.execute c.serial c.config sql values servers with
    | .ok _ servers => d.executes c rest servers
    | .error _ _ => false

theorem Driver.executes_cons {d : Driver σ} {c : Connection} {sql : String} {values : List Value}
    {rest : List (String × List Value)} {servers : σ} :
    d.executes c ((sql, values) :: rest) servers = true ↔ ∃ outcome servers',
      d.execute c.serial c.config sql values servers = .ok outcome servers' ∧
        d.executes c rest servers' = true := by
  rw [executes]
  cases d.execute c.serial c.config sql values servers <;> simp

/-- Neither a boolean nor the word for the present time: a value that is bound when it is stored,
unless it is null. -/
def Value.IsBindable (v : Value) : Prop := (∀ b, v ≠ .bool b) ∧ v ≠ .text Value.now

theorem Value.IsBindable.inlineText? {v : Value} (h : v.IsBindable) (hempty : v.isEmpty = false)
    (d : Dialect) : Sql.inlineText? d v = none := by
  cases v with
  | null => cases hempty
  | bool b => exact absurd rfl (h.1 b)
  | text s => exact if_neg fun hs => h.2 (congrArg Value.text hs)
  | _ => rfl

namespace Junction

def deleteStatements (j : Junction) (d : Dialect) (owner : Value) (keys : List Value) :
    List (String × List Value) :=
  if keys.isEmpty then [] else [(j.deleteText d keys.length, owner :: j.slotValues ++ keys)]

def insertStatements (j : Junction) (d : Dialect) (owner : Value) (keys : List Value) :
    List (String × List Value) :=
  if keys.isEmpty then [] else [(j.insertText d keys.length, keys.flatMap (j.linkValues owner))]

def changeStatements (j : Junction) (d : Dialect) (owner : Value) (c : LinkChanges) :
    List (String × List Value) :=
  j.deleteStatements d owner c.removed ++ j.insertStatements d owner c.added

def keysOf (j : Junction) (rows : List Row) : List Value :=
  rows.filterMap fun row => Entries.get? row j.relatedKey

end Junction

namespace Action

/-- A run that sent statements, which left the servers in a state. -/
structure Sends (statements : List (String × List Value)) (servers : σ) (s t : Session σ) :
    Prop where
  sent : t.sent = s.sent ++ statements
  servers : t.servers = servers

variable {d : Driver σ} {c : Connection} {s : Session σ} {servers : σ}

theorem send_of_ok {α : Type} (c : Connection) (sql : String) (values : List Value)
    {body : EStateM Error σ α} {a : α} (h : body s.servers = .ok a servers) :
    ∃ t, send c sql values body s = .ok a t ∧ Sends [(sql, values)] servers s t := by
  unfold send
  rw [h]
  exact ⟨_, rfl, by simp [Session.sent], rfl⟩

theorem fetchStatement_of_ok {statement : Sql.Statement} {sql : String} {values : List Value}
    {rows : List Row} (hsent : statement.toPositional c.dialect = .ok (sql, values))
    (h : d.fetch c.serial c.config sql values s.servers = .ok rows servers) :
    ∃ t, fetchStatement d c statement s = .ok rows t ∧ Sends [(sql, values)] servers s t := by
  obtain ⟨t, hrun, hsends⟩ := send_of_ok c sql values h
  exact ⟨t, (bind_of_ok (check_of_ok hsent s) _).trans hrun, hsends⟩

theorem executeStatement_of_ok {statement : Sql.Statement} {sql : String} {values : List Value}
    {outcome : Outcome} (hsent : statement.toPositional c.dialect = .ok (sql, values))
    (h : d.execute c.serial c.config sql values s.servers = .ok outcome servers) :
    ∃ t, executeStatement d c statement s = .ok outcome t ∧
      Sends [(sql, values)] servers s t := by
  obtain ⟨t, hrun, hsends⟩ := send_of_ok c sql values h
  exact ⟨t, (bind_of_ok (check_of_ok hsent s) _).trans hrun, hsends⟩

/-! ## The steps of linking -/

theorem positional_tableProbe (d : Dialect) (table : String) :
    Sql.positional d (Sql.tableProbe d table) [] = .ok (Sql.tableProbe d table, []) := by
  have hseals := ((Sql.seals_quoteQualified d table).prepend (a := "SELECT 1 FROM ")
    (by decide)).close (a := " LIMIT 1") (by decide)
  have hpositional := (Sql.Becomes.ofReads hseals.reads d 0).toPositional
  rw [Sql.positional_eq_ok, ← Sql.toPositional_snd d]
  unfold Sql.tableProbe
  rw [hpositional]
  exact ⟨rfl, rfl, rfl⟩

theorem ensureTable_of_ok {j : Junction} {rows : List Row}
    (h : d.fetch c.serial c.config (Sql.tableProbe c.dialect j.table) [] s.servers =
      .ok rows servers) :
    ∃ t, ensureTable d c j s = .ok () t ∧
      Sends [(Sql.tableProbe c.dialect j.table, [])] servers s t := by
  obtain ⟨t, hrun, hsends⟩ := send_of_ok c (Sql.tableProbe c.dialect j.table) [] h
  have hfetch : fetch d c (Sql.tableProbe c.dialect j.table) [] s = .ok rows t :=
    (bind_of_ok (check_of_ok (positional_tableProbe c.dialect j.table) s) _).trans hrun
  have hattempt : attempt (fetch d c (Sql.tableProbe c.dialect j.table) []) s =
      .ok (.ok rows) t := by
    rw [attempt, hfetch]
  have hhas : hasTable d c j.table s = .ok true t := bind_of_ok hattempt _
  exact ⟨t, bind_of_ok hhas _, hsends⟩

theorem linkedKeys_of_ok {j : Junction} {owner : Value} {rows : List Row} (hj : j.Plain)
    (howner : owner ≠ .null)
    (h : d.fetch c.serial c.config (j.selectText c.dialect) (owner :: j.slotValues) s.servers =
      .ok rows servers) :
    ∃ t, linkedKeys d c j owner s = .ok (j.keysOf rows) t ∧
      Sends [(j.selectText c.dialect, owner :: j.slotValues)] servers s t := by
  obtain ⟨statement, hstatement, hsent⟩ := j.ofQuery_linkedKeys_sent hj howner c.dialect
  obtain ⟨t, hrun, hsends⟩ := fetchStatement_of_ok hsent h
  refine ⟨t, ?_, hsends⟩
  rw [linkedKeys, bind_of_ok (check_of_ok hstatement s), bind_of_ok hrun]
  rfl

theorem delete_of_ok {statement : Sql.Statement} {table sql : String} {values : List Value}
    {conditions : List (Condition Query)} {outcome : Outcome}
    (hstatement : Sql.deletion c.dialect table conditions = .ok statement)
    (hsent : statement.toPositional c.dialect = .ok (sql, values))
    (h : d.execute c.serial c.config sql values s.servers = .ok outcome servers) :
    ∃ t, delete d c table conditions s = .ok outcome.affected t ∧
      Sends [(sql, values)] servers s t := by
  obtain ⟨t, hrun, hsends⟩ := executeStatement_of_ok hsent h
  refine ⟨t, ?_, hsends⟩
  rw [delete, bind_of_ok (check_of_ok hstatement s), affected, bind_of_ok hrun]
  rfl

theorem insert_of_ok {statement : Sql.Statement} {table sql : String} {values : List Value}
    {rows : List (Entries Value)} {outcome : Outcome}
    (hstatement : Sql.insertion c.dialect table rows {} = .ok (some statement))
    (hsent : statement.toPositional c.dialect = .ok (sql, values))
    (h : d.execute c.serial c.config sql values s.servers = .ok outcome servers) :
    ∃ t, insert d c table rows {} s = .ok outcome.insertedKey t ∧
      Sends [(sql, values)] servers s t := by
  obtain ⟨t, hrun, hsends⟩ := executeStatement_of_ok hsent h
  exact ⟨t, (bind_of_ok (check_of_ok hstatement s) _).trans (bind_of_ok hrun _), hsends⟩

/-! ## Making the changes -/

def addLinks (d : Driver σ) (c : Connection) (j : Junction) (owner : Value)
    (changes : LinkChanges) : Action σ LinkChanges := do
  if !changes.added.isEmpty then
    let _ ← insert d c j.table (changes.added.map (j.link owner)) {}
  return changes

def applyChanges (d : Driver σ) (c : Connection) (j : Junction) (owner : Value)
    (changes : LinkChanges) : Action σ LinkChanges := do
  if !changes.removed.isEmpty then
    let _ ← delete d c j.table (j.linkConditions owner changes.removed)
  addLinks d c j owner changes

theorem link_eq (d : Driver σ) (c : Connection) (j : Junction) (owner : Value)
    (wanted : List Value) : link d c j owner wanted = (do
      ensureTable d c j
      applyChanges d c j owner (.between (← linkedKeys d c j owner) wanted)) := rfl

variable {j : Junction} {owner : Value} {changes : LinkChanges}

theorem addLinks_of_ok (hj : j.Plain) (howner : Sql.inlineText? c.dialect owner = none)
    (hkeys : ∀ key ∈ changes.added, Sql.inlineText? c.dialect key = none)
    (h : d.executes c (j.insertStatements c.dialect owner changes.added) s.servers = true) :
    ∃ t, addLinks d c j owner changes s = .ok changes t ∧
      t.sent = s.sent ++ j.insertStatements c.dialect owner changes.added := by
  unfold addLinks
  unfold Junction.insertStatements at h ⊢
  by_cases hadded : changes.added = []
  · rw [hadded]
    exact ⟨s, rfl, (List.append_nil _).symm⟩
  · have hsome : changes.added.isEmpty = false := by simpa using hadded
    rw [hsome, if_neg Bool.false_ne_true] at h ⊢
    obtain ⟨outcome, servers, hexecute, -⟩ := Driver.executes_cons.1 h
    obtain ⟨statement, hstatement, hsent⟩ := j.insertion_links_sent hj howner hkeys hadded
    obtain ⟨t, hrun, hsends⟩ := insert_of_ok hstatement hsent hexecute
    exact ⟨t, bind_of_ok hrun _, hsends.sent⟩

/-- The changes are made by their statements, as long as these do not fail. -/
theorem applyChanges_of_ok (hj : j.Plain) (howner : Sql.inlineText? c.dialect owner = none)
    (hkeys : ∀ key ∈ changes.added, Sql.inlineText? c.dialect key = none)
    (h : d.executes c (j.changeStatements c.dialect owner changes) s.servers = true) :
    ∃ t, applyChanges d c j owner changes s = .ok changes t ∧
      t.sent = s.sent ++ j.changeStatements c.dialect owner changes := by
  unfold applyChanges
  unfold Junction.changeStatements Junction.deleteStatements at h ⊢
  by_cases hremoved : changes.removed = []
  · rw [hremoved] at h ⊢
    exact addLinks_of_ok hj howner hkeys h
  · have hsome : changes.removed.isEmpty = false := by simpa using hremoved
    rw [hsome, if_neg Bool.false_ne_true] at h ⊢
    obtain ⟨outcome, servers, hexecute, hrest⟩ := Driver.executes_cons.1 h
    have hnull : owner ≠ .null := by
      rintro rfl
      cases howner
    obtain ⟨statement, hstatement, hsent⟩ := j.deletion_sent hj hnull c.dialect hremoved
    obtain ⟨t, hrun, hsends⟩ := delete_of_ok hstatement hsent hexecute
    rw [← hsends.servers] at hrest
    obtain ⟨u, hadd, hsent'⟩ := addLinks_of_ok hj howner hkeys hrest
    refine ⟨u, (bind_of_ok hrun _).trans hadd, ?_⟩
    rw [hsent', hsends.sent, List.append_assoc]

/-! ## Linking -/

/-- Over bare names and bindable keys, and as long as no statement fails, linking probes for the
table, reads the keys that are linked and sends the statements of the difference. -/
theorem link_sends_difference {owner target : Schema} {field start : String} {r : Relation}
    {d : Driver σ} {c : Connection} {s : Session σ} {j : Junction} {key : Value}
    {wanted : List Value} {probed rows : List Row} {probing reading : σ}
    (hj : j = .ofRelation owner field r target start) (htable : Sql.IsBare j.table)
    (hownerKey : Sql.IsBare j.ownerKey) (hrelatedKey : Sql.IsBare j.relatedKey)
    (hfield : Sql.IsBare field) (hkey : key.isEmpty = false)
    (hbindable : ∀ v ∈ key :: wanted, v.IsBindable)
    (hprobe : d.fetch c.serial c.config (Sql.tableProbe c.dialect j.table) [] s.servers =
      .ok probed probing)
    (hselect : d.fetch c.serial c.config (j.selectText c.dialect) (key :: j.slotValues) probing =
      .ok rows reading)
    (hchange : d.executes c
      (j.changeStatements c.dialect key (.between (j.keysOf rows) wanted)) reading = true) :
    ∃ t, link d c j key wanted s = .ok (.between (j.keysOf rows) wanted) t ∧
      t.sent = s.sent ++ [(Sql.tableProbe c.dialect j.table, []),
        (j.selectText c.dialect, key :: j.slotValues)] ++
        j.changeStatements c.dialect key (.between (j.keysOf rows) wanted) ∧
      (LinkChanges.between (j.keysOf rows) wanted).Difference (j.keysOf rows) wanted := by
  have hplain : j.Plain := by
    subst hj
    exact Junction.plain_ofRelation htable hownerKey hrelatedKey hfield
  have hinline := (hbindable key List.mem_cons_self).inlineText? hkey c.dialect
  have hnull : key ≠ .null := by
    rintro rfl
    cases hkey
  obtain ⟨s₁, hensure, hsends⟩ := ensureTable_of_ok hprobe
  rw [← hsends.servers] at hselect
  obtain ⟨s₂, hread, hsends'⟩ := linkedKeys_of_ok hplain hnull hselect
  have hdifference := LinkChanges.difference_between (j.keysOf rows) wanted
  have hadded : ∀ v ∈ (LinkChanges.between (j.keysOf rows) wanted).added,
      Sql.inlineText? c.dialect v = none := by
    intro v hv
    obtain ⟨hempty, hplace⟩ := hdifference.first v hv
    have hwanted := List.mem_of_getElem? hplace
    exact (hbindable v (List.mem_cons_of_mem key hwanted)).inlineText? hempty c.dialect
  rw [← hsends'.servers] at hchange
  obtain ⟨t, happly, hsent⟩ := applyChanges_of_ok hplain hinline hadded hchange
  refine ⟨t, ?_, ?_, hdifference⟩
  · rw [link_eq, bind_of_ok hensure, bind_of_ok hread, happly]
  · rw [hsent, hsends'.sent, hsends.sent, List.append_assoc s.sent]
    rfl

def personSample : Schema := .new "Person" "person"

def friendship : Relation where
  kind := .manyToMany
  target := personSample.ref 0
  junctionTable := some "friendships"

def friendships : Junction where
  table := "friendships"
  ownerKey := "person_id"
  relatedKey := "related_person_id"
  ownerType := .bigInt
  relatedType := .bigInt
  slot := some "friends"

theorem friendships_eq :
    friendships = .ofRelation personSample "friends" friendship personSample "" := by
  decide +kernel

/-- A session over a junction table that links a person to two others. -/
def friendsSession : Session Scripted.Servers :=
  Scripted.session [personSample] { scripts := [⟨"SELECT related_person_id",
    .rows [[("related_person_id", .int64 7)], [("related_person_id", .int64 8)]], false⟩] }

def friendsConnection : Connection where
  serial := 0
  config := .new .postgres "test"
  statistics := ⟨defaultConnection, 0, 0⟩

/-- Wanted keys: one is linked already, one is new and comes twice, and one is empty. -/
def wantedFriends : List Value := [.int64 8, .int64 9, .null, .int64 9]

def probedFriends : EStateM.Result Error Scripted.Servers (List Row) :=
  Scripted.driver.fetch friendsConnection.serial friendsConnection.config
    (Sql.tableProbe friendsConnection.dialect friendships.table) [] friendsSession.servers

def readFriends : EStateM.Result Error Scripted.Servers (List Row) :=
  Scripted.driver.fetch friendsConnection.serial friendsConnection.config
    (friendships.selectText friendsConnection.dialect) (.int64 5 :: friendships.slotValues)
    (final probedFriends)

def friendRows : List Row := (value? readFriends).get (by decide +kernel)

theorem friendsSession_linked : ∃ t, link Scripted.driver friendsConnection friendships (.int64 5)
      wantedFriends friendsSession =
        .ok (.between (friendships.keysOf friendRows) wantedFriends) t ∧
    (t.sent.map fun entry => (entry.1, entry.2.map Value.display)) =
      [("SELECT 1 FROM friendships LIMIT 1", []),
        ("SELECT related_person_id FROM friendships WHERE " ++
          "((friendships.person_id = $1) AND (friendships.name = $2))", ["5", "friends"]),
        ("DELETE FROM friendships WHERE (person_id = $1) AND (name = $2) AND " ++
          "(related_person_id IN ($3))", ["5", "friends", "7"]),
        ("INSERT INTO friendships (person_id, related_person_id, name) VALUES ($1, $2, $3)",
          ["5", "9", "friends"])] := by
  have hprobe := eq_ok_of_value? (Option.eq_some_of_isSome (o := value? probedFriends)
    (by decide +kernel))
  have hselect : readFriends = .ok friendRows (final readFriends) :=
    eq_ok_of_value? (Option.eq_some_of_isSome _)
  have hchange : Scripted.driver.executes friendsConnection
      (friendships.changeStatements friendsConnection.dialect (.int64 5)
        (.between (friendships.keysOf friendRows) wantedFriends)) (final readFriends) = true := by
    decide +kernel
  have hbindable : ∀ v ∈ Value.int64 5 :: wantedFriends, v.IsBindable := by
    simp [wantedFriends, Value.IsBindable]
  obtain ⟨t, hrun, hsent, -⟩ := link_sends_difference (s := friendsSession) friendships_eq
    (by decide) (by decide) (by decide) (by decide) rfl hbindable hprobe hselect hchange
  refine ⟨t, hrun, ?_⟩
  rw [hsent]
  decide +kernel

end Action

end RowMapper
