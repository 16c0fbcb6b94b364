import RowMapper.Proofs.Session.Loads
import RowMapper.Proofs.Session.Verbs

/-! # Statements and their connections

Over which connection a statement goes is told by the connection itself. That is the
connection of the name that was asked for, as long as every open connection is
registered under its own name, which all operations keep.
-/

namespace RowMapper

open Run Sql

variable {σ α : Type}

structure Message where
  /-- The name of the connection that it went over. -/
  connection : String
  dialect : Dialect
  sql : String
  values : List Value

def Call.message? : Call → Option Message
  | .send connection dialect sql values => some ⟨connection, dialect, sql, values⟩
  | _ => none

def Session.messages (s : Session σ) : List Message := s.calls.filterMap Call.message?

def Session.SendsAll (P : Message → Prop) : Session σ → Session σ → Prop :=
  Session.Gains Session.messages P

def Session.SendsSome (P : Message → Prop) (s t : Session σ) : Prop :=
  ∃ messages, t.messages = s.messages ++ messages ∧ ∃ m ∈ messages, P m

/-- Every open connection is registered under its own name. -/
def Session.NamesConnections (s : Session σ) : Prop :=
  ∀ entry ∈ s.connections, entry.2.name = entry.1

namespace Session.SendsSome

variable {P : Message → Prop} {s t u : Session σ}

theorem after (h : s.messages <+: t.messages) (h' : t.SendsSome P u) : s.SendsSome P u := by
  obtain ⟨earlier, hearlier⟩ := h
  obtain ⟨messages, hu, m, hm, hP⟩ := h'
  exact ⟨earlier ++ messages, by rw [hu, ← hearlier, List.append_assoc], m,
    List.mem_append_right earlier hm, hP⟩

theorem before (h : s.SendsSome P t) (h' : t.messages <+: u.messages) : s.SendsSome P u := by
  obtain ⟨messages, ht, m, hm, hP⟩ := h
  obtain ⟨later, hlater⟩ := h'
  exact ⟨messages ++ later, by rw [← hlater, ht, List.append_assoc], m,
    List.mem_append_left later hm, hP⟩

end Session.SendsSome

namespace Action

variable {d : Driver σ} {P : Message → Prop}

/-! ## The names of connections -/

theorem namesConnections_counted {connections : Entries Connection} {name : String} {failed : Bool}
    (h : ∀ entry ∈ connections, entry.2.name = entry.1) :
    ∀ entry ∈ counted connections name failed, entry.2.name = entry.1 := by
  intro entry hentry
  obtain ⟨⟨key, c⟩, hmem, rfl⟩ := List.mem_map.1 hentry
  dsimp only
  split
  · exact h _ hmem
  · exact h _ hmem

/-- No operation registers a connection under another name. -/
theorem remembering_names (d : Driver σ) :
    Remembering d fun s t => s.NamesConnections → t.NamesConnections where
  refl _ h := h
  trans hst htu h := htu (hst h)
  connect name config s h := by
    unfold connect
    dsimp only
    split
    · intro entry hentry
      rcases Entries.mem_put hentry with hold | rfl
      · exact h entry hold
      · rfl
    · exact h
  schema _ _ h := h
  note _ _ h := h
  fetch c sql values s h := by
    unfold send
    dsimp only
    split <;> exact namesConnections_counted h
  execute c sql values s h := by
    unfold send
    dsimp only
    split <;> exact namesConnections_counted h
  ask _ _ h := h
  remember _ _ h := h
  forget _ _ h := h

theorem name_of_connection {name : String} {s t : Session σ} {c : Connection}
    (hs : s.NamesConnections) (h : connection d name s = .ok c t) : c.name = name := by
  obtain ⟨_, _, hget, h⟩ := bind_eq_ok.1 h
  cases hget
  cases hknown : Entries.get? s.connections name with
  | some known =>
    rw [hknown] at h
    obtain ⟨rfl, -⟩ := pure_eq_ok.1 h
    exact hs _ (Entries.mem_of_get? hknown)
  | none =>
    rw [hknown] at h
    obtain ⟨config, u, -, hconnect⟩ := bind_eq_ok.1 h
    unfold connect at hconnect
    dsimp only at hconnect
    split at hconnect <;> cases hconnect
    rfl

/-! ## What is sent -/

theorem chained_sendsAll (P : Message → Prop) :
    Chained (Session.SendsAll P : Session σ → Session σ → Prop) :=
  chained_gains Session.messages P

theorem quiet_messages (d : Driver σ) : Quiet d fun s t => t.messages = s.messages where
  refl s := rfl
  trans h h' := h'.trans h
  connect name config s := by
    unfold connect
    dsimp only
    split <;> simp [final, Session.messages, Call.message?]
  schema key s := rfl
  note s notice := rfl

theorem quiet_sendsAll (d : Driver σ) (P : Message → Prop) : Quiet d (Session.SendsAll P) where
  toChained := chained_sendsAll P
  connect name config s := gains_of_eq ((quiet_messages d).connect name config s)
  schema _ _ := gains_of_eq rfl
  note _ _ := gains_of_eq rfl

theorem messages_send (c : Connection) (sql : String) (values : List Value)
    (body : EStateM Error σ α) (s : Session σ) :
    (final (send c sql values body s)).messages =
      s.messages ++ [⟨c.name, c.dialect, sql, values⟩] := by
  unfold send
  dsimp only
  split <;> simp [final, Session.messages, Call.message?]

theorem messages_sent {c : Connection} {sql : String} {values : List Value}
    {body : String → List Value → EStateM Error σ α} {a : α} {s t : Session σ}
    (h : (do
      let (text, params) ← check (positional c.dialect sql values)
      send c text params (body text params)) s = .ok a t) : ∃ text params,
    positional c.dialect sql values = .ok (text, params) ∧
      t.messages = s.messages ++ [⟨c.name, c.dialect, text, params⟩] := by
  obtain ⟨⟨text, params⟩, u, hsent, hsend⟩ := bind_eq_ok.1 h
  obtain ⟨hpositional, rfl⟩ := check_eq_ok.1 hsent
  have hmessages := messages_send c text params (body text params) u
  dsimp only at hsend
  rw [hsend] at hmessages
  exact ⟨text, params, hpositional, hmessages⟩

/-- No operation takes a sent statement back. -/
theorem remembering_messages (d : Driver σ) :
    Remembering d fun s t => s.messages <+: t.messages where
  refl _ := List.prefix_rfl
  trans hst htu := hst.trans htu
  connect name config s :=
    ⟨[], (List.append_nil _).trans ((quiet_messages d).connect name config s).symm⟩
  schema _ _ := List.prefix_rfl
  note _ _ := List.prefix_rfl
  fetch c sql values s := ⟨_, (messages_send c sql values _ s).symm⟩
  execute c sql values s := ⟨_, (messages_send c sql values _ s).symm⟩
  ask _ _ := List.prefix_rfl
  remember _ _ := List.prefix_rfl
  forget _ _ := List.prefix_rfl

theorem messages_rows {q : Query} {s t : Session σ} {found : List Row}
    (h : rows d q s = .ok found t) : ∃ m, t.messages = s.messages ++ [m] := by
  obtain ⟨c, u, hc, hrest⟩ := bind_eq_ok.1 h
  obtain ⟨statement, v, hstatement, hfetch⟩ := bind_eq_ok.1 hrest
  obtain ⟨-, rfl⟩ := check_eq_ok.1 hstatement
  obtain ⟨text, params, -, hmessages⟩ := messages_sent hfetch
  have hquiet : v.messages = s.messages := ((quiet_messages d).connection _).of_ok hc
  exact ⟨_, hmessages.trans (by rw [hquiet])⟩

theorem sendsAll_send (c : Connection) {sql : String} {values : List Value}
    (body : EStateM Error σ α) (hP : P ⟨c.name, c.dialect, sql, values⟩) :
    Keeps (Session.SendsAll P) (send c sql values body) :=
  fun s => ⟨_, messages_send c sql values body s, by simpa using hP⟩

theorem sendsAll_fetch (d : Driver σ) (c : Connection) {sql : String} {values : List Value}
    (hP : ∀ {text params}, positional c.dialect sql values = .ok (text, params) →
      P ⟨c.name, c.dialect, text, params⟩) :
    Keeps (Session.SendsAll P) (fetch d c sql values) :=
  keeps_check_seq (chained_sendsAll P) fun (_, _) hsent => sendsAll_send c _ (hP hsent)

theorem sendsAll_execute (d : Driver σ) (c : Connection) {sql : String} {values : List Value}
    (hP : ∀ {text params}, positional c.dialect sql values = .ok (text, params) →
      P ⟨c.name, c.dialect, text, params⟩) :
    Keeps (Session.SendsAll P) (execute d c sql values) :=
  keeps_check_seq (chained_sendsAll P) fun (_, _) hsent => sendsAll_send c _ (hP hsent)

theorem sendsAll_rows {q : Query} {s : Session σ} (hs : s.NamesConnections)
    (hP : ∀ {dialect statement text params}, Statement.ofQuery dialect q = .ok statement →
      statement.toPositional dialect = .ok (text, params) →
        P ⟨q.connectionName, dialect, text, params⟩) :
    Session.SendsAll P s (final (rows d q s)) := by
  have hR := chained_sendsAll (σ := σ) P
  refine hR.bind ((quiet_sendsAll d P).connection _ s) fun c t hc => ?_
  refine keeps_check_seq hR (fun statement hstatement => sendsAll_fetch d c fun hsent => ?_) t
  rw [name_of_connection hs hc]
  exact hP hstatement hsent

end Action

end RowMapper
