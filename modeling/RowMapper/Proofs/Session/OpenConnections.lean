import RowMapper.Proofs.Record.Requirements
import RowMapper.Proofs.Session.Runs
import Mathlib.Data.List.Perm.Basic
import Mathlib.Data.List.Nodup

/-! # Opened and closed connections

Every physical connection has a number of its own, and the journal tells which were opened
and which were asked to close. A run of the registry's calls keeps books: what was opened
is what is registered, what was closed and what was given up, and nothing is in two of
these. Connections are given up only when all are closed at once and one that is not drained
last fails to close: those behind it are registered no longer and are never asked to close.
The order in which connections are drained decides which ones are lost, so it is left open:
each time that all are closed it may be another one.
-/

namespace RowMapper

open Run

variable {σ : Type}

/-! ## The registry's calls -/

def Call.opened? : Call → Option Nat
  | connect _ serial true => some serial
  | _ => none

def Call.closed? : Call → Option Nat
  | close _ serial => some serial
  | _ => none

inductive Session.Use where
  | connection (name : String)
  | close (name : String)
  | closeAll (order : DrainOrder)

def Session.Use.after (d : Driver σ) : Use → Session σ → Session σ
  | connection name, s => final (Action.connection d name s)
  | close name, s => final (Action.close d name s)
  | closeAll order, s => final (Action.closeAll d order s)

namespace Session

def afterUses (d : Driver σ) (uses : List Use) (s : Session σ) : Session σ :=
  uses.foldl (fun s use => use.after d s) s

def registered (s : Session σ) : List Nat := s.connections.map fun entry => entry.2.serial

def opened (s : Session σ) : List Nat := s.calls.filterMap Call.opened?

/-- The numbers of the connections that were asked to close, once for each time. -/
def closed (s : Session σ) : List Nat := s.calls.filterMap Call.closed?

/-- Every connection that was opened is either registered or was asked to close just once. -/
def Accounted (s : Session σ) : Prop :=
  ∀ serial ∈ s.opened, serial ∈ s.registered ∧ serial ∉ s.closed ∨
    serial ∉ s.registered ∧ s.closed.count serial = 1

instance (s : Session σ) : Decidable s.Accounted :=
  inferInstanceAs (Decidable (∀ serial ∈ s.opened, _))

end Session

namespace Action

variable {d : Driver σ}

/-! ## What a use does -/

theorem final_usableConfig (name : String) (s : Session σ) :
    final (usableConfig name s) = s := by
  have hR : Chained fun s t : Session σ => t = s := ⟨fun _ => rfl, fun h h' => h'.trans h⟩
  have hkeeps : Keeps (fun s t : Session σ => t = s) (usableConfig name) := by
    apply hR.seq hR.read
    intro u
    apply hR.seq (keeps_check hR _)
    intro config
    apply hR.seq (keeps_check hR _)
    intro _
    split
    · exact hR.result _
    · exact hR.fail _
  exact hkeeps s

/-- Asking for a connection does nothing, or the driver is asked to open one for a name that has
none, and it is registered if it was opened. -/
theorem connection_cases (d : Driver σ) (name : String) (s : Session σ) :
    final (connection d name s) = s ∨ Entries.get? s.connections name = none ∧
      ∃ opened servers connections, final (connection d name s) =
        { s with
          servers
          connections
          nextSerial := s.nextSerial + 1
          calls := s.calls ++ [.connect name s.nextSerial opened] } ∧
        if opened then ∃ c : Connection, c.serial = s.nextSerial ∧
          connections = Entries.put s.connections name c
        else connections = s.connections := by
  cases hget : Entries.get? s.connections name with
  | some c =>
    rw [connection_of_registered hget]
    exact .inl rfl
  | none =>
    have hsame := final_usableConfig name s
    rw [connection_of_unregistered hget]
    cases hconfig : usableConfig name s with
    | error e t =>
      rw [hconfig] at hsame
      rw [bind_of_error hconfig]
      exact .inl hsame
    | ok config t =>
      rw [hconfig] at hsame
      obtain rfl : t = s := hsame
      rw [bind_of_ok hconfig]
      refine .inr ⟨rfl, ?_⟩
      unfold connect
      dsimp only
      split
      · exact ⟨true, _, _, rfl, ⟨_, rfl, rfl⟩⟩
      · exact ⟨false, _, _, rfl, rfl⟩

theorem final_closeOne (d : Driver σ) (c : Connection) (s : Session σ) : ∃ servers,
    final (closeOne d c s) = { s with servers, calls := s.calls ++ [.close c.name c.serial] } := by
  unfold closeOne
  dsimp only
  split <;> exact ⟨_, rfl⟩

theorem close_of_unregistered {name : String} {s : Session σ}
    (h : Entries.get? s.connections name = none) : close d name s = .ok false s := by
  refine (bind_of_ok (x := get) rfl _).trans ?_
  rw [h]
  rfl

theorem close_of_registered {name : String} {s : Session σ} {c : Connection}
    (h : Entries.get? s.connections name = some c) : close d name s =
      (closeOne d c >>= fun _ => pure true) { s with connections := s.connections.erase name } := by
  refine (bind_of_ok (x := get) rfl _).trans ?_
  rw [h]
  rfl

/-- Closing a name does nothing when it has no connection, and else asks its connection to close and
forgets it, whatever comes of it. -/
theorem close_cases (d : Driver σ) (name : String) (s : Session σ) :
    final (close d name s) = s ∨ ∃ c servers, Entries.get? s.connections name = some c ∧
      final (close d name s) =
        { s with
          servers
          connections := s.connections.erase name
          calls := s.calls ++ [.close c.name c.serial] } := by
  cases hget : Entries.get? s.connections name with
  | none =>
    rw [close_of_unregistered hget]
    exact .inl rfl
  | some c =>
    obtain ⟨servers, hclose⟩ :=
      final_closeOne d c { s with connections := s.connections.erase name }
    refine .inr ⟨c, servers, rfl, ?_⟩
    rw [close_of_registered hget, ← hclose]
    exact final_bind_pure (closeOne d c) (fun _ => true) _

/-- The connections that are not asked to close since one before them fails to. -/
def givenUp (d : Driver σ) : List Connection → Session σ → List Connection
  | [], _ => []
  | c :: rest, s => match closeOne d c s with
    | .ok _ t => givenUp d rest t
    | .error _ _ => rest

theorem final_closeEach (d : Driver σ) (cs : List Connection) (s : Session σ) :
    ∃ asked servers, asked ++ givenUp d cs s = cs ∧ final (closeEach d cs s) =
      { s with servers, calls := s.calls ++ asked.map fun c => .close c.name c.serial } := by
  induction cs generalizing s with
  | nil => exact ⟨[], s.servers, rfl, by simp [closeEach, final, pure, EStateM.pure]⟩
  | cons c rest ih =>
    obtain ⟨servers, hone⟩ := final_closeOne d c s
    rw [givenUp, closeEach]
    cases hclose : closeOne d c s with
    | error e t =>
      rw [hclose] at hone
      rw [bind_of_error hclose]
      exact ⟨[c], servers, rfl, hone⟩
    | ok _ t =>
      rw [hclose] at hone
      obtain rfl : t = _ := hone
      rw [bind_of_ok hclose]
      obtain ⟨asked, servers', hasked, hrest⟩ := ih _
      refine ⟨c :: asked, servers', congrArg (c :: ·) hasked, ?_⟩
      rw [hrest]
      simp

/-- Closing all asks the connections to close as they are drained, but those that are given up, and
forgets all of them. -/
theorem closeAll_cases (d : Driver σ) (order : DrainOrder) (s : Session σ) : ∃ asked servers,
    asked ++ givenUp d (s.drained order) { s with connections := [] } = s.drained order ∧
    final (closeAll d order s) =
      { s with
        servers
        connections := []
        calls := s.calls ++ asked.map fun c => .close c.name c.serial } :=
  final_closeEach d (s.drained order) { s with connections := [] }

/-- Nothing is given up when all connections but the last one close. -/
theorem givenUp_eq_nil_iff (d : Driver σ) (cs : List Connection) (s : Session σ) :
    givenUp d cs s = [] ↔ ∃ t, closeEach d cs.dropLast s = .ok () t := by
  induction cs generalizing s with
  | nil => exact iff_of_true rfl ⟨s, rfl⟩
  | cons c rest ih =>
    cases rest with
    | nil =>
      refine iff_of_true ?_ ⟨s, rfl⟩
      rw [givenUp]
      split <;> rfl
    | cons c' rest =>
      rw [givenUp, List.dropLast_cons_cons, closeEach]
      cases hclose : closeOne d c s with
      | error e t =>
        rw [bind_of_error hclose]
        exact iff_of_false (by simp) (by simp)
      | ok _ t =>
        rw [bind_of_ok hclose]
        exact ih t

end Action

/-! ## Entries that come and go -/

namespace Entries

variable {α : Type} {m : Entries α} {key : String} {value : α}

/-- Under distinct names the entry of a name is the one that is taken out. -/
theorem perm_erase (hm : m.names.Nodup) (h : m.get? key = some value) :
    m.Perm ((key, value) :: m.erase key) := by
  induction m with
  | nil => cases h
  | cons entry rest ih =>
    obtain ⟨k, v⟩ := entry
    rw [names, List.map_cons, List.nodup_cons] at hm
    rw [get?_cons] at h
    split at h
    · next hk =>
      subst hk
      obtain rfl : v = value := Option.some.inj h
      have hsame : Entries.erase ((k, v) :: rest) k = rest := by
        rw [erase, List.filter_cons_of_neg (by simp), List.filter_eq_self]
        intro entry hentry
        have hne : entry.1 ≠ k := fun heq => hm.1 (heq ▸ List.mem_map.2 ⟨entry, hentry, rfl⟩)
        simpa using hne
      rw [hsame]
    · next hk =>
      have hcons : Entries.erase ((k, v) :: rest) key = (k, v) :: Entries.erase rest key :=
        List.filter_cons_of_pos (by simpa using hk)
      rw [hcons]
      exact ((ih hm.2 h).cons (k, v)).trans (.swap _ _ _)

end Entries

/-! ## The books -/

namespace Session

/-- The books of a session: every connection that was opened is registered, was closed or was given
up, and just one of these. -/
structure Books (s : Session σ) (givenUp : List Nat) : Prop where
  names : s.connections.names.Nodup
  fresh : ∀ serial ∈ s.opened, serial < s.nextSerial
  distinct : s.opened.Nodup
  balance : (s.registered ++ s.closed ++ givenUp).Perm s.opened

def Use.givenUp (d : Driver σ) : Use → Session σ → List Nat
  | closeAll order, s =>
    (Action.givenUp d (s.drained order) { s with connections := [] }).map Connection.serial
  | _, _ => []

variable {d : Driver σ} {s : Session σ} {lost : List Nat} {order : DrainOrder}

/-- Whatever the order, the connections that are drained are the registered ones. -/
theorem drained_perm (s : Session σ) (order : DrainOrder) :
    ((s.drained order).map Connection.serial).Perm s.registered := by
  have hperm := (order.perm (s.connections.map Prod.snd)).map Connection.serial
  rwa [List.map_map] at hperm

/-- Books go on when the new connections have new numbers and no connection that was registered is
forgotten without being closed or given up. -/
theorem Books.next {t : Session σ} {more : List Nat} (h : s.Books lost) (new : List Nat)
    (hnames : t.connections.names.Nodup) (hopened : t.opened = s.opened ++ new)
    (hnew : ∀ serial ∈ new, s.nextSerial ≤ serial ∧ serial < t.nextSerial) (hdistinct : new.Nodup)
    (hserial : s.nextSerial ≤ t.nextSerial)
    (hbalance : (t.registered ++ t.closed ++ more).Perm (s.registered ++ s.closed ++ new)) :
    t.Books (lost ++ more) where
  names := hnames
  fresh serial hmem := by
    rw [hopened] at hmem
    rcases List.mem_append.1 hmem with hold | hadded
    · exact Nat.lt_of_lt_of_le (h.fresh serial hold) hserial
    · exact (hnew serial hadded).2
  distinct := by
    rw [hopened]
    refine List.nodup_append.2 ⟨h.distinct, hdistinct, fun a ha b hb heq => ?_⟩
    have hlt := h.fresh a ha
    have hle := (hnew b hb).1
    omega
  balance := by
    rw [List.perm_iff_count]
    intro serial
    have hbefore := h.balance.count_eq serial
    have hafter := hbalance.count_eq serial
    rw [hopened]
    simp only [List.count_append] at hbefore hafter ⊢
    omega

theorem Books.connection (h : s.Books lost) (name : String) :
    (final (Action.connection d name s)).Books (lost ++ []) := by
  rcases Action.connection_cases d name s with hsame | ⟨hnone, opened, servers, connections, ht, hc⟩
  · rwa [hsame, List.append_nil]
  · rw [ht]
    cases opened with
    | false =>
      obtain rfl : connections = s.connections := hc
      refine h.next [] h.names ?_ nofun List.nodup_nil (Nat.le_succ _) ?_
      · simp [Session.opened, Call.opened?]
      · simp [Session.closed, Session.registered, List.filterMap_cons, Call.closed?]
    | true =>
      obtain ⟨c, hserial, rfl⟩ : ∃ c : Connection, c.serial = s.nextSerial ∧
        connections = Entries.put s.connections name c := hc
      refine h.next [s.nextSerial]
        (Entries.nodup_put h.names name c) ?_ ?_ (List.nodup_singleton _)
        (Nat.le_succ _) ?_
      · simp [Session.opened, Call.opened?]
      · exact List.forall_mem_singleton.2 ⟨Nat.le_refl _, Nat.lt_succ_self _⟩
      · rw [List.perm_iff_count]
        intro serial
        simp only [registered, closed, Entries.put_of_none hnone, List.map_append, List.map_cons,
          List.map_nil, hserial, List.filterMap_append, List.filterMap_cons, Call.closed?,
          List.filterMap_nil, List.count_append, List.append_nil]
        omega

theorem Books.close (h : s.Books lost) (name : String) :
    (final (Action.close d name s)).Books (lost ++ []) := by
  rcases Action.close_cases d name s with hsame | ⟨c, servers, hget, ht⟩
  · rwa [hsame, List.append_nil]
  · rw [ht]
    have hperm := (Entries.perm_erase h.names hget).map fun entry => entry.2.serial
    refine h.next [] (h.names.sublist (List.filter_sublist.map _)) ?_ nofun List.nodup_nil
      (Nat.le_refl _) ?_
    · simp [Session.opened, Call.opened?]
    · rw [List.perm_iff_count]
      intro serial
      have hcount := hperm.count_eq serial
      simp only [registered, closed, List.map_cons, List.count_cons, List.filterMap_append,
        List.filterMap_cons, Call.closed?, List.filterMap_nil, List.count_append, List.append_nil,
        List.count_nil] at hcount ⊢
      omega

theorem closeAll_serials (d : Driver σ) (order : DrainOrder) (s : Session σ) : ∃ asked,
    (asked ++ (Use.closeAll order).givenUp d s).Perm s.registered ∧
    ((Use.closeAll order).after d s).closed = s.closed ++ asked ∧
    ((Use.closeAll order).after d s).opened = s.opened ∧
    ((Use.closeAll order).after d s).connections = [] ∧
    ((Use.closeAll order).after d s).nextSerial = s.nextSerial := by
  obtain ⟨asked, servers, hasked, ht⟩ := Action.closeAll_cases d order s
  refine ⟨asked.map Connection.serial, ?_, ?_, ?_, ?_, ?_⟩
  · rw [Use.givenUp, ← List.map_append, hasked]
    exact drained_perm s order
  · have hclosed : (asked.map fun c => Call.close c.name c.serial).filterMap Call.closed? =
        asked.map Connection.serial := by
      rw [List.filterMap_map]
      exact congrFun List.filterMap_eq_map' asked
    rw [Use.after, ht, closed, List.filterMap_append, hclosed]
    rfl
  all_goals rw [Use.after, ht]
  simp [opened, Call.opened?]

/-- What closing all connections does to the books: those that it does not ask to close are given
up. -/
theorem Books.closeAll (h : s.Books lost) (order : DrainOrder) :
    ((Use.closeAll order).after d s).Books (lost ++ (Use.closeAll order).givenUp d s) := by
  obtain ⟨asked, hregistered, hclosed, hopened, hconnections, hserial⟩ := closeAll_serials d order s
  refine h.next [] (hconnections ▸ List.nodup_nil) (by rw [hopened, List.append_nil])
    nofun List.nodup_nil (Nat.le_of_eq hserial.symm) ?_
  have hnone : ((Use.closeAll order).after d s).registered = [] := by
    rw [registered, hconnections, List.map_nil]
  rw [hnone, hclosed, List.perm_iff_count]
  intro serial
  have hcount := hregistered.count_eq serial
  simp only [List.nil_append, List.append_nil, List.count_append] at hcount ⊢
  omega

/-- The step: a use keeps the books, with what it gives up. -/
theorem Books.after (h : s.Books lost) (use : Use) :
    (use.after d s).Books (lost ++ use.givenUp d s) := by
  cases use with
  | connection name => exact h.connection name
  | close name => exact h.close name
  | closeAll order => exact h.closeAll order

def givenUp (d : Driver σ) (uses : List Use) (s : Session σ) : List Nat :=
  (visited (Use.after d) uses s).flatMap fun (t, use) => use.givenUp d t

/-- The run: uses keep the books, with all that they give up. -/
theorem Books.afterUses (h : s.Books lost) (uses : List Use) :
    (afterUses d uses s).Books (lost ++ givenUp d uses s) := by
  induction uses generalizing s lost with
  | nil => simpa [Session.afterUses, Session.givenUp, visited] using h
  | cons use rest ih =>
    have hrest := ih (h.after (d := d) use)
    rwa [List.append_assoc] at hrest

theorem Books.fresh_session (hconnections : s.connections = []) (hcalls : s.calls = []) :
    s.Books [] where
  names := by rw [hconnections]; exact List.nodup_nil
  fresh := by simp [opened, hcalls]
  distinct := by simp [opened, hcalls]
  balance := by simp [opened, closed, registered, hconnections, hcalls]

/-- By the books, a connection that was opened is found in one place. -/
theorem Books.count_eq_one (h : s.Books lost) {serial : Nat} (hopened : serial ∈ s.opened) :
    s.registered.count serial + s.closed.count serial + lost.count serial = 1 := by
  rw [← List.count_append, ← List.count_append, h.balance.count_eq]
  exact List.count_eq_one_of_mem h.distinct hopened

/-- By the books, all connections are accounted for when none was given up. -/
theorem Books.accounted_iff_eq_nil (h : s.Books lost) : s.Accounted ↔ lost = [] := by
  constructor
  · intro haccounted
    refine List.eq_nil_iff_forall_not_mem.2 fun serial hlost => ?_
    have hopened : serial ∈ s.opened := h.balance.subset (List.mem_append_right _ hlost)
    have hone := h.count_eq_one hopened
    have hpos := List.count_pos_iff.2 hlost
    rcases haccounted serial hopened with ⟨hregistered, -⟩ | ⟨-, hclosed⟩
    · have := List.count_pos_iff.2 hregistered
      omega
    · omega
  · rintro rfl serial hopened
    have hone := h.count_eq_one hopened
    rw [← List.count_pos_iff, ← List.count_pos_iff]
    rw [List.count_nil] at hone
    omega

/-! ## All runs -/

/-- All registered connections but the last one close when asked as they are drained. -/
def ClosesInTurn (d : Driver σ) (order : DrainOrder) (s : Session σ) : Prop :=
  ∃ t, Action.closeEach d (s.drained order).dropLast { s with connections := [] } = .ok () t

theorem givenUp_closeAll_eq_nil_iff (d : Driver σ) (order : DrainOrder) (s : Session σ) :
    (Use.closeAll order).givenUp d s = [] ↔ ClosesInTurn d order s :=
  List.map_eq_nil_iff.trans (Action.givenUp_eq_nil_iff d _ _)

/-- By the books, closing all closes every registered connection when it gives up none. -/
theorem Books.closes_registered_iff (h : s.Books lost) :
    s.registered ⊆ ((Use.closeAll order).after d s).closed ↔ ClosesInTurn d order s := by
  obtain ⟨asked, hregistered, hclosed, -⟩ := closeAll_serials d order s
  rw [← givenUp_closeAll_eq_nil_iff, hclosed]
  constructor
  · intro hall
    refine List.eq_nil_iff_forall_not_mem.2 fun serial hgiven => ?_
    have hmem : serial ∈ s.registered := hregistered.subset (List.mem_append_right _ hgiven)
    have hopened : serial ∈ s.opened :=
      h.balance.subset (List.mem_append_left _ (List.mem_append_left _ hmem))
    have hone := h.count_eq_one hopened
    have hpos := List.count_pos_iff.2 (hall hmem)
    have hgivenPos := List.count_pos_iff.2 hgiven
    rw [← hregistered.count_eq, List.count_append] at hone
    rw [List.count_append] at hpos
    omega
  · intro hnone
    rw [hnone, List.append_nil] at hregistered
    exact fun serial hmem => List.mem_append_right _ (hregistered.symm.subset hmem)

/-- A use asks the driver to connect only under a name that has no connection. -/
theorem connects_unregistered (d : Driver σ) (use : Use) (s : Session σ) :
    ∃ new, (use.after d s).calls = s.calls ++ new ∧ ∀ name serial opened,
      Call.connect name serial opened ∈ new → Entries.get? s.connections name = none := by
  cases use with
  | connection name =>
    rcases Action.connection_cases d name s with hsame | ⟨hnone, opened, _, _, ht, -⟩
    · exact ⟨[], by rw [Use.after, hsame, List.append_nil], nofun⟩
    · refine ⟨[.connect name s.nextSerial opened], congrArg calls ht, fun _ _ _ hmem => ?_⟩
      cases List.mem_singleton.1 hmem
      exact hnone
  | close name =>
    rcases Action.close_cases d name s with hsame | ⟨c, _, -, ht⟩
    · exact ⟨[], by rw [Use.after, hsame, List.append_nil], nofun⟩
    · exact ⟨[.close c.name c.serial], congrArg calls ht, by simp⟩
  | closeAll order =>
    obtain ⟨asked, _, -, ht⟩ := Action.closeAll_cases d order s
    exact ⟨asked.map fun c => .close c.name c.serial, by rw [Use.after, ht], by simp⟩

/-- Connections are asked for and closed one after another, from a session on in which none was
opened. At all times each name has at most one connection, and the driver is asked to connect only
under a name that has none. Closing all, in whatever order, asks every registered connection to close
just when each but the one that is drained last closes: a failure ends it, and the connections behind
it are registered no longer and are never closed. With that all connections that were opened are
accounted for just when no use that closes all met such a failure. -/
theorem accounted_iff (d : Driver σ) (uses : List Use) {s : Session σ}
    (hconnections : s.connections = []) (hcalls : s.calls = []) :
    (∀ t ∈ states (Use.after d) uses s, t.connections.names.Nodup) ∧
    (∀ t use, (t, use) ∈ visited (Use.after d) uses s →
      ∃ new, (use.after d t).calls = t.calls ++ new ∧ ∀ name serial opened,
        Call.connect name serial opened ∈ new → Entries.get? t.connections name = none) ∧
    (∀ t order, (t, Use.closeAll order) ∈ visited (Use.after d) uses s →
      (t.registered ⊆ ((Use.closeAll order).after d t).closed ↔ ClosesInTurn d order t)) ∧
    ((afterUses d uses s).Accounted ↔
      ∀ t order, (t, Use.closeAll order) ∈ visited (Use.after d) uses s →
        ClosesInTurn d order t) := by
  have hbooks := Books.fresh_session hconnections hcalls
  have hstates := forall_mem_states (P := fun t => ∃ lost, Books t lost) ⟨[], hbooks⟩
    fun t use (_ : (t, use) ∈ visited (Use.after d) uses s) ⟨lost, ht⟩ => ⟨_, ht.after use⟩
  refine ⟨?_, ?_, ?_, ?_⟩
  · intro t ht
    obtain ⟨lost, hlost⟩ := hstates t ht
    exact hlost.names
  · exact fun t use _ => connects_unregistered d use t
  · intro t order ht
    obtain ⟨lost, hlost⟩ := hstates t (mem_states_of_visited ht)
    exact hlost.closes_registered_iff
  · rw [(hbooks.afterUses uses).accounted_iff_eq_nil, List.nil_append, givenUp,
      List.flatMap_eq_nil_iff]
    constructor
    · exact fun hnone t order ht => (givenUp_closeAll_eq_nil_iff d order t).1 (hnone _ ht)
    · rintro hcloses ⟨t, use⟩ ht
      cases use with
      | connection name => rfl
      | close name => rfl
      | closeAll order => exact (givenUp_closeAll_eq_nil_iff d order t).2 (hcloses t order ht)

/-- A driver whose connections open and then fail to close. -/
def jammedDriver : Driver Unit where
  connect _ _ := pure ()
  close _ _ := throw (.queryFailed "08006" "connection failure")
  fetch _ _ _ _ := pure []
  execute _ _ _ _ := pure { affected := 0 }

def twoConfigured : Session Unit where
  config := [("first", .new .postgres "a"), ("second", .new .postgres "b")]
  served := [.postgres]
  servers := ()
  schemas := { declared := fun _ => .new "" "" }
  now := .atMidnight .epoch

/-- A connection that fails to close is forgotten and opened anew; closing it as the only one loses
no other. -/
theorem reopened_accounted : twoConfigured.connections = [] ∧ twoConfigured.calls = [] ∧
    (afterUses jammedDriver
      [.connection "first", .close "first", .connection "first", .closeAll .asRegistered]
      twoConfigured).Accounted := by
  refine ⟨rfl, rfl, (accounted_iff jammedDriver _ rfl rfl).2.2.2.2 fun t order ht => ?_⟩
  simp only [visited, List.mem_cons, Prod.mk.injEq, reduceCtorEq, and_false, Use.closeAll.injEq,
    false_or, List.not_mem_nil, or_false] at ht
  obtain ⟨rfl, rfl⟩ := ht
  exact ⟨_, rfl⟩

def lastFirst : DrainOrder := ⟨List.reverse, List.reverse_perm⟩

/-- Of two connections the one that is drained first fails to close, and the other one is registered
no longer and was never asked to close, in either order. -/
theorem twoConnections_not_accounted :
    ¬ (afterUses jammedDriver
      [.connection "first", .connection "second", .closeAll .asRegistered]
      twoConfigured).Accounted ∧
    ¬ (afterUses jammedDriver
      [.connection "first", .connection "second", .closeAll lastFirst]
      twoConfigured).Accounted := by
  decide +kernel

end Session

end RowMapper
