import RowMapper.Proofs.Session.Runs
import RowMapper.Proofs.Statement.Updates
import RowMapper.Proofs.Statement.Windows

/-! # Walks in batches

A walk asks for one page after another, each as a window of its own in the place of the
window that the query has. Where the driver answers windows from one sequence of rows, the
batches are the consecutive pieces of that sequence: none is empty or longer than a page,
and without a stop they cover it as far as the start of a page can be told. So a walk goes
through the rows of the query exactly when the query's own window hides none of them.
-/

namespace RowMapper

open Run Query

variable {σ : Type}

/-- A driver answers a query, and the query with any limit and offset, by the rows of the window in
one sequence of rows. -/
def Driver.AnswersWindows (d : Driver σ) (q : Query) (found : List Row) : Prop :=
  ∀ (serial : Nat) (config : ConnectionConfig) (servers : σ) (limit offset : Option Nat)
    (st : Sql.Statement) (sql : String) (values : List Value),
    (limit = q.limit ∧ offset = q.offset ∨ limit.isSome ∧ offset.isSome) →
    Sql.Statement.ofQuery config.adapter (q.windowed limit offset) = .ok st →
    st.toPositional config.adapter = .ok (sql, values) →
    ∃ servers', d.fetch serial config sql values servers =
      .ok (windowRows config.adapter limit offset found) servers'

namespace Action

variable {d : Driver σ} {q : Query} {found : List Row}

/-! ## Connections that stay open -/

def Reaches (d : Driver σ) (name : String) (dialect : Dialect) (s : Session σ) : Prop :=
  ∃ c t, connection d name s = .ok c t ∧ c.dialect = dialect

theorem reaches_send {name : String} {s t : Session σ} {c other : Connection} {sql : String}
    {values : List Value} {α : Type} {body : EStateM Error σ α} {a : α}
    (h : Entries.get? s.connections name = some c)
    (hsend : send other sql values body s = .ok a t) : Reaches d name c.dialect t := by
  have hconnections : t.connections = counted s.connections other.name false := by
    unfold send at hsend
    dsimp only at hsend
    split at hsend <;> cases hsend
    rfl
  have hget := get?_counted s.connections other.name name false
  rw [← hconnections, h, Option.map_some] at hget
  refine ⟨_, t, connection_of_registered hget, ?_⟩
  split <;> rfl

/-! ## Rows of windows -/

def Sendable (q : Query) (dialect : Dialect) : Prop :=
  ∃ st sent, Sql.Statement.ofQuery dialect q = .ok st ∧ st.toPositional dialect = .ok sent

theorem reaches_of_rows {s t : Session σ} {result : List Row} (h : rows d q s = .ok result t) :
    ∃ dialect, Reaches d q.connectionName dialect s ∧ Sendable q dialect := by
  obtain ⟨c, u, st, sql, values, hconnection, hst, hsent, -⟩ := rows_eq_ok h
  exact ⟨c.dialect, ⟨c, u, hconnection, rfl⟩, st, (sql, values), hst, hsent⟩

variable {dialect : Dialect} {s : Session σ}

/-- A window of the query is answered, and the connection is reached again. -/
theorem rows_windowed (hd : d.AnswersWindows q found) (hs : Reaches d q.connectionName dialect s)
    (hq : Sendable q dialect) {limit offset : Option Nat}
    (hwindow : limit = q.limit ∧ offset = q.offset ∨ limit.isSome ∧ offset.isSome) :
    ∃ t, rows d (q.windowed limit offset) s = .ok (windowRows dialect limit offset found) t ∧
      Reaches d q.connectionName dialect t := by
  obtain ⟨c, u, hconnection, rfl⟩ := hs
  obtain ⟨st, sent, hst, hsent⟩ := hq
  obtain ⟨st', sent', hst', hsent'⟩ := toPositional_windowed hst hsent limit offset
  obtain ⟨servers, hfetch⟩ :=
    hd c.serial c.config u.servers limit offset st' sent'.1 sent'.2 hwindow hst' hsent'
  obtain ⟨t, hsend⟩ : ∃ t, send c sent'.1 sent'.2 (d.fetch c.serial c.config sent'.1 sent'.2) u =
      .ok (windowRows c.dialect limit offset found) t := by
    unfold send
    rw [hfetch]
    exact ⟨_, rfl⟩
  refine ⟨t, ?_, reaches_send (registered_of_connection hconnection) hsend⟩
  refine (bind_of_ok hconnection _).trans ?_
  refine (bind_of_ok (check_of_ok hst' u) _).trans ?_
  exact (bind_of_ok (check_of_ok hsent' u) _).trans hsend

theorem rows_page (hd : d.AnswersWindows q found) (hs : Reaches d q.connectionName dialect s)
    (hq : Sendable q dialect) {n size : Nat} (h : n * size ≤ maxSkipped.toNat) :
    ∃ t, rows d (q.page (n + 1 : Nat) size) s = .ok ((found.drop (n * size)).take size) t ∧
      Reaches d q.connectionName dialect t := by
  rw [page_eq_windowed q h]
  exact rows_windowed hd hs hq (.inr ⟨rfl, rfl⟩)

/-! ## The loop -/

/-- The number of rows on the pages of a size whose start can be told. -/
def reach (size : Nat) : Nat := (maxSkipped.toNat / size + 1) * size

/-- The page after one that starts within reach ends within reach. -/
theorem succ_mul_le_reach {n size : Nat} (hsize : 0 < size) (h : n * size ≤ maxSkipped.toNat) :
    (n + 1) * size ≤ reach size :=
  Nat.mul_le_mul_right size (Nat.succ_le_succ ((Nat.le_div_iff_mul_le hsize).2 h))

/-- The page after the last one starts where the reach ends. -/
theorem reach_le_of_lt {n size : Nat} (hsize : 0 < size) (h : maxSkipped.toNat < n * size) :
    reach size ≤ n * size := by
  have hn : maxSkipped.toNat / size < n := (Nat.div_lt_iff_lt_mul hsize).2 h
  exact Nat.mul_le_mul_right size hn

/-- Batches are pieces of a sequence, from its start on and in order; with nothing left out when
the walk is never stopped. -/
structure Covers (batches : List (List Row)) (size : Nat) (always : Prop) (rest : List Row) :
    Prop where
  sized : ∀ batch ∈ batches, batch ≠ [] ∧ batch.length ≤ size
  isPrefix : batches.flatten <+: rest
  all : always → batches.flatten = rest

theorem Covers.nil {size : Nat} {always : Prop} : Covers [] size always [] :=
  ⟨nofun, List.prefix_rfl, fun _ => rfl⟩

theorem Covers.last {batch rest : List Row} {size : Nat} {always : Prop} (hne : batch ≠ [])
    (hbatch : batch = rest.take size) (hall : always → rest.drop size = []) :
    Covers [batch] size always rest where
  sized := by
    rw [List.forall_mem_singleton, hbatch]
    exact ⟨hbatch ▸ hne, List.length_take_le _ _⟩
  isPrefix := by
    rw [List.flatten_singleton, hbatch]
    exact List.take_prefix _ _
  all h := by
    have hsplit := List.take_append_drop size rest
    rw [hall h, List.append_nil] at hsplit
    rw [List.flatten_singleton, hbatch, hsplit]

theorem Covers.cons {batch rest : List Row} {batches : List (List Row)} {size : Nat}
    {always : Prop} (hne : batch ≠ []) (hbatch : batch = rest.take size)
    (h : Covers batches size always (rest.drop size)) :
    Covers (batch :: batches) size always rest where
  sized := by
    refine List.forall_mem_cons.2 ⟨⟨hne, ?_⟩, h.sized⟩
    rw [hbatch]
    exact List.length_take_le _ _
  isPrefix := by
    have hprefix := (List.prefix_append_right_inj batch).2 h.isPrefix
    rw [List.flatten_cons]
    have hwhole : batch ++ rest.drop size = rest := by rw [hbatch, List.take_append_drop]
    rwa [hwhole] at hprefix
  all hall := by rw [List.flatten_cons, h.all hall, hbatch, List.take_append_drop]

/-- What a walk does at a page: it ends at an empty one, and else hands the batch out and goes on, or
stops as it is told to, or ends after a short batch or before a page whose start cannot be told. -/
theorem walkFrom_cases (goOn : List (List Row) → Except Error Bool) (seen : List (List Row))
    {size page : Nat} {batch : List Row} {s t : Session σ} (hsize : 0 < size)
    (hrows : rows d (q.page page size) s = .ok batch t) :
    (batch = [] ∧ walkFrom d q size goOn seen page s = .ok ⟨seen, .ok ()⟩ t) ∨ batch ≠ [] ∧
      ((goOn (seen ++ [batch]) ≠ .ok true ∧ ∃ outcome,
          walkFrom d q size goOn seen page s = .ok ⟨seen ++ [batch], outcome⟩ t) ∨
        (size ≤ batch.length ∧ page * size ≤ maxSkipped.toNat ∧
          walkFrom d q size goOn seen page s =
            walkFrom d q size goOn (seen ++ [batch]) (page + 1) t) ∨
        (batch.length < size ∧
          walkFrom d q size goOn seen page s = .ok ⟨seen ++ [batch], .ok ()⟩ t) ∨
        size ≤ batch.length ∧ maxSkipped.toNat < page * size ∧
          walkFrom d q size goOn seen page s =
            .ok ⟨seen ++ [batch], .error (pageOutOfRange (page + 1 : Nat) size)⟩ t) := by
  rw [walkFrom, hrows]
  dsimp only
  by_cases hempty : batch = []
  · subst hempty
    exact .inl ⟨rfl, rfl⟩
  rw [if_neg (by simpa using hempty)]
  refine .inr ⟨hempty, ?_⟩
  cases hgo : goOn (seen ++ [batch]) with
  | error e => exact .inl ⟨nofun, _, rfl⟩
  | ok more =>
    cases more with
    | false => exact .inl ⟨nofun, _, rfl⟩
    | true =>
      refine .inr ?_
      dsimp only
      split
      · next hmore => exact .inl ⟨hmore.1, hmore.2.2, rfl⟩
      · next hstop =>
        split
        · next hshort => exact .inr (.inl ⟨hshort, rfl⟩)
        · next hfull =>
          have hlong := Nat.le_of_not_lt hfull
          have hbeyond := Nat.lt_of_not_le fun hpage => hstop ⟨hlong, hsize, hpage⟩
          exact .inr (.inr ⟨hlong, hbeyond, rfl⟩)

/-- From a page on, the batches cover what is left within reach, and unless it is stopped the walk
ends well just when there is nothing beyond. -/
theorem walkFrom_covers (hd : d.AnswersWindows q found) (hq : Sendable q dialect) {size : Nat}
    (hsize : 0 < size) (goOn : List (List Row) → Except Error Bool) (n : Nat) :
    ∀ (seen : List (List Row)) (s : Session σ), n * size ≤ maxSkipped.toNat →
      Reaches d q.connectionName dialect s → ∃ batches outcome t,
        walkFrom d q size goOn seen (n + 1) s = .ok ⟨seen ++ batches, outcome⟩ t ∧
          Covers batches size (∀ seen, goOn seen = .ok true)
            ((found.take (reach size)).drop (n * size)) ∧
          ((∀ seen, goOn seen = .ok true) → (outcome = .ok () ↔ found.length < reach size)) := by
  -- the pages whose start can be told become fewer
  induction hleft : maxSkipped.toNat + 1 - n * size using Nat.strongRecOn generalizing n with
  | ind left ih =>
  intro seen s hn hs
  obtain ⟨t, hrows, ht⟩ := rows_page hd hs hq hn
  have hend := succ_mul_le_reach hsize hn
  have hnext : (n + 1) * size = n * size + size := by rw [Nat.add_mul, Nat.one_mul]
  have hpiece : (found.drop (n * size)).take size =
      ((found.take (reach size)).drop (n * size)).take size := by
    rw [List.drop_take, List.take_take, Nat.min_eq_left (by omega)]
  have hrest : ((found.take (reach size)).drop (n * size)).drop size =
      (found.take (reach size)).drop ((n + 1) * size) := by
    rw [List.drop_drop, hnext]
  have hlength : ((found.drop (n * size)).take size).length =
      min size (found.length - n * size) := by
    rw [List.length_take, List.length_drop]
  obtain ⟨hempty, hwalk⟩ | ⟨hne, ⟨hstop, outcome, hwalk⟩ | ⟨hfull, hpage, hwalk⟩ |
    ⟨hshort, hwalk⟩ | ⟨hfull, hbeyond, hwalk⟩⟩ := walkFrom_cases goOn seen hsize hrows
  · -- nothing is left at an empty page
    have hnone : (found.take (reach size)).drop (n * size) = [] := by
      rw [hempty, eq_comm, List.take_eq_nil_iff] at hpiece
      exact hpiece.resolve_left (by omega)
    refine ⟨[], _, t, by rw [hwalk, List.append_nil], hnone ▸ .nil, fun _ => iff_of_true rfl ?_⟩
    rw [hempty, List.length_nil] at hlength
    omega
  · exact ⟨_, outcome, t, hwalk, .last hne hpiece fun hall => absurd (hall _) hstop,
      fun hall => absurd (hall _) hstop⟩
  · have hless : maxSkipped.toNat + 1 - (n + 1) * size < left := by omega
    obtain ⟨batches, outcome, u, hgo, hcovers, hends⟩ :=
      ih _ hless (n + 1) rfl (seen ++ [(found.drop (n * size)).take size]) t hpage ht
    refine ⟨_ :: batches, outcome, u, ?_, .cons hne hpiece (hrest ▸ hcovers), hends⟩
    rw [hwalk, hgo, List.append_assoc]
    rfl
  · refine ⟨_, _, t, hwalk, .last hne hpiece fun _ => ?_, fun _ => iff_of_true rfl ?_⟩
    · rw [hrest]
      exact List.drop_eq_nil_of_le (Nat.le_trans (List.length_take_le' _ _) (by omega))
    · omega
  · have hlast := reach_le_of_lt hsize hbeyond
    refine ⟨_, _, t, hwalk, .last hne hpiece fun _ => ?_, fun _ => iff_of_false nofun ?_⟩
    · rw [hrest]
      exact List.drop_eq_nil_of_le (Nat.le_trans (List.length_take_le _ _) hlast)
    · omega

/-! ## Walks and the rows of a query -/

variable {result : List Row} {t : Session σ}

theorem result_of_rows (hd : d.AnswersWindows q found) (hrows : rows d q s = .ok result t) :
    ∃ dialect, Reaches d q.connectionName dialect s ∧ Sendable q dialect ∧
      result = windowRows dialect q.limit q.offset found := by
  obtain ⟨dialect, hs, hq⟩ := reaches_of_rows hrows
  obtain ⟨u, hown, -⟩ := rows_windowed hd hs hq (.inl ⟨rfl, rfl⟩)
  rw [windowed_self, hrows] at hown
  cases hown
  exact ⟨dialect, hs, hq, rfl⟩

/-- A walk covers what is within reach, and ends well unless it is stopped or there is more. -/
theorem walk_covers (hd : d.AnswersWindows q found) (hs : Reaches d q.connectionName dialect s)
    (hq : Sendable q dialect) {size : Int} (hsize : 0 < size)
    (goOn : List (List Row) → Except Error Bool) :
    ∃ w u, walk d q size goOn s = .ok w u ∧
      Covers w.batches size.toNat (∀ seen, goOn seen = .ok true)
        (found.take (reach size.toNat)) ∧
      ((∀ seen, goOn seen = .ok true) →
        (w.outcome = .ok () ↔ found.length < reach size.toNat)) := by
  have hpage : 0 * size.toNat ≤ maxSkipped.toNat := by
    rw [Nat.zero_mul]
    exact Nat.zero_le _
  obtain ⟨batches, outcome, u, hrun, hcovers⟩ := walkFrom_covers hd hq
    (show 0 < size.toNat by omega) goOn 0 [] s hpage hs
  rw [Nat.zero_mul, List.drop_zero] at hcovers
  refine ⟨⟨batches, outcome⟩, u, ?_, hcovers⟩
  rw [walk, if_pos hsize]
  exact hrun

/-- Walks go through the rows of a query exactly when these are the rows that the pages reach: when
the window of the query hides none of them. Rows beyond reach are not passed over in silence: a walk
that is never stopped fails unless there are none. -/
theorem walk_covers_iff (hd : d.AnswersWindows q found) {size : Int} (hsize : 0 < size)
    (hrows : rows d q s = .ok result t) :
    ((∀ goOn : List (List Row) → Except Error Bool, ∃ w u, walk d q size goOn s = .ok w u ∧
      Covers w.batches size.toNat (∀ seen, goOn seen = .ok true) result) ↔
      result = found.take (reach size.toNat)) ∧
    ∀ goOn : List (List Row) → Except Error Bool, (∀ seen, goOn seen = .ok true) →
      ∃ w u, walk d q size goOn s = .ok w u ∧
        (w.outcome = .ok () ↔ found.length < reach size.toNat) := by
  obtain ⟨dialect, hs, hq, -⟩ := result_of_rows hd hrows
  have hwalk := walk_covers hd hs hq hsize
  refine ⟨⟨fun h => ?_, ?_⟩, fun goOn hall => ?_⟩
  · obtain ⟨w, u, hrun, hcovers⟩ := h fun _ => .ok true
    obtain ⟨w', u', hrun', hcovers', -⟩ := hwalk fun _ => .ok true
    rw [hrun] at hrun'
    cases hrun'
    exact (hcovers.all fun _ => rfl).symm.trans (hcovers'.all fun _ => rfl)
  · rintro rfl goOn
    obtain ⟨w, u, hrun, hcovers, -⟩ := hwalk goOn
    exact ⟨w, u, hrun, hcovers⟩
  · obtain ⟨w, u, hrun, -, hends⟩ := hwalk goOn
    exact ⟨w, u, hrun, hends hall⟩

end Action

/-! ## A server of one table -/

namespace TableServer

open RowMapper.Action Sql

/-- The rows of a statement: all rows of the table, or those of the limit and offset at its end. -/
def answer (found : List Row) (sql : String) : List Row :=
  let window := sql.toList.drop "SELECT * FROM t".length
  if window.isEmpty then found
  else
    let numbers := window.drop " LIMIT ".length
    let limit := Nat.ofDigitChars 10 (numbers.takeWhile Char.isDigit) 0
    let offset := (numbers.dropWhile Char.isDigit).drop " OFFSET ".length
    (found.drop (Nat.ofDigitChars 10 offset 0)).take limit

def driver (found : List Row) : Driver Unit where
  connect _ _ := pure ()
  close _ _ := pure ()
  fetch _ _ sql _ := pure (answer found sql)
  execute _ _ _ _ := pure { affected := 0 }

def session : Session Unit where
  config := [(defaultConnection, .new .postgres "test")]
  served := [.postgres]
  servers := ()
  schemas := { declared := fun _ => .new "" "" }
  now := .atMidnight .epoch

def query (limit : Option Nat) : Query := { sources := [.table "t"], limit := limit }

theorem all_isDigit_toString (n : Nat) : ∀ c ∈ (toString n).toList, c.isDigit = true := by
  intro c hc
  rw [Nat.toString_eq_repr, Nat.toList_repr] at hc
  exact Nat.isDigit_of_mem_toDigits (by decide) (by decide) hc

theorem ofDigitChars_toString (n : Nat) : Nat.ofDigitChars 10 (toString n).toList 0 = n := by
  rw [Nat.toString_eq_repr, Nat.toList_repr, Nat.ofDigitChars_ten_toDigits]

theorem drop_toList (a : String) (cs : List Char) : (a.toList ++ cs).drop a.length = cs := by
  rw [← String.length_toList, List.drop_left]

theorem drop_append (a b c e f : String) : (a ++ (b ++ c ++ e ++ f)).toList.drop a.length =
    b.toList ++ (c.toList ++ (e.toList ++ f.toList)) := by
  simp only [String.toList_append, List.append_assoc, drop_toList]

def text (d : Dialect) (limit offset : Option Nat) : String :=
  "SELECT * FROM t" ++ limitText d limit offset

theorem answer_text (found : List Row) (d : Dialect) : answer found (text d none none) = found := by
  have hdrop : (text d none none).toList.drop "SELECT * FROM t".length = [] := by
    rw [text, String.toList_append, drop_toList]
    rfl
  rw [answer]
  dsimp only
  rw [hdrop]
  rfl

theorem answer_window (found : List Row) (d : Dialect) (limit offset : Nat) :
    answer found (text d (some limit) (some offset)) = (found.drop offset).take limit := by
  have hdrop : (text d (some limit) (some offset)).toList.drop "SELECT * FROM t".length =
      " LIMIT ".toList ++
        ((toString limit).toList ++ (" OFFSET ".toList ++ (toString offset).toList)) :=
    drop_append "SELECT * FROM t" " LIMIT " (toString limit) " OFFSET " (toString offset)
  have hlimit : ((toString limit).toList ++ (" OFFSET ".toList ++
      (toString offset).toList)).takeWhile Char.isDigit = (toString limit).toList := by
    rw [List.takeWhile_append_of_pos (all_isDigit_toString limit)]
    exact List.append_nil _
  have hoffset : ((toString limit).toList ++ (" OFFSET ".toList ++
      (toString offset).toList)).dropWhile Char.isDigit =
        " OFFSET ".toList ++ (toString offset).toList := by
    rw [List.dropWhile_append_of_pos (all_isDigit_toString limit)]
    rfl
  rw [answer]
  dsimp only
  rw [hdrop, drop_toList, hlimit, hoffset, drop_toList, ofDigitChars_toString,
    ofDigitChars_toString]
  rfl

theorem inert_text (d : Dialect) (limit offset : Option Nat) : Inert (text d limit offset) :=
  Inert.append (by decide) (inert_limitText d limit offset)

theorem ofQuery_query (d : Dialect) (own limit offset : Option Nat) :
    Statement.ofQuery d ((query own).windowed limit offset) =
      .ok { sql := text d limit offset, named := [], bindings := [] } := by
  have hname : quoteQualified d "t" = "t" := by cases d <;> decide +kernel
  have hrun : renderQuery d ((query own).windowed limit offset) {} =
      .ok (Render.QueryParts.text ⟨[], [quoteQualified d "t"], [], [], [], [], []⟩ d
        ((query own).windowed limit offset)) {} := by
    rw [Query.renderQuery_eq_clauses rfl]
    rfl
  have hhead : Render.QueryParts.head ⟨[], ["t"], [], [], [], [], []⟩ d
      ((query own).windowed limit offset) = "SELECT * FROM t" := rfl
  rw [hname, Render.QueryParts.text_eq, hhead, concatenated, List.foldl_nil,
    String.append_empty] at hrun
  rw [Statement.ofQuery, Statement.ofRender, hrun]
  rfl

theorem toPositional_query (d : Dialect) (limit offset : Option Nat) :
    Statement.toPositional { sql := text d limit offset, named := [], bindings := [] } d =
      .ok (text d limit offset, []) := by
  have hreads := (inert_text d limit offset).seals.reads
  refine positional_eq_ok.2 ⟨?_, ?_, rfl⟩
  · rw [hreads.placeholders_eq]
    rfl
  · rw [(Becomes.ofReads hreads d 0).toPositional]

theorem answersWindows (found : List Row) (own : Option Nat) :
    (driver found).AnswersWindows (query own) found := by
  intro serial config servers limit offset st sql values hwindow hst hsent
  rw [ofQuery_query] at hst
  cases hst
  rw [toPositional_query] at hsent
  cases hsent
  suffices h : answer found (text config.adapter limit offset) =
      windowRows config.adapter limit offset found from ⟨servers, by rw [← h]; rfl⟩
  cases limit with
  | none =>
    rcases hwindow with ⟨-, rfl⟩ | ⟨hlimit, -⟩
    · exact answer_text found config.adapter
    · cases hlimit
  | some limit =>
    cases offset with
    | none => exact answer_window found config.adapter limit 0
    | some offset => exact answer_window found config.adapter limit offset

theorem rows_query (found : List Row) (own : Option Nat) :
    ∃ t, rows (driver found) (query own) session =
      .ok (windowRows .postgres own none found) t := by
  have hs : Reaches (driver found) defaultConnection .postgres session := ⟨_, _, rfl, rfl⟩
  have hq : Sendable (query own) .postgres :=
    ⟨_, _, ofQuery_query .postgres own own none, toPositional_query .postgres own none⟩
  obtain ⟨t, hrows, -⟩ := rows_windowed (answersWindows found own) hs hq (.inl ⟨rfl, rfl⟩)
  exact ⟨t, hrows⟩

def threeRows : List Row := [[("id", .int64 1)], [("id", .int64 2)], [("id", .int64 3)]]

/-- A query without a window is walked through, in batches of two. -/
theorem walk_threeRows : ∃ t, rows (driver threeRows) (query none) session = .ok threeRows t ∧
    ∃ w u, walk (driver threeRows) (query none) 2 (fun _ => .ok true) session = .ok w u ∧
      w.batches.flatten = threeRows := by
  obtain ⟨t, hrows⟩ := rows_query threeRows none
  have hwithin : threeRows = threeRows.take (reach (2 : Int).toNat) :=
    (List.take_of_length_le (by decide)).symm
  obtain ⟨w, u, hwalk, hcovers⟩ := (walk_covers_iff (answersWindows threeRows none)
    (by decide : (0 : Int) < 2) hrows).1.2 hwithin fun _ => .ok true
  exact ⟨t, hrows, w, u, hwalk, hcovers.all fun _ => rfl⟩

/-- A query of one row has one row, and the walk through it in batches of two has three. -/
theorem walk_limited : (driver threeRows).AnswersWindows (query (some 1)) threeRows ∧
    ∃ t, rows (driver threeRows) (query (some 1)) session = .ok (threeRows.take 1) t ∧
    ∃ w u, walk (driver threeRows) (query (some 1)) 2 (fun _ => .ok true) session = .ok w u ∧
      w.batches.map List.length = [2, 1] ∧ w.batches.flatten ≠ threeRows.take 1 := by
  obtain ⟨t, hrows⟩ := rows_query threeRows (some 1)
  have hlengths : (value? (walk (driver threeRows) (query (some 1)) 2 (fun _ => .ok true)
      session)).map (fun w => w.batches.map List.length) = some [2, 1] := by decide +kernel
  obtain ⟨w, hw, hlengths⟩ := Option.map_eq_some_iff.1 hlengths
  refine ⟨answersWindows threeRows (some 1), t, hrows, w, _, eq_ok_of_value? hw, hlengths, ?_⟩
  intro hall
  have hlength := congrArg List.length hall
  rw [List.length_flatten, hlengths] at hlength
  revert hlength
  decide

end TableServer

end RowMapper
