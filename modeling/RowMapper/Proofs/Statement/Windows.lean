import RowMapper.Proofs.Placeholder.Positional
import RowMapper.Proofs.Placeholder.Queries
import RowMapper.Proofs.Render.Clauses
import RowMapper.Proofs.Statement.Alignment
import RowMapper.Query.Build

/-! # Row windows

The row window of a query is written between its ordering and its unions and holds no
placeholder. Whatever text the caller brings in before it, the placeholders of the whole
statement are the same with every window, so a query that can be sent with one window can
be sent with all of them.
-/

namespace RowMapper

namespace Sql

open Render

/-! ## A gap in a text -/

namespace Reading

def names (r : Reading) (cs : List Char) : List String := (r.read cs).filterMap Token.name?

/-- Where the reader stands after a character that means nothing to it and ends names. -/
def settled : Reading → Reading
  | .plain => .plain
  | .quoted q => .quoted q
  | .colon => .plain
  | .name _ => .plain

def Proper (r : Reading) : Prop := ∀ q, r.quote? = some q → isQuote q = true

theorem proper_plain : Proper .plain := by
  intro q hq
  cases hq

theorem Proper.step {r : Reading} (h : r.Proper) (c : Char) : (r.step c).2.Proper := by
  intro q hq
  rw [quote?_step] at hq
  split at hq
  · next q' hq' =>
    split at hq
    · cases hq
    · cases hq
      exact h q hq'
  · split at hq
    · next hc =>
      cases hq
      exact hc
    · cases hq

theorem Proper.after {r : Reading} (h : r.Proper) (cs : List Char) : (r.after cs).Proper := by
  induction cs generalizing r with
  | nil => exact h
  | cons c cs ih => exact ih (h.step c)

theorem names_plain_cons {c : Char} (hc : isInert c = true) (cs : List Char) :
    names .plain (c :: cs) = names .plain cs := by
  simp only [isInert, Bool.and_eq_true, Bool.not_eq_true', bne_iff_ne] at hc
  obtain ⟨⟨hquote, hcolon⟩, -⟩ := hc
  rw [names, read_plain_other hquote hcolon, filterMap_name?_plain]
  rfl

/-- An inert character inside or outside quotes is no placeholder and leads nowhere. -/
theorem names_settled_cons {r : Reading} (hr : r.Proper) {c : Char} (hc : isInert c = true)
    (cs : List Char) : r.settled.names (c :: cs) = r.settled.names cs := by
  cases r with
  | plain => exact names_plain_cons hc cs
  | colon => exact names_plain_cons hc cs
  | name name => exact names_plain_cons hc cs
  | quoted q =>
    have hne : c ≠ q := by
      rintro rfl
      simp [isInert, hr c rfl] at hc
    rw [names, settled, read_quoted_other hne, filterMap_name?_quoted]
    rfl

theorem names_settled_append {r : Reading} (hr : r.Proper) {cs : List Char}
    (hcs : cs.all isInert = true) (ds : List Char) :
    r.settled.names (cs ++ ds) = r.settled.names ds := by
  induction cs with
  | nil => rfl
  | cons c cs ih =>
    rw [List.all_cons, Bool.and_eq_true] at hcs
    rw [List.cons_append, names_settled_cons hr hcs.1, ih hcs.2]

end Reading

/-- A text starts, if at all, with a character that means nothing to the reader and ends names. -/
def Detached (cs : List Char) : Prop :=
  ∀ c ∈ cs.head?, isInert c = true ∧ isNameChar c = false

theorem Detached.append {xs ys : List Char} (hx : Detached xs) (hy : Detached ys) :
    Detached (xs ++ ys) := by
  cases xs with
  | nil => exact hy
  | cons c cs => exact hx

theorem detached_of_inert {cs : List Char} (hinert : cs.all isInert = true) (hbreaks : Breaks cs) :
    Detached cs := by
  intro c hc
  exact ⟨List.all_eq_true.1 hinert c (List.mem_of_mem_head? hc), hbreaks c hc⟩

/-- What the reader was in the middle of ends where a detached text begins. -/
theorem Reading.names_detached {r : Reading} (hr : r.Proper) {cs : List Char} (h : Detached cs) :
    r.names cs = r.last.filterMap Token.name? ++ r.settled.names cs := by
  cases cs with
  | nil => cases r <;> simp [names, settled, last]
  | cons c cs =>
    obtain ⟨hinert, hchar⟩ := h c rfl
    rw [names_settled_cons hr hinert]
    cases r with
    | plain => exact names_plain_cons hinert cs
    | quoted q => exact names_settled_cons hr hinert cs
    | colon =>
      have hstart : isNameStart c = false := by
        cases hs : isNameStart c with
        | false => rfl
        | true =>
          rw [isNameChar_of_isNameStart hs] at hchar
          cases hchar
      have hcolon : c ≠ ':' := by
        rintro rfl
        cases hinert
      rw [names, read_colon_other hcolon hstart, filterMap_name?_plain]
      exact names_plain_cons hinert cs
    | name name =>
      rw [names, read_name_other hchar, filterMap_name?_placeholder]
      exact congrArg (String.ofList name :: ·) (names_plain_cons hinert cs)

/-- An inert text between two others makes no difference to their placeholders, when names end
before it and before the last one. -/
theorem placeholders_gap (a : String) {l b : String} (hinert : Inert l)
    (hbreaks : Breaks l.toList) (hb : Detached b.toList) :
    placeholders (a ++ l ++ b) = placeholders (a ++ b) := by
  have hproper : (Reading.after .plain a.toList).Proper := Reading.proper_plain.after a.toList
  have hsplit (cs : List Char) : Reading.names .plain (a.toList ++ cs) =
      (Reading.tokens .plain a.toList).filterMap Token.name? ++
        (Reading.after .plain a.toList).names cs := by
    simp [Reading.names, Reading.read, Reading.tokens_append, Reading.after_append]
  have hrest : (Reading.after .plain a.toList).names (l.toList ++ b.toList) =
      (Reading.after .plain a.toList).names b.toList := by
    rw [Reading.names_detached hproper ((detached_of_inert hinert hbreaks).append hb),
      Reading.names_settled_append hproper hinert, Reading.names_detached hproper hb]
  change Reading.names .plain (a ++ l ++ b).toList = Reading.names .plain (a ++ b).toList
  rw [String.toList_append, String.toList_append, String.toList_append, List.append_assoc, hsplit,
    hsplit, hrest]

theorem Delimits.detached {a : String} (h : Delimits a) (t : String) : Detached (a ++ t).toList := by
  rw [String.toList_append]
  cases ha : a.toList with
  | nil => exact absurd ha h.ne_nil
  | cons c cs =>
    have hdetached := detached_of_inert h.1 h.breaks
    rw [ha] at hdetached
    exact hdetached

theorem detached_concatenated {ts : List String} (h : ∀ t ∈ ts, Detached t.toList) :
    Detached (concatenated ts).toList := by
  induction ts with
  | nil => exact nofun
  | cons t ts ih =>
    obtain ⟨ht, hts⟩ := List.forall_mem_cons.1 h
    rw [concatenated_cons, String.toList_append]
    exact ht.append (ih hts)

theorem detached_renderUnions {d : Dialect} {unions : List (Query × Bool)} {s t : ParamSink}
    {texts : List String} (h : renderUnions d unions s = .ok texts t) :
    ∀ text ∈ texts, Detached text.toList := by
  induction unions generalizing s texts with
  | nil =>
    obtain ⟨rfl, -⟩ := pure_eq_ok.1 h
    exact nofun
  | cons united rest ih =>
    obtain ⟨query, all⟩ := united
    obtain ⟨text, u, -, h⟩ := bind_eq_ok.1 h
    obtain ⟨others, v, hothers, h⟩ := bind_eq_ok.1 h
    obtain ⟨rfl, rfl⟩ := pure_eq_ok.1 h
    refine List.forall_mem_cons.2 ⟨?_, ih hothers⟩
    cases all
    · exact Delimits.detached (a := " UNION ") (by decide) text
    · exact Delimits.detached (a := " UNION ALL ") (by decide) text

def Render.QueryParts.head (p : QueryParts) (d : Dialect) (q : Query) : String :=
  "SELECT " ++ (if q.distinct then "DISTINCT " else "") ++
    (if q.columns.isEmpty then "*" else Text.join ", " p.selected) ++
    " FROM " ++ Text.join ", " p.sources ++
    concatenated (p.joined ++ (neededRelations q).map fun r => " " ++ relationJoinText d r) ++
    afterKeyword " WHERE " (Clauses.text p.filter) ++ groupText d q.groups ++
    afterKeyword " HAVING " (Clauses.text p.having) ++
    (if q.orders.isEmpty then "" else " ORDER BY " ++ Text.join ", " p.ordered)

theorem Render.QueryParts.text_eq (p : QueryParts) (d : Dialect) (q : Query) :
    p.text d q = p.head d q ++ limitText d q.limit q.offset ++ concatenated p.united := rfl

/-- The placeholders of a query are those around its row window. -/
theorem Render.QueryParts.placeholders_text (p : QueryParts) (d : Dialect) (q : Query)
    (hunited : ∀ text ∈ p.united, Detached text.toList) :
    placeholders (p.text d q) = placeholders (p.head d q ++ concatenated p.united) := by
  rw [p.text_eq]
  exact placeholders_gap _ (inert_limitText d q.limit q.offset)
    (breaks_limitText d q.limit q.offset) (detached_concatenated hunited)

end Sql

namespace Query

open Sql Render

def windowed (q : Query) (limit offset : Option Nat) : Query := { q with limit, offset }

@[simp] theorem windowed_self (q : Query) : q.windowed q.limit q.offset = q := by
  cases q
  rfl

variable {q : Query} {d : Dialect}

/-- With another window a query binds the same parameters and has the same placeholders. -/
theorem renderQuery_windowed {s t : ParamSink} {text : String}
    (h : renderQuery d q s = .ok text t) (limit offset : Option Nat) :
    ∃ text', renderQuery d (q.windowed limit offset) s = .ok text' t ∧
      placeholders text' = placeholders text := by
  have herror := (rendered_of_ok h).1
  rw [renderQuery_eq_clauses herror] at h
  rw [renderQuery_eq_clauses (q := q.windowed limit offset) herror]
  obtain ⟨selected, s₁, h₁, h⟩ := bind_eq_ok.1 h
  obtain ⟨sources, s₂, h₂, h⟩ := bind_eq_ok.1 h
  obtain ⟨joined, s₃, h₃, h⟩ := bind_eq_ok.1 h
  obtain ⟨filter, s₄, h₄, h⟩ := bind_eq_ok.1 h
  obtain ⟨having, s₅, h₅, h⟩ := bind_eq_ok.1 h
  obtain ⟨ordered, s₆, h₆, h⟩ := bind_eq_ok.1 h
  obtain ⟨united, s₇, h₇, h⟩ := bind_eq_ok.1 h
  obtain ⟨rfl, rfl⟩ := pure_eq_ok.1 h
  obtain ⟨u, hu, -, -⟩ := inClause_eq_ok.1 h₇
  have hunited := detached_renderUnions hu
  let p : QueryParts := ⟨selected, sources, joined, filter, having, ordered, united⟩
  refine ⟨p.text d (q.windowed limit offset), ?_, ?_⟩
  · -- the clauses read nothing of the window
    exact bind_eq_ok.2 ⟨_, _, h₁, bind_eq_ok.2 ⟨_, _, h₂, bind_eq_ok.2 ⟨_, _, h₃,
      bind_eq_ok.2 ⟨_, _, h₄, bind_eq_ok.2 ⟨_, _, h₅, bind_eq_ok.2 ⟨_, _, h₆,
        bind_eq_ok.2 ⟨_, _, h₇, rfl⟩⟩⟩⟩⟩⟩⟩
  · rw [p.placeholders_text d _ hunited, p.placeholders_text d q hunited]
    rfl

/-- A query that can be sent can be sent with every window. -/
theorem toPositional_windowed {st : Statement} {sent : String × List Value}
    (h : Statement.ofQuery d q = .ok st) (hsent : st.toPositional d = .ok sent)
    (limit offset : Option Nat) :
    ∃ st' sent', Statement.ofQuery d (q.windowed limit offset) = .ok st' ∧
      st'.toPositional d = .ok sent' := by
  obtain ⟨text, sink, hrun, rfl⟩ := Statement.ofRender_eq_ok h
  obtain ⟨text', hrun', hplaceholders⟩ := renderQuery_windowed hrun limit offset
  obtain ⟨hlength, -, -⟩ := positional_eq_ok.1 hsent
  let st' : Statement := { sql := text', named := sink.named, bindings := sink.bindings }
  have hlength' : (placeholders st'.sql).length = st'.params.length := by
    rw [hplaceholders]
    exact hlength
  refine ⟨st', _, ?_, positional_eq_ok.2 ⟨hlength', rfl, rfl⟩⟩
  rw [Statement.ofQuery, Statement.ofRender, hrun']

/-! ## The rows of a window -/

/-- The rows that a database returns for a window of a sequence of rows. -/
def windowRows {α : Type} (d : Dialect) (limit offset : Option Nat) (found : List α) : List α :=
  match limit, offset with
  | some limit, offset => (found.drop (offset.getD 0)).take limit
  | none, some offset => match d with
    -- where an offset needs a limit, the largest one is written
    | .mysql => (found.drop offset).take 18446744073709551615
    | _ => found.drop offset
  | none, none => found

theorem page_eq_windowed (q : Query) {n size : Nat} (h : n * size ≤ maxSkipped.toNat) :
    q.page (n + 1 : Nat) size = q.windowed (some size) (some (n * size)) := by
  have hpage : max ((n + 1 : Nat) : Int) 1 - 1 = n := by
    rw [Int.max_eq_left (by omega)]
    omega
  have hsize : max (size : Int) 0 = size := Int.max_eq_left (by omega)
  have hskipped : (n : Int) * size ≤ maxSkipped := by
    rw [← Int.natCast_mul]
    rw [maxSkipped] at h ⊢
    omega
  rw [Query.page]
  rw [hpage, hsize, if_pos hskipped, ← Int.natCast_mul, atMost, if_pos (by omega), skipping,
    if_pos (by omega)]
  rfl

end Query

end RowMapper
