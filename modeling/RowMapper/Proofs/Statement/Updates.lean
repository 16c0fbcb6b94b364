import RowMapper.Proofs.Placeholder.Inlined
import RowMapper.Proofs.Placeholder.Positional
import RowMapper.Proofs.Placeholder.Writes
import RowMapper.Proofs.Run

/-! # The update of a row

An update of the row of a key is sent with one assignment for each value and one
condition. Nulls, booleans and the present time stand in the text. All other values
are bound in order, the key after them, and the marks of the text are counted along.
The one thing that can come in between is the text of the key column, which is taken
over as it is when it looks like an expression.
-/

namespace RowMapper.Sql

open Text Run

/-! ## Texts with marks in place of placeholders -/

theorem marked_append (d : Dialect) (n : Nat) (xs ys : List Token) : marked d n (xs ++ ys) =
    ((marked d n xs).1 ++ (marked d (marked d n xs).2 ys).1,
      (marked d (marked d n xs).2 ys).2) := by
  induction xs generalizing n with
  | nil => rfl
  | cons t ts ih => cases t <;> simp [marked, ih]

theorem marked_of_names_nil {d : Dialect} {n : Nat} {ts : List Token}
    (h : ts.filterMap Token.name? = []) : marked d n ts = (filled (':' :: ·) ts, n) := by
  induction ts with
  | nil => rfl
  | cons t ts ih =>
    cases t with
    | plain c => simp [marked, ih h]
    | quoted c => simp [marked, ih h]
    | placeholder name => simp [Token.name?] at h

theorem marked_read {d : Dialect} {n : Nat} {r : Reading} {cs : List Char}
    (h : (r.read cs).filterMap Token.name? = []) : marked d n (r.read cs) = (r.held ++ cs, n) := by
  rw [marked_of_names_nil h, Reading.filled_read]

/-- A text ends outside quotes, and becomes another text when its placeholders are replaced by
marks counted from `n` up to `m`. -/
structure Becomes (d : Dialect) (n : Nat) (t : String) (m : Nat) (u : String) : Prop where
  ends : IsOpen t.toList
  marked : marked d n (tokens t.toList) = (u.toList, m)

namespace Becomes

variable {d : Dialect} {n m k : Nat} {a b t u v : String}

theorem append (h : Becomes d n a m u) (hbreak : Breaks b.toList) (h' : Becomes d m b k v) :
    Becomes d n (a ++ b) k (u ++ v) := by
  constructor
  · rw [String.toList_append]
    exact IsOpen.append h.ends hbreak h'.ends
  · rw [String.toList_append, tokens_append_of_breaks h.ends hbreak, marked_append, h.marked,
      h'.marked, String.toList_append]

theorem ofReads {l : Nat} (h : Reads t [] l) (d : Dialect) (n : Nat) : Becomes d n t n t where
  ends := h.ends
  marked := marked_read (r := .plain) h.names

theorem after {l : Nat} (ha : Seals a [] l) (h : Becomes d n b m v) :
    Becomes d n (a ++ b) m (a ++ v) := by
  constructor
  · rw [String.toList_append]
    exact IsClosed.append_isOpen ha.closed h.ends
  · rw [String.toList_append, tokens_append_of_isClosed ha.closed, marked_append,
      (ofReads ha.reads d n).marked, h.marked, String.toList_append]

theorem close (h : Becomes d n t m u) (ha : Delimits a) : Becomes d n (t ++ a) m (u ++ a) :=
  h.append ha.breaks (ofReads ha.inert.seals.reads d m)

theorem toPositional (h : Becomes d 0 t m u) : Sql.toPositional d t = (u, m) := by
  have hfrom := (positionalFrom_eq d t.toList).1 0
  have hmarked : Sql.marked d 0 (Reading.plain.read t.toList) = (u.toList, m) := h.marked
  rw [hmarked] at hfrom
  simp [Sql.toPositional, hfrom]

end Becomes

theorem read_name (name : List Char) {cs : List Char} (h : cs.all isNameChar = true) :
    (Reading.name name).read cs = [.placeholder (name ++ cs)] := by
  induction cs generalizing name with
  | nil => simp [Reading.last]
  | cons c cs ih =>
    rw [List.all_cons, Bool.and_eq_true] at h
    rw [Reading.read_name_char h.1, ih _ h.2, List.append_assoc]
    rfl

theorem becomes_placeholder {name : String} (h : isNameChars name.toList = true) (d : Dialect)
    (n : Nat) : Becomes d n (":" ++ name) (n + 1) (d.mark n) where
  ends := (reads_placeholder h).ends
  marked := by
    cases hn : name.toList with
    | nil => simp [hn, isNameChars] at h
    | cons c cs =>
      rw [hn, isNameChars, Bool.and_eq_true] at h
      have hlist : (":" ++ name).toList = ':' :: c :: cs := by simp [hn]
      rw [hlist, tokens, Reading.read_plain_colon, Reading.read_colon_name h.1, read_name [c] h.2]
      simp [marked]

inductive BecomesAll (d : Dialect) : Nat → List String → Nat → List String → Prop
  | nil {n : Nat} : BecomesAll d n [] n []
  | cons {n m k : Nat} {t u : String} {ts us : List String} (h : Becomes d n t m u)
      (hs : BecomesAll d m ts k us) : BecomesAll d n (t :: ts) k (u :: us)

theorem BecomesAll.join {d : Dialect} {n m : Nat} {ts us : List String} {sep : String}
    (hsep : Delimits sep) (h : BecomesAll d n ts m us) :
    Becomes d n (Text.join sep ts) m (Text.join sep us) := by
  induction h with
  | nil => exact .ofReads seals_empty.reads d _
  | cons h hs ih =>
    cases hs with
    | nil => exact h
    | cons =>
      simp only [Text.join, String.append_assoc]
      exact h.append hsep.breaks_append (ih.after hsep.inert.seals)

/-! ## Assignments -/

/-- What a value stands for in the text itself, if it is not bound. -/
def inlineText? (d : Dialect) : Value → Option String
  | .null => some "NULL"
  | .bool b => some (d.boolLiteral b)
  | .text s => if s = Value.now then some d.currentTimestamp else none
  | _ => none

def boundValues (d : Dialect) (values : Entries Value) : List Value :=
  (values.map Prod.snd).filter fun v => (inlineText? d v).isNone

/-- The assignments of values, with marks counted from `n` for those that are bound. -/
def assignmentTexts (d : Dialect) : Nat → Entries Value → List String
  | _, [] => []
  | n, (column, v) :: rest =>
    match inlineText? d v with
    | some text => (quoteIdentifier d column ++ " = " ++ text) :: assignmentTexts d n rest
    | none => (quoteIdentifier d column ++ " = " ++ d.mark n) :: assignmentTexts d (n + 1) rest

theorem renderCell_eq (d : Dialect) (column : String) (v : Value) : renderCell d column v =
    match inlineText? d v with
    | some text => pure text
    | none => ParamSink.bind column v := by
  cases v with
  | text s =>
    by_cases hs : s = Value.now <;> simp [renderCell, inlineText?, hs]
  | _ => rfl

theorem inert_inlineText {d : Dialect} {v : Value} {text : String}
    (h : inlineText? d v = some text) : Inert text := by
  unfold inlineText? at h
  split at h
  · cases h
    decide
  · cases h
    exact inert_boolLiteral d _
  · split at h
    · cases h
      exact inert_currentTimestamp d
    · cases h
  · cases h

theorem renderAssignments_becomes (d : Dialect) (values : Entries Value) (n : Nat)
    (s : ParamSink) : ∃ texts s', renderAssignments d values s = .ok texts s' ∧
      BecomesAll d n texts (n + (boundValues d values).length) (assignmentTexts d n values) ∧
      s'.parameters.map Parameter.value =
        s.parameters.map Parameter.value ++ boundValues d values := by
  induction values generalizing n s with
  | nil => exact ⟨[], s, rfl, .nil, by simp [boundValues]⟩
  | cons entry rest ih =>
    obtain ⟨column, v⟩ := entry
    have hleft := (seals_quoteIdentifier d column).close (a := " = ") (by decide)
    rw [renderAssignments, renderCell_eq]
    cases hv : inlineText? d v with
    | some text =>
      obtain ⟨texts, s', hrender, hbecomes, hvalues⟩ := ih n s
      have hbound : boundValues d ((column, v) :: rest) = boundValues d rest := by
        simp [boundValues, hv]
      refine ⟨_, s', by rw [pure_bind, bind_of_ok hrender]; rfl, ?_, by rw [hvalues, hbound]⟩
      rw [hbound, assignmentTexts, hv]
      exact .cons (.after hleft (.ofReads (inert_inlineText hv).seals.reads d n)) hbecomes
    | none =>
      obtain ⟨placeholder, t, hbind⟩ : ∃ placeholder t,
          ParamSink.bind column v s = .ok placeholder t := ⟨_, _, rfl⟩
      obtain ⟨name, rfl, hadded, -, hname⟩ := ParamSink.fresh_of_bind hbind
      obtain ⟨texts, s', hrender, hbecomes, hvalues⟩ := ih (n + 1) t
      have hbound : boundValues d ((column, v) :: rest) = v :: boundValues d rest := by
        simp [boundValues, hv]
      refine ⟨_, s', by rw [bind_of_ok hbind, bind_of_ok hrender]; rfl, ?_, ?_⟩
      · rw [hbound, assignmentTexts, hv, List.length_cons, ← Nat.add_assoc, Nat.add_right_comm]
        exact .cons (.after hleft (becomes_placeholder hname d n)) hbecomes
      · rw [hvalues, hadded, hbound]
        simp

/-! ## The condition -/

/-- A column whose text, if it is taken over as an expression, closes its quotes and neither has
nor begins a placeholder. -/
def ClosedColumn (column : String) : Prop :=
  isExpression (trim column) = true →
    IsClosed (trim column).toList ∧ placeholders (trim column) = []

theorem ClosedColumn.seals {column : String} (h : ClosedColumn column) (scope : Scope) :
    ∃ marks, Seals (scope.qualify column) [] marks := by
  by_cases he : isExpression (trim column) = true
  · obtain ⟨hclosed, hnames⟩ := h he
    have htext : scope.qualify column = trim column := by rw [Scope.qualify, if_pos he]
    rw [htext]
    exact ⟨_, hclosed, hnames, rfl⟩
  · have hparts : AllTame (columnParts column) := by simp [columnParts, he, AllTame]
    exact ⟨_, seals_qualify scope hparts⟩

theorem renderCondition_key (scope : Scope) {column : String} {key : Value}
    (hplain : Condition.isRawColumn column = false) (hkey : key ≠ .null) {s s' : ParamSink}
    {placeholder : String} (hbind : ParamSink.bind column key s = .ok placeholder s') :
    renderCondition scope (.key column key) s =
      .ok (some (scope.qualify column ++ " " ++ Comparison.equal.symbol ++ " " ++ placeholder))
        s' := by
  have hcondition : (Condition.key column key : Condition Query) =
      .basic column "=" (.exact key) .and := by
    cases key <;> first | rfl | exact absurd rfl hkey
  have hequals : Comparison.parse "=" = .ok .equal := rfl
  rw [hcondition, renderCondition, if_neg (by simp [hplain]), hequals]
  simp only [renderComparison, renderBound, bind_assoc, bind_of_ok hbind]
  rfl

def keyCondition (d : Dialect) (column : String) (n : Nat) : String :=
  " WHERE (" ++ ({ dialect := d } : Scope).qualify column ++ " = " ++ d.mark n ++ ")"

theorem afterKeyword_single (keyword text : String) :
    afterKeyword keyword (Clauses.text [(.and, text)]) = keyword ++ ("(" ++ text ++ ")") := by
  have hsingle : Clauses.text [(.and, text)] = "(" ++ text ++ ")" := rfl
  have hnonempty : ("(" ++ text ++ ")").isEmpty = false := by
    simp [String.isEmpty_eq_false_iff]
  rw [hsingle, afterKeyword, hnonempty, if_neg Bool.false_ne_true]

theorem renderWhere_key (d : Dialect) {column : String} {key : Value}
    (hplain : Condition.isRawColumn column = false) (hkey : key ≠ .null)
    (hclosed : ClosedColumn column) (n : Nat) (s : ParamSink) :
    ∃ text s', renderWhere d [.key column key] s = .ok text s' ∧
      Becomes d n text (n + 1) (keyCondition d column n) ∧ Breaks text.toList ∧
      s'.parameters.map Parameter.value = s.parameters.map Parameter.value ++ [key] := by
  obtain ⟨placeholder, s', hbind⟩ : ∃ placeholder s',
      ParamSink.bind column key s = .ok placeholder s' := ⟨_, _, rfl⟩
  have hcondition := renderCondition_key { dialect := d } hplain hkey hbind
  obtain ⟨name, rfl, hadded, -, hname⟩ := ParamSink.fresh_of_bind hbind
  obtain ⟨marks, hseals⟩ := hclosed.seals { dialect := d }
  have hconditions : renderConditions { dialect := d } [.key column key] s =
      .ok [(.and, ({ dialect := d } : Scope).qualify column ++ " " ++ Comparison.equal.symbol ++
        " " ++ (":" ++ name))] s' := by
    rw [renderConditions, bind_of_ok hcondition, renderConditions]
    rfl
  have hhead := ((((hseals.prepend (a := "(") (by decide)).prepend (a := " WHERE ")
    (by decide)).close (a := " ") (by decide)).close (inert_symbol .equal)).close (a := " ")
      (by decide)
  refine ⟨_, s', by rw [renderWhere, bind_of_ok hconditions]; rfl, ?_, ?_, by rw [hadded]; simp⟩
  · have h := ((becomes_placeholder hname d n).after hhead).close (a := ")") (by decide)
    have hopen : " WHERE (" = " WHERE " ++ "(" := by decide
    have hequals : " = " = " " ++ Comparison.equal.symbol ++ " " := by decide
    rw [afterKeyword_single, keyCondition, hopen, hequals]
    simpa only [String.append_assoc] using h
  · exact breaks_afterKeyword (by decide) _

/-! ## The statement -/

def sentUpdate (d : Dialect) (table : String) (values : Entries Value) (column : String) : String :=
  updateText d table (assignmentTexts d 0 values)
    (keyCondition d column (boundValues d values).length)

/-- The update of the row of a key is sent with its assignments in order, keyed by the key, and
with the bound values and the key. -/
theorem update_key {d : Dialect} (table : String) {values : Entries Value} {column : String}
    {key : Value} (hvalues : values ≠ []) (hplain : Condition.isRawColumn column = false)
    (hkey : key ≠ .null) (hclosed : ClosedColumn column) :
    ∃ statement, update d table values [.key column key] true = .ok (some statement) ∧
      statement.toPositional d =
        .ok (sentUpdate d table values column, boundValues d values ++ [key]) := by
  obtain ⟨texts, t, hassign, hbecomes, hbound⟩ := renderAssignments_becomes d values 0 {}
  obtain ⟨condition, s, hwhere, hcondition, hbreak, hparams⟩ :=
    renderWhere_key d hplain hkey hclosed (boundValues d values).length t
  have hwritten : (values.filter fun entry => isWritten true entry.2) = values := by
    simp [isWritten]
  have hrender : (do
      let assignments ← renderAssignments d values
      let condition ← renderWhere d [.key column key]
      return updateText d table assignments condition : Render String) {} =
        .ok (updateText d table texts condition) s := by
    rw [bind_of_ok hassign, bind_of_ok hwhere]
    rfl
  have htext : Becomes d 0 (updateText d table texts condition)
      ((boundValues d values).length + 1) (sentUpdate d table values column) := by
    have hhead := ((seals_quoteQualified d table).prepend (a := "UPDATE ") (by decide)).close
      (a := " SET ") (by decide)
    rw [Nat.zero_add] at hbecomes
    exact ((hbecomes.join (by decide)).after hhead).append hbreak hcondition
  let statement : Statement :=
    { sql := updateText d table texts condition, named := s.named, bindings := s.bindings }
  have hupdate : update d table values [.key column key] true = .ok (some statement) := by
    rw [update, hwritten, if_neg (by simpa using hvalues), Statement.ofRender, hrender]
    rfl
  have hvalues' : statement.params = boundValues d values ++ [key] := by
    have hnamed : statement.params = s.parameters.map Parameter.value := by
      simp [statement, Statement.params, ParamSink.named]
    rw [hnamed, hparams, hbound]
    rfl
  have hsent := htext.toPositional
  refine ⟨statement, hupdate, ?_⟩
  rw [Statement.toPositional, positional_eq_ok, ← toPositional_snd d, hsent, hvalues']
  exact ⟨by simp, rfl, rfl⟩

end RowMapper.Sql
