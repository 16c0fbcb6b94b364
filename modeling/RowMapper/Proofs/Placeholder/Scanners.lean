import RowMapper.Proofs.Parameter.Fragments
import RowMapper.Proofs.Statement.InlinedValues
import RowMapper.Proofs.Statement.Windows

/-! # Three scans of one text

Statement text is scanned for positional marks, for literals and for the question marks of raw
fragments. The first two find the same placeholders, so one result is the other with the
k-th mark exchanged for the literal of the k-th name. The third one goes by quotes only, and takes
exactly the question marks after which the first one would find a placeholder.
-/

namespace RowMapper.Sql

open Run

/-! ## Stretches of a text -/

structure Stretch where
  start : Nat
  length : Nat
  deriving DecidableEq, Repr

/-- The rest of a text from position `i` on, with texts in the place of stretches. -/
def rewriteFrom : Nat → List Char → List Stretch → List (List Char) → List Char
  | i, cs, stretch :: stretches, text :: texts =>
    let stop := stretch.start + stretch.length
    cs.take (stretch.start - i) ++ text ++ rewriteFrom stop (cs.drop (stop - i)) stretches texts
  | _, cs, _, _ => cs

/-- A text with other texts in the place of stretches of it; all else is copied. -/
def rewritten (sql : String) (stretches : List Stretch) (texts : List String) : String :=
  String.ofList (rewriteFrom 0 sql.toList stretches (texts.map String.toList))

theorem rewriteFrom_skip {i : Nat} (front : List Char) {stretches : List Stretch}
    (h : ∀ stretch ∈ stretches, i + front.length ≤ stretch.start) (cs : List Char)
    (texts : List (List Char)) : rewriteFrom i (front ++ cs) stretches texts =
      front ++ rewriteFrom (i + front.length) cs stretches texts := by
  cases stretches with
  | nil => rfl
  | cons stretch stretches =>
    cases texts with
    | nil => rfl
    | cons text texts =>
      have hstart := h stretch List.mem_cons_self
      simp only [rewriteFrom, List.take_append, List.drop_append]
      rw [List.take_of_length_le (l := front) (by omega),
        List.drop_of_length_le (l := front) (by omega), Nat.sub_sub, Nat.sub_sub]
      simp

theorem rewriteFrom_here (i : Nat) (own cs text : List Char) (stretches : List Stretch)
    (texts : List (List Char)) :
    rewriteFrom i (own ++ cs) (⟨i, own.length⟩ :: stretches) (text :: texts) =
      text ++ rewriteFrom (i + own.length) cs stretches texts := by
  simp [rewriteFrom]

/-! ## Placeholders as stretches -/

/-- Tokens written out with texts for the placeholders, one after another; without a text a
placeholder stands for itself. -/
def written : List (List Char) → List Token → List Char
  | _, [] => []
  | texts, .plain c :: ts => c :: written texts ts
  | texts, .quoted c :: ts => c :: written texts ts
  | texts, .placeholder name :: ts => texts.headD (':' :: name) ++ written texts.tail ts

def stretchesFrom : Nat → List (List Char) → List Token → List Stretch
  | _, _, [] => []
  | i, texts, .plain _ :: ts => stretchesFrom (i + 1) texts ts
  | i, texts, .quoted _ :: ts => stretchesFrom (i + 1) texts ts
  | i, texts, .placeholder name :: ts =>
    let length := (texts.headD (':' :: name)).length
    ⟨i, length⟩ :: stretchesFrom (i + length) texts.tail ts

theorem le_start_of_mem {i : Nat} {texts : List (List Char)} {ts : List Token} {stretch : Stretch}
    (h : stretch ∈ stretchesFrom i texts ts) : i ≤ stretch.start := by
  induction ts generalizing i texts with
  | nil => cases h
  | cons t ts ih =>
    cases t with
    | plain c => exact Nat.le_of_succ_le (ih h)
    | quoted c => exact Nat.le_of_succ_le (ih h)
    | placeholder name =>
      rcases List.mem_cons.1 h with rfl | h
      · exact Nat.le_refl _
      · exact Nat.le_trans (Nat.le_add_right i _) (ih h)

theorem lengths_stretchesFrom (i : Nat) (ts : List Token) :
    (stretchesFrom i [] ts).map Stretch.length =
      (ts.filterMap Token.name?).map fun name => (":" ++ name).length := by
  induction ts generalizing i with
  | nil => rfl
  | cons t ts ih => cases t <;> simp [stretchesFrom, ih, ← String.length_toList]

/-- Texts for the placeholders can be exchanged for others where they stand. -/
theorem rewriteFrom_written (i : Nat) (texts : List (List Char)) {others : List (List Char)}
    {ts : List Token} (h : others.length = (ts.filterMap Token.name?).length) :
    rewriteFrom i (written texts ts) (stretchesFrom i texts ts) others = written others ts := by
  induction ts generalizing i texts others with
  | nil => cases others <;> rfl
  | cons t ts ih =>
    cases t with
    | plain c =>
      rw [written, stretchesFrom, written, ← ih (i + 1) texts h]
      exact rewriteFrom_skip [c] (fun _ => le_start_of_mem) _ others
    | quoted c =>
      rw [written, stretchesFrom, written, ← ih (i + 1) texts h]
      exact rewriteFrom_skip [c] (fun _ => le_start_of_mem) _ others
    | placeholder name =>
      cases others with
      | nil => simp at h
      | cons text others =>
        rw [written, stretchesFrom, rewriteFrom_here, ih _ _ (Nat.succ.inj h)]
        rfl

theorem filled_eq_written (text : List Char → List Char) (ts : List Token) :
    filled text ts = written ((ts.filterMap Token.name?).map fun name => text name.toList) ts := by
  induction ts with
  | nil => rfl
  | cons t ts ih => cases t <;> simp [written, ih]

theorem written_nil (ts : List Token) : written [] ts = filled (':' :: ·) ts := by
  induction ts with
  | nil => rfl
  | cons t ts ih => cases t <;> simp [written, ih]

theorem marked_eq_written (d : Dialect) (n : Nat) (ts : List Token) : (marked d n ts).1 =
    written ((List.range' n (ts.filterMap Token.name?).length).map fun k => (d.mark k).toList)
      ts := by
  induction ts generalizing n with
  | nil => rfl
  | cons t ts ih => cases t <;> simp [marked, written, ih, List.range'_succ]

def placeholderStretches (sql : String) : List Stretch := stretchesFrom 0 [] (tokens sql.toList)

def marksFor (d : Dialect) (sql : String) : List String :=
  (List.range (placeholders sql).length).map d.mark

/-- Where the marks stand in the positional form of a text. -/
def markStretches (d : Dialect) (sql : String) : List Stretch :=
  stretchesFrom 0 ((marksFor d sql).map String.toList) (tokens sql.toList)

theorem toPositional_eq_written (d : Dialect) (sql : String) : (toPositional d sql).1 =
    String.ofList (written ((marksFor d sql).map String.toList) (tokens sql.toList)) := by
  have hfrom : positionalFrom d .plain 0 sql.toList = marked d 0 (tokens sql.toList) :=
    (positionalFrom_eq d sql.toList).1 0
  have hmarks : (marksFor d sql).map String.toList =
      (List.range' 0 (placeholders sql).length).map fun k => (d.mark k).toList := by
    rw [marksFor, List.map_map, List.range_eq_range']
    rfl
  rw [hmarks, toPositional, hfrom]
  exact congrArg String.ofList (marked_eq_written d 0 _)

/-- Texts for all placeholders stand in the place of the placeholders of the text, and of the marks
of its positional form. -/
theorem rewritten_eq_written {sql : String} {texts : List String}
    (h : texts.length = (placeholders sql).length) :
    rewritten sql (placeholderStretches sql) texts =
      String.ofList (written (texts.map String.toList) (tokens sql.toList)) ∧
    ∀ d, rewritten (toPositional d sql).1 (markStretches d sql) texts =
      rewritten sql (placeholderStretches sql) texts := by
  have hlength : (texts.map String.toList).length =
      ((tokens sql.toList).filterMap Token.name?).length := by
    rw [List.length_map, h, placeholders]
  have hown : rewritten sql (placeholderStretches sql) texts =
      String.ofList (written (texts.map String.toList) (tokens sql.toList)) := by
    have hsource : sql.toList = written [] (tokens sql.toList) := by
      rw [written_nil, filled_tokens]
    rw [rewritten, placeholderStretches, ← rewriteFrom_written 0 [] hlength]
    exact congrArg (fun cs => String.ofList (rewriteFrom 0 cs _ _)) hsource
  refine ⟨hown, fun d => ?_⟩
  rw [hown, rewritten, toPositional_eq_written, String.toList_ofList, markStretches,
    rewriteFrom_written 0 _ hlength]

/-! ## Question marks as stretches -/

/-- Whether the scan for positional marks finds one more placeholder when one is written after a
text, and so stands outside quotes there. -/
def findsAfter (d : Dialect) (before : List Char) : Bool :=
  (toPositional d (String.ofList (before ++ [' ', ':', 'x']))).2 ==
    (toPositional d (String.ofList before)).2 + 1

/-- The question marks of a text with a property of what stands before them; `before` was read. -/
def questionStretches (p : List Char → Bool) : (before rest : List Char) → List Stretch
  | _, [] => []
  | before, c :: cs =>
    if c = '?' && p before then ⟨before.length, 1⟩ :: questionStretches p (before ++ [c]) cs
    else questionStretches p (before ++ [c]) cs

theorem length_le_start_of_mem {p : List Char → Bool} {before cs : List Char} {stretch : Stretch}
    (h : stretch ∈ questionStretches p before cs) : before.length ≤ stretch.start := by
  induction cs generalizing before with
  | nil => cases h
  | cons c cs ih =>
    have hrest (h : stretch ∈ questionStretches p (before ++ [c]) cs) :
        before.length ≤ stretch.start := by
      have hle := ih h
      rw [List.length_append] at hle
      exact Nat.le_of_add_right_le hle
    rw [questionStretches] at h
    split at h
    · rcases List.mem_cons.1 h with rfl | h
      · exact Nat.le_refl _
      · exact hrest h
    · exact hrest h

theorem names_quoted {q : Char} {cs : List Char} (h : q ∉ cs) :
    (Reading.quoted q).names cs = [] := by
  induction cs with
  | nil => rfl
  | cons c cs ih =>
    obtain ⟨hc, hcs⟩ := not_or.1 (mt List.mem_cons.2 h)
    rw [Reading.names, Reading.read_quoted_other (Ne.symm hc), filterMap_name?_quoted]
    exact ih hcs

/-- The scan for positional marks stands outside quotes just when the reader does. -/
theorem findsAfter_eq (d : Dialect) (before : List Char) :
    findsAfter d before = (Reading.plain.after before).quote?.isNone := by
  have hprobe : (Reading.plain.read (before ++ [' ', ':', 'x'])).filterMap Token.name? =
      (Reading.plain.tokens before).filterMap Token.name? ++
        (Reading.plain.after before).names [' ', ':', 'x'] := by
    rw [Reading.read, Reading.tokens_append, Reading.after_append, List.append_assoc,
      List.filterMap_append]
    rfl
  have hends : (Reading.plain.read before).filterMap Token.name? =
      (Reading.plain.tokens before).filterMap Token.name? ++
        (Reading.plain.after before).last.filterMap Token.name? := by
    rw [Reading.read, List.filterMap_append]
  have hproper := Reading.proper_plain.after before
  have hdetached : Detached [' ', ':', 'x'] := by
    intro c hc
    obtain rfl : ' ' = c := by simpa using hc
    decide
  rw [findsAfter, toPositional_snd, toPositional_snd, placeholders, placeholders,
    String.toList_ofList, String.toList_ofList, tokens, tokens, hprobe, hends,
    Reading.names_detached hproper hdetached]
  have hfound : Reading.plain.names [' ', ':', 'x'] = ["x"] := by decide
  cases hr : Reading.plain.after before with
  | plain => simp [Reading.settled, Reading.last, Reading.quote?, hfound]
  | colon => simp [Reading.settled, Reading.last, Reading.quote?, hfound]
  | name read => simp [Reading.settled, Reading.last, Reading.quote?, hfound]
  | quoted q =>
    have hq : isQuote q = true := hproper q (by rw [hr]; rfl)
    have hnotin : q ∉ [' ', ':', 'x'] := by
      intro hmem
      simp only [List.mem_cons, List.not_mem_nil, or_false] at hmem
      rcases hmem with rfl | rfl | rfl <;> exact absurd hq (by decide)
    simp [Reading.settled, Reading.last, Reading.quote?, names_quoted hnotin]

theorem quote?_after_snoc (before : List Char) (c : Char) :
    (Reading.plain.after (before ++ [c])).quote? =
      match (Reading.plain.after before).quote? with
      | some q => if c = q then none else some q
      | none => if isQuote c then some c else none := by
  rw [Reading.after_append]
  exact Reading.quote?_step _ c

theorem replaceMarks_nil (quote : Option Char) (cs : List Char) :
    replaceMarks quote cs [] = cs := by
  induction cs generalizing quote with
  | nil => cases quote <;> rfl
  | cons c cs ih =>
    cases quote with
    | some q => rw [replaceMarks, ih]
    | none =>
      by_cases hc : c = '?'
      · subst hc
        rw [replaceMarks, if_pos rfl, List.tail_nil, ih]
        rfl
      · rw [replaceMarks, if_neg hc, ih]

theorem rewriteFrom_nil (i : Nat) (cs : List Char) (stretches : List Stretch) :
    rewriteFrom i cs stretches [] = cs := by
  cases stretches <;> rfl

/-- The question marks that a raw fragment replaces are those where the scan for positional marks
stands outside quotes. -/
theorem replaceMarks_eq (d : Dialect) (before cs : List Char) (texts : List String) :
    replaceMarks (Reading.plain.after before).quote? cs texts =
      rewriteFrom before.length cs (questionStretches (findsAfter d) before cs)
        (texts.map String.toList) := by
  induction cs generalizing before texts with
  | nil => cases (Reading.plain.after before).quote? <;> rfl
  | cons c cs ih =>
    have hnext := quote?_after_snoc before c
    have hfinds := findsAfter_eq d before
    -- A character that is kept is passed over on both sides.
    have hkept : rewriteFrom before.length (c :: cs)
        (questionStretches (findsAfter d) (before ++ [c]) cs) (texts.map String.toList) =
          c :: replaceMarks (Reading.plain.after (before ++ [c])).quote? cs texts := by
      rw [ih, List.length_append]
      exact rewriteFrom_skip [c] (fun stretch h => by
        simpa using length_le_start_of_mem h) _ _
    cases hquote : (Reading.plain.after before).quote? with
    | some q =>
      rw [hquote] at hnext hfinds
      rw [questionStretches, hfinds, Option.isNone_some, Bool.and_false, if_neg Bool.false_ne_true,
        hkept, hnext, replaceMarks]
    | none =>
      rw [hquote] at hnext hfinds
      rw [questionStretches, hfinds, Option.isNone_none, Bool.and_true, replaceMarks]
      by_cases hc : c = '?'
      · subst hc
        cases texts with
        | nil => rw [List.map_nil, rewriteFrom_nil, List.tail_nil, replaceMarks_nil]; rfl
        | cons text texts =>
          have hnone : (Reading.plain.after (before ++ ['?'])).quote? = none := hnext
          have hhere := rewriteFrom_here before.length ['?'] cs text.toList
            (questionStretches (findsAfter d) (before ++ ['?']) cs) (texts.map String.toList)
          have hrest := ih (before ++ ['?']) texts
          rw [hnone, List.length_append] at hrest
          rw [if_pos rfl, if_pos (decide_eq_true rfl), List.map_cons, List.headD_cons,
            List.tail_cons, hrest]
          exact hhere.symm
      · have hother : ¬decide (c = '?') = true := by simpa using hc
        rw [if_neg hc, if_neg hother, hkept, hnext]

/-- The question marks where the scan for positional marks stands outside quotes. -/
def markedQuestions (d : Dialect) (sql : String) : List Stretch :=
  questionStretches (findsAfter d) [] sql.toList

theorem length_questionStretches (d : Dialect) (before cs : List Char) :
    (questionStretches (findsAfter d) before cs).length =
      marksFrom (Reading.plain.after before).quote? cs := by
  induction cs generalizing before with
  | nil => cases (Reading.plain.after before).quote? <;> rfl
  | cons c cs ih =>
    have hnext := quote?_after_snoc before c
    have hfinds := findsAfter_eq d before
    have hrest := ih (before ++ [c])
    cases hquote : (Reading.plain.after before).quote? with
    | some q =>
      rw [hquote] at hnext hfinds
      rw [questionStretches, hfinds, Option.isNone_some, Bool.and_false, if_neg Bool.false_ne_true,
        hrest, hnext, marksFrom]
    | none =>
      rw [hquote] at hnext hfinds
      rw [questionStretches, hfinds, Option.isNone_none, Bool.and_true]
      by_cases hc : c = '?'
      · subst hc
        have hnone : (Reading.plain.after (before ++ ['?'])).quote? = none := hnext
        rw [if_pos (decide_eq_true rfl), List.length_cons, hrest, hnone, ParamSink.marksFrom_mark]
      · have hother : ¬decide (c = '?') = true := by simpa using hc
        rw [if_neg hother, hrest, hnext, ParamSink.marksFrom_other hc]

theorem length_markedQuestions (d : Dialect) (sql : String) :
    (markedQuestions d sql).length = questionMarks sql :=
  length_questionStretches d [] sql.toList

/-! ## The three scans -/

theorem map_placeholderText {d : Dialect} {values : List (String × Value)} {names : List String}
    {literals : List Value} (h : names.map (Entries.get? values) = literals.map some) :
    (names.map fun name => String.ofList (placeholderText d values name.toList)) =
      literals.map (literal d) := by
  induction names generalizing literals with
  | nil =>
    obtain rfl : literals = [] := List.map_eq_nil_iff.1 h.symm
    rfl
  | cons name names ih =>
    cases literals with
    | nil => cases h
    | cons v literals =>
      obtain ⟨hvalue, hrest⟩ := List.cons.inj h
      rw [List.map_cons, List.map_cons, ih hrest, placeholderText, String.ofList_toList, hvalue]
      exact congrArg (· :: _) String.ofList_toList

theorem inlined_eq_rewritten (d : Dialect) (s : Statement) : s.inlined d =
    rewritten s.sql (placeholderStretches s.sql) ((placeholders s.sql).map fun name =>
      String.ofList (placeholderText d s.named name.toList)) := by
  rw [(rewritten_eq_written (List.length_map _)).1, ← String.toList_inj, Statement.toList_inlined,
    String.toList_ofList, filled_eq_written, List.map_map]
  refine congrArg (written · _) (List.map_congr_left fun name _ => ?_)
  exact String.toList_ofList.symm

theorem rewritten_placeholders (sql : String) :
    rewritten sql (placeholderStretches sql) ((placeholders sql).map (":" ++ ·)) = sql := by
  have htexts : ((placeholders sql).map (":" ++ ·)).map String.toList =
      ((tokens sql.toList).filterMap Token.name?).map fun name => ':' :: name.toList := by
    rw [List.map_map, placeholders]
    exact List.map_congr_left fun name _ => String.toList_append
  rw [(rewritten_eq_written (List.length_map _)).1, htexts, ← filled_eq_written, filled_tokens,
    String.ofList_toList]

/-- A fragment is written with placeholders for the question marks where the scan for positional
marks stands outside quotes, as long as it has a value for each. -/
theorem expandRaw_eq_rewritten (d : Dialect) {sql : String} {own : List Value} {s : ParamSink}
    (h : ParamSink.Fits (markedQuestions d sql).length own s.pending) :
    ∃ new t, ParamSink.expandRaw sql own s = .ok
        (rewritten sql (markedQuestions d sql) (new.map Parameter.placeholder)) t ∧
      new.length = (markedQuestions d sql).length ∧ s.Gains new t := by
  rw [length_markedQuestions] at h ⊢
  obtain ⟨new, t, hrun, hserves⟩ := ParamSink.expandRaw_of_fits h
  have hmarks := replaceMarks_eq d [] sql.toList (new.map Parameter.placeholder)
  refine ⟨new, t, ?_, ?_, hserves.toGains⟩
  · rw [hrun]
    exact congrArg (fun cs => EStateM.Result.ok (String.ofList cs) t) hmarks
  · have hlength := congrArg List.length hserves.values
    rw [List.length_map, List.length_take, Nat.min_eq_left h.2] at hlength
    exact hlength

/-- All scans of a text go by the same places: the positional form and the text with literals have
marks and literals where the placeholders stand, so that each is the other one with these exchanged,
and a raw fragment gets placeholders at the question marks where the first scan stands outside
quotes. -/
theorem scans_agree (d : Dialect) (sql : String) :
    -- the places and the names of the placeholders
    rewritten sql (placeholderStretches sql) ((placeholders sql).map (":" ++ ·)) = sql ∧
    (placeholderStretches sql).map Stretch.length =
      (placeholders sql).map (fun name => (":" ++ name).length) ∧
    -- the positional form
    toPositional d sql =
      (rewritten sql (placeholderStretches sql) (marksFor d sql), (placeholders sql).length) ∧
    marksFor .postgres sql =
      (List.range (placeholders sql).length).map (fun k => "$" ++ toString (k + 1)) ∧
    rewritten (toPositional d sql).1 (markStretches d sql) (marksFor d sql) =
      (toPositional d sql).1 ∧
    -- the text with literals
    (∀ values bindings, (Statement.mk sql values bindings).inlined d =
      rewritten sql (placeholderStretches sql) ((placeholders sql).map fun name =>
        String.ofList (placeholderText d values name.toList))) ∧
    (∀ values bindings (literals : List Value),
      (placeholders sql).map (Entries.get? values) = literals.map some →
      (Statement.mk sql values bindings).inlined d =
        rewritten (toPositional d sql).1 (markStretches d sql) (literals.map (literal d))) ∧
    -- the text as a raw fragment
    ∀ own (s : ParamSink), if ParamSink.Fits (markedQuestions d sql).length own s.pending
      then ∃ new t, ParamSink.expandRaw sql own s = .ok
          (rewritten sql (markedQuestions d sql) (new.map Parameter.placeholder)) t ∧
        new.length = (markedQuestions d sql).length ∧ s.Gains new t
      else ∃ e t, ParamSink.expandRaw sql own s = .error e t := by
  have hlength : (marksFor d sql).length = (placeholders sql).length := by
    rw [marksFor, List.length_map, List.length_range]
  have hmarks := rewritten_eq_written hlength
  have hpositional := toPositional_eq_written d sql
  refine ⟨rewritten_placeholders sql, lengths_stretchesFrom _ _, ?_, rfl, ?_,
    fun values bindings => inlined_eq_rewritten d _, ?_, ?_⟩
  · rw [hmarks.1, ← hpositional, ← toPositional_snd d sql]
  · rw [hmarks.2 d, hmarks.1, hpositional]
  · intro values bindings literals hvalues
    have hcount : (literals.map (literal d)).length = (placeholders sql).length := by
      simpa using (congrArg List.length hvalues).symm
    rw [(rewritten_eq_written hcount).2 d, inlined_eq_rewritten, map_placeholderText hvalues]
  · intro own s
    split
    · next h => exact expandRaw_eq_rewritten d h
    · next h =>
      rw [length_markedQuestions] at h
      exact ParamSink.expandRaw_of_not_fits h

/-- Casts, doubled quotes and quotes that are never closed. -/
example :
    let sql := "a::int :b1:::_c 'it''s :d ?' ? \"? :e"
    toPositional .postgres sql = ("a::int $1::$2 'it''s :d ?' ? \"? :e", 2) ∧
      placeholders sql = ["b1", "_c"] ∧
      placeholderStretches sql = [⟨7, 3⟩, ⟨12, 3⟩] ∧ markedQuestions .postgres sql = [⟨29, 1⟩] := by
  decide +kernel

end RowMapper.Sql
