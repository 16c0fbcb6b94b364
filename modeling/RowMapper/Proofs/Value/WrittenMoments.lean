import RowMapper.Proofs.Value.CanonicalForms

/-! # Displayed dates and times read back

A date, a time of day or a timestamp in whole seconds, displayed and assigned as a text to a
column of its kind, is stored as it was. The formats are tried one after another, so it is
shown that none takes the text for something else before its own one reads it: no offset is
displayed, a displayed date has nothing for the formats that go on with a time, and where the
formats with points need one a written year has a digit or begins with a sign.
-/

namespace RowMapper

namespace Calendar

open Text Decimal

/-! ## Texts without an offset -/

variable {α : Type} {width n : Nat} {q : Parts}

theorem readExactly_padded (hwidth : 0 < width) (h : n < 10 ^ width) (rest : List Char) :
    readExactly width (padded width n ++ rest) = some (n, rest) := by
  have hlength := length_padded hwidth h
  have hdigits : (padded width n).all Char.isDigit = true :=
    List.all_eq_true.2 fun _ hc => isDigit_of_mem_padded hc
  unfold readExactly
  dsimp only
  rw [List.take_left' hlength, List.drop_left' hlength, hlength, hdigits, foldDigits_padded]
  simp

/-- After a number of the right width the reading goes on with the rest. -/
theorem bind_readExactly (hwidth : 0 < width) (h : n < 10 ^ width) (rest : List Char)
    (f : Nat × List Char → Option α) :
    (readExactly width (padded width n ++ rest) >>= f) = f (n, rest) := by
  rw [readExactly_padded hwidth h]
  rfl

theorem bind_readChar (c : Char) (rest : List Char) (f : List Char → Option α) :
    (readChar c (c :: rest) >>= f) = f rest := by
  simp [readChar]

theorem readRfc3339_cons {c : Char} (h : c.isDigit = false) (cs : List Char) :
    readRfc3339 (c :: cs) = none := by
  have hread : readExactly 4 (c :: cs) = none := by simp [readExactly, h]
  rw [readRfc3339, hread]
  rfl

theorem writeItems_isoDate (q : Parts) : writeItems isoDate q =
    yearChars q.year ++ '-' :: (padded 2 q.month ++ '-' :: padded 2 q.day) := by
  simp [writeItems, isoDate, PatternItem.write]

theorem writeItems_clock (q : Parts) : writeItems clock q =
    padded 2 q.hour ++ ':' :: (padded 2 q.minute ++ ':' :: padded 2 q.second) := by
  simp [writeItems, clock, hourMinute, PatternItem.write]

theorem writeItems_timestampPattern (q : Parts) : writeItems timestampPattern q =
    writeItems isoDate q ++ ' ' :: writeItems clock q := by
  simp [writeItems, timestampPattern, PatternItem.write]

/-- A year is written with four digits, or begins with a sign. -/
theorem yearChars_cases (year : Int) :
    (year.toNat < 10 ^ 4 ∧ yearChars year = padded 4 year.toNat) ∨
      ∃ c cs, yearChars year = c :: cs ∧ c.isDigit = false ∧ isBlank c = false := by
  unfold yearChars
  split
  · exact .inl ⟨by omega, rfl⟩
  · exact .inr ⟨_, _, rfl, by split <;> decide, by split <;> decide⟩

theorem readRfc3339_isoDate (hq : q.Fits) : readRfc3339 (writeItems isoDate q) = none := by
  rw [writeItems_isoDate]
  rcases yearChars_cases q.year with ⟨hyear, htext⟩ | ⟨c, cs, htext, hc, -⟩
  · rw [htext, readRfc3339, ← List.append_nil (padded 2 q.day)]
    refine (bind_readExactly (by decide) hyear _ _).trans ?_
    refine (bind_readChar '-' _ _).trans ?_
    refine (bind_readExactly (by decide) hq.month _ _).trans ?_
    refine (bind_readChar '-' _ _).trans ?_
    exact bind_readExactly (by decide) hq.day _ _
  · rw [htext]
    exact readRfc3339_cons hc _

/-- A date with a time alone has no offset. -/
theorem readRfc3339_timestampPattern (hq : q.Fits) :
    readRfc3339 (writeItems timestampPattern q) = none := by
  rw [writeItems_timestampPattern, writeItems_isoDate, writeItems_clock]
  rcases yearChars_cases q.year with ⟨hyear, htext⟩ | ⟨c, cs, htext, hc, -⟩
  · rw [htext, readRfc3339, ← List.append_nil (padded 2 q.second)]
    simp only [List.append_assoc, List.cons_append]
    refine (bind_readExactly (by decide) hyear _ _).trans ?_
    refine (bind_readChar '-' _ _).trans ?_
    refine (bind_readExactly (by decide) hq.month _ _).trans ?_
    refine (bind_readChar '-' _ _).trans ?_
    refine (bind_readExactly (by decide) hq.day _ _).trans ?_
    -- A space may stand between the date and the time.
    dsimp only
    refine (Option.bind_some _ _).trans ?_
    refine (bind_readExactly (by decide) hq.hour _ _).trans ?_
    refine (bind_readChar ':' _ _).trans ?_
    refine (bind_readExactly (by decide) hq.minute _ _).trans ?_
    refine (bind_readChar ':' _ _).trans ?_
    exact bind_readExactly (by decide) hq.second _ _
  · rw [htext]
    exact readRfc3339_cons hc _

/-! ## Dates that are taken for nothing else -/

/-- A format that begins with a day and a point reads no text that begins with a year. -/
theorem readItems_day_yearChars (year : Int) (rest : List Char) (more : List PatternItem)
    (p : Parts) : readItems (.day :: .literal '.' :: more) p (yearChars year ++ rest) = none := by
  have hday (cs : List Char) (h : cs.dropWhile isBlank = cs) :
      readItems (.day :: .literal '.' :: more) p cs = (readDigits 2 cs).bind fun read =>
        readItems (.literal '.' :: more) { p with day := read.1 } read.2 := by
    simp only [readItems, PatternItem.read, h, Option.bind_map]
    rfl
  rcases yearChars_cases year with ⟨hyear, htext⟩ | ⟨c, cs, htext, hdigit, hblank⟩
  · obtain ⟨a, b, c, d, hpadded⟩ : ∃ a b c d, padded 4 year.toNat = [a, b, c, d] :=
      List.length_eq_four.1 (length_padded (by decide) hyear)
    have hdigit : ∀ x ∈ [a, b, c, d], x.isDigit = true := fun x hx =>
      isDigit_of_mem_padded (hpadded ▸ hx)
    have hpoint : c ≠ '.' := by
      rintro rfl
      exact absurd (hdigit '.' (by simp)) (by decide)
    rw [htext, hday _ (dropWhile_padded 4 _ rest), hpadded]
    simp [readDigits, hdigit, readItems, PatternItem.read, hpoint]
  · rw [htext, List.cons_append, hday _ (List.dropWhile_cons_of_neg (by simp [hblank]))]
    simp [readDigits, hdigit]

/-! ## Times and dates as numbers -/

theorem TimeOfDay.ofParts?_self (t : TimeOfDay) :
    ofParts? t.hour t.minute t.second t.nano = some t := by
  simp [ofParts?, t.hour_lt, t.minute_lt, t.second_lt, t.nano_lt]

/-- The hour, the minute and the second of a time in whole seconds give the time. -/
theorem Parts.time?_of_wholeSecond {p : Parts} {t : TimeOfDay} (ht : t.nano = 0)
    (hhour : p.hour = t.hour) (hminute : p.minute = t.minute) (hsecond : p.second = t.second)
    (hnano : p.nano = 0) : p.time? = some t := by
  have hleap : t.second ≠ 60 := Nat.ne_of_lt t.second_lt
  rw [time?, hsecond, if_neg hleap, hhour, hminute, hnano, ← ht, t.ofParts?_self]

theorem TimeOfDay.toList_text {t : TimeOfDay} (ht : t.nano = 0) :
    t.text.toList = writeItems clock (Parts.ofDateTime .epoch t) := by
  have hnano : (Parts.ofDateTime .epoch t).nano = 0 := by simp [Parts.ofDateTime, ht]
  rw [text, String.toList_ofList, writeItems, List.flatMap_append]
  simp [writeItems, PatternItem.write, fractionChars, hnano]

theorem readItems_clock_text {t : TimeOfDay} (ht : t.nano = 0) :
    (readItems clock {} t.text.toList).bind Parts.time? = some t := by
  rw [TimeOfDay.toList_text ht, readItems_writeItems clock (by decide) (Parts.fits_ofDateTime _ t),
    Option.bind_some]
  refine Parts.time?_of_wholeSecond ht ?_ ?_ ?_ ?_ <;>
    simp [clock, hourMinute, PatternItem.copy, Parts.ofDateTime, ht]

/-- The format of a displayed timestamp reads it, if it is in whole seconds. -/
theorem readItems_timestampPattern_text {t : Timestamp} (ht : t.time.nano = 0) :
    (readItems timestampPattern {} t.text.toList).bind Parts.timestamp? = some t := by
  rw [Timestamp.text, String.toList_ofList,
    readItems_writeItems timestampPattern (by decide) (Parts.fits_ofDateTime t.date t.time),
    Option.bind_some]
  have hdate (p : Parts) (hyear : p.year = t.date.year) (hmonth : p.month = t.date.month)
      (hday : p.day = t.date.day) : p.date? = some t.date := by
    rw [Parts.date?, hyear, hmonth, hday, Date.ofYmd?_self]
  simp only [Parts.timestamp?]
  rw [hdate, Parts.time?_of_wholeSecond ht]
  · rfl
  all_goals
    simp [timestampPattern, isoDate, clock, hourMinute, PatternItem.copy, Parts.ofDateTime, ht]

theorem readItems_isoDate_text (d : Date) :
    (readItems isoDate {} d.text.toList).bind Parts.date? = some d := by
  rw [Date.text, String.toList_ofList,
    readItems_writeItems isoDate (by decide) (Parts.fits_ofDateTime d _), Option.bind_some]
  exact Date.ofYmd?_self d

end Calendar

namespace Value

open Text Decimal Calendar

/-! ## What is read of a displayed value -/

def afterIsoDate : List (List PatternItem) :=
  [.space :: clock, .literal 'T' :: clock, .space :: clock ++ [.fraction],
    .literal 'T' :: clock ++ [.fraction], .space :: hourMinute, .literal 'T' :: hourMinute]

/-- The formats with a time begin with a displayed date, or with a day and a point. -/
theorem mem_timestampPatterns {p : List PatternItem} (h : p ∈ timestampPatterns) :
    (∃ more ∈ afterIsoDate, p = isoDate ++ more) ∨ ∃ more, p = .day :: .literal '.' :: more := by
  have hlist : timestampPatterns = afterIsoDate.map (isoDate ++ ·) ++
      [clock, hourMinute].map fun time =>
        .day :: .literal '.' :: .month :: .literal '.' :: .year :: .space :: time := by
    decide
  rw [hlist, List.mem_append, List.mem_map, List.mem_map] at h
  rcases h with ⟨more, hmore, rfl⟩ | ⟨time, -, rfl⟩
  · exact .inl ⟨more, hmore, rfl⟩
  · exact .inr ⟨_, rfl⟩

theorem readItems_afterIsoDate {more : List PatternItem} (h : more ∈ afterIsoDate) (p : Parts) :
    readItems more p [] = none := by
  simp only [afterIsoDate, List.mem_cons, List.not_mem_nil, or_false] at h
  rcases h with rfl | rfl | rfl | rfl | rfl | rfl <;> rfl

/-- No format with a time reads a date alone. -/
theorem findSome?_timestampPatterns_isoDate {q : Parts} (hq : q.Fits) :
    (timestampPatterns.findSome? fun p =>
      (readItems p {} (writeItems isoDate q)).bind Parts.timestamp?) = none := by
  rw [List.findSome?_eq_none_iff]
  intro p hp
  rcases mem_timestampPatterns hp with ⟨more, hmore, rfl⟩ | ⟨more, rfl⟩
  · rw [readItems_append_writeItems isoDate (by decide) more hq, readItems_afterIsoDate hmore,
      Option.bind_none]
  · rw [writeItems_isoDate, readItems_day_yearChars, Option.bind_none]

/-- A text with a hyphen and without an offset is read by the formats in order. -/
theorem readTimestamp_of_hyphen {cs : List Char} (hhyphen : '-' ∈ cs)
    (hoffset : readRfc3339 cs = none) : readTimestamp cs =
      match timestampPatterns.findSome? fun p => (readItems p {} cs).bind Parts.timestamp? with
      | some t => some t.wholeSecond
      | none => (datePatterns.findSome? fun p => (readItems p {} cs).bind Parts.date?).map
          Timestamp.atMidnight := by
  have hempty : cs.isEmpty = false := List.isEmpty_eq_false_iff.2 (List.ne_nil_of_mem hhyphen)
  have hdigits : cs.all Char.isDigit = false := List.all_eq_false.2 ⟨'-', hhyphen, by decide⟩
  rw [readTimestamp, hempty, hdigits, hoffset]
  rfl

theorem readTimestamp_timestamp_text {t : Timestamp} (ht : t.time.nano = 0) :
    readTimestamp t.text.toList = some t := by
  have htext : t.text.toList = writeItems timestampPattern (Parts.ofDateTime t.date t.time) :=
    String.toList_ofList
  have hhyphen : '-' ∈ t.text.toList := by
    simp [htext, writeItems_timestampPattern, writeItems_isoDate]
  have hoffset : readRfc3339 t.text.toList = none := by
    rw [htext]
    exact readRfc3339_timestampPattern (Parts.fits_ofDateTime t.date t.time)
  have hfirst : (timestampPatterns.findSome? fun p =>
      (readItems p {} t.text.toList).bind Parts.timestamp?) = some t := by
    rw [show timestampPatterns = timestampPattern :: timestampPatterns.tail from rfl,
      List.findSome?_cons, readItems_timestampPattern_text ht]
  rw [readTimestamp_of_hyphen hhyphen hoffset, hfirst]
  simp [Timestamp.wholeSecond, TimeOfDay.wholeSecond_eq ht]

theorem readTimestamp_date_text (d : Date) :
    readTimestamp d.text.toList = some (Timestamp.atMidnight d) := by
  have htext : d.text.toList = writeItems isoDate (Parts.ofDateTime d .midnight) :=
    String.toList_ofList
  have hfits := Parts.fits_ofDateTime d .midnight
  have hhyphen : '-' ∈ d.text.toList := by simp [htext, writeItems_isoDate]
  have hoffset : readRfc3339 d.text.toList = none := by
    rw [htext]
    exact readRfc3339_isoDate hfits
  have hnone : (timestampPatterns.findSome? fun p =>
      (readItems p {} d.text.toList).bind Parts.timestamp?) = none := by
    rw [htext]
    exact findSome?_timestampPatterns_isoDate hfits
  have hfirst : (datePatterns.findSome? fun p =>
      (readItems p {} d.text.toList).bind Parts.date?) = some d := by
    rw [datePatterns, List.findSome?_cons, readItems_isoDate_text]
  rw [readTimestamp_of_hyphen hhyphen hoffset, hnone, hfirst]
  rfl

/-! ## Texts of columns -/

theorem isBlank_of_mem_padded {c : Char} {width n : Nat} (h : c ∈ padded width n) :
    isBlank c = false :=
  isBlank_of_isDigit (isDigit_of_mem_padded h)

theorem isBlank_of_mem_isoDate {c : Char} {q : Parts} (h : c ∈ writeItems isoDate q) :
    isBlank c = false := by
  rw [writeItems_isoDate] at h
  simp only [List.mem_append, List.mem_cons] at h
  rcases h with h | rfl | h | rfl | h
  · unfold yearChars at h
    split at h
    · exact isBlank_of_mem_padded h
    · rcases List.mem_cons.1 h with rfl | h
      · split <;> decide
      · exact isBlank_of_mem_padded h
  · decide
  · exact isBlank_of_mem_padded h
  · decide
  · exact isBlank_of_mem_padded h

theorem isBlank_of_mem_clock {c : Char} {q : Parts} (h : c ∈ writeItems clock q) :
    isBlank c = false := by
  rw [writeItems_clock] at h
  simp only [List.mem_append, List.mem_cons] at h
  rcases h with h | rfl | h | rfl | h
  · exact isBlank_of_mem_padded h
  · decide
  · exact isBlank_of_mem_padded h
  · decide
  · exact isBlank_of_mem_padded h

theorem trimChars_between {first last : List Char} (hfirst : first ≠ []) (hlast : last ≠ [])
    (h : ∀ c ∈ first ++ last, isBlank c = false) (blanks : List Char) :
    trimChars (first ++ blanks ++ last) = first ++ blanks ++ last := by
  have hdrop {cs : List Char} (hcs : cs ≠ []) (hblank : ∀ c ∈ cs, isBlank c = false)
      (rest : List Char) : (cs ++ rest).dropWhile isBlank = cs ++ rest := by
    cases cs with
    | nil => exact absurd rfl hcs
    | cons c cs => exact List.dropWhile_cons_of_neg (by simp [hblank c List.mem_cons_self])
  have hback : ∀ c ∈ last.reverse, isBlank c = false := fun c hc =>
    h c (List.mem_append_right _ (List.mem_reverse.1 hc))
  rw [trimChars, List.append_assoc,
    hdrop hfirst fun c hc => h c (List.mem_append_left _ hc), ← List.append_assoc,
    List.reverse_append, hdrop (List.reverse_ne_nil_iff.2 hlast) hback, ← List.reverse_append,
    List.reverse_reverse]

theorem trimChars_timestamp_text (t : Timestamp) : trimChars t.text.toList = t.text.toList := by
  rw [Timestamp.text, String.toList_ofList, writeItems_timestampPattern, ← List.singleton_append,
    ← List.append_assoc]
  refine trimChars_between (by simp [writeItems_isoDate]) (by simp [writeItems_clock]) ?_ [' ']
  intro c hc
  exact (List.mem_append.1 hc).elim isBlank_of_mem_isoDate isBlank_of_mem_clock

theorem trimChars_date_text (d : Date) : trimChars d.text.toList = d.text.toList := by
  rw [Date.text, String.toList_ofList]
  exact trimChars_eq_self fun _ => isBlank_of_mem_isoDate

/-- The request for the current time has letters and parentheses only. -/
theorem isNow_eq_false_of_mem {s : String} {c : Char} (hc : c ∈ trimChars s.toList)
    (hlower : c.toLower ∉ (lowerAscii now).toList) : (text s).isNow = false := by
  by_contra hnow
  rw [Bool.not_eq_false, isNow, sameIgnoringAsciiCase, beq_iff_eq, lowerAscii, toList_trim] at hnow
  refine hlower ?_
  rw [← hnow, String.toList_ofList]
  exact List.mem_map_of_mem hc

/-- The dates, times of day and timestamps in whole seconds, each for the columns of its family. -/
inductive IsMoment : TypeFamily → Value → Prop
  | timestamp {t : Timestamp} (h : t.time.nano = 0) : IsMoment .dateTime (.timestamp t)
  | date (d : Date) : IsMoment .date (.date d)
  | time {t : TimeOfDay} (h : t.nano = 0) : IsMoment .time (.time t)

variable {type : SqlType} {v : Value}

/-- A column of dates, times or timestamps takes the displayed text of a date, a time or a timestamp
in whole seconds for the value that is displayed, and that text is also its JSON form. -/
theorem coerce_display (h : IsMoment type.family v) (filter : ImportFilter) :
    coerce type filter (.text v.display) = v ∧ v.toJson = .str v.display := by
  generalize hfamily : type.family = family at h
  cases h with
  | @timestamp t ht =>
    have hhyphen : '-' ∈ trimChars t.text.toList := by
      rw [trimChars_timestamp_text, Timestamp.text, String.toList_ofList]
      simp [writeItems_timestampPattern, writeItems_isoDate]
    have hread : (text t.text).toTimestamp? = some t := by
      rw [toTimestamp?, trimChars_timestamp_text, readTimestamp_timestamp_text ht]
    have hnow := isNow_eq_false_of_mem hhyphen (by decide)
    simp [coerce, isNull, display, toJson, hnow, hfamily, hread]
  | date d =>
    have hhyphen : '-' ∈ trimChars d.text.toList := by
      rw [trimChars_date_text, Date.text, String.toList_ofList]
      simp [writeItems_isoDate]
    have hread : (text d.text).toTimestamp? = some (Timestamp.atMidnight d) := by
      rw [toTimestamp?, trimChars_date_text, readTimestamp_date_text]
    have hnow := isNow_eq_false_of_mem hhyphen (by decide)
    simp [coerce, isNull, display, toJson, hnow, hfamily, hread, Timestamp.atMidnight]
  | @time t ht =>
    have htext := TimeOfDay.toList_text ht
    have htrim : trimChars t.text.toList = t.text.toList := by
      rw [htext]
      exact trimChars_eq_self fun _ => isBlank_of_mem_clock
    have hcolon : ':' ∈ trimChars t.text.toList := by
      rw [htrim, htext]
      simp [writeItems_clock]
    have hread : (text t.text).toTime? = some t := by
      simp only [toTime?, htrim, readItems_clock_text ht]
    have hnow := isNow_eq_false_of_mem hcolon (by decide)
    simp [coerce, isNull, display, toJson, hnow, hfamily, hread]

def firstMoment : Timestamp :=
  { date := { year := -262143, month := 1, day := 1 }, time := .midnight }

def lastDate : Date := { year := 262142, month := 12, day := 31 }

def lastSecond : TimeOfDay := (TimeOfDay.ofParts? 23 59 59 0).getD .midnight

/-- The ends of the three ranges, read back from their texts. -/
theorem ends_read_back :
    (IsMoment SqlType.timestamp.family (.timestamp firstMoment) ∧
      coerce .timestamp .passThrough (.text "-262143-01-01 00:00:00") = .timestamp firstMoment) ∧
    (IsMoment SqlType.date.family (.date lastDate) ∧
      coerce .date .passThrough (.text "+262142-12-31") = .date lastDate) ∧
    IsMoment SqlType.time.family (.time lastSecond) ∧
      coerce .time .passThrough (.text "23:59:59") = .time lastSecond := by
  have hmoment : IsMoment SqlType.timestamp.family (.timestamp firstMoment) := .timestamp rfl
  have hdate : IsMoment SqlType.date.family (.date lastDate) := .date lastDate
  have hsecond : IsMoment SqlType.time.family (.time lastSecond) := .time rfl
  have htexts : (timestamp firstMoment).display = "-262143-01-01 00:00:00" ∧
      (date lastDate).display = "+262142-12-31" ∧ (time lastSecond).display = "23:59:59" := by
    decide +kernel
  rw [← htexts.1, ← htexts.2.1, ← htexts.2.2]
  exact ⟨⟨hmoment, (coerce_display hmoment .passThrough).1⟩,
    ⟨hdate, (coerce_display hdate .passThrough).1⟩,
    hsecond, (coerce_display hsecond .passThrough).1⟩

end Value

end RowMapper
