import RowMapper.Naming.Irregular
import RowMapper.Text.Pattern
import RowMapper.Text.Pieces

/-! # The singular of an English noun

Irregular and uncountable nouns are looked up. Any other word is changed at its
end by the first rule whose pattern occurs there; the replacement takes over the
letter case of the word.
-/

namespace RowMapper.Naming

open Text

/-- A change at the end of a word; `$0` stands for the match and `$1` for what it captured. -/
structure Rule where
  ending : Pattern
  replacement : String

/-- A rule that captures one of some beginnings and drops the rest of the ending. -/
def Rule.keep (beginnings : Pattern) (tail : Pattern) (replacement : String) : Rule :=
  ⟨.seq [.capture beginnings, tail], replacement⟩

/-- The rules in the order in which they are tried, the most special first. -/
def rules : List Rule :=
  let t := Pattern.text
  let ts := Pattern.texts
  let word := fun (p : Pattern) (tail replacement : String) =>
    Rule.mk (.seq [.boundary, .capture p, t tail]) replacement
  [⟨t "sheep", "$0"⟩,
    ⟨t "pox", "$0"⟩,
    ⟨.seq [t "o", .oneOf ['i', 'u'], t "s"], "$0"⟩,
    ⟨t "measles", "$0"⟩,
    ⟨t "fish", "$0"⟩,
    ⟨t "deer", "$0"⟩,
    ⟨.seq [.noneOf ['a', 'e', 'i', 'o', 'u'], t "ese"], "$0"⟩,
    ⟨.seq [t "pok", .oneOf ['e', 'é'], t "mon"], "$0"⟩,
    ⟨t "men", "man"⟩,
    .keep (t "eau") (.option (t "x")) "$1",
    .keep (t "child") (t "ren") "$1",
    ⟨.seq [.capture (t "pe"), .capture (ts ["rson", "ople"])], "$1rson"⟩,
    .keep (ts ["matr", "append"]) (t "ices") "$1ix",
    .keep (ts ["cod", "mur", "sil", "vert", "ind"]) (t "ices") "$1ex",
    .keep (ts ["alumn", "alg", "vertebr"]) (t "ae") "$1a",
    .keep (ts ["apheli", "hyperbat", "periheli", "asyndet", "noumen", "phenomen", "criteri",
      "organ", "prolegomen", "hedr", "automat"]) (t "a") "$1on",
    .keep (ts ["agend", "addend", "millenni", "dat", "extrem", "bacteri", "desiderat", "strat",
      "candelabr", "errat", "ov", "symposi", "curricul", "quor"]) (t "a") "$1um",
    .keep (ts ["alumn", "syllab", "vir", "radi", "nucle", "fung", "cact", "stimul", "termin",
      "bacill", "foc", "uter", "loc", "strat"]) (ts ["us", "i"]) "$1us",
    .keep (t "test") (ts ["is", "es"]) "$1is",
    .keep (.alt [t "movie", t "twelve", t "abuse", .seq [t "e", .oneOf ['m', 'n'], t "u"]]) (t "s")
      "$1",
    .keep (ts ["analy", "diagno", "parenthe", "progno", "synop", "the", "empha", "cri", "ne"])
      (ts ["sis", "ses"]) "$1sis",
    .keep (.alt [t "x", t "ch", t "ss", t "sh", t "zz", t "tto", t "go", t "cho", t "alias",
        .seq [.noneOf ['a', 'o', 'u'], t "us"], .seq [t "t", .oneOf ['l', 'm'], t "as"], t "gas",
        .seq [ts ["her", "at", "gr"], t "o"],
        .seq [.oneOf ['a', 'e', 'i', 'o', 'u'], t "ris"]])
      (.option (t "es")) "$1",
    .keep (ts ["seraph", "cherub"]) (t "im") "$1",
    word (.alt [.seq [.option (t "tit"), t "m"], t "l"]) "ice" "$1ouse",
    word (ts ["mon", "smil"]) "ies" "$1ey",
    word (.alt [t "l", .seq [.option (ts ["neck", "cross", "hog", "aun"]), t "t"], t "coll",
        t "faer", t "food", t "gen", t "goon", t "group", t "hipp", t "junk", t "vegg",
        .seq [.option (t "pork"), t "p"], t "charl", t "calor", t "cut"])
      "ies" "$1ie",
    .keep (ts ["dg", "ss", "ois", "lk", "ok", "wn", "mb", "th", "ch", "ec", "oal", "is", "ck", "ix",
      "sser", "ts", "wb"]) (t "ies") "$1ie",
    ⟨t "ies", "y"⟩,
    .keep (.alt [t "ar",
        .seq [.alt [t "wo", .oneOf ['a', 'e']], t "l"],
        .seq [.oneOf ['e', 'o'], .oneOf ['a', 'o']]])
      (t "ves") "$1f",
    .keep (.alt [t "wi", t "kni",
        .seq [.alt [t "after", t "half", t "high", t "low", t "mid", t "non", t "night", .nonWord,
          .start], t "li"]])
      (t "ves") "$1fe",
    .keep (t "ss") (.seq []) "$1",
    ⟨t "s", ""⟩]

/-- Give a text the letter case of a word: all small, all capitals, or a capital first. -/
def restoreCase (word text : String) : String :=
  if word = text then text
  else if word = lower word then lower text
  else if word = upper word then upper text
  else if (word.toList.head?.map isCapital).getD false && !text.isEmpty then text
  else lower text

/-- Replace each occurrence of a phrase; the fuel bounds the number of occurrences. -/
def replacePhrase (phrase replacement : List Char) : Nat → List Char → List Char
  | 0, cs => cs
  | fuel + 1, cs => match breakPhrase phrase cs with
    | some (before, after) => before ++ replacement ++ replacePhrase phrase replacement fuel after
    | none => cs

/-- Put the match and its captures, numbered from zero, in the place of their numbers. -/
def fillIn (word : String) : Nat → List (List Char) → List Char → List Char
  | _, [], cs => cs
  | i, part :: parts, cs =>
    let text := (restoreCase word (String.ofList part)).toList
    fillIn word (i + 1) parts (replacePhrase ('$' :: (toString i).toList) text cs.length cs)

def dropDollars : List Char → List Char
  | [] => []
  | '$' :: _ :: cs => dropDollars cs
  | ['$'] => []
  | c :: cs => c :: dropDollars cs

def Rule.changed? (word : String) (r : Rule) : Option String :=
  (r.ending.findAtEnd [] word.toList).map fun m =>
    let text := (restoreCase word r.replacement).toList
    String.ofList (dropDollars (m.before ++ fillIn word 0 (m.whole :: m.captured) text))

/-- The singular of a word, which may turn out empty. -/
def singularForm (word : String) : String :=
  let token := lower word
  if irregulars.any fun (one, _) => one = token then restoreCase word token
  else match irregulars.reverse.find? fun (_, many) => many = token with
    | some (one, _) => restoreCase word one
    | none =>
      if word.isEmpty || uncountables.contains token then word
      else (rules.findSome? (Rule.changed? word)).getD word

/-- The singular of a table name; where nothing is left of it, the name itself. -/
def singular (table : String) : String :=
  let form := singularForm table
  if form.isEmpty then table else form

end RowMapper.Naming
