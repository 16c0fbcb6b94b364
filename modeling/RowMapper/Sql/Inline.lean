import RowMapper.Sql.Statement

/-! # Statements with their values written in

For logs: each placeholder is replaced by the literal of its value. Such a text
is not meant to be sent.
-/

namespace RowMapper.Sql

/-- The literal of a placeholder, or the placeholder itself when it has no value. -/
def placeholderText (d : Dialect) (values : List (String × Value)) (name : List Char) : List Char :=
  match Entries.get? values (String.ofList name) with
  | some v => (literal d v).toList
  | none => ':' :: name

/-- Replace placeholders by literals. A name that is being read is kept, last character first. -/
def inlineFrom (d : Dialect) (values : List (String × Value)) :
    Option Char → List Char → List Char → List Char
  | _, [], [] => []
  | _, n :: name, [] => placeholderText d values (n :: name).reverse
  | some q, _, c :: cs => c :: inlineFrom d values (if c = q then none else some q) [] cs
  | none, name, c :: cs =>
    if !name.isEmpty && isNameChar c then inlineFrom d values none (c :: name) cs
    else
      (if name.isEmpty then [] else placeholderText d values name.reverse) ++
        (if isQuote c then c :: inlineFrom d values (some c) [] cs
        else if c = ':' then
          match cs with
          | [] => [':']
          | c' :: cs' =>
            if c' = ':' then ':' :: ':' :: inlineFrom d values none [] cs'
            else if isNameStart c' then inlineFrom d values none [c'] cs'
            else ':' :: inlineFrom d values none [] (c' :: cs')
        else c :: inlineFrom d values none [] cs)

def Statement.inlined (d : Dialect) (s : Statement) : String :=
  String.ofList (inlineFrom d s.named none [] s.sql.toList)

end RowMapper.Sql
