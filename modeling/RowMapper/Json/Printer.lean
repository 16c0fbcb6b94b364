import RowMapper.Json.Basic
import RowMapper.Text.Hex

/-! # Compact JSON text

Values are written without blanks. Quotes, backslashes and control characters
are escaped, all other characters stand for themselves.
-/

namespace RowMapper.Json

open Decimal

def escapeChar (c : Char) : List Char :=
  match c with
  | '"' => ['\\', '"']
  | '\\' => ['\\', '\\']
  | '\x08' => ['\\', 'b']
  | '\t' => ['\\', 't']
  | '\n' => ['\\', 'n']
  | '\x0c' => ['\\', 'f']
  | '\r' => ['\\', 'r']
  | c =>
    if c.toNat < 0x20 then
      ['\\', 'u', '0', '0', Text.hexDigit (c.toNat / 16), Text.hexDigit (c.toNat % 16)]
    else [c]

def quoted (s : String) : String :=
  "\"" ++ String.ofList (s.toList.flatMap escapeChar) ++ "\""

/-- Digits with a point after the first one and a signed exponent. -/
def scientific (d : Digits) : String :=
  let cs := (digitText d.digits).toList
  let exponent := d.exponent + cs.length - 1
  let tail := cs.drop 1
  String.ofList (cs.take 1) ++ (if tail.isEmpty then "" else "." ++ String.ofList tail) ++ "e" ++
    (if exponent < 0 then "-" else "+") ++ digitText exponent.natAbs

/-- A finite double: at least one place, and an exponent outside the range from `-5` to `15`. -/
def floatText (x : Float) : String :=
  match shape x with
  | .finite d =>
    let body :=
      if d.mantissa = 0 then "0.0"
      else
        let digits := shortest d.mantissa d.exponent
        let leading := digits.exponent + (digitText digits.digits).length - 1
        if -5 ≤ leading && leading ≤ 15 then
          digits.positional ++ (if 0 ≤ digits.exponent then ".0" else "")
        else scientific digits
    (if d.negative then "-" else "") ++ body
  | _ => "null"

mutual
def render : Json → String
  | .null => "null"
  | .bool b => if b then "true" else "false"
  | .int n => toString n
  | .float x => floatText x
  | .str s => quoted s
  | .arr items => "[" ++ renderItems items ++ "]"
  | .obj members => "\x7b" ++ renderMembers members ++ "\x7d"
def renderItems : List Json → String
  | [] => ""
  | [v] => render v
  | v :: w :: rest => render v ++ "," ++ renderItems (w :: rest)
def renderMembers : List (String × Json) → String
  | [] => ""
  | [(k, v)] => quoted k ++ ":" ++ render v
  | (k, v) :: m :: rest => quoted k ++ ":" ++ render v ++ "," ++ renderMembers (m :: rest)
end

end RowMapper.Json
