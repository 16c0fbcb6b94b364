import RowMapper.Text.Hex
import RowMapper.Text.Pieces

/-! # Percent encoding

Characters that may not stand in a part of a URL are written as the bytes of
their UTF-8 form, each after a percent sign. Which characters those are differs
from part to part. Decoding takes any byte and repairs what is no UTF-8.
-/

namespace RowMapper.Url

/-- The characters encoded everywhere: controls and all that is not ASCII. -/
def isControl (c : Char) : Bool := c.toNat < 0x20 || 0x7E < c.toNat

def encodedInPath (c : Char) : Bool :=
  isControl c || c ∈ [' ', '"', '<', '>', '\x60', '#', '?', '\x7b', '\x7d']

def encodedInUserInfo (c : Char) : Bool :=
  encodedInPath c || c ∈ ['/', ':', ';', '=', '@', '[', '\\', ']', '^', '|']

def percentByte (b : UInt8) : List Char :=
  ['%', Text.upperHexDigit (b.toNat / 16), Text.upperHexDigit (b.toNat % 16)]

def encodeChar (encoded : Char → Bool) (c : Char) : List Char :=
  if encoded c then (String.utf8EncodeChar c).flatMap percentByte else [c]

/-- The bytes of a text in which `%xx` stands for a byte; any other percent sign stands for itself. -/
def percentDecode : List Char → List UInt8
  | [] => []
  | '%' :: a :: b :: cs =>
    match Text.hexValue a, Text.hexValue b with
    | some x, some y => UInt8.ofNat (x * 16 + y) :: percentDecode cs
    | _, _ => '%'.toNat.toUInt8 :: percentDecode (a :: b :: cs)
  | c :: cs => String.utf8EncodeChar c ++ percentDecode cs

/-- An unfinished UTF-8 sequence: how many bytes are missing and the range of the next one. -/
structure Pending where
  missing : Nat
  value : Nat
  low : Nat
  high : Nat

/-- What a byte starts: a character, a longer sequence, or nothing. -/
inductive Lead where
  | char (c : Char)
  | pending (p : Pending)
  | bad

def lead (b : UInt8) : Lead :=
  let n := b.toNat
  if n < 0x80 then .char (Char.ofNat n)
  else if 0xC2 ≤ n ∧ n ≤ 0xDF then .pending ⟨1, n - 0xC0, 0x80, 0xBF⟩
  else if 0xE0 ≤ n ∧ n ≤ 0xEF then
    .pending ⟨2, n - 0xE0, if n = 0xE0 then 0xA0 else 0x80, if n = 0xED then 0x9F else 0xBF⟩
  else if 0xF0 ≤ n ∧ n ≤ 0xF4 then
    .pending ⟨3, n - 0xF0, if n = 0xF0 then 0x90 else 0x80, if n = 0xF4 then 0x8F else 0xBF⟩
  else .bad

def replacement : Char := Char.ofNat 0xFFFD

/-- Decode UTF-8; each maximal broken sequence becomes one replacement character. -/
def decodeUtf8From : Option Pending → List UInt8 → List Char
  | none, [] => []
  | some _, [] => [replacement]
  | state, b :: bs =>
    let begin := fun (_ : Unit) => match lead b with
      | .char c => c :: decodeUtf8From none bs
      | .pending p => decodeUtf8From (some p) bs
      | .bad => replacement :: decodeUtf8From none bs
    match state with
    | none => begin ()
    | some p =>
      if p.low ≤ b.toNat ∧ b.toNat ≤ p.high then
        let value := p.value * 64 + (b.toNat - 0x80)
        if p.missing ≤ 1 then Char.ofNat value :: decodeUtf8From none bs
        else decodeUtf8From (some ⟨p.missing - 1, value, 0x80, 0xBF⟩) bs
      else replacement :: begin ()

/-- The text of a form value: a plus sign is a space and `%xx` a byte. -/
def decodeFormValue (cs : List Char) : String :=
  String.ofList (decodeUtf8From none (percentDecode (cs.map fun c => if c = '+' then ' ' else c)))

/-- The pairs of a query: between ampersands, up to and after the first equals sign. -/
def queryPairs (query : List Char) : List (String × String) :=
  ((Text.splitChars '&' query).filter fun piece => !piece.isEmpty).map fun piece =>
    let name := piece.takeWhile (· != '=')
    (decodeFormValue name, decodeFormValue ((piece.drop name.length).drop 1))

end RowMapper.Url
