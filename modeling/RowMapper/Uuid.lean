import RowMapper.Text.Hex

/-! # UUIDs

A UUID is 128 bits, written as 32 hexadecimal digits in five groups. Reading
also takes the digits without hyphens, the groups in braces, and the groups
after `urn:uuid:`, with digits of either case.
-/

namespace RowMapper

structure Uuid where
  bits : BitVec 128
  deriving DecidableEq

namespace Uuid

/-- The hexadecimal digits of a number, exactly as many as asked for. -/
def hexChars (n : Nat) : Nat → List Char
  | 0 => []
  | count + 1 => hexChars (n / 16) count ++ [Text.hexDigit (n % 16)]

def text (u : Uuid) : String :=
  let cs := hexChars u.bits.toNat 32
  String.ofList (cs.take 8 ++ '-' :: (cs.drop 8).take 4 ++ '-' :: (cs.drop 12).take 4 ++
    '-' :: (cs.drop 16).take 4 ++ '-' :: cs.drop 20)

def readPlain (cs : List Char) : Option Uuid :=
  if cs.length = 32 then (Text.hexNumber cs).map fun n => ⟨BitVec.ofNat 128 n⟩ else none

def readGroups (cs : List Char) : Option Uuid :=
  if cs.length = 36 && [8, 13, 18, 23].all fun i => cs[i]? = some '-' then
    readPlain (cs.take 8 ++ (cs.drop 9).take 4 ++ (cs.drop 14).take 4 ++ (cs.drop 19).take 4 ++
      cs.drop 24)
  else none

/-- Read a UUID in any of its forms. -/
def parse? (s : String) : Option Uuid :=
  let cs := s.toList
  if cs.length = 32 then readPlain cs
  else if cs.length = 36 then readGroups cs
  else if cs.length = 38 && cs.head? = some '\x7b' && cs.getLast? = some '\x7d' then
    readGroups ((cs.drop 1).take 36)
  else if cs.length = 45 && cs.take 9 = "urn:uuid:".toList then readGroups (cs.drop 9)
  else none

end Uuid

end RowMapper
