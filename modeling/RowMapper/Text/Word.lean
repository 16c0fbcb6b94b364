import RowMapper.Text.Case
import RowMapper.Text.WordTable

/-! # Word characters

The characters that words are made of, ASCII and beyond.
-/

namespace RowMapper.Text

def isWordChar (c : Char) : Bool :=
  if c.toNat < 128 then c.isAlphanum || c = '_' else inRanges WordTable.wordRanges c.toNat

end RowMapper.Text
