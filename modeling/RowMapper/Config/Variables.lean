import RowMapper.Config.Basic

/-! # Configuration from variables

`DB_URL` configures the default connection and `DB_NAME_URL` the connection
`name`. `DB_PREFIX` and `DB_NAME_PREFIX` set the table prefix.
-/

namespace RowMapper.DatabaseConfig

open Text

/-- The text before an ending, if the text has that ending. -/
def dropEnding? (ending : String) (cs : List Char) : Option (List Char) :=
  if ending.toList.isSuffixOf cs then some (cs.take (cs.length - ending.length)) else none

def connectionOfVariable (key : String) : Option String :=
  if "DB_".toList.isPrefixOf key.toList then
    match dropEnding? "URL" (key.toList.drop 3) with
    | none => none
    | some [] => some defaultConnection
    | some name => match dropEnding? "_" name with
      | some (c :: cs) => some (lower (String.ofList (c :: cs)))
      | _ => none
  else none

def prefixVariable (name : String) : String :=
  if name = defaultConnection then "DB_PREFIX" else "DB_" ++ upper name ++ "_PREFIX"

def addVariable (all : Entries String) (config : DatabaseConfig) (key value : String) :
    Except Error DatabaseConfig :=
  match connectionOfVariable key with
  | none => .ok config
  | some name => do
    let connection ← ConnectionConfig.ofUrl value
    let connection := match all.get? (prefixVariable name) with
      | some start => { connection with tablePrefix := start }
      | none => connection
    return Entries.put config name connection

/-- The configuration of variables, taken in the given order; of two values of one variable the later counts. -/
def ofVariables (pairs : List (String × String)) : Except Error DatabaseConfig :=
  let all := Entries.ofPairs pairs
  all.foldlM (fun config (key, value) => addVariable all config key value) []

end RowMapper.DatabaseConfig
