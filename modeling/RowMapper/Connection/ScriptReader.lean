import RowMapper.Connection.Scripted
import RowMapper.Value.Tagged

/-! # Scripts as JSON

A script is an object of its kind, the fragment that it matches and what it answers.
-/

namespace RowMapper.Scripted.Server

/-- Add a script to the server of a dialect, or set the next key. -/
def read (d : Dialect) (s : Server) (j : Json) : Except Error Server := do
  let add := fun (reply : Reply) (once : Bool) =>
    s.withScript { fragment := j["match"].textOr "", reply, once }
  match j["kind"].textOr "" with
  | "query" => return add (.rows (← Json.each Row.ofPairs j["rows"])) j["once"].isTrue
  | "execute" => return add (.affected (← j["affected"].toNat)) false
  | "fail" => return add (.failure (← j["code"].text) (← j["message"].text)) false
  | "missing_table" => return add (missingTable d) true
  | "next_id" => return { s with nextKey := Int64.ofInt (← j["id"].toInt) }
  | _ => throw (Json.unexpected "a kind of script" j["kind"])

end RowMapper.Scripted.Server
