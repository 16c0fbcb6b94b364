import RowMapper.Url.Ipv6

/-! # URLs

A URL is read into its parts by the living URL standard. User name, password,
host and path stay percent-encoded. A scheme that the standard does not call
special has an opaque host, and it may have a path alone.

The hosts of the special schemes, such as `http` and `file`, are read by less than the
standard: they are checked for forbidden characters and put into lower case, but they are
not decoded, not brought into the ASCII form of international names and not read as IPv4
addresses. No database has such a scheme, so none of these URLs names one; only the text
by which it is refused can be another one than the standard gives.
-/

namespace RowMapper

inductive Url.ParseError where
  | relativeWithoutBase
  | emptyHost
  | invalidPort
  | invalidIpv6
  | invalidHostCharacter
  | invalidDomainName
  deriving DecidableEq, Repr

def Url.ParseError.message : Url.ParseError → String
  | relativeWithoutBase => "relative URL without a base"
  | emptyHost => "empty host"
  | invalidPort => "invalid port number"
  | invalidIpv6 => "invalid IPv6 address"
  | invalidHostCharacter => "invalid domain character"
  | invalidDomainName => "invalid international domain name"

structure Url where
  scheme : String
  username : String := ""
  password : Option String := none
  host : Option String := none
  port : Option Nat := none
  path : String := ""
  query : Option (List Char) := none
  deriving DecidableEq, Repr

namespace Url

open Text

/-- Drop controls and spaces at both ends, and tabs and line breaks everywhere. -/
def clean (cs : List Char) : List Char :=
  let outer := fun c : Char => c.toNat ≤ 0x20
  let trimmed := ((cs.dropWhile outer).reverse.dropWhile outer).reverse
  trimmed.filter fun c => c != '\t' && c != '\n' && c != '\r'

def isSchemeChar (c : Char) : Bool :=
  c.isAlphanum || c == '+' || c == '-' || c == '.'

def cutScheme (cs : List Char) : Option (String × List Char) :=
  let scheme := cs.takeWhile isSchemeChar
  match cs.dropWhile isSchemeChar with
  | ':' :: rest =>
    if (scheme.head?.map Char.isAlpha).getD false then
      some (String.ofList (scheme.map Char.toLower), rest)
    else none
  | _ => none

/-- Whether the standard gives the scheme rules of its own. -/
def isSpecialScheme (scheme : String) : Bool :=
  scheme ∈ ["http", "https", "ws", "wss", "ftp", "file"]

def endsAuthority (special : Bool) (c : Char) : Bool :=
  c == '/' || c == '?' || c == '#' || (special && c == '\\')

/-- The last `@` of an authority: what precedes it and what follows. -/
def splitUserInfo (authority : List Char) : Option (List Char × List Char) :=
  let tail := authority.reverse.takeWhile (· != '@')
  if tail.length = authority.length then none
  else some (authority.take (authority.length - tail.length - 1), tail.reverse)

/-- User name and password of the text before an `@`; an empty password is none. -/
def userInfo (cs : List Char) : String × Option String :=
  let encode := fun cs : List Char => String.ofList (cs.flatMap (encodeChar encodedInUserInfo))
  let name := cs.takeWhile (· != ':')
  let password := (cs.drop name.length).drop 1
  (encode name, if password.isEmpty then none else some (encode password))

/-- The host at the front of an authority, up to a colon outside brackets. -/
def hostChars : Bool → List Char → List Char
  | _, [] => []
  | bracketed, c :: cs =>
    if c = ':' && !bracketed then []
    else c :: hostChars (if c = '[' then true else if c = ']' then false else bracketed) cs

def isForbiddenInHost (c : Char) : Bool :=
  c.toNat = 0 || c ∈ ['\t', '\n', '\r', ' ', '#', '/', ':', '<', '>', '?', '@', '[', '\\', ']', '^',
    '|']

/-- Check a host and write it in its final form. Of a special scheme's host that is no IPv6 address
only the characters are checked and put into lower case. -/
def readHost (special : Bool) (cs : List Char) : Except ParseError String :=
  if cs.head? = some '[' then
    if cs.length < 2 || cs.getLast? ≠ some ']' then .error .invalidIpv6
    else match readIpv6 (cs.drop 1).dropLast with
      | some groups => .ok (String.ofList ('[' :: ipv6Text groups ++ [']']))
      | none => .error .invalidIpv6
  else if special then
    if cs.any fun c => isForbiddenInHost c || c.toNat ≤ 0x20 || c == '%' || c.toNat = 0x7F then
      .error .invalidDomainName
    else .ok (String.ofList (cs.map Char.toLower))
  else if cs.any isForbiddenInHost then .error .invalidHostCharacter
  else .ok (String.ofList (cs.flatMap (encodeChar isControl)))

/-- Read a port after its colon; no digits at all are no port. -/
def readPort (cs : List Char) : Except ParseError (Option Nat) :=
  if !cs.all Char.isDigit then .error .invalidPort
  else if cs.isEmpty then .ok none
  else
    let port := cs.foldl (fun n c => n * 10 + (c.toNat - 48)) 0
    if 65535 < port then .error .invalidPort else .ok (some port)

def isDoubleDot (segment : List Char) : Bool :=
  String.ofList (segment.map Char.toLower) ∈ ["..", "%2e%2e", "%2e.", ".%2e"]

def isSingleDot (segment : List Char) : Bool :=
  String.ofList (segment.map Char.toLower) ∈ [".", "%2e"]

/-- Whether a segment starts with a drive letter, which no step upwards leaves. -/
def startsWithDrive : List Char → Bool
  | [c, d] => c.isAlpha && (d == ':' || d == '|')
  | c :: d :: e :: _ => c.isAlpha && (d == ':' || d == '|') && e == '\\'
  | _ => false

/-- The segments of the directory above; the last segment stands first. -/
def dropSegment : List (List Char) → List (List Char)
  | [] => []
  | segment :: done => if startsWithDrive segment then segment :: done else done

/-- Resolve the segments of a path; `done` holds the finished ones, the last first. -/
def resolveSegments : List (List Char) → List (List Char) → List (List Char)
  | done, [] => done.reverse
  | done, [segment] =>
    if isDoubleDot segment then ([] :: dropSegment done).reverse
    else if isSingleDot segment then ([] :: done).reverse
    else (segment :: done).reverse
  | done, segment :: next :: rest =>
    if isDoubleDot segment then resolveSegments (dropSegment done) (next :: rest)
    else if isSingleDot segment then resolveSegments done (next :: rest)
    else resolveSegments (segment :: done) (next :: rest)

def pathText (special : Bool) (cs : List Char) : String :=
  let cs := if special then cs.map fun c => if c = '\\' then '/' else c else cs
  if cs.isEmpty && !special then ""
  else
    let body := if cs.head? = some '/' then cs.drop 1 else cs
    let segments := (splitChars '/' body).map fun s => s.flatMap (encodeChar encodedInPath)
    String.ofList ((resolveSegments [] segments).flatMap fun s => '/' :: s)

def cutQuery (cs : List Char) : Option (List Char) :=
  match cs with
  | '?' :: rest => some (rest.takeWhile (· != '#'))
  | _ => none

def endsPath (c : Char) : Bool := c == '?' || c == '#'

def readAuthority (scheme : String) (cs : List Char) : Except ParseError Url := do
  let special := isSpecialScheme scheme
  let cs := if special then cs.dropWhile fun c => c == '/' || c == '\\' else cs
  let authority := cs.takeWhile fun c => !endsAuthority special c
  let rest := cs.drop authority.length
  let (user, server) ← match splitUserInfo authority with
    | none => pure ([], authority)
    | some ([], server) =>
      if server.isEmpty && !rest.isEmpty then .error .emptyHost else pure ([], server)
    | some (user, server) => pure (user, server)
  let (username, password) := userInfo user
  let hostText := hostChars false server
  let afterHost := server.drop hostText.length
  if hostText.isEmpty && special then .error .emptyHost
  let host ← readHost special hostText
  if hostText.isEmpty && !afterHost.isEmpty then .error .emptyHost
  let portText := (afterHost.drop 1).takeWhile (· != '\\')
  let port ← readPort portText
  if hostText.isEmpty && (username != "" || password.isSome) then .error .emptyHost
  let rest := (afterHost.drop 1).drop portText.length ++ rest
  let path := rest.takeWhile fun c => !endsPath c
  return {
    scheme := scheme
    username := username
    password := password
    host := if host.isEmpty then none else some host
    port := port
    path := pathText special path
    query := cutQuery (rest.drop path.length) }

def parse (s : String) : Except ParseError Url :=
  match cutScheme (clean s.toList) with
  | none => .error .relativeWithoutBase
  | some (scheme, rest) =>
    match rest with
    | '/' :: '/' :: rest => if scheme = "file" then .ok ⟨scheme, "", none, none, none, "", none⟩
        else readAuthority scheme rest
    | rest =>
      if scheme = "file" then .ok ⟨scheme, "", none, none, none, "", none⟩
      else if isSpecialScheme scheme then readAuthority scheme rest
      else
        let path := rest.takeWhile fun c => !endsPath c
        .ok {
          scheme := scheme
          path := if path.head? = some '/' then pathText false path
            else String.ofList (path.flatMap (encodeChar isControl))
          query := cutQuery (rest.drop path.length) }

def pairs (u : Url) : List (String × String) :=
  (u.query.map queryPairs).getD []

end Url

end RowMapper
