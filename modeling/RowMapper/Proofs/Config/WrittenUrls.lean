import RowMapper.Config.Basic
import RowMapper.Proofs.Url.Authorities

/-! # Database URLs read back

A configuration that was read from a URL is written as one. For a database server the written URL
is read as the same configuration, when a password stands behind a user name and the database is a
plain path. The file of an SQLite database is written where a URL has its host, and so it is never
read back.
-/

namespace RowMapper.ConnectionConfig

open Url Outcome

/-- Two configurations lead to the same database with the same user. Prefix, character set and time
limit are left out, since a URL need not tell them. -/
structure SameTarget (c d : ConnectionConfig) : Prop where
  adapter : d.adapter = c.adapter
  host : d.host = c.host
  port : d.port = c.port
  username : d.username = c.username
  password : d.password = c.password
  database : d.database = c.database

theorem SameTarget.refl (c : ConnectionConfig) : SameTarget c c := ⟨rfl, rfl, rfl, rfl, rfl, rfl⟩

theorem SameTarget.trans {c d e : ConnectionConfig} (h : SameTarget c d) (h' : SameTarget d e) :
    SameTarget c e :=
  ⟨h'.adapter.trans h.adapter, h'.host.trans h.host, h'.port.trans h.port,
    h'.username.trans h.username, h'.password.trans h.password, h'.database.trans h.database⟩

/-! ## Reading -/

/-- No parameter of a query changes where a connection leads. -/
theorem sameTarget_of_withParameter {c d : ConnectionConfig} {name value : String}
    (h : c.withParameter name value = .ok d) : SameTarget c d := by
  unfold withParameter at h
  split at h
  · cases h
    exact ⟨rfl, rfl, rfl, rfl, rfl, rfl⟩
  · split at h
    · cases h
      exact ⟨rfl, rfl, rfl, rfl, rfl, rfl⟩
    · split at h
      · obtain ⟨seconds, -, h⟩ := bind_eq_ok.1 h
        cases h
        exact ⟨rfl, rfl, rfl, rfl, rfl, rfl⟩
      · cases h
        exact .refl c

theorem sameTarget_of_foldlM {pairs : List (String × String)} {c d : ConnectionConfig}
    (h : pairs.foldlM (fun c (name, value) => c.withParameter name value) c = .ok d) :
    SameTarget c d := by
  induction pairs generalizing c with
  | nil =>
    cases h
    exact .refl _
  | cons pair pairs ih =>
    rw [List.foldlM_cons] at h
    obtain ⟨e, he, h⟩ := bind_eq_ok.1 h
    exact (sameTarget_of_withParameter he).trans (ih h)

def ofParts (adapter : Dialect) (url : Url) : ConnectionConfig where
  adapter := adapter
  host := url.host.getD "localhost"
  port := url.port.getD (defaultPort adapter)
  username := if url.username.isEmpty then none else some url.username
  password := url.password
  database := String.ofList (bare url.path.toList)

theorem ofUrl_ok {text : String} {c : ConnectionConfig} (h : ofUrl text = .ok c) :
    ∃ url adapter, Url.parse text = .ok url ∧ Dialect.parse url.scheme = .ok adapter ∧
      SameTarget (ofParts adapter url) c ∧ c.validate = .ok () := by
  rw [ofUrl] at h
  cases hparse : Url.parse text with
  | error e =>
    rw [hparse] at h
    cases h
  | ok url =>
    rw [hparse] at h
    obtain ⟨_, hurl, h⟩ := bind_eq_ok.1 h
    cases hurl
    obtain ⟨adapter, hadapter, h⟩ := bind_eq_ok.1 h
    obtain ⟨d, hd, h⟩ := bind_eq_ok.1 h
    obtain ⟨_, hvalid, h⟩ := bind_eq_ok.1 h
    cases h
    exact ⟨url, adapter, rfl, hadapter, sameTarget_of_foldlM hd, hvalid⟩

theorem ofUrl_eq {text : String} {url : Url} {adapter : Dialect} (hparse : Url.parse text = .ok url)
    (hadapter : Dialect.parse url.scheme = .ok adapter) (hquery : url.query = none)
    (hvalid : (ofParts adapter url).validate = .ok ()) :
    ofUrl text = .ok (ofParts adapter url) := by
  have hpairs : url.pairs = [] := by
    rw [pairs, hquery]
    rfl
  rw [ofUrl, hparse]
  refine bind_eq_ok.2 ⟨url, rfl, bind_eq_ok.2 ⟨adapter, hadapter, bind_eq_ok.2
    ⟨ofParts adapter url, ?_, bind_eq_ok.2 ⟨(), hvalid, rfl⟩⟩⟩⟩
  rw [hpairs]
  rfl

theorem isSpecialScheme_of_parse {scheme : String} {adapter : Dialect}
    (h : Dialect.parse scheme = .ok adapter) : isSpecialScheme scheme = false := by
  rw [isSpecialScheme, decide_eq_false_iff_not]
  intro hspecial
  simp only [List.mem_cons, List.not_mem_nil, or_false] at hspecial
  rcases hspecial with rfl | rfl | rfl | rfl | rfl | rfl <;> cases h

/-- What is known of a configuration that was read. -/
structure IsRead (c : ConnectionConfig) : Prop where
  username : ∀ name ∈ c.username, name ≠ "" ∧ IsUserText name
  password : ∀ password ∈ c.password, password ≠ "" ∧ IsUserText password
  host : IsHost c.host.toList
  port : c.port ≤ 65535
  database : c.database ≠ ""
  unslashed : c.database.toList.head? ≠ some '/'

theorem isHost_localhost : IsHost "localhost".toList :=
  .name (by decide) (by simp [isForbiddenInHost, isControl])

theorem defaultPort_le (d : Dialect) : defaultPort d ≤ 65535 := by
  cases d <;> decide

theorem isRead_of_ofUrl {text : String} {c : ConnectionConfig} (h : ofUrl text = .ok c) :
    IsRead c := by
  obtain ⟨url, adapter, hparse, hadapter, hsame, hvalid⟩ := ofUrl_ok h
  have hfinal := isFinal_of_parse hparse (isSpecialScheme_of_parse hadapter)
  have husername : c.username = if url.username.isEmpty then none else some url.username :=
    hsame.username
  have hhost : c.host = url.host.getD "localhost" := hsame.host
  have hport : c.port = url.port.getD (defaultPort adapter) := hsame.port
  have hdatabase : c.database = String.ofList (bare url.path.toList) := hsame.database
  constructor
  · intro name hname
    rw [husername, Option.mem_def] at hname
    split at hname
    · cases hname
    · next hne =>
      cases hname
      exact ⟨by simpa using hne, hfinal.username⟩
  · rw [hsame.password]
    exact hfinal.password
  · rw [hhost]
    cases hurl : url.host with
    | none => exact isHost_localhost
    | some host => exact hfinal.host host hurl
  · rw [hport]
    cases hurl : url.port with
    | none => exact defaultPort_le adapter
    | some port => exact hfinal.port port hurl
  · intro hempty
    rw [validate, hempty] at hvalid
    cases hvalid
  · rw [hdatabase, String.toList_ofList, bare]
    intro hslash
    have hhead := List.head?_dropWhile_not (· == '/') url.path.toList
    rw [hslash] at hhead
    exact absurd hhead (by decide)

/-! ## Writing -/

theorem isScheme_adapterName (d : Dialect) : IsScheme d.adapterName := by
  cases d <;> constructor <;>
    simp [Dialect.adapterName, isSpecialScheme, isSchemeChar, IsGraphic, isControl]

theorem parse_adapterName (d : Dialect) : Dialect.parse d.adapterName = .ok d := by
  cases d <;> rfl

/-- User name and password before the host; a password alone is left out. -/
theorem IsRead.login {c : ConnectionConfig} (h : IsRead c) :
    Login c.credentials.toList (c.username.getD "")
      (if c.username.isSome then c.password else none) := by
  cases husername : c.username with
  | none =>
    rw [credentials, husername]
    exact .nobody
  | some name =>
    obtain ⟨hne, hname⟩ := h.username name husername
    cases hpassword : c.password with
    | none =>
      have hcredentials : c.credentials.toList = name.toList ++ ['@'] := by
        simp [credentials, husername, hpassword]
      rw [hcredentials]
      exact .user hne hname
    | some password =>
      obtain ⟨hne', htext⟩ := h.password password hpassword
      have hcredentials :
          c.credentials.toList = name.toList ++ ':' :: password.toList ++ ['@'] := by
        simp [credentials, husername, hpassword]
      rw [hcredentials]
      exact .both hne hname hne' htext

/-- What stands behind the two slashes of the written URL. -/
def address (c : ConnectionConfig) : String :=
  if c.adapter = .sqlite then c.database
  else c.credentials ++ c.host ++ ":" ++ toString c.port ++ "/" ++ c.database

theorem toUrl_eq (c : ConnectionConfig) :
    c.toUrl = c.adapter.adapterName ++ "://" ++ c.address := by
  unfold toUrl address
  split
  · next hsqlite =>
    rw [hsqlite]
    rfl
  · simp only [String.append_assoc]

theorem toList_address {c : ConnectionConfig} (hadapter : c.adapter ≠ .sqlite) :
    c.address.toList = c.credentials.toList ++ (c.host.toList ++ ':' :: (toString c.port).toList) ++
      '/' :: c.database.toList := by
  rw [address, if_neg hadapter]
  simp

theorem isGraphic_of_isPlainPath {cs : List Char} (h : IsPlainPath cs) : ∀ x ∈ cs, IsGraphic x :=
  fun x hx => isControl_of_encodedInPath (h.encoded x hx)

theorem endsPath_of_encodedInPath {c : Char} (h : encodedInPath c = false) :
    endsPath c = false := by
  have hquestion := ne_of_test h (d := '?') (by decide)
  have hhash := ne_of_test h (d := '#') (by decide)
  simp [endsPath, hquestion, hhash]

theorem IsRead.isGraphic_address {c : ConnectionConfig} (h : IsRead c)
    (hplain : IsPlainPath c.database.toList) : ∀ x ∈ c.address.toList, IsGraphic x := by
  intro x hx
  by_cases hadapter : c.adapter = .sqlite
  · rw [address, if_pos hadapter] at hx
    exact isGraphic_of_isPlainPath hplain x hx
  · rw [toList_address hadapter] at hx
    simp only [List.mem_append, List.mem_cons] at hx
    rcases hx with (hx | hx | rfl | hx) | rfl | hx
    · exact (h.login.of_mem x hx).2
    · exact (h.host.isInner x hx).graphic
    · decide
    · exact (isInner_of_isDigit (isDigit_of_mem_toString hx)).graphic
    · decide
    · exact isGraphic_of_isPlainPath hplain x hx

theorem IsRead.parse_toUrl {c : ConnectionConfig} (h : IsRead c)
    (hplain : IsPlainPath c.database.toList) :
    Url.parse c.toUrl = readAuthority c.adapter.adapterName c.address.toList := by
  obtain ⟨cs, hparse, hcs⟩ := (isScheme_adapterName c.adapter).parse_eq c.address
  rw [toUrl_eq, hparse, hcs (h.isGraphic_address hplain)]

/-- The database of a written URL is plain when it is read. -/
theorem isPlainPath_of_ofUrl_toUrl {c c' : ConnectionConfig} (h : ofUrl c.toUrl = .ok c') :
    IsPlainPath c'.database.toList := by
  have hscheme := isScheme_adapterName c.adapter
  obtain ⟨url, adapter, hparse, -, hsame, -⟩ := ofUrl_ok h
  obtain ⟨cs, hread, -⟩ := hscheme.parse_eq c.address
  rw [toUrl_eq, hread] at hparse
  obtain ⟨-, -, behind, hpath, -⟩ := readAuthority_ok hscheme.ordinary hparse
  have hdatabase : c'.database = String.ofList (bare url.path.toList) := hsame.database
  rw [hdatabase, String.toList_ofList, hpath]
  exact isPlainPath_pathText behind

/-! ## Database servers -/

def written (c : ConnectionConfig) : Url where
  scheme := c.adapter.adapterName
  username := c.username.getD ""
  password := if c.username.isSome then c.password else none
  host := some (String.ofList c.host.toList)
  port := some c.port
  path := pathText false ('/' :: c.database.toList)

/-- What is read back of a database server: a password alone was not written, nor was a query. -/
def readBack (c : ConnectionConfig) : ConnectionConfig :=
  { c with
    password := if c.username.isSome then c.password else none
    tablePrefix := ""
    charset := "utf8"
    timeoutSeconds := 30 }

theorem IsRead.parse_toUrl_server {c : ConnectionConfig} (h : IsRead c)
    (hadapter : c.adapter ≠ .sqlite) (hplain : IsPlainPath c.database.toList) :
    Url.parse c.toUrl = .ok c.written := by
  have hpath : ∀ x ∈ c.database.toList, endsPath x = false := fun x hx =>
    endsPath_of_encodedInPath (hplain.encoded x hx)
  rw [h.parse_toUrl hplain, toList_address hadapter, readAuthority_written
    (isScheme_adapterName c.adapter).ordinary h.login h.host h.port hpath, written]

theorem IsRead.ofParts_written {c : ConnectionConfig} (h : IsRead c)
    (hplain : IsPlainPath c.database.toList) : ofParts c.adapter c.written = c.readBack := by
  have husername : (if (c.username.getD "").isEmpty then none else some (c.username.getD "")) =
      c.username := by
    cases hname : c.username with
    | none => rfl
    | some name => simpa using (h.username name hname).1
  simp only [ofParts, written, readBack, Option.getD_some, String.ofList_toList, husername,
    bare_pathText_eq_self hplain h.unslashed]

/-- The written URL of a database server is read as the configuration, but for a password without a
user name and for what a query says. -/
theorem ofUrl_toUrl {c : ConnectionConfig} (h : IsRead c) (hadapter : c.adapter ≠ .sqlite)
    (hplain : IsPlainPath c.database.toList) : ofUrl c.toUrl = .ok c.readBack := by
  have hdatabase : c.database.isEmpty = false := by simpa using h.database
  have hhost : c.host.isEmpty = false := by simpa using h.host.ne_nil
  have hvalid : c.readBack.validate = .ok () := by
    rw [validate, if_neg (by simp [readBack, hdatabase]), if_neg (by simp [readBack, hhost])]
  rw [← h.ofParts_written hplain] at hvalid ⊢
  exact ofUrl_eq (h.parse_toUrl_server hadapter hplain) (parse_adapterName _) rfl hvalid

/-! ## Files -/

/-- Of an SQLite file the first part of its path is read as a host. -/
theorem length_database_lt {c c' : ConnectionConfig} (h : IsRead c) (hadapter : c.adapter = .sqlite)
    (hplain : IsPlainPath c.database.toList) (hread : ofUrl c.toUrl = .ok c') :
    c'.database.toList.length < c.database.toList.length := by
  obtain ⟨url, adapter, hparse, -, hsame, -⟩ := ofUrl_ok hread
  rw [h.parse_toUrl hplain, address, if_pos hadapter] at hparse
  obtain ⟨-, -, behind, hpath, hsub, hshort⟩ :=
    readAuthority_ok (isScheme_adapterName c.adapter).ordinary hparse
  have hdatabase : c'.database = String.ofList (bare url.path.toList) := hsame.database
  -- The host is not empty, as the name of the file starts with no slash.
  have hfirst : (c.database.toList.takeWhile fun x => !endsAuthority false x) ≠ [] := by
    obtain ⟨x, xs, hcons⟩ := List.exists_cons_of_ne_nil (l := c.database.toList)
      (by simpa using h.database)
    have hslash : x ≠ '/' := by
      have hhead := h.unslashed
      rw [hcons] at hhead
      exact fun heq => hhead (congrArg some heq)
    have hx := endsPath_of_encodedInPath (hplain.encoded x (hcons ▸ List.mem_cons_self))
    have hinside : endsAuthority false x = false := by
      rw [endsPath, Bool.or_eq_false_iff] at hx
      simp [endsAuthority, hslash, hx.1, hx.2]
    rw [hcons, List.takeWhile_cons_of_pos (by simp [hinside])]
    exact List.cons_ne_nil _ _
  have hlength := length_bare_pathText fun x hx => hplain.encoded x (hsub hx)
  rw [hdatabase, String.toList_ofList, hpath]
  exact hlength.trans_lt (hshort hfirst)

/-! ## Round trips -/

/-- The URL that a configuration is written as leads back to the same database exactly when it is
the URL of a database server, a password has a user name with it, and the database is a plain
path. -/
theorem ofUrl_toUrl_iff {text : String} {c : ConnectionConfig} (h : ofUrl text = .ok c) :
    (∃ c', ofUrl c.toUrl = .ok c' ∧ SameTarget c c') ↔
      c.adapter ≠ .sqlite ∧ (c.password.isSome → c.username.isSome) ∧
        IsPlainPath c.database.toList := by
  have hread := isRead_of_ofUrl h
  constructor
  · rintro ⟨c', hback, hsame⟩
    have hplain : IsPlainPath c.database.toList := by
      rw [← hsame.database]
      exact isPlainPath_of_ofUrl_toUrl hback
    have hadapter : c.adapter ≠ .sqlite := fun hsqlite => by
      have hshorter := length_database_lt hread hsqlite hplain hback
      rw [hsame.database] at hshorter
      exact Nat.lt_irrefl _ hshorter
    refine ⟨hadapter, fun hsome => ?_, hplain⟩
    rw [ofUrl_toUrl hread hadapter hplain] at hback
    cases hback
    have hpassword : (if c.username.isSome then c.password else none) = c.password :=
      hsame.password
    by_contra hnone
    rw [if_neg hnone] at hpassword
    rw [← hpassword] at hsome
    cases hsome
  · rintro ⟨hadapter, hlogin, hplain⟩
    have hpassword : (if c.username.isSome then c.password else none) = c.password := by
      cases hsome : c.password with
      | none => simp
      | some password =>
        rw [hsome] at hlogin
        exact if_pos (hlogin rfl)
    exact ⟨_, ofUrl_toUrl hread hadapter hplain, rfl, rfl, rfl, rfl, hpassword, rfl⟩

/-- An address with zeros left out, a port, a login and a path of two segments. -/
def replica : ConnectionConfig where
  adapter := .postgres
  host := "[2001:db8::1]"
  port := 6432
  username := some "shop"
  password := some "s%40x"
  database := "a/b"

theorem replica_readBack :
    ofUrl "postgres://shop:s%40x@[2001:DB8:0::1]:6432/a/./b?charset=utf8" = .ok replica ∧
      ∃ c, ofUrl replica.toUrl = .ok c ∧ SameTarget replica c := by
  have hread : ofUrl "postgres://shop:s%40x@[2001:DB8:0::1]:6432/a/./b?charset=utf8" =
      .ok replica := rfl
  exact ⟨hread, (ofUrl_toUrl_iff hread).2 ⟨by decide, by decide, by decide⟩⟩

/-- A file, a password without a user name, and the name of a database in a URL without slashes. -/
def dataFile : ConnectionConfig where
  adapter := .sqlite
  host := "localhost"
  port := 0
  database := "data.db"

def passwordAlone : ConnectionConfig where
  adapter := .postgres
  host := "h"
  port := 5432
  password := some "pw"
  database := "db"

def spacedName : ConnectionConfig where
  adapter := .postgres
  host := "localhost"
  port := 5432
  database := "a b"

/-- The file is taken for a host, the password is left out, and the blank is encoded. -/
theorem dataFile_notReadBack :
    (ofUrl "sqlite:///data.db" = .ok dataFile ∧ dataFile.toUrl = "sqlite://data.db" ∧
      ofUrl dataFile.toUrl =
        .error (.configuration "Missing database name in connection configuration")) ∧
    (ofUrl "postgres://:pw@h/db" = .ok passwordAlone ∧
      passwordAlone.toUrl = "postgresql://h:5432/db" ∧
      ofUrl passwordAlone.toUrl = .ok { passwordAlone with password := none }) ∧
    (ofUrl "postgres:a b" = .ok spacedName ∧
      spacedName.toUrl = "postgresql://localhost:5432/a b" ∧
      ofUrl spacedName.toUrl = .ok { spacedName with database := "a%20b" }) :=
  ⟨⟨rfl, rfl, rfl⟩, ⟨rfl, rfl, rfl⟩, rfl, rfl, rfl⟩

end RowMapper.ConnectionConfig
