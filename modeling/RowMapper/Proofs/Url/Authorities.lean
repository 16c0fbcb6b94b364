import RowMapper.Proofs.Calendar.WrittenItems
import RowMapper.Proofs.Outcome
import RowMapper.Proofs.Url.Addresses
import RowMapper.Proofs.Url.Paths

/-! # Authorities

User name, password, host and port stand between the two slashes and the path. What is read of them
is in its final form, and an authority that is put together from final forms is read as those. All
of this is about schemes to which the standard gives no rules of their own.
-/

namespace RowMapper.Url

open Text Outcome

/-! ## Hosts -/

/-- A host in its final form: an address in brackets, or a name with nothing to encode. -/
inductive IsHost : List Char → Prop where
  | address {groups : Ipv6} (h : IsAddress groups) : IsHost ('[' :: ipv6Text groups ++ [']'])
  | name {cs : List Char} (hne : cs ≠ [])
      (h : ∀ c ∈ cs, isForbiddenInHost c = false ∧ isControl c = false) : IsHost cs

theorem mem_ipv6Text {groups : Ipv6} {c : Char} (h : c ∈ ipv6Text groups) :
    c = ':' ∨ ∃ n < 16, c = n.digitChar := by
  have hgroups {gs : List Nat} (hc : c ∈ groupsText gs) : c = ':' ∨ ∃ n < 16, c = n.digitChar := by
    rw [groupsText_eq] at hc
    refine (mem_intercalate hc).imp_right fun ⟨piece, hpiece, hc⟩ => ?_
    obtain ⟨g, -, rfl⟩ := List.mem_map.1 hpiece
    exact exists_digitChar hc
  rw [ipv6Text] at h
  dsimp only at h
  split at h
  · exact hgroups h
  · simp only [List.mem_append] at h
    rcases h with (h | h) | h
    · exact hgroups h
    · exact .inl (by simpa using h)
    · exact hgroups h

/-- A character that ends no authority, cuts off no user name and is not cleaned away. -/
structure IsInner (c : Char) : Prop where
  inside : endsAuthority false c = false
  ne_at : c ≠ '@'
  graphic : IsGraphic c

instance (c : Char) : Decidable (IsGraphic c) := inferInstanceAs (Decidable (_ ∧ _))

instance (c : Char) : Decidable (IsInner c) :=
  decidable_of_iff (endsAuthority false c = false ∧ c ≠ '@' ∧ IsGraphic c)
    ⟨fun h => ⟨h.1, h.2.1, h.2.2⟩, fun h => ⟨h.inside, h.ne_at, h.graphic⟩⟩

theorem IsInner.of_ne {c : Char} (hslash : c ≠ '/') (hquestion : c ≠ '?') (hhash : c ≠ '#')
    (hat : c ≠ '@') (hgraphic : IsGraphic c) : IsInner c :=
  ⟨by simp [endsAuthority, hslash, hquestion, hhash], hat, hgraphic⟩

theorem IsHost.ne_nil {cs : List Char} (h : IsHost cs) : cs ≠ [] := by
  cases h with
  | address => exact List.cons_ne_nil _ _
  | name hne => exact hne

theorem IsHost.isInner {cs : List Char} (h : IsHost cs) : ∀ c ∈ cs, IsInner c := by
  intro c hc
  cases h with
  | address haddress =>
    have hdigits : ∀ n < 16, IsInner n.digitChar := by decide
    simp only [List.cons_append, List.mem_cons, List.mem_append, List.not_mem_nil, or_false] at hc
    rcases hc with rfl | hc | rfl
    · decide
    · rcases mem_ipv6Text hc with rfl | ⟨n, hn, rfl⟩
      · decide
      · exact hdigits n hn
    · decide
  | name hne hname =>
    obtain ⟨hforbidden, hcontrol⟩ := hname c hc
    have hne {d : Char} (hd : isForbiddenInHost d = true) : c ≠ d := ne_of_test hforbidden hd
    exact .of_ne (hne (by decide)) (hne (by decide)) (hne (by decide)) (hne (by decide))
      ⟨hcontrol, hne (by decide)⟩

theorem hostChars_append {cs : List Char} (h : ∀ c ∈ cs, c ≠ ':' ∧ c ≠ '[') (rest : List Char) :
    hostChars false (cs ++ rest) = cs ++ hostChars false rest := by
  induction cs with
  | nil => rfl
  | cons c cs ih =>
    rw [List.forall_mem_cons] at h
    simp [hostChars, h.1.1, h.1.2, ih h.2]

theorem hostChars_bracketed {cs : List Char} (h : ']' ∉ cs) (rest : List Char) :
    hostChars true (cs ++ rest) = cs ++ hostChars true rest := by
  induction cs with
  | nil => rfl
  | cons c cs ih =>
    rw [List.mem_cons, not_or] at h
    simp [hostChars, Ne.symm h.1, ih h.2]

theorem bracket_not_mem_ipv6Text (groups : Ipv6) : ']' ∉ ipv6Text groups := by
  intro hmem
  have hdigits : ∀ n < 16, ']' ≠ n.digitChar := by decide
  rcases mem_ipv6Text hmem with h | ⟨n, hn, h⟩
  · exact absurd h (by decide)
  · exact hdigits n hn h

theorem IsHost.hostChars_eq {cs : List Char} (h : IsHost cs) (rest : List Char) :
    hostChars false (cs ++ ':' :: rest) = cs := by
  cases h with
  | @address groups haddress =>
    have hbehind : hostChars true (']' :: ':' :: rest) = [']'] := by simp [hostChars]
    rw [List.append_assoc, List.cons_append, hostChars, if_neg (by simp), if_pos rfl,
      hostChars_bracketed (bracket_not_mem_ipv6Text groups), List.singleton_append, hbehind]
    rfl
  | name hne hname =>
    have hchars : ∀ c ∈ cs, c ≠ ':' ∧ c ≠ '[' := fun c hc =>
      ⟨ne_of_test (hname c hc).1 (by decide),
        ne_of_test (hname c hc).1 (by decide)⟩
    rw [hostChars_append hchars, hostChars, if_pos (by simp), List.append_nil]

theorem IsHost.readHost_eq {cs : List Char} (h : IsHost cs) :
    readHost false cs = .ok (String.ofList cs) := by
  cases h with
  | @address groups haddress =>
    have hinner : (('[' :: ipv6Text groups ++ [']']).drop 1).dropLast = ipv6Text groups := by
      simp
    have hbrackets : (decide (('[' :: ipv6Text groups ++ [']']).length < 2) ||
        decide (('[' :: ipv6Text groups ++ [']']).getLast? ≠ some ']')) = false := by
      have hlast := List.getLast?_concat (l := '[' :: ipv6Text groups) (a := ']')
      rw [hlast]
      simp
    rw [readHost, if_pos (by simp), hbrackets, if_neg Bool.false_ne_true, hinner,
      readIpv6_ipv6Text haddress]
  | name hne hname =>
    obtain ⟨c, cs, rfl⟩ := List.exists_cons_of_ne_nil hne
    have hhead : (c :: cs).head? ≠ some '[' := by
      intro hbracket
      exact ne_of_test (hname c List.mem_cons_self).1 (by decide)
        (Option.some.inj hbracket)
    have hany : (c :: cs).any isForbiddenInHost = false := by
      rw [List.any_eq_false]
      intro d hd
      simp [(hname d hd).1]
    rw [readHost, if_neg hhead, if_neg Bool.false_ne_true, hany, if_neg Bool.false_ne_true,
      flatMap_encodeChar_eq_self fun d hd => (hname d hd).2]

theorem isHost_of_readHost {cs : List Char} {host : String} (h : readHost false cs = .ok host)
    (hne : host ≠ "") : IsHost host.toList := by
  unfold readHost at h
  split at h
  · split at h
    · cases h
    · split at h
      · next groups hread =>
        cases h
        rw [String.toList_ofList]
        exact .address (isAddress_of_readIpv6 hread)
      · cases h
  · rw [if_neg Bool.false_ne_true] at h
    split at h
    · cases h
    · next hany =>
      cases h
      refine .name (by simpa using hne) fun c hc => ?_
      rw [String.toList_ofList] at hc
      refine ⟨?_, leavesBytes_isControl.of_mem_flatMap hc⟩
      obtain ⟨d, hd, hc⟩ := List.mem_flatMap.1 hc
      have hdigits : ∀ n < 16, isForbiddenInHost (upperHexDigit n) = false := by decide
      rcases mem_encodeChar hc with ⟨-, rfl⟩ | rfl | ⟨n, hn, rfl⟩
      · simp only [Bool.not_eq_true, List.any_eq_false] at hany
        exact hany c hd
      · decide
      · exact hdigits n hn

/-! ## Ports -/

theorem isDigit_of_mem_toString {n : Nat} {c : Char} (h : c ∈ (toString n).toList) :
    c.isDigit = true := by
  rw [Nat.toString_eq_repr, Nat.toList_repr] at h
  exact Nat.isDigit_of_mem_toDigits (by decide) (by decide) h

theorem isInner_of_isDigit {c : Char} (h : c.isDigit = true) : IsInner c := by
  have hne {d : Char} (hd : d.isDigit = false) : c ≠ d := (ne_of_test hd h).symm
  have hrange : 48 ≤ c.toNat ∧ c.toNat ≤ 57 := Char.isDigit_iff_toNat.1 h
  have hcontrol : isControl c = false := by
    simp only [isControl, Bool.or_eq_false_iff, decide_eq_false_iff_not]
    omega
  exact .of_ne (hne (by decide)) (hne (by decide)) (hne (by decide)) (hne (by decide))
    ⟨hcontrol, hne (by decide)⟩

theorem readPort_toString {port : Nat} (h : port ≤ 65535) :
    readPort (toString port).toList = .ok (some port) := by
  have hdigits : (toString port).toList = Nat.toDigits 10 port := by
    rw [Nat.toString_eq_repr, Nat.toList_repr]
  have hall : (Nat.toDigits 10 port).all Char.isDigit = true :=
    List.all_eq_true.2 fun c hc => Nat.isDigit_of_mem_toDigits (by decide) (by decide) hc
  have hne : (Nat.toDigits 10 port).isEmpty = false := by simp [Nat.toDigits_ne_nil]
  have hvalue : (Nat.toDigits 10 port).foldl (fun n c => n * 10 + (c.toNat - 48)) 0 = port := by
    have hfold := Calendar.foldDigits_eq_ofDigitChars (Nat.toDigits 10 port) 0
    rwa [Nat.ofDigitChars_ten_toDigits] at hfold
  rw [hdigits, readPort, hall, hne, if_neg (by decide), if_neg Bool.false_ne_true]
  dsimp only
  rw [hvalue, if_neg (by omega)]

theorem le_of_readPort {cs : List Char} {port : Nat} (h : readPort cs = .ok (some port)) :
    port ≤ 65535 := by
  unfold readPort at h
  split at h
  · cases h
  · split at h
    · cases h
    · dsimp only at h
      split at h
      · cases h
      · cases h
        omega

/-! ## User names and passwords -/

def IsUserText (s : String) : Prop := ∀ c ∈ s.toList, encodedInUserInfo c = false

inductive Login : List Char → String → Option String → Prop where
  | nobody : Login [] "" none
  | user {name : String} (hne : name ≠ "") (h : IsUserText name) :
      Login (name.toList ++ ['@']) name none
  | both {name password : String} (hne : name ≠ "") (h : IsUserText name)
      (hne' : password ≠ "") (h' : IsUserText password) :
      Login (name.toList ++ ':' :: password.toList ++ ['@']) name (some password)

theorem isInner_of_encodedInUserInfo {c : Char} (h : encodedInUserInfo c = false) :
    IsInner c ∧ c ≠ ':' := by
  have hne {d : Char} (hd : encodedInUserInfo d = true) : c ≠ d := ne_of_test h hd
  exact ⟨.of_ne (hne (by decide)) (hne (by decide)) (hne (by decide)) (hne (by decide))
    (isControl_of_encodedInPath (encodedInPath_of_encodedInUserInfo h)), hne (by decide)⟩

/-- The characters of user name and password, with the marks behind them. -/
theorem Login.of_mem {front : List Char} {name : String} {password : Option String}
    (h : Login front name password) :
    ∀ c ∈ front, endsAuthority false c = false ∧ IsGraphic c := by
  have htext {s : String} (hs : IsUserText s) {c : Char} (hc : c ∈ s.toList) :
      endsAuthority false c = false ∧ IsGraphic c :=
    have hinner := (isInner_of_encodedInUserInfo (hs c hc)).1
    ⟨hinner.inside, hinner.graphic⟩
  intro c hc
  cases h with
  | nobody => cases hc
  | user hne hname =>
    rcases List.mem_append.1 hc with hc | hc
    · exact htext hname hc
    · rw [List.mem_singleton.1 hc]
      decide
  | both hne hname hne' hpassword =>
    simp only [List.mem_append, List.mem_cons, List.not_mem_nil, or_false] at hc
    rcases hc with (hc | rfl | hc) | rfl
    · exact htext hname hc
    · decide
    · exact htext hpassword hc
    · decide

theorem flatMap_encodeChar_userText {s : String} (h : IsUserText s) :
    String.ofList (s.toList.flatMap (encodeChar encodedInUserInfo)) = s := by
  rw [flatMap_encodeChar_eq_self h, String.ofList_toList]

theorem takeWhile_userText {s : String} (h : IsUserText s) :
    ∀ c ∈ s.toList, (c != ':') = true := fun c hc => by
  simpa using (isInner_of_encodedInUserInfo (h c hc)).2

theorem userInfo_name {name : String} (h : IsUserText name) :
    userInfo name.toList = (name, none) := by
  have hname : name.toList.takeWhile (fun c => c != ':') = name.toList :=
    List.takeWhile_eq_self_iff.2 (takeWhile_userText h)
  simp only [userInfo]
  rw [hname, flatMap_encodeChar_userText h, List.drop_length, List.drop_nil]
  rfl

theorem userInfo_password {name password : String} (hname : IsUserText name)
    (hne : password ≠ "") (hpassword : IsUserText password) :
    userInfo (name.toList ++ ':' :: password.toList) = (name, some password) := by
  have htake : (name.toList ++ ':' :: password.toList).takeWhile (fun c => c != ':') =
      name.toList := by
    rw [List.takeWhile_append_of_pos (takeWhile_userText hname),
      List.takeWhile_cons_of_neg (by simp), List.append_nil]
  have hsome : password.toList.isEmpty = false := by simpa using hne
  simp only [userInfo]
  rw [htake, List.drop_left, List.drop_succ_cons, List.drop_zero, hsome, if_neg Bool.false_ne_true,
    flatMap_encodeChar_userText hname, flatMap_encodeChar_userText hpassword]

theorem userInfo_nil : userInfo [] = ("", none) := rfl

theorem isUserText_userInfo (user : List Char) : IsUserText (userInfo user).1 ∧
    ∀ password ∈ (userInfo user).2, password ≠ "" ∧ IsUserText password := by
  have hencoded (cs : List Char) :
      IsUserText (String.ofList (cs.flatMap (encodeChar encodedInUserInfo))) := by
    intro c hc
    rw [String.toList_ofList] at hc
    exact leavesBytes_encodedInUserInfo.of_mem_flatMap hc
  refine ⟨hencoded _, fun password hpassword => ?_⟩
  simp only [userInfo, Option.mem_def] at hpassword
  split at hpassword
  · cases hpassword
  · next hne =>
    cases hpassword
    refine ⟨?_, hencoded _⟩
    generalize (user.drop (user.takeWhile fun c => c != ':').length).drop 1 = rest at hne ⊢
    cases rest with
    | nil => exact absurd rfl hne
    | cons c cs => simp [encodeChar_ne_nil]

/-! ## Splitting an authority -/

theorem splitUserInfo_of_not_mem {server : List Char} (h : '@' ∉ server) :
    splitUserInfo server = none := by
  have htail : server.reverse.takeWhile (fun c => c != '@') = server.reverse :=
    List.takeWhile_eq_self_iff.2 fun c hc => by
      rw [bne_iff_ne]
      rintro rfl
      exact h (List.mem_reverse.1 hc)
  rw [splitUserInfo, htail, List.length_reverse, if_pos rfl]

theorem splitUserInfo_append {server : List Char} (h : '@' ∉ server) (user : List Char) :
    splitUserInfo (user ++ '@' :: server) = some (user, server) := by
  have hserver : ∀ c ∈ server.reverse, (c != '@') = true := fun c hc => by
    rw [bne_iff_ne]
    rintro rfl
    exact h (List.mem_reverse.1 hc)
  have htail : (user ++ '@' :: server).reverse.takeWhile (fun c => c != '@') = server.reverse := by
    rw [List.reverse_append, List.reverse_cons, List.append_assoc,
      List.takeWhile_append_of_pos hserver, List.singleton_append,
      List.takeWhile_cons_of_neg (by simp), List.append_nil]
  have hlength : (user ++ '@' :: server).length - server.length - 1 = user.length := by
    simp only [List.length_append, List.length_cons]
    omega
  have hne : server.length ≠ (user ++ '@' :: server).length := by
    simp only [List.length_append, List.length_cons]
    omega
  rw [splitUserInfo, htail, List.length_reverse, if_neg hne, hlength, List.take_left,
    List.reverse_reverse]

theorem splitUserInfo_suffix {authority user server : List Char}
    (h : splitUserInfo authority = some (user, server)) : server <:+ authority := by
  rw [splitUserInfo] at h
  split at h
  · cases h
  · cases h
    rw [← List.reverse_prefix, List.reverse_reverse]
    exact List.takeWhile_prefix _

/-! ## Behind the user name -/

def portText (afterHost : List Char) : List Char := (afterHost.drop 1).takeWhile (· != '\\')

def assemble (scheme : String) (user : List Char) (host : String) (port : Option Nat)
    (behind : List Char) : Url :=
  let path := behind.takeWhile fun c => !endsPath c
  { scheme := scheme
    username := (userInfo user).1
    password := (userInfo user).2
    host := if host.isEmpty then none else some host
    port := port
    path := pathText false path
    query := cutQuery (behind.drop path.length) }

def readServer (scheme : String) (user server rest : List Char) : Except ParseError Url := do
  let hostText := hostChars false server
  let afterHost := server.drop hostText.length
  let host ← readHost false hostText
  if hostText.isEmpty && !afterHost.isEmpty then .error .emptyHost
  let port ← readPort (portText afterHost)
  if hostText.isEmpty && ((userInfo user).1 != "" || (userInfo user).2.isSome) then
    .error .emptyHost
  return assemble scheme user host port
    ((afterHost.drop 1).drop (portText afterHost).length ++ rest)

theorem drop_length_takeWhile (p : Char → Bool) (cs : List Char) :
    cs.drop (cs.takeWhile p).length = cs.dropWhile p := by
  have hdrop : (cs.takeWhile p ++ cs.dropWhile p).drop (cs.takeWhile p).length = cs.dropWhile p :=
    List.drop_left
  rwa [List.takeWhile_append_dropWhile] at hdrop

variable {scheme : String}

/-- An authority is read by cutting off its user name. -/
theorem readAuthority_eq (hscheme : isSpecialScheme scheme = false) (cs : List Char) :
    readAuthority scheme cs =
      let authority := cs.takeWhile fun c => !endsAuthority false c
      let rest := cs.dropWhile fun c => !endsAuthority false c
      match splitUserInfo authority with
      | none => readServer scheme [] authority rest
      | some ([], server) =>
        if server.isEmpty && !rest.isEmpty then .error .emptyHost
        else readServer scheme [] server rest
      | some (user, server) => readServer scheme user server rest := by
  simp only [readAuthority, hscheme, Bool.false_eq_true, if_false, Bool.and_false,
    drop_length_takeWhile _ cs]
  cases splitUserInfo (cs.takeWhile fun c => !endsAuthority false c) with
  | none => rfl
  | some parts =>
    obtain ⟨user, server⟩ := parts
    cases user with
    | cons c user => rfl
    | nil =>
      dsimp only
      generalize (cs.dropWhile fun c => !endsAuthority false c) = rest
      by_cases h : (server.isEmpty && !rest.isEmpty) = true
      · rw [if_pos h, if_pos h]
        rfl
      · rw [if_neg h, if_neg h]
        rfl

/-! ## Reading what was put together -/

theorem readServer_written (user : List Char) {host : List Char} (hhost : IsHost host) {port : Nat}
    (hport : port ≤ 65535) (path : List Char) :
    readServer scheme user (host ++ ':' :: (toString port).toList) ('/' :: path) =
      .ok (assemble scheme user (String.ofList host) (some port) ('/' :: path)) := by
  have hdigits : portText (':' :: (toString port).toList) = (toString port).toList := by
    have hdigit : ∀ c ∈ (toString port).toList, (c != '\\') = true := fun c hc => by
      rw [bne_iff_ne]
      rintro rfl
      exact absurd (isDigit_of_mem_toString hc) (by decide)
    rw [portText, List.drop_succ_cons, List.drop_zero, List.takeWhile_eq_self_iff.2 hdigit]
  have hsome : host.isEmpty = false := by simpa using hhost.ne_nil
  rw [readServer]
  simp only [hhost.hostChars_eq, List.drop_left, hhost.readHost_eq, hsome, Bool.false_and,
    Bool.false_eq_true, if_false, hdigits, readPort_toString hport, List.drop_succ_cons,
    List.drop_zero, List.drop_length, List.nil_append]
  rfl

theorem takeWhile_authority {authority : List Char}
    (h : ∀ c ∈ authority, endsAuthority false c = false) (path : List Char) :
    (authority ++ '/' :: path).takeWhile (fun c => !endsAuthority false c) = authority ∧
      (authority ++ '/' :: path).dropWhile (fun c => !endsAuthority false c) = '/' :: path := by
  have hall : ∀ c ∈ authority, (!endsAuthority false c) = true := fun c hc => by simp [h c hc]
  rw [List.takeWhile_append_of_pos hall, List.dropWhile_append_of_pos hall,
    List.takeWhile_cons_of_neg (by decide), List.dropWhile_cons_of_neg (by decide), List.append_nil]
  exact ⟨rfl, rfl⟩

/-- The user name and the password before a host are cut off. -/
theorem Login.exists_readServer (hscheme : isSpecialScheme scheme = false) {front : List Char}
    {name : String} {password : Option String} (h : Login front name password)
    {server : List Char} (hserver : ∀ c ∈ server, IsInner c) (path : List Char) :
    ∃ user, userInfo user = (name, password) ∧
      readAuthority scheme (front ++ server ++ '/' :: path) =
        readServer scheme user server ('/' :: path) := by
  have hat : '@' ∉ server := fun hmem => (hserver _ hmem).ne_at rfl
  have hinside : ∀ c ∈ front ++ server, endsAuthority false c = false := fun c hc => by
    rcases List.mem_append.1 hc with hc | hc
    · exact (h.of_mem c hc).1
    · exact (hserver c hc).inside
  obtain ⟨hauthority, hrest⟩ := takeWhile_authority hinside path
  rw [readAuthority_eq hscheme, hauthority, hrest]
  cases h with
  | nobody =>
    refine ⟨[], userInfo_nil, ?_⟩
    dsimp only
    rw [List.nil_append, splitUserInfo_of_not_mem hat]
  | user hne hname =>
    refine ⟨name.toList, userInfo_name hname, ?_⟩
    obtain ⟨c, cs, hcons⟩ := List.exists_cons_of_ne_nil (l := name.toList) (by simpa using hne)
    dsimp only
    rw [List.append_assoc, List.singleton_append, splitUserInfo_append hat, hcons]
  | @both _ password hne hname hne' hpassword =>
    refine ⟨name.toList ++ ':' :: password.toList, userInfo_password hname hne' hpassword, ?_⟩
    obtain ⟨c, cs, hcons⟩ :=
      List.exists_cons_of_ne_nil (l := name.toList ++ ':' :: password.toList) (by simp)
    dsimp only
    rw [List.append_assoc, List.singleton_append, splitUserInfo_append hat, hcons]

/-- A URL that is put together from final forms is read as those. -/
theorem readAuthority_written (hscheme : isSpecialScheme scheme = false) {front : List Char}
    {name : String} {password : Option String} (hlogin : Login front name password)
    {host : List Char} (hhost : IsHost host) {port : Nat} (hport : port ≤ 65535) {path : List Char}
    (hpath : ∀ c ∈ path, endsPath c = false) :
    readAuthority scheme (front ++ (host ++ ':' :: (toString port).toList) ++ '/' :: path) =
      .ok {
        scheme := scheme
        username := name
        password := password
        host := some (String.ofList host)
        port := some port
        path := pathText false ('/' :: path) } := by
  have hserver : ∀ c ∈ host ++ ':' :: (toString port).toList, IsInner c := fun c hc => by
    simp only [List.mem_append, List.mem_cons] at hc
    rcases hc with hc | rfl | hc
    · exact hhost.isInner c hc
    · decide
    · exact isInner_of_isDigit (isDigit_of_mem_toString hc)
  obtain ⟨user, huser, hread⟩ := hlogin.exists_readServer hscheme hserver path
  have hall : ('/' :: path).takeWhile (fun c => !endsPath c) = '/' :: path :=
    List.takeWhile_eq_self_iff.2 (List.forall_mem_cons.2 ⟨by decide, fun c hc => by
      simp [hpath c hc]⟩)
  have hsome : (String.ofList host).isEmpty = false := by simpa using hhost.ne_nil
  rw [hread, readServer_written user hhost hport path, assemble, huser]
  simp [hall, hsome, cutQuery]

/-! ## What is read -/

structure IsFinal (u : Url) : Prop where
  username : IsUserText u.username
  password : ∀ password ∈ u.password, password ≠ "" ∧ IsUserText password
  host : ∀ host ∈ u.host, IsHost host.toList
  port : ∀ port ∈ u.port, port ≤ 65535

theorem isFinal_assemble (user : List Char) {host : String} (hhost : host ≠ "" → IsHost host.toList)
    {port : Option Nat} (hport : ∀ p ∈ port, p ≤ 65535) (behind : List Char) :
    IsFinal (assemble scheme user host port behind) where
  username := (isUserText_userInfo user).1
  password := (isUserText_userInfo user).2
  host := by
    intro text htext
    simp only [assemble, Option.mem_def] at htext
    split at htext
    · cases htext
    · next hne =>
      cases htext
      exact hhost (by simpa using hne)
  port := hport

/-- What is read from a host on: final forms, and a path from the text behind them. -/
theorem readServer_ok {user server rest : List Char} {u : Url}
    (h : readServer scheme user server rest = .ok u) :
    IsFinal u ∧ u.scheme = scheme ∧ ∃ behind,
      u.path = pathText false (behind.takeWhile fun c => !endsPath c) ∧
      behind <:+ server ++ rest ∧ (server ≠ [] → behind.length < (server ++ rest).length) := by
  obtain ⟨host, hhost, h⟩ := bind_eq_ok.1 h
  dsimp only at h
  split at h
  · cases h
  · obtain ⟨port, hport, h⟩ := bind_eq_ok.1 h
    split at h
    · cases h
    · cases h
      refine ⟨isFinal_assemble user (isHost_of_readHost hhost) ?_ _, rfl, _, rfl, ?_, ?_⟩
      · rintro p rfl
        exact le_of_readPort hport
      · rw [List.drop_drop, List.drop_drop]
        obtain ⟨front, hfront⟩ := List.drop_suffix ((hostChars false server).length + (1 +
          (portText (server.drop (hostChars false server).length)).length)) server
        exact ⟨front, by rw [← List.append_assoc, hfront]⟩
      · intro hne
        have hpos := List.length_pos_iff.2 hne
        simp only [List.length_append, List.length_drop]
        omega

/-- What is read behind two slashes: final forms, and a path from the text behind the authority. -/
theorem readAuthority_ok (hscheme : isSpecialScheme scheme = false) {cs : List Char} {u : Url}
    (h : readAuthority scheme cs = .ok u) :
    IsFinal u ∧ u.scheme = scheme ∧ ∃ behind, u.path = pathText false behind ∧
      behind ⊆ cs ∧
      ((cs.takeWhile fun c => !endsAuthority false c) ≠ [] → behind.length < cs.length) := by
  have hcs : (cs.takeWhile fun c => !endsAuthority false c) ++
      (cs.dropWhile fun c => !endsAuthority false c) = cs := List.takeWhile_append_dropWhile
  rw [readAuthority_eq hscheme] at h
  dsimp only at h
  generalize (cs.takeWhile fun c => !endsAuthority false c) = authority at h hcs ⊢
  generalize (cs.dropWhile fun c => !endsAuthority false c) = rest at h hcs
  have hserver {user server : List Char} (hsuffix : server <:+ authority)
      (h : readServer scheme user server rest = .ok u) :
      IsFinal u ∧ u.scheme = scheme ∧ ∃ behind, u.path = pathText false behind ∧
        behind ⊆ cs ∧ (authority ≠ [] → behind.length < cs.length) := by
    obtain ⟨hfinal, hsame, behind, hpath, hbehind, hshort⟩ := readServer_ok h
    have hwhole : server ++ rest <:+ cs := by
      obtain ⟨front, rfl⟩ := hsuffix
      exact ⟨front, by rw [← List.append_assoc, hcs]⟩
    have htake := List.takeWhile_sublist (fun c => !endsPath c) (l := behind)
    refine ⟨hfinal, hsame, _, hpath,
      fun c hc => hwhole.subset (hbehind.subset (htake.subset hc)), ?_⟩
    intro hne
    by_cases hempty : server = []
    · have hpos := List.length_pos_iff.2 hne
      have hlength := hbehind.length_le
      rw [hempty, List.nil_append] at hlength
      have hcount := congrArg List.length hcs
      rw [List.length_append] at hcount
      have := htake.length_le
      omega
    · exact (htake.length_le.trans_lt (hshort hempty)).trans_le hwhole.length_le
  split at h
  · exact hserver (List.suffix_refl _) h
  · next server hsplit =>
    split at h
    · cases h
    · exact hserver (splitUserInfo_suffix hsplit) h
  · next user server hsplit => exact hserver (splitUserInfo_suffix hsplit) h

/-! ## Schemes -/

theorem scheme_of_readAuthority {cs : List Char} {u : Url}
    (h : readAuthority scheme cs = .ok u) : u.scheme = scheme := by
  rw [readAuthority] at h
  dsimp only at h
  generalize (if isSpecialScheme scheme = true then _ else cs) = text at h
  generalize splitUserInfo _ = parts at h
  rcases parts with _ | ⟨_ | ⟨c, user⟩, server⟩
  case' some.nil =>
    dsimp only at h
    split at h
  -- However the user name is cut off, every error on the way ends the reading.
  all_goals
    obtain ⟨parts, -, h⟩ := bind_eq_ok.1 h
    split at h
    · cases h
    · obtain ⟨host, -, h⟩ := bind_eq_ok.1 h
      split at h
      · cases h
      · obtain ⟨port, -, h⟩ := bind_eq_ok.1 h
        split at h
        · cases h
        · cases h
          rfl

/-- What was read of a URL is in its final form, also when it has a path alone. -/
theorem isFinal_of_parse {s : String} {u : Url} (h : parse s = .ok u)
    (hscheme : isSpecialScheme u.scheme = false) : IsFinal u := by
  have hfile {scheme : String} (hspecial : isSpecialScheme scheme = false) : scheme ≠ "file" := by
    rintro rfl
    exact absurd hspecial (by decide)
  have hauthority {scheme : String} {cs : List Char} (hread : readAuthority scheme cs = .ok u) :
      IsFinal u := by
    rw [scheme_of_readAuthority hread] at hscheme
    exact (readAuthority_ok hscheme hread).1
  unfold parse at h
  split at h
  · cases h
  · split at h
    · split at h
      · next heq =>
        cases h
        exact absurd heq (hfile hscheme)
      · exact hauthority h
    · split at h
      · next heq =>
        cases h
        exact absurd heq (hfile hscheme)
      · split at h
        · exact hauthority h
        · cases h
          exact ⟨by simp [IsUserText], by simp, by simp, by simp⟩

/-- A scheme in its final form that has no rules of its own. -/
structure IsScheme (scheme : String) : Prop where
  ordinary : isSpecialScheme scheme = false
  chars : ∀ c ∈ scheme.toList, isSchemeChar c = true
  graphic : ∀ c ∈ scheme.toList, IsGraphic c
  head : (scheme.toList.head?.map Char.isAlpha).getD false = true
  lower : scheme.toList.map Char.toLower = scheme.toList

theorem IsScheme.cutScheme_eq (h : IsScheme scheme) (rest : List Char) :
    cutScheme (scheme.toList ++ ':' :: rest) = some (scheme, rest) := by
  have htake : (scheme.toList ++ ':' :: rest).takeWhile isSchemeChar = scheme.toList := by
    rw [List.takeWhile_append_of_pos h.chars, List.takeWhile_cons_of_neg (by decide),
      List.append_nil]
  have hdrop : (scheme.toList ++ ':' :: rest).dropWhile isSchemeChar = ':' :: rest := by
    rw [List.dropWhile_append_of_pos h.chars, List.dropWhile_cons_of_neg (by decide)]
  rw [cutScheme, htake, hdrop, h.head, h.lower, String.ofList_toList]
  rfl

theorem IsScheme.parse_eq (h : IsScheme scheme) (text : String) : ∃ cs,
    parse (scheme ++ "://" ++ text) = readAuthority scheme cs ∧
      ((∀ c ∈ text.toList, IsGraphic c) → cs = text.toList) := by
  have hne : scheme ≠ "file" := by
    rintro rfl
    exact absurd h.ordinary (by decide)
  have htext : (scheme ++ "://" ++ text).toList =
      scheme.toList ++ [':', '/', '/'] ++ text.toList := by
    simp
  have hmarks : ∀ c ∈ [':', '/', '/'], IsGraphic c := by simp [IsGraphic, isControl]
  have hfront : ∀ c ∈ scheme.toList ++ [':', '/', '/'], IsGraphic c := fun c hc =>
    (List.mem_append.1 hc).elim (h.graphic c) (hmarks c)
  obtain ⟨cs, hcs⟩ := exists_clean_append (by simp) hfront text.toList
  refine ⟨cs, ?_, fun hgraphic => ?_⟩
  · rw [parse, htext, hcs, List.append_assoc, List.cons_append, h.cutScheme_eq]
    exact if_neg hne
  · have hall : ∀ c ∈ scheme.toList ++ [':', '/', '/'] ++ text.toList, IsGraphic c := fun c hc =>
      (List.mem_append.1 hc).elim (hfront c) (hgraphic c)
    exact List.append_cancel_left (hcs.symm.trans (clean_eq_self hall))

end RowMapper.Url
