import RowMapper.Config.Variables
import Mathlib.Data.List.Perm.Basic

/-! # The order of variables

Each variable with the name of a URL asks for one connection, and its value is accepted as
a configuration or refused. Different variables can ask for one connection: names differ in
case only, or the default connection is asked for by `DB_URL` and by `DB_DEFAULT_URL`. The
last one that is read counts then, and the first refusal that is met is reported, so what
comes out depends on the order in which the variables are read. It does not when there is
one refusal to report, and when those that ask for one connection agree on it.
-/

namespace RowMapper.DatabaseConfig

/-! ## Requests -/

/-- A connection that is asked for, with its configuration or the reason to refuse it. -/
abbrev Request := String × Except Error ConnectionConfig

def prefixed (all : Entries String) (name : String) (c : ConnectionConfig) : ConnectionConfig :=
  match all.get? (prefixVariable name) with
  | some start => { c with tablePrefix := start }
  | none => c

/-- What one variable asks for among all of them. -/
def request? (all : Entries String) (entry : String × String) : Option Request :=
  (connectionOfVariable entry.1).map fun name =>
    (name, (ConnectionConfig.ofUrl entry.2).map (prefixed all name))

def requests (vars : Entries String) : List Request := vars.filterMap (request? vars)

/-- Grant one request: a later one for the same connection takes its place. -/
def grant (config : DatabaseConfig) : Request → Except Error DatabaseConfig
  | (name, .ok c) => .ok (Entries.put config name c)
  | (_, .error e) => .error e

/-- Grant requests one after another, up to the first that is refused. -/
def grantAll (rs : List Request) (config : DatabaseConfig) : Except Error DatabaseConfig :=
  rs.foldlM grant config

@[simp] theorem grantAll_nil (config : DatabaseConfig) : grantAll [] config = .ok config := rfl

@[simp] theorem grantAll_ok (name : String) (c : ConnectionConfig) (rs : List Request)
    (config : DatabaseConfig) :
    grantAll ((name, .ok c) :: rs) config = grantAll rs (Entries.put config name c) := rfl

@[simp] theorem grantAll_error (name : String) (e : Error) (rs : List Request)
    (config : DatabaseConfig) : grantAll ((name, .error e) :: rs) config = .error e := rfl

theorem addVariable_eq (all : Entries String) (config : DatabaseConfig) (key value : String) :
    addVariable all config key value =
      ((request? all (key, value)).map (grant config)).getD (.ok config) := by
  unfold addVariable request?
  dsimp only
  cases connectionOfVariable key with
  | none => rfl
  | some name =>
    cases ConnectionConfig.ofUrl value with
    | error e => rfl
    | ok c => rfl

theorem foldlM_addVariable (all vars : Entries String) (config : DatabaseConfig) :
    vars.foldlM (fun config (key, value) => addVariable all config key value) config =
      grantAll (vars.filterMap (request? all)) config := by
  induction vars generalizing config with
  | nil => rfl
  | cons entry vars ih =>
    obtain ⟨key, value⟩ := entry
    rw [List.foldlM_cons]
    dsimp only
    rw [addVariable_eq, List.filterMap_cons]
    cases hrequest : request? all (key, value) with
    | none => exact ih config
    | some r =>
      obtain ⟨name, result⟩ := r
      cases result with
      | error e => rfl
      | ok c => exact ih _

theorem ofVariables_eq {vars : Entries String} (h : vars.names.Nodup) :
    ofVariables vars = grantAll (requests vars) [] := by
  rw [ofVariables, Entries.ofPairs_of_nodup h]
  exact foldlM_addVariable vars vars []

theorem request?_of_perm {vars order : Entries String} (h : vars.names.Nodup)
    (hperm : order.Perm vars) : request? order = request? vars := by
  funext entry
  unfold request? prefixed
  simp only [Entries.get?_of_perm h hperm]

theorem requests_perm {vars order : Entries String} (h : vars.names.Nodup)
    (hperm : order.Perm vars) : (requests order).Perm (requests vars) := by
  rw [requests, requests, request?_of_perm h hperm]
  exact hperm.filterMap _

/-! ## What comes out -/

/-- Two outcomes that no caller can tell apart: the same error, or the same connections under
the same names. -/
def SameOutcome : Except Error DatabaseConfig → Except Error DatabaseConfig → Prop
  | .error e, .error e' => e = e'
  | .ok config, .ok config' => ∀ name, Entries.get? config name = Entries.get? config' name
  | _, _ => False

/-- Requests among which the order does not matter. -/
structure Concordant (rs : List Request) : Prop where
  refusals : ∀ ⦃name name' e e'⦄, (name, .error e) ∈ rs → (name', .error e') ∈ rs → e = e'
  grants : (∀ name e, (name, .error e) ∉ rs) →
    ∀ ⦃name c c'⦄, (name, .ok c) ∈ rs → (name, .ok c') ∈ rs → c = c'

theorem Concordant.of_perm {rs rs' : List Request} (h : Concordant rs) (hperm : rs'.Perm rs) :
    Concordant rs' where
  refusals _ _ _ _ hmem hmem' := h.refusals (hperm.mem_iff.1 hmem) (hperm.mem_iff.1 hmem')
  grants hnone _ _ _ hmem hmem' :=
    h.grants (fun name e hrefused => hnone name e (hperm.mem_iff.2 hrefused))
      (hperm.mem_iff.1 hmem) (hperm.mem_iff.1 hmem')

variable {rs : List Request} {config : DatabaseConfig}

theorem mem_of_grantAll_error {e : Error} (h : grantAll rs config = .error e) :
    ∃ name, (name, .error e) ∈ rs := by
  induction rs generalizing config with
  | nil => cases h
  | cons r rs ih =>
    obtain ⟨name, result⟩ := r
    cases result with
    | error e' =>
      cases h
      exact ⟨name, List.mem_cons_self⟩
    | ok c =>
      obtain ⟨other, hmem⟩ := ih h
      exact ⟨other, List.mem_cons_of_mem _ hmem⟩

theorem not_mem_of_grantAll_ok {t : DatabaseConfig} (h : grantAll rs config = .ok t)
    (name : String) (e : Error) : (name, .error e) ∉ rs := by
  induction rs generalizing config with
  | nil => exact List.not_mem_nil
  | cons r rs ih =>
    obtain ⟨other, result⟩ := r
    cases result with
    | error e' => cases h
    | ok c =>
      intro hmem
      rcases List.mem_cons.1 hmem with heq | hmem
      · cases heq
      · exact ih h hmem

def asked (name : String) (rs : List Request) : List ConnectionConfig :=
  rs.filterMap fun r => if r.1 = name then r.2.toOption else none

theorem mem_asked {name : String} {c : ConnectionConfig} :
    c ∈ asked name rs ↔ (name, .ok c) ∈ rs := by
  rw [asked, List.mem_filterMap]
  constructor
  · rintro ⟨⟨other, result⟩, hmem, hc⟩
    split at hc
    · next hname =>
      cases result with
      | error e => cases hc
      | ok c' =>
        cases hc
        exact hname ▸ hmem
    · cases hc
  · intro hmem
    exact ⟨_, hmem, if_pos rfl⟩

theorem get?_grantAll {t : DatabaseConfig} (h : grantAll rs config = .ok t) (name : String) :
    Entries.get? t name = (asked name rs).getLast?.or (Entries.get? config name) := by
  induction rs generalizing config with
  | nil =>
    cases h
    rfl
  | cons r rs ih =>
    obtain ⟨other, result⟩ := r
    cases result with
    | error e => cases h
    | ok c =>
      rw [ih h]
      by_cases hname : other = name
      · subst hname
        have hfirst : asked other ((other, .ok c) :: rs) = c :: asked other rs :=
          List.filterMap_cons_some (if_pos rfl)
        rw [Entries.get?_put_self, hfirst, List.getLast?_cons]
        cases (asked other rs).getLast? <;> rfl
      · have hother : asked name ((other, .ok c) :: rs) = asked name rs :=
          List.filterMap_cons_none (if_neg hname)
        rw [Entries.get?_put_of_ne config c hname, hother]

/-- Under concordant requests a name comes out with what any of them asks for it. -/
theorem Concordant.get?_grantAll {t : DatabaseConfig} (hrs : Concordant rs)
    (h : grantAll rs [] = .ok t) {name : String} {c : ConnectionConfig} :
    Entries.get? t name = some c ↔ (name, .ok c) ∈ rs := by
  rw [DatabaseConfig.get?_grantAll h, Entries.get?_nil, Option.or_none]
  constructor
  · intro hlast
    exact mem_asked.1 (List.mem_of_getLast? hlast)
  · intro hmem
    obtain ⟨c', hlast⟩ : ∃ c', (asked name rs).getLast? = some c' := by
      rw [← Option.isSome_iff_exists, List.getLast?_isSome]
      exact List.ne_nil_of_mem (mem_asked.2 hmem)
    have hmem' := mem_asked.1 (List.mem_of_getLast? hlast)
    rw [hlast, hrs.grants (not_mem_of_grantAll_ok h) hmem' hmem]

theorem Concordant.sameOutcome {rs' : List Request} (h : Concordant rs) (hperm : rs'.Perm rs) :
    SameOutcome (grantAll rs []) (grantAll rs' []) := by
  have h' := h.of_perm hperm
  cases hfirst : grantAll rs [] with
  | error e =>
    obtain ⟨name, hmem⟩ := mem_of_grantAll_error hfirst
    cases hsecond : grantAll rs' [] with
    | error e' =>
      obtain ⟨name', hmem'⟩ := mem_of_grantAll_error hsecond
      exact h.refusals hmem (hperm.mem_iff.1 hmem')
    | ok t => exact not_mem_of_grantAll_ok hsecond name e (hperm.mem_iff.2 hmem)
  | ok t =>
    cases hsecond : grantAll rs' [] with
    | error e' =>
      obtain ⟨name', hmem'⟩ := mem_of_grantAll_error hsecond
      exact not_mem_of_grantAll_ok hfirst name' e' (hperm.mem_iff.1 hmem')
    | ok t' =>
      intro name
      apply Option.ext
      intro c
      rw [h.get?_grantAll hfirst, h'.get?_grantAll hsecond, hperm.mem_iff]

/-! ## Orders -/

theorem grantAll_of_accepted (h : ∀ name e, (name, .error e) ∉ rs) (config : DatabaseConfig) :
    ∃ t, grantAll rs config = .ok t := by
  cases hall : grantAll rs config with
  | ok t => exact ⟨t, rfl⟩
  | error e =>
    obtain ⟨name, hmem⟩ := mem_of_grantAll_error hall
    exact absurd hmem (h name e)

section Orders

variable {vars : Entries String} {name : String}

/-- A request is that of a variable, which can be read before all others. -/
theorem exists_perm_of_mem_requests {r : Request} (hmem : r ∈ requests vars) :
    ∃ entry rest, (entry :: rest).Perm vars ∧ request? vars entry = some r := by
  obtain ⟨entry, hentry, hrequest⟩ := List.mem_filterMap.1 hmem
  obtain ⟨before, after, rfl⟩ := List.append_of_mem hentry
  exact ⟨entry, before ++ after, List.perm_middle.symm, hrequest⟩

/-- Every refusal is reported in some order: when its variable is the first to be read. -/
theorem exists_order_refused (h : vars.names.Nodup) {e : Error}
    (hmem : (name, .error e) ∈ requests vars) :
    ∃ order, order.Perm vars ∧ ofVariables order = .error e := by
  obtain ⟨entry, rest, hperm, hrequest⟩ := exists_perm_of_mem_requests hmem
  refine ⟨_, hperm, ?_⟩
  rw [ofVariables_eq (Entries.nodup_of_perm h hperm), requests, request?_of_perm h hperm,
    List.filterMap_cons, hrequest]
  rfl

/-- Every accepted request is granted in some order: when its variable is the last to be read. -/
theorem exists_order_granted (h : vars.names.Nodup) {c : ConnectionConfig}
    (haccepted : ∀ name e, (name, .error e) ∉ requests vars)
    (hmem : (name, .ok c) ∈ requests vars) :
    ∃ order, order.Perm vars ∧
      ∃ t, ofVariables order = .ok t ∧ Entries.get? t name = some c := by
  obtain ⟨entry, rest, hfirst, hrequest⟩ := exists_perm_of_mem_requests hmem
  have hlast : (rest ++ [entry]).Perm vars := (List.perm_append_singleton entry rest).trans hfirst
  have hrefused : ∀ other e, (other, .error e) ∉ requests (rest ++ [entry]) := fun other e hmem =>
    haccepted other e ((requests_perm h hlast).mem_iff.1 hmem)
  obtain ⟨t, ht⟩ := grantAll_of_accepted hrefused []
  refine ⟨_, hlast, t, ?_, ?_⟩
  · rw [ofVariables_eq (Entries.nodup_of_perm h hlast), ht]
  · have hsplit : requests (rest ++ [entry]) =
        rest.filterMap (request? vars) ++ [(name, .ok c)] := by
      rw [requests, request?_of_perm h hlast, List.filterMap_append, List.filterMap_cons, hrequest]
      rfl
    have hasked : asked name (requests (rest ++ [entry])) =
        asked name (rest.filterMap (request? vars)) ++ [c] := by
      rw [hsplit, asked, List.filterMap_append]
      exact congrArg (asked name _ ++ ·) (List.filterMap_cons_some (if_pos rfl))
    rw [get?_grantAll ht, hasked, List.getLast?_concat]
    rfl

/-- The order of the variables does not matter just when all refusals are the same error and,
without a refusal, all variables that ask for one connection agree on its configuration. -/
theorem sameOutcome_iff_concordant (h : vars.names.Nodup) :
    (∀ first second, first.Perm vars → second.Perm vars →
      SameOutcome (ofVariables first) (ofVariables second)) ↔ Concordant (requests vars) := by
  constructor
  · intro hsame
    constructor
    · intro name name' e e' hmem hmem'
      obtain ⟨first, hfirst, hrefused⟩ := exists_order_refused h hmem
      obtain ⟨second, hsecond, hrefused'⟩ := exists_order_refused h hmem'
      have houtcome := hsame first second hfirst hsecond
      rw [hrefused, hrefused'] at houtcome
      exact houtcome
    · intro haccepted name c c' hmem hmem'
      obtain ⟨first, hfirst, t, hgranted, hget⟩ := exists_order_granted h haccepted hmem
      obtain ⟨second, hsecond, t', hgranted', hget'⟩ := exists_order_granted h haccepted hmem'
      have houtcome := hsame first second hfirst hsecond
      rw [hgranted, hgranted'] at houtcome
      exact Option.some.inj (hget.symm.trans ((houtcome name).trans hget'))
  · intro hconcordant first second hfirst hsecond
    have hboth : (requests second).Perm (requests first) :=
      (requests_perm h hsecond).trans (requests_perm h hfirst).symm
    rw [ofVariables_eq (Entries.nodup_of_perm h hfirst),
      ofVariables_eq (Entries.nodup_of_perm h hsecond)]
    exact (hconcordant.of_perm (requests_perm h hfirst)).sameOutcome hboth

end Orders

/-- One connection under two names, with one URL, and a table prefix for it. -/
def twinUrls : Entries String :=
  [("DB_SHOP_URL", "sqlite:a"), ("DB_shop_URL", "sqlite:a"), ("DB_SHOP_PREFIX", "app_")]

def twinShop : ConnectionConfig := { ConnectionConfig.new .sqlite "a" with tablePrefix := "app_" }

theorem twinUrls_sameOutcome : twinUrls.names.Nodup ∧
    ∀ first second, first.Perm twinUrls → second.Perm twinUrls →
      SameOutcome (ofVariables first) (ofVariables second) := by
  have hnames : twinUrls.names.Nodup := by decide
  refine ⟨hnames, (sameOutcome_iff_concordant hnames).2 ?_⟩
  have hrequests : requests twinUrls = List.replicate 2 ("shop", .ok twinShop) := rfl
  rw [hrequests]
  constructor
  · intro _ _ _ _ hmem
    cases List.eq_of_mem_replicate hmem
  · intro _ _ _ _ hmem hmem'
    cases List.eq_of_mem_replicate hmem
    cases List.eq_of_mem_replicate hmem'
    rfl

/-- The default connection asked for by both of its variables, one connection in two spellings,
and two refusals. -/
def rivalUrls : Entries String := [("DB_URL", "sqlite:a"), ("DB_DEFAULT_URL", "sqlite:b")]

def rivalCases : Entries String := [("DB_SHOP_URL", "sqlite:a"), ("DB_shop_URL", "sqlite:b")]

def rivalRefusals : Entries String := [("DB_URL", "sqlite:"), ("DB_SHOP_URL", "")]

theorem rivals_depend_on_order :
    (rivalUrls.names.Nodup ∧
      ¬ SameOutcome (ofVariables rivalUrls) (ofVariables rivalUrls.reverse)) ∧
    (rivalCases.names.Nodup ∧
      ¬ SameOutcome (ofVariables rivalCases) (ofVariables rivalCases.reverse)) ∧
    (rivalRefusals.names.Nodup ∧
      ¬ SameOutcome (ofVariables rivalRefusals) (ofVariables rivalRefusals.reverse)) := by
  have hurls : ofVariables rivalUrls = .ok [("default", .new .sqlite "b")] ∧
      ofVariables rivalUrls.reverse = .ok [("default", .new .sqlite "a")] := ⟨rfl, rfl⟩
  have hcases : ofVariables rivalCases = .ok [("shop", .new .sqlite "b")] ∧
      ofVariables rivalCases.reverse = .ok [("shop", .new .sqlite "a")] := ⟨rfl, rfl⟩
  have hrefusals :
      ofVariables rivalRefusals =
        .error (.configuration "Missing database name in connection configuration") ∧
      ofVariables rivalRefusals.reverse =
        .error (.configuration "Invalid database URL: relative URL without a base") := ⟨rfl, rfl⟩
  rw [hurls.1, hurls.2, hcases.1, hcases.2, hrefusals.1, hrefusals.2]
  refine ⟨⟨by decide, fun h => ?_⟩, ⟨by decide, fun h => ?_⟩, by decide, fun h => ?_⟩
  · exact absurd (h "default") (by decide)
  · exact absurd (h "shop") (by decide)
  · exact absurd (Error.configuration.inj h) (by decide)

end RowMapper.DatabaseConfig
