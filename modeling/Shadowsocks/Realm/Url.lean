/-
  Subject:   REALM URLS (`crates/shadowsocks-realm/src/url.rs`).
-/
import Shadowsocks.Config.Server

namespace Shadowsocks.Realm.Url

open Lib Config List

abbrev Text := List Char

structure RealmUrl where
  (token host realm : Text)
  https : Bool
  stunServers : List Text
  lport : Option UInt16

inductive Error where
  | invalidUrl (message : String) (input : Text)

def scheme : Bool → Text
  | true => "realm://".toList
  | false => "realm+http://".toList

def stunKey : Text := "stun".toList

def lportKey : Text := "lport".toList

def pairs (query : Option Text) : List Text := ((query.map (·.splitOn '&')).getD []).filter (· ≠ [])

def keyValue (pair : Text) : Text × Text := (splitFirst '=' pair).getD (pair, [])

def readPair (input : Text) (acc : List Text × Option UInt16) (pair : Text) :
    Except Error (List Text × Option UInt16) :=
  let (k, v) := keyValue pair
  if k = stunKey then .ok (acc.1 ++ [v], acc.2)
  else if k = lportKey then
    match u16FromStr v with
    | some port => .ok (acc.1, some port)
    | none => .error (.invalidUrl "lport must be a u16" input)
  else .ok acc

def parseRest (https : Bool) (input rest : Text) : Except Error RealmUrl :=
  let bad m := Except.error (.invalidUrl m input)
  let (authorityPath, query) := (splitFirst '?' rest).elim (rest, none) fun (ap, q) => (ap, some q)
  match splitFirst '@' authorityPath with
  | none => bad "missing token@ before host"
  | some (token, hostPath) =>
    if token = [] then bad "empty token"
    else
      match splitFirst '/' hostPath with
      | none => bad "missing /realm-name path"
      | some (host, realm) =>
        if host = [] then bad "empty host"
        else if realm = [] then bad "empty realm name"
        else do
          let (stunServers, lport) ← (pairs query).foldlM (readPair input) ([], none)
          pure { token, host, realm, https, stunServers, lport }

def parse (input : Text) : Except Error RealmUrl :=
  match input.dropPrefix? (scheme true) with
  | some rest => parseRest true input rest
  | none =>
    match input.dropPrefix? (scheme false) with
    | some rest => parseRest false input rest
    | none => .error (.invalidUrl "expected scheme realm:// or realm+http://" input)

/-! ## 1. Texts put together -/

structure Parts where
  (token host realm : Text)
  https : Bool
  token_ok : token ≠ [] ∧ '@' ∉ token ∧ '?' ∉ token
  host_ok : host ≠ [] ∧ '/' ∉ host ∧ '?' ∉ host
  realm_ok : realm ≠ [] ∧ '?' ∉ realm

inductive Param where
  | stun (server : { v : Text // '&' ∉ v })
  | lport (port : UInt16)
  | unknown (text : { t : Text // '&' ∉ t ∧ (keyValue t).1 ≠ stunKey ∧ (keyValue t).1 ≠ lportKey })

def Param.text : Param → Text
  | .stun server => stunKey ++ '=' :: server.1
  | .lport port => lportKey ++ '=' :: decimal port.toNat
  | .unknown text => text.1

variable (params : List Param)

def stunServers : List Text :=
  params.filterMap fun
    | .stun server => some server.1
    | _ => none

def lports : List UInt16 :=
  params.filterMap fun
    | .lport port => some port
    | _ => none

variable (p : Parts)

def Parts.path : Text := p.token ++ '@' :: (p.host ++ '/' :: p.realm)

def behind : Option Text → Text
  | none => []
  | some query => '?' :: query

def Parts.text (query : Option Text) : Text := scheme p.https ++ (p.path ++ behind query)

def queryText : Text := ['&'].intercalate (params.map Param.text)

def Parts.url (params : List Param) : RealmUrl :=
  ⟨p.token, p.host, p.realm, p.https, stunServers params, (lports params).getLast?⟩

def PortsRead (query : Option Text) : Prop :=
  ∀ pair ∈ pairs query, (keyValue pair).1 = lportKey → ∃ port, u16FromStr (keyValue pair).2 = some port

/-! ## 2. Reading them -/

theorem splitFirst_iff {c : Char} {s a b : Text} : splitFirst c s = some (a, b) ↔ s = a ++ c :: b ∧ c ∉ a := by
  constructor
  · intro h
    have hs := splitFirst_eq h
    obtain ⟨a', b', hs', ha'⟩ := eq_append_cons_of_mem (show c ∈ s by rw [hs]; simp)
    rw [hs', splitFirst_append ha'] at h
    cases h
    exact ⟨hs', ha'⟩
  · intro h
    rw [h.1, splitFirst_append h.2]

theorem Param.not_mem_text (p : Param) : '&' ∉ p.text := by
  cases p with
  | stun server => simp [text, stunKey, server.2]
  | lport port =>
    have hdigits : '&' ∉ decimal port.toNat := fun h => absurd (decimal_isDigit h) (by decide)
    simp [text, lportKey, hdigits]
  | unknown text => exact text.2.1

theorem u16FromStr_decimal (port : UInt16) : u16FromStr (decimal port.toNat) = some port := by
  have hplus : ∀ s, decimal port.toNat ≠ '+' :: s := by
    intro s hs
    exact absurd (decimal_isDigit (hs ▸ mem_cons_self)) (by decide)
  rw [u16FromStr.eq_2 _ hplus, parsePort_decimal]

theorem keyValue_append {k : Text} (h : '=' ∉ k) (v : Text) : keyValue (k ++ '=' :: v) = (k, v) := by
  rw [keyValue, splitFirst_append h, Option.getD_some]

variable (input : Text)

theorem readPair_text (acc : List Text × Option UInt16) (p : Param) :
    readPair input acc p.text = .ok (acc.1 ++ stunServers [p], (lports [p]).getLast?.or acc.2) := by
  cases p with
  | stun server =>
    have hkv := keyValue_append (show '=' ∉ stunKey by decide) server.1
    simp [readPair, Param.text, hkv, stunServers, lports]
  | lport port =>
    have hkv := keyValue_append (show '=' ∉ lportKey by decide) (decimal port.toNat)
    have hkeys : lportKey ≠ stunKey := by decide
    simp [readPair, Param.text, hkv, hkeys, u16FromStr_decimal, stunServers, lports]
  | unknown text => simp [readPair, Param.text, text.2.2.1, text.2.2.2, stunServers, lports]

theorem foldlM_text (acc : List Text × Option UInt16) :
    ((params.map Param.text).filter (· ≠ [])).foldlM (readPair input) acc =
      .ok (acc.1 ++ stunServers params, (lports params).getLast?.or acc.2) := by
  induction params generalizing acc with
  | nil => simp [stunServers, lports, pure, Except.pure]
  | cons p params ih =>
    have hstun : stunServers (p :: params) = stunServers [p] ++ stunServers params := filterMap_append (l := [p])
    have hport : lports (p :: params) = lports [p] ++ lports params := filterMap_append (l := [p])
    have hread := readPair_text input acc p
    rw [hstun, hport, map_cons, getLast?_append, Option.or_assoc, ← append_assoc]
    by_cases hempty : p.text = []
    · -- an empty pair is passed over, as an unknown one
      rw [filter_cons_of_neg (by simpa using hempty), ih]
      have hnone : readPair input acc [] = .ok acc := rfl
      rw [hempty, hnone] at hread
      have hstuns : acc.1 = acc.1 ++ stunServers [p] := congrArg Prod.fst (Except.ok.inj hread)
      have hports : acc.2 = (lports [p]).getLast?.or acc.2 := congrArg Prod.snd (Except.ok.inj hread)
      rw [← hstuns, ← hports]
    · rw [filter_cons_of_pos (by simpa using hempty), foldlM_cons, hread]
      exact ih _

theorem pairs_queryText : pairs (some (queryText params)) = (params.map Param.text).filter (· ≠ []) := by
  cases params with
  | nil => rfl
  | cons p params =>
    rw [pairs, Option.map_some, Option.getD_some, queryText, splitOn_intercalate]
    · intro t ht
      obtain ⟨q, -, rfl⟩ := mem_map.mp ht
      exact q.not_mem_text
    · simp

variable {acc acc' : List Text × Option UInt16}

theorem readPair_lport {pair : Text} (h : readPair input acc pair = .ok acc')
    (hkey : (keyValue pair).1 = lportKey) : ∃ port, u16FromStr (keyValue pair).2 = some port := by
  have hkeys : lportKey ≠ stunKey := by decide
  cases hport : u16FromStr (keyValue pair).2 with
  | some port => exact ⟨port, rfl⟩
  | none => simp [readPair, hkey, hkeys, hport] at h

theorem foldlM_lport {texts : List Text} (h : texts.foldlM (readPair input) acc = .ok acc') :
    ∀ pair ∈ texts, (keyValue pair).1 = lportKey → ∃ port, u16FromStr (keyValue pair).2 = some port := by
  induction texts generalizing acc with
  | nil => simp
  | cons text texts ih =>
    obtain ⟨acc₁, hread, hrest⟩ := except_bind_ok_iff.mp h
    intro pair hpair hkey
    rcases mem_cons.mp hpair with rfl | hpair
    · exact readPair_lport input hread hkey
    · exact ih hrest pair hpair hkey

/-! ## 3. The whole text -/

theorem dropPrefix_append (lead rest : Text) : (lead ++ rest).dropPrefix? lead = some rest :=
  dropPrefix?_eq_some_iff.mpr ⟨lead, rfl, beq_self_eq_true lead⟩

theorem dropPrefix_plain (rest : Text) : (scheme false ++ rest).dropPrefix? (scheme true) = none := by
  rw [Option.eq_none_iff_forall_ne_some]
  intro rest' h
  obtain ⟨lead, heq, hlead⟩ := dropPrefix?_eq_some_iff.mp h
  rw [eq_of_beq hlead] at heq
  -- they differ behind `realm`
  have htake := congrArg (take 6) heq
  rw [take_append_of_le_length (by decide), take_append_of_le_length (by decide)] at htake
  exact absurd htake (by decide)

theorem parse_scheme (https : Bool) (rest : Text) :
    parse (scheme https ++ rest) = parseRest https (scheme https ++ rest) rest := by
  cases https with
  | true => rw [parse, dropPrefix_append]
  | false => rw [parse, dropPrefix_plain, dropPrefix_append]

theorem splitQuery {ap : Text} (h : '?' ∉ ap) (query : Option Text) :
    (splitFirst '?' (ap ++ behind query)).elim (ap ++ behind query, none)
      (fun x => (x.1, some x.2)) = (ap, query) := by
  cases query with
  | none => simp [behind, splitFirst_none h]
  | some q => simp [behind, splitFirst_append h]

theorem parseRest_path (query : Option Text) : parseRest p.https input (p.path ++ behind query) =
    ((pairs query).foldlM (readPair input) ([], none)).map fun x => ⟨p.token, p.host, p.realm, p.https, x.1, x.2⟩ := by
  have hpath : '?' ∉ p.path := by simp [Parts.path, p.token_ok, p.host_ok, p.realm_ok]
  rw [parseRest, splitQuery hpath]
  simp only [Parts.path, splitFirst_append p.token_ok.2.1, splitFirst_append p.host_ok.2.1, p.token_ok.1, p.host_ok.1,
    p.realm_ok.1, if_false]
  cases (pairs query).foldlM (readPair input) ([], none) <;> rfl

theorem parts_of_parseRest {https : Bool} {rest : Text} {u : RealmUrl} (h : parseRest https input rest = .ok u) :
    ∃ (p : Parts) (query : Option Text), p.https = https ∧ rest = p.path ++ behind query ∧ PortsRead query := by
  obtain ⟨ap, query, hap, hrest⟩ : ∃ ap, ∃ query : Option Text, '?' ∉ ap ∧ rest = ap ++ behind query := by
    by_cases hmem : '?' ∈ rest
    · obtain ⟨ap, q, hrest, hap⟩ := eq_append_cons_of_mem hmem
      exact ⟨ap, some q, hap, hrest⟩
    · exact ⟨rest, none, hmem, (append_nil rest).symm⟩
  unfold parseRest at h
  rw [hrest, splitQuery hap] at h
  dsimp only at h
  split at h
  · cases h
  rename_i token hostPath htoken
  obtain ⟨rfl, hat⟩ := splitFirst_iff.mp htoken
  split at h
  · cases h
  rename_i htokenNe
  split at h
  · cases h
  · rename_i host realm hhost
    obtain ⟨rfl, hslash⟩ := splitFirst_iff.mp hhost
    split at h
    · cases h
    · rename_i hhostNe
      split at h
      · cases h
      · rename_i hrealm
        simp only [mem_append, mem_cons, not_or] at hap
        obtain ⟨x, hread, -⟩ := except_bind_ok_iff.mp h
        exact ⟨⟨token, host, realm, https, ⟨htokenNe, hat, hap.1⟩, ⟨hhostNe, hslash, hap.2.2.1⟩,
          ⟨hrealm, hap.2.2.2.2⟩⟩, query, rfl, hrest, foldlM_lport input hread⟩

/-- A text of scheme, token, host, realm and parameters is parsed into these, with the last port; others are refused.
-/
theorem parse_exact : (∀ (p : Parts) (params : Option (List Param)),
        parse (p.text (params.map queryText)) = .ok (p.url (params.getD []))) ∧
      ∀ input, (∃ e, parse input = .error e) ∨
        ∃ (p : Parts) (query : Option Text), input = p.text query ∧ PortsRead query := by
  constructor
  · intro p params
    rw [Parts.text, parse_scheme, parseRest_path]
    cases params with
    | none => rfl
    | some params =>
      rw [Option.map_some, pairs_queryText, foldlM_text]
      simp [Except.map, Parts.url]
  intro input
  cases h : parse input with
  | error e => exact .inl ⟨e, rfl⟩
  | ok u =>
    obtain ⟨https, rest, rfl⟩ : ∃ https rest, input = scheme https ++ rest := by
      unfold parse at h
      split at h
      · rename_i rest hrest
        obtain ⟨lead, hinput, hlead⟩ := dropPrefix?_eq_some_iff.mp hrest
        exact ⟨true, rest, by rw [hinput, eq_of_beq hlead]⟩
      split at h
      · rename_i rest hrest
        obtain ⟨lead, hinput, hlead⟩ := dropPrefix?_eq_some_iff.mp hrest
        exact ⟨false, rest, by rw [hinput, eq_of_beq hlead]⟩
      · cases h
    rw [parse_scheme] at h
    obtain ⟨p, query, rfl, hrest, hports⟩ := parts_of_parseRest _ h
    exact .inr ⟨p, query, by rw [Parts.text, hrest], hports⟩

end Shadowsocks.Realm.Url
