/-
  Subject:   URLS WHOSE SCHEME IS NOT A SPECIAL ONE, as the `url` crate parses them: the host is opaque, there is no
  default port.
-/
import Shadowsocks.Lib.Outcome
import Shadowsocks.Lib.Percent

namespace Lib

open List Option

variable {s : List Char}

theorem forall_of_all {p : Char → Prop} [DecidablePred p] (h : s.all (fun c => decide (p c)) = true) :
    ∀ c ∈ s, p c := fun c hc => of_decide_eq_true (all_eq_true.mp h c hc)

/-! ## 1. Splitting at a character -/

def splitFirst (c : Char) (s : List Char) : Option (List Char × List Char) :=
  match s.dropWhile (· != c) with
  | [] => none
  | _ :: rest => some (s.takeWhile (· != c), rest)

def splitLast (c : Char) (s : List Char) : Option (List Char × List Char) :=
  (splitFirst c s.reverse).map fun (a, b) => (b.reverse, a.reverse)

variable {c : Char}

theorem splitFirst_append {a : List Char} (h : c ∉ a) (b : List Char) : splitFirst c (a ++ c :: b) = some (a, b) := by
  have ha : ∀ x ∈ a, (x != c) = true := fun x hx => bne_iff_ne.mpr fun he => h (he ▸ hx)
  simp [splitFirst, dropWhile_append_of_pos ha, takeWhile_append_of_pos ha]

theorem splitFirst_none (h : c ∉ s) : splitFirst c s = none := by
  have hs : ∀ x ∈ s, (x != c) = true := fun x hx => bne_iff_ne.mpr fun he => h (he ▸ hx)
  rw [splitFirst, dropWhile_eq_nil_iff.mpr hs]

theorem splitLast_append {b : List Char} (h : c ∉ b) (a : List Char) : splitLast c (a ++ c :: b) = some (a, b) := by
  have hrev : (a ++ c :: b).reverse = b.reverse ++ c :: a.reverse := by simp
  rw [splitLast, hrev, splitFirst_append (by simpa using h)]
  simp

theorem splitLast_none (h : c ∉ s) : splitLast c s = none := by
  rw [splitLast, splitFirst_none (by simpa using h), map_none]

theorem splitFirst_eq {a b : List Char} (h : splitFirst c s = some (a, b)) : s = a ++ c :: b := by
  unfold splitFirst at h
  split at h
  · cases h
  rename_i d rest hdrop
  have hd : d = c := by
    have hne : s.dropWhile (· != c) ≠ [] := hdrop ▸ cons_ne_nil _ _
    have := head_dropWhile_not (· != c) hne
    simpa [hdrop] using this
  subst hd
  cases h
  rw [← hdrop, takeWhile_append_dropWhile]

theorem splitLast_eq {a b : List Char} (h : splitLast c s = some (a, b)) : s = a ++ c :: b := by
  obtain ⟨⟨b', a'⟩, hsplit, he⟩ := map_eq_some_iff.mp h
  cases he
  rw [← reverse_reverse s, splitFirst_eq hsplit]
  simp

theorem last_cases (c : Char) (s : List Char) : c ∉ s ∨ ∃ a b, s = a ++ c :: b ∧ c ∉ b := by
  by_cases h : c ∈ s
  · obtain ⟨a, b, hs, ha⟩ := eq_append_cons_of_mem (mem_reverse.mpr h)
    refine .inr ⟨b.reverse, a.reverse, ?_, by simpa using ha⟩
    rw [← reverse_reverse s, hs]
    simp
  · exact .inl h

theorem last_unique {a b a' b' : List Char} (hb : c ∉ b) (hb' : c ∉ b') (h : a ++ c :: b = a' ++ c :: b') :
    a = a' ∧ b = b' := by
  have hsplit : some (a, b) = some (a', b') := by rw [← splitLast_append hb, h, splitLast_append hb']
  simpa using hsplit

structure Url where
  (scheme username : List Char)
  (password host : Option (List Char))
  port : Option UInt16
  (query fragment : Option (List Char))

end Lib

namespace Lib.Url

open List

/-! ## 2. Sets of characters -/

def printableBut (codes : List Nat) (c : Char) : Bool :=
  0x20 < c.toNat && c.toNat < 0x7f && !codes.contains c.toNat

def userinfoKept : Char → Bool :=
  printableBut [0x22, 0x23, 0x2f, 0x3a, 0x3b, 0x3c, 0x3d, 0x3e, 0x3f, 0x40, 0x5b, 0x5c, 0x5d, 0x5e, 0x60, 0x7b, 0x7c,
    0x7d]

def forbiddenHost (c : Char) : Bool :=
  [0x00, 0x09, 0x0a, 0x0d, 0x20, 0x23, 0x2f, 0x3a, 0x3c, 0x3e, 0x3f, 0x40, 0x5b, 0x5c, 0x5d, 0x5e, 0x7c].contains c.toNat

def hostKept (c : Char) : Bool := 0x20 ≤ c.toNat && c.toNat < 0x7f

def queryKept : Char → Bool := printableBut [0x22, 0x23, 0x3c, 0x3e]

def fragmentKept : Char → Bool := printableBut [0x22, 0x3c, 0x3e, 0x60]

def isTerminator (c : Char) : Bool := c == '/' || c == '?' || c == '#'

def isTabOrNewline (c : Char) : Bool := c == '\t' || c == '\n' || c == '\r'

def isControlOrSpace (c : Char) : Bool := c.toNat ≤ 0x20

/-! ## 3. Parsing -/

inductive ParseError where
  | relativeUrlWithoutBase
  | emptyHost
  | invalidDomainCharacter
  | invalidIpv6Address
  | invalidPort

def clean (text : List Char) : List Char :=
  ((text.dropWhile isControlOrSpace).rdropWhile isControlOrSpace).filter fun c => !isTabOrNewline c

def splitScheme (s : List Char) : Option (List Char × List Char) :=
  match splitFirst ':' s with
  | some (c :: cs, rest) =>
    if c.isAlpha && cs.all fun c => c.isAlphanum || c == '+' || c == '-' || c == '.' then
      some ((c :: cs).map Char.toLower, rest)
    else none
  | _ => none

def userinfo (s : List Char) : List Char × Option (List Char) :=
  match splitFirst ':' s with
  | none => (Percent.encode userinfoKept s, none)
  | some (username, password) =>
    (Percent.encode userinfoKept username,
      if password = [] then none else some (Percent.encode userinfoKept password))

def splitHostPort : List Char → List Char × Option (List Char)
  | '[' :: s =>
    match splitFirst ']' s with
    | none => ('[' :: s, none)
    | some (inner, rest) =>
      match splitFirst ':' rest with
      | none => ('[' :: inner ++ ']' :: rest, none)
      | some (more, port) => ('[' :: inner ++ ']' :: more, some port)
  | s =>
    match splitFirst ':' s with
    | none => (s, none)
    | some (host, port) => (host, some port)

variable (canonicalV6 : List Char → Option (List Char))

def parseHost : List Char → Except ParseError (List Char)
  | '[' :: s =>
    match splitFirst ']' s with
    | some (inner, []) =>
      match canonicalV6 inner with
      | some host => .ok ('[' :: host ++ [']'])
      | none => .error .invalidIpv6Address
    | _ => .error .invalidIpv6Address
  | s => if s.any forbiddenHost then .error .invalidDomainCharacter else .ok (Percent.encode hostKept s)

def parsePort (s : List Char) : Except ParseError (Option UInt16) :=
  let digits := s.takeWhile Char.isDigit
  match s.dropWhile Char.isDigit with
  | [] | '\\' :: _ =>
    if digits = [] then .ok none
    else if Nat.ofDigitChars 10 digits 0 < 2 ^ 16 then .ok (some (UInt16.ofNat (Nat.ofDigitChars 10 digits 0)))
    else .error .invalidPort
  | _ => .error .invalidPort

def parseHostPort (s : List Char) :
    Except ParseError (Option (List Char) × Option UInt16) :=
  match splitHostPort s with
  | ([], some _) => .error .emptyHost
  | ([], none) => .ok (none, none)
  | (host, port) =>
    match parseHost canonicalV6 host, port with
    | .error e, _ => .error e
    | .ok host, none => .ok (some host, none)
    | .ok host, some port => (parsePort port).map fun port => (some host, port)

def queryOf (tail : List Char) : Option (List Char) :=
  (splitFirst '?' (tail.takeWhile (· != '#'))).map fun (_, q) => Percent.encode queryKept q

def fragmentOf (tail : List Char) : Option (List Char) :=
  (splitFirst '#' tail).map fun (_, f) => Percent.encode fragmentKept f

def parseAuthority (scheme authority tail : List Char) :
    Except ParseError Url :=
  let (info, hostPort) := (splitLast '@' authority).getD ([], authority)
  let (username, password) := userinfo info
  (parseHostPort canonicalV6 hostPort).map fun (host, port) =>
    { scheme, username, password, host, port, query := queryOf tail, fragment := fragmentOf tail }

def parse (text : List Char) : Except ParseError Url :=
  match splitScheme (clean text) with
  | none => .error .relativeUrlWithoutBase
  | some (scheme, '/' :: '/' :: rest) =>
    parseAuthority canonicalV6 scheme (rest.takeWhile (!isTerminator ·)) (rest.dropWhile (!isTerminator ·))
  | some (scheme, rest) =>
    .ok { scheme, username := [], password := none, host := none, port := none, query := queryOf rest,
          fragment := fragmentOf rest }

/-! ## 4. Queries -/

def formDecode (s : List Char) : List Char :=
  fromUtf8Lossy (Percent.decode (s.map fun c => if c = '+' then ' ' else c))

def formParse (query : List Char) : List (List Char × List Char) :=
  (query.splitOn '&').filterMap fun piece =>
    if piece = [] then none
    else
      match splitFirst '=' piece with
      | some (name, value) => some (formDecode name, formDecode value)
      | none => some (formDecode piece, [])

/-! ## 5. Texts that are put together from their parts -/

variable {text : List Char}

theorem clean_of_ends (hfirst : ∀ h : text ≠ [], isControlOrSpace (text.head h) = false)
    (hlast : ∀ h : text ≠ [], isControlOrSpace (text.getLast h) = false) :
    clean text = text.filter fun c => !isTabOrNewline c := by
  have hdrop : text.dropWhile isControlOrSpace = text := by
    cases text with
    | nil => rfl
    | cons c text => rw [dropWhile_cons_of_neg (by simpa using hfirst (by simp))]
  have hrdrop : text.rdropWhile isControlOrSpace = text :=
    rdropWhile_eq_self_iff.mpr fun h => by simpa using hlast h
  rw [clean, hdrop, hrdrop]

theorem filter_of_plain (h : ∀ c ∈ text, 0x20 < c.toNat) : (text.filter fun c => !isTabOrNewline c) = text := by
  refine filter_eq_self.mpr fun c hc => ?_
  have hlt := h c hc
  have hne : c ≠ '\t' ∧ c ≠ '\n' ∧ c ≠ '\r' := by
    refine ⟨?_, ?_, ?_⟩ <;> rintro rfl <;> exact absurd hlt (by decide)
  simp [isTabOrNewline, hne]

theorem clean_of_plain (h : ∀ c ∈ text, 0x20 < c.toNat) : clean text = text := by
  have hcontrol : ∀ c ∈ text, isControlOrSpace c = false := fun c hc => by
    have := h c hc
    simpa [isControlOrSpace] using this
  rw [clean_of_ends (fun hne => hcontrol _ (head_mem hne)) fun hne => hcontrol _ (getLast_mem hne)]
  exact filter_of_plain h

variable {v6 : List Char → Option (List Char)}

structure IsScheme (scheme : List Char) : Prop where
  valid : splitScheme (scheme ++ [':']) = some (scheme, [])
  colon : ':' ∉ scheme

theorem IsScheme.split {scheme : List Char} (h : IsScheme scheme) (rest : List Char) :
    splitScheme (scheme ++ ':' :: rest) = some (scheme, rest) := by
  have hvalid := h.valid
  rw [splitScheme, splitFirst_append h.colon] at hvalid ⊢
  cases scheme with
  | nil => cases hvalid
  | cons c cs =>
    simp only at hvalid ⊢
    split at hvalid
    · rename_i hchars
      rw [if_pos hchars]
      simp only [Option.some.injEq, Prod.mk.injEq, and_true] at hvalid ⊢
      exact hvalid
    · cases hvalid

variable {tail : List Char} {scheme authority : List Char}

theorem parse_of_authority (hscheme : IsScheme scheme)
    (hclean : clean text = scheme ++ ':' :: '/' :: '/' :: (authority ++ tail))
    (hauthority : ∀ c ∈ authority, isTerminator c = false) (htail : ∀ c, tail.head? = some c → isTerminator c = true) :
    parse v6 text = parseAuthority v6 scheme authority tail := by
  have hkeep : ∀ c ∈ authority, (!isTerminator c) = true := fun c hc => by rw [hauthority c hc]; rfl
  have htake : tail.takeWhile (!isTerminator ·) = [] := by
    cases tail with
    | nil => rfl
    | cons c tail => exact takeWhile_cons_of_neg (by simp [htail c rfl])
  have hdrop : tail.dropWhile (!isTerminator ·) = tail := by
    cases tail with
    | nil => rfl
    | cons c tail => exact dropWhile_cons_of_neg (by simp [htail c rfl])
  rw [parse, hclean, hscheme.split]
  simp only [takeWhile_append_of_pos hkeep, dropWhile_append_of_pos hkeep, htake, hdrop, append_nil]

theorem parseAuthority_at {hostPort : List Char} (h : '@' ∉ hostPort) (scheme info tail : List Char) :
    parseAuthority v6 scheme (info ++ '@' :: hostPort) tail = (parseHostPort v6 hostPort).map fun (host, port) =>
        { scheme, username := (userinfo info).1, password := (userinfo info).2, host, port, query := queryOf tail,
          fragment := fragmentOf tail } := by
  rw [parseAuthority, splitLast_append h]
  rfl

theorem parseAuthority_bare {authority : List Char} (h : '@' ∉ authority) (scheme tail : List Char) :
    parseAuthority v6 scheme authority tail = (parseHostPort v6 authority).map fun (host, port) =>
        { scheme, username := [], password := none, host, port, query := queryOf tail, fragment := fragmentOf tail } := by
  rw [parseAuthority, splitLast_none h]
  rfl

variable {s : List Char}

theorem userinfo_name (hcolon : ':' ∉ s) (hkept : ∀ c ∈ s, userinfoKept c = true) :
    userinfo s = (s, none) := by
  rw [userinfo, splitFirst_none hcolon, Percent.encode_of_kept hkept]

theorem userinfo_pair {username : List Char} (hkept : ∀ c ∈ username, userinfoKept c = true) (password : List Char) :
    userinfo (username ++ ':' :: password) =
      (username, if password = [] then none else some (Percent.encode userinfoKept password)) := by
  have hcolon : ':' ∉ username := fun h => absurd (hkept _ h) (by decide)
  rw [userinfo, splitFirst_append hcolon]
  simp only [Percent.encode_of_kept hkept]

theorem parsePort_digits {digits : List Char} (hne : digits ≠ []) (hdigits : ∀ c ∈ digits, c.isDigit = true)
    (hlt : Nat.ofDigitChars 10 digits 0 < 2 ^ 16) :
    parsePort digits = .ok (some (UInt16.ofNat (Nat.ofDigitChars 10 digits 0))) := by
  rw [parsePort, dropWhile_eq_nil_iff.mpr hdigits, takeWhile_eq_self_iff.mpr hdigits]
  simp only [if_neg hne, if_pos hlt]

structure IsHost (host : List Char) : Prop where
  ne_nil : host ≠ []
  allowed : ∀ c ∈ host, forbiddenHost c = false
  kept : ∀ c ∈ host, hostKept c = true

variable {host : List Char}

theorem IsHost.not_mem (h : IsHost host) {c : Char} (hc : forbiddenHost c = true) : c ∉ host :=
  fun hmem => by simp [h.allowed c hmem] at hc

theorem IsHost.parse (h : IsHost host) : parseHost v6 host = .ok host := by
  have hany : host.any forbiddenHost = false := any_eq_false.mpr fun c hc => by simp [h.allowed c hc]
  unfold parseHost
  split
  · exact absurd mem_cons_self (h.not_mem (by decide))
  · rw [if_neg (by simp [hany]), Percent.encode_of_kept h.kept]

theorem IsHost.split (h : IsHost host) (port : List Char) :
    splitHostPort (host ++ ':' :: port) = (host, some port) := by
  have hbracket : ∀ s, host ++ ':' :: port ≠ '[' :: s := by
    intro s hs
    cases host with
    | nil => exact h.ne_nil rfl
    | cons c host =>
      cases hs
      exact h.not_mem (by decide) mem_cons_self
  unfold splitHostPort
  split
  · exact absurd ‹_› (hbracket _)
  · rw [splitFirst_append (h.not_mem (by decide))]

theorem IsHost.split_bare (h : IsHost host) : splitHostPort host = (host, none) := by
  unfold splitHostPort
  split
  · exact absurd mem_cons_self (h.not_mem (by decide))
  · rw [splitFirst_none (h.not_mem (by decide))]

theorem parseHostPort_port {s host' port : List Char} (hsplit : splitHostPort s = (host, some port)) (hne : host ≠ [])
    (hparse : parseHost v6 host = .ok host') :
    parseHostPort v6 s = (parsePort port).map fun port => (some host', port) := by
  cases host with
  | nil => exact absurd rfl hne
  | cons c host => simp only [parseHostPort, hsplit, hparse]

theorem parseHostPort_bare {s host' : List Char} (hsplit : splitHostPort s = (host, none)) (hne : host ≠ [])
    (hparse : parseHost v6 host = .ok host') : parseHostPort v6 s = .ok (some host', none) := by
  cases host with
  | nil => exact absurd rfl hne
  | cons c host => simp only [parseHostPort, hsplit, hparse]

variable {inner : List Char}

theorem splitHostPort_brackets (h : ']' ∉ inner) (port : List Char) :
    splitHostPort ('[' :: inner ++ ']' :: ':' :: port) = ('[' :: inner ++ [']'], some port) := by
  have hcolon : splitFirst ':' (':' :: port) = some ([], port) := splitFirst_append not_mem_nil port
  simp only [cons_append, splitHostPort, splitFirst_append h, hcolon]

theorem parseHost_brackets (h : ']' ∉ inner) (hv6 : v6 inner = some host) :
    parseHost v6 ('[' :: inner ++ [']']) = .ok ('[' :: host ++ [']']) := by
  simp only [cons_append, parseHost, splitFirst_append h, hv6]

/-! ## 6. Queries and fragments that are put together from their parts -/

def IsFragmentPart (tail : List Char) : Prop := tail = [] ∨ ∃ f, tail = '#' :: f

variable {body : List Char}

theorem takeWhile_hash (hbody : '#' ∉ body) (htail : IsFragmentPart tail) :
    (body ++ tail).takeWhile (· != '#') = body := by
  have hkeep : ∀ c ∈ body, (c != '#') = true := fun c hc => bne_iff_ne.mpr fun he => hbody (he ▸ hc)
  rw [takeWhile_append_of_pos hkeep]
  rcases htail with rfl | ⟨f, rfl⟩ <;> simp

theorem queryOf_none (hbody : '#' ∉ body) (hquestion : '?' ∉ body) (htail : IsFragmentPart tail) :
    queryOf (body ++ tail) = none := by
  rw [queryOf, takeWhile_hash hbody htail, splitFirst_none hquestion, Option.map_none]

theorem queryOf_some {path query : List Char} (hpath : '#' ∉ path) (hquestion : '?' ∉ path)
    (hquery : ∀ c ∈ query, queryKept c = true) (htail : IsFragmentPart tail) :
    queryOf (path ++ '?' :: query ++ tail) = some query := by
  have hhash : '#' ∉ path ++ '?' :: query := by
    intro h
    rcases mem_append.mp h with h | h
    · exact hpath h
    · rcases mem_cons.mp h with h | h
      · exact absurd h (by decide)
      · exact absurd (hquery _ h) (by decide)
  rw [queryOf, takeWhile_hash hhash htail, splitFirst_append hquestion, Option.map_some]
  exact congrArg some (Percent.encode_of_kept hquery)

theorem fragmentOf_none (h : '#' ∉ tail) : fragmentOf tail = none := by
  rw [fragmentOf, splitFirst_none h, Option.map_none]

theorem fragmentOf_some {fragment : List Char} (hbody : '#' ∉ body)
    (hfragment : ∀ c ∈ fragment, fragmentKept c = true) : fragmentOf (body ++ '#' :: fragment) = some fragment := by
  rw [fragmentOf, splitFirst_append hbody, Option.map_some]
  exact congrArg some (Percent.encode_of_kept hfragment)

theorem formDecode_encode {keep : Char → Bool} (hpercent : keep '%' = false) (hplus : keep '+' = false)
    (text : List Char) : formDecode (Percent.encode keep text) = text := by
  have hmap : (Percent.encode keep text).map (fun c => if c = '+' then ' ' else c) = Percent.encode keep text := by
    refine (map_congr_left fun c hc => if_neg ?_).trans (map_id _)
    rintro rfl
    rcases Percent.mem_encode hc with h | h | ⟨n, hn, h⟩
    · rw [hplus] at h
      cases h
    · exact absurd h (by decide)
    · exact absurd h.symm ((by decide : ∀ n < 16, Percent.hexDigit n ≠ '+') n hn)
  rw [formDecode, hmap, Percent.decode_encode hpercent, fromUtf8Lossy_utf8]

theorem formParse_pair {name value : List Char} (hname : '=' ∉ name) (hamp : '&' ∉ name)
    (hvalue : '&' ∉ value) : formParse (name ++ '=' :: value) = [(formDecode name, formDecode value)] := by
  have hsplit : (name ++ '=' :: value).splitOn '&' = [name ++ '=' :: value] :=
    splitOn_eq_singleton (by simp [hamp, hvalue])
  have hnil : name ++ '=' :: value ≠ [] := by simp
  rw [formParse, hsplit, filterMap_cons_some (b := (formDecode name, formDecode value))]
  · rfl
  · rw [if_neg hnil, splitFirst_append hname]

/-! ## 7. How long a host is -/

theorem length_clean_le (text : List Char) : (clean text).length ≤ text.length :=
  ((filter_sublist.trans ( rdropWhile_prefix _ _).sublist).trans (dropWhile_sublist _)).length_le

theorem splitScheme_length {s scheme rest : List Char} (h : splitScheme s = some (scheme, rest)) :
    s.length = scheme.length + 1 + rest.length := by
  unfold splitScheme at h
  split at h
  · rename_i c cs rest' hsplit
    split at h
    · cases h
      rw [splitFirst_eq hsplit, length_append, length_map, length_cons (a := ':')]
      omega
    · cases h
  · cases h

theorem splitHostPort_length_le (s : List Char) : (splitHostPort s).1.length ≤ s.length := by
  unfold splitHostPort
  split
  · split
    · exact le_rfl
    rename_i inner rest hsplit
    rw [splitFirst_eq hsplit]
    split
    · exact le_rfl
    · rename_i more port hmore
      rw [splitFirst_eq hmore]
      simp only [length_cons, length_append]
      omega
  split
  · exact le_rfl
  · rename_i host port hsplit
    rw [splitFirst_eq hsplit, length_append]
    exact Nat.le_add_right _ _

theorem parseHost_plain (h : parseHost v6 s = .ok host) (hbracket : '[' ∉ host)
    (hpercent : '%' ∉ host) : host = s := by
  unfold parseHost at h
  split at h
  · split at h
    · split at h
      · cases h
        exact absurd mem_cons_self hbracket
      · cases h
    · cases h
  · split at h
    · cases h
    · cases h
      exact Percent.encode_of_no_percent hpercent

theorem parseHostPort_some {port : Option UInt16} (h : parseHostPort v6 s = .ok (some host, port)) :
    (splitHostPort s).1 ≠ [] ∧ parseHost v6 (splitHostPort s).1 = .ok host := by
  unfold parseHostPort at h
  generalize splitHostPort s = parts at h ⊢
  obtain ⟨s', port'⟩ := parts
  cases s' with
  | nil => cases port' <;> cases h
  | cons c cs =>
    refine ⟨cons_ne_nil _ _, ?_⟩
    simp only at h ⊢
    split at h
    · cases h
    · rename_i hhost
      cases h
      exact hhost
    · rename_i hhost
      obtain ⟨q, -, he⟩ := except_map_ok_iff.mp h
      cases he
      exact hhost

theorem hostPort_length_le (authority : List Char) :
    ((splitLast '@' authority).getD ([], authority)).2.length ≤ authority.length := by
  cases hsplit : splitLast '@' authority with
  | none => exact le_rfl
  | some p =>
    rw [splitLast_eq (a := p.1) (b := p.2) hsplit, length_append, length_cons]
    exact le_trans (Nat.le_succ _) (Nat.le_add_left _ _)

theorem parseAuthority_host {url : Url}
    (h : parseAuthority v6 scheme authority tail = .ok url) (hhost : url.host = some host) (hbracket : '[' ∉ host)
    (hpercent : '%' ∉ host) : url.scheme = scheme ∧ host ≠ [] ∧ host.length ≤ authority.length := by
  unfold parseAuthority at h
  have hle := hostPort_length_le authority
  obtain ⟨⟨host', port⟩, hparsed, he⟩ := except_map_ok_iff.mp h
  subst he
  cases hhost
  obtain ⟨hne, hplain⟩ := parseHostPort_some hparsed
  have hsame := parseHost_plain hplain hbracket hpercent
  refine ⟨rfl, hsame ▸ hne, ?_⟩
  rw [hsame]
  exact le_trans (splitHostPort_length_le _) hle

theorem parse_host_length {url : Url} (h : parse v6 text = .ok url) (hhost : url.host = some host)
    (hbracket : '[' ∉ host) (hpercent : '%' ∉ host) :
    host ≠ [] ∧ url.scheme.length + 3 + host.length ≤ text.length := by
  unfold parse at h
  split at h
  · cases h
  · rename_i scheme rest hscheme
    obtain ⟨he, hne, hle⟩ := parseAuthority_host h hhost hbracket hpercent
    have hclean := length_clean_le text
    have hauthority : (rest.takeWhile (!isTerminator ·)).length ≤ rest.length := (takeWhile_sublist _).length_le
    rw [splitScheme_length hscheme, length_cons, length_cons] at hclean
    rw [he]
    exact ⟨hne, by omega⟩
  · cases h
    cases hhost

end Lib.Url
