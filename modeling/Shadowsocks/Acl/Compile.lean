/-
  Subject:   WHAT HOST RULES MATCH, AS WRITTEN AND AS COMPILED (`ParsingRules` and `Rules::check_host_matched` of
  the service's `acl/mod.rs`). The `regex` crate is a parameter; `RegexEngine.Lawful` fixes it for the expressions
  that `add_regex_rule` takes for names only.
-/
import Shadowsocks.Acl.Rules

namespace Shadowsocks.Acl

open Lib List

/-! ## 1. The rules as written -/

inductive HostRule where
  | exact (name : Text)
  | subDomains (name : Text)
  | regex (text : Text)

def IsSubDomain (name host : Text) : Prop := host = name ∨ ∃ labels, host = labels ++ '.' :: name

def HostRule.Matches (E : RegexEngine) (host : Text) : HostRule → Prop
  | .exact name => host = toAsciiLowercase (trimEndDots name)
  | .subDomains name => IsSubDomain (toAsciiLowercase (trimEndDots name)) host
  | .regex text => ∃ isMatch, E.build true text = some isMatch ∧ isMatch host = true

def IsLowerAscii (host : Text) : Prop := ∀ c ∈ host, c.toNat < 128 ∧ c.toLower = c

instance (host : Text) : Decidable (IsLowerAscii host) :=
  decidable_of_iff ((host.all fun c => decide (c.toNat < 128 ∧ c.toLower = c)) = true)
    (all_eq_true.trans (forall₂_congr fun _ _ => decide_eq_true_iff))

def Lead.fits : Lead → Text → Bool
  | .startOrDot, before => before.isEmpty || before.getLast? == some '.'
  | .startOrDotGroup, before => before.isEmpty || before.getLast? == some '.'
  | .anyPlusDot, before =>
    before.getLast? == some '.' && 2 ≤ before.length && !before.dropLast.contains '\n'
  | .anyStarDot, before => before.getLast? == some '.' && !before.dropLast.contains '\n'
  | .dot, before => before.getLast? == some '.'
  | .start, before => before.isEmpty

def Shape.name (s : Shape) : Text := unescape s.body

def Shape.isMatch (s : Shape) (host : Text) : Bool :=
  (range (host.length + 1)).any fun i =>
    s.lead.fits (host.take i) && (toAsciiLowercase s.name).isPrefixOf (host.drop i) &&
      (!s.dollar || (host.drop i).length == s.name.length)

def RegexEngine.Lawful (E : RegexEngine) : Prop :=
  ∀ text s, recognise text = some s →
    ∃ isMatch, E.build true text = some isMatch ∧ ∀ host, IsLowerAscii host → isMatch host = s.isMatch host

/-! ## 2. The rules as compiled -/

variable (p : ParsingRules)

def ParsingRules.addHostRule : HostRule → Option ParsingRules
  | .exact name => p.addSetRule name
  | .subDomains name => p.addTreeRule name
  | .regex text => some (p.addRegexRule text)

def compile (E : RegexEngine) (rules : List HostRule) : Option Rules :=
  (rules.foldlM ParsingRules.addHostRule .new).bind (ParsingRules.intoRules E)

def BuildsMatch (E : RegexEngine) (host : Text) (text : Text) : Prop :=
  ∃ isMatch, E.build false text = some isMatch ∧ isMatch host = true

def Shape.StoredMatches (s : Shape) (host : Text) : Prop :=
  match s.lead with
  | .start => host = toAsciiLowercase (trimEndDots s.name)
  | _ => IsSubDomain (toAsciiLowercase (trimEndDots s.name)) host

def HostRule.StoredMatches (E : RegexEngine) (host : Text) : HostRule → Prop
  | .exact name => host = toAsciiLowercase (trimEndDots name)
  | .subDomains name => IsSubDomain (toAsciiLowercase (trimEndDots name)) host
  | .regex text =>
    match recognise text with
    | some s => s.StoredMatches host
    | none => BuildsMatch E host (toAsciiLowercase text)

def ParsingRules.Matches (E : RegexEngine) (p : ParsingRules) (host : Text) : Prop :=
  host ∈ p.rulesSet ∨ p.rulesTree.contains host = true ∨ ∃ text ∈ p.rulesRegex, BuildsMatch E host text

theorem toLower_eq_dot (c : Char) : c.toLower = '.' ↔ c = '.' := by
  unfold Char.toLower
  split
  · rename_i h
    have h1 : 65 ≤ c.val.toNat := h.1
    have h2 : c.val.toNat ≤ 90 := h.2
    constructor
    · intro e
      have hv : (c.val + ('a'.val - 'A'.val)).toNat = 46 := congrArg (fun c : Char => c.val.toNat) e
      have hd : ('a'.val - 'A'.val).toNat = 32 := rfl
      rw [UInt32.toNat_add, hd] at hv
      omega
    · rintro rfl
      exact absurd h1 (by decide)
  · rfl

theorem splitOn_toAsciiLowercase (s : Text) :
    (toAsciiLowercase s).splitOn '.' = (s.splitOn '.').map toAsciiLowercase :=
  splitOn_map Char.toLower '.' '.' toLower_eq_dot s

theorem SubDomainsTree.contains_insert (t : SubDomainsTree) (name host : Text) :
    (t.insert name).contains host = true ↔ t.contains host = true ∨ IsSubDomain (toAsciiLowercase name) host := by
  unfold insert contains labels
  rw [Trie.contains_insert, map_reverse, ← splitOn_toAsciiLowercase, reverse_prefix, splitOn_suffix_iff]
  have hne : ((toAsciiLowercase name).splitOn '.').reverse ≠ [] := by
    rw [Ne, reverse_eq_nil_iff]
    exact splitOn_ne_nil '.' (toAsciiLowercase name)
  exact or_congr_right (and_iff_right hne)

theorem SubDomainsTree.contains_foldl (t : SubDomainsTree) (names : List Text) (host : Text) :
    (names.foldl insert t).contains host = true ↔
      t.contains host = true ∨ ∃ name ∈ names, IsSubDomain (toAsciiLowercase name) host := by
  induction names generalizing t with
  | nil => simp
  | cons name names ih => rw [foldl_cons, ih, contains_insert, or_assoc, exists_mem_cons_iff]

/-- **The tree contains the sub-domains of the names inserted**, in whatever order and however often. -/
theorem subDomainsTree_contains_iff (names : List Text) (host : Text) :
    ((names.foldl SubDomainsTree.insert []).contains host = true ↔
      ∃ name ∈ names, IsSubDomain (toAsciiLowercase name) host) ∧
    ∀ others : List Text, others ⊆ names → names ⊆ others →
      (others.foldl SubDomainsTree.insert []).contains host = (names.foldl SubDomainsTree.insert []).contains host := by
  have hall : ∀ names : List Text, (names.foldl SubDomainsTree.insert []).contains host = true ↔
      ∃ name ∈ names, IsSubDomain (toAsciiLowercase name) host := by
    intro names
    rw [SubDomainsTree.contains_foldl, SubDomainsTree.contains, Trie.contains_empty]
    simp
  refine ⟨hall names, fun others hsub hsup => ?_⟩
  rw [Bool.eq_iff_iff, hall, hall]
  exact ⟨fun ⟨name, hin, h⟩ => ⟨name, hsub hin, h⟩, fun ⟨name, hin, h⟩ => ⟨name, hsup hin, h⟩⟩

variable {E : RegexEngine} {name : Text}

theorem addSetRule_matches {p p' : ParsingRules} (h : p.addSetRule name = some p') (host : Text) :
    p'.Matches E host ↔ p.Matches E host ∨ host = toAsciiLowercase (trimEndDots name) := by
  unfold ParsingRules.addSetRule ParsingRules.checkIsAscii at h
  split at h
  · cases h
    unfold ParsingRules.Matches
    rw [mem_cons, or_assoc, or_comm]
  · cases h

theorem addTreeRule_matches {p p' : ParsingRules} (h : p.addTreeRule name = some p') (host : Text) :
    p'.Matches E host ↔ p.Matches E host ∨ IsSubDomain (toAsciiLowercase (trimEndDots name)) host := by
  unfold ParsingRules.addTreeRule ParsingRules.checkIsAscii at h
  split at h
  · cases h
    unfold ParsingRules.Matches
    rw [SubDomainsTree.contains_insert]
    simp only [or_assoc, or_left_comm, or_comm]
  · cases h

theorem pushRegex_matches (text host : Text) :
    (p.pushRegex text).Matches E host ↔ p.Matches E host ∨ BuildsMatch E host (toAsciiLowercase text) := by
  unfold ParsingRules.pushRegex ParsingRules.Matches
  simp only [mem_append, mem_singleton, or_and_right, exists_or, exists_eq_left, or_assoc]

variable {c : Char}

theorem isWord_ascii (h : isWord c = true) : c.toNat < 128 := by
  simp only [isWord, Bool.or_eq_true, isAlphanum_iff, beq_iff_eq] at h
  rcases h with (h | rfl) | rfl
  · omega
  · decide
  · decide

theorem toLower_ascii (hc : c.toNat < 128) : c.toLower.toNat < 128 ∧ c.toLower.toLower = c.toLower :=
  ascii_forall (P := fun c => c.toLower.toNat < 128 ∧ c.toLower.toLower = c.toLower) (by decide +kernel) hc

theorem isWord_ne (h : isWord c = true) : c ≠ '\\' ∧ c ≠ '.' := by
  constructor <;> rintro rfl <;> exact absurd h (by decide)

theorem unescape_word (h : isWord c = true) (s : Text) : unescape (c :: s) = c :: unescape s := by
  rw [unescape]
  intro rest hc
  exact absurd hc (isWord_ne h).1

theorem isBodyFrom_chars {b : Bool} {s : Text} (h : isBodyFrom b s = true) :
    ∀ c ∈ unescape s, isWord c = true ∨ c = '.' := by
  induction b, s using isBodyFrom.induct with
  | case1 => simp [unescape]
  | case2 rest ih =>
    intro c hc
    rcases mem_cons.mp hc with rfl | hc
    · exact .inr rfl
    · exact ih h c hc
  | case3 b c rest hne ih =>
    rw [isBodyFrom] at h
    · obtain ⟨hword, hrest⟩ := Bool.and_eq_true_iff.mp h
      rw [unescape_word hword]
      exact forall_mem_cons.mpr ⟨.inl hword, ih hrest⟩
    · exact hne

theorem isBody_head {s : Text} (h : isBody s = true) : ∃ c rest, unescape s = c :: rest ∧ isWord c = true := by
  obtain ⟨hne, hfrom⟩ := Bool.and_eq_true_iff.mp h
  cases s with
  | nil => cases hne
  | cons c rest =>
    rw [isBodyFrom] at hfrom
    · obtain ⟨hword, -⟩ := Bool.and_eq_true_iff.mp hfrom
      exact ⟨c, unescape rest, unescape_word hword rest, hword⟩
    · rintro rest' hfalse
      cases hfalse

theorem isAscii_unescape {s : Text} (h : isBody s = true) : isAscii (unescape s) = true := by
  refine all_eq_true.mpr fun c hc => decide_eq_true ?_
  rcases isBodyFrom_chars (Bool.and_eq_true_iff.mp h).2 c hc with hword | rfl
  · exact isWord_ascii hword
  · decide

variable {text : Text} {s : Shape}

theorem recognise_isBody (h : recognise text = some s) : isBody s.body = true := by
  obtain ⟨lead, -, hlead⟩ := exists_of_findSome?_eq_some h
  dsimp only at hlead
  split at hlead
  · split at hlead
    · rename_i hbody
      cases hlead
      exact hbody
    · cases hlead
  · cases hlead

theorem storedMatches_some (h : recognise text = some s) (host : Text) :
    (HostRule.regex text).StoredMatches E host ↔ s.StoredMatches host := by
  simp only [HostRule.StoredMatches, h]

theorem storedMatches_none (h : recognise text = none) (host : Text) :
    (HostRule.regex text).StoredMatches E host ↔ BuildsMatch E host (toAsciiLowercase text) := by
  simp only [HostRule.StoredMatches, h]

theorem addSetRule_ascii (h : isAscii name = true) :
    p.addSetRule name = some { p with rulesSet := toAsciiLowercase (trimEndDots name) :: p.rulesSet } := by
  rw [ParsingRules.addSetRule, ParsingRules.checkIsAscii, if_pos h, Option.map_some]

theorem addTreeRule_ascii (h : isAscii name = true) :
    p.addTreeRule name = some { p with rulesTree := p.rulesTree.insert (trimEndDots name) } := by
  rw [ParsingRules.addTreeRule, ParsingRules.checkIsAscii, if_pos h, Option.map_some]

theorem addRegexRule_none (h : recognise text = none) : p.addRegexRule text = p.pushRegex text := by
  simp only [ParsingRules.addRegexRule, h]

theorem addRegexRule_some (h : recognise text = some s) :
    some (p.addRegexRule text) = if s.lead = .start then p.addSetRule s.name else p.addTreeRule s.name := by
  obtain ⟨lead, body, dollar⟩ := s
  have hascii : isAscii (unescape body) = true := isAscii_unescape (recognise_isBody h)
  have hset := addSetRule_ascii p hascii
  have htree := addTreeRule_ascii p hascii
  cases lead <;> simp [ParsingRules.addRegexRule, h, Shape.name, hset, htree]

theorem addHostRule_matches {p p' : ParsingRules} {r : HostRule} (h : p.addHostRule r = some p') (host : Text) :
    p'.Matches E host ↔ p.Matches E host ∨ r.StoredMatches E host := by
  cases r with
  | exact name => exact addSetRule_matches h host
  | subDomains name => exact addTreeRule_matches h host
  | regex text =>
    change some (p.addRegexRule text) = some p' at h
    cases hshape : recognise text with
    | none =>
      rw [addRegexRule_none p hshape] at h
      cases h
      rw [storedMatches_none hshape]
      exact pushRegex_matches p text host
    | some s =>
      rw [addRegexRule_some p hshape] at h
      rw [storedMatches_some hshape]
      unfold Shape.StoredMatches
      split at h
      · rename_i hstart
        rw [hstart]
        exact addSetRule_matches h host
      rename_i hlead
      rw [addTreeRule_matches h host]
      split
      · exact absurd ‹_› hlead
      · rfl

variable {rules : List HostRule}

theorem foldlM_matches {p p' : ParsingRules} (h : rules.foldlM ParsingRules.addHostRule p = some p') (host : Text) :
    p'.Matches E host ↔ p.Matches E host ∨ ∃ r ∈ rules, r.StoredMatches E host := by
  induction rules generalizing p with
  | nil =>
    cases h
    simp
  | cons r rules ih =>
    rw [foldlM_cons] at h
    cases hadd : p.addHostRule r with
    | none =>
      rw [hadd] at h
      cases h
    | some q =>
      rw [hadd] at h
      rw [ih h, addHostRule_matches hadd, or_assoc]
      simp

theorem mapM_build {texts : List Text} {regex : List (Text → Bool)} (h : texts.mapM (E.build false) = some regex)
    (host : Text) :
    (regex.any fun isMatch => isMatch host) = true ↔ ∃ text ∈ texts, BuildsMatch E host text := by
  induction texts generalizing regex with
  | nil =>
    cases h
    simp
  | cons text texts ih =>
    rw [mapM_cons] at h
    cases hbuild : E.build false text with
    | none =>
      rw [hbuild] at h
      cases h
    | some isMatch =>
      rw [hbuild] at h
      cases hrest : texts.mapM (E.build false) with
      | none =>
        rw [hrest] at h
        cases h
      | some rest =>
        rw [hrest] at h
        cases h
        rw [any_cons, Bool.or_eq_true, ih hrest]
        simp [BuildsMatch, hbuild]

theorem checkHostMatched_compile {compiled : Rules} (h : compile E rules = some compiled) (host : Text) :
    compiled.checkHostMatched host = true ↔ ∃ r ∈ rules, r.StoredMatches E (trimEndDots host) := by
  unfold compile at h
  cases hparsed : rules.foldlM ParsingRules.addHostRule .new with
  | none =>
    rw [hparsed] at h
    cases h
  | some p =>
    rw [hparsed, Option.bind_some] at h
    unfold ParsingRules.intoRules at h
    cases hregex : p.rulesRegex.mapM (E.build false) with
    | none =>
      rw [hregex] at h
      cases h
    | some regex =>
      rw [hregex] at h
      cases h
      have hnew : ¬ ParsingRules.Matches E .new (trimEndDots host) := by
        simp [ParsingRules.Matches, ParsingRules.new, SubDomainsTree.contains, Trie.contains_empty]
      have hall := foldlM_matches (E := E) hparsed (trimEndDots host)
      rw [or_iff_right hnew] at hall
      rw [← hall]
      rw [Rules.checkHostMatched, ParsingRules.Matches, Bool.or_eq_true, Bool.or_eq_true, mapM_build hregex,
        contains_iff_mem, or_assoc]

def HostRule.isAscii : HostRule → Bool
  | .exact name => Acl.isAscii name
  | .subDomains name => Acl.isAscii name
  | .regex text => Acl.isAscii text

def HostRule.keptRegex : HostRule → List Text
  | .regex text => if recognise text = none then [toAsciiLowercase text] else []
  | _ => []

def HostRule.Builds (E : RegexEngine) (r : HostRule) : Prop :=
  ∀ text ∈ r.keptRegex, (E.build false text).isSome = true

theorem addHostRule_regex {r : HostRule} (h : r.isAscii = true) :
    ∃ p', p.addHostRule r = some p' ∧ p'.rulesRegex = p.rulesRegex ++ r.keptRegex := by
  cases r with
  | exact name => exact ⟨_, addSetRule_ascii p h, (append_nil _).symm⟩
  | subDomains name => exact ⟨_, addTreeRule_ascii p h, (append_nil _).symm⟩
  | regex text =>
    refine ⟨p.addRegexRule text, rfl, ?_⟩
    cases hshape : recognise text with
    | none => simp [HostRule.keptRegex, hshape, addRegexRule_none p hshape, ParsingRules.pushRegex]
    | some s =>
      have hascii : Acl.isAscii s.name = true := isAscii_unescape (recognise_isBody hshape)
      have hadded := addRegexRule_some p hshape
      rw [addSetRule_ascii p hascii, addTreeRule_ascii p hascii] at hadded
      have hkept : (HostRule.regex text).keptRegex = [] := by simp [HostRule.keptRegex, hshape]
      rw [hkept, append_nil]
      split at hadded
      · rw [Option.some.inj hadded]
      · rw [Option.some.inj hadded]

theorem foldlM_regex (h : ∀ r ∈ rules, r.isAscii = true) (p : ParsingRules) :
    ∃ p', rules.foldlM ParsingRules.addHostRule p = some p' ∧
      p'.rulesRegex = p.rulesRegex ++ rules.flatMap HostRule.keptRegex := by
  induction rules generalizing p with
  | nil => exact ⟨p, rfl, by simp⟩
  | cons r rules ih =>
    obtain ⟨q, hq, hregex⟩ := addHostRule_regex p (h r (mem_cons_self ..))
    obtain ⟨p', hp', hrest⟩ := ih (fun r' hr => h r' (mem_cons_of_mem r hr)) q
    refine ⟨p', ?_, ?_⟩
    · rw [foldlM_cons, hq]
      exact hp'
    · rw [hrest, hregex, flatMap_cons, append_assoc]

theorem mapM_isSome_iff (texts : List Text) :
    (texts.mapM (E.build false)).isSome = true ↔ ∀ text ∈ texts, (E.build false text).isSome = true := by
  induction texts with
  | nil => simp
  | cons text texts ih =>
    rw [mapM_cons, forall_mem_cons, ← ih]
    cases E.build false text <;> cases texts.mapM (E.build false) <;> simp

theorem exists_compile_iff (h : ∀ r ∈ rules, r.isAscii = true) :
    (∃ compiled, compile E rules = some compiled) ↔ ∀ r ∈ rules, r.Builds E := by
  obtain ⟨p, hp, hregex⟩ := foldlM_regex h .new
  rw [← Option.isSome_iff_exists, compile, hp, Option.bind_some, ParsingRules.intoRules, Option.isSome_map,
    mapM_isSome_iff, hregex]
  simp only [ParsingRules.new, nil_append, mem_flatMap, HostRule.Builds]
  constructor
  · intro hall r hr text htext
    exact hall text ⟨r, hr, htext⟩
  · intro hall text ⟨r, hr, htext⟩
    exact hall r hr text htext

/-! ## 3. Expressions and the names they are taken for -/

theorem Shape.isMatch_iff (s : Shape) (host : Text) :
    s.isMatch host = true ↔ ∃ before after, host = before ++ toAsciiLowercase s.name ++ after ∧
      s.lead.fits before = true ∧ (s.dollar = true → after = []) := by
  have hlen : (toAsciiLowercase s.name).length = s.name.length := length_map ..
  rw [isMatch, any_eq_true]
  constructor
  · rintro ⟨i, -, h⟩
    obtain ⟨⟨hfits, hname⟩, hdollar⟩ := (Bool.and_eq_true_iff.mp h).imp_left Bool.and_eq_true_iff.mp
    obtain ⟨after, hafter⟩ := isPrefixOf_iff_prefix.mp hname
    refine ⟨host.take i, after, ?_, hfits, fun hd => ?_⟩
    · rw [append_assoc, hafter, take_append_drop]
    · rw [hd, ← hafter] at hdollar
      have hsame : (toAsciiLowercase s.name ++ after).length = s.name.length := by simpa using hdollar
      rw [length_append, hlen] at hsame
      exact length_eq_zero_iff.mp (by omega)
  rintro ⟨before, after, rfl, hfits, hdollar⟩
  have htake : (before ++ toAsciiLowercase s.name ++ after).take before.length = before := by
    rw [append_assoc, take_left]
  have hdrop : (before ++ toAsciiLowercase s.name ++ after).drop before.length =
      toAsciiLowercase s.name ++ after := by
    rw [append_assoc, drop_left]
  refine ⟨before.length, mem_range.mpr ?_, ?_⟩
  · rw [length_append, length_append]
    omega
  rw [htake, hdrop, hfits, Bool.true_and, Bool.and_eq_true]
  refine ⟨ isPrefixOf_iff_prefix.mpr (prefix_append ..), ?_⟩
  cases hd : s.dollar with
  | false => rfl
  | true => simp [hdollar hd, hlen]

def Shape.Kept (s : Shape) : Prop :=
  s.dollar = true ∧ s.lead ∈ [Lead.startOrDot, .startOrDotGroup, .start] ∧ trimEndDots s.name = s.name

instance (s : Shape) : Decidable s.Kept :=
  inferInstanceAs (Decidable (s.dollar = true ∧ s.lead ∈ [Lead.startOrDot, .startOrDotGroup, .start] ∧
    trimEndDots s.name = s.name))

theorem getLast?_dot_iff (before : Text) : before.getLast? = some '.' ↔ ∃ labels, before = labels ++ ['.'] := by
  rw [getLast?_eq_some_iff]

theorem Shape.Kept.storedMatches_iff (h : s.Kept) (host : Text) : s.StoredMatches host ↔ s.isMatch host = true := by
  obtain ⟨lead, body, dollar⟩ := s
  obtain ⟨rfl, hlead, hname⟩ := h
  rw [isMatch_iff, Shape.StoredMatches, hname]
  generalize toAsciiLowercase (name ⟨lead, body, true⟩) = name
  have hdot : (∃ before after, host = before ++ name ++ after ∧
      (before.isEmpty || before.getLast? == some '.') = true ∧ (true = true → after = [])) ↔
        IsSubDomain name host := by
    constructor
    · rintro ⟨before, after, rfl, hfits, hafter⟩
      obtain rfl := hafter rfl
      rcases Bool.or_eq_true_iff.mp hfits with hempty | hlast
      · left
        simp [isEmpty_iff.mp hempty]
      · obtain ⟨labels, rfl⟩ := (getLast?_dot_iff before).mp (beq_iff_eq.mp hlast)
        right
        exact ⟨labels, by simp⟩
    · rintro (rfl | ⟨labels, rfl⟩)
      · exact ⟨[], [], by simp, rfl, fun _ => rfl⟩
      · exact ⟨labels ++ ['.'], [], by simp, by simp, fun _ => rfl⟩
  simp only [mem_cons, not_mem_nil, or_false] at hlead
  rcases hlead with rfl | rfl | rfl
  · exact hdot.symm
  · exact hdot.symm
  constructor
  · rintro rfl
    exact ⟨[], [], by simp, rfl, fun _ => rfl⟩
  · rintro ⟨before, after, rfl, hfits, hafter⟩
    rw [hafter rfl, isEmpty_iff.mp hfits]
    simp

theorem trimEndDots_toAsciiLowercase (s : Text) :
    trimEndDots (toAsciiLowercase s) = toAsciiLowercase (trimEndDots s) := by
  have hdot : ((· == '.') ∘ Char.toLower : Char → Bool) = (· == '.') := by
    funext c
    rw [Bool.eq_iff_iff, Function.comp_apply, beq_iff_eq, beq_iff_eq, toLower_eq_dot]
  unfold trimEndDots toAsciiLowercase rdropWhile
  rw [← map_reverse, dropWhile_map, hdot, map_reverse]

theorem isLowerAscii_toAsciiLowercase {s : Text} (h : isAscii s = true) : IsLowerAscii (toAsciiLowercase s) := by
  intro c hc
  obtain ⟨d, hd, rfl⟩ := mem_map.mp hc
  exact toLower_ascii (of_decide_eq_true (all_eq_true.mp h d hd))

theorem IsLowerAscii.subset {s s' : Text} (h : IsLowerAscii s) (hsub : s' ⊆ s) : IsLowerAscii s' :=
  fun c hc => h c (hsub hc)

theorem trimEndDots_isPrefixOf (s : Text) : trimEndDots s <+: s := rdropWhile_prefix ..

theorem Lead.fits_nil {lead : Lead} (h : lead ∉ [startOrDot, .startOrDotGroup, .start]) :
    lead.fits [] = false := by
  cases lead with
  | startOrDot | startOrDotGroup | start => exact absurd (by decide) h
  | anyPlusDot | anyStarDot | dot => rfl

theorem Shape.storedMatches_name (s : Shape) : s.StoredMatches (toAsciiLowercase (trimEndDots s.name)) := by
  unfold Shape.StoredMatches
  split
  · rfl
  · exact .inl rfl

theorem Shape.exists_deviating_host (hbody : isBody s.body = true) (h : ¬ s.Kept) :
    ∃ host, IsLowerAscii host ∧ trimEndDots host = host ∧ ¬ (s.StoredMatches host ↔ s.isMatch host = true) := by
  have hascii : isAscii s.name = true := isAscii_unescape hbody
  by_cases hname : trimEndDots s.name = s.name ∧ s.lead ∈ [Lead.startOrDot, .startOrDotGroup, .start]
  · -- only the anchor at the end is missing: the name with one more character
    obtain ⟨htrim, hlead⟩ := hname
    have hdollar : s.dollar = false := Bool.eq_false_iff.mpr fun hd => h ⟨hd, hlead, htrim⟩
    obtain ⟨c, rest, hcons, hword⟩ := isBody_head hbody
    have hhead : s.name = c :: rest := hcons
    refine ⟨toAsciiLowercase s.name ++ ['x'], ?_, ?_, ?_⟩
    · intro d hd
      rcases mem_append.mp hd with hd | hd
      · exact isLowerAscii_toAsciiLowercase hascii d hd
      · rw [mem_singleton.mp hd]
        decide
    · exact rdropWhile_concat_neg _ _ _ (by decide)
    have hmatch : s.isMatch (toAsciiLowercase s.name ++ ['x']) = true := by
      refine (s.isMatch_iff _).mpr ⟨[], ['x'], rfl, ?_, fun hd => ?_⟩
      · simp only [mem_cons, not_mem_nil, or_false] at hlead
        rcases hlead with hl | hl | hl <;> rw [hl] <;> rfl
      · rw [hdollar] at hd
        cases hd
    intro hiff
    have hstored := hiff.mpr hmatch
    have hnot : ¬ IsSubDomain (toAsciiLowercase s.name) (toAsciiLowercase s.name ++ ['x']) := by
      rintro (heq | ⟨labels, heq⟩)
      · exact absurd (congrArg length heq) (by simp)
      have hlen := congrArg length heq
      simp only [length_append, length_cons, length_nil] at hlen
      obtain rfl : labels = [] := length_eq_zero_iff.mp (by omega)
      rw [hhead] at heq
      have hfirst : c.toLower = '.' := (cons.inj heq).1
      exact (isWord_ne hword).2 (toLower_eq_dot c |>.mp hfirst)
    unfold Shape.StoredMatches at hstored
    rw [htrim] at hstored
    split at hstored
    · exact hnot (.inl hstored)
    · exact hnot hstored
  -- the name itself, which is too short for the expression
  have hle : (trimEndDots s.name).length ≤ s.name.length := (trimEndDots_isPrefixOf s.name).length_le
  refine ⟨toAsciiLowercase (trimEndDots s.name), ?_, ?_, ?_⟩
  · refine (isLowerAscii_toAsciiLowercase hascii).subset ?_
    exact map_subset _ (trimEndDots_isPrefixOf s.name).subset
  · rw [trimEndDots_toAsciiLowercase]
    exact congrArg toAsciiLowercase (rdropWhile_idempotent ..)
  intro hiff
  obtain ⟨before, after, heq, hfits, -⟩ := (s.isMatch_iff _).mp (hiff.mp s.storedMatches_name)
  have hlen := congrArg length heq
  simp only [toAsciiLowercase, length_append, length_map] at hlen
  have hshort : (trimEndDots s.name).length = s.name.length := by omega
  have hlead : s.lead ∉ [Lead.startOrDot, .startOrDotGroup, .start] := fun hl =>
    hname ⟨(trimEndDots_isPrefixOf s.name).eq_of_length hshort, hl⟩
  obtain rfl : before = [] := length_eq_zero_iff.mp (by omega)
  rw [Lead.fits_nil hlead] at hfits
  cases hfits

/-! ## 4. Compilation -/

def HostRule.Kept (E : RegexEngine) : HostRule → Prop
  | .exact _ => True
  | .subDomains _ => True
  | .regex text =>
    match recognise text with
    | some s => s.Kept
    | none =>
      (E.build false (toAsciiLowercase text)).isSome = true ∧ ∀ host, IsLowerAscii host →
        (BuildsMatch E (trimEndDots host) (toAsciiLowercase text) ↔
          (regex text).Matches E (trimEndDots host))

def Preserves (E : RegexEngine) (rules : List HostRule) (host : Text) : Prop :=
  ∃ compiled, compile E rules = some compiled ∧
    (compiled.checkHostMatched host = true ↔ ∃ r ∈ rules, r.Matches E (trimEndDots host))

theorem matches_shape (hE : E.Lawful) (h : recognise text = some s) {host : Text} (hhost : IsLowerAscii host) :
    (HostRule.regex text).Matches E host ↔ s.isMatch host = true := by
  obtain ⟨isMatch, hbuild, hlaw⟩ := hE text s h
  change (∃ m, E.build true text = some m ∧ m host = true) ↔ _
  rw [hbuild]
  constructor
  · rintro ⟨m, hm, hmatch⟩
    cases hm
    rwa [hlaw host hhost] at hmatch
  · intro hmatch
    exact ⟨isMatch, rfl, by rwa [hlaw host hhost]⟩

theorem kept_iff (hE : E.Lawful) (r : HostRule) : r.Kept E ↔ r.Builds E ∧ ∀ host, IsLowerAscii host →
      (r.StoredMatches E (trimEndDots host) ↔ r.Matches E (trimEndDots host)) := by
  cases r with
  | exact name | subDomains name => exact iff_of_true trivial ⟨forall_mem_nil _, fun _ _ => Iff.rfl⟩
  | regex text =>
    cases hshape : recognise text with
    | none => simp [HostRule.Kept, HostRule.Builds, HostRule.keptRegex, hshape, storedMatches_none hshape]
    | some s =>
      have hkept : (HostRule.regex text).Kept E ↔ s.Kept := by simp [HostRule.Kept, hshape]
      have hbuilds : (HostRule.regex text).Builds E := by simp [HostRule.Builds, HostRule.keptRegex, hshape]
      rw [hkept, and_iff_right hbuilds]
      constructor
      · intro h host hhost
        have htrimmed := hhost.subset (trimEndDots_isPrefixOf host).subset
        rw [storedMatches_some hshape, matches_shape hE hshape htrimmed]
        exact h.storedMatches_iff (trimEndDots host)
      intro h
      by_contra hnot
      obtain ⟨host, hhost, htrim, hdeviates⟩ := Shape.exists_deviating_host (recognise_isBody hshape) hnot
      have hsame := h host hhost
      rw [htrim, storedMatches_some hshape, matches_shape hE hshape hhost] at hsame
      exact hdeviates hsame

/-- **Compilation preserves the meaning of every selection of the rules exactly if every rule keeps
its meaning.** -/
theorem compile_preserves (E : RegexEngine) (hE : E.Lawful) (rules : List HostRule)
    (hascii : ∀ r ∈ rules, r.isAscii = true) :
    (∀ part, part.Sublist rules → ∀ host, IsLowerAscii host → Preserves E part host) ↔ ∀ r ∈ rules, r.Kept E := by
  constructor
  · intro h r hr
    have hpart : [r].Sublist rules := singleton_sublist.mpr hr
    refine (kept_iff hE r).mpr ⟨?_, fun host hhost => ?_⟩
    · obtain ⟨compiled, hcompiled, -⟩ := h [r] hpart [] (forall_mem_nil _)
      have hone : ∀ r' ∈ [r], r'.isAscii = true := fun r' hr' => hascii r' (hpart.subset hr')
      exact (exists_compile_iff hone).mp ⟨compiled, hcompiled⟩ r (mem_singleton_self r)
    · obtain ⟨compiled, hcompiled, hmatched⟩ := h [r] hpart host hhost
      rw [checkHostMatched_compile hcompiled] at hmatched
      simpa using hmatched
  intro h part hpart host hhost
  have hkept := fun r hr => (kept_iff hE r).mp (h r (hpart.subset hr))
  obtain ⟨compiled, hcompiled⟩ := (exists_compile_iff fun r hr => hascii r (hpart.subset hr)).mpr
    fun r hr => (hkept r hr).1
  refine ⟨compiled, hcompiled, ?_⟩
  rw [checkHostMatched_compile hcompiled]
  exact exists_congr fun r => and_congr_right fun hr => (hkept r hr).2 host hhost

def sampleEngine : RegexEngine where
  build _ text :=
    if text = "^\\D+$".toList then some fun host => !host.isEmpty && host.all fun c => !c.isDigit
    else if text = "^\\d+$".toList then some fun host => !host.isEmpty && host.all Char.isDigit
    else (recognise text).map Shape.isMatch

theorem sampleEngine_lawful : sampleEngine.Lawful := by
  intro text s h
  have hupper : text ≠ "^\\D+$".toList := by
    rintro rfl
    cases h
  have hlower : text ≠ "^\\d+$".toList := by
    rintro rfl
    cases h
  refine ⟨s.isMatch, ?_, fun _ _ => rfl⟩
  unfold sampleEngine
  dsimp only
  rw [if_neg hupper, if_neg hlower, h, Option.map_some]

def soundRules : List HostRule :=
  [.exact "Example.org".toList, .subDomains "example.net".toList, .regex "(^|\\.)gmail\\.com$".toList,
    .regex "^Mail\\.example\\.org$".toList]

theorem compile_preserves_sound : sampleEngine.Lawful ∧ (∀ r ∈ soundRules, r.isAscii = true) ∧
      ((∀ part, part.Sublist soundRules → ∀ host, IsLowerAscii host → Preserves sampleEngine part host) ↔
        ∀ r ∈ soundRules, r.Kept sampleEngine) :=
  have hascii : ∀ r ∈ soundRules, r.isAscii = true := by decide
  ⟨sampleEngine_lawful, hascii, compile_preserves sampleEngine sampleEngine_lawful soundRules hascii⟩

def answers (text host : String) : Option Bool :=
  (compile sampleEngine [.regex text.toList]).map fun compiled => compiled.checkHostMatched host.toList

theorem not_preserves {text host : String} (answer : Bool) (h : answers text host = some answer)
    (hdeviates : ¬ (answer = true ↔ (HostRule.regex text.toList).Matches sampleEngine (trimEndDots host.toList))) :
    ¬ Preserves sampleEngine [.regex text.toList] host.toList := by
  rintro ⟨compiled, hcompiled, hiff⟩
  unfold answers at h
  rw [hcompiled, Option.map_some] at h
  cases h
  exact hdeviates (by simpa using hiff)

/-- **Not kept**: `\.name$` does not match the name, `^name` matches more, and `\D` in lower case is
its opposite. -/
theorem compile_deviates : ¬ Preserves sampleEngine [.regex "\\.example\\.com$".toList] "example.com".toList ∧
      ¬ Preserves sampleEngine [.regex "^abc".toList] "abcd".toList ∧
      ¬ Preserves sampleEngine [.regex "^\\D+$".toList] "abc".toList := by
  refine ⟨?_, ?_, ?_⟩
  · refine not_preserves true (by decide) fun h => ?_
    have hname : recognise "\\.example\\.com$".toList = some ⟨.dot, "example\\.com".toList, true⟩ := by decide
    exact absurd ((matches_shape sampleEngine_lawful hname (by decide)).mp (h.mp rfl)) (by decide)
  · refine not_preserves false (by decide) fun h => ?_
    have hname : recognise "^abc".toList = some ⟨.start, "abc".toList, false⟩ := by decide
    exact absurd (h.mpr ((matches_shape sampleEngine_lawful hname (by decide)).mpr (by decide))) (by decide)
  · refine not_preserves false (by decide) fun h => ?_
    exact absurd (h.mpr ⟨_, rfl, by decide⟩) (by decide)

end Shadowsocks.Acl
