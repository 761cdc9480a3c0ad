/-
  Subject:   THE SPLIT LOOKUP OF THE LOCAL DNS RELAY (`should_forward_by_query` and `should_forward_by_response` of
  `local/dns/server.rs`): the records of the local response decide which response is used.
-/
import Shadowsocks.Acl.Check
import Shadowsocks.Config.Server
import Shadowsocks.Local.DnsResolver

namespace Shadowsocks.Local.Dns

open Lib Shadowsocks.Acl Shadowsocks.Config List

structure NameOps (Name : Type) where
  isFqdn : Name → Bool
  toAscii : Name → Text
  labels : Name → List Bytes
  same : Name → Name → Bool
  fromStr : Text → Option Name
  setFqdn : Name → Name

variable {Name : Type} (N : NameOps Name)

/-! ## 1. By the query -/

def fromStrRadix (radix bound : Nat) (s : Text) : Option Nat :=
  let digits :=
    match s with
    | '+' :: digits => digits
    | digits => digits
  if digits = [] then none
  else
    (digits.mapM fun c => (Percent.hexValue c).filter (· < radix)).bind fun ds =>
      let n := ds.foldl (fun n d => n * radix + d) 0
      if n < bound then some n else none

def labelFromEnd (name : Name) (i : Nat) : Text :=
  match (N.labels name).reverse[i]? with
  | some label => (Lib.fromUtf8 label).getD "*".toList
  | none => "0".toList

def shouldForwardByPtrName (acl : AccessControl) (name : Name) : Bool :=
  let next := labelFromEnd N name
  if toAsciiLowercase (next 0) ≠ "arpa".toList then acl.isDefaultInProxyList
  else if toAsciiLowercase (next 1) = "in-addr".toList then
    match (range 4).mapM fun i => fromStrRadix 10 256 (next (i + 2)) with
    | some octets => acl.checkIpInProxyList (.v4 (UInt32.ofNat (octets.foldl (fun n o => n * 256 + o) 0)))
    | none => acl.isDefaultInProxyList
  else if toAsciiLowercase (next 1) = "ip6".toList then
    match (range 8).mapM fun i => fromStrRadix 16 65536 ((range 4).flatMap fun j => next (4 * i + j + 2)) with
    | some segments => acl.checkIpInProxyList (.v6 (BitVec.ofNat 128 (segments.foldl (fun n s => n * 65536 + s) 0)))
    | none => acl.isDefaultInProxyList
  else acl.isDefaultInProxyList

def checkNameInProxyList (acl : AccessControl) (name : Name) : Option Bool :=
  if N.isFqdn name then acl.checkAsciiHostInProxyList (toAsciiLowercase (N.toAscii name))
  else some acl.isDefaultInProxyList

def isServerName (query : Query Name) : ServerAddr → Bool
  | .domainName dn _ =>
    match N.fromStr dn with
    | some name => N.same query.name name || N.same query.name (N.setFqdn name)
    | none => false
  | .socketAddr _ => false

def shouldForwardByQuery (acl : Option AccessControl) (servers : List ServerAddr) (query : Query Name) :
    Option Bool :=
  if servers.isEmpty then some false
  else if servers.any (isServerName N query) then some false
  else
    match acl with
    | none => some true
    | some acl =>
      if query.queryClass ≠ 1 then some acl.isDefaultInProxyList
      else if query.queryType = .ptr then some (shouldForwardByPtrName N acl query.name)
      else
        match checkNameInProxyList N acl query.name with
        | none => if acl.isIpEmpty && acl.isHostEmpty then some acl.isDefaultInProxyList else none
        | result => result

/-! ## 2. By the response -/

inductive Examined (Name : Type) where
  | decided (forward : Bool)
  | goOn (names : List Name)
  | panicked

def known (names : List Name) (name : Name) : Bool := names.any fun n => N.same n name

def examineName (acl : AccessControl) (isAnswer : Bool) (name : Name) : Bool :=
  if isAnswer then (checkNameInProxyList N acl name).getD acl.isDefaultInProxyList else acl.isDefaultInProxyList

def unlessBypassed (forward : Bool) (names : List Name) : Examined Name :=
  if forward then .goOn names else .decided false

variable (acl : AccessControl) (query : Query Name) (isAnswer : Bool) (names : List Name)

def examineRecord
    (rec : Record Name) : Examined Name :=
  match rec.data with
  | .cname name =>
    match if isAnswer then checkNameInProxyList N acl name else none with
    | some value => .decided value
    | none => .goOn (name :: names)
  | data =>
    if isAnswer && query.queryType != .any && data.recordType != query.queryType then .decided true
    else
      match data with
      | .a ip => unlessBypassed (acl.checkIpInProxyList (.v4 ip)) names
      | .aaaa ip => unlessBypassed (acl.checkIpInProxyList (.v6 ip)) names
      | .mx _ exchange => unlessBypassed (examineName N acl isAnswer exchange) (exchange :: names)
      | .ns name => unlessBypassed (examineName N acl isAnswer name) (name :: names)
      | .ptr _ => .panicked
      | _ => unlessBypassed acl.isDefaultInProxyList names

def examineSection (acl : AccessControl) (query : Query Name) (isAnswer : Bool) :
    List Name → List (Record Name) → Examined Name
  | names, [] => .goOn names
  | names, rec :: rest =>
    if known N names rec.name then
      match examineRecord N acl query isAnswer names rec with
      | .goOn names => examineSection acl query isAnswer names rest
      | examined => examined
    else if isAnswer then .decided true
    else examineSection acl query isAnswer names rest

def shouldForwardByResponse (acl : Option AccessControl) (localResponse : Option (Message Name)) (query : Query Name) :
    Outcome Empty Bool :=
  match acl with
  | none => .panic
  | some acl =>
    match localResponse with
    | none => .ok true
    | some response =>
      match examineSection N acl query true [query.name] response.answers with
      | .decided forward => .ok forward
      | .panicked => .panic
      | .goOn names =>
        match examineSection N acl query false names response.additionals with
        | .decided forward => .ok forward
        | .panicked => .panic
        | .goOn _ => .ok true

def splitLookup (acl : Option AccessControl) (servers : List ServerAddr) (localResponse : Option (Message Name))
    (query : Query Name) : Outcome Empty Bool :=
  match shouldForwardByQuery N acl servers query with
  | some forward => .ok forward
  | none => shouldForwardByResponse N acl localResponse query

/-! ## 3. The records that are met -/

def introduced : RData Name → List Name
  | .cname name => [name]
  | .mx _ exchange => [exchange]
  | .ns name => [name]
  | _ => []

def Consistent (query : Query Name) (isAnswer : Bool) (data : RData Name) : Prop :=
  isAnswer = true → query.queryType = .any ∨ data.recordType = query.queryType

def Passes (acl : AccessControl) (query : Query Name) (isAnswer : Bool) (data : RData Name) : Prop :=
  match data with
  | .cname name => isAnswer = true → checkNameInProxyList N acl name = none
  | .a ip => Consistent query isAnswer data ∧ acl.checkIpInProxyList (.v4 ip) = true
  | .aaaa ip => Consistent query isAnswer data ∧ acl.checkIpInProxyList (.v6 ip) = true
  | .mx _ exchange => Consistent query isAnswer data ∧ examineName N acl isAnswer exchange = true
  | .ns name => Consistent query isAnswer data ∧ examineName N acl isAnswer name = true
  | .ptr _ => False
  | .other _ => Consistent query isAnswer data ∧ acl.isDefaultInProxyList = true

def learn (names : List Name) (rec : Record Name) : List Name :=
  if known N names rec.name then introduced rec.data ++ names else names

def knownAfter (names : List Name) (recs : List (Record Name)) : List Name := recs.foldl (learn N) names

def Through
    (recs : List (Record Name)) : Prop :=
  ∀ pre rec post, recs = pre ++ rec :: post →
    if known N (knownAfter N names pre) rec.name then Passes N acl query isAnswer rec.data else isAnswer = false

def MeetsPtr
    (recs : List (Record Name)) : Prop :=
  ∃ pre rec post, recs = pre ++ rec :: post ∧ Through N acl query isAnswer names pre ∧
    known N (knownAfter N names pre) rec.name = true ∧ (∃ name, rec.data = .ptr name) ∧
    Consistent query isAnswer rec.data

variable {N} {acl : AccessControl} {query : Query Name} {isAnswer : Bool}

theorem consistent_iff {data : RData Name} : Consistent query isAnswer data ↔
      ¬(isAnswer && query.queryType != .any && data.recordType != query.queryType) = true := by
  cases isAnswer with
  | false => simp [Consistent]
  | true => simp [Consistent, or_iff_not_imp_left]

variable {names : List Name} {names' : List Name} {forward : Bool}

theorem unlessBypassed_goOn :
    unlessBypassed forward names = .goOn names' ↔ forward = true ∧ names' = names := by
  cases forward <;> simp [unlessBypassed, eq_comm]

theorem unlessBypassed_panicked : unlessBypassed forward names ≠ .panicked := by
  cases forward <;> simp [unlessBypassed]

variable {rec : Record Name}

theorem examineRecord_goOn : examineRecord N acl query isAnswer names rec = .goOn names' ↔
      Passes N acl query isAnswer rec.data ∧ names' = introduced rec.data ++ names := by
  unfold examineRecord
  cases hdata : rec.data with
  | cname name =>
    cases isAnswer with
    | false => simp [Passes, introduced, eq_comm]
    | true =>
      cases hcheck : checkNameInProxyList N acl name <;> simp [Passes, introduced, hcheck, eq_comm]
  | _ =>
    simp only [Passes, consistent_iff, introduced]
    split <;> rename_i h
    · simp [h]
    · simp [h, unlessBypassed_goOn]

theorem examineRecord_panicked : examineRecord N acl query isAnswer names rec = .panicked ↔
      (∃ name, rec.data = .ptr name) ∧ Consistent query isAnswer rec.data := by
  unfold examineRecord
  cases hdata : rec.data with
  | cname name =>
    dsimp only
    generalize (if isAnswer = true then checkNameInProxyList N acl name else none) = result
    cases result <;> simp
  | _ =>
    simp only [consistent_iff]
    split <;> rename_i h
    · simp [h]
    · simp [h, unlessBypassed_panicked]

/-! ## 4. The sections -/

theorem learn_unknown (h : known N names rec.name = false) : learn N names rec = names := by
  simp [learn, h]

theorem learn_known (h : known N names rec.name = true) : learn N names rec = introduced rec.data ++ names := by
  simp [learn, h]

theorem knownAfter_cons (names : List Name) (rec : Record Name) (recs : List (Record Name)) :
    knownAfter N names (rec :: recs) = knownAfter N (learn N names rec) recs := rfl

variable {recs : List (Record Name)}

theorem through_cons : Through N acl query isAnswer names (rec :: recs) ↔
      (if known N names rec.name then Passes N acl query isAnswer rec.data else isAnswer = false) ∧
        Through N acl query isAnswer (learn N names rec) recs := by
  constructor
  · intro h
    refine ⟨h [] rec recs rfl, fun pre r post hsplit => ?_⟩
    exact h (rec :: pre) r post (by rw [hsplit, cons_append])
  intro ⟨hfirst, hrest⟩ pre r post hsplit
  cases pre with
  | nil =>
    cases hsplit
    exact hfirst
  | cons p pre =>
    cases hsplit
    exact hrest pre r post rfl

theorem meetsPtr_cons : MeetsPtr N acl query isAnswer names (rec :: recs) ↔
      (known N names rec.name = true ∧ (∃ name, rec.data = .ptr name) ∧ Consistent query isAnswer rec.data) ∨
        (if known N names rec.name then Passes N acl query isAnswer rec.data else isAnswer = false) ∧
          MeetsPtr N acl query isAnswer (learn N names rec) recs := by
  constructor
  · intro ⟨pre, r, post, hsplit, hthrough, hknown, hptr⟩
    cases pre with
    | nil =>
      cases hsplit
      exact .inl ⟨hknown, hptr⟩
    | cons p pre =>
      cases hsplit
      obtain ⟨hfirst, hrest⟩ := through_cons.mp hthrough
      exact .inr ⟨hfirst, pre, r, post, rfl, hrest, hknown, hptr⟩
  · rintro (⟨hknown, hptr⟩ | ⟨hfirst, pre, r, post, rfl, hrest, hknown, hptr⟩)
    · refine ⟨[], rec, recs, rfl, fun pre r post hsplit => ?_, hknown, hptr⟩
      exact absurd hsplit (by simp)
    · exact ⟨rec :: pre, r, post, rfl, through_cons.mpr ⟨hfirst, hrest⟩, hknown, hptr⟩

theorem examineSection_goOn : examineSection N acl query isAnswer names recs = .goOn names' ↔
      Through N acl query isAnswer names recs ∧ names' = knownAfter N names recs := by
  induction recs generalizing names with
  | nil =>
    have hthrough : Through N acl query isAnswer names [] := fun pre r post hsplit => absurd hsplit (by simp)
    simp only [examineSection, Examined.goOn.injEq, hthrough, true_and]
    exact eq_comm
  | cons rec recs ih =>
    rw [through_cons, knownAfter_cons, examineSection]
    cases hknown : known N names rec.name with
    | false =>
      rw [learn_unknown hknown]
      cases isAnswer with
      | true => simp
      | false => simpa using ih
    | true =>
      rw [learn_known hknown]
      cases hexamined : examineRecord N acl query isAnswer names rec with
      | goOn names₁ =>
        obtain ⟨hpasses, rfl⟩ := examineRecord_goOn.mp hexamined
        simp [ih, hpasses]
      | _ =>
        have hnot : ¬Passes N acl query isAnswer rec.data := fun h =>
          nomatch hexamined.symm.trans (examineRecord_goOn.mpr ⟨h, rfl⟩)
        simp [hnot]

theorem examineSection_panicked :
    examineSection N acl query isAnswer names recs = .panicked ↔ MeetsPtr N acl query isAnswer names recs := by
  induction recs generalizing names with
  | nil => simp [examineSection, MeetsPtr]
  | cons rec recs ih =>
    rw [meetsPtr_cons, examineSection]
    cases hknown : known N names rec.name with
    | false =>
      rw [learn_unknown hknown]
      cases isAnswer with
      | true => simp
      | false => simpa using ih
    | true =>
      rw [learn_known hknown]
      cases hexamined : examineRecord N acl query isAnswer names rec with
      | goOn names₁ =>
        obtain ⟨hpasses, rfl⟩ := examineRecord_goOn.mp hexamined
        have hnot := mt examineRecord_panicked.mpr (hexamined.trans_ne nofun)
        simp [ih, hpasses, hnot]
      | panicked => simp [examineRecord_panicked.mp hexamined]
      | decided forward =>
        have hpasses : ¬Passes N acl query isAnswer rec.data := fun h =>
          nomatch hexamined.symm.trans (examineRecord_goOn.mpr ⟨h, rfl⟩)
        have hnot := mt examineRecord_panicked.mpr (hexamined.trans_ne nofun)
        simp [hpasses, hnot]

/-! ## 5. The decision -/

theorem shouldForwardByQuery_acl {acl : Option AccessControl} {servers : List ServerAddr}
    (h : shouldForwardByQuery N acl servers query = none) : ∃ rules, acl = some rules := by
  cases acl with
  | some rules => exact ⟨rules, rfl⟩
  | none =>
    unfold shouldForwardByQuery at h
    split at h
    · cases h
    · split at h <;> cases h

def NoPtrMet (N : NameOps Name) (rules : AccessControl) (query : Query Name) (response : Message Name) : Prop :=
  ¬MeetsPtr N rules query true [query.name] response.answers ∧
    (Through N rules query true [query.name] response.answers →
      ¬MeetsPtr N rules query false (knownAfter N [query.name] response.answers) response.additionals)

theorem shouldForwardByResponse_decides_iff {rules : AccessControl} {response : Message Name} :
    (∃ forward, shouldForwardByResponse N (some rules) (some response) query = .ok forward) ↔
      NoPtrMet N rules query response := by
  unfold shouldForwardByResponse NoPtrMet
  dsimp only
  cases hanswers : examineSection N rules query true [query.name] response.answers with
  | panicked => simp [examineSection_panicked.mp hanswers]
  | decided forward =>
    have hptr : ¬MeetsPtr N rules query true [query.name] response.answers := by
      simp [← examineSection_panicked, hanswers]
    have hthrough : ¬Through N rules query true [query.name] response.answers := fun h => by
      rw [examineSection_goOn.mpr ⟨h, rfl⟩] at hanswers
      cases hanswers
    simp [hptr, hthrough]
  | goOn names =>
    have hptr : ¬MeetsPtr N rules query true [query.name] response.answers := by
      simp [← examineSection_panicked, hanswers]
    obtain ⟨hthrough, rfl⟩ := examineSection_goOn.mp hanswers
    simp only [hptr, hthrough, not_false_eq_true, true_and, forall_const]
    rw [← examineSection_panicked]
    generalize examineSection N rules query false _ response.additionals = examined
    cases examined <;> simp

/-- **A decision is made exactly if no PTR record is met.** -/
theorem splitLookup_decides_iff (N : NameOps Name) (acl : Option AccessControl) (servers : List ServerAddr)
    (localResponse : Option (Message Name)) (query : Query Name) :
    (∃ forward, splitLookup N acl servers localResponse query = .ok forward) ↔
      ∀ rules response, acl = some rules → localResponse = some response →
        shouldForwardByQuery N acl servers query = none → NoPtrMet N rules query response := by
  unfold splitLookup
  cases hquery : shouldForwardByQuery N acl servers query with
  | some forward => simp
  | none =>
    obtain ⟨rules, rfl⟩ := shouldForwardByQuery_acl hquery
    cases localResponse with
    | none => simp [shouldForwardByResponse]
    | some response =>
      rw [shouldForwardByResponse_decides_iff]
      refine ⟨?_, fun h => h rules response rfl rfl rfl⟩
      rintro h rules' response' hrules hresponse -
      cases hrules
      cases hresponse
      exact h

def textNames : NameOps Text where
  isFqdn name := name.getLast? == some '.'
  toAscii := id
  labels name := (name.splitOn '.').map utf8
  same name name' := toAsciiLowercase name == toAsciiLowercase name'
  fromStr := some
  setFqdn name := name ++ ['.']

def exceptTen : AccessControl where
  outboundBlock := .networks []
  outboundAllow := .networks []
  blackList := .networks [⟨0x0a000000, 8⟩]
  whiteList := .networks []
  mode := .blackList
  outboundMode := .blackList

def oneServer : List ServerAddr := [.socketAddr (.v4 ⟨1, 1⟩)]

theorem splitLookup_decides_address :
    let query : Query Text := ⟨"a.".toList, .a, 1⟩
    let response : Message Text := ⟨1, true, [query], [⟨"a.".toList, .a 0x0a000001⟩], []⟩
    shouldForwardByQuery textNames (some exceptTen) oneServer query = none ∧
      ∃ forward, splitLookup textNames (some exceptTen) oneServer (some response) query = .ok forward := by
  refine ⟨by decide +kernel, (splitLookup_decides_iff _ _ _ _ _).mpr ?_⟩
  rintro rules response hrules hresponse -
  cases hrules
  cases hresponse
  exact shouldForwardByResponse_decides_iff.mp ⟨false, by decide +kernel⟩

/-- A query for all types answered with a PTR record, and one for an address with a PTR record in
the additional section. -/
theorem splitLookup_panics :
    let anyQuery : Query Text := ⟨"a.".toList, .any, 1⟩
    let query : Query Text := ⟨"a.".toList, .a, 1⟩
    splitLookup textNames (some exceptTen) oneServer
        (some ⟨1, true, [anyQuery], [⟨"a.".toList, .ptr "b.".toList⟩], []⟩) anyQuery = .panic ∧
      splitLookup textNames (some exceptTen) oneServer
        (some ⟨1, true, [query], [], [⟨"a.".toList, .ptr "b.".toList⟩]⟩) query = .panic := by
  decide +kernel

/-! ## 6. Both lookups at once -/

structure Turn where
  (remoteFirst remoteReady localReady : Bool)

structure Split (R : Type) where
  useRemote : Bool
  remoteResponse : Option R
  (remoteDone deciderDone : Bool)

inductive AclLookup (R : Type) where
  | awaitRemote
  | awaitLocal
  | split (s : Split R)
  | returned (response : R) (forward : Bool)
  | panicked

section

variable {R : Type} (localResponse remoteResponse : R) (decision : Outcome Empty Bool)

def remoteBranch (s : Split R) (turn : Turn) : Option (AclLookup R) :=
  if s.remoteResponse.isSome then none
  else if s.remoteDone then some .panicked
  else if turn.remoteReady then
    some (if s.useRemote then .returned remoteResponse true
      else .split { s with remoteResponse := some remoteResponse, remoteDone := true })
  else none

def deciderBranch (s : Split R) (turn : Turn) : Option (AclLookup R) :=
  if s.useRemote then none
  else if s.deciderDone then some .panicked
  else if turn.localReady then
    match decision with
    | .ok false => some (.returned localResponse false)
    | .ok true =>
      match s.remoteResponse with
      | some response => some (.returned response true)
      | none => some (.split { s with useRemote := true, deciderDone := true })
    | _ => some .panicked
  else none

def select (s : Split R) (turn : Turn) : AclLookup R :=
  if s.remoteResponse.isSome && s.useRemote then .panicked
  else
    let remote := remoteBranch remoteResponse s turn
    let decider := deciderBranch localResponse decision s turn
    ((if turn.remoteFirst then remote <|> decider else decider <|> remote)).getD (.split s)

def AclLookup.turn : AclLookup R → Turn → AclLookup R
  | .awaitRemote, turn => if turn.remoteReady then .returned remoteResponse true else .awaitRemote
  | .awaitLocal, turn => if turn.localReady then .returned localResponse false else .awaitLocal
  | .split s, turn => select localResponse remoteResponse decision s turn
  | result, _ => result

def AclLookup.start : Option Bool → AclLookup R
  | some true => .awaitRemote
  | some false => .awaitLocal
  | none => .split ⟨false, none, false, false⟩

end

def aclLookup {E : Type} (N : NameOps Name) (acl : Option AccessControl) (servers : List ServerAddr) (query : Query Name)
    (localResponse remoteResponse : Except E (Message Name)) (turns : List Turn) : AclLookup (Except E (Message Name)) :=
  turns.foldl
    (AclLookup.turn localResponse remoteResponse (shouldForwardByResponse N acl localResponse.toOption query))
    (.start (shouldForwardByQuery N acl servers query))

section

variable {R : Type} {localResponse remoteResponse : R} {decision : Outcome Empty Bool} {forward : Bool}

def AclLookup.Sound (localResponse remoteResponse : R) (decision : Outcome Empty Bool) (forward : Bool) :
    AclLookup R → Prop
  | .awaitRemote => forward = true
  | .awaitLocal => forward = false
  | .split s => decision = .ok forward ∧ s.remoteResponse = (if s.remoteDone then some remoteResponse else none) ∧
      s.deciderDone = s.useRemote ∧ (s.useRemote = true → forward = true ∧ s.remoteDone = false)
  | .returned response f => f = forward ∧ response = if forward then remoteResponse else localResponse
  | .panicked => False

variable {s : Split R} {t : Turn} {l : AclLookup R}

theorem remoteBranch_sound (h : (AclLookup.split s).Sound localResponse remoteResponse decision forward)
    (hl : remoteBranch remoteResponse s t = some l) : l.Sound localResponse remoteResponse decision forward := by
  obtain ⟨hdecision, hresponse, hdecider, huse⟩ := h
  unfold remoteBranch at hl
  split at hl
  · cases hl
  split at hl
  · rename_i hnone hdone
    rw [hresponse, if_pos hdone] at hnone
    exact absurd rfl hnone
  split at hl
  · cases hl
    split <;> rename_i hremote
    · obtain ⟨rfl, -⟩ := huse hremote
      exact ⟨rfl, rfl⟩
    · exact ⟨hdecision, rfl, hdecider, fun h => absurd h hremote⟩
  · cases hl

theorem deciderBranch_sound (h : (AclLookup.split s).Sound localResponse remoteResponse decision forward)
    (hl : deciderBranch localResponse decision s t = some l) : l.Sound localResponse remoteResponse decision forward := by
  obtain ⟨rfl, hresponse, hdecider, huse⟩ := h
  unfold deciderBranch at hl
  split at hl
  · cases hl
  rename_i hremote
  rw [hdecider, if_neg hremote] at hl
  split at hl
  · cases forward with
    | false =>
      cases hl
      exact ⟨rfl, rfl⟩
    | true =>
      cases hdone : s.remoteDone with
      | true =>
        rw [hdone, if_pos rfl] at hresponse
        simp only [hresponse] at hl
        cases hl
        exact ⟨rfl, rfl⟩
      | false =>
        rw [hdone] at hresponse
        simp only [hresponse] at hl
        cases hl
        exact ⟨rfl, by rw [hdone], rfl, fun _ => ⟨rfl, hdone⟩⟩
  · cases hl

theorem AclLookup.Sound.turn (h : l.Sound localResponse remoteResponse decision forward) (t : Turn) :
    (l.turn localResponse remoteResponse decision t).Sound localResponse remoteResponse decision forward := by
  cases l with
  | awaitRemote =>
    obtain rfl : forward = true := h
    rw [turn]
    split
    · exact ⟨rfl, rfl⟩
    · rfl
  | awaitLocal =>
    obtain rfl : forward = false := h
    rw [turn]
    split
    · exact ⟨rfl, rfl⟩
    · rfl
  | returned response f | panicked => exact h
  | split s =>
    rw [turn, select, if_neg]
    · cases hr : remoteBranch remoteResponse s t with
      | some lr =>
        have hlr := remoteBranch_sound h hr
        cases hd : deciderBranch localResponse decision s t with
        | some ld =>
          have hld := deciderBranch_sound h hd
          split
          · exact hlr
          · exact hld
        | none => split <;> exact hlr
      | none =>
        cases hd : deciderBranch localResponse decision s t with
        | some ld =>
          have hld := deciderBranch_sound h hd
          split <;> exact hld
        | none => split <;> exact h
    · intro hboth
      obtain ⟨hsome, huse⟩ := Bool.and_eq_true_iff.mp hboth
      rw [h.2.1, (h.2.2.2 huse).2] at hsome
      cases hsome

def AclLookup.left : AclLookup R → Nat
  | .awaitRemote => 1
  | .awaitLocal => 1
  | .split s => if s.useRemote || s.remoteDone then 1 else 2
  | .returned _ _ => 0
  | .panicked => 0

theorem AclLookup.Sound.progress (h : l.Sound localResponse remoteResponse decision forward)
    (hremote : t.remoteReady = true) (hlocal : t.localReady = true) :
    (l.turn localResponse remoteResponse decision t).left ≤ l.left - 1 := by
  cases l with
  | awaitRemote => simp [AclLookup.turn, hremote, AclLookup.left]
  | awaitLocal => simp [AclLookup.turn, hlocal, AclLookup.left]
  | returned response f => exact Nat.le_refl 0
  | panicked => exact h.elim
  | split s =>
    obtain ⟨rfl, hresponse, hdecider, huse⟩ := h
    cases hu : s.useRemote <;> cases hd : s.remoteDone <;> cases hf : t.remoteFirst <;> cases forward <;>
      simp_all [AclLookup.turn, select, remoteBranch, deciderBranch, AclLookup.left]

theorem AclLookup.left_le (l : AclLookup R) : l.left ≤ 2 := by
  unfold left
  split <;> (try split) <;> omega

theorem AclLookup.Sound.returned_of_left (h : l.Sound localResponse remoteResponse decision forward) (hl : l.left ≤ 0) :
    ∃ response f, l = .returned response f := by
  cases l with
  | returned response f => exact ⟨response, f, rfl⟩
  | panicked => exact h.elim
  | split s =>
    rw [left] at hl
    split at hl <;> cases hl
  | _ => cases hl

end

section

variable {E : Type} {acl : Option AccessControl} {servers : List ServerAddr} {forward : Bool}
  {localResponse remoteResponse : Except E (Message Name)}

theorem aclLookup_concat (turns : List Turn) (t : Turn) :
    aclLookup N acl servers query localResponse remoteResponse (turns ++ [t]) =
      (aclLookup N acl servers query localResponse remoteResponse turns).turn localResponse remoteResponse
        (shouldForwardByResponse N acl localResponse.toOption query) t := by
  rw [aclLookup, aclLookup, foldl_append, foldl_cons, foldl_nil]

variable (remoteResponse) in
theorem aclLookup_sound (h : splitLookup N acl servers localResponse.toOption query = .ok forward) (turns : List Turn) :
    (aclLookup N acl servers query localResponse remoteResponse turns).Sound localResponse remoteResponse
      (shouldForwardByResponse N acl localResponse.toOption query) forward := by
  induction turns using reverseRecOn with
  | nil =>
    unfold splitLookup at h
    unfold aclLookup
    cases hquery : shouldForwardByQuery N acl servers query with
    | none =>
      rw [hquery] at h
      exact ⟨h, rfl, rfl, fun h => by cases h⟩
    | some byQuery =>
      rw [hquery] at h
      cases h
      cases forward <;> rfl
  | append_singleton turns t ih =>
    rw [aclLookup_concat]
    exact ih.turn t

end

/-- **The order of the lookups does not matter**: `acl_lookup` returns the response the decision asks for, once it is
there. -/
theorem aclLookup_confluent {E : Type} (N : NameOps Name) (acl : Option AccessControl) (servers : List ServerAddr)
    (query : Query Name) (localResponse remoteResponse : Except E (Message Name)) (forward : Bool)
    (h : splitLookup N acl servers localResponse.toOption query = .ok forward) (turns : List Turn) :
    aclLookup N acl servers query localResponse remoteResponse turns ≠ .panicked ∧
      (∀ response f, aclLookup N acl servers query localResponse remoteResponse turns = .returned response f →
        f = forward ∧ response = if forward then remoteResponse else localResponse) ∧
      ∀ first second : Bool, ∃ response f, aclLookup N acl servers query localResponse remoteResponse
        (turns ++ [⟨first, true, true⟩] ++ [⟨second, true, true⟩]) = .returned response f := by
  have hsound := aclLookup_sound remoteResponse h
  refine ⟨fun hp => ?_, fun response f hr => ?_, fun first second => ?_⟩
  · have hturns := hsound turns
    rwa [hp] at hturns
  · have hturns := hsound turns
    rwa [hr] at hturns
  have hlast := hsound (turns ++ [⟨first, true, true⟩] ++ [⟨second, true, true⟩])
  have hleft := (hsound turns).progress (t := ⟨first, true, true⟩) rfl rfl
  have hleft' := (hsound (turns ++ [⟨first, true, true⟩])).progress (t := ⟨second, true, true⟩) rfl rfl
  rw [← aclLookup_concat] at hleft hleft'
  have htwo := (aclLookup N acl servers query localResponse remoteResponse turns).left_le
  exact hlast.returned_of_left (by omega)

theorem aclLookup_local_first :
    let query : Query Text := ⟨"a.".toList, .a, 1⟩
    let response : Message Text := ⟨1, true, [query], [⟨"a.".toList, .a 0x0a000001⟩], []⟩
    splitLookup textNames (some exceptTen) oneServer (some response) query = .ok false ∧
      aclLookup textNames (some exceptTen) oneServer query (.ok response) (.error ()) [⟨true, false, true⟩] ≠ .panicked :=
  have h := by decide +kernel
  ⟨h, (aclLookup_confluent textNames (some exceptTen) oneServer _ (.ok _) (.error ()) false h _).1⟩

/-! ## 7. Reverse names -/

def digit (base n x i : Nat) : Nat := x / base ^ (n - 1 - i) % base

def leading (base n k x : Nat) : Nat := x / base ^ (n - k) * base ^ (n - k)

def width : IpAddr → Nat
  | .v4 _ => 4
  | .v6 _ => 32

def network : IpAddr → Nat → IpAddr
  | .v4 ip, k => .v4 (UInt32.ofNat (leading 256 4 k ip.toNat))
  | .v6 ip, k => .v6 (BitVec.ofNat 128 (leading 16 32 k ip.toNat))

def reverseLabels : IpAddr → Nat → List Text
  | .v4 ip, k =>
    ((range k).map fun i => decimal (digit 256 4 ip.toNat i)).reverse ++ ["in-addr".toList, "arpa".toList]
  | .v6 ip, k =>
    ((range k).map fun i => [Nat.digitChar (digit 16 32 ip.toNat i)]).reverse ++ ["ip6".toList, "arpa".toList]

section

variable {base n k x : Nat}

theorem digit_leading (hbase : 0 < base) (hk : k ≤ n) (x : Nat) {i : Nat} (hi : i < n) :
    digit base n (leading base n k x) i = if i < k then digit base n x i else 0 := by
  unfold digit leading
  split
  · have hpow : base ^ (n - 1 - i) = base ^ (n - k) * base ^ (k - 1 - i) := by
      rw [← Nat.pow_add]
      congr 1
      omega
    rw [hpow, ← Nat.div_div_eq_div_mul, ← Nat.div_div_eq_div_mul, Nat.mul_div_cancel _ (Nat.pow_pos hbase)]
  have hpow : base ^ (n - k) = base ^ (i - k) * base * base ^ (n - 1 - i) := by
    rw [← Nat.pow_succ, ← Nat.pow_add]
    congr 1
    omega
  rw [hpow, ← Nat.mul_assoc, Nat.mul_div_cancel _ (Nat.pow_pos hbase), ← Nat.mul_assoc, Nat.mul_mod_left]

theorem foldl_digit (hx : x < base ^ n) {m : Nat} (hm : m ≤ n) :
    ((range m).map (digit base n x)).foldl (fun v d => v * base + d) 0 = x / base ^ (n - m) := by
  induction m with
  | zero => exact (Nat.div_eq_of_lt hx).symm
  | succ m ih =>
    have hpow : base ^ (n - m) = base ^ (n - (m + 1)) * base := by
      rw [← pow_succ]
      congr 1
      omega
    rw [range_succ, map_append, foldl_append, ih (Nat.le_of_succ_le hm), hpow, ← Nat.div_div_eq_div_mul,
      map_cons, map_nil, foldl_cons, foldl_nil, digit, Nat.sub_sub, add_comm 1 m, mul_comm,
      Nat.div_add_mod]

theorem foldl_digits (hx : x < base ^ n) : ((range n).map (digit base n x)).foldl (fun v d => v * base + d) 0 = x := by
  rw [foldl_digit hx (Nat.le_refl n), Nat.sub_self, Nat.pow_zero, Nat.div_one]

theorem leading_lt (hx : x < base ^ n) : leading base n k x < base ^ n :=
  lt_of_le_of_lt (Nat.div_mul_le_self _ _) hx

theorem foldl_segments (d : Nat → Nat) (m : Nat) :
    ((range m).map fun i => ((range 4).map fun j => d (4 * i + j)).foldl (fun v d => v * 16 + d) 0).foldl
        (fun v s => v * 65536 + s) 0 = ((range (4 * m)).map d).foldl (fun v d => v * 16 + d) 0 := by
  induction m with
  | zero => rfl
  | succ m ih =>
    have hfour : range 4 = [0, 1, 2, 3] := rfl
    rw [range_succ (n := m), map_append, foldl_append, ih, Nat.mul_succ, range_add, hfour]
    simp only [map_append, foldl_append, map_cons, map_nil, foldl_cons, foldl_nil]
    omega

end

theorem hexValue_toLower (c : Char) : Percent.hexValue c.toLower = Percent.hexValue c ∧ (c.toLower = '+' ↔ c = '+') := by
  by_cases hc : c.toNat < 128
  · exact ascii_forall (P := fun c => Percent.hexValue c.toLower = Percent.hexValue c ∧ (c.toLower = '+' ↔ c = '+'))
      (by decide +kernel) hc
  have hlower : c.toLower = c := dif_neg fun h => hc (lt_of_le_of_lt h.2 (by decide))
  rw [hlower]
  exact ⟨rfl, Iff.rfl⟩

theorem fromStrRadix_lower (radix bound : Nat) (s : Text) :
    fromStrRadix radix bound (toAsciiLowercase s) = fromStrRadix radix bound s := by
  have hdigits : ∀ t : Text, (t.map Char.toLower).mapM (fun c => (Percent.hexValue c).filter (· < radix)) =
      t.mapM fun c => (Percent.hexValue c).filter (· < radix) := fun t => by
    rw [mapM_map]
    simp only [Function.comp_def, hexValue_toLower]
  unfold toAsciiLowercase fromStrRadix
  cases s with
  | nil => rfl
  | cons c t =>
    by_cases hc : c = '+'
    · subst hc
      simp [hdigits]
    · have hc' : c.toLower ≠ '+' := fun h => hc ((hexValue_toLower c).2.mp h)
      simp [hc, hc', hexValue_toLower, hdigits]

theorem fromStrRadix_decimal : ∀ o < 256, fromStrRadix 10 256 (decimal o) = some o := by decide +kernel

theorem fromStrRadix_nibbles {a b c d : Nat} (ha : a < 16) (hb : b < 16) (hc : c < 16) (hd : d < 16) :
    fromStrRadix 16 65536 [a.digitChar, b.digitChar, c.digitChar, d.digitChar] =
      some ([a, b, c, d].foldl (fun v d => v * 16 + d) 0) := by
  have hvalue : ∀ n < 16, (Percent.hexValue n.digitChar).filter (· < 16) = some n ∧ n.digitChar ≠ '+' := by decide
  have hlt : ((a * 16 + b) * 16 + c) * 16 + d < 65536 := by omega
  simp [fromStrRadix, hvalue, ha, hb, hc, hd, hlt]

variable {name : Name} {labels : List Text} {ip : IpAddr} {k : Nat}

theorem labelFromEnd_reverse {texts : List Text} {zone : Text} (hname : N.labels name = labels.map utf8)
    (hlabels : labels.map toAsciiLowercase = texts.reverse ++ [zone, "arpa".toList]) :
    toAsciiLowercase (labelFromEnd N name 0) = "arpa".toList ∧ toAsciiLowercase (labelFromEnd N name 1) = zone ∧
      ∀ i, toAsciiLowercase (labelFromEnd N name (i + 2)) = (texts[i]?).getD "0".toList := by
  have hnext : ∀ i, toAsciiLowercase (labelFromEnd N name i) =
      ((labels.map toAsciiLowercase).reverse[i]?).getD "0".toList := by
    intro i
    rw [labelFromEnd, hname, ← map_reverse, ← map_reverse, getElem?_map, getElem?_map]
    cases labels.reverse[i]? with
    | none => rfl
    | some label =>
      simp only [Option.map_some, fromUtf8_utf8]
      rfl
  rw [hlabels, reverse_append, reverse_reverse] at hnext
  exact ⟨hnext 0, hnext 1, fun i => hnext (i + 2)⟩

theorem getD_range_map (f : Nat → Text) (hzero : "0".toList = f 0) {base n x i : Nat} (hbase : 0 < base)
    (hk : k ≤ n) (hi : i < n) :
    (((range k).map fun i => f (digit base n x i))[i]?).getD "0".toList = f (digit base n (leading base n k x) i) := by
  rw [digit_leading hbase hk x hi, getElem?_map]
  by_cases h : i < k
  · rw [if_pos h, getElem?_range h]
    rfl
  · rw [if_neg h, getElem?_eq_none (by rw [length_range]; omega)]
    exact hzero

theorem mapM_range_some {f : Nat → Option Nat} {g : Nat → Nat} {m : Nat} (h : ∀ i < m, f i = some (g i)) :
    (range m).mapM f = some ((range m).map g) := by
  induction m with
  | zero => rfl
  | succ m ih =>
    rw [range_succ, mapM_append, ih fun i hi => h i (Nat.lt_succ_of_lt hi), mapM_cons, h m m.lt_succ_self, map_append]
    rfl

theorem shouldForwardByPtrName_v4 (acl : AccessControl) {ip : UInt32} (hname : N.labels name = labels.map utf8)
    (hlabels : labels.map toAsciiLowercase = reverseLabels (.v4 ip) k) (hk : k ≤ 4) :
    shouldForwardByPtrName N acl name = acl.checkIpInProxyList (network (.v4 ip) k) := by
  obtain ⟨harpa, hzone, hnext⟩ := labelFromEnd_reverse hname hlabels
  have hlt : leading 256 4 k ip.toNat < 256 ^ 4 := leading_lt ip.toNat_lt
  have hoctet : ∀ i < 4, fromStrRadix 10 256 (labelFromEnd N name (i + 2)) =
      some (digit 256 4 (leading 256 4 k ip.toNat) i) := fun i hi => by
    rw [← fromStrRadix_lower, hnext, getD_range_map decimal rfl (by decide) hk hi]
    exact fromStrRadix_decimal _ (Nat.mod_lt _ (by decide))
  simp only [shouldForwardByPtrName, harpa, hzone, mapM_range_some hoctet, foldl_digits hlt, network]
  rfl

theorem shouldForwardByPtrName_v6 (acl : AccessControl) {ip : BitVec 128} (hname : N.labels name = labels.map utf8)
    (hlabels : labels.map toAsciiLowercase = reverseLabels (.v6 ip) k) (hk : k ≤ 32) :
    shouldForwardByPtrName N acl name = acl.checkIpInProxyList (network (.v6 ip) k) := by
  obtain ⟨harpa, hzone, hnext⟩ := labelFromEnd_reverse hname hlabels
  have hlt : leading 16 32 k ip.toNat < 16 ^ 32 := leading_lt ip.isLt
  have hnibble : ∀ i < 32, (labelFromEnd N name (i + 2)).map Char.toLower =
      [Nat.digitChar (digit 16 32 (leading 16 32 k ip.toNat) i)] := fun i hi =>
    (hnext i).trans (getD_range_map (fun d => [Nat.digitChar d]) rfl (by decide) hk hi)
  have hsegment : ∀ i < 8, fromStrRadix 16 65536 ((range 4).flatMap fun j => labelFromEnd N name (4 * i + j + 2)) =
      some (((range 4).map fun j => digit 16 32 (leading 16 32 k ip.toNat) (4 * i + j)).foldl
        (fun v d => v * 16 + d) 0) := fun i hi => by
    have hd := fun j => Nat.mod_lt (leading 16 32 k ip.toNat / 16 ^ (32 - 1 - j)) (show 16 > 0 by decide)
    rw [← fromStrRadix_lower]
    refine (congrArg _ ?_).trans (fromStrRadix_nibbles (hd _) (hd _) (hd _) (hd _))
    have hfour : range 4 = [0, 1, 2, 3] := rfl
    rw [toAsciiLowercase, map_flatMap, hfour]
    simp only [flatMap_cons, flatMap_nil, append_nil]
    rw [hnibble _ (by omega), hnibble _ (by omega), hnibble _ (by omega), hnibble _ (by omega)]
    rfl
  simp only [shouldForwardByPtrName, harpa, hzone, mapM_range_some hsegment, foldl_segments, foldl_digits hlt, network]
  simp

theorem network_width (ip : IpAddr) : network ip (width ip) = ip := by
  cases ip with
  | v4 ip | v6 ip => simp [network, width, leading]

/-- **Reverse names.** The PTR query for an address or a network is decided as the rules decide, in capitals too. -/
theorem shouldForwardByQuery_reverse (N : NameOps Name) (acl : AccessControl) (servers : List ServerAddr)
    (name : Name) (labels : List Text) (ip : IpAddr) (k : Nat) (hk : k ≤ width ip)
    (hname : N.labels name = labels.map utf8) (hlabels : labels.map toAsciiLowercase = reverseLabels ip k) :
    shouldForwardByPtrName N acl name = acl.checkIpInProxyList (network ip k) ∧
      (k = width ip → shouldForwardByPtrName N acl name = acl.checkIpInProxyList ip) ∧
      (servers ≠ [] → (∀ s ∈ servers, isServerName N ⟨name, .ptr, 1⟩ s = false) →
        shouldForwardByQuery N (some acl) servers ⟨name, .ptr, 1⟩ = some (acl.checkIpInProxyList (network ip k))) := by
  have hptr : shouldForwardByPtrName N acl name = acl.checkIpInProxyList (network ip k) := by
    cases ip with
    | v4 ip => exact shouldForwardByPtrName_v4 acl hname hlabels hk
    | v6 ip => exact shouldForwardByPtrName_v6 acl hname hlabels hk
  refine ⟨hptr, ?_, fun hservers hnone => ?_⟩
  · rintro rfl
    rw [hptr, network_width]
  · have hany : servers.any (isServerName N ⟨name, .ptr, 1⟩) = false :=
      any_eq_false.mpr fun s hs => by simp [hnone s hs]
    simp [shouldForwardByQuery, hservers, hany, hptr]

theorem shouldForwardByQuery_reverse_ten :
    let name := "2.1.10.IN-addr.Arpa".toList
    (name.splitOn '.').map toAsciiLowercase = reverseLabels (.v4 0x0a010203) 3 ∧
      shouldForwardByPtrName textNames exceptTen name = exceptTen.checkIpInProxyList (network (.v4 0x0a010203) 3) :=
  have h := by decide +kernel
  ⟨h, (shouldForwardByQuery_reverse textNames exceptTen [] _ ("2.1.10.IN-addr.Arpa".toList.splitOn '.') (.v4 0x0a010203) 3
    (by decide) rfl h).1⟩

end Shadowsocks.Local.Dns
