/-
  Subject:   DNS MESSAGES, AND THE RESOLVER OF THE SERVICE (`resolve` and `store_dns` of
  `local/dns/dns_resolver.rs`). What the two lookups come to is a parameter.
-/
import Shadowsocks.Acl.Rules

namespace Shadowsocks.Local.Dns

open Shadowsocks.Acl List

/-! ## 1. Messages -/

abbrev DnsClass := UInt16

inductive RecordType where
  | a
  | aaaa
  | cname
  | mx
  | ns
  | ptr
  | any
  | other (code : UInt16)
  deriving DecidableEq

inductive RData (Name : Type) where
  | a (ip : UInt32)
  | aaaa (ip : BitVec 128)
  | cname (name : Name)
  | mx (preference : UInt16) (exchange : Name)
  | ns (name : Name)
  | ptr (name : Name)
  | other (code : UInt16)
  deriving DecidableEq

variable {Name : Type}

def RData.recordType : RData Name → RecordType
  | .a _ => .a
  | .aaaa _ => .aaaa
  | .cname _ => .cname
  | .mx _ _ => .mx
  | .ns _ => .ns
  | .ptr _ => .ptr
  | .other code => .other code

structure Record (Name : Type) where
  name : Name
  data : RData Name
  deriving DecidableEq

structure Query (Name : Type) where
  name : Name
  queryType : RecordType
  queryClass : DnsClass
  deriving DecidableEq

structure Message (Name : Type) where
  id : UInt16
  recursionDesired : Bool
  queries : List (Query Name)
  (answers additionals : List (Record Name))
  deriving DecidableEq

def Message.query (id : UInt16) (q : Query Name) : Message Name := ⟨id, true, [q], [], []⟩

/-! ## 2. The resolver -/

def Record.addr (r : Record Name) (port : UInt16) : Option SocketAddr :=
  match r.data with
  | .a ip => some (.v4 ⟨ip, port⟩)
  | .aaaa ip => some (.v6 ⟨ip, port, 0, 0⟩)
  | _ => none

def storeDns (res : Message Name) (port : UInt16) : List SocketAddr := res.answers.filterMap (·.addr port)

inductive ResolveError (ε : Type) where
  | invalidName
  | lookup (e : ε)
  | empty
  deriving DecidableEq

variable {ε : Type}

/-- `vaddr = store_dns(res, port)` if the lookup succeeded. -/
def storeInto (port : UInt16) (vaddr : List SocketAddr) : Except ε (Message Name) → List SocketAddr
  | .ok res => storeDns res port
  | .error _ => vaddr

def mergeResults (ipv6First : Bool) (port : UInt16) (resV4 resV6 : Except ε (Message Name)) :
    Except (ResolveError ε) (List SocketAddr) :=
  match resV4, resV6 with
  | .error errV4, .error errV6 => .error (.lookup (if ipv6First then errV6 else errV4))
  | resV4, resV6 =>
    let vaddr :=
      if ipv6First then storeInto port (storeInto port [] resV6) resV4
      else storeInto port (storeInto port [] resV4) resV6
    if vaddr.isEmpty then .error .empty else .ok vaddr

/-- `DnsResolver::resolve`: `ids` are the two random identifiers. -/
def resolve (nameOf : Text → Option Name) (lookup : Message Name → Except ε (Message Name))
    (ipv6First : Bool) (ids : UInt16 × UInt16) (host : Text) (port : UInt16) :
    Except (ResolveError ε) (List SocketAddr) :=
  match nameOf host with
  | none => .error .invalidName
  | some name =>
    mergeResults ipv6First port (lookup (.query ids.1 ⟨name, .a, 1⟩)) (lookup (.query ids.2 ⟨name, .aaaa, 1⟩))

/-! ## 3. What the lookups give -/

def addresses (type : RecordType) (port : UInt16) : Except ε (Message Name) → List SocketAddr
  | .ok res => (res.answers.filter fun r => r.data.recordType = type).filterMap (·.addr port)
  | .error _ => []

/-- All `A` and all `AAAA` addresses of the two lookups, those of the preferred family first. -/
def wanted (ipv6First : Bool) (port : UInt16) (resV4 resV6 : Except ε (Message Name)) :
    List SocketAddr :=
  if ipv6First then addresses .aaaa port resV6 ++ addresses .a port resV4
  else addresses .a port resV4 ++ addresses .aaaa port resV6

/-- **Which lookups succeed, with which records**, so that nothing is forgotten and nothing is too much. -/
def Complete (own other : RecordType) (port : UInt16) :
    Except ε (Message Name) → Except ε (Message Name) → Prop
  | .error _, .error _ => True
  | .ok res, .error _ => ∀ r ∈ res.answers, r.data.recordType ≠ other
  | preferred, .ok res =>
    addresses own port (.ok res : Except ε _) = addresses own port preferred ∧
      res.answers.Pairwise fun r r' => r.data.recordType = other → r'.data.recordType ≠ own

variable (ipv6First : Bool) (resV4 resV6 : Except ε (Message Name))

/-- The answer `vaddr` is stored from last: of the other family if its lookup succeeded. -/
def storedLast : Option (Message Name) :=
  if ipv6First then resV4.toOption <|> resV6.toOption else resV6.toOption <|> resV4.toOption

section

variable {ε : Type} {port : UInt16}

theorem checked_ok_iff {stored vaddr : List SocketAddr} :
    (if stored = [] then .error .empty else .ok stored : Except (ResolveError ε) _) = .ok vaddr ↔
      ¬ vaddr = [] ∧ stored = vaddr := by
  split <;> rename_i h
  · simp only [reduceCtorEq, false_iff, not_and]
    rintro hne rfl
    exact hne h
  · simp only [Except.ok.injEq, iff_and_self]
    rintro rfl
    exact h

theorem mergeResults_ok_iff (vaddr : List SocketAddr) :
    mergeResults ipv6First port resV4 resV6 = .ok vaddr ↔
      vaddr ≠ [] ∧ ∃ res, storedLast ipv6First resV4 resV6 = some res ∧ storeDns res port = vaddr := by
  cases resV4 <;> cases resV6 <;> cases ipv6First <;>
    simp [mergeResults, storedLast, storeInto, Except.toOption, checked_ok_iff]

theorem wanted_of_storedLast_none {ipv6First : Bool} {resV4 resV6 : Except ε (Message Name)}
    (h : storedLast ipv6First resV4 resV6 = none) : wanted ipv6First port resV4 resV6 = [] := by
  cases resV4 <;> cases resV6 <;> cases ipv6First <;> simp_all [storedLast, wanted, addresses, Except.toOption]

theorem mergeResults_exact_iff :
    (∀ vaddr, mergeResults ipv6First port resV4 resV6 = .ok vaddr ↔
        vaddr ≠ [] ∧ vaddr = wanted ipv6First port resV4 resV6) ↔
      ∀ res, storedLast ipv6First resV4 resV6 = some res → storeDns res port = wanted ipv6First port resV4 resV6 := by
  simp only [mergeResults_ok_iff]
  constructor
  · intro h res hres
    by_cases hempty : storeDns res port = []
    · -- nothing is returned, so nothing may be wanted
      by_contra hne
      have hw : wanted ipv6First port resV4 resV6 ≠ [] := fun hw => hne (hempty.trans hw.symm)
      obtain ⟨-, res', hres', hw'⟩ := (h _).mpr ⟨hw, rfl⟩
      rw [hres] at hres'
      cases hres'
      exact hne hw'
    · exact ((h _).mp ⟨hempty, res, hres, rfl⟩).2
  intro h vaddr
  refine and_congr_right fun hne => ⟨?_, ?_⟩
  · rintro ⟨res, hres, rfl⟩
    exact h res hres
  · rintro rfl
    cases hlast : storedLast ipv6First resV4 resV6 with
    | none => exact absurd (wanted_of_storedLast_none hlast) hne
    | some res => exact ⟨res, rfl, h res hlast⟩

/-! ### The records of the answers -/

variable {own other : RecordType}

theorem eq_append_filter_not_iff {α : Type} (q : α → Bool) {front l : List α} (hfront : ∀ x ∈ front, q x = true) :
    l = front ++ l.filter (fun x => !q x) ↔ l.filter q = front ∧ l.Pairwise fun x y => q x = false → q y = false := by
  constructor
  · intro h
    have hfilter : l.filter q = front := by
      rw [h, filter_append, filter_eq_self.mpr hfront, filter_filter]
      simp
    refine ⟨hfilter, h ▸ pairwise_append.mpr ⟨?_, ?_, fun x hx y _ hq => ?_⟩⟩
    · exact pairwise_of_forall_mem_list fun x hx y _ hq => absurd (hfront x hx) (by simp [hq])
    · exact pairwise_of_forall_mem_list fun x _ y hy _ => by simpa using (mem_filter.mp hy).2
    · exact absurd (hfront x hx) (by simp [hq])
  · rintro ⟨rfl, hsorted⟩
    induction l with
    | nil => rfl
    | cons x l ih =>
      obtain ⟨hx, hl⟩ := pairwise_cons.mp hsorted
      cases hq : q x with
      | true => simpa [hq] using ih hl
      | false =>
        have hnone : l.filter q = [] := filter_eq_nil_iff.mpr fun y hy => by simp [hx y hy hq]
        have hall : l.filter (fun x => !q x) = l := filter_eq_self.mpr fun y hy => by simp [hx y hy hq]
        simp [hq, hnone, hall]

def hasType : RecordType → SocketAddr → Bool
  | .a, .v4 _ => true
  | .aaaa, .v6 _ => true
  | _, _ => false

theorem addr_hasType {r : Record Name} {x : SocketAddr} (h : x ∈ r.addr port) (type : RecordType) :
    hasType type x = decide (r.data.recordType = type) := by
  obtain ⟨name, data⟩ := r
  cases data <;> cases h <;> cases type <;> rfl

theorem exists_addr_iff (r : Record Name) (port : UInt16) :
    (∃ x, x ∈ r.addr port) ↔ r.data.recordType = .a ∨ r.data.recordType = .aaaa := by
  obtain ⟨name, data⟩ := r
  cases data <;> simp [Record.addr, RData.recordType]

/-- The two types of addresses, the preferred one first. -/
def Families (own other : RecordType) : Prop := own = .a ∧ other = .aaaa ∨ own = .aaaa ∧ other = .a

theorem Families.type_iff (h : Families own other) {type : RecordType} :
    type = .a ∨ type = .aaaa ↔ type = own ∨ type = other := by
  rcases h with ⟨rfl, rfl⟩ | ⟨rfl, rfl⟩
  · exact Iff.rfl
  · exact or_comm

theorem Families.ne (h : Families own other) : other ≠ own := by
  rcases h with ⟨rfl, rfl⟩ | ⟨rfl, rfl⟩ <;> decide

theorem addresses_filter (type : RecordType) (res : Message Name) :
    addresses type port (.ok res : Except ε _) = (storeDns res port).filter (hasType type) := by
  rw [addresses, storeDns, filter_filterMap, filterMap_filter]
  refine filterMap_congr fun r _ => ?_
  cases haddr : r.addr port with
  | none => simp
  | some x =>
    rw [Option.filter_some, addr_hasType haddr]

theorem Families.hasType_other (h : Families own other) {r : Record Name} {x : SocketAddr} (hx : x ∈ r.addr port) :
    hasType other x = !hasType own x := by
  rcases h.type_iff.mp ((exists_addr_iff r port).mp ⟨x, hx⟩) with htype | htype
  · simp [addr_hasType hx, htype, h.ne.symm]
  · simp [addr_hasType hx, htype, h.ne]

theorem Families.inOrder_iff (h : Families own other) (r r' : Record Name) :
    (∀ x ∈ r.addr port, ∀ y ∈ r'.addr port, hasType own x = false → hasType own y = false) ↔
      (r.data.recordType = other → r'.data.recordType ≠ own) := by
  constructor
  · intro horder hr hr'
    obtain ⟨x, hx⟩ := (exists_addr_iff r port).mpr (h.type_iff.mpr (.inr hr))
    obtain ⟨y, hy⟩ := (exists_addr_iff r' port).mpr (h.type_iff.mpr (.inl hr'))
    have hown := horder x hx y hy (by simp [addr_hasType hx, hr, h.ne])
    simp [addr_hasType hy, hr'] at hown
  · intro horder x hx y hy hown
    rw [addr_hasType hx, decide_eq_false_iff_not] at hown
    have hother := (h.type_iff.mp ((exists_addr_iff r port).mp ⟨x, hx⟩)).resolve_left hown
    rw [addr_hasType hy, decide_eq_false_iff_not]
    exact horder hother

theorem storeDns_wanted_iff (h : Families own other) (preferred : Except ε (Message Name)) (res : Message Name) :
    storeDns res port = addresses own port preferred ++ addresses other port (.ok res : Except ε _) ↔
      addresses own port (.ok res : Except ε _) = addresses own port preferred ∧
        res.answers.Pairwise fun r r' => r.data.recordType = other → r'.data.recordType ≠ own := by
  have hpreferred : ∀ x ∈ addresses own port preferred, hasType own x = true := fun x hx => by
    cases preferred with
    | error e => cases hx
    | ok res' =>
      rw [addresses_filter] at hx
      exact (mem_filter.mp hx).2
  have hrest : addresses other port (.ok res : Except ε _) = (storeDns res port).filter fun x => !hasType own x := by
    rw [addresses_filter]
    refine filter_congr fun x hx => ?_
    obtain ⟨r, -, hr⟩ := mem_filterMap.mp hx
    exact h.hasType_other hr
  rw [hrest, eq_append_filter_not_iff _ hpreferred, addresses_filter, storeDns, pairwise_filterMap]
  exact and_congr_right fun _ => List.Pairwise.iff fun r r' => h.inOrder_iff r r'

theorem storeDns_own_iff (ε : Type) (h : Families own other) (port : UInt16) (res : Message Name) :
    storeDns res port = addresses own port (.ok res : Except ε _) ↔
      ∀ r ∈ res.answers, r.data.recordType ≠ other := by
  rw [addresses_filter, eq_comm, filter_eq_self]
  constructor
  · intro hall r hr hother
    obtain ⟨x, hx⟩ := (exists_addr_iff r port).mpr (h.type_iff.mpr (.inr hother))
    have hown := hall x (mem_filterMap.mpr ⟨r, hr, hx⟩)
    simp [addr_hasType hx, hother, h.ne] at hown
  · intro hall x hx
    obtain ⟨r, hr, hx⟩ := mem_filterMap.mp hx
    rw [addr_hasType hx, decide_eq_true_iff]
    exact (h.type_iff.mp ((exists_addr_iff r port).mp ⟨x, hx⟩)).resolve_right (hall r hr)

theorem stored_complete_iff (h : Families own other) (preferred second : Except ε (Message Name)) :
    (∀ res, (second.toOption <|> preferred.toOption) = some res →
        storeDns res port = addresses own port preferred ++ addresses other port second) ↔
      Complete own other port preferred second := by
  have hone : ∀ (res : Message Name) (P : Message Name → Prop), (∀ res', some res = some res' → P res') ↔ P res :=
    fun res P => ⟨fun hP => hP res rfl, fun hP res' hres => Option.some.inj hres ▸ hP⟩
  cases second with
  | ok res =>
    refine (hone res _).trans ((storeDns_wanted_iff h preferred res).trans ?_)
    cases preferred <;> exact Iff.rfl
  | error e =>
    cases preferred with
    | error e' => exact iff_of_true (fun res hres => nomatch hres) trivial
    | ok res =>
      refine (hone res _).trans (Iff.trans ?_ (storeDns_own_iff ε h port res))
      rw [show addresses other port (.error e : Except ε (Message Name)) = [] from rfl, append_nil]

end

/-- **When the result is exact**: for a host with a name, exactly when the lookups that succeed
hold the records it takes. -/
theorem resolve_exact_iff {ε : Type} (nameOf : Text → Option Name)
    (lookup : Message Name → Except ε (Message Name)) (ipv6First : Bool) (ids : UInt16 × UInt16) (host : Text)
    (port : UInt16) (name : Name) (hname : nameOf host = some name) (resV4 resV6 : Except ε (Message Name))
    (hV4 : lookup (.query ids.1 ⟨name, .a, 1⟩) = resV4) (hV6 : lookup (.query ids.2 ⟨name, .aaaa, 1⟩) = resV6) :
    (∀ vaddr, resolve nameOf lookup ipv6First ids host port = .ok vaddr ↔
        vaddr ≠ [] ∧ vaddr = wanted ipv6First port resV4 resV6) ↔
      if ipv6First then Complete .aaaa .a port resV6 resV4 else Complete .a .aaaa port resV4 resV6 := by
  have hresolve : resolve nameOf lookup ipv6First ids host port = mergeResults ipv6First port resV4 resV6 := by
    rw [resolve, hname]
    dsimp only
    rw [hV4, hV6]
  rw [hresolve, mergeResults_exact_iff]
  cases ipv6First with
  | false => exact stored_complete_iff (.inl ⟨rfl, rfl⟩) resV4 resV6
  | true => exact stored_complete_iff (.inr ⟨rfl, rfl⟩) resV6 resV4

/-! ### Two answers -/

def answerWith (data : RData Text) : Message Text := ⟨0, true, [], [⟨"host".toList, data⟩], []⟩

/-- The `AAAA` lookup fails: the address of the other one is returned. -/
theorem resolve_exact_failed :
    resolve some (fun m => if m.id = 4 then .ok (answerWith (.a 0x0a000001)) else .error ()) false (4, 6)
        "host".toList 80 = .ok [.v4 ⟨0x0a000001, 80⟩] :=
  ((resolve_exact_iff some _ false (4, 6) "host".toList 80 "host".toList rfl (.ok (answerWith (.a 0x0a000001)))
    (.error ()) rfl rfl).mpr (fun r h => by rw [mem_singleton.mp h]; decide) _).mpr ⟨by decide, by decide⟩

/-- Both lookups give an address: that of the preferred family is forgotten. -/
theorem resolve_forgets : resolve some (fun m => if m.id = 4 then .ok (answerWith (.a 0x0a000001)) else
        (.ok (answerWith (.aaaa 1)) : Except Unit _)) false (4, 6) "host".toList 80 = .ok [.v6 ⟨1, 80, 0, 0⟩] ∧
      wanted false 80 (.ok (answerWith (.a 0x0a000001)) : Except Unit _) (.ok (answerWith (.aaaa 1))) =
        [.v4 ⟨0x0a000001, 80⟩, .v6 ⟨1, 80, 0, 0⟩] := by
  decide

end Shadowsocks.Local.Dns
