/-
  Subject:   THE TABLES OF THE FAKE DNS SERVER (`local/fake_dns/manager.rs` and `proto.rs`). A lookup holds the
  lock, so that it is one step; the clock is read again and again meanwhile. The probing loop has fuel. Bytes that
  are no record are `damaged`.
-/
import Mathlib.Logic.Function.Basic
import Mathlib.Order.Monotone.Defs
import Shadowsocks.Acl.Rules
import Shadowsocks.Lib.RoundRobin

namespace Shadowsocks.Local.FakeDns

open Lib Shadowsocks.Acl List

/-! ## 1. Records -/

inductive Family where
  | ipv4
  | ipv6
  deriving DecidableEq

abbrev Family.Addr : Family → Type
  | .ipv4 => UInt32
  | .ipv6 => BitVec 128

def Family.into : (f : Family) → f.Addr → IpAddr
  | .ipv4, ip => .v4 ip
  | .ipv6, ip => .v6 ip

structure DomainNameMapping where
  ipv4Addr : Option UInt32
  ipv6Addr : Option (BitVec 128)
  expireTime : Int

def DomainNameMapping.default : DomainNameMapping := ⟨none, none, 0⟩

/-- `$addr_field` -/
def DomainNameMapping.addr (r : DomainNameMapping) : (f : Family) → Option f.Addr
  | .ipv4 => r.ipv4Addr
  | .ipv6 => r.ipv6Addr

def DomainNameMapping.replace (r : DomainNameMapping) (expireTime : Int) :
    (f : Family) → f.Addr → DomainNameMapping
  | .ipv4, ip => { r with ipv4Addr := some ip, expireTime }
  | .ipv6, ip => { r with ipv6Addr := some ip, expireTime }

structure IpAddrMapping where
  domainName : Text
  expireTime : Int

structure StorageMeta where
  network : Family → Text
  version : Nat

inductive Stored (α : Type) where
  | value (a : α)
  | damaged

structure Db where
  storageMeta : Option (Stored StorageMeta)
  name2ip : Text → Option (Stored DomainNameMapping)
  ip2name : IpAddr → Option (Stored IpAddrMapping)

variable (db : Db) (domain : Text) (r : DomainNameMapping)

def Db.putName : Db :=
  { db with name2ip := Function.update db.name2ip domain (some (.value r)) }

variable (db : Db) (ip : IpAddr) (m : IpAddrMapping)

def Db.putIp : Db :=
  { db with ip2name := Function.update db.ip2name ip (some (.value m)) }

structure Config where
  hosts : (f : Family) → List f.Addr
  network : Family → Text
  expireDuration : Nat

/-- `FakeDnsManager`: the database and where the two iterators stand. -/
structure Manager where
  db : Db
  position : Family → Nat

inductive FakeDnsError where
  | ioError
  deriving DecidableEq

/-! ## 2. A lookup -/

def expireSecs (cfg : Config) (now : Nat) : Int :=
  ((now : Int) + (cfg.expireDuration : Int).bmod (2 ^ 64)).bmod (2 ^ 64)

inductive Recalled (f : Family) where
  | settled (reply : Except FakeDnsError f.Addr) (db : Db)
  | allocate (mapping : DomainNameMapping) (k : Nat)

def recallDomain (cfg : Config) (f : Family) (domain : Text) (clock : Nat → Nat) (k : Nat) (db : Db) : Recalled f :=
  match db.name2ip domain with
  | none => .allocate .default k
  | some .damaged => .settled (.error .ioError) db
  | some (.value r) =>
    match r.addr f with
    | none => .allocate r k
    | some ip =>
      if (clock k : Int) ≤ r.expireTime then
        -- not expired yet: only the record of the name is extended
        .settled (.ok ip) (db.putName domain { r with expireTime := expireSecs cfg (clock (k + 1)) })
      else
        -- expired: the record of the address decides, and only that one is extended
        match db.ip2name (f.into ip) with
        | none => .allocate r (k + 2)
        | some .damaged => .settled (.error .ioError) db
        | some (.value m) =>
          if m.domainName = domain then
            .settled (.ok ip)
              (db.putIp (f.into ip) { m with expireTime := expireSecs cfg (clock (k + 1)) })
          else .allocate r (k + 2)

variable (db : Db) (f : Family) (domain : Text)

def Db.record (r : DomainNameMapping) (ip : f.Addr) (expireTime : Int) : Db :=
  (db.putIp (f.into ip) ⟨domain, expireTime⟩).putName domain (r.replace expireTime f ip)

/-- One probe of the allocating loop: `none` goes on to the next address. -/
def tryAddress (cfg : Config) (f : Family) (domain : Text) (clock : Nat → Nat) (r : DomainNameMapping) (k : Nat)
    (db : Db) (ip : f.Addr) : Option (Except FakeDnsError f.Addr × Db) :=
  match db.ip2name (f.into ip) with
  | none => some (.ok ip, db.record f domain r ip (expireSecs cfg (clock k)))
  | some .damaged => some (.error .ioError, db)
  | some (.value m) =>
    if (clock k : Int) < m.expireTime then none
    else some (.ok ip, db.record f domain r ip (expireSecs cfg (clock (k + 1))))

mutual

/-- `map_domain_ip!`: the outer loop, left with an answer only; `none`: the fuel is used up. -/
def mapDomainIp (cfg : Config) (f : Family) (domain : Text) (clock : Nat → Nat) :
    Nat → Nat → Manager → Option (Except FakeDnsError f.Addr) × Manager
  | 0, _, m => (none, m)
  | n + 1, k, m =>
    match recallDomain cfg f domain clock k m.db with
    | .settled reply db => (some reply, { m with db })
    | .allocate r k => probe cfg f domain clock r n k m

def probe (cfg : Config) (f : Family) (domain : Text) (clock : Nat → Nat) (r : DomainNameMapping) :
    Nat → Nat → Manager → Option (Except FakeDnsError f.Addr) × Manager
  | 0, _, m => (none, m)
  | n + 1, k, m =>
    match RoundRobin.next (cfg.hosts f) (m.position f) with
    | none => mapDomainIp cfg f domain clock n k m
    | some (ip, pos) =>
      match tryAddress cfg f domain clock r k m.db ip with
      | none => probe cfg f domain clock r n (k + 1) { m with position := Function.update m.position f pos }
      | some (reply, db) => (some reply, ⟨db, Function.update m.position f pos⟩)

end

def mapDomainIpv4 (cfg : Config) (domain : Text) (clock : Nat → Nat) (fuel : Nat) (m : Manager) :
    Option (Except FakeDnsError UInt32) × Manager := mapDomainIp cfg .ipv4 domain clock fuel 0 m

def mapDomainIpv6 (cfg : Config) (domain : Text) (clock : Nat → Nat) (fuel : Nat) (m : Manager) :
    Option (Except FakeDnsError (BitVec 128)) × Manager := mapDomainIp cfg .ipv6 domain clock fuel 0 m

/-! ## 3. When a lookup comes to an end -/

def Db.Held (db : Db) (ip : IpAddr) (now : Nat) : Prop :=
  ∃ m, db.ip2name ip = some (.value m) ∧ (now : Int) < m.expireTime

/-- The records of the name decide the lookup. -/
def Db.Settles (now : Nat) : Prop :=
  db.name2ip domain = some .damaged ∨ ∃ r ip, db.name2ip domain = some (.value r) ∧ r.addr f = some ip ∧
      ((now : Int) ≤ r.expireTime ∨ db.ip2name (f.into ip) = some .damaged ∨
        ∃ m, db.ip2name (f.into ip) = some (.value m) ∧ m.domainName = domain)

section

variable {cfg : Config} {f : Family} {domain : Text} {clock : Nat → Nat} {k : Nat} {db : Db} {ip : IpAddr}

theorem Db.Held.earlier {now now' : Nat} (h : db.Held ip now') (hle : now ≤ now') : db.Held ip now := by
  obtain ⟨m, hm, hlt⟩ := h
  exact ⟨m, hm, by omega⟩

theorem Db.Settles.earlier {now now' : Nat} (h : db.Settles f domain now') (hle : now ≤ now') :
    db.Settles f domain now := by
  rcases h with h | ⟨r, ip, hr, hip, h | h⟩
  · exact .inl h
  · exact .inr ⟨r, ip, hr, hip, .inl (by omega)⟩
  · exact .inr ⟨r, ip, hr, hip, .inr h⟩

inductive RecallSpec (cfg : Config) (f : Family) (domain : Text) (clock : Nat → Nat) (k : Nat) (db : Db) :
    Recalled f → Prop where
  | damagedName (h : db.name2ip domain = some .damaged) :
      RecallSpec cfg f domain clock k db (.settled (.error .ioError) db)
  | absent (h : db.name2ip domain = none) : RecallSpec cfg f domain clock k db (.allocate .default k)
  | without (r : DomainNameMapping) (h : db.name2ip domain = some (.value r)) (hip : r.addr f = none) :
      RecallSpec cfg f domain clock k db (.allocate r k)
  | unexpired (r : DomainNameMapping) (ip : f.Addr) (h : db.name2ip domain = some (.value r))
      (hip : r.addr f = some ip) (hlive : (clock k : Int) ≤ r.expireTime) :
      RecallSpec cfg f domain clock k db
        (.settled (.ok ip) (db.putName domain { r with expireTime := expireSecs cfg (clock (k + 1)) }))
  | forgotten (r : DomainNameMapping) (ip : f.Addr) (h : db.name2ip domain = some (.value r))
      (hip : r.addr f = some ip) (hdead : r.expireTime < clock k) (hback : db.ip2name (f.into ip) = none) :
      RecallSpec cfg f domain clock k db (.allocate r (k + 2))
  | damagedIp (r : DomainNameMapping) (ip : f.Addr) (h : db.name2ip domain = some (.value r))
      (hip : r.addr f = some ip) (hdead : r.expireTime < clock k)
      (hback : db.ip2name (f.into ip) = some .damaged) :
      RecallSpec cfg f domain clock k db (.settled (.error .ioError) db)
  | reused (r : DomainNameMapping) (ip : f.Addr) (m : IpAddrMapping)
      (h : db.name2ip domain = some (.value r)) (hip : r.addr f = some ip) (hdead : r.expireTime < clock k)
      (hback : db.ip2name (f.into ip) = some (.value m)) (hname : m.domainName = domain) :
      RecallSpec cfg f domain clock k db
        (.settled (.ok ip) (db.putIp (f.into ip) { m with expireTime := expireSecs cfg (clock (k + 1)) }))
  | lost (r : DomainNameMapping) (ip : f.Addr) (m : IpAddrMapping)
      (h : db.name2ip domain = some (.value r)) (hip : r.addr f = some ip) (hdead : r.expireTime < clock k)
      (hback : db.ip2name (f.into ip) = some (.value m)) (hname : m.domainName ≠ domain) :
      RecallSpec cfg f domain clock k db (.allocate r (k + 2))

theorem recallDomain_spec (cfg : Config) (f : Family) (domain : Text) (clock : Nat → Nat) (k : Nat) (db : Db) :
    RecallSpec cfg f domain clock k db (recallDomain cfg f domain clock k db) := by
  unfold recallDomain
  split
  · rename_i h
    exact .absent h
  · rename_i h
    exact .damagedName h
  rename_i r h
  split
  · rename_i hip
    exact .without r h hip
  rename_i ip hip
  split
  · rename_i hlive
    exact .unexpired r ip h hip hlive
  · rename_i hlive
    have hdead : r.expireTime < clock k := not_le.mp hlive
    split
    · rename_i hback
      exact .forgotten r ip h hip hdead hback
    · rename_i hback
      exact .damagedIp r ip h hip hdead hback
    · rename_i m hback
      split
      · rename_i hname
        exact .reused r ip m h hip hdead hback hname
      · rename_i hname
        exact .lost r ip m h hip hdead hback hname

theorem RecallSpec.cases {x : Recalled f} (h : RecallSpec cfg f domain clock k db x) :
    (db.Settles f domain (clock k) ∧ ∃ reply db', x = .settled reply db') ∨
      (¬ db.Settles f domain (clock k) ∧ ∃ r j, x = .allocate r (k + j)) := by
  unfold Db.Settles
  cases h with
  | damagedName hr => exact .inl ⟨.inl hr, _, _, rfl⟩
  | unexpired r ip hr hip hlive => exact .inl ⟨.inr ⟨r, ip, hr, hip, .inl hlive⟩, _, _, rfl⟩
  | damagedIp r ip hr hip _ hback => exact .inl ⟨.inr ⟨r, ip, hr, hip, .inr (.inl hback)⟩, _, _, rfl⟩
  | reused r ip m hr hip _ hback hname =>
    exact .inl ⟨.inr ⟨r, ip, hr, hip, .inr (.inr ⟨m, hback, hname⟩)⟩, _, _, rfl⟩
  | absent hr => exact .inr ⟨by simp [hr], _, 0, rfl⟩
  | without r hr hip => exact .inr ⟨by simp [hr, hip], _, 0, rfl⟩
  | forgotten r ip hr hip hdead hback => exact .inr ⟨by simp [hr, hip, hback, hdead], _, 2, rfl⟩
  | lost r ip m hr hip hdead hback hname => exact .inr ⟨by simp [hr, hip, hback, hdead, hname], _, 2, rfl⟩

theorem tryAddress_none_iff {r : DomainNameMapping} {ip : f.Addr} :
    tryAddress cfg f domain clock r k db ip = none ↔ db.Held (f.into ip) (clock k) := by
  unfold tryAddress Db.Held
  cases h : db.ip2name (f.into ip) with
  | none => simp
  | some s =>
    cases s with
    | damaged | value m => simp

theorem probe_none_iff (hhosts : cfg.hosts f ≠ []) (r : DomainNameMapping) (n k : Nat) (m : Manager) :
    (probe cfg f domain clock r n k m).1 = none ↔
      ∀ i < n, ∀ ip, RoundRobin.nth (cfg.hosts f) (m.position f) i = some ip →
        m.db.Held (f.into ip) (clock (k + i)) := by
  induction n generalizing k m with
  | zero => simp [probe]
  | succ n ih =>
    obtain ⟨ip, pos, hnext, hfirst, hrest⟩ := RoundRobin.next_nth hhosts (m.position f)
    rw [probe, hnext]
    have hheld : tryAddress cfg f domain clock r k m.db ip = none ↔ m.db.Held (f.into ip) (clock k) :=
      tryAddress_none_iff
    cases htry : tryAddress cfg f domain clock r k m.db ip with
    | some x =>
      simp only [htry, reduceCtorEq, false_iff] at hheld ⊢
      exact fun h => hheld (h 0 (Nat.succ_pos n) ip hfirst)
    | none =>
      simp only [htry, true_iff] at hheld ⊢
      rw [ih]
      simp only [Function.update_self, hrest]
      constructor
      · intro h i hi a ha
        cases i with
        | zero =>
          rw [hfirst] at ha
          cases ha
          exact hheld
        | succ i =>
          have := h i (by omega) a ha
          rwa [Nat.add_right_comm, add_assoc] at this
      · intro h i hi a ha
        have := h (i + 1) (by omega) a ha
        rwa [add_comm i 1, ← add_assoc] at this

theorem mapDomainIp_nil (hclock : Monotone clock) (hhosts : cfg.hosts f = []) (n : Nat) {m : Manager}
    (h : ¬ m.db.Settles f domain (clock k)) :
    (mapDomainIp cfg f domain clock n k m).1 = none ∧ ∀ r, (probe cfg f domain clock r n k m).1 = none := by
  induction n generalizing k with
  | zero => exact ⟨by rw [mapDomainIp], fun r => by rw [probe]⟩
  | succ n ih =>
    refine ⟨?_, fun r => ?_⟩
    · obtain ⟨hset, -⟩ | ⟨-, r, j, hrec⟩ := (recallDomain_spec cfg f domain clock k m.db).cases
      · exact absurd hset h
      · rw [mapDomainIp, hrec]
        refine (ih fun hset => h ?_).2 r
        exact hset.earlier (hclock (Nat.le_add_right k j))
    · rw [probe, hhosts, RoundRobin.next_nil]
      exact (ih h).1

/-- **When a lookup ends**: exactly when the records settle it, or some address is not held meanwhile. -/
theorem mapDomainIp_finishes_iff (cfg : Config) (f : Family) (domain : Text) (clock : Nat → Nat)
    (hclock : Monotone clock) (m : Manager) : (∃ n, (mapDomainIp cfg f domain clock n 0 m).1 ≠ none) ↔
      m.db.Settles f domain (clock 0) ∨ ∃ k, ∃ ip ∈ cfg.hosts f, ¬ m.db.Held (f.into ip) (clock k) := by
  obtain ⟨hset, reply, db, hrec⟩ | ⟨hset, r, j, hrec⟩ := (recallDomain_spec cfg f domain clock 0 m.db).cases
  · refine iff_of_true ⟨1, ?_⟩ (.inl hset)
    rw [mapDomainIp, hrec]
    simp
  simp only [hset, false_or]
  constructor
  · intro ⟨n, hn⟩
    by_cases hhosts : cfg.hosts f = []
    · exact absurd (mapDomainIp_nil hclock hhosts n hset).1 hn
    cases n with
    | zero => exact absurd (by rw [mapDomainIp]) hn
    | succ n =>
      rw [mapDomainIp, hrec, Ne, probe_none_iff hhosts] at hn
      push Not at hn
      obtain ⟨i, -, ip, hip, hfree⟩ := hn
      exact ⟨_, ip, RoundRobin.nth_mem hip, hfree⟩
  intro ⟨k, ip, hip, hfree⟩
  have hhosts : cfg.hosts f ≠ [] := ne_nil_of_mem hip
  -- once it is free the address stays free, and the loop comes past it again
  obtain ⟨i, hi, hnth⟩ := RoundRobin.nth_covers hip (m.position f) k
  refine ⟨i + 2, ?_⟩
  rw [mapDomainIp, hrec, Ne, probe_none_iff hhosts]
  intro hall
  exact hfree ((hall i (Nat.lt_succ_self i) ip hnth).earlier (hclock (by omega)))

end

def oneHost : Config where
  hosts
    | .ipv4 => [0x0a000001]
    | .ipv6 => []
  network
    | .ipv4 => "10.0.0.1/32".toList
    | .ipv6 => "fc00::1/128".toList
  expireDuration := 10

def Db.created (cfg : Config) : Db := ⟨some (.value ⟨cfg.network, 3⟩), fun _ => none, fun _ => none⟩

def fullPool : Manager :=
  ⟨(Db.created oneHost).record .ipv4 "a".toList .default (0x0a000001 : UInt32) 10, fun _ => 0⟩

theorem mapDomainIp_finishes_later :
    ∃ n, (mapDomainIp oneHost .ipv4 "b".toList (fun k => k) n 0 fullPool).1 ≠ none := by
  refine (mapDomainIp_finishes_iff oneHost .ipv4 "b".toList (fun k => k) monotone_id fullPool).mpr
    (.inr ⟨10, 0x0a000001, mem_singleton_self _, ?_⟩)
  intro ⟨m, hm, hlt⟩
  cases hm
  exact absurd hlt (by decide)

/-- The pool is full and the clock does not pass the tenth second: a lookup for another name never ends. -/
theorem mapDomainIp_spins : ¬ ∃ n, (mapDomainIp oneHost .ipv4 "b".toList (fun _ => 5) n 0 fullPool).1 ≠ none := by
  intro ⟨n, hn⟩
  refine hn ?_
  cases n with
  | zero => rfl
  | succ n =>
    show (probe oneHost .ipv4 "b".toList (fun _ => 5) .default n 0 fullPool).1 = none
    rw [probe_none_iff (by decide)]
    intro i _ ip hip
    obtain rfl : ip = 0x0a000001 := mem_singleton.mp (RoundRobin.nth_mem hip)
    exact ⟨⟨"a".toList, 10⟩, rfl, by decide⟩

/-! ## 4. The way back, and a start of the server -/

/-- `Display` of a `Name` keeps the case of letters, `FromStr` makes them lower. -/
structure Names (Name : Type) where
  toText : Name → Text
  parse : Text → Option Name

/-- The text of the name is read back as the name: it is in lower case. -/
def Names.Reads {Name : Type} (N : Names Name) (name : Name) : Prop := N.parse (N.toText name) = some name

def mapIpDomain {Name : Type} (N : Names Name) (cfg : Config) (now : Nat) (ip : IpAddr) (db : Db) :
    Except FakeDnsError (Option Name) × Db :=
  match db.ip2name ip with
  | none => (.ok none, db)
  | some .damaged => (.error .ioError, db)
  | some (.value m) =>
    if (now : Int) ≤ m.expireTime then
      let db := db.putIp ip { m with expireTime := expireSecs cfg now }
      match N.parse m.domainName with
      | none => (.ok none, db)
      | some name =>
        match db.name2ip (N.toText name) with
        | none => (.ok none, db)
        | some .damaged => (.error .ioError, db)
        | some (.value r) =>
          (.ok (some name), db.putName (N.toText name) { r with expireTime := expireSecs cfg now })
    else (.ok none, db)

/-- `open`: the database is kept if it was made for the same networks. -/
def openDb (cfg : Config) (db : Db) : Db :=
  match db.storageMeta with
  | some (.value c) =>
    if c.version = 3 ∧ c.network .ipv4 = cfg.network .ipv4 ∧ c.network .ipv6 = cfg.network .ipv6 then db
    else .created cfg
  | _ => .created cfg

def Manager.open (cfg : Config) (db : Db) : Manager := ⟨openDb cfg db, fun _ => 0⟩

/-! ## 5. The ways a lookup can go -/

inductive Looked (cfg : Config) (f : Family) (domain : Text) (now : Nat) (db : Db) :
    Option (Except FakeDnsError f.Addr) → Db → Prop where
  | looking : Looked cfg f domain now db none db
  | failed : Looked cfg f domain now db (some (.error .ioError)) db
  | unexpired (r : DomainNameMapping) (ip : f.Addr) (h : db.name2ip domain = some (.value r))
      (hip : r.addr f = some ip) (hlive : (now : Int) ≤ r.expireTime) :
      Looked cfg f domain now db (some (.ok ip)) (db.putName domain { r with expireTime := expireSecs cfg now })
  | reused (r : DomainNameMapping) (ip : f.Addr) (m : IpAddrMapping) (h : db.name2ip domain = some (.value r))
      (hip : r.addr f = some ip) (hback : db.ip2name (f.into ip) = some (.value m))
      (hname : m.domainName = domain) :
      Looked cfg f domain now db (some (.ok ip))
        (db.putIp (f.into ip) { m with expireTime := expireSecs cfg now })
  | allocated (r : DomainNameMapping) (ip : f.Addr) (h : ∀ r', db.name2ip domain = some (.value r') → r' = r)
      (hdead : r.addr f ≠ none → r.expireTime < now) (hfree : ¬ db.Held (f.into ip) now) :
      Looked cfg f domain now db (some (.ok ip)) (db.record f domain r ip (expireSecs cfg now))

section

variable {cfg : Config} {f : Family} {domain : Text} {now : Nat}

theorem tryAddress_looked {r : DomainNameMapping} {k : Nat} {db db' : Db} {ip : f.Addr}
    {reply : Except FakeDnsError f.Addr} (h : ∀ r', db.name2ip domain = some (.value r') → r' = r)
    (hdead : r.addr f ≠ none → r.expireTime < now)
    (htry : tryAddress cfg f domain (fun _ => now) r k db ip = some (reply, db')) :
    Looked cfg f domain now db (some reply) db' := by
  unfold tryAddress at htry
  split at htry
  · rename_i hnone
    cases htry
    exact .allocated r ip h hdead fun ⟨m, hm, _⟩ => by simp [hnone] at hm
  · cases htry
    exact .failed
  rename_i m hm
  split at htry
  · cases htry
  rename_i hlate
  cases htry
  refine .allocated r ip h hdead fun ⟨m', hm', hlt⟩ => ?_
  rw [hm] at hm'
  cases hm'
  exact hlate hlt

theorem loops_looked (cfg : Config) (f : Family) (domain : Text) (now n k : Nat) (m : Manager) :
    Looked cfg f domain now m.db (mapDomainIp cfg f domain (fun _ => now) n k m).1
        (mapDomainIp cfg f domain (fun _ => now) n k m).2.db ∧
      ∀ r, (∀ r', m.db.name2ip domain = some (.value r') → r' = r) → (r.addr f ≠ none → r.expireTime < now) →
        Looked cfg f domain now m.db (probe cfg f domain (fun _ => now) r n k m).1
          (probe cfg f domain (fun _ => now) r n k m).2.db := by
  induction n generalizing k m with
  | zero =>
    refine ⟨?_, fun r _ _ => ?_⟩
    · exact .looking
    · exact .looking
  | succ n ih =>
    refine ⟨?_, fun r hr hdead => ?_⟩
    · rw [mapDomainIp]
      have hspec := recallDomain_spec cfg f domain (fun _ => now) k m.db
      generalize recallDomain cfg f domain (fun _ => now) k m.db = x at hspec
      cases hspec with
      | damagedName | damagedIp => exact .failed
      | unexpired r ip h hip hlive => exact .unexpired r ip h hip hlive
      | reused r ip im h hip _ hback hname => exact .reused r ip im h hip hback hname
      | absent h => exact (ih _ _).2 _ (by simp [h]) fun hne => absurd (by cases f <;> rfl) hne
      | without r h hip => exact (ih _ _).2 _ (by simp [h]) fun hne => absurd hip hne
      | forgotten r ip h hip hdead | lost r ip im h hip hdead => exact (ih _ _).2 _ (by simp [h]) fun _ => hdead
    rw [probe]
    split
    · exact (ih k m).1
    rename_i ip pos _
    split
    · exact (ih (k + 1) { m with position := Function.update m.position f pos }).2 r hr hdead
    · rename_i reply db htry
      exact tryAddress_looked hr hdead htry

end

/-! ## 6. Coherence -/

structure System where
  manager : Manager
  now : Nat

/-- The calls of the server. A lookup has the fuel of its loop. -/
inductive Call (Name : Type) where
  | mapDomain (f : Family) (domain : Name) (fuel : Nat)
  | mapIp (ip : IpAddr)

structure Event (Name : Type) where
  delay : Nat
  call : Call Name

/-- An answer, until `expires`; `back` is what `map_ip_domain` then returns for the address. -/
structure Answer (Name : Type) where
  name : Name
  ip : IpAddr
  expires : Nat
  back : Except FakeDnsError (Option Name)
  deriving DecidableEq

section

variable {Name : Type} (N : Names Name) (cfg : Config)

def answered (f : Family) (domain : Name) (now : Nat) (db : Db) :
    Option (Except FakeDnsError f.Addr) → List (Answer Name)
  | some (.ok ip) =>
    [⟨domain, f.into ip, now + cfg.expireDuration, (mapIpDomain N cfg now (f.into ip) db).1⟩]
  | _ => []

def step (s : System) (e : Event Name) : System × List (Answer Name) :=
  let now := s.now + e.delay
  match e.call with
  | .mapDomain f domain fuel =>
    let (reply, m) := mapDomainIp cfg f (N.toText domain) (fun _ => now) fuel 0 s.manager
    (⟨m, now⟩, answered N cfg f domain now m.db reply)
  | .mapIp ip => (⟨{ s.manager with db := (mapIpDomain N cfg now ip s.manager.db).2 }, now⟩, [])

/-- **The answers are coherent**: the way back leads to the name, and no two names have one address
at a time. -/
def Coherent (now : Nat) (log : List (Answer Name)) : Prop :=
  (∀ a ∈ log, a.back = .ok (some a.name)) ∧
    ∀ a ∈ log, ∀ b ∈ log, a.ip = b.ip → now < a.expires → now < b.expires → a.name = b.name

instance [DecidableEq Name] (now : Nat) (log : List (Answer Name)) : Decidable (Coherent now log) :=
  inferInstanceAs (Decidable (_ ∧ _))

/-- An unexpired record of the name has an address only if that address has one that names it. -/
def Db.Backed (now : Nat) : Prop :=
  ∀ r ip, db.name2ip domain = some (.value r) → r.addr f = some ip → (now : Int) ≤ r.expireTime →
    ∃ m, db.ip2name (f.into ip) = some (.value m) ∧ m.domainName = domain ∧ (now : Int) ≤ m.expireTime

/-- An out-of-date record of another name leaves its address in no live record of that name. -/
def Db.Released (db : Db) (domain : Text) (now : Nat) : Prop :=
  ∀ f (ip : Family.Addr f) m r, db.ip2name (f.into ip) = some (.value m) → m.domainName ≠ domain →
    m.expireTime ≤ now → db.name2ip m.domainName = some (.value r) → r.addr f = some ip → r.expireTime ≤ now

/-- The condition on a step: no time overflows, and the records a lookup finds are in step. -/
def Steady (s : System) (e : Event Name) : Prop :=
  s.now + e.delay + cfg.expireDuration < 2 ^ 63 ∧ match e.call with
    | .mapDomain f domain _ =>
      N.Reads domain ∧ s.manager.db.Backed f (N.toText domain) (s.now + e.delay) ∧
        s.manager.db.Released (N.toText domain) (s.now + e.delay)
    | .mapIp _ => True

/-! ### Reading what was put -/

variable {N cfg}

@[simp] theorem putName_ip2name :
    (db.putName domain r).ip2name = db.ip2name := rfl

@[simp] theorem putIp_name2ip :
    (db.putIp ip m).name2ip = db.name2ip := rfl

@[simp] theorem putName_self :
    (db.putName domain r).name2ip domain = some (.value r) := Function.update_self ..

@[simp] theorem putIp_self :
    (db.putIp ip m).ip2name ip = some (.value m) := Function.update_self ..

variable {db : Db} {domain domain' : Text}

theorem putName_of_ne (h : domain' ≠ domain) (r : DomainNameMapping) :
    (db.putName domain r).name2ip domain' = db.name2ip domain' := Function.update_of_ne h _ _

theorem putIp_of_ne {ip ip' : IpAddr} (h : ip' ≠ ip) (m : IpAddrMapping) :
    (db.putIp ip m).ip2name ip' = db.ip2name ip' := Function.update_of_ne h _ _

variable (r : DomainNameMapping)

theorem record_ip (ip : f.Addr) (t : Int) :
    (db.record f domain r ip t).ip2name (f.into ip) = some (.value ⟨domain, t⟩) := putIp_self ..

theorem record_name (ip : f.Addr) (t : Int) :
    (db.record f domain r ip t).name2ip domain = some (.value (r.replace t f ip)) := putName_self ..

variable {f : Family} {ip : f.Addr}

theorem record_ip_of_ne {ip' : IpAddr} (h : ip' ≠ f.into ip) (domain : Text) (r : DomainNameMapping) (t : Int) :
    (db.record f domain r ip t).ip2name ip' = db.ip2name ip' :=
  putIp_of_ne h _

theorem record_name_of_ne (h : domain' ≠ domain) (f : Family) (r : DomainNameMapping) (ip : f.Addr) (t : Int) :
    (db.record f domain r ip t).name2ip domain' = db.name2ip domain' := putName_of_ne h _

theorem addr_setExpire (t : Int) (f : Family) :
    ({ r with expireTime := t } : DomainNameMapping).addr f = r.addr f := by
  cases f <;> rfl

theorem replace_expireTime (t : Int) (f : Family) (ip : f.Addr) :
    (r.replace t f ip).expireTime = t := by
  cases f <;> rfl

theorem replace_addr_of_ne (t : Int) {f' : Family} (ip : f.Addr) (h : f' ≠ f) :
    (r.replace t f ip).addr f' = r.addr f' := by
  cases f <;> cases f' <;> first | exact absurd rfl h | rfl

theorem bmod_of_lt {n : Nat} (h : n < 2 ^ 63) : (n : Int).bmod (2 ^ 64) = n :=
  Int.bmod_eq_of_le (by omega) (by omega)

variable {now : Nat}

theorem expireSecs_eq (h : now + cfg.expireDuration < 2 ^ 63) :
    expireSecs cfg now = ((now + cfg.expireDuration : Nat) : Int) := by
  have hduration : cfg.expireDuration < 2 ^ 63 := lt_of_le_of_lt (Nat.le_add_left _ _) h
  unfold expireSecs
  rw [bmod_of_lt hduration, ← Int.natCast_add]
  exact bmod_of_lt h

attribute [local irreducible] expireSecs

/-! ### What keeps an answer good -/

/-- The address is recorded for the name, and one of the two records lives as long as the answer. -/
def Db.Covers (N : Names Name) (db : Db) (a : Answer Name) : Prop :=
  ∃ m, db.ip2name a.ip = some (.value m) ∧ m.domainName = N.toText a.name ∧ ((a.expires : Int) ≤ m.expireTime ∨
      ∃ f ip r, Family.into f ip = a.ip ∧ db.name2ip (N.toText a.name) = some (.value r) ∧
        r.addr f = some ip ∧ (a.expires : Int) ≤ r.expireTime)

variable {a : Answer Name} {r : DomainNameMapping} {t : Int}

theorem Db.Covers.extendName {domain : Text} (hc : db.Covers N a) (h : db.name2ip domain = some (.value r))
    (ht : (a.expires : Int) ≤ t) : (db.putName domain { r with expireTime := t }).Covers N a := by
  obtain ⟨m, hm, hname, hlive | ⟨f, ip, r', hip, hr', haddr, hlive⟩⟩ := hc
  · exact ⟨m, hm, hname, .inl hlive⟩
  refine ⟨m, hm, hname, .inr ?_⟩
  by_cases hdom : N.toText a.name = domain
  · rw [hdom, h] at hr'
    cases hr'
    exact ⟨f, ip, _, hip, by rw [hdom, putName_self], by rw [addr_setExpire]; exact haddr, ht⟩
  · exact ⟨f, ip, r', hip, by rw [putName_of_ne hdom, hr'], haddr, hlive⟩

variable {m : IpAddrMapping}

theorem Db.Covers.extendIp {ip : IpAddr} (hc : db.Covers N a)
    (h : db.ip2name ip = some (.value m)) (ht : (a.expires : Int) ≤ t) :
    (db.putIp ip { m with expireTime := t }).Covers N a := by
  obtain ⟨m', hm', hname, hlive⟩ := hc
  by_cases hip : a.ip = ip
  · rw [hip, h] at hm'
    cases hm'
    exact ⟨{ m with expireTime := t }, by rw [hip, putIp_self], hname, .inl ht⟩
  · exact ⟨m', by rw [putIp_of_ne hip, hm'], hname, hlive⟩

variable {domain : Name}

theorem Db.Covers.record (hc : db.Covers N a) (hlive : now < a.expires)
    (hrel : db.Released (N.toText domain) now) (hfree : ¬ db.Held (f.into ip) now)
    (h : ∀ r', db.name2ip (N.toText domain) = some (.value r') → r' = r)
    (hdead : r.addr f ≠ none → r.expireTime < now) (ht : (a.expires : Int) ≤ t) :
    (db.record f (N.toText domain) r ip t).Covers N a := by
  obtain ⟨m, hm, hname, hcov⟩ := hc
  by_cases hip : a.ip = f.into ip
  · -- the address is taken: from the name itself, or its answers were expired
    have hmdead : m.expireTime ≤ now := by
      rw [hip] at hm
      exact not_lt.mp fun hlt => hfree ⟨m, hm, hlt⟩
    by_cases hsame : N.toText a.name = N.toText domain
    · exact ⟨_, by rw [hip, record_ip], hsame.symm, .inl ht⟩
    exfalso
    rcases hcov with hcov | ⟨f', ip', r', hip', hr', haddr, hcov⟩
    · omega
    · have := hrel f' ip' m r' (by rw [hip', hm]) (by rw [hname]; exact hsame) hmdead (by rw [hname, hr']) haddr
      omega
  refine ⟨m, by rw [record_ip_of_ne hip, hm], hname, ?_⟩
  rcases hcov with hcov | ⟨f', ip', r', hip', hr', haddr, hcov⟩
  · exact .inl hcov
  refine .inr ?_
  by_cases hsame : N.toText a.name = N.toText domain
  · rw [hsame] at hr'
    obtain rfl := h r' hr'
    -- an address of this family was given up because the record had expired
    have hf : f' ≠ f := by
      rintro rfl
      have := hdead (by rw [haddr]; exact Option.some_ne_none _)
      omega
    exact ⟨f', ip', _, hip', by rw [hsame, record_name], by rw [replace_addr_of_ne _ _ _ hf, haddr],
      by rw [replace_expireTime]; exact ht⟩
  · exact ⟨f', ip', r', hip', by rw [record_name_of_ne hsame, hr'], haddr, hcov⟩

variable {reply : Option (Except FakeDnsError f.Addr)}

theorem Looked.covers {db' : Db}
    (hlook : Looked cfg f (N.toText domain) now db reply db') (hrel : db.Released (N.toText domain) now)
    (ht : (a.expires : Int) ≤ expireSecs cfg now) (hlive : now < a.expires) (hc : db.Covers N a) :
    db'.Covers N a := by
  cases hlook with
  | looking | failed => exact hc
  | unexpired r ip h => exact hc.extendName h ht
  | reused r ip m _ _ hback => exact hc.extendIp hback ht
  | allocated r ip h hdead hfree => exact hc.record hlive hrel hfree h hdead ht

theorem mapIpDomain_ok {ip : IpAddr} {name : Name} (hm : db.ip2name ip = some (.value m))
    (hname : m.domainName = N.toText name) (hlive : (now : Int) ≤ m.expireTime)
    (hr : db.name2ip (N.toText name) = some (.value r)) (hreads : N.Reads name) :
    (mapIpDomain N cfg now ip db).1 = .ok (some name) := by
  unfold Names.Reads at hreads
  simp [mapIpDomain, hm, hlive, hname, hreads, hr]

theorem Looked.answer {db' : Db} (hlook : Looked cfg f (N.toText domain) now db (some (.ok ip)) db')
    (hreads : N.Reads domain) (hback : db.Backed f (N.toText domain) now)
    (hfits : now + cfg.expireDuration < 2 ^ 63) :
    (mapIpDomain N cfg now (f.into ip) db').1 = .ok (some domain) ∧
      ∀ back, db'.Covers N ⟨domain, f.into ip, now + cfg.expireDuration, back⟩ := by
  have ht := expireSecs_eq hfits
  have hle : ((now + cfg.expireDuration : Nat) : Int) ≤ expireSecs cfg now := ht.ge
  have hnow : (now : Int) ≤ expireSecs cfg now := by omega
  cases hlook with
  | unexpired r ip h hip hlive =>
    obtain ⟨m, hm, hname, hmlive⟩ := hback r ip h hip hlive
    refine ⟨mapIpDomain_ok hm hname hmlive (putName_self ..) hreads, fun back => ⟨m, hm, hname, .inr ?_⟩⟩
    exact ⟨f, ip, _, rfl, putName_self .., by rw [addr_setExpire]; exact hip, hle⟩
  | reused r ip m h hip hm hname =>
    exact ⟨mapIpDomain_ok (putIp_self ..) hname hnow h hreads, fun back => ⟨_, putIp_self .., hname, .inl hle⟩⟩
  | allocated r ip h hdead hfree =>
    exact ⟨mapIpDomain_ok (record_ip ..) rfl hnow (record_name ..) hreads,
      fun back => ⟨_, record_ip .., rfl, .inl hle⟩⟩

theorem mapIpDomain_covers (ip : IpAddr) (ht : (a.expires : Int) ≤ expireSecs cfg now) (hc : db.Covers N a) :
    (mapIpDomain N cfg now ip db).2.Covers N a := by
  unfold mapIpDomain
  split
  · exact hc
  · exact hc
  rename_i m hm
  have hc' := hc.extendIp hm ht
  split
  · dsimp only
    split
    · exact hc'
    split
    · exact hc'
    · exact hc'
    · rename_i r hr
      exact hc'.extendName hr ht
  · exact hc

def Kept (N : Names Name) (cfg : Config) (s : System) (log : List (Answer Name)) : Prop :=
  ∀ a ∈ log, (a.back = .ok (some a.name) ∧ N.Reads a.name) ∧ a.expires ≤ s.now + cfg.expireDuration ∧
    (s.now < a.expires → s.manager.db.Covers N a)

theorem mem_answered (h : a ∈ answered N cfg f domain now db reply) :
    ∃ ip, reply = some (.ok ip) ∧
      a = ⟨domain, f.into ip, now + cfg.expireDuration, (mapIpDomain N cfg now (f.into ip) db).1⟩ := by
  unfold answered at h
  split at h
  · rename_i ip
    exact ⟨ip, rfl, mem_singleton.mp h⟩
  · cases h

theorem Kept.step {s : System} {log : List (Answer Name)} {e : Event Name} (hk : Kept N cfg s log)
    (hs : Steady N cfg s e) : Kept N cfg (step N cfg s e).1 (log ++ (step N cfg s e).2) := by
  obtain ⟨delay, call⟩ := e
  obtain ⟨hfits, hs⟩ := hs
  have hexp : ∀ a ∈ log, (a.expires : Int) ≤ expireSecs cfg (s.now + delay) := fun a ha => by
    have := (hk a ha).2.1
    rw [expireSecs_eq hfits]
    omega
  cases call with
  | mapIp ip =>
    intro a ha
    rw [FakeDns.step, append_nil] at ha
    obtain ⟨hback, hle, hcov⟩ := hk a ha
    refine ⟨hback, ?_, fun hlive => mapIpDomain_covers ip (hexp a ha) (hcov ?_)⟩
    · show a.expires ≤ s.now + delay + cfg.expireDuration
      omega
    · have hlive : s.now + delay < a.expires := hlive
      omega
  | mapDomain f domain fuel =>
    obtain ⟨hreads, hback, hrel⟩ := hs
    have hlook := (loops_looked cfg f (N.toText domain) (s.now + delay) fuel 0 s.manager).1
    intro a ha
    obtain ha | ha := mem_append.mp ha
    · obtain ⟨hb, hle, hcov⟩ := hk a ha
      refine ⟨hb, ?_, fun hlive => hlook.covers hrel (hexp a ha) hlive (hcov ?_)⟩
      · show a.expires ≤ s.now + delay + cfg.expireDuration
        omega
      · have hlive : s.now + delay < a.expires := hlive
        omega
    · obtain ⟨ip, hreply, rfl⟩ := mem_answered ha
      rw [hreply] at hlook
      obtain ⟨hb, hcov⟩ := hlook.answer hreads hback hfits
      exact ⟨⟨hb, hreads⟩, le_rfl, fun _ => hcov _⟩

/-- **Coherence**: from any tables, at any times, as long as every lookup is of a name in lower case and finds the two
records of a mapping in step. -/
theorem coherent_of_steady (N : Names Name) (cfg : Config) (s : System) (es : List (Event Name))
    (h : Along (step N cfg) (Steady N cfg) s es) :
    Coherent (run (step N cfg) s es).1.now (run (step N cfg) s es).2 := by
  have hk : Kept N cfg (run (step N cfg) s es).1 (run (step N cfg) s es).2 :=
    run_inv (I := Kept N cfg) nofun (fun _ _ _ hk hs => hk.step hs) h
  refine ⟨fun a ha => (hk a ha).1.1, fun a ha b hb hip hlive hlive' => ?_⟩
  obtain ⟨m, hm, hname, -⟩ := (hk a ha).2.2 hlive
  obtain ⟨m', hm', hname', -⟩ := (hk b hb).2.2 hlive'
  rw [← hip, hm] at hm'
  cases hm'
  have hsame : N.parse (N.toText a.name) = N.parse (N.toText b.name) := by rw [← hname, hname']
  exact Option.some.inj (((hk a ha).1.2.symm.trans hsame).trans (hk b hb).1.2)

end

def plainNames : Names Text := ⟨id, fun t => some (t.map Char.toLower)⟩

def started : System := ⟨Manager.open oneHost ⟨none, fun _ => none, fun _ => none⟩, 0⟩

/-- A name is looked up, and its address taken over when both records have expired. -/
theorem coherent_takeover : Coherent 20 (run (step plainNames oneHost) started
      [⟨0, .mapDomain .ipv4 "a".toList 5⟩, ⟨20, .mapDomain .ipv4 "b".toList 5⟩]).2 := by
  refine coherent_of_steady plainNames oneHost started _ ⟨⟨by decide, rfl, ?_, ?_⟩, ⟨by decide, rfl, ?_, ?_⟩, trivial⟩
  · intro r ip hr
    cases hr
  · intro f ip m r hm
    cases hm
  · intro r ip hr
    cases hr
  intro f ip m r _ _ _ hr _
  have hr : ((Db.created oneHost).record .ipv4 "a".toList .default (0x0a000001 : UInt32)
      (expireSecs oneHost 0)).name2ip m.domainName = some (.value r) := hr
  by_cases hname : m.domainName = "a".toList
  · rw [hname, record_name] at hr
    cases hr
    decide +kernel
  · rw [record_name_of_ne hname] at hr
    cases hr

/-- Asked for again, only the name's own record is extended: the answer cannot be traced back, and another name gets
the address. The answer for a name with a capital letter cannot be traced back at all. -/
theorem coherent_broken : ¬ Coherent 12 (run (step plainNames oneHost) started
      [⟨0, .mapDomain .ipv4 "a".toList 5⟩, ⟨5, .mapDomain .ipv4 "a".toList 5⟩,
        ⟨7, .mapDomain .ipv4 "a".toList 5⟩, ⟨0, .mapDomain .ipv4 "b".toList 5⟩]).2 ∧
    ¬ Coherent 0 (run (step plainNames oneHost) started [⟨0, .mapDomain .ipv4 "A".toList 5⟩]).2 := by
  decide +kernel

end Shadowsocks.Local.FakeDns
