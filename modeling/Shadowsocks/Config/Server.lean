/-
  Subject:   THE CONFIGURATION OF ONE SERVER (`crates/shadowsocks/src/config.rs`): addresses as texts, passwords as
  keys. The methods (`Ciphers`) and the texts of IP addresses (`IpText`) are parameters with laws.
-/
import Mathlib.Algebra.Order.Ring.Rat
import Shadowsocks.Acl.Rules
import Shadowsocks.Lib.Base64
import Shadowsocks.Lib.Url

namespace Shadowsocks.Config

open Lib Shadowsocks.Acl List Option Base64

/-! ## 1. Modes -/

inductive Mode where
  | tcpOnly
  | tcpAndUdp
  | udpOnly
  deriving DecidableEq

def Mode.enableUdp : Mode → Bool
  | .udpOnly | .tcpAndUdp => true
  | .tcpOnly => false

def Mode.enableTcp : Mode → Bool
  | .tcpOnly | .tcpAndUdp => true
  | .udpOnly => false

def Mode.asStr : Mode → Text
  | .tcpOnly => "tcp_only".toList
  | .tcpAndUdp => "tcp_and_udp".toList
  | .udpOnly => "udp_only".toList

def Mode.fromStr (s : Text) : Option Mode :=
  if s = "tcp_only".toList then some .tcpOnly
  else if s = "tcp_and_udp".toList then some .tcpAndUdp
  else if s = "udp_only".toList then some .udpOnly
  else none

@[simp] theorem Mode.fromStr_asStr (m : Mode) : fromStr m.asStr = some m := by
  cases m <;> rfl

/-! ## 2. Addresses -/

structure IpText where
  print : IpAddr → Text
  parse : Text → Option IpAddr
  hexV6 : BitVec 128 → Text
  parse_print : ∀ ip, parse (print ip) = some ip
  parse_hexV6 : ∀ ip, parse (hexV6 ip) = some (.v6 ip)
  print_ne_nil : ∀ ip, print ip ≠ []
  print_v4 : ∀ ip, ∀ c ∈ print (.v4 ip), c.isDigit ∨ c = '.'
  parse_v6 : ∀ s ip, parse s = some (.v6 ip) → ':' ∈ s ∧ ∀ c ∈ s, c.isDigit ∨ c ∈ "abcdefABCDEF:.".toList

def decimal (n : Nat) : Text := Nat.toDigits 10 n

def parsePort (s : Text) : Option UInt16 :=
  if s ≠ [] ∧ s.all Char.isDigit ∧ Nat.ofDigitChars 10 s 0 < 2 ^ 16 then some (UInt16.ofNat (Nat.ofDigitChars 10 s 0))
  else none

theorem decimal_isDigit {n : Nat} {c : Char} (h : c ∈ decimal n) : c.isDigit = true :=
  Nat.isDigit_of_mem_toDigits (by decide) (by decide) h

theorem decimal_ne_nil (n : Nat) : decimal n ≠ [] := Nat.toDigits_ne_nil

theorem ofDigitChars_decimal (n : Nat) : Nat.ofDigitChars 10 (decimal n) 0 = n := Nat.ofDigitChars_ten_toDigits

theorem parsePort_decimal (port : UInt16) : parsePort (decimal port.toNat) = some port := by
  have hdigits : (decimal port.toNat).all Char.isDigit = true := all_eq_true.mpr fun c hc => decimal_isDigit hc
  rw [parsePort, ofDigitChars_decimal, if_pos ⟨decimal_ne_nil _, hdigits, port.toNat_lt⟩, UInt16.ofNat_toNat]

def u16FromStr : Text → Option UInt16
  | '+' :: s => parsePort s
  | s => parsePort s

inductive ServerAddr where
  | socketAddr (addr : SocketAddr)
  | domainName (dn : Text) (port : UInt16)
  deriving DecidableEq

variable (I : IpText)

def parseSocketAddr : Text → Option SocketAddr
  | '[' :: s =>
    match splitFirst ']' s with
    | some (inner, ':' :: port) =>
      match I.parse inner with
      | some (.v6 ip) => (parsePort port).map fun port => .v6 ⟨ip, port, 0, 0⟩
      | _ => none
    | _ => none
  | s =>
    match splitFirst ':' s with
    | some (host, port) =>
      match I.parse host with
      | some (.v4 ip) => (parsePort port).map fun port => .v4 ⟨ip, port⟩
      | _ => none
    | none => none

def ServerAddr.fromStr (s : Text) : Option ServerAddr :=
  match parseSocketAddr I s with
  | some addr => some (.socketAddr addr)
  | none =>
    match s.splitOn ':' with
    | dn :: port :: _ => if dn = [] then none else (u16FromStr port).map (.domainName dn)
    | _ => none

def ServerAddr.hostText : ServerAddr → Text
  | .socketAddr (.v4 a) => I.print (.v4 a.ip)
  | .socketAddr (.v6 a) => '[' :: I.print (.v6 a.ip) ++ [']']
  | .domainName dn _ => dn

def ServerAddr.port : ServerAddr → UInt16
  | .socketAddr (.v4 a) => a.port
  | .socketAddr (.v6 a) => a.port
  | .domainName _ port => port

def ServerAddr.print (a : ServerAddr) : Text := a.hostText I ++ ':' :: decimal a.port.toNat

/-! ## 3. Methods and keys -/

inductive Family where
  /-- `CipherKind::NONE` -/
  | none
  /-- `CipherKind::SS_TABLE` -/
  | table
  /-- The stream and AEAD ciphers. -/
  | derived
  /-- `is_aead_2022`; `eih` is `method_support_eih`. -/
  | aead2022 (eih : Bool)
  deriving DecidableEq

structure Ciphers (Kind : Type) where
  name : Kind → Text
  parse : Text → Option Kind
  family : Kind → Family
  keyLen : Kind → Nat
  bytesToKey : Bytes → Nat → Bytes
  keyLen_pos : ∀ k eih, family k = .aead2022 eih → 0 < keyLen k
  parse_name : ∀ k, parse (name k) = some k
  name_chars : ∀ k, ∀ c ∈ name k, c.isAlphanum ∨ c = '-'
  /-- No name of a method is the Base64 code of a text. -/
  name_no_text : ∀ k bs, decode urlSafe (name k) = some bs → Lib.fromUtf8 bs = none

inductive ServerConfigError (Kind : Type) where
  | invalidKeyEncoding (method : Kind)
  | invalidUserKeyEncoding (method : Kind)
  | invalidKeyLength (method : Kind) (expected found : Nat)
  | invalidUserKeyLength (method : Kind) (expected found : Nat)
  deriving DecidableEq

variable {Kind : Type} (C : Ciphers Kind)

def makeDerivedKey (method : Kind) (password : Text) : Except (ServerConfigError Kind) Bytes :=
  match C.family method with
  | .aead2022 _ =>
    match decode standard password with
    | some v =>
      if v.length = C.keyLen method then .ok v
      else .error (.invalidKeyLength method (C.keyLen method) v.length)
    | none => .error (.invalidKeyEncoding method)
  | _ => .ok (C.bytesToKey (utf8 password) (C.keyLen method))

def identityKey (method : Kind) (ipsk : Text) : Except (ServerConfigError Kind) Bytes :=
  match decode standard ipsk with
  | some v =>
    if v.length = C.keyLen method then .ok v
    else .error (.invalidUserKeyLength method (C.keyLen method) v.length)
  | none => .error (.invalidUserKeyEncoding method)

def identityKeys (method : Kind) : List Text → Except (ServerConfigError Kind) (List Bytes)
  | [] => .ok []
  | ipsk :: rest =>
    match identityKey C method ipsk with
    | .error e => .error e
    | .ok v => (identityKeys method rest).map (v :: ·)

def passwordToKeys (method : Kind) (password : Text) :
    Except (ServerConfigError Kind) (Text × Bytes × List Bytes) :=
  match C.family method with
  | .none => .ok (password, [], [])
  | .table => .ok (password, utf8 password, [])
  | .aead2022 true =>
    match (password.splitOn ':').reverse with
    | [] => .ok (password, [], [])
    | upsk :: ipsks =>
      match makeDerivedKey C method upsk with
      | .error e => .error e
      | .ok key => (identityKeys C method ipsks).map fun ids => (upsk, key, ids.reverse)
  | _ => (makeDerivedKey C method password).map fun key => (password, key, [])

def exportPassword (password : Text) (ids : List Bytes) : Text :=
  if ids = [] then password
  else [':'].intercalate (ids.map (encode standard true) ++ [password])

theorem exportPassword_eq (password : Text) (ids : List Bytes) :
    exportPassword password ids = [':'].intercalate (ids.map (encode standard true) ++ [password]) := by
  unfold exportPassword
  split
  · rename_i h
    simp [h]
  · rfl

theorem not_mem_of_mem_splitOn {x : Char} {s l : Text} (h : l ∈ s.splitOn x) : x ∉ l := by
  induction s generalizing l with
  | nil =>
    rw [splitOn_nil, mem_singleton] at h
    rw [h]
    exact not_mem_nil
  | cons c s ih =>
    rw [splitOn_cons_eq_if_modifyHead] at h
    split at h
    · rcases mem_cons.mp h with rfl | h
      · exact not_mem_nil
      · exact ih h
    rename_i hc
    cases hs : s.splitOn x with
    | nil => exact absurd hs (splitOn_ne_nil x s)
    | cons first rest =>
      rw [hs] at h ih
      rcases mem_cons.mp h with rfl | h
      · intro hx
        rcases mem_cons.mp hx with rfl | hx
        · exact hc (beq_self_eq_true _)
        · exact ih mem_cons_self hx
      · exact ih (mem_cons_of_mem _ h)

theorem colon_not_mem_encode (bs : Bytes) : ':' ∉ encode standard true bs := by
  intro h
  rcases mem_encode h with ⟨n, hn, h⟩ | ⟨-, h⟩
  · exact absurd h.symm ((by decide : ∀ n < 64, standard.symbol n ≠ ':') n hn)
  · exact absurd h (by decide)

variable {method : Kind} {ids : List Bytes}

theorem identityKeys_encode (h : ∀ k ∈ ids, k.length = C.keyLen method) :
    identityKeys C method (ids.map (encode standard true)) = .ok ids := by
  induction ids with
  | nil => rfl
  | cons k ids ih =>
    have hk : identityKey C method (encode standard true k) = .ok k := by
      rw [identityKey, decode_encode]
      exact if_pos (h k mem_cons_self)
    rw [map_cons, identityKeys, hk, ih fun k hk => h k (mem_cons_of_mem _ hk)]
    rfl

theorem identityKey_length {ipsk : Text} {v : Bytes} (h : identityKey C method ipsk = .ok v) :
    v.length = C.keyLen method := by
  unfold identityKey at h
  split at h
  · split at h
    · cases h
      assumption
    · cases h
  · cases h

variable {ipsks : List Text}

theorem identityKeys_length (h : identityKeys C method ipsks = .ok ids) : ∀ k ∈ ids, k.length = C.keyLen method := by
  induction ipsks generalizing ids with
  | nil =>
    cases h
    exact nofun
  | cons ipsk ipsks ih =>
    cases hv : identityKey C method ipsk with
    | error e =>
      rw [identityKeys, hv] at h
      cases h
    | ok v =>
      cases hrest : identityKeys C method ipsks with
      | error e =>
        rw [identityKeys, hv, hrest] at h
        cases h
      | ok rest =>
        rw [identityKeys, hv, hrest] at h
        cases h
        exact forall_mem_cons.mpr ⟨identityKey_length C hv, ih hrest⟩

variable {key : Bytes} {password upsk : Text}

theorem passwordToKeys_eih (hfam : C.family method = .aead2022 true) (hparts : password.splitOn ':' = ipsks ++ [upsk]) :
    passwordToKeys C method password = .ok (upsk, key, ids) ↔
      makeDerivedKey C method upsk = .ok key ∧ identityKeys C method ipsks.reverse = .ok ids.reverse := by
  rw [passwordToKeys, hfam]
  simp only [hparts, reverse_append, reverse_singleton, singleton_append]
  cases makeDerivedKey C method upsk with
  | error e => simp
  | ok key' =>
    cases identityKeys C method ipsks.reverse with
    | error e => simp [Except.map]
    | ok ids' => simp [Except.map, reverse_eq_iff]

theorem passwordToKeys_eih_parts (hfam : C.family method = .aead2022 true)
    (h : passwordToKeys C method password = .ok (upsk, key, ids)) :
    ∃ ipsks, password.splitOn ':' = ipsks ++ [upsk] := by
  have hne := splitOn_ne_nil ':' password
  have hparts := (dropLast_append_getLast hne).symm
  suffices hlast : (password.splitOn ':').getLast hne = upsk from ⟨_, hlast ▸ hparts⟩
  rw [passwordToKeys, hfam, hparts] at h
  simp only [reverse_append, reverse_singleton, singleton_append] at h
  split at h
  · cases h
  cases hids : identityKeys C method (password.splitOn ':').dropLast.reverse with
  | error e =>
    rw [hids] at h
    cases h
  | ok ids' =>
    rw [hids] at h
    simp only [Except.map, Except.ok.injEq, Prod.mk.injEq] at h
    exact h.1

theorem passwordToKeys_plain (hfam : C.family method ≠ .aead2022 true)
    (h : passwordToKeys C method password = .ok (upsk, key, ids)) : upsk = password ∧ ids = [] := by
  unfold passwordToKeys at h
  split at h
  · cases h
    exact ⟨rfl, rfl⟩
  · cases h
    exact ⟨rfl, rfl⟩
  · contradiction
  cases hkey : makeDerivedKey C method password with
  | error e =>
    rw [hkey] at h
    cases h
  | ok key' =>
    rw [hkey] at h
    cases h
    exact ⟨rfl, rfl⟩

theorem passwordToKeys_export (h : passwordToKeys C method password = .ok (upsk, key, ids)) :
    passwordToKeys C method (exportPassword upsk ids) = .ok (upsk, key, ids) := by
  by_cases hfam : C.family method = .aead2022 true
  · obtain ⟨ipsks, hparts⟩ := passwordToKeys_eih_parts C hfam h
    obtain ⟨hkey, hids⟩ := (passwordToKeys_eih C hfam hparts).mp h
    have hexport : (exportPassword upsk ids).splitOn ':' =
        ids.map (encode standard true) ++ [upsk] := by
      rw [exportPassword_eq]
      refine splitOn_intercalate ':' ?_ (by simp)
      intro s hs
      rcases mem_append.mp hs with hs | hs
      · obtain ⟨k, -, rfl⟩ := mem_map.mp hs
        exact colon_not_mem_encode k
      · rw [mem_singleton.mp hs]
        exact not_mem_of_mem_splitOn (hparts ▸ mem_append_right ipsks mem_cons_self)
    refine (passwordToKeys_eih C hfam hexport).mpr ⟨hkey, ?_⟩
    rw [← map_reverse]
    exact identityKeys_encode C (identityKeys_length C hids)
  · -- the other methods have no identity keys
    obtain ⟨rfl, rfl⟩ := passwordToKeys_plain C hfam h
    rwa [exportPassword, if_pos rfl]

/-! ## 4. Servers -/

structure PluginConfig where
  plugin : Text
  pluginOpts : Option Text
  pluginArgs : List Text
  pluginMode : Mode
  deriving DecidableEq

structure ServerWeight where
  (tcpWeight udpWeight : Rat)
  tcp_unit : 0 ≤ tcpWeight ∧ tcpWeight ≤ 1
  udp_unit : 0 ≤ udpWeight ∧ udpWeight ≤ 1
  deriving DecidableEq

def ServerWeight.new : ServerWeight := ⟨1, 1, by decide, by decide⟩

inductive ServerSource where
  | default
  | configuration
  | commandLine
  | onlineConfig
  deriving DecidableEq

structure ServerConfig (Kind : Type) where
  addr : ServerAddr
  password : Text
  method : Kind
  encKey : Bytes
  timeout : Option Nat
  identityKeys : List Bytes
  userManager : Option ServerUserManager
  plugin : Option PluginConfig
  (remarks id : Option Text)
  mode : Mode
  weight : ServerWeight
  source : ServerSource
  deriving DecidableEq

def ServerConfig.new (addr : ServerAddr) (password : Text) (method : Kind) :
    Except (ServerConfigError Kind) (ServerConfig Kind) :=
  (passwordToKeys C method password).map fun (upsk, key, ids) =>
    { addr, password := upsk, method, encKey := key, timeout := none, identityKeys := ids, userManager := none,
      plugin := none, remarks := none, id := none, mode := .tcpAndUdp, weight := .new, source := .default }

def ServerConfig.exportPassword (c : ServerConfig Kind) : Text := Config.exportPassword c.password c.identityKeys

def ServerConfig.isBasic (c : ServerConfig Kind) : Bool := c.remarks.isNone && c.id.isNone

variable {c : ServerConfig Kind} {addr : ServerAddr}

theorem ServerConfig.new_ok (h : new C addr password method = .ok c) :
    c.addr = addr ∧ c.method = method ∧
      passwordToKeys C method password = .ok (c.password, c.encKey, c.identityKeys) := by
  cases hkeys : passwordToKeys C method password with
  | error e =>
    rw [new, hkeys] at h
    cases h
  | ok keys =>
    rw [new, hkeys] at h
    cases h
    exact ⟨rfl, rfl, rfl⟩

/-! ## 5. Methods and addresses to run -/

inductive SampleMethod where
  | none
  | aes128Gcm
  | blake3Aes128Gcm
  deriving DecidableEq

def Ciphers.sample : Ciphers SampleMethod where
  name
    | .none => "none".toList
    | .aes128Gcm => "aes-128-gcm".toList
    | .blake3Aes128Gcm => "2022-blake3-aes-128-gcm".toList
  parse s :=
    if s = "none".toList then some .none
    else if s = "aes-128-gcm".toList then some .aes128Gcm
    else if s = "2022-blake3-aes-128-gcm".toList then some .blake3Aes128Gcm
    else none
  family
    | .none => .none
    | .aes128Gcm => .derived
    | .blake3Aes128Gcm => .aead2022 true
  keyLen
    | .none => 0
    | _ => 16
  bytesToKey bs n := (bs ++ replicate n 0).take n
  keyLen_pos k eih h := by
    cases k with
    | none => cases h
    | _ => decide
  parse_name k := by cases k <;> decide
  name_chars k := by cases k <;> exact forall_of_all (by decide)
  name_no_text k bs h := by
    cases k with
    | none =>
      have hdecode : decode urlSafe "none".toList = some [0x9e, 0x89, 0xde] := by decide
      cases hdecode.symm.trans h
      decide +kernel
    | aes128Gcm =>
      have hdecode : decode urlSafe "aes-128-gcm".toList = none := by decide
      cases hdecode.symm.trans h
    | blake3Aes128Gcm =>
      have hdecode : decode urlSafe "2022-blake3-aes-128-gcm".toList = none := by decide
      cases hdecode.symm.trans h

def samplePrint : IpAddr → Text
  | .v4 ip =>
    ['.'].intercalate [decimal (ip.toNat / 2 ^ 24), decimal (ip.toNat / 2 ^ 16 % 256),
      decimal (ip.toNat / 2 ^ 8 % 256), decimal (ip.toNat % 256)]
  | .v6 ip => ':' :: decimal ip.toNat

def sampleHexV6 (ip : BitVec 128) : Text :=
  if ip.toNat / 2 ^ 32 = 0xffff then ':' :: samplePrint (.v6 ip) else samplePrint (.v6 ip)

def sampleGuess : Text → IpAddr
  | ':' :: s => .v6 (BitVec.ofNat 128 (Nat.ofDigitChars 10 (s.dropWhile (· = ':')) 0))
  | s =>
    .v4 (UInt32.ofNat ((s.splitOn '.').foldl (fun n part => n * 256 + Nat.ofDigitChars 10 part 0) 0))

theorem samplePrint_v4_chars (ip : UInt32) : ∀ c ∈ samplePrint (.v4 ip), c.isDigit = true ∨ c = '.' := by
  intro c hc
  simp only [samplePrint, intercalate_cons_cons, intercalate_singleton, mem_append, mem_singleton] at hc
  rcases hc with (hc | hc) | (hc | hc) | (hc | hc) | hc
  all_goals first | exact .inr hc | exact .inl (decimal_isDigit hc)

theorem sampleGuess_v6 (ip : BitVec 128) :
    sampleGuess (samplePrint (.v6 ip)) = .v6 ip ∧ sampleGuess (':' :: samplePrint (.v6 ip)) = .v6 ip := by
  have hdrop : (decimal ip.toNat).dropWhile (· = ':') = decimal ip.toNat := by
    obtain ⟨c, s, hs⟩ := exists_cons_of_ne_nil (decimal_ne_nil ip.toNat)
    have hc : c.isDigit = true := decimal_isDigit (hs ▸ mem_cons_self)
    rw [hs, dropWhile_cons_of_neg]
    rintro h
    cases of_decide_eq_true h
    cases hc
  simp [samplePrint, sampleGuess, hdrop, ofDigitChars_decimal]

theorem sampleGuess_hexV6 (ip : BitVec 128) : sampleGuess (sampleHexV6 ip) = .v6 ip := by
  unfold sampleHexV6
  split
  · exact (sampleGuess_v6 ip).2
  · exact (sampleGuess_v6 ip).1

theorem sampleGuess_print (ip : IpAddr) : sampleGuess (samplePrint ip) = ip := by
  cases ip with
  | v6 ip => exact (sampleGuess_v6 ip).1
  | v4 ip =>
    have hdot : ∀ n, '.' ∉ decimal n := fun n h => absurd (decimal_isDigit h) (by decide)
    have hsplit : (samplePrint (.v4 ip)).splitOn '.' = [decimal (ip.toNat / 2 ^ 24), decimal (ip.toNat / 2 ^ 16 % 256),
        decimal (ip.toNat / 2 ^ 8 % 256), decimal (ip.toNat % 256)] := by
      refine splitOn_intercalate '.' (fun s hs => ?_) (by simp)
      simp only [mem_cons, not_mem_nil, or_false] at hs
      rcases hs with rfl | rfl | rfl | rfl <;> exact hdot _
    unfold sampleGuess
    split
    · rename_i s hs
      have hcolon := samplePrint_v4_chars ip ':' (by rw [hs]; exact mem_cons_self)
      exact absurd hcolon (by decide)
    have hlt := ip.toNat_lt
    simp only [hsplit, foldl_cons, foldl_nil, ofDigitChars_decimal]
    congr 1
    refine UInt32.toNat_inj.mp ?_
    rw [UInt32.toNat_ofNat']
    omega

def sampleTexts : IpAddr → List Text
  | .v4 ip => [samplePrint (.v4 ip)]
  | .v6 ip => [samplePrint (.v6 ip), sampleHexV6 ip]

theorem sampleTexts_v6 {ip : BitVec 128} {s : Text} (h : s ∈ sampleTexts (.v6 ip)) :
    ∃ colons : Text, colons ≠ [] ∧ (∀ c ∈ colons, c = ':') ∧ s = colons ++ decimal ip.toNat := by
  simp only [sampleTexts, sampleHexV6, mem_cons, not_mem_nil, or_false] at h
  split at h <;> rcases h with rfl | rfl
  all_goals first | exact ⟨[':'], by simp, by simp, rfl⟩ | exact ⟨[':', ':'], by simp, by simp, rfl⟩

def IpText.sample : IpText where
  print := samplePrint
  parse s := if s ∈ sampleTexts (sampleGuess s) then some (sampleGuess s) else none
  hexV6 := sampleHexV6
  parse_print ip := by
    rw [sampleGuess_print, if_pos]
    cases ip <;> exact mem_cons_self
  parse_hexV6 ip := by
    rw [sampleGuess_hexV6]
    exact if_pos (mem_cons_of_mem _ mem_cons_self)
  print_ne_nil ip := by
    cases ip with
    | v4 ip => simp [samplePrint, decimal_ne_nil]
    | v6 ip => simp [samplePrint]
  print_v4 := samplePrint_v4_chars
  parse_v6 s ip h := by
    split at h
    · rename_i hs
      rw [Option.some.inj h] at hs
      obtain ⟨colons, hne, hcolons, rfl⟩ := sampleTexts_v6 hs
      obtain ⟨c, rest, rfl⟩ := exists_cons_of_ne_nil hne
      refine ⟨mem_append_left _ (hcolons c mem_cons_self ▸ mem_cons_self), fun d hd => ?_⟩
      rcases mem_append.mp hd with hd | hd
      · exact .inr (hcolons d hd ▸ by decide)
      · exact .inl (decimal_isDigit hd)
    · cases h

/-! ## 6. Another method -/

def ServerConfig.setMethod (c : ServerConfig Kind) (method : Kind) (password : Text) :
    Except (ServerConfigError Kind) Unit × ServerConfig Kind :=
  match passwordToKeys C method password with
  | .error e => (.error e, { c with method })
  | .ok (upsk, key, ids) => (.ok (), { c with method, password := upsk, encKey := key, identityKeys := ids })

def SameKeys (c c' : ServerConfig Kind) : Prop :=
  c.method = c'.method ∧ c.encKey = c'.encKey ∧ c.identityKeys = c'.identityKeys

def SetMethodOk (c : ServerConfig Kind) (method : Kind) (password : Text) : Prop :=
  (∀ e, (c.setMethod C method password).1 = .error e →
    SameKeys (c.setMethod C method password).2 c ∧ (c.setMethod C method password).2.password = c.password) ∧
  ((c.setMethod C method password).1 = .ok () → ∀ addr, ∃ new,
    ServerConfig.new C addr password method = .ok new ∧ SameKeys (c.setMethod C method password).2 new)

/-- **A change of the method is all or nothing** exactly if the password has keys for it, or it is the old one. -/
theorem setMethod_ok_iff (c : ServerConfig Kind) (method : Kind) (password : Text) :
    SetMethodOk C c method password ↔ (∃ keys, passwordToKeys C method password = .ok keys) ∨ method = c.method := by
  unfold SetMethodOk ServerConfig.setMethod ServerConfig.new
  cases hkeys : passwordToKeys C method password with
  | ok keys =>
    refine ⟨fun _ => .inl ⟨keys, rfl⟩, fun _ => ⟨nofun, fun _ addr => ?_⟩⟩
    exact ⟨_, rfl, rfl, rfl, rfl⟩
  | error e =>
    constructor
    · intro h
      exact .inr (h.1 e rfl).1.1
    · intro h
      rcases h with ⟨keys, hok⟩ | hsame
      · cases hok
      · exact ⟨fun e' _ => ⟨⟨hsame, rfl, rfl⟩, rfl⟩, fun hok => (by cases hok)⟩

def plainServer : ServerConfig SampleMethod where
  addr := .domainName "host".toList 8388
  password := []
  method := .none
  encKey := []
  timeout := none
  identityKeys := []
  userManager := none
  plugin := none
  remarks := none
  id := none
  mode := .tcpAndUdp
  weight := .new
  source := .default

/-- A key of zeros for the new method. -/
theorem setMethod_ok_zeros :
    SetMethodOk Ciphers.sample plainServer .blake3Aes128Gcm "AAAAAAAAAAAAAAAAAAAAAA==".toList :=
  (setMethod_ok_iff _ _ _ _).mpr (.inl ⟨_, rfl⟩)

/-- A password that is no Base64 code leaves the new method with the old key. -/
theorem setMethod_halfway : ¬SetMethodOk Ciphers.sample plainServer .blake3Aes128Gcm "?".toList ∧
      (plainServer.setMethod Ciphers.sample .blake3Aes128Gcm "?".toList).2.method = .blake3Aes128Gcm ∧
      (plainServer.setMethod Ciphers.sample .blake3Aes128Gcm "?".toList).2.encKey = [] := by
  have hrefused : passwordToKeys Ciphers.sample .blake3Aes128Gcm "?".toList =
      .error (.invalidKeyEncoding .blake3Aes128Gcm) := by decide
  refine ⟨fun h => ?_, ?_, ?_⟩
  · have hsame := (h.1 (.invalidKeyEncoding .blake3Aes128Gcm) (by rw [ServerConfig.setMethod, hrefused])).1.1
    cases hsame
  · rw [ServerConfig.setMethod, hrefused]
  · rfl

/-! ## 7. Identity keys -/

def IsKey (method : Kind) (part : Text) (key : Bytes) : Prop :=
  decode standard part = some key ∧ key.length = C.keyLen method

variable {part : Text}

theorem keyPart_ok_iff {badLength : Nat → ServerConfigError Kind} {badCode : ServerConfigError Kind} :
    (match decode standard part with
      | some v => if v.length = C.keyLen method then .ok v else .error (badLength v.length)
      | none => .error badCode) = Except.ok key ↔ IsKey C method part key := by
  unfold IsKey
  cases decode standard part with
  | none => simp
  | some v =>
    simp only [some.injEq]
    split <;> rename_i hlen
    · simp only [Except.ok.injEq]
      exact ⟨fun he => ⟨he, he ▸ hlen⟩, fun h => h.1⟩
    · exact ⟨fun h => (by cases h), fun h => absurd (h.1 ▸ h.2) hlen⟩

theorem makeDerivedKey_ok_iff {eih : Bool} (hfam : C.family method = .aead2022 eih) :
    makeDerivedKey C method part = .ok key ↔ IsKey C method part key := by
  rw [makeDerivedKey, hfam]
  exact keyPart_ok_iff C

theorem identityKey_ok_iff : identityKey C method part = .ok key ↔ IsKey C method part key :=
  keyPart_ok_iff C

theorem identityKeys_ok_iff {parts : List Text} :
    identityKeys C method parts = .ok ids ↔ Forall₂ (IsKey C method) parts ids := by
  induction parts generalizing ids with
  | nil => simp [identityKeys, eq_comm]
  | cons part parts ih =>
    rw [forall₂_cons_left_iff, identityKeys]
    cases hpart : identityKey C method part with
    | error e =>
      refine ⟨fun h => (by cases h), fun h => ?_⟩
      obtain ⟨key, rest, hkey, -, -⟩ := h
      rw [(identityKey_ok_iff C).mpr hkey] at hpart
      cases hpart
    | ok key =>
      simp only [except_map_ok_iff, ih]
      constructor
      · intro ⟨rest, hrest, he⟩
        exact ⟨key, rest, (identityKey_ok_iff C).mp hpart, hrest, he.symm⟩
      · intro ⟨key', rest, hkey, hrest, he⟩
        rw [(identityKey_ok_iff C).mpr hkey] at hpart
        cases hpart
        exact ⟨rest, hrest, he.symm⟩

theorem isKey_encode (h : key.length = C.keyLen method) (pad : Bool) :
    IsKey C method (encode standard pad key) key :=
  ⟨decode_encode _ _ _, h⟩

theorem passwordToKeys_parts (hfam : C.family method = .aead2022 true)
    (hparts : password.splitOn ':' = ipsks ++ [upsk]) :
    passwordToKeys C method password = .ok (upsk, key, ids) ↔
      IsKey C method upsk key ∧ Forall₂ (IsKey C method) ipsks ids := by
  rw [passwordToKeys_eih C hfam hparts, makeDerivedKey_ok_iff C hfam, identityKeys_ok_iff, forall₂_reverse_iff]

theorem isKey_of_mem (hids : Forall₂ (IsKey C method) ipsks ids) (hkey : IsKey C method upsk key)
    (hpart : part ∈ ipsks ++ [upsk]) : ∃ k, IsKey C method part k := by
  induction hids with
  | nil =>
    rw [mem_singleton.mp hpart]
    exact ⟨key, hkey⟩
  | cons hfirst hrest ih =>
    rcases mem_cons.mp hpart with rfl | hpart
    · exact ⟨_, hfirst⟩
    · exact ih hpart

theorem splitOn_keys (hids : Forall₂ (IsKey C method) ipsks ids) (hkey : IsKey C method upsk key) :
    ([':'].intercalate (ipsks ++ [upsk])).splitOn ':' = ipsks ++ [upsk] := by
  refine splitOn_intercalate ':' ?_ (by simp)
  intro part hpart hcolon
  obtain ⟨k, hdecode, -⟩ := isKey_of_mem C hids hkey hpart
  rcases mem_of_decode hdecode hcolon with h | h
  · exact absurd h (by decide)
  · exact absurd h (by decide)

theorem isKey_of_new (hfam : C.family method = .aead2022 true)
    (h : ServerConfig.new C addr password method = .ok c) (hpart : part ∈ password.splitOn ':') :
    ∃ key, IsKey C method part key := by
  obtain ⟨-, -, hkeys⟩ := ServerConfig.new_ok C h
  obtain ⟨ipsks, hparts⟩ := passwordToKeys_eih_parts C hfam hkeys
  obtain ⟨hkey, hids⟩ := (passwordToKeys_parts C hfam hparts).mp hkeys
  exact isKey_of_mem C hids hkey (hparts ▸ hpart)

/-- **Identity keys.** Codes joined by colons give the keys in order, and the password again; others are refused. -/
theorem identityKeys_exact {method : Kind} (hfam : C.family method = .aead2022 true) (addr : ServerAddr) :
    (∀ (ipsks : List Text) (upsk : Text) (ids : List Bytes) (key : Bytes),
      Forall₂ (IsKey C method) ipsks ids → IsKey C method upsk key →
      ∃ c, ServerConfig.new C addr ([':'].intercalate (ipsks ++ [upsk])) method = .ok c ∧
        c.encKey = key ∧ c.identityKeys = ids ∧
        ∃ c', ServerConfig.new C addr c.exportPassword method = .ok c' ∧ c'.encKey = key ∧ c'.identityKeys = ids) ∧
    (∀ (ids : List Bytes) (key : Bytes), (∀ k ∈ key :: ids, k.length = C.keyLen method) →
      ∀ pad, Forall₂ (IsKey C method) (ids.map (encode standard pad)) ids ∧
        IsKey C method (encode standard pad key) key) ∧
    ∀ (password part : Text), part ∈ password.splitOn ':' → (∀ key, ¬IsKey C method part key) →
      ∃ e, ServerConfig.new C addr password method = .error e := by
  refine ⟨?_, ?_, ?_⟩
  · intro ipsks upsk ids key hids hkey
    have hkeys := (passwordToKeys_parts C hfam (splitOn_keys C hids hkey)).mpr ⟨hkey, hids⟩
    refine ⟨_, by rw [ServerConfig.new, hkeys]; rfl, rfl, rfl, ?_⟩
    exact ⟨_, by rw [ServerConfig.new, ServerConfig.exportPassword, passwordToKeys_export C hkeys]; rfl, rfl, rfl⟩
  · intro ids key hlen pad
    obtain ⟨hkey, hids⟩ := forall_mem_cons.mp hlen
    refine ⟨forall₂_map_left_iff.mpr (forall₂_same.mpr fun k hk => ?_), isKey_encode C hkey pad⟩
    exact isKey_encode C (hids k hk) pad
  intro password part hpart hno
  cases hnew : ServerConfig.new C addr password method with
  | error e => exact ⟨e, rfl⟩
  | ok c =>
    obtain ⟨key, hkey⟩ := isKey_of_new C hfam hnew hpart
    exact absurd hkey (hno key)

/-- Two keys of zeros, and a text whose first part is too short. -/
theorem identityKeys_exact_zeros : (∃ c, ServerConfig.new Ciphers.sample (.domainName "host".toList 8388)
        ([':'].intercalate ([encode standard true (replicate 16 1)] ++
          [encode standard true (replicate 16 0)])) .blake3Aes128Gcm = .ok c ∧
        c.encKey = replicate 16 0 ∧ c.identityKeys = [replicate 16 1]) ∧
      ∃ e, ServerConfig.new Ciphers.sample (.domainName "host".toList 8388) "AA:AA".toList .blake3Aes128Gcm =
        .error e := by
  obtain ⟨haccept, hcodes, hrefuse⟩ := identityKeys_exact Ciphers.sample (rfl : Ciphers.sample.family .blake3Aes128Gcm = _)
    (.domainName "host".toList 8388)
  obtain ⟨hids, hkey⟩ := hcodes [replicate 16 1] (replicate 16 0) (by decide) true
  obtain ⟨c, hnew, hck, hcids, -⟩ := haccept _ _ _ _ hids hkey
  refine ⟨⟨c, hnew, hck, hcids⟩, hrefuse "AA:AA".toList "AA".toList (by decide) ?_⟩
  intro key hkey
  have hdecode : decode standard "AA".toList = some [0] := by decide
  cases hdecode.symm.trans hkey.1
  exact absurd hkey.2 (by decide)

end Shadowsocks.Config
