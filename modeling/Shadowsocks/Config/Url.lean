/-
  Subject:   SERVER URLS (`to_url`, `to_qrcode_url` and `from_url` of `crates/shadowsocks/src/config.rs`). The URL
  of a QR code is Base64 of a text that is parsed as a URL again, although nothing in it was percent-encoded.
-/
import Shadowsocks.Config.Server

namespace Shadowsocks.Config

open Lib Shadowsocks.Acl List Option Base64

variable {Kind : Type} (C : Ciphers Kind) (I : IpText)

/-! ## 1. Writing -/

def withScheme (rest : Text) : Text := 's' :: 's' :: ':' :: '/' :: '/' :: rest

def ServerConfig.qrText (c : ServerConfig Kind) : Text :=
  C.name c.method ++ ':' :: (c.password ++ '@' :: c.addr.print I)

def ServerConfig.toQrcodeUrl (c : ServerConfig Kind) : Text :=
  withScheme (encode urlSafe false (utf8 (c.qrText C I)))

def ServerConfig.userInfo (c : ServerConfig Kind) : Text :=
  match C.family c.method with
  | .aead2022 _ => C.name c.method ++ ':' :: Percent.encode Char.isAlphanum c.exportPassword
  | _ => encode urlSafe false (utf8 (C.name c.method ++ ':' :: c.password))

def PluginConfig.text (p : PluginConfig) : Text :=
  match p.pluginOpts with
  | some opt => p.plugin ++ ';' :: opt
  | none => p.plugin

def ServerConfig.urlQuery (c : ServerConfig Kind) : Text :=
  match c.plugin with
  | some p => '/' :: '?' :: ("plugin".toList ++ '=' :: Percent.encode Char.isAlphanum p.text)
  | none => []

def ServerConfig.urlFragment (c : ServerConfig Kind) : Text :=
  match c.remarks with
  | some remark => '#' :: Percent.encode Char.isAlphanum remark
  | none => []

def ServerConfig.toUrl (c : ServerConfig Kind) : Text :=
  withScheme (c.userInfo C ++ '@' :: c.addr.print I ++ (c.urlQuery ++ c.urlFragment))

/-! ## 2. Reading -/

inductive UrlParseError (Kind : Type) where
  | parseError (e : Url.ParseError)
  | invalidScheme
  | invalidMethod
  | invalidUserInfo
  | missingHost
  | invalidAuthInfo
  | invalidServerAddr
  | serverConfigError (e : ServerConfigError Kind)

def canonicalV6 (s : Text) : Option Text :=
  match I.parse s with
  | some (.v6 ip) => some (I.hexV6 ip)
  | _ => none

def percentText (s : Text) : Option Text := Lib.fromUtf8 (Percent.decode s)

def credentials (K : Type) (url : Url) : Except (UrlParseError K) (Text × Text) :=
  match url.password with
  | some password =>
    match percentText url.username, percentText password with
    | some m, some p => .ok (m, p)
    | _, _ => .error .invalidAuthInfo
  | none =>
    match percentText url.username with
    | none => .error .invalidAuthInfo
    | some info =>
      match decode urlSafe info with
      | none => .error .invalidUserInfo
      | some account =>
        match Lib.fromUtf8 account with
        | none => .error .invalidAuthInfo
        | some account =>
          match splitFirst ':' account with
          | some (m, p) => .ok (m, p)
          | none => .error .invalidUserInfo

def addrOf (K : Type) (url : Url) : Except (UrlParseError K) ServerAddr :=
  match url.host with
  | none => .error .missingHost
  | some host =>
    match ServerAddr.fromStr I (host ++ ':' :: decimal (url.port.getD 8388).toNat) with
    | some addr => .ok addr
    | none => .error .invalidServerAddr

def PluginConfig.ofText (value : Text) : PluginConfig :=
  match splitFirst ';' value with
  | some (p, opts) => ⟨p, some opts, [], .tcpOnly⟩
  | none => ⟨value, none, [], .tcpOnly⟩

def pluginOf (query : Option Text) : Option PluginConfig :=
  match query with
  | none => none
  | some q =>
    (Url.formParse q).foldl
      (fun plugin (key, value) => if key = "plugin".toList then some (PluginConfig.ofText value) else plugin) none

def remarksOf (fragment : Option Text) : Option Text := fragment.map fun f => (percentText f).getD f

def serverOf (url : Url) : Except (UrlParseError Kind) (ServerConfig Kind) :=
  match credentials Kind url with
  | .error e => .error e
  | .ok (m, p) =>
    match addrOf I Kind url with
    | .error e => .error e
    | .ok addr =>
      match C.parse m with
      | none => .error .invalidMethod
      | some method =>
        match ServerConfig.new C addr p method with
        | .error e => .error (.serverConfigError e)
        | .ok c => .ok { c with plugin := pluginOf url.query, remarks := remarksOf url.fragment }

def fromUrlWithin : Nat → Text → Except (UrlParseError Kind) (ServerConfig Kind)
  | 0, _ => .error .invalidServerAddr
  | n + 1, encoded =>
    match Url.parse (canonicalV6 I) encoded with
    | .error e => .error (.parseError e)
    | .ok url =>
      if url.scheme ≠ "ss".toList then .error .invalidScheme
      else if url.username ≠ [] then serverOf C I url
      else
        -- without user information it may be the URL of a QR code
        match url.host with
        | none => .error .missingHost
        | some host =>
          match (decode urlSafe host).bind Lib.fromUtf8 with
          | none => .error .invalidServerAddr
          | some body => fromUrlWithin n (withScheme body)

def fromUrl (encoded : Text) : Except (UrlParseError Kind) (ServerConfig Kind) :=
  fromUrlWithin C I (encoded.length + 1) encoded

variable {url : Url} {encoded : Text}

theorem withScheme_shorter {host body : Text} (hurl : Url.parse (canonicalV6 I) encoded = .ok url)
    (hscheme : url.scheme = "ss".toList) (hhost : url.host = some host)
    (hbody : (decode urlSafe host).bind Lib.fromUtf8 = some body) :
    (withScheme body).length < encoded.length := by
  obtain ⟨bs, hbs, hbody⟩ := bind_eq_some_iff.mp hbody
  have hplain : ∀ x, ¬((urlSafe.value x).isSome ∨ x = '=') → x ∉ host := fun x hx hin =>
    hx (mem_of_decode hbs hin)
  obtain ⟨hne, hle⟩ := Url.parse_host_length hurl hhost (hplain _ (by decide)) (hplain _ (by decide))
  have hpos : 0 < host.length := length_pos_iff.mpr hne
  have hdecode := decode_length hbs
  have htext := Lib.fromUtf8_length hbody
  have htwo : ("ss".toList).length = 2 := rfl
  have hlen : (withScheme body).length = body.length + 5 := rfl
  rw [hscheme, htwo] at hle
  omega

def urlCall (next : Text → Except (UrlParseError Kind) (ServerConfig Kind)) (encoded : Text) :
    Except (UrlParseError Kind) (ServerConfig Kind) :=
  match Url.parse (canonicalV6 I) encoded with
  | .error e => .error (.parseError e)
  | .ok url =>
    if url.scheme ≠ "ss".toList then .error .invalidScheme
    else if url.username ≠ [] then serverOf C I url
    else
      match url.host with
      | none => .error .missingHost
      | some host =>
        match (decode urlSafe host).bind Lib.fromUtf8 with
        | none => .error .invalidServerAddr
        | some body => next (withScheme body)

theorem urlCall_congr {f g : Text → Except (UrlParseError Kind) (ServerConfig Kind)}
    (h : ∀ text, text.length < encoded.length → f text = g text) : urlCall C I f encoded = urlCall C I g encoded := by
  unfold urlCall
  cases hurl : Url.parse (canonicalV6 I) encoded with
  | error e => rfl
  | ok url =>
    dsimp only
    split
    · rfl
    rename_i hscheme
    split
    · rfl
    cases hhost : url.host with
    | none => rfl
    | some host =>
      dsimp only
      cases hbody : (decode urlSafe host).bind Lib.fromUtf8 with
      | none => rfl
      | some body => exact h _ (withScheme_shorter I hurl (not_not.mp hscheme) hhost hbody)

theorem fromUrlWithin_of_lt {n m : Nat} (hn : encoded.length < n) (hm : encoded.length < m) :
    fromUrlWithin C I n encoded = fromUrlWithin C I m encoded := by
  induction n generalizing m encoded with
  | zero => exact absurd hn (Nat.not_lt_zero _)
  | succ n ih =>
    cases m with
    | zero => exact absurd hm (Nat.not_lt_zero _)
    | succ m =>
      exact urlCall_congr C I fun text htext => ih (by omega) (by omega)

theorem fromUrl_eq (encoded : Text) : fromUrl C I encoded = urlCall C I (fromUrl C I) encoded :=
  urlCall_congr C I fun _ htext => fromUrlWithin_of_lt C I htext (Nat.lt_succ_self _)

/-! ## 3. Addresses -/

def IsAddr : ServerAddr → Prop
  | .socketAddr (.v4 _) => True
  | .socketAddr (.v6 a) => a.flowinfo = 0 ∧ a.scopeId = 0
  | .domainName dn _ => Url.IsHost dn ∧ I.parse dn = none

variable {c : Char}

theorem isDigit_host (h : c.isDigit = true ∨ c = '.') : Url.forbiddenHost c = false ∧ Url.hostKept c = true := by
  rcases h with h | rfl
  · simp only [Char.isDigit, Bool.and_eq_true, decide_eq_true_eq] at h
    have hlo : 48 ≤ c.toNat := UInt32.le_iff_toNat_le.mp h.1
    have hhi : c.toNat ≤ 57 := UInt32.le_iff_toNat_le.mp h.2
    constructor
    · simp only [Url.forbiddenHost, contains_eq_mem, mem_cons, not_mem_nil, or_false, decide_eq_false_iff_not]
      omega
    · simp only [Url.hostKept, Bool.and_eq_true, decide_eq_true_eq]
      omega
  · decide

theorem isHost_v4 (ip : UInt32) : Url.IsHost (I.print (.v4 ip)) where
  ne_nil := I.print_ne_nil _
  allowed c hc := (isDigit_host (I.print_v4 ip c hc)).1
  kept c hc := (isDigit_host (I.print_v4 ip c hc)).2

theorem not_mem_v6 {s : Text} {ip : BitVec 128} (h : I.parse s = some (.v6 ip))
    (hc : ¬(c.isDigit = true ∨ c ∈ "abcdefABCDEF:.".toList)) : c ∉ s :=
  fun hs => hc ((I.parse_v6 s ip h).2 c hs)

def ServerAddr.urlHost : ServerAddr → Text
  | .socketAddr (.v4 a) => I.print (.v4 a.ip)
  | .socketAddr (.v6 a) => '[' :: I.hexV6 a.ip ++ [']']
  | .domainName dn _ => dn

theorem parsePort_url (port : UInt16) : Url.parsePort (decimal port.toNat) = .ok (some port) := by
  have h := Url.parsePort_digits (decimal_ne_nil port.toNat) (fun c hc => decimal_isDigit hc)
    (by rw [ofDigitChars_decimal]; exact port.toNat_lt)
  rwa [ofDigitChars_decimal, UInt16.ofNat_toNat] at h

theorem parseHostPort_host {host : Text} (h : Url.IsHost host) (port : UInt16) :
    Url.parseHostPort (canonicalV6 I) (host ++ ':' :: decimal port.toNat) = .ok (some host, some port) := by
  rw [Url.parseHostPort_port (h.split _) h.ne_nil h.parse, parsePort_url]
  rfl

theorem parseHostPort_v6 {s : Text} {ip : BitVec 128} (h : I.parse s = some (.v6 ip)) (port : UInt16) :
    Url.parseHostPort (canonicalV6 I) ('[' :: s ++ ']' :: ':' :: decimal port.toNat) =
      .ok (some ('[' :: I.hexV6 ip ++ [']']), some port) := by
  have hbracket : ']' ∉ s := not_mem_v6 I h (by decide)
  have hv6 : canonicalV6 I s = some (I.hexV6 ip) := by rw [canonicalV6, h]
  rw [Url.parseHostPort_port (Url.splitHostPort_brackets hbracket _) (by simp)
    (Url.parseHost_brackets hbracket hv6), parsePort_url]
  rfl

variable {a : ServerAddr}

theorem parseHostPort_print (ha : IsAddr I a) :
    Url.parseHostPort (canonicalV6 I) (a.print I) = .ok (some (a.urlHost I), some a.port) := by
  match a with
  | .socketAddr (.v4 a) => exact parseHostPort_host I (isHost_v4 I a.ip) a.port
  | .domainName dn port => exact parseHostPort_host I ha.1 port
  | .socketAddr (.v6 a) =>
    rw [ServerAddr.print, ServerAddr.hostText, append_assoc]
    exact parseHostPort_v6 I (I.parse_print (.v6 a.ip)) a.port

theorem u16FromStr_decimal (port : UInt16) : u16FromStr (decimal port.toNat) = some port := by
  unfold u16FromStr
  split
  · have hplus : '+'.isDigit = true := decimal_isDigit (n := port.toNat) (by rw [‹decimal _ = _›]; exact mem_cons_self)
    exact absurd hplus (by decide)
  · exact parsePort_decimal port

theorem parseSocketAddr_host {host : Text} (h : Url.IsHost host) (port : UInt16) :
    parseSocketAddr I (host ++ ':' :: decimal port.toNat) = match I.parse host with
      | some (.v4 ip) => some (.v4 ⟨ip, port⟩)
      | _ => none := by
  have hcolon : ':' ∉ host := h.not_mem (by decide)
  unfold parseSocketAddr
  split
  · rename_i s hs
    cases host with
    | nil => exact absurd rfl h.ne_nil
    | cons c host =>
      cases hs
      exact absurd mem_cons_self (h.not_mem (by decide))
  · rw [splitFirst_append hcolon]
    dsimp only
    rw [parsePort_decimal]
    rfl

theorem fromStr_urlHost (ha : IsAddr I a) :
    ServerAddr.fromStr I (a.urlHost I ++ ':' :: decimal a.port.toNat) = some a := by
  match a with
  | .socketAddr (.v4 a) =>
    have hparse : parseSocketAddr I (I.print (.v4 a.ip) ++ ':' :: decimal a.port.toNat) = some (.v4 a) := by
      rw [parseSocketAddr_host I (isHost_v4 I a.ip), I.parse_print]
    rw [ServerAddr.fromStr, ServerAddr.urlHost, ServerAddr.port, hparse]
  | .socketAddr (.v6 a) =>
    have hbracket : ']' ∉ I.hexV6 a.ip := not_mem_v6 I (I.parse_hexV6 a.ip) (by decide)
    have hparse : parseSocketAddr I ('[' :: I.hexV6 a.ip ++ [']'] ++ ':' :: decimal a.port.toNat) = some (.v6 a) := by
      obtain ⟨ip, port, flow, scope⟩ := a
      obtain ⟨rfl, rfl⟩ := ha
      simp only [cons_append, append_assoc, nil_append, parseSocketAddr, splitFirst_append hbracket, I.parse_hexV6,
        parsePort_decimal, map_some]
    rw [ServerAddr.fromStr, ServerAddr.urlHost, ServerAddr.port, hparse]
  | .domainName dn port =>
    have hcolon : ':' ∉ dn := ha.1.not_mem (by decide)
    have hport : ':' ∉ decimal port.toNat := fun h => absurd (decimal_isDigit h) (by decide)
    have hparse : parseSocketAddr I (dn ++ ':' :: decimal port.toNat) = none := by
      rw [parseSocketAddr_host I ha.1, ha.2]
    have hsplit : (dn ++ ':' :: decimal port.toNat).splitOn ':' = [dn, decimal port.toNat] := by
      rw [splitOn_append_cons_self_of_not_mem hcolon, splitOn_eq_singleton hport]
    rw [ServerAddr.fromStr, ServerAddr.urlHost, ServerAddr.port, hparse]
    simp only [hsplit, if_neg ha.1.ne_nil, u16FromStr_decimal, map_some]

structure AfterAt (c : Char) : Prop where
  printable : 0x20 < c.toNat
  ne_at : c ≠ '@'
  inside : Url.isTerminator c = false

instance (c : Char) : Decidable (AfterAt c) :=
  decidable_of_iff (0x20 < c.toNat ∧ c ≠ '@' ∧ Url.isTerminator c = false)
    ⟨fun h => ⟨h.1, h.2.1, h.2.2⟩, fun h => ⟨h.printable, h.ne_at, h.inside⟩⟩

theorem afterAt_host (hallowed : Url.forbiddenHost c = false) (hkept : Url.hostKept c = true) : AfterAt c := by
  have hne : ∀ d, Url.forbiddenHost d = true → c ≠ d := by
    rintro d hd rfl
    rw [hallowed] at hd
    cases hd
  have hspace : c.toNat ≠ 0x20 := by
    intro h
    rw [Url.forbiddenHost, h] at hallowed
    exact absurd hallowed (by decide)
  simp only [Url.hostKept, Bool.and_eq_true, decide_eq_true_eq] at hkept
  refine ⟨by omega, hne _ (by decide), ?_⟩
  simp [Url.isTerminator, hne '/' (by decide), hne '?' (by decide), hne '#' (by decide)]

theorem afterAt_digit (h : c.isDigit = true) : AfterAt c :=
  afterAt_host (isDigit_host (.inl h)).1 (isDigit_host (.inl h)).2

theorem afterAt_v6 {s : Text} {ip : BitVec 128} (h : I.parse s = some (.v6 ip)) : ∀ c ∈ s, AfterAt c := by
  intro c hc
  rcases (I.parse_v6 s ip h).2 c hc with hc | hc
  · exact afterAt_digit hc
  · exact forall_of_all (p := fun c => AfterAt c) (by decide) c hc

theorem afterAt_hostText (ha : IsAddr I a) : ∀ c ∈ a.hostText I, AfterAt c := by
  intro c hc
  match a with
  | .socketAddr (.v4 a) => exact afterAt_host ((isHost_v4 I a.ip).allowed c hc) ((isHost_v4 I a.ip).kept c hc)
  | .domainName dn port => exact afterAt_host (ha.1.allowed c hc) (ha.1.kept c hc)
  | .socketAddr (.v6 a) =>
    simp only [ServerAddr.hostText, cons_append, mem_cons, mem_append, not_mem_nil, or_false] at hc
    rcases hc with rfl | hc | rfl
    · decide
    · exact afterAt_v6 I (I.parse_print (.v6 a.ip)) c hc
    · decide

theorem afterAt_print (ha : IsAddr I a) : ∀ c ∈ a.print I, AfterAt c := by
  intro c hc
  simp only [ServerAddr.print, mem_append, mem_cons] at hc
  rcases hc with hc | rfl | hc
  · exact afterAt_hostText I ha c hc
  · decide
  · exact afterAt_digit (decimal_isDigit hc)

/-! ## 4. Coded texts -/

def Coded (c : Char) : Prop := c.isAlphanum = true ∨ c = '%' ∨ c = '-' ∨ c = '_'

instance (c : Char) : Decidable (Coded c) := inferInstanceAs (Decidable (_ ∨ _))

def CodedNat (n : Nat) : Prop :=
  n = 37 ∨ n = 45 ∨ 48 ≤ n ∧ n ≤ 57 ∨ 65 ≤ n ∧ n ≤ 90 ∨ n = 95 ∨ 97 ≤ n ∧ n ≤ 122

instance (n : Nat) : Decidable (CodedNat n) := inferInstanceAs (Decidable (_ ∨ _))

theorem Coded.toNat (h : Coded c) : CodedNat c.toNat := by
  rcases h with h | rfl | rfl | rfl
  · rcases isAlphanum_iff.mp h with (h | h) | h
    · exact .inr (.inr (.inr (.inl h)))
    · exact .inr (.inr (.inr (.inr (.inr h))))
    · exact .inr (.inr (.inl h))
  · decide
  · decide
  · decide

variable {codes : List Nat}

theorem CodedNat.not_contains {n : Nat} (h : CodedNat n) (hcodes : ∀ n ∈ codes, ¬CodedNat n) :
    codes.contains n = false := by
  rw [contains_eq_mem, decide_eq_false_iff_not]
  exact fun hmem => hcodes _ hmem h

theorem CodedNat.printableBut (h : CodedNat c.toNat) (hcodes : ∀ n ∈ codes, ¬CodedNat n) :
    Url.printableBut codes c = true := by
  have hnat := h
  unfold CodedNat at hnat
  rw [Url.printableBut, h.not_contains hcodes]
  simp only [Bool.not_false, Bool.and_true, Bool.and_eq_true, decide_eq_true_eq]
  omega

theorem Coded.userinfoKept (h : Coded c) : Url.userinfoKept c = true := h.toNat.printableBut (by decide)

theorem Coded.queryKept (h : Coded c) : Url.queryKept c = true := h.toNat.printableBut (by decide)

theorem Coded.fragmentKept (h : Coded c) : Url.fragmentKept c = true := h.toNat.printableBut (by decide)

theorem Coded.host (h : Coded c) : Url.forbiddenHost c = false ∧ Url.hostKept c = true := by
  refine ⟨h.toNat.not_contains (by decide), ?_⟩
  have hnat := h.toNat
  unfold CodedNat at hnat
  simp only [Url.hostKept, Bool.and_eq_true, decide_eq_true_eq]
  omega

theorem Coded.afterAt (h : Coded c) : AfterAt c := afterAt_host h.host.1 h.host.2

theorem coded_percent {text : Text} (h : c ∈ Percent.encode Char.isAlphanum text) : Coded c := by
  rcases Percent.mem_encode h with h | rfl | ⟨n, hn, rfl⟩
  · exact .inl h
  · decide
  · exact (by decide : ∀ n < 16, Coded (Percent.hexDigit n)) n hn

theorem coded_base64 {bs : Bytes} (h : c ∈ encode urlSafe false bs) : Coded c ∧ c ≠ '%' := by
  rcases mem_encode h with ⟨n, hn, rfl⟩ | ⟨h, -⟩
  · exact (by decide : ∀ n < 64, Coded (urlSafe.symbol n) ∧ urlSafe.symbol n ≠ '%') n hn
  · cases h

variable {k : Kind}

theorem coded_name (h : c ∈ C.name k) : Coded c ∧ c ≠ '%' := by
  rcases C.name_chars k c h with h | rfl
  · refine ⟨.inl h, ?_⟩
    rintro rfl
    exact absurd h (by decide)
  · decide

theorem name_ne_nil (k : Kind) : C.name k ≠ [] := by
  intro h
  have hno := C.name_no_text k [] (by rw [h]; rfl)
  exact absurd hno (by decide)

theorem percentText_plain {s : Text} (h : '%' ∉ s) : percentText s = some s := by
  rw [percentText, Percent.decode_plain h, fromUtf8_utf8]

theorem percentText_encode (s : Text) : percentText (Percent.encode Char.isAlphanum s) = some s := by
  rw [percentText, Percent.decode_encode (by decide), fromUtf8_utf8]

/-! ## 5. SIP002 URLs -/

structure Built (c : ServerConfig Kind) : Prop where
  keys : ∃ password, passwordToKeys C c.method password = .ok (c.password, c.encKey, c.identityKeys)
  addr : IsAddr I c.addr
  plugin : ∀ p, c.plugin = some p → ';' ∉ p.plugin

variable {C I} {c : ServerConfig Kind}

theorem Built.keys_export (h : Built C I c) :
    passwordToKeys C c.method c.exportPassword = .ok (c.password, c.encKey, c.identityKeys) := by
  obtain ⟨password, hkeys⟩ := h.keys
  exact passwordToKeys_export C hkeys

theorem Built.exportPassword_plain (h : Built C I c) (hfam : C.family c.method ≠ .aead2022 true) :
    c.exportPassword = c.password := by
  obtain ⟨password, hkeys⟩ := h.keys
  rw [ServerConfig.exportPassword, exportPassword, if_pos (passwordToKeys_plain C hfam hkeys).2]

variable {eih : Bool} {method : Kind}

theorem makeDerivedKey_nil (hfam : C.family method = .aead2022 eih) :
    ∀ key, makeDerivedKey C method [] ≠ .ok key := by
  intro key h
  have hpos := C.keyLen_pos method eih hfam
  have hdecode : decode standard [] = some [] := rfl
  simp only [makeDerivedKey, hfam, hdecode, length_nil, if_neg (ne_of_lt hpos)] at h
  cases h

theorem passwordToKeys_nil (hfam : C.family method = .aead2022 eih) :
    ∀ keys, passwordToKeys C method [] ≠ .ok keys := by
  intro keys h
  cases hkey : makeDerivedKey C method [] with
  | ok key => exact makeDerivedKey_nil hfam key hkey
  | error e =>
    cases eih with
    | true => simp [passwordToKeys, hfam, hkey] at h
    | false => simp [passwordToKeys, hfam, hkey, Except.map] at h

theorem Built.exportPassword_ne_nil (h : Built C I c) (hfam : C.family c.method = .aead2022 eih) :
    c.exportPassword ≠ [] := by
  intro hnil
  have hkeys := h.keys_export
  rw [hnil] at hkeys
  exact passwordToKeys_nil hfam _ hkeys

theorem credentials_pair {password : Text} (hname : url.username = C.name k)
    (hpassword : url.password = some (Percent.encode Char.isAlphanum password)) :
    credentials Kind url = .ok (C.name k, password) := by
  have hplain : '%' ∉ C.name k := fun h => (coded_name C h).2 rfl
  simp only [credentials, hname, hpassword, percentText_plain hplain, percentText_encode]

theorem credentials_base64 {m p : Text} (hcolon : ':' ∉ m)
    (hname : url.username = encode urlSafe false (utf8 (m ++ ':' :: p))) (hpassword : url.password = none) :
    credentials Kind url = .ok (m, p) := by
  have hplain : '%' ∉ encode urlSafe false (utf8 (m ++ ':' :: p)) := fun h => (coded_base64 h).2 rfl
  simp only [credentials, hname, hpassword, percentText_plain hplain, decode_encode, Lib.fromUtf8_utf8,
    splitFirst_append hcolon]

theorem colon_not_mem_name (k : Kind) : ':' ∉ C.name k := fun h => absurd (coded_name C h).1 (by decide)

theorem utf8_ne_nil {text : Text} (h : text ≠ []) : utf8 text ≠ [] := fun hnil =>
  h (utf8_injective (hnil.trans utf8_nil.symm))

theorem Built.credentials (h : Built C I c) (hname : url.username = (Url.userinfo (c.userInfo C)).1)
    (hpassword : url.password = (Url.userinfo (c.userInfo C)).2) :
    url.username ≠ [] ∧ Config.credentials Kind url = .ok (C.name c.method, c.exportPassword) := by
  cases hfam : C.family c.method with
  | aead2022 eih =>
    have hcoded : ∀ x ∈ Percent.encode Char.isAlphanum c.exportPassword, Url.userinfoKept x = true :=
      fun x hx => (coded_percent hx).userinfoKept
    have hne : Percent.encode Char.isAlphanum c.exportPassword ≠ [] := by
      intro hnil
      have hdecode : Percent.decode (Percent.encode Char.isAlphanum c.exportPassword) = utf8 c.exportPassword :=
        Percent.decode_encode (by decide) _
      rw [hnil] at hdecode
      exact utf8_ne_nil (h.exportPassword_ne_nil hfam) hdecode.symm
    have hinfo : Url.userinfo (c.userInfo C) =
        (C.name c.method, some (Percent.encode Char.isAlphanum c.exportPassword)) := by
      simp only [ServerConfig.userInfo, hfam]
      rw [Url.userinfo_pair (fun x hx => (coded_name C hx).1.userinfoKept), if_neg hne, Percent.encode_of_kept hcoded]
    rw [hinfo] at hname hpassword
    exact ⟨hname ▸ name_ne_nil C c.method, credentials_pair hname hpassword⟩
  | _ =>
    have hexport := h.exportPassword_plain (by rw [hfam]; exact Family.noConfusion)
    have hinfo : c.userInfo C = encode urlSafe false (utf8 (C.name c.method ++ ':' :: c.password)) := by
      simp only [ServerConfig.userInfo, hfam]
    have hparsed : Url.userinfo (c.userInfo C) = (c.userInfo C, none) := by
      rw [hinfo]
      exact Url.userinfo_name (fun hx => absurd (coded_base64 hx).1 (by decide))
        (fun x hx => (coded_base64 hx).1.userinfoKept)
    rw [hparsed] at hname hpassword
    refine ⟨?_, ?_⟩
    · rw [hname, hinfo]
      exact encode_ne_nil (utf8_ne_nil (by simp))
    · rw [hexport]
      exact credentials_base64 (colon_not_mem_name c.method) (hname.trans hinfo) hpassword

theorem isScheme_ss : Url.IsScheme "ss".toList := ⟨by decide, by decide⟩

variable {x : Char}

theorem mem_userInfo (h : x ∈ c.userInfo C) : Coded x ∨ x = ':' := by
  unfold ServerConfig.userInfo at h
  split at h
  · rcases mem_append.mp h with h | h
    · exact .inl (coded_name C h).1
    · rcases mem_cons.mp h with h | h
      · exact .inr h
      · exact .inl (coded_percent h)
  · exact .inl (coded_base64 h).1

theorem mem_urlQuery (h : x ∈ c.urlQuery) : Coded x ∨ x = '/' ∨ x = '?' ∨ x = '=' := by
  unfold ServerConfig.urlQuery at h
  split at h
  · simp only [mem_cons, mem_append] at h
    rcases h with h | h | h | h | h
    · exact .inr (.inl h)
    · exact .inr (.inr (.inl h))
    · exact .inl (forall_of_all (by decide) x h)
    · exact .inr (.inr (.inr h))
    · exact .inl (coded_percent h)
  · cases h

theorem urlFragment_cases (c : ServerConfig Kind) : c.urlFragment = [] ∧ c.remarks = none ∨
      ∃ remark, c.remarks = some remark ∧ c.urlFragment = '#' :: Percent.encode Char.isAlphanum remark := by
  unfold ServerConfig.urlFragment
  split
  · exact .inr ⟨_, ‹_›, rfl⟩
  · exact .inl ⟨rfl, ‹_›⟩

theorem isFragmentPart_urlFragment (c : ServerConfig Kind) : Url.IsFragmentPart c.urlFragment := by
  rcases urlFragment_cases c with ⟨h, -⟩ | ⟨remark, -, h⟩
  · exact .inl h
  · exact .inr ⟨_, h⟩

theorem remarksOf_toUrl (c : ServerConfig Kind) :
    remarksOf (Url.fragmentOf (c.urlQuery ++ c.urlFragment)) = c.remarks := by
  have hhash : '#' ∉ c.urlQuery := by
    intro h
    rcases mem_urlQuery h with h | h | h | h <;> exact absurd h (by decide)
  rcases urlFragment_cases c with ⟨h, hr⟩ | ⟨remark, hr, h⟩
  · rw [h, append_nil, Url.fragmentOf_none hhash, hr]
    rfl
  · rw [h, Url.fragmentOf_some hhash fun x hx => (coded_percent hx).fragmentKept, remarksOf, map_some,
      percentText_encode, hr]
    rfl

def PluginConfig.sip002 (p : PluginConfig) : PluginConfig := ⟨p.plugin, p.pluginOpts, [], .tcpOnly⟩

theorem ofText_text {p : PluginConfig} (h : ';' ∉ p.plugin) : PluginConfig.ofText p.text = p.sip002 := by
  obtain ⟨plugin, opts, args, mode⟩ := p
  cases opts with
  | none => rw [PluginConfig.ofText, PluginConfig.text, splitFirst_none h]; rfl
  | some opts => rw [PluginConfig.ofText, PluginConfig.text, splitFirst_append h]; rfl

theorem pluginOf_toUrl (h : ∀ p, c.plugin = some p → ';' ∉ p.plugin) :
    pluginOf (Url.queryOf (c.urlQuery ++ c.urlFragment)) = c.plugin.map PluginConfig.sip002 := by
  cases hplugin : c.plugin with
  | none =>
    have hquery : c.urlQuery = [] := by rw [ServerConfig.urlQuery, hplugin]
    rw [hquery, Url.queryOf_none not_mem_nil not_mem_nil (isFragmentPart_urlFragment c)]
    rfl
  | some p =>
    have hquery : c.urlQuery = ['/'] ++ '?' :: ("plugin".toList ++ '=' :: Percent.encode Char.isAlphanum p.text) := by
      rw [ServerConfig.urlQuery, hplugin]
      rfl
    have hamp : '&' ∉ Percent.encode Char.isAlphanum p.text := fun h => absurd (coded_percent h) (by decide)
    have hkept : ∀ x ∈ "plugin".toList ++ '=' :: Percent.encode Char.isAlphanum p.text, Url.queryKept x = true := by
      intro x hx
      rcases mem_append.mp hx with hx | hx
      · exact forall_of_all (p := fun x => Url.queryKept x = true) (by decide) x hx
      · rcases mem_cons.mp hx with rfl | hx
        · decide
        · exact (coded_percent hx).queryKept
    have hpair : Url.formParse ("plugin".toList ++ '=' :: Percent.encode Char.isAlphanum p.text) =
        [("plugin".toList, p.text)] := by
      rw [Url.formParse_pair (by decide) (by decide) hamp]
      exact congrArg₂ (fun name value => [(name, value)]) (by decide) (Url.formDecode_encode (by decide) (by decide) _)
    rw [hquery, Url.queryOf_some (by decide) (by decide) hkept (isFragmentPart_urlFragment c), pluginOf, hpair,
      foldl_cons, foldl_nil]
    exact congrArg some (ofText_text (h p hplugin))

variable {ids : List Bytes}

theorem serverOf_of_parts {password upsk : Text} {addr : ServerAddr} {key : Bytes}
    (hcredentials : credentials Kind url = .ok (C.name k, password)) (haddr : addrOf I Kind url = .ok addr)
    (hkeys : passwordToKeys C k password = .ok (upsk, key, ids)) :
    ∃ c', serverOf C I url = .ok c' ∧ c'.addr = addr ∧ c'.method = k ∧ c'.encKey = key ∧ c'.identityKeys = ids ∧
      c'.plugin = pluginOf url.query ∧ c'.remarks = remarksOf url.fragment := by
  simp only [serverOf, hcredentials, haddr, C.parse_name, ServerConfig.new, hkeys, Except.map]
  exact ⟨_, rfl, rfl, rfl, rfl, rfl, rfl, rfl⟩

structure SameServer (c c' : ServerConfig Kind) : Prop where
  method : c'.method = c.method
  encKey : c'.encKey = c.encKey
  identityKeys : c'.identityKeys = c.identityKeys
  addr : c'.addr = c.addr

theorem printable_withScheme {rest : Text} (h : ∀ x ∈ rest, 0x20 < x.toNat) : ∀ x ∈ withScheme rest, 0x20 < x.toNat := by
  intro x hx
  rcases mem_append.mp (show x ∈ ['s', 's', ':', '/', '/'] ++ rest from hx) with hx | hx
  · exact forall_of_all (p := fun x => 0x20 < x.toNat) (by decide) x hx
  · exact h x hx

theorem mem_urlAuthority (h : Built C I c) (hx : x ∈ c.userInfo C ++ '@' :: c.addr.print I) :
    0x20 < x.toNat ∧ Url.isTerminator x = false := by
  rcases mem_append.mp hx with hx | hx
  · rcases mem_userInfo hx with hx | rfl
    · exact ⟨hx.afterAt.printable, hx.afterAt.inside⟩
    · decide
  · rcases mem_cons.mp hx with rfl | hx
    · decide
    · exact ⟨(afterAt_print I h.addr x hx).printable, (afterAt_print I h.addr x hx).inside⟩

theorem printable_urlTail (hx : x ∈ c.urlQuery ++ c.urlFragment) : 0x20 < x.toNat := by
  rcases mem_append.mp hx with hx | hx
  · rcases mem_urlQuery hx with hx | rfl | rfl | rfl
    · exact hx.afterAt.printable
    all_goals decide
  rcases urlFragment_cases c with ⟨hf, -⟩ | ⟨remark, -, hf⟩
  · rw [hf] at hx
    cases hx
  · rw [hf] at hx
    rcases mem_cons.mp hx with rfl | hx
    · decide
    · exact (coded_percent hx).afterAt.printable

theorem head_urlTail (hx : (c.urlQuery ++ c.urlFragment).head? = some x) : Url.isTerminator x = true := by
  cases hplugin : c.plugin with
  | some p =>
    simp only [ServerConfig.urlQuery, hplugin, cons_append, head?_cons, some.injEq] at hx
    rw [← hx]
    rfl
  | none =>
    simp only [ServerConfig.urlQuery, hplugin, nil_append] at hx
    rcases urlFragment_cases c with ⟨hf, -⟩ | ⟨remark, -, hf⟩
    · rw [hf] at hx
      cases hx
    · rw [hf] at hx
      cases hx
      rfl

def ServerConfig.parsedUrl (C : Ciphers Kind) (I : IpText) (c : ServerConfig Kind) : Url where
  scheme := "ss".toList
  username := (Url.userinfo (c.userInfo C)).1
  password := (Url.userinfo (c.userInfo C)).2
  host := some (c.addr.urlHost I)
  port := some c.addr.port
  query := Url.queryOf (c.urlQuery ++ c.urlFragment)
  fragment := Url.fragmentOf (c.urlQuery ++ c.urlFragment)

theorem parse_toUrl (h : Built C I c) : Url.parse (canonicalV6 I) (c.toUrl C I) = .ok (c.parsedUrl C I) := by
  have hclean : Url.clean (c.toUrl C I) = c.toUrl C I := by
    refine Url.clean_of_plain (printable_withScheme fun x hx => ?_)
    rcases mem_append.mp hx with hx | hx
    · exact (mem_urlAuthority h hx).1
    · exact printable_urlTail hx
  have hat : '@' ∉ c.addr.print I := fun hx => (afterAt_print I h.addr _ hx).ne_at rfl
  have hparse : Url.parse (canonicalV6 I) (c.toUrl C I) = Url.parseAuthority (canonicalV6 I) "ss".toList
      (c.userInfo C ++ '@' :: c.addr.print I) (c.urlQuery ++ c.urlFragment) :=
    Url.parse_of_authority isScheme_ss hclean (fun x hx => (mem_urlAuthority h hx).2) fun x hx => head_urlTail hx
  rw [hparse, Url.parseAuthority_at hat, parseHostPort_print I h.addr]
  rfl

theorem addrOf_print (ha : IsAddr I a) (hhost : url.host = some (a.urlHost I)) (hport : url.port = some a.port) :
    addrOf I Kind url = .ok a := by
  have hprint := fromStr_urlHost I ha
  simp only [addrOf, hhost, hport, getD_some, hprint]

theorem fromUrl_toUrl (h : Built C I c) :
    ∃ c', fromUrl C I (c.toUrl C I) = .ok c' ∧ SameServer c c' ∧ c'.plugin = c.plugin.map PluginConfig.sip002 ∧
      c'.remarks = c.remarks := by
  have hcredentials : (c.parsedUrl C I).username ≠ [] ∧
      credentials Kind (c.parsedUrl C I) = .ok (C.name c.method, c.exportPassword) := h.credentials rfl rfl
  obtain ⟨c', hserver, haddr, hmethod, hkey, hids, hplugin, hremarks⟩ :=
    serverOf_of_parts hcredentials.2 (addrOf_print h.addr rfl rfl) h.keys_export
  refine ⟨c', ?_, ⟨hmethod, hkey, hids, haddr⟩, hplugin.trans (pluginOf_toUrl h.plugin),
    hremarks.trans (remarksOf_toUrl c)⟩
  rw [fromUrl_eq, urlCall, parse_toUrl h]
  have hscheme : (c.parsedUrl C I).scheme = "ss".toList := rfl
  simp only [hscheme, ne_eq, not_true_eq_false, if_false, hcredentials.1, not_false_eq_true, if_true, hserver]

/-! ## 6. QR codes -/

def ServerConfig.qrVisible (I : IpText) (c : ServerConfig Kind) : Text :=
  ((c.password ++ '@' :: c.addr.print I).filter fun x => !Url.isTabOrNewline x).takeWhile (!Url.isTerminator ·)

def readAddr (I : IpText) (s : Text) : Option ServerAddr :=
  match Url.parseHostPort (canonicalV6 I) s with
  | .ok (some host, port) => ServerAddr.fromStr I (host ++ ':' :: decimal (port.getD 8388).toNat)
  | _ => none

def QrReadable (C : Ciphers Kind) (I : IpText) (c : ServerConfig Kind) : Prop :=
  c.identityKeys = [] ∧ ∃ shown rest password upsk, c.qrVisible I = shown ++ '@' :: rest ∧ '@' ∉ rest ∧ shown ≠ [] ∧
      percentText shown = some password ∧ readAddr I rest = some c.addr ∧
      passwordToKeys C c.method password = .ok (upsk, c.encKey, [])

theorem isHost_coded {s : Text} (hne : s ≠ []) (h : ∀ x ∈ s, Coded x) : Url.IsHost s :=
  ⟨hne, fun x hx => (h x hx).host.1, fun x hx => (h x hx).host.2⟩

theorem fromUrl_toQrcodeUrl (c : ServerConfig Kind) :
    fromUrl C I (c.toQrcodeUrl C I) = fromUrl C I (withScheme (c.qrText C I)) := by
  have hcoded : ∀ x ∈ encode urlSafe false (utf8 (c.qrText C I)), Coded x := fun x hx =>
    (coded_base64 hx).1
  have hhost : Url.IsHost (encode urlSafe false (utf8 (c.qrText C I))) :=
    isHost_coded (encode_ne_nil (utf8_ne_nil (by simp [ServerConfig.qrText]))) hcoded
  have hclean : Url.clean (c.toQrcodeUrl C I) = c.toQrcodeUrl C I :=
    Url.clean_of_plain (printable_withScheme fun x hx => (hcoded x hx).afterAt.printable)
  have hparse : Url.parse (canonicalV6 I) (c.toQrcodeUrl C I) = Url.parseAuthority (canonicalV6 I) "ss".toList
      (encode urlSafe false (utf8 (c.qrText C I))) [] :=
    Url.parse_of_authority isScheme_ss (by rw [hclean, append_nil]; rfl)
      (fun x hx => (hcoded x hx).afterAt.inside) (fun x hx => by cases hx)
  rw [fromUrl_eq, urlCall, hparse, Url.parseAuthority_bare (fun h => (hcoded _ h).afterAt.ne_at rfl),
    Url.parseHostPort_bare hhost.split_bare hhost.ne_nil hhost.parse]
  simp only [Except.map, ne_eq, not_true_eq_false, if_false, decode_encode, bind_some,
    Lib.fromUtf8_utf8]

def ServerConfig.qrTail (I : IpText) (c : ServerConfig Kind) : Text :=
  ((c.password ++ '@' :: c.addr.print I).filter fun x => !Url.isTabOrNewline x).dropWhile (!Url.isTerminator ·)

theorem clean_qrText (c : ServerConfig Kind) : Url.clean (withScheme (c.qrText C I)) =
      "ss".toList ++ ':' :: '/' :: '/' :: (C.name c.method ++ ':' :: c.qrVisible I ++ c.qrTail I) := by
  have hlast : ∀ h : withScheme (c.qrText C I) ≠ [],
      Url.isControlOrSpace ((withScheme (c.qrText C I)).getLast h) = false := by
    intro h
    have hmem : (withScheme (c.qrText C I)).getLast h ∈ decimal c.addr.port.toNat := by
      have hsplit : withScheme (c.qrText C I) = withScheme (C.name c.method ++ ':' :: (c.password ++ '@' ::
          (c.addr.hostText I ++ [':']))) ++ decimal c.addr.port.toNat := by
        simp [withScheme, ServerConfig.qrText, ServerAddr.print]
      simp only [hsplit]
      rw [getLast_append_of_ne_nil _ (decimal_ne_nil _)]
      exact getLast_mem _
    have hprintable := (afterAt_digit (decimal_isDigit hmem)).printable
    simpa [Url.isControlOrSpace] using hprintable
  have hname : (C.name c.method).filter (fun x => !Url.isTabOrNewline x) = C.name c.method :=
    Url.filter_of_plain fun x hx => (coded_name C hx).1.afterAt.printable
  have hshown : c.qrVisible I ++ c.qrTail I =
      (c.password ++ '@' :: c.addr.print I).filter fun x => !Url.isTabOrNewline x := takeWhile_append_dropWhile
  rw [Url.clean_of_ends (fun h => rfl) hlast, append_assoc, cons_append, hshown]
  have hscheme : (['s', 's', ':', '/', '/'] : Text).filter (fun x => !Url.isTabOrNewline x) = ['s', 's', ':', '/', '/'] := by
    decide
  show (['s', 's', ':', '/', '/'] ++ (C.name c.method ++ ([':'] ++ (c.password ++ '@' :: c.addr.print I)))).filter _ = _
  rw [filter_append, filter_append, filter_append, hscheme, hname]
  rfl

theorem parse_qrText (c : ServerConfig Kind) : Url.parse (canonicalV6 I) (withScheme (c.qrText C I)) =
      Url.parseAuthority (canonicalV6 I) "ss".toList (C.name c.method ++ ':' :: c.qrVisible I) (c.qrTail I) := by
  refine Url.parse_of_authority isScheme_ss (clean_qrText c) ?_ ?_
  · intro x hx
    rcases mem_append.mp hx with hx | hx
    · exact (coded_name C hx).1.afterAt.inside
    · rcases mem_cons.mp hx with rfl | hx
      · rfl
      · simpa using mem_takeWhile_imp hx
  intro x hx
  have hnot := head?_dropWhile_not (fun x => !Url.isTerminator x)
    ((c.password ++ '@' :: c.addr.print I).filter fun x => !Url.isTabOrNewline x)
  rw [ServerConfig.qrTail] at hx
  rw [hx] at hnot
  simpa using hnot

theorem no_text_name (k : Kind) : (decode urlSafe (C.name k)).bind Lib.fromUtf8 = none := by
  cases h : decode urlSafe (C.name k) with
  | none => rfl
  | some bs => exact C.name_no_text k bs h

theorem credentials_name (url : Url) (hname : url.username = C.name k) (hpassword : url.password = none) :
    ∃ e, credentials Kind url = .error e := by
  have hplain : '%' ∉ C.name k := fun h => (coded_name C h).2 rfl
  have hno := no_text_name (C := C) k
  simp only [credentials, hname, hpassword, percentText_plain hplain]
  cases hdecode : decode urlSafe (C.name k) with
  | none => exact ⟨_, rfl⟩
  | some bs =>
    rw [hdecode, bind_some] at hno
    simp only [hno]
    exact ⟨_, rfl⟩

theorem fromUrl_qr_hidden (hat : '@' ∉ c.qrVisible I) : ∃ e, fromUrl C I (withScheme (c.qrText C I)) = .error e := by
  have hauthority : '@' ∉ C.name c.method ++ ':' :: c.qrVisible I := by
    intro h
    rcases mem_append.mp h with h | h
    · exact (coded_name C h).1.afterAt.ne_at rfl
    · rcases mem_cons.mp h with h | h
      · exact absurd h (by decide)
      · exact hat h
  have hhost : Url.IsHost (C.name c.method) := isHost_coded (name_ne_nil C _) fun x hx => (coded_name C hx).1
  rw [fromUrl_eq, urlCall, parse_qrText, Url.parseAuthority_bare hauthority,
    Url.parseHostPort_port (hhost.split _) hhost.ne_nil hhost.parse]
  cases hport : Url.parsePort (c.qrVisible I) with
  | error e => exact ⟨_, rfl⟩
  | ok port =>
    simp only [Except.map, ne_eq, not_true_eq_false, if_false, no_text_name]
    exact ⟨_, rfl⟩

def qrUrl (C : Ciphers Kind) (c : ServerConfig Kind) (I : IpText) (shown : Text) (host : Option Text)
    (port : Option UInt16) : Url where
  scheme := "ss".toList
  username := C.name c.method
  password := if shown = [] then none else some (Percent.encode Url.userinfoKept shown)
  host := host
  port := port
  query := Url.queryOf (c.qrTail I)
  fragment := Url.fragmentOf (c.qrTail I)

variable {shown rest : Text}

theorem fromUrl_qr_seen (hvisible : c.qrVisible I = shown ++ '@' :: rest) (hat : '@' ∉ rest) :
    fromUrl C I (withScheme (c.qrText C I)) = match Url.parseHostPort (canonicalV6 I) rest with
      | .error e => .error (.parseError e)
      | .ok (host, port) => serverOf C I (qrUrl C c I shown host port) := by
  have hsplit : C.name c.method ++ ':' :: c.qrVisible I = C.name c.method ++ ':' :: shown ++ '@' :: rest := by
    rw [hvisible]
    simp
  have hinfo : Url.userinfo (C.name c.method ++ ':' :: shown) =
      (C.name c.method, if shown = [] then none else some (Percent.encode Url.userinfoKept shown)) :=
    Url.userinfo_pair (fun x hx => (coded_name C hx).1.userinfoKept) shown
  rw [fromUrl_eq, urlCall, parse_qrText, hsplit, Url.parseAuthority_at hat, hinfo]
  cases Url.parseHostPort (canonicalV6 I) rest with
  | error e => rfl
  | ok hostPort =>
    simp only [Except.map, ne_eq, not_true_eq_false, if_false, name_ne_nil C c.method, not_false_eq_true, if_true]
    rfl

theorem codedNat_hexValue (h : (Percent.hexValue x).isSome) : CodedNat x.toNat := by
  have hle : ∀ d e : Char, d ≤ e ↔ d.toNat ≤ e.toNat := fun d e => UInt32.le_iff_toNat_le
  have hnat : ('0'.toNat = 48 ∧ '9'.toNat = 57) ∧ ('A'.toNat = 65 ∧ 'F'.toNat = 70) ∧ 'a'.toNat = 97 ∧ 'f'.toNat = 102 := by
    decide
  unfold Percent.hexValue at h
  unfold CodedNat
  split at h
  · rename_i hx
    rw [hle, hle] at hx
    omega
  split at h
  · rename_i hx
    rw [hle, hle] at hx
    omega
  split at h
  · rename_i hx
    rw [hle, hle] at hx
    omega
  · cases h

theorem percentText_userinfo (s : Text) : percentText (Percent.encode Url.userinfoKept s) = percentText s := by
  have hhex : ∀ x, (Percent.hexValue x).isSome → Url.userinfoKept x = true := by
    intro x hx
    have hnat : CodedNat x.toNat := codedNat_hexValue hx
    exact hnat.printableBut (by decide)
  rw [percentText, Percent.decode_encode_kept (by decide) hhex, percentText]

theorem serverOf_ok {c' : ServerConfig Kind} (h : serverOf C I url = .ok c') :
    ∃ m p, credentials Kind url = .ok (m, p) ∧ addrOf I Kind url = .ok c'.addr ∧ C.parse m = some c'.method ∧
      passwordToKeys C c'.method p = .ok (c'.password, c'.encKey, c'.identityKeys) := by
  unfold serverOf at h
  split at h
  · cases h
  rename_i m p hcredentials
  split at h
  · cases h
  rename_i addr haddr
  split at h
  · cases h
  · rename_i k hk
    split at h
    · cases h
    · rename_i new hnew
      cases h
      obtain ⟨haddr', hmethod, hkeys⟩ := ServerConfig.new_ok C hnew
      refine ⟨m, p, hcredentials, ?_, ?_, ?_⟩
      · rw [haddr, haddr']
      · rw [hk, hmethod]
      · rw [hmethod]
        exact hkeys

theorem credentials_qrUrl {shown : Text} (hne : shown ≠ []) (host : Option Text) (port : Option UInt16) :
    credentials Kind (qrUrl C c I shown host port) = match percentText shown with
      | some p => .ok (C.name c.method, p)
      | none => .error .invalidAuthInfo := by
  have hplain : '%' ∉ C.name c.method := fun h => (coded_name C h).2 rfl
  simp only [credentials, qrUrl, if_neg hne, percentText_plain hplain, percentText_userinfo]
  cases percentText shown <;> rfl

theorem addrOf_qrUrl {host : Option Text} {port : Option UInt16}
    (hparse : Url.parseHostPort (canonicalV6 I) rest = .ok (host, port)) :
    addrOf I Kind (qrUrl C c I shown host port) = .ok a ↔ readAddr I rest = some a := by
  cases host with
  | none => simp [addrOf, qrUrl, readAddr, hparse]
  | some host =>
    simp only [addrOf, qrUrl, readAddr, hparse]
    cases ServerAddr.fromStr I (host ++ ':' :: decimal (port.getD 8388).toNat) <;> simp

theorem fromUrl_qr_seen_iff (hvisible : c.qrVisible I = shown ++ '@' :: rest) (hat : '@' ∉ rest) :
    (∃ c', fromUrl C I (withScheme (c.qrText C I)) = .ok c' ∧ SameServer c c') ↔
      shown ≠ [] ∧ readAddr I rest = some c.addr ∧ ∃ password upsk, percentText shown = some password ∧
        passwordToKeys C c.method password = .ok (upsk, c.encKey, c.identityKeys) := by
  rw [fromUrl_qr_seen hvisible hat]
  cases hparse : Url.parseHostPort (canonicalV6 I) rest with
  | error e => simp [readAddr, hparse]
  | ok hostPort =>
    obtain ⟨host, port⟩ := hostPort
    constructor
    · intro ⟨c', hserver, hsame⟩
      obtain ⟨m, p, hcredentials, haddr, hmethod, hkeys⟩ := serverOf_ok hserver
      have hne : shown ≠ [] := by
        intro hnil
        obtain ⟨e, he⟩ := credentials_name (qrUrl C c I shown host port) (C := C) rfl (if_pos hnil)
        rw [he] at hcredentials
        cases hcredentials
      rw [credentials_qrUrl hne] at hcredentials
      cases hshown : percentText shown with
      | none =>
        rw [hshown] at hcredentials
        cases hcredentials
      | some password =>
        rw [hshown] at hcredentials
        cases hcredentials
        refine ⟨hne, ?_, p, c'.password, rfl, ?_⟩
        · rw [← hsame.addr]
          exact (addrOf_qrUrl hparse).mp haddr
        · rw [← hsame.method, ← hsame.encKey, ← hsame.identityKeys]
          exact hkeys
    intro ⟨hne, haddr, password, upsk, hshown, hkeys⟩
    have hcredentials : credentials Kind (qrUrl C c I shown host port) = .ok (C.name c.method, password) := by
      rw [credentials_qrUrl hne, hshown]
    obtain ⟨c', hserver, haddr', hmethod, hkey, hids, -⟩ :=
      serverOf_of_parts hcredentials ((addrOf_qrUrl hparse).mpr haddr) hkeys
    exact ⟨c', hserver, ⟨hmethod, hkey, hids, haddr'⟩⟩

theorem Built.mem_password (h : Built C I c) (hfam : C.family c.method = .aead2022 true) (hx : x ∈ c.password) :
    (standard.value x).isSome ∨ x = '=' := by
  obtain ⟨password, hkeys⟩ := h.keys
  obtain ⟨ipsks, hparts⟩ := passwordToKeys_eih_parts C hfam hkeys
  obtain ⟨hkey, -⟩ := (passwordToKeys_eih C hfam hparts).mp hkeys
  cases hdecode : decode standard c.password with
  | none => simp [makeDerivedKey, hfam, hdecode] at hkey
  | some bs => exact mem_of_decode hdecode hx

theorem qrVisible_cases (haddr : IsAddr I c.addr) :
    let shown := c.password.filter fun x => !Url.isTabOrNewline x
    c.qrVisible I = shown ++ '@' :: c.addr.print I ∨ c.qrVisible I = shown.takeWhile (!Url.isTerminator ·) := by
  have hprint : (c.addr.print I).filter (fun x => !Url.isTabOrNewline x) = c.addr.print I :=
    Url.filter_of_plain fun x hx => (afterAt_print I haddr x hx).printable
  have hinside : ∀ x ∈ '@' :: c.addr.print I, (!Url.isTerminator x) = true := by
    intro x hx
    rcases mem_cons.mp hx with rfl | hx
    · rfl
    · rw [(afterAt_print I haddr x hx).inside]
      rfl
  have hat : ('@' :: c.addr.print I).filter (fun x => !Url.isTabOrNewline x) = '@' :: c.addr.print I := by
    rw [filter_cons_of_pos (by decide), hprint]
  rw [ServerConfig.qrVisible, filter_append, hat, takeWhile_append]
  split
  · rw [takeWhile_eq_self_iff.mpr hinside]
    exact .inl rfl
  · exact .inr rfl

theorem Built.identityKeys_nil (h : Built C I c) {shown rest password upsk : Text} {key : Bytes}
    (hvisible : c.qrVisible I = shown ++ '@' :: rest) (hat : '@' ∉ rest) (hshown : percentText shown = some password)
    (hkeys : passwordToKeys C c.method password = .ok (upsk, key, ids)) : ids = [] := by
  by_cases hfam : C.family c.method = .aead2022 true
  · have hmem : ∀ x, standard.value x = none → x ≠ '=' → x ∉ c.password := by
      intro x hnone hpad hx
      rcases h.mem_password hfam hx with hx | hx
      · rw [hnone] at hx
        cases hx
      · exact hpad hx
    -- there is no `@` in it, so that all of it has to be seen
    have hplain : shown = c.password := by
      have hfilter : c.password.filter (fun x => !Url.isTabOrNewline x) = c.password := by
        refine filter_eq_self.mpr fun x hx => ?_
        have hne : x ≠ '\t' ∧ x ≠ '\n' ∧ x ≠ '\r' := by
          refine ⟨?_, ?_, ?_⟩ <;> rintro rfl <;> exact hmem _ (by decide) (by decide) hx
        simp [Url.isTabOrNewline, hne]
      have hcases := qrVisible_cases h.addr
      rw [hfilter, hvisible] at hcases
      rcases hcases with hcases | hcases
      · exact (last_unique hat (fun hx => (afterAt_print I h.addr _ hx).ne_at rfl) hcases).1
      · have hin : '@' ∈ c.password.takeWhile (!Url.isTerminator ·) := hcases ▸ by simp
        exact absurd ((takeWhile_sublist _).subset hin) (hmem _ (by decide) (by decide))
    rw [hplain, percentText_plain (hmem _ (by decide) (by decide)), some.injEq] at hshown
    subst hshown
    have hparts : c.password.splitOn ':' = [] ++ [c.password] :=
      splitOn_eq_singleton (hmem _ (by decide) (by decide))
    obtain ⟨ipsks, hparts'⟩ := passwordToKeys_eih_parts C hfam hkeys
    obtain ⟨hnil, -⟩ := append_inj' (hparts'.symm.trans hparts) rfl
    obtain ⟨-, hids⟩ := (passwordToKeys_eih C hfam hparts').mp hkeys
    rw [hnil] at hids
    simpa [identityKeys] using hids
  · exact (passwordToKeys_plain C hfam hkeys).2

theorem fromUrl_toQrcodeUrl_iff (h : Built C I c) :
    (∃ c', fromUrl C I (c.toQrcodeUrl C I) = .ok c' ∧ SameServer c c') ↔ QrReadable C I c := by
  rw [fromUrl_toQrcodeUrl]
  rcases last_cases '@' (c.qrVisible I) with hnone | ⟨shown, rest, hvisible, hat⟩
  · obtain ⟨e, he⟩ := fromUrl_qr_hidden (C := C) hnone
    constructor
    · rintro ⟨c', hc', -⟩
      rw [he] at hc'
      cases hc'
    · rintro ⟨-, shown, rest, -, -, hvisible, -⟩
      exact absurd (hvisible ▸ by simp : '@' ∈ c.qrVisible I) hnone
  rw [fromUrl_qr_seen_iff hvisible hat]
  constructor
  · intro ⟨hne, haddr, password, upsk, hshown, hkeys⟩
    have hnil := h.identityKeys_nil hvisible hat hshown hkeys
    rw [hnil] at hkeys
    exact ⟨hnil, shown, rest, password, upsk, hvisible, hat, hne, hshown, haddr, hkeys⟩
  · intro ⟨hnil, shown', rest', password, upsk, hvisible', hat', hne, hshown, haddr, hkeys⟩
    obtain ⟨rfl, rfl⟩ := last_unique hat hat' (hvisible.symm.trans hvisible')
    exact ⟨hne, haddr, password, upsk, hshown, hnil ▸ hkeys⟩

/-! ## 7. Both URLs -/

def ServerConfig.pluginText (c : ServerConfig Kind) : Option (Text × Option Text) :=
  c.plugin.map fun p => (p.plugin, p.pluginOpts)

/-- **Both URLs are read back as they were written exactly if the QR code is readable.** -/
theorem url_round_trip_iff (C : Ciphers Kind) (I : IpText) (c : ServerConfig Kind) (h : Built C I c) :
    ((∃ c', fromUrl C I (c.toUrl C I) = .ok c' ∧ SameServer c c' ∧ c'.pluginText = c.pluginText ∧
          c'.remarks = c.remarks) ∧
        ∃ c', fromUrl C I (c.toQrcodeUrl C I) = .ok c' ∧ SameServer c c') ↔
      QrReadable C I c := by
  rw [fromUrl_toQrcodeUrl_iff h]
  refine ⟨fun hboth => hboth.2, fun hqr => ⟨?_, hqr⟩⟩
  obtain ⟨c', hfrom, hsame, hplugin, hremarks⟩ := fromUrl_toUrl h
  refine ⟨c', hfrom, hsame, ?_, hremarks⟩
  rw [ServerConfig.pluginText, hplugin, Option.map_map]
  rfl

def sampleServer (method : SampleMethod) (password : Text) (key : Bytes) (ids : List Bytes) :
    ServerConfig SampleMethod where
  addr := .socketAddr (.v4 ⟨0x7f000001, 8388⟩)
  password := password
  method := method
  encKey := key
  timeout := none
  identityKeys := ids
  userManager := none
  plugin := some ⟨"obfs".toList, some "a;b".toList, [], .tcpOnly⟩
  remarks := some "a b".toList
  id := none
  mode := .tcpAndUdp
  weight := .new
  source := .default

/-- A plain password of letters is read back. -/
theorem url_round_trip_letters :
    let c := sampleServer .none "pw@:".toList [] []
    Built Ciphers.sample IpText.sample c ∧
      ∃ c', fromUrl Ciphers.sample IpText.sample (c.toQrcodeUrl Ciphers.sample IpText.sample) = .ok c' ∧
        SameServer c c' := by
  have hbuilt : Built Ciphers.sample IpText.sample (sampleServer .none "pw@:".toList [] []) :=
    ⟨⟨"pw@:".toList, rfl⟩, trivial, fun p hp => by cases hp; decide⟩
  refine ⟨hbuilt, ((url_round_trip_iff _ _ _ hbuilt).mpr ⟨rfl, "pw@:".toList, "127.0.0.1:8388".toList, "pw@:".toList,
    "pw@:".toList, ?_, ?_, ?_, ?_, ?_, rfl⟩).2⟩
  · decide +kernel
  · decide +kernel
  · decide +kernel
  · decide +kernel
  · decide +kernel

theorem not_same_of_identityKeys {r : Except (UrlParseError Kind) (ServerConfig Kind)} {c : ServerConfig Kind}
    (h : r.toOption.map (·.identityKeys) ≠ some c.identityKeys) : ¬∃ c', r = .ok c' ∧ SameServer c c' := by
  rintro ⟨c', rfl, hsame⟩
  exact h (congrArg some hsame.identityKeys)

/-- A QR code loses the identity keys, and a password with a slash is cut off there. -/
theorem url_round_trip_broken :
    let C := Ciphers.sample
    let I := IpText.sample
    let eih := sampleServer .blake3Aes128Gcm "AAAAAAAAAAAAAAAAAAAAAA==".toList (replicate 16 0)
      [replicate 16 1]
    let slash := sampleServer .aes128Gcm "a/b".toList (C.bytesToKey (utf8 "a/b".toList) 16) []
    (Built C I eih ∧ ¬∃ c', fromUrl C I (eih.toQrcodeUrl C I) = .ok c' ∧ SameServer eih c') ∧
      Built C I slash ∧ ¬∃ c', fromUrl C I (slash.toQrcodeUrl C I) = .ok c' ∧ SameServer slash c' := by
  have hparts : "AQEBAQEBAQEBAQEBAQEBAQ==:AAAAAAAAAAAAAAAAAAAAAA==".toList.splitOn ':' =
      ["AQEBAQEBAQEBAQEBAQEBAQ==".toList] ++ ["AAAAAAAAAAAAAAAAAAAAAA==".toList] := by
    decide +kernel
  refine ⟨⟨⟨⟨"AQEBAQEBAQEBAQEBAQEBAQ==:AAAAAAAAAAAAAAAAAAAAAA==".toList, ?_⟩, trivial, fun p hp => by cases hp; decide⟩,
    not_same_of_identityKeys ?_⟩, ⟨⟨"a/b".toList, rfl⟩, trivial, fun p hp => by cases hp; decide⟩,
    not_same_of_identityKeys ?_⟩
  · exact (passwordToKeys_eih Ciphers.sample rfl hparts).mpr ⟨rfl, rfl⟩
  · decide +kernel
  · decide +kernel

end Shadowsocks.Config
