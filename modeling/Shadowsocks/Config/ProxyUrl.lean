/-
  Subject:   URLS OF PROXIES: what `OutboundProxy::from_url` makes of `to_url` when `Url::parse` does the parsing.
-/
import Shadowsocks.Config.Load
import Shadowsocks.Config.Url

namespace Shadowsocks.Config

open Lib Shadowsocks.Acl List

variable {Kind Auth Resolver : Type} (H : Host Kind Auth Resolver)

/-! ## 1. URLs of proxies, as they are parsed -/

/-- The port `Url::port` leaves out. -/
def defaultPort (scheme : Text) : Option UInt16 :=
  if scheme = "http".toList then some 80 else if scheme = "https".toList then some 443 else none

variable {I : IpText}

/-- What `Url::parse` makes of the domain of a special URL, in lower case, say. -/
structure Domains (I : IpText) where
  parse : Text → Option Text
  isHost : ∀ s host, parse s = some host → Url.IsHost host

/-- The schemes of proxies with a default port are the special ones. -/
def Domains.host (D : Domains I) (scheme host : Text) : Option Text :=
  if defaultPort scheme = none ∨ host.head? = some '[' ∨ (I.parse host).isSome then some host else D.parse host

/-- `Url::parse`; that `\` counts as `/` under a special scheme is left out. -/
def Domains.url (D : Domains I) (text : Text) : Except Text ProxyUrl :=
  match Url.parse (canonicalV6 I) text with
  | .error _ => .error "invalid URL".toList
  | .ok url =>
    let port := if url.port = defaultPort url.scheme then none else url.port
    let host := url.host.bind (D.host url.scheme)
    if host = none ∧ url.host ≠ none then .error "invalid domain".toList
    else .ok ⟨url.scheme, host, port, url.username, url.password⟩

/-- A proxy at a domain, an IPv4 or an IPv6 address, with credentials of 1 to 255 bytes. -/
structure NamedProxy (I : IpText) where
  protocol : OutboundProxyProtocol
  host : Text
  isHost : Url.IsHost host ∨ ∃ ip, I.parse host = some (.v6 ip)
  port : UInt16
  auth : Option OutboundProxyAuth
  sized : ∀ a ∈ auth, ∀ s ∈ [a.username, a.password], s ≠ [] ∧ (utf8 s).length ≤ 255

def NamedProxy.proxy (p : NamedProxy I) : OutboundProxy := ⟨p.protocol, p.host, p.port, p.auth⟩

def OutboundProxyAuth.Plain (a : OutboundProxyAuth) : Prop := ∀ c ∈ a.username ++ a.password, Url.userinfoKept c = true

/-- A text without escapes. -/
def Unescaped (s : Text) : Prop := percentText s = some s

/-- The credentials that are read from a URL are the decoded ones of the URL. -/
def Decodes (H : Host Kind Auth Resolver) (url : Text) : Prop :=
  ∀ q u, OutboundProxy.fromUrl H url = .ok q → H.url url = .ok u → ∀ a ∈ q.auth,
    percentText u.username = some a.username ∧ u.password.bind percentText = some a.password

/-- What a URL keeps: credentials without escapes, a port and a host that are not rewritten. -/
structure NamedProxy.Kept (D : Domains I) (p : NamedProxy I) : Prop where
  auth : ∀ a ∈ p.auth, a.Plain ∧ Unescaped a.username ∧ Unescaped a.password
  port : some p.port ≠ defaultPort p.protocol.asScheme
  v6 : ∀ ip, I.parse p.host = some (.v6 ip) → p.host = I.hexV6 ip
  domain : p.protocol ≠ .socks5 → I.parse p.host = none → D.parse p.host = some p.host

theorem userinfo_kept (info : Text) : (∀ c ∈ (Url.userinfo info).1, Url.userinfoKept c = true) ∧
    ∀ pw ∈ (Url.userinfo info).2, ∀ c ∈ pw, Url.userinfoKept c = true := by
  have hkept : ∀ s, ∀ c ∈ Percent.encode Url.userinfoKept s, Url.userinfoKept c = true := by
    intro s c hc
    rcases Percent.mem_encode hc with h | rfl | ⟨n, hn, rfl⟩
    · exact h
    · decide
    · exact (by decide : ∀ n < 16, Url.userinfoKept (Percent.hexDigit n) = true) n hn
  unfold Url.userinfo
  split
  · exact ⟨hkept _, nofun⟩
  · refine ⟨hkept _, ?_⟩
    split
    · exact nofun
    · intro pw hpw
      cases hpw
      exact hkept _

theorem parse_kept {v6 : Text → Option Text} {text : Text} {url : Url} (h : Url.parse v6 text = .ok url) :
    (∀ c ∈ url.username, Url.userinfoKept c = true) ∧ ∀ pw ∈ url.password, ∀ c ∈ pw, Url.userinfoKept c = true := by
  unfold Url.parse at h
  split at h
  · cases h
  · obtain ⟨⟨host, port⟩, -, rfl⟩ := except_map_ok_iff.mp h
    exact userinfo_kept _
  · cases h
    exact ⟨nofun, nofun⟩

theorem kept_inside {c : Char} (h : Url.userinfoKept c = true) : 0x20 < c.toNat ∧ Url.isTerminator c = false := by
  constructor
  · simp only [Url.userinfoKept, Url.printableBut, Bool.and_eq_true, decide_eq_true_eq] at h
    exact h.1.1
  · simp only [Url.isTerminator, Bool.or_eq_false_iff, beq_eq_false_iff_ne]
    refine ⟨⟨?_, ?_⟩, ?_⟩ <;> rintro rfl <;> exact absurd h (by decide)

/-- The host with its brackets, and the port. -/
def NamedProxy.hostPort (p : NamedProxy I) : Text :=
  (if ':' ∈ p.host then '[' :: p.host ++ [']'] else p.host) ++ ':' :: decimal p.port.toNat

def NamedProxy.authority (p : NamedProxy I) : Text :=
  match p.auth with
  | some a => (a.username ++ ':' :: a.password) ++ '@' :: p.hostPort
  | none => p.hostPort

/-- The host `Url::host_str` gives, where it is no domain of a special URL. -/
def NamedProxy.urlHost (p : NamedProxy I) : Text :=
  match I.parse p.host with
  | some (.v6 ip) => '[' :: I.hexV6 ip ++ [']']
  | _ => p.host

variable {p : NamedProxy I} {D : Domains I}

theorem toUrl_authority (p : NamedProxy I) :
    p.proxy.toUrl = p.protocol.asScheme ++ [':', '/', '/'] ++ p.authority := by
  unfold OutboundProxy.toUrl NamedProxy.authority
  rw [show p.proxy.auth = p.auth from rfl]
  cases p.auth <;> rfl

theorem isHost_not_v6 {host : Text} (h : Url.IsHost host) (ip : BitVec 128) : I.parse host ≠ some (.v6 ip) :=
  fun hv6 => h.not_mem (by decide) (I.parse_v6 host ip hv6).1

theorem parseHostPort_hostPort (p : NamedProxy I) :
    Url.parseHostPort (canonicalV6 I) p.hostPort = .ok (some p.urlHost, some p.port) := by
  unfold NamedProxy.hostPort NamedProxy.urlHost
  rcases p.isHost with h | ⟨ip, h⟩
  · rw [if_neg (h.not_mem (by decide)), parseHostPort_host I h]
    split
    · exact absurd ‹_› (isHost_not_v6 h _)
    · rfl
  · rw [if_pos (I.parse_v6 _ ip h).1, append_assoc, h]
    exact parseHostPort_v6 I h p.port

theorem afterAt_hostPort (p : NamedProxy I) : ∀ c ∈ p.hostPort, AfterAt c := by
  have hhost : ∀ c ∈ p.host, AfterAt c := by
    rcases p.isHost with h | ⟨ip, h⟩
    · exact fun c hc => afterAt_host (h.allowed c hc) (h.kept c hc)
    · exact afterAt_v6 I h
  intro c hc
  rcases mem_append.mp hc with hc | hc
  · split at hc
    · simp only [cons_append, mem_cons, mem_append, not_mem_nil, or_false] at hc
      rcases hc with rfl | hc | rfl
      · decide
      · exact hhost c hc
      · decide
    · exact hhost c hc
  · rcases mem_cons.mp hc with rfl | hc
    · decide
    · exact afterAt_digit (decimal_isDigit hc)

theorem mem_authority (hauth : ∀ a ∈ p.auth, a.Plain) {c : Char}
    (hc : c ∈ p.authority) : 0x20 < c.toNat ∧ Url.isTerminator c = false := by
  have hprint : c ∈ p.hostPort → 0x20 < c.toNat ∧ Url.isTerminator c = false := fun h =>
    ⟨(afterAt_hostPort p c h).printable, (afterAt_hostPort p c h).inside⟩
  unfold NamedProxy.authority at hc
  split at hc
  · rename_i a ha
    simp only [mem_append, mem_cons] at hc
    rcases hc with (hc | rfl | hc) | rfl | hc
    · exact kept_inside (hauth a ha c (mem_append_left _ hc))
    · decide
    · exact kept_inside (hauth a ha c (mem_append_right _ hc))
    · decide
    · exact hprint hc
  · exact hprint hc

theorem isScheme_proxy (protocol : OutboundProxyProtocol) : Url.IsScheme protocol.asScheme := by
  cases protocol <;> exact ⟨by decide, by decide⟩

theorem parse_proxy (hauth : ∀ a ∈ p.auth, a.Plain) :
    Url.parse (canonicalV6 I) p.proxy.toUrl = .ok
      ⟨p.protocol.asScheme, (p.auth.map (·.username)).getD [], p.auth.map (·.password), some p.urlHost, some p.port,
        none, none⟩ := by
  have hclean : Url.clean p.proxy.toUrl = p.proxy.toUrl := by
    refine Url.clean_of_plain fun c hc => ?_
    have hscheme : ∀ c ∈ p.protocol.asScheme ++ [':', '/', '/'], 0x20 < c.toNat := by
      cases p.protocol <;> exact forall_of_all (by decide)
    exact (mem_append.mp hc).elim (hscheme c) fun hc => (mem_authority hauth hc).1
  have hat : '@' ∉ p.hostPort := fun h => (afterAt_hostPort p _ h).ne_at rfl
  have hparse : Url.parse (canonicalV6 I) p.proxy.toUrl =
      Url.parseAuthority (canonicalV6 I) p.protocol.asScheme p.authority [] :=
    Url.parse_of_authority (isScheme_proxy p.protocol)
      (by rw [hclean, toUrl_authority, append_nil, append_assoc]; rfl) (fun c hc => (mem_authority hauth hc).2) nofun
  rw [hparse]
  unfold NamedProxy.authority
  cases hp : p.auth with
  | none =>
    simp only
    rw [Url.parseAuthority_bare hat, parseHostPort_hostPort]
    rfl
  | some a =>
    have ha : ∀ c ∈ a.username, Url.userinfoKept c = true := fun c hc => hauth a hp c (mem_append_left _ hc)
    have hpw : ∀ c ∈ a.password, Url.userinfoKept c = true := fun c hc => hauth a hp c (mem_append_right _ hc)
    simp only
    rw [Url.parseAuthority_at hat, parseHostPort_hostPort, Url.userinfo_pair ha, Percent.encode_of_kept hpw,
      if_neg (p.sized a hp a.password (by simp)).1]
    rfl

theorem url_ok_iff {text : Text} {u : ProxyUrl} : D.url text = .ok u ↔ ∃ url, Url.parse (canonicalV6 I) text = .ok url ∧
    u = ⟨url.scheme, url.host.bind (D.host url.scheme), if url.port = defaultPort url.scheme then none else url.port,
      url.username, url.password⟩ ∧ (u.hostStr = none → url.host = none) := by
  unfold Domains.url
  split
  · simp [*]
  · rename_i url hurl
    simp only [hurl, Except.ok.injEq, exists_eq_left']
    split
    · rename_i hnone
      exact ⟨nofun, fun ⟨hu, h⟩ => absurd (h (hu ▸ hnone.1)) hnone.2⟩
    · rename_i hsome
      refine ⟨fun h => ?_, fun ⟨hu, _⟩ => congrArg _ hu.symm⟩
      cases h
      exact ⟨rfl, fun hn => by_contra fun hne => hsome ⟨hn, hne⟩⟩

theorem unbracketed_isHost {host : Text} (h : Url.IsHost host) : unbracketed host = host :=
  (unbracketed_eq h.ne_nil (h.not_mem (by decide)) (h.not_mem (by decide))).1

theorem defaultPort_none {protocol : OutboundProxyProtocol} :
    defaultPort protocol.asScheme = none ↔ protocol = .socks5 := by
  cases protocol <;> decide

theorem host_unbracketed (D : Domains I) (p : NamedProxy I) :
    (D.host p.protocol.asScheme p.urlHost).map unbracketed = some p.host ↔
      (∀ ip, I.parse p.host = some (.v6 ip) → p.host = I.hexV6 ip) ∧
        (p.protocol ≠ .socks5 → I.parse p.host = none → D.parse p.host = some p.host) := by
  unfold NamedProxy.urlHost Domains.host
  rcases p.isHost with h | ⟨ip, h⟩
  · have hbracket : p.host.head? ≠ some '[' := fun hb => h.not_mem (by decide) (mem_of_mem_head? hb)
    have hparse : (D.parse p.host).map unbracketed = D.parse p.host := by
      cases hd : D.parse p.host with
      | none => rfl
      | some host => exact congrArg some (unbracketed_isHost (D.isHost _ host hd))
    cases hip : I.parse p.host with
    | none =>
      by_cases hp : p.protocol = .socks5 <;> simp [hip, hbracket, hparse, unbracketed_isHost h, defaultPort_none, hp]
    | some ip =>
      cases ip with
      | v6 ip => exact absurd hip (isHost_not_v6 h ip)
      | v4 ip => simp [hip, unbracketed_isHost h]
  · have hbare : unbracketed ('[' :: I.hexV6 ip ++ [']']) = I.hexV6 ip :=
      (unbracketed_eq (ne_nil_of_mem (I.parse_v6 _ ip (I.parse_hexV6 ip)).1)
        (not_mem_v6 I (I.parse_hexV6 ip) (by decide)) (not_mem_v6 I (I.parse_hexV6 ip) (by decide))).2
    simp only [h]
    rw [if_pos (.inr (.inl rfl)), Option.map_some, hbare]
    simp [eq_comm]

variable {H' : Host Kind Auth Resolver} {url : Text} {q : OutboundProxy} {u : ProxyUrl}

theorem decodes_iff (hq : OutboundProxy.fromUrl H' url = .ok q) (hu : H'.url url = .ok u) :
    Decodes H' url ↔ ∀ s ∈ u.username :: u.password.toList, Unescaped s := by
  obtain ⟨u', hu', -, -, -, hauth⟩ := proxy_fromUrl_iff.mp hq
  cases hu.symm.trans hu'
  obtain ⟨husername, hpassword, -⟩ := auth_fromUrl_iff.mp hauth
  have hone : Decodes H' url ↔ ∀ a ∈ q.auth,
      percentText u.username = some a.username ∧ u.password.bind percentText = some a.password := by
    refine ⟨fun h => h q u hq hu, fun h q' u' hq' hu' => ?_⟩
    cases hq.symm.trans hq'
    cases hu.symm.trans hu'
    exact h
  rw [hone, husername, hpassword]
  cases q.auth with
  | none => exact iff_of_true nofun (forall_mem_singleton.mpr rfl)
  | some a => simp [Unescaped]

theorem fromUrl_plain {D : Domains H.ip} (h : OutboundProxy.fromUrl { H with url := D.url } url = .ok q) :
    ∀ a ∈ q.auth, a.Plain := by
  intro a ha c hc
  obtain ⟨u, hu, -, -, -, hauth⟩ := proxy_fromUrl_iff.mp h
  obtain ⟨url, hparse, rfl, -⟩ := url_ok_iff.mp hu
  obtain ⟨huser, hpw, -⟩ := auth_fromUrl_iff.mp hauth
  rw [Option.mem_def.mp ha] at huser hpw
  have hkept := parse_kept hparse
  rw [show url.username = a.username from huser] at hkept
  exact (mem_append.mp hc).elim (hkept.1 c) (hkept.2 _ hpw c)

theorem toUrl_read_iff (D : Domains H.ip) (p : NamedProxy H.ip) :
    OutboundProxy.fromUrl { H with url := D.url } p.proxy.toUrl = .ok p.proxy ↔ (∀ a ∈ p.auth, a.Plain) ∧
      some p.port ≠ defaultPort p.protocol.asScheme ∧
      (D.host p.protocol.asScheme p.urlHost).map unbracketed = some p.host := by
  constructor
  · intro h
    have hauth := fromUrl_plain H h
    obtain ⟨u, hu, -, hhost, hport, -⟩ := proxy_fromUrl_iff.mp h
    obtain ⟨url, hparse, rfl, -⟩ := url_ok_iff.mp hu
    cases hparse.symm.trans (parse_proxy hauth)
    refine ⟨hauth, fun he => ?_, hhost⟩
    simp only [if_pos he] at hport
    cases hport
  · intro ⟨hauth, hport, hhost⟩
    obtain ⟨host, hhost, hbare⟩ := Option.map_eq_some_iff.mp hhost
    refine proxy_fromUrl_iff.mpr ⟨_, url_ok_iff.mpr ⟨_, parse_proxy hauth, rfl, ?_⟩, rfl, ?_, if_neg hport,
      auth_fromUrl_iff.mpr ⟨rfl, rfl, p.sized⟩⟩
    · simp [hhost]
    · simp only [Option.bind_some, hhost, Option.map_some, hbare]
      rfl

/-- **When the URL of a proxy is read as that proxy and its credentials are decoded**, and when those of any URL are. -/
theorem proxyUrl_kept_iff (D : Domains H.ip) (p : NamedProxy H.ip) :
    let H' := { H with url := D.url }
    (OutboundProxy.fromUrl H' p.proxy.toUrl = .ok p.proxy ∧ Decodes H' p.proxy.toUrl ↔ p.Kept D) ∧
      ∀ url q u, OutboundProxy.fromUrl H' url = .ok q → D.url url = .ok u →
        (Decodes H' url ↔ ∀ s ∈ u.username :: u.password.toList, Unescaped s) := by
  intro H'
  have hunescaped : OutboundProxy.fromUrl H' p.proxy.toUrl = .ok p.proxy →
      (Decodes H' p.proxy.toUrl ↔ ∀ a ∈ p.auth, Unescaped a.username ∧ Unescaped a.password) := by
    intro h
    obtain ⟨u, hu, -, -, -, hauth⟩ := proxy_fromUrl_iff.mp h
    obtain ⟨husername, hpassword, -⟩ := auth_fromUrl_iff.mp hauth
    rw [decodes_iff h hu, husername, hpassword]
    show _ ↔ ∀ a ∈ p.auth, _
    cases hp : p.auth with
    | none => exact iff_of_true (by simp [NamedProxy.proxy, hp, Unescaped]; rfl) nofun
    | some a => simp [NamedProxy.proxy, hp]
  refine ⟨?_, fun url q u hq hu => decodes_iff hq hu⟩
  constructor
  · intro ⟨hread, hdecodes⟩
    obtain ⟨hauth, hport, hhost⟩ := (toUrl_read_iff H D p).mp hread
    obtain ⟨hv6, hdomain⟩ := (host_unbracketed D p).mp hhost
    exact ⟨fun a ha => ⟨hauth a ha, (hunescaped hread).mp hdecodes a ha⟩, hport, hv6, hdomain⟩
  · intro hk
    have hread := (toUrl_read_iff H D p).mpr
      ⟨fun a ha => (hk.auth a ha).1, hk.port, (host_unbracketed D p).mpr ⟨hk.v6, hk.domain⟩⟩
    exact ⟨hread, (hunescaped hread).mpr fun a ha => (hk.auth a ha).2⟩

def Domains.sample : Domains .sample where
  parse s := if s ≠ [] ∧ s.all fun c => !Url.forbiddenHost c && Url.hostKept c then some s else none
  isHost s host h := by
    split at h
    · rename_i hs
      cases h
      simp only [all_eq_true, Bool.and_eq_true, Bool.not_eq_true'] at hs
      exact ⟨hs.1, fun c hc => (hs.2 c hc).1, fun c hc => (hs.2 c hc).2⟩
    · cases h

def NamedProxy.sample : NamedProxy .sample where
  protocol := .https
  host := [':', '7']
  isHost := .inr ⟨7, by decide +kernel⟩
  port := 8443
  auth := some ⟨['a', 'b'], ['c', '$']⟩
  sized := by
    rintro a ⟨⟩
    decide

theorem proxyUrl_kept_sample :
    let H := { Host.sample with url := Domains.sample.url }
    OutboundProxy.fromUrl H NamedProxy.sample.proxy.toUrl = .ok NamedProxy.sample.proxy ∧
      Decodes H NamedProxy.sample.proxy.toUrl := by
  refine (proxyUrl_kept_iff Host.sample Domains.sample NamedProxy.sample).1.mpr ⟨?_, by decide, ?_, ?_⟩
  · rintro a ⟨⟩
    exact ⟨all_eq_true.mp (rfl : ['a', 'b', 'c', '$'].all Url.userinfoKept = true), percentText_plain (by decide),
      percentText_plain (by decide)⟩
  · intro ip h
    cases (show IpText.sample.parse [':', '7'] = some (.v6 7) by decide +kernel).symm.trans h
    decide +kernel
  · intro _ h
    exact absurd h (by decide +kernel)

/-- `http://h:80` is refused, `a@b` and `a%40b` give one user name, which is not decoded, and an IPv4 address in an
IPv6 one comes back in another text. -/
theorem proxyUrl_lost :
    let H := { Host.sample with url := Domains.sample.url }
    let at_ : OutboundProxy := ⟨.socks5, ['h'], 1, some ⟨['a', '@', 'b'], ['c']⟩⟩
    let escaped : OutboundProxy := ⟨.socks5, ['h'], 1, some ⟨['a', '%', '4', '0', 'b'], ['c']⟩⟩
    OutboundProxy.fromUrl H (OutboundProxy.toUrl ⟨.http, ['h'], 80, none⟩) =
        .error "missing proxy port in http://h:80".toList ∧
      OutboundProxy.fromUrl H at_.toUrl = .ok escaped ∧ OutboundProxy.fromUrl H escaped.toUrl = .ok escaped ∧
      OutboundProxy.fromUrl H (OutboundProxy.toUrl ⟨.socks5, IpText.sample.print (.v6 0xffff01020304), 1, none⟩) =
        .ok ⟨.socks5, IpText.sample.hexV6 0xffff01020304, 1, none⟩ ∧
      IpText.sample.print (.v6 0xffff01020304) ≠ IpText.sample.hexV6 0xffff01020304 := by
  decide +kernel

end Shadowsocks.Config
