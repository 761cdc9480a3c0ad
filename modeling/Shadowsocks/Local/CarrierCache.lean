/-
  Subject:   THE CACHED CARRIER OF A REALM SERVER ENTRY (`realm_client` and `reset_realm_client` of
  `local/loadbalancing/server_data.rs`), shared by TCP requests and UDP associations. The lock is held while a
  carrier connects, so that this is one step.
-/
import Shadowsocks.Lib.Machine

namespace Shadowsocks.Local.Carriers

open Lib List

/-! ## 1. The cache -/

/-- The cache of an entry (`realm_client`), and how many carriers were established. -/
structure Cache where
  cached : Option Nat
  established : Nat

def Cache.realmClient (c : Cache) (connects : Bool) : Option Nat × Cache :=
  match c.cached with
  | some carrier => (some carrier, c)
  | none => if connects then (some c.established, ⟨some c.established, c.established + 1⟩) else (none, c)

def Cache.resetRealmClient (c : Cache) : Cache := { c with cached := none }

/-! ## 2. The requests -/

inductive TcpRequest where
  | connecting (carrier : Nat)
  | failing (carrier : Nat)
  | returned

/-- A UDP association: its carrier, and whether a packet is being sent. -/
structure Association where
  proxied : Option Nat
  sending : Bool

/-- How `send_with_ctrl` comes out: also a packet that is too large fails. -/
inductive Sent where
  | ok
  | closed
  | other

structure Requests where
  cache : Cache
  tcp : List TcpRequest
  udp : List Association

def Requests.new : Requests := ⟨⟨none, 0⟩, [], []⟩

inductive Event where
  | tcpRequest (connects : Bool)
  | tcpConnected (request : Nat) (ok : Bool)
  | tcpReset (request : Nat)
  | udpAssociation
  | udpPacket (association : Nat) (connects : Bool)
  | udpSent (association : Nat) (sent : Sent)
  | udpBroken (association : Nat) (closed : Bool)

inductive Output where
  | given (carrier : Nat)
  | cleared (own carrier : Nat)
  | failed (carrier : Nat)
  deriving DecidableEq

/-- **One step.** Every error of `connect_target` is one of the carrier. -/
def step (s : Requests) : Event → Requests × List Output
  | .tcpRequest connects =>
    match s.cache.realmClient connects with
    | (none, cache) => ({ s with cache := cache, tcp := s.tcp ++ [.returned] }, [])
    | (some carrier, cache) =>
      ({ s with cache := cache, tcp := s.tcp ++ [.connecting carrier] }, [.given carrier])
  | .tcpConnected request ok =>
    match s.tcp[request]? with
    | some (.connecting carrier) =>
      ({ s with tcp := s.tcp.set request (if ok then .returned else .failing carrier) }, [])
    | _ => (s, [])
  | .tcpReset request =>
    match s.tcp[request]? with
    | some (.failing carrier) =>
      ({ s with cache := s.cache.resetRealmClient, tcp := s.tcp.set request .returned },
        (s.cache.cached.toList.map fun cached => .cleared carrier cached) ++ [.failed carrier])
    | _ => (s, [])
  | .udpAssociation => ({ s with udp := s.udp ++ [⟨none, false⟩] }, [])
  | .udpPacket association connects =>
    match s.udp[association]? with
    | some ⟨some carrier, false⟩ => ({ s with udp := s.udp.set association ⟨some carrier, true⟩ }, [])
    | some ⟨none, false⟩ =>
      match s.cache.realmClient connects with
      | (none, cache) => ({ s with cache := cache }, [])
      | (some carrier, cache) =>
        ({ s with cache := cache, udp := s.udp.set association ⟨some carrier, true⟩ }, [.given carrier])
    | _ => (s, [])
  | .udpSent association sent =>
    match s.udp[association]?, sent with
    | some ⟨some carrier, true⟩, .ok => ({ s with udp := s.udp.set association ⟨some carrier, false⟩ }, [])
    | some ⟨some carrier, true⟩, .closed =>
      ({ s with udp := s.udp.set association ⟨none, false⟩ }, [.failed carrier])
    | some ⟨some _, true⟩, .other => ({ s with udp := s.udp.set association ⟨none, false⟩ }, [])
    | _, _ => (s, [])
  | .udpBroken association closed =>
    -- the receive of a `QuicDatagramSocket` fails with `BrokenPipe` when the carrier is closed
    match s.udp[association]? with
    | some ⟨some carrier, false⟩ =>
      ({ s with udp := s.udp.set association ⟨none, false⟩ }, if closed then [.failed carrier] else [])
    | _ => (s, [])

/-! ## 3. Current carriers only -/

/-- **What is done is current**: a failure clears no other carrier, and a carrier that failed is given to no later
request. -/
structure Right (log : List Output) : Prop where
  cleared : ∀ own carrier, .cleared own carrier ∈ log → carrier = own
  given : log.Pairwise fun earlier later => ∀ carrier, earlier = .failed carrier → later ≠ .given carrier

def TcpRequest.failedOn : TcpRequest → Option Nat
  | .failing carrier => some carrier
  | _ => none

/-- A reset finds no newer carrier in the cache, and no association fails on a closed carrier still in it. -/
def Timely (s : Requests) : Event → Prop
  | .tcpReset request => ∀ r ∈ s.tcp[request]?, ∀ carrier ∈ r.failedOn, ∀ cached ∈ s.cache.cached, cached = carrier
  | .udpSent association .closed => ∀ a ∈ s.udp[association]?, a.sending = true → s.cache.cached ≠ a.proxied
  | .udpBroken association true => ∀ a ∈ s.udp[association]?, a.sending = false →
      ∀ carrier ∈ a.proxied, s.cache.cached ≠ some carrier
  | _ => True

instance (s : Requests) (e : Event) : Decidable (Timely s e) :=
  match e with
  | .tcpReset request => inferInstanceAs (Decidable (∀ r ∈ s.tcp[request]?, ∀ carrier ∈ r.failedOn,
      ∀ cached ∈ s.cache.cached, cached = carrier))
  | .udpSent association .closed =>
    inferInstanceAs (Decidable (∀ a ∈ s.udp[association]?, a.sending = true → s.cache.cached ≠ a.proxied))
  | .udpSent _ .ok => isTrue trivial
  | .udpSent _ .other => isTrue trivial
  | .tcpRequest _ => isTrue trivial
  | .tcpConnected _ _ => isTrue trivial
  | .udpAssociation => isTrue trivial
  | .udpPacket _ _ => isTrue trivial
  | .udpBroken association true => inferInstanceAs (Decidable (∀ a ∈ s.udp[association]?, a.sending = false →
      ∀ carrier ∈ a.proxied, s.cache.cached ≠ some carrier))
  | .udpBroken _ false => isTrue trivial

def TcpRequest.carrier : TcpRequest → Option Nat
  | .connecting carrier => some carrier
  | .failing carrier => some carrier
  | .returned => none

structure Current (s : Requests) (log : List Output) : Prop where
  cached : ∀ c ∈ s.cache.cached, c < s.cache.established ∧ .failed c ∉ log
  tcp : ∀ r ∈ s.tcp, ∀ c ∈ r.carrier, c < s.cache.established
  udp : ∀ a ∈ s.udp, ∀ c ∈ a.proxied, c < s.cache.established
  failed : ∀ c, .failed c ∈ log → c < s.cache.established
  right : Right log

variable {carrier : Nat} {connects : Bool} {c c' : Cache}

theorem realmClient_some (h : c.realmClient connects = (some carrier, c')) :
    c'.cached = some carrier ∧ (c = c' ∨ carrier = c.established ∧ c'.established = c.established + 1) := by
  unfold Cache.realmClient at h
  cases hcached : c.cached with
  | some cached =>
    rw [hcached] at h
    cases h
    exact ⟨hcached, .inl rfl⟩
  | none =>
    rw [hcached] at h
    cases connects with
    | true =>
      cases h
      exact ⟨rfl, .inr ⟨rfl, rfl⟩⟩
    | false => cases h

variable {log : List Output} {s : Requests}

theorem Current.withRequests (h : Current s log) {tcp : List TcpRequest} {udp : List Association}
    (htcp : ∀ r ∈ tcp, ∀ c ∈ r.carrier, c < s.cache.established)
    (hudp : ∀ a ∈ udp, ∀ c ∈ a.proxied, c < s.cache.established) : Current ⟨s.cache, tcp, udp⟩ log :=
  ⟨h.cached, htcp, hudp, h.failed, h.right⟩

theorem Current.setTcp (h : Current s log) (request : Nat) {r : TcpRequest}
    (hr : ∀ c ∈ r.carrier, c < s.cache.established) : Current { s with tcp := s.tcp.set request r } log :=
  h.withRequests (fun r' hr' => (mem_or_eq_of_mem_set hr').elim (h.tcp r') fun heq => heq ▸ hr) h.udp

theorem Right.given_concat (h : Right log) (hfresh : .failed carrier ∉ log) : Right (log ++ [.given carrier]) where
  cleared own c hc := by
    rcases mem_concat.mp hc with hc | hc
    · exact h.cleared own c hc
    · cases hc
  given := by
    refine pairwise_append.mpr ⟨h.given, pairwise_singleton _ _, fun o ho o' ho' c hfailed hgiven => ?_⟩
    rw [mem_singleton.mp ho'] at hgiven
    cases hgiven
    exact hfresh (hfailed ▸ ho)

variable {out : List Output}

theorem Right.concat (h : Right log)
    (hcleared : ∀ own carrier, .cleared own carrier ∈ out → carrier = own) (hout : ∀ carrier, .given carrier ∉ out) :
    Right (log ++ out) where
  cleared own c hc := (mem_append.mp hc).elim (h.cleared own c) (hcleared own c)
  given := by
    refine pairwise_append.mpr ⟨h.given, ?_, fun o _ o' ho' c _ hgiven => hout c (hgiven ▸ ho')⟩
    refine pairwise_iff_forall_sublist.mpr fun hsub c _ hgiven => hout c (hgiven ▸ hsub.subset ?_)
    exact mem_cons_of_mem _ (mem_singleton_self _)

variable {cache : Cache}

theorem Current.given (h : Current s log) (hgiven : s.cache.realmClient connects = (some carrier, cache)) :
    Current { s with cache := cache } (log ++ [.given carrier]) ∧ carrier < cache.established := by
  obtain ⟨hcached, hcache⟩ := realmClient_some hgiven
  have hle : s.cache.established ≤ cache.established := by
    rcases hcache with rfl | ⟨-, hnext⟩
    · exact Nat.le_refl _
    · omega
  have hfresh : carrier < cache.established ∧ .failed carrier ∉ log := by
    rcases hcache with rfl | ⟨rfl, hnext⟩
    · exact h.cached carrier hcached
    · exact ⟨by omega, fun hfailed => Nat.lt_irrefl _ (h.failed _ hfailed)⟩
  have hlog : ∀ c, .failed c ∈ log ++ [.given carrier] → .failed c ∈ log := fun c hc =>
    (mem_append.mp hc).elim id fun hlast => nomatch mem_singleton.mp hlast
  refine ⟨⟨fun c hc => ?_, fun r hr c hc => ?_, fun a ha c hc => ?_, fun c hc => ?_, ?_⟩, hfresh.1⟩
  · cases hcached.symm.trans hc
    exact ⟨hfresh.1, fun hfailed => hfresh.2 (hlog carrier hfailed)⟩
  · exact Nat.lt_of_lt_of_le (h.tcp r hr c hc) hle
  · exact Nat.lt_of_lt_of_le (h.udp a ha c hc) hle
  · exact Nat.lt_of_lt_of_le (h.failed c (hlog c hc)) hle
  · exact h.right.given_concat hfresh.2

theorem Current.fail (h : Current s log) (hcarrier : carrier < s.cache.established)
    (hcache : cache = s.cache ∧ s.cache.cached ≠ some carrier ∨ cache = s.cache.resetRealmClient)
    (hout : ∀ o ∈ out, o = .failed carrier ∨ o = .cleared carrier carrier) :
    Current { s with cache := cache } (log ++ out) where
  cached c hc := by
    rcases hcache with ⟨rfl, hother⟩ | rfl
    · obtain ⟨hlt, hnot⟩ := h.cached c hc
      refine ⟨hlt, fun hfailed => ?_⟩
      rcases mem_append.mp hfailed with hold | hnew
      · exact hnot hold
      · rcases hout _ hnew with heq | heq
        · cases heq
          exact hother hc
        · cases heq
    · cases hc
  tcp := by rcases hcache with ⟨rfl, -⟩ | rfl <;> exact h.tcp
  udp := by rcases hcache with ⟨rfl, -⟩ | rfl <;> exact h.udp
  failed c hc := by
    have hlt : c < s.cache.established := by
      rcases mem_append.mp hc with hold | hnew
      · exact h.failed c hold
      · rcases hout _ hnew with heq | heq
        · cases heq
          exact hcarrier
        · cases heq
    rcases hcache with ⟨rfl, -⟩ | rfl <;> exact hlt
  right := by
    refine h.right.concat (fun own c hc => ?_) fun c hc => ?_
    · rcases hout _ hc with heq | heq
      · cases heq
      · cases heq
        rfl
    · rcases hout _ hc with heq | heq <;> cases heq

end Shadowsocks.Local.Carriers
