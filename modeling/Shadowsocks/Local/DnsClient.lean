/-
  Subject:   THE CACHED UPSTREAM CLIENTS OF THE LOCAL DNS (`client_cache.rs` and `upstream.rs` of `local/dns`). A
  lookup returns the first message it reads, and its client goes back to the cache with whatever its connection
  receives. The steps are those between two waits; encoding is that of `hickory_resolver` (`Codec`).
-/
import Shadowsocks.Local.DnsResolver

namespace Shadowsocks.Local.Dns

open Lib PacketWindow List
open Udp (CipherKind UdpSocketControlData)

variable {Name : Type}

/-! ## 1. Clients -/

inductive DnsClientKey where
  | tcpLocal (ns : SocketAddr)
  | udpLocal (ns : SocketAddr)
  | tcpRemote (ns : Address)
  | udpRemote (ns : Address)
  deriving DecidableEq

structure Codec (Name : Type) where
  toVec : Message Name → Option Bytes
  fromVec : Bytes → Option (Message Name)

/-- A datagram as the client reads it: of a server, what `recvWithCtrl` makes of a packet. -/
structure Datagram where
  payload : Bytes
  control : Option (UInt64 × UInt64)

/-- `DnsClient`: a connection with the bytes or datagrams nobody has read. -/
structure DnsClient where
  conn : Nat
  stream : Bytes
  datagrams : List Datagram
  packetId : UInt64
  serverWindows : LruCache UInt64 PacketWindowFilter

def DnsClient.connect (conn : Nat) : DnsClient := ⟨conn, [], [], 0, .withExpiryDuration 300⟩

inductive DnsClientError where
  | dnsDecodeError
  | dnsProtoError
  | ioError
  | udpPacketIdOverflows
  | udpPacketIdOutOfWindow
  | timeout

def frame (bytes : Bytes) : Bytes :=
  UInt8.ofNat (bytes.length % 65536 / 256) :: UInt8.ofNat (bytes.length % 256) :: bytes

def readFrame : Bytes → Option (Bytes × Bytes)
  | hi :: lo :: rest =>
    let length := hi.toNat * 256 + lo.toNat
    if length ≤ rest.length then some (rest.take length, rest.drop length) else none
  | _ => none

variable (C : Codec Name)

/-- The first half of `inner_lookup`: what is sent, and the client then. -/
def DnsClient.send (key : DnsClientKey) (client : DnsClient) (msg : Message Name) :
    Except DnsClientError (Bytes × DnsClient) :=
  match key with
  | .tcpLocal _ | .tcpRemote _ =>
    match C.toVec msg with
    | some bytes => .ok (frame bytes, client)
    | none => .error .dnsProtoError
  | .udpLocal _ =>
    match C.toVec msg with
    | some bytes => .ok (bytes, client)
    | none => .error .dnsProtoError
  | .udpRemote _ =>
    -- `checked_add`
    if client.packetId = 0xffffffffffffffff then .error .udpPacketIdOverflows
    else
      match C.toVec msg with
      | some bytes => .ok (bytes, { client with packetId := client.packetId + 1 })
      | none => .error .dnsProtoError

def decoded (bytes : Bytes) : Except DnsClientError (Message Name) :=
  match C.fromVec bytes with
  | some msg => .ok msg
  | none => .error .dnsDecodeError

def DnsClient.validate (client : DnsClient) (now : Nat) : Option (UInt64 × UInt64) → Bool × DnsClient
  | none => (true, client)
  | some (session, packetId) =>
    let filter := ((client.serverWindows.get now session).1).getD .new
    let (ok, filter) := filter.validatePacketId packetId 0xffffffffffffffff
    (ok, { client with serverWindows := client.serverWindows.insert now session filter })

/-- The second half of `inner_lookup`: nothing if there is nothing to read yet. -/
def DnsClient.receive (key : DnsClientKey) (client : DnsClient) (now : Nat) :
    Option (Except DnsClientError (Message Name) × DnsClient) :=
  match key with
  | .tcpLocal _ | .tcpRemote _ =>
    (readFrame client.stream).map fun (bytes, rest) => (decoded C bytes, { client with stream := rest })
  | .udpLocal _ =>
    match client.datagrams with
    | [] => none
    | d :: rest => some (decoded C (d.payload.take 512), { client with datagrams := rest })
  | .udpRemote _ =>
    match client.datagrams with
    | [] => none
    | d :: rest =>
      let (ok, client) := ({ client with datagrams := rest } : DnsClient).validate now d.control
      some (if ok then decoded C (d.payload.take 512) else .error .udpPacketIdOutOfWindow, client)

def DnsClient.checkConnected (key : DnsClientKey) (client : DnsClient) (peek : Nat → Bool) : Bool :=
  match key with
  | .tcpLocal _ | .tcpRemote _ => !client.stream.isEmpty || peek client.conn
  | .udpLocal _ | .udpRemote _ => true

/-! ## 2. The cache -/

structure Lookup (Name : Type) where
  key : DnsClientKey
  msg : Message Name
  client : DnsClient

structure DnsClientCache (Name : Type) where
  cache : DnsClientKey → Option (List DnsClient)
  lookups : List (Lookup Name)
  conns : Nat

def DnsClientCache.new : DnsClientCache Name := ⟨fun _ => none, [], 0⟩

def popConnected (key : DnsClientKey) (peek : Nat → Bool) : List DnsClient → Option DnsClient × List DnsClient
  | [] => (none, [])
  | client :: q => if client.checkConnected key peek then (some client, q) else popConnected key peek q

variable (s : DnsClientCache Name)

def DnsClientCache.create (connects : Bool) : Option DnsClient × DnsClientCache Name :=
  if connects then (some (.connect s.conns), { s with conns := s.conns + 1 }) else (none, s)

def DnsClientCache.getClientOrCreate (key : DnsClientKey) (peek : Nat → Bool)
    (connects : Bool) : Option DnsClient × DnsClientCache Name :=
  match s.cache key with
  | none => s.create connects
  | some q =>
    match popConnected key peek q with
    | (some client, q) => (some client, { s with cache := Function.update s.cache key (some q) })
    | (none, q) => { s with cache := Function.update s.cache key (some q) }.create connects

variable (maxClientPerAddr : Nat) (s : DnsClientCache Name)

def DnsClientCache.saveClient (key : DnsClientKey)
    (client : DnsClient) : DnsClientCache Name :=
  match s.cache key with
  | some q =>
    let q := q ++ [client]
    { s with cache := Function.update s.cache key (some (if q.length > maxClientPerAddr then q.tail else q)) }
  | none => { s with cache := Function.update s.cache key (some [client]) }

def DnsClient.arrive (key : DnsClientKey) (conn : Nat) (d : Datagram) (client : DnsClient) : DnsClient :=
  if client.conn ≠ conn then client
  else
    match key with
    | .tcpLocal _ | .tcpRemote _ => { client with stream := client.stream ++ d.payload }
    | .udpLocal _ | .udpRemote _ => { client with datagrams := client.datagrams ++ [d] }

inductive Input (Name : Type) where
  | start (key : DnsClientKey) (msg : Message Name) (peek : Nat → Bool) (connects sends : Bool)
  | arrive (conn : Nat) (d : Datagram)
  | receive (n : Nat) (now : Nat)
  | fail (n : Nat) (err : DnsClientError)

inductive Output (Name : Type) where
  | sent (conn : Nat) (bytes : Bytes)
  | returned (msg : Message Name) (result : Except DnsClientError (Message Name))

/-- `lookup_dns` up to the wait for the answer (`retry_count` is 1). -/
def startLookup (key : DnsClientKey) (msg : Message Name)
    (peek : Nat → Bool) (connects sends : Bool) : DnsClientCache Name × List (Output Name) :=
  match s.getClientOrCreate key peek connects with
  | (none, s) => (s, [.returned msg (.error .ioError)])
  | (some client, s) =>
    match client.send C key msg with
    | .error e => (s, [.returned msg (.error e)])
    | .ok (bytes, client) =>
      if sends then ({ s with lookups := s.lookups ++ [⟨key, msg, client⟩] }, [.sent client.conn bytes])
      else (s, [.returned msg (.error .ioError)])

def finishLookup (n now : Nat) :
    DnsClientCache Name × List (Output Name) :=
  match s.lookups[n]? with
  | none => (s, [])
  | some l =>
    match l.client.receive C l.key now with
    | none => (s, [])
    | some (.error e, _) => ({ s with lookups := s.lookups.eraseIdx n }, [.returned l.msg (.error e)])
    | some (.ok msg, client) =>
      ({ s with lookups := s.lookups.eraseIdx n }.saveClient maxClientPerAddr l.key client,
        [.returned l.msg (.ok msg)])

def step :
    Input Name → DnsClientCache Name × List (Output Name)
  | .start key msg peek connects sends => startLookup C s key msg peek connects sends
  | .arrive conn d =>
    ({ s with
        cache := fun key => (s.cache key).map (map (DnsClient.arrive key conn d))
        lookups := s.lookups.map fun l => { l with client := l.client.arrive l.key conn d } }, [])
  | .receive n now => finishLookup C maxClientPerAddr s n now
  | .fail n err =>
    match s.lookups[n]? with
    | none => (s, [])
    | some l => ({ s with lookups := s.lookups.eraseIdx n }, [.returned l.msg (.error err)])

/-! ## 3. Correlation -/

def Answers (query answer : Message Name) : Prop := answer.id = query.id ∧ answer.queries = query.queries

def Correlated (log : List (Output Name)) : Prop :=
  ∀ query answer, .returned query (.ok answer) ∈ log → Answers query answer

def IsAnswer (query : Message Name) (bytes : Bytes) : Prop :=
  ∀ msg, C.fromVec bytes = some msg → Answers query msg

def Awaited (l : Lookup Name) (payload : Bytes) : Prop :=
  match l.key with
  | .tcpLocal _ | .tcpRemote _ =>
    ∃ answer, answer.length < 65536 ∧ l.client.stream ++ payload <+: frame answer ∧ IsAnswer C l.msg answer
  | .udpLocal _ | .udpRemote _ => l.client.datagrams = [] ∧ IsAnswer C l.msg (payload.take 512)

/-- What arrives at a client's connection is awaited there, and is all its lookup receives. -/
def Orderly : Input Name → Prop
  | .arrive conn d =>
    (∀ key q, s.cache key = some q → ∀ client ∈ q, client.conn ≠ conn) ∧
      ∀ l ∈ s.lookups, l.client.conn = conn → Awaited C l d.payload
  | _ => True

/-! ## 4. What a client has not read -/

def DnsClient.Clean (client : DnsClient) : Prop := client.stream = [] ∧ client.datagrams = []

def Unread (l : Lookup Name) : Prop :=
  match l.key with
  | .tcpLocal _ | .tcpRemote _ =>
    l.client.datagrams = [] ∧ (l.client.stream = [] ∨
        ∃ answer, answer.length < 65536 ∧ l.client.stream <+: frame answer ∧ IsAnswer C l.msg answer)
  | .udpLocal _ | .udpRemote _ =>
    l.client.stream = [] ∧
      (l.client.datagrams = [] ∨ ∃ d, l.client.datagrams = [d] ∧ IsAnswer C l.msg (d.payload.take 512))

structure Inv (C : Codec Name) (s : DnsClientCache Name) : Prop where
  cached : ∀ key q, s.cache key = some q → ∀ client ∈ q, client.Clean
  waiting : ∀ l ∈ s.lookups, Unread C l

variable {client : DnsClient} {msg : Message Name} {key : DnsClientKey}

theorem unread_of_clean (h : client.Clean) :
    Unread C ⟨key, msg, client⟩ := by
  cases key with
  | tcpLocal _ | tcpRemote _ => exact ⟨h.2, .inl h.1⟩
  | udpLocal _ | udpRemote _ => exact ⟨h.1, .inl h.2⟩

theorem readFrame_eq {answer stream bytes rest : Bytes} (hlen : answer.length < 65536)
    (hframe : stream <+: frame answer) (h : readFrame stream = some (bytes, rest)) : bytes = answer ∧ rest = [] := by
  obtain ⟨more, hmore⟩ := hframe
  match stream, h with
  | hi :: lo :: body, h =>
    simp only [frame, cons_append, cons.injEq] at hmore
    obtain ⟨rfl, rfl, rfl⟩ := hmore
    have hlength : (UInt8.ofNat ((body ++ more).length % 65536 / 256)).toNat * 256 +
        (UInt8.ofNat ((body ++ more).length % 256)).toNat = (body ++ more).length := by
      rw [UInt8.toNat_ofNat', UInt8.toNat_ofNat']
      omega
    simp only [readFrame, hlength] at h
    split at h
    · rename_i hle
      have hnil : more = [] := by
        rw [length_append] at hle
        exact eq_nil_of_length_eq_zero (by omega)
      subst hnil
      simp only [append_nil, take_length, drop_length, Option.some.injEq, Prod.mk.injEq] at h
      exact ⟨by rw [append_nil]; exact h.1.symm, h.2.symm⟩
    · cases h

theorem decoded_answers {C : Codec Name} {query answer : Message Name} {bytes : Bytes} (h : IsAnswer C query bytes)
    (hdecoded : decoded C bytes = .ok answer) : Answers query answer := by
  unfold decoded at hdecoded
  split at hdecoded
  · cases hdecoded
    exact h _ ‹_›
  · cases hdecoded

theorem validate_clean (client : DnsClient) (now : Nat) (control : Option (UInt64 × UInt64)) :
    (client.validate now control).2.Clean ↔ client.Clean := by
  cases control <;> exact Iff.rfl

theorem receive_spec {C : Codec Name} {l : Lookup Name} {now : Nat} {result : Except DnsClientError (Message Name)}
    (h : Unread C l) (hreceive : l.client.receive C l.key now = some (result, client)) :
    client.Clean ∧ ∀ answer, result = .ok answer → Answers l.msg answer := by
  obtain ⟨key, msg, client₀⟩ := l
  cases key with
  | tcpLocal _ | tcpRemote _ =>
    obtain ⟨hdatagrams, hstream⟩ := h
    obtain ⟨⟨bytes, rest⟩, hread, heq⟩ := Option.map_eq_some_iff.mp hreceive
    cases heq
    rcases hstream with hnil | ⟨answer, hlen, hframe, hanswer⟩
    · rw [hnil] at hread
      cases hread
    · obtain ⟨rfl, rfl⟩ := readFrame_eq hlen hframe hread
      exact ⟨⟨rfl, hdatagrams⟩, fun answer hresult => decoded_answers hanswer hresult⟩
  | udpLocal _ =>
    obtain ⟨hstream, hdatagrams⟩ := h
    rcases hdatagrams with hnil | ⟨d, hd, hanswer⟩
    · rw [DnsClient.receive, hnil] at hreceive
      cases hreceive
    · rw [DnsClient.receive, hd] at hreceive
      cases hreceive
      exact ⟨⟨hstream, rfl⟩, fun answer hresult => decoded_answers hanswer hresult⟩
  | udpRemote _ =>
    obtain ⟨hstream, hdatagrams⟩ := h
    rcases hdatagrams with hnil | ⟨d, hd, hanswer⟩
    · rw [DnsClient.receive, hnil] at hreceive
      cases hreceive
    rw [DnsClient.receive, hd] at hreceive
    simp only [Option.some.injEq, Prod.mk.injEq] at hreceive
    obtain ⟨rfl, rfl⟩ := hreceive
    refine ⟨(validate_clean _ now d.control).mpr ⟨hstream, rfl⟩, fun answer hresult => ?_⟩
    split at hresult
    · exact decoded_answers hanswer hresult
    · cases hresult

/-! ## 5. Every step -/

theorem popConnected_spec (key : DnsClientKey) (peek : Nat → Bool) (q : List DnsClient) :
    (∀ client, (popConnected key peek q).1 = some client → client ∈ q) ∧
      ∀ client ∈ (popConnected key peek q).2, client ∈ q := by
  induction q with
  | nil => simp [popConnected]
  | cons c q ih =>
    rw [popConnected]
    split
    · refine ⟨fun client h => ?_, fun client h => mem_cons_of_mem _ h⟩
      cases h
      exact mem_cons_self
    · exact ⟨fun client h => mem_cons_of_mem _ (ih.1 client h), fun client h => mem_cons_of_mem _ (ih.2 client h)⟩

variable {C : Codec Name} {s : DnsClientCache Name}

theorem Inv.update (h : Inv C s) (key : DnsClientKey) {q : List DnsClient} (hq : ∀ client ∈ q, client.Clean) :
    Inv C { s with cache := Function.update s.cache key (some q) } where
  cached key' q' hq' client hclient := by
    dsimp only at hq'
    by_cases hkey : key' = key
    · subst hkey
      rw [Function.update_self] at hq'
      cases hq'
      exact hq client hclient
    · rw [Function.update_of_ne hkey] at hq'
      exact h.cached key' q' hq' client hclient
  waiting := h.waiting

theorem Inv.create (h : Inv C s) (connects : Bool) :
    Inv C (s.create connects).2 ∧ ∀ client, (s.create connects).1 = some client → client.Clean := by
  unfold DnsClientCache.create
  split
  · refine ⟨⟨h.cached, h.waiting⟩, fun client hclient => ?_⟩
    cases hclient
    exact ⟨rfl, rfl⟩
  · exact ⟨h, fun client hclient => by cases hclient⟩

theorem Inv.getClientOrCreate (h : Inv C s) (key : DnsClientKey) (peek : Nat → Bool) (connects : Bool) :
    Inv C (s.getClientOrCreate key peek connects).2 ∧
      ∀ client, (s.getClientOrCreate key peek connects).1 = some client → client.Clean := by
  unfold DnsClientCache.getClientOrCreate
  split
  · exact h.create connects
  rename_i q hq
  obtain ⟨hfirst, hrest⟩ := popConnected_spec key peek q
  split
  · rename_i client q' hpop
    rw [hpop] at hfirst hrest
    refine ⟨h.update key fun c hc => h.cached key q hq c (hrest c hc), fun c hc => ?_⟩
    exact h.cached key q hq c (hfirst c hc)
  · rename_i q' hpop
    rw [hpop] at hrest
    exact (h.update key fun c hc => h.cached key q hq c (hrest c hc)).create connects

theorem Inv.saveClient (h : Inv C s) (maxClientPerAddr : Nat) (key : DnsClientKey) (hclient : client.Clean) :
    Inv C (s.saveClient maxClientPerAddr key client) := by
  unfold DnsClientCache.saveClient
  split
  · rename_i q hq
    have hall : ∀ c ∈ q ++ [client], c.Clean := by
      intro c hc
      rcases mem_concat.mp hc with hc | rfl
      · exact h.cached key q hq c hc
      · exact hclient
    dsimp only
    split
    · exact h.update key fun c hc => hall c (mem_of_mem_tail hc)
    · exact h.update key hall
  · exact h.update key fun c hc => by rw [mem_singleton.mp hc]; exact hclient

theorem Inv.eraseIdx (h : Inv C s) (n : Nat) : Inv C { s with lookups := s.lookups.eraseIdx n } where
  cached := h.cached
  waiting l hl := h.waiting l (mem_of_mem_eraseIdx hl)

theorem send_clean {client' : DnsClient} {bytes : Bytes} (h : client.Clean)
    (hsend : client.send C key msg = .ok (bytes, client')) : client'.Clean := by
  unfold DnsClient.send at hsend
  cases key with
  | udpRemote _ =>
    dsimp only at hsend
    split at hsend
    · cases hsend
    · split at hsend
      · cases hsend
        exact h
      · cases hsend
  | _ =>
    dsimp only at hsend
    split at hsend
    · cases hsend
      exact h
    · cases hsend

theorem correlated_error (query : Message Name) (err : DnsClientError) :
    Correlated [.returned query (.error err)] := by
  intro query' answer h
  cases mem_singleton.mp h

theorem correlated_nil : Correlated ([] : List (Output Name)) := nofun

theorem Inv.startLookup (h : Inv C s) (key : DnsClientKey) (msg : Message Name) (peek : Nat → Bool)
    (connects sends : Bool) : Inv C (startLookup C s key msg peek connects sends).1 ∧
      Correlated (startLookup C s key msg peek connects sends).2 := by
  obtain ⟨hinv, hclean⟩ := h.getClientOrCreate key peek connects
  unfold Dns.startLookup
  split
  · rename_i s' hget
    rw [hget] at hinv
    exact ⟨hinv, correlated_error msg _⟩
  rename_i client s' hget
  rw [hget] at hinv hclean
  split
  · exact ⟨hinv, correlated_error msg _⟩
  rename_i bytes client' hsend
  split
  · refine ⟨⟨hinv.cached, fun l hl => ?_⟩, fun query answer hmem => ?_⟩
    · rcases mem_concat.mp hl with hl | rfl
      · exact hinv.waiting l hl
      · exact unread_of_clean C (send_clean (hclean client rfl) hsend)
    · cases mem_singleton.mp hmem
  · exact ⟨hinv, correlated_error msg _⟩

theorem unread_arrive {l : Lookup Name} (h : Unread C l) (conn : Nat) (d : Datagram)
    (hawaited : l.client.conn = conn → Awaited C l d.payload) :
    Unread C { l with client := l.client.arrive l.key conn d } := by
  obtain ⟨key, msg, client⟩ := l
  by_cases hconn : client.conn = conn
  · have hawaited := hawaited hconn
    cases key with
    | tcpLocal _ | tcpRemote _ =>
      simp only [Unread, DnsClient.arrive, hconn, ne_eq, not_true_eq_false, if_false]
      exact ⟨h.1, .inr hawaited⟩
    | udpLocal _ | udpRemote _ =>
      obtain ⟨hnil, hanswer⟩ := hawaited
      dsimp only at hnil
      simp only [Unread, DnsClient.arrive, hconn, ne_eq, not_true_eq_false, if_false, hnil, nil_append]
      exact ⟨h.1, .inr ⟨d, rfl, hanswer⟩⟩
  · have hsame : client.arrive key conn d = client := if_pos hconn
    rwa [hsame]

theorem Inv.arrive (h : Inv C s) (maxClientPerAddr conn : Nat) (d : Datagram) (ho : Orderly C s (.arrive conn d)) :
    Inv C (step C maxClientPerAddr s (.arrive conn d)).1 where
  cached key q hq client hclient := by
    obtain ⟨q₀, hq₀, rfl⟩ := Option.map_eq_some_iff.mp hq
    obtain ⟨client₀, hclient₀, rfl⟩ := mem_map.mp hclient
    have hsame : client₀.arrive key conn d = client₀ := if_pos (ho.1 key q₀ hq₀ client₀ hclient₀)
    rw [hsame]
    exact h.cached key q₀ hq₀ client₀ hclient₀
  waiting l hl := by
    obtain ⟨l₀, hl₀, rfl⟩ := mem_map.mp hl
    exact unread_arrive (h.waiting l₀ hl₀) conn d (ho.2 l₀ hl₀)

theorem Inv.finishLookup (h : Inv C s) (maxClientPerAddr n now : Nat) :
    Inv C (finishLookup C maxClientPerAddr s n now).1 ∧ Correlated (finishLookup C maxClientPerAddr s n now).2 := by
  unfold Dns.finishLookup
  split
  · exact ⟨h, correlated_nil⟩
  rename_i l hl
  have hunread := h.waiting l (mem_of_getElem? hl)
  split
  · exact ⟨h, correlated_nil⟩
  · exact ⟨h.eraseIdx n, correlated_error l.msg _⟩
  rename_i msg client hreceive
  obtain ⟨hclean, hanswer⟩ := receive_spec hunread hreceive
  refine ⟨(h.eraseIdx n).saveClient maxClientPerAddr l.key hclean, fun query answer hmem => ?_⟩
  cases mem_singleton.mp hmem
  exact hanswer _ rfl

theorem Inv.step (h : Inv C s) (maxClientPerAddr : Nat) (i : Input Name) (ho : Orderly C s i) :
    Inv C (step C maxClientPerAddr s i).1 ∧ Correlated (step C maxClientPerAddr s i).2 := by
  cases i with
  | start key msg peek connects sends => exact h.startLookup key msg peek connects sends
  | arrive conn d => exact ⟨h.arrive maxClientPerAddr conn d ho, correlated_nil⟩
  | receive n now => exact h.finishLookup maxClientPerAddr n now
  | fail n err =>
    unfold Dns.step
    dsimp only
    split
    · exact ⟨h, correlated_nil⟩
    · exact ⟨h.eraseIdx n, correlated_error _ err⟩

/-- **In every orderly run, every lookup returns a message with the identifier and the question of its query.** -/
theorem correlated_of_orderly (C : Codec Name) (maxClientPerAddr : Nat) (inputs : List (Input Name))
    (h : Along (step C maxClientPerAddr) (Orderly C) .new inputs) :
    Correlated (run (step C maxClientPerAddr) .new inputs).2 := by
  have hinit : Inv C (DnsClientCache.new : DnsClientCache Name) :=
    ⟨nofun, nofun⟩
  refine (run_inv (I := fun s log => Inv C s ∧ Correlated log) ⟨hinit, correlated_nil⟩ ?_ h).2
  intro s log i ⟨hinv, hlog⟩ ho
  obtain ⟨hinv', hlog'⟩ := hinv.step maxClientPerAddr i ho
  refine ⟨hinv', fun query answer hmem => ?_⟩
  rcases mem_append.mp hmem with hmem | hmem
  · exact hlog query answer hmem
  · exact hlog' query answer hmem

/-! ## 6. Runs -/

def sampleQuery (id : UInt16) : Message Unit := .query id ⟨(), .a, 1⟩

def sampleCodec : Codec Unit where
  toVec msg := some [UInt8.ofNat (msg.id.toNat / 256), UInt8.ofNat msg.id.toNat]
  fromVec
    | [hi, lo] => some (sampleQuery (UInt16.ofNat (hi.toNat * 256 + lo.toNat)))
    | _ => none

def sampleKey : DnsClientKey := .udpLocal (.v4 ⟨0x08080808, 53⟩)

def lookedUp (conn : Nat) (id : UInt16) (answers : List Datagram) : List (Input Unit) :=
  .start sampleKey (sampleQuery id) (fun _ => true) true true :: answers.map (.arrive conn) ++ [.receive 0 0]

theorem correlated_lookup :
    let inputs := lookedUp 0 7 [⟨[0, 7], none⟩]
    Along (step sampleCodec 5) (Orderly sampleCodec) .new inputs ∧
      Correlated (run (step sampleCodec 5) .new inputs).2 ∧
      .returned (sampleQuery 7) (.ok (sampleQuery 7)) ∈ (run (step sampleCodec 5) .new inputs).2 := by
  have halong : Along (step sampleCodec 5) (Orderly sampleCodec) .new (lookedUp 0 7 [⟨[0, 7], none⟩]) := by
    refine ⟨trivial, ⟨nofun, fun l hl _ => ?_⟩, trivial, trivial⟩
    cases mem_singleton.mp hl
    refine ⟨rfl, fun msg hmsg => ?_⟩
    have hdecode : sampleCodec.fromVec (take 512 [0, 7]) = some (sampleQuery 7) := by decide
    rw [← Option.some.inj (hdecode.symm.trans hmsg)]
    exact ⟨rfl, rfl⟩
  exact ⟨halong, correlated_of_orderly _ _ _ halong, mem_cons_of_mem _ mem_cons_self⟩

/-- **One answer comes twice**: the second is returned to the next lookup on the connection. -/
theorem correlated_broken :
    let inputs := lookedUp 0 7 [⟨[0, 7], none⟩, ⟨[0, 7], none⟩] ++ lookedUp 0 8 []
    .returned (sampleQuery 8) (.ok (sampleQuery 7)) ∈ (run (step sampleCodec 5) .new inputs).2 ∧
      ¬Correlated (run (step sampleCodec 5) .new inputs).2 := by
  have hmem : Output.returned (sampleQuery 8) (.ok (sampleQuery 7)) ∈ (run (step sampleCodec 5) .new
      (lookedUp 0 7 [⟨[0, 7], none⟩, ⟨[0, 7], none⟩] ++ lookedUp 0 8 [])).2 := by
    refine mem_cons_of_mem _ (mem_cons_of_mem _ (mem_cons_of_mem _ ?_))
    exact mem_cons_self
  exact ⟨hmem, fun h => absurd (h _ _ hmem).1 (by decide)⟩

/-! ## 7. Responses through a shadowsocks server -/

open Udp

/-- `recv_with_ctrl`: a packet is cut to the 512 bytes of `recv_buf`, then decrypted. -/
def recvWithCtrl (K : CipherKind) (clock : UInt64) (key packet : Bytes) : Outcome ProtocolError Datagram :=
  (decryptServerPayload K clock key (packet.take 512)).map fun (payload, _, control) =>
    ⟨payload, control.map fun c => (c.serverSessionId, c.packetId)⟩

/-- What a server's packet has around the payload. -/
def overhead (a : Address) (payload : Bytes) : (K : CipherKind) → K.Env → Nat
  | .none, _ => a.serializedLen
  | .stream M, _ => M.ivLen + a.serializedLen
  | .aead M, _ => M.saltLen + a.serializedLen + M.aead.tagLen
  | .aead2022 M, env => Aead2022.nonceLen M.kind + 35 + (Aead2022.PacketEnv.paddingFor env payload).length +
      a.serializedLen + M.aead.tagLen

/-- Where the sealed message begins in a packet of AEAD-2022. -/
def sealedAt (M : Aead2022.Method) : Nat := if methodSupportEih M.kind then 16 else Aead2022.nonceLen M.kind

/-- A cut packet: a stream cipher deciphers byte by byte, one with a tag opens nothing. -/
def CutRefused (key packet : Bytes) : CipherKind → Prop
  | .none => True
  | .stream M => M.ivLen ≤ 24 ∧ ∀ iv c n, M.decrypt key iv (c.take n) = (M.decrypt key iv c).map (·.take n)
  | .aead M => 512 < packet.length → ∀ salt, M.aead.decrypt (M.subkey key salt) 0 ((packet.take 512).drop M.saltLen) = none
  | .aead2022 M => 512 < packet.length → ∀ session nonce,
      M.aead.decrypt (M.newCipher key session) nonce ((packet.take 512).drop (sealedAt M)) = none

/-- A response that a server relays to a client with its key, whose clock agrees. -/
structure Relayed where
  K : CipherKind
  inverts : K.Inverts
  inPlace : ∀ M, K = .stream M → ∀ key iv p, (M.encrypt key iv p).length = p.length
  key : Bytes
  keyFits : K.KeyFits key
  env : K.Env
  clock : UInt64
  inTime : K.InTime env clock
  source : Address
  fits : source.Fits
  control : UdpSocketControlData
  (response packet : Bytes)
  sent : encryptServerPayload (ε := Empty) K env key source control response = .ok packet
  cut : CutRefused key packet K

namespace Relayed

variable (r : Relayed)

/-- The ids of the packet, for the window of the client. -/
def ids : Option (UInt64 × UInt64) := (r.K.received r.control).map fun c => (c.serverSessionId, c.packetId)

theorem decrypts : ∃ control, decryptServerPayload r.K r.clock r.key r.packet =
      .ok (r.response, r.source.asRead, control) ∧
    control.map (fun c => (c.serverSessionId, c.packetId)) = r.ids := by
  obtain ⟨packet, he, hd⟩ := responseRoundTrip r.inverts r.keyFits r.fits r.control r.response r.env r.inTime
  cases he.symm.trans r.sent
  refine ⟨_, hd, ?_⟩
  unfold ids
  cases r.K <;> rfl

theorem packet_length : r.packet.length = r.response.length + overhead r.source r.response r.K r.env := by
  obtain ⟨K, inverts, inPlace, key, keyFits, env, -, -, source, fits, control, response, packet, sent, -⟩ := r
  dsimp only
  cases K with
  | none =>
    rw [encryptServerPayload, encryptPayloadNone, Address.writeToBuf, if_pos fits] at sent
    cases sent
    rw [length_append, Address.bytes_length, overhead, Nat.add_comm]
  | stream M =>
    rw [encryptServerPayload, encryptPayloadStream, Address.writeToBuf, if_pos fits] at sent
    cases sent
    rw [length_append, env.2, inPlace M rfl, length_append, Address.bytes_length, overhead]
    omega
  | aead M =>
    rw [encryptServerPayload, encryptPayloadAead, Address.writeToBuf, if_pos fits] at sent
    cases sent
    rw [length_append, env.2, Cipher.encryptPacket, M.aead.encrypt_length, length_append, Address.bytes_length, overhead]
    omega
  | aead2022 M =>
    obtain ⟨packet', he, hs⟩ := Aead2022.sealed_plain (ε := Empty) inverts keyFits env control.serverSessionId
      control.packetId
      (Aead2022.serverBody env.timestamp control.clientSessionId (env.paddingFor response) source response)
    have hsame : packet' = packet := by
      simp only [encryptServerPayload, Aead2022.encryptServerPayload, Address.writeToBuf, if_pos fits,
        Outcome.ok_bind] at sent
      exact Outcome.ok.inj (he.symm.trans sent)
    rw [← hsame, hs.length, Aead2022.eihLen_none, env.nonce_length, overhead]
    simp only [Aead2022.serverBody, length_append, length_cons, length_nil, put64_length, put16_length,
      Address.bytes_length]
    omega

end Relayed

theorem unpack_cut {ε : Type} (wrap : Socks5.Error → ε) (front : Bytes) {a : Address} (ha : a.Fits) (payload : Bytes)
    {n : Nat} (hn : 259 ≤ n) (hlt : n < a.serializedLen + payload.length) :
    ∃ cut, unpack wrap front ((a.bytes ++ payload).take n) [] = .ok (cut, a.asRead) ∧ cut.length < payload.length := by
  have hle := Address.serializedLen_le ha
  refine ⟨payload.take (n - a.bytes.length), ?_, ?_⟩
  · rw [take_append, take_of_length_le (by rw [Address.bytes_length]; omega)]
    exact unpack_bytes wrap front _ _ ha
  · rw [length_take, Address.bytes_length]
    omega

theorem splitAt_rest {ε : Type} {n : Nat} {bs front rest : Bytes} (h : Lib.splitAt (ε := ε) n bs = .ok (front, rest)) :
    rest = bs.drop n := by
  unfold Lib.splitAt at h
  split at h <;> cases h
  rfl

theorem decryptPayloadAead_opens {M : Tcp.V1.AeadMethod} {key packet : Bytes} {x : Bytes × Address}
    (h : decryptPayloadAead M key packet = .ok x) :
    ∃ salt, M.aead.decrypt (M.subkey key salt) 0 (packet.drop M.saltLen) ≠ none := by
  unfold decryptPayloadAead at h
  dsimp only at h
  split at h
  · cases h
  obtain ⟨⟨salt, data⟩, hsplit, h⟩ := Outcome.bind_ok_iff.mp h
  refine ⟨salt, fun hnone => ?_⟩
  rw [← splitAt_rest hsplit] at hnone
  have hclosed := Cipher.decryptPacket_none (c := M.newCipher key salt) hnone
  split at h
  · cases h
  · rw [hclosed] at h
    cases h

theorem decryptMessage_opens {M : Aead2022.Method} {key packet : Bytes} {x : Option ServerUser × Bytes}
    (h : Aead2022.decryptMessage M key packet none = .ok x) :
    ∃ session nonce, M.aead.decrypt (M.newCipher key session) nonce (packet.drop (sealedAt M)) ≠ none := by
  have hopen : ∀ {session nonce front message}, Aead2022.openMessage M key session nonce front message none = .ok x →
      M.aead.decrypt (M.newCipher key session) nonce message ≠ none := by
    intro session nonce front message h hnone
    rw [Aead2022.openMessage, PacketAead.decryptPacket, hnone] at h
    cases h
  unfold sealedAt
  cases haes : methodSupportEih M.kind with
  | true =>
    rw [Aead2022.decryptMessage_aes key haes, Aead2022.decryptMessageAes] at h
    simp only [Outcome.bind_ok_iff, Prod.exists] at h
    obtain ⟨header, message, hsplit, key', hkey, buf, -, nonce, -, h⟩ := h
    unfold Aead2022.Method.aesKey at hkey
    split at hkey <;> cases hkey
    exact ⟨_, nonce, splitAt_rest hsplit ▸ hopen h⟩
  | false =>
    rw [Aead2022.decryptMessage_chacha key haes, Aead2022.decryptMessageChacha] at h
    simp only [Outcome.bind_ok_iff, Prod.exists] at h
    obtain ⟨nonce, message, hsplit, buf, -, h⟩ := h
    exact ⟨_, nonce, splitAt_rest hsplit ▸ hopen h⟩

theorem Relayed.cut_lost (r : Relayed) (h : 512 < r.packet.length) {d : Datagram}
    (hd : recvWithCtrl r.K r.clock r.key r.packet = .ok d) : d.payload.length < r.response.length := by
  obtain ⟨K, inverts, inPlace, key, keyFits, env, clock, inTime, source, fits, control, response, packet, sent, cut⟩ := r
  obtain ⟨⟨payload, a, control'⟩, hdecrypt, rfl⟩ := Outcome.map_ok_iff.mp hd
  cases K with
  | none =>
    rw [encryptServerPayload, encryptPayloadNone, Address.writeToBuf, if_pos fits] at sent
    cases sent
    rw [length_append, Address.bytes_length] at h
    obtain ⟨rest, hcut, hlt⟩ := unpack_cut ProtocolError.invalidAddress [] fits response (by decide) h
    rw [decryptServerPayload, hcut] at hdecrypt
    cases hdecrypt
    exact hlt
  | stream M =>
    rw [encryptServerPayload, encryptPayloadStream, Address.writeToBuf, if_pos fits] at sent
    cases sent
    obtain ⟨hiv, hbytes⟩ := cut
    rw [length_append, env.2, inPlace M rfl, length_append, Address.bytes_length] at h
    obtain ⟨rest, hcut, hlt⟩ := unpack_cut StreamError.invalidAddress env.1 fits response (n := 512 - M.ivLen)
      (by omega) (by omega)
    rw [decryptServerPayload, decryptPayloadStream, take_append, env.2, take_of_length_le (by rw [env.2]; omega),
      if_neg (by rw [length_append, env.2]; omega), splitAt_append _ env.2, Outcome.ok_bind] at hdecrypt
    simp only [hbytes, inverts key env.1, Option.map_some, hcut] at hdecrypt
    cases hdecrypt
    exact hlt
  | aead M =>
    obtain ⟨y, hy, -⟩ := Outcome.map_ok_iff.mp hdecrypt
    obtain ⟨salt, hopens⟩ := decryptPayloadAead_opens (Outcome.mapErr_ok_iff.mp hy)
    exact absurd (cut h salt) hopens
  | aead2022 M =>
    obtain ⟨y, hy, -⟩ := Outcome.map_ok_iff.mp hdecrypt
    have hy := Outcome.mapErr_ok_iff.mp hy
    unfold Aead2022.decryptServerPayload at hy
    split at hy
    · cases hy
    · obtain ⟨z, hz, -⟩ := Outcome.bind_ok_iff.mp hy
      obtain ⟨session, nonce, hopens⟩ := decryptMessage_opens hz
      exact absurd (cut h session nonce) hopens

/-- The lookup that reads the packet next gets the response, whatever decodes it. -/
def Returned (r : Relayed) (client : DnsClient) (now : Nat) : Prop :=
  ∃ d, recvWithCtrl r.K r.clock r.key r.packet = .ok d ∧ ∀ (Name : Type) (C : Codec Name) (ns : Address) (rest : List Datagram),
    (DnsClient.receive C (.udpRemote ns) { client with datagrams := d :: rest } now).map Prod.fst =
      some (decoded C r.response)

theorem received_iff (client : DnsClient) (now : Nat) (d : Datagram) (response : Bytes) :
    (∀ (Name : Type) (C : Codec Name) (ns : Address) (rest : List Datagram),
        (DnsClient.receive C (.udpRemote ns) { client with datagrams := d :: rest } now).map Prod.fst =
          some (decoded C response)) ↔
      d.payload.take 512 = response ∧ (client.validate now d.control).1 = true := by
  have hvalidate : ∀ rest, (DnsClient.validate { client with datagrams := rest } now d.control).1 =
      (client.validate now d.control).1 := by
    intro rest
    cases d.control <;> rfl
  simp only [DnsClient.receive, hvalidate, Option.map_some, Option.some.injEq]
  constructor
  · intro h
    -- a codec that knows the response only
    have hone := h _ ⟨fun _ => none, fun bytes => if bytes = response then some (sampleQuery 7) else none⟩
      (.socketAddress (.v4 ⟨0, 0⟩)) []
    simp only [decoded, if_true] at hone
    split_ifs at hone with hvalid hsame
    exact ⟨hsame, hvalid⟩
  · rintro ⟨rfl, hvalid⟩ Name C ns rest
    rw [if_pos hvalid]

/-- **When a response of a server is returned in full** to the lookup that reads it next: its packet has at most 512
bytes, and the window takes its id. -/
theorem response_returned (r : Relayed) (client : DnsClient) (now : Nat) : Returned r client now ↔
    r.response.length + overhead r.source r.response r.K r.env ≤ 512 ∧ (client.validate now r.ids).1 = true := by
  obtain ⟨control, hdecrypts, hids⟩ := r.decrypts
  simp only [Returned, received_iff]
  rw [← r.packet_length]
  constructor
  · rintro ⟨d, hd, hpayload, hvalid⟩
    have hfits : r.packet.length ≤ 512 := by
      by_contra hlong
      have hlost := r.cut_lost (not_le.mp hlong) hd
      rw [← hpayload, length_take] at hlost
      omega
    rw [recvWithCtrl, take_of_length_le hfits, hdecrypts] at hd
    cases hd
    exact ⟨hfits, hids ▸ hvalid⟩
  · intro ⟨hfits, hvalid⟩
    refine ⟨⟨r.response, r.ids⟩, ?_, take_of_length_le ?_, hvalid⟩
    · rw [recvWithCtrl, take_of_length_le hfits, hdecrypts, ← hids]
      rfl
    · have := r.packet_length
      show r.response.length ≤ 512
      omega

def Relayed.sealed : Relayed where
  K := .aead2022 taggedMethod
  inverts := taggedMethod_inverts
  inPlace := nofun
  key := keyOf 1
  keyFits := rfl
  env := env₀
  clock := 100
  inTime := (by decide : Aead2022.InTime 100 100)
  source := .socketAddress (.v4 ⟨1, 53⟩)
  fits := trivial
  control := ⟨3, 5, 1, none⟩
  response := [7, 8]
  packet := put64 5 ++ (put64 1 ++ (1 :: put64 100 ++ (put64 3 ++ [0, 0, 1, 0, 0, 0, 1, 0, 53, 7, 8, 16, 6])))
  sent := by decide +kernel
  cut h := absurd h (by decide)

def Relayed.masked : Relayed where
  K := .stream .masked
  inverts := StreamMethod.masked_inverts
  inPlace := by
    rintro M ⟨⟩ key iv p
    exact length_map _
  key := []
  keyFits := trivial
  env := ⟨replicate 8 1, rfl⟩
  clock := 0
  inTime := trivial
  source := .socketAddress (.v4 ⟨1, 53⟩)
  fits := trivial
  control := ⟨0, 0, 0, none⟩
  response := replicate 500 7
  packet := replicate 8 1 ++ ([9, 8, 8, 8, 9, 8, 61] ++ replicate 500 15)
  sent := by decide +kernel
  cut := ⟨by decide, fun iv c n => congrArg some (map_take ..)⟩

theorem response_returned_both : Returned .sealed (.connect 0) 0 ∧ ¬Returned .masked (.connect 0) 0 :=
  ⟨(response_returned ..).mpr ⟨by decide, by decide +kernel⟩,
    fun h => absurd ((response_returned ..).mp h).1 (by decide +kernel)⟩

/-- **A response of 500 bytes**: without a cipher its end is cut off, and an AEAD-2022 packet is refused. -/
theorem response_cut :
    (encryptServerPayload .none () [] (.socketAddress (.v6 ⟨1, 53, 0, 0⟩)) ⟨0, 0, 0, none⟩ (replicate 500 7) >>=
        recvWithCtrl .none 0 []).map (fun d => d.payload.length) = .ok 493 ∧
      (encryptServerPayload (.aead2022 taggedMethod) env₀ (keyOf 1) (.socketAddress (.v4 ⟨1, 53⟩))
          ⟨3, 5, 1, none⟩ (replicate 500 7) >>= recvWithCtrl (.aead2022 taggedMethod) 100 (keyOf 1)).map
        (fun d => d.payload.length) = .err (.aead2022Error .decryptPayloadError) := by
  decide +kernel

end Shadowsocks.Local.Dns
