/-
  Subject:   THE CONNECTIONS OF THE HTTP CLIENT (`local/http/http_client.rs` of the service), kept for later
  requests. Requests share the cache and wait at three places; what connections and hosts answer comes in with the
  event.
-/
import Shadowsocks.Local.Inbound

namespace Shadowsocks.Local.HttpClient

open Lib List

/-! ## 1. Connections -/

structure HttpConnection where
  number : Nat
  host : Address
  tls : Option String
  http2 : Bool
  deriving DecidableEq

def HttpConnection.connect (number : Nat) (scheme : String) (host : Address) (domain : String) (http2 : Bool) :
    Option HttpConnection :=
  if scheme = "http" then some ⟨number, host, none, false⟩
  else if scheme = "https" then some ⟨number, host, some domain, http2⟩
  else none

def connectScheme (r : HttpRequest) : String := r.scheme.getD "http"

def domain (ipText : SocketAddr → String) : Address → String
  | .domainNameAddress domain _ => domain
  | .socketAddress saddr => ipText saddr

def connectionExpireDuration : Nat := 20000

abbrev Cache := LruCache Address (List (HttpConnection × Nat))

structure Look where
  now : Nat
  (isClosed isReady : Bool)

def popUsable (look : Nat → Look) : List (HttpConnection × Nat) → Option HttpConnection × List (HttpConnection × Nat)
  | [] => (none, [])
  | (c, inst) :: q =>
    if connectionExpireDuration ≤ (look c.number).now - inst then popUsable look q
    else if (look c.number).isClosed then popUsable look q
    else if !(look c.number).isReady then popUsable look q
    else (some c, q)

def getCachedConnection (cache : Cache) (now : Nat) (look : Nat → Look) (host : Address) :
    Option HttpConnection × Cache :=
  match cache.lookup now host with
  | some q => ((popUsable look q).1, cache.touch now host (popUsable look q).2)
  | none => (none, cache.sweep now)

def cacheConnection (cache : Cache) (now : Nat) (host : Address) (c : HttpConnection) : Cache :=
  match cache.lookup now host with
  | some q => cache.touch now host (q ++ [(c, now)])
  | none => cache.insert now host [(c, now)]

/-! ## 2. Requests -/

inductive Task where
  | connecting (r : HttpRequest) (host : Address)
  | sending (r : HttpRequest) (host : Address) (c : HttpConnection) (cached : Bool)
  /-- The response is there; the connection is kept, and not ready yet. -/
  | returning (host : Address) (c : HttpConnection)
  | over

inductive Sent where
  | response (keepAlive : Bool)
  | trySend (message : Bool)
  | http

structure Client where
  cache : Cache
  connections : Nat
  tasks : List Task

def Client.new : Client := ⟨.withExpiryDuration connectionExpireDuration, 0, []⟩

inductive Event where
  | request (r : HttpRequest) (now : Nat) (look : Nat → Look)
  /-- A connection was made, or not. -/
  | connected (task : Nat) (http2 : Option Bool)
  | sent (task : Nat) (result : Sent)
  | ready (task : Nat) (ok : Bool) (now : Nat)

inductive Output where
  | send (r : HttpRequest) (c : HttpConnection)
  | panicked (r : HttpRequest)
  deriving DecidableEq

def afterSend (r : HttpRequest) (host : Address) (c : HttpConnection) (cached : Bool) : Sent → Task
  | .response keepAlive => if keepAlive then .returning host c else .over
  | .trySend message => if cached && message then .connecting r host else .over
  | .http => .over

section

variable (H : HttpText) (ipText : SocketAddr → String)

def sendRequest (s : Client) (r : HttpRequest) (host : Address) (now : Nat) (look : Nat → Look) :
    Client × List Output :=
  match getCachedConnection s.cache now look host with
  | (some c, cache) => ({ s with cache := cache, tasks := s.tasks ++ [.sending r host c true] }, [.send r c])
  | (none, cache) => ({ s with cache := cache, tasks := s.tasks ++ [.connecting r host] }, [])

def sendConnected (s : Client) (task : Nat) (r : HttpRequest) (host : Address) (http2 : Option Bool) :
    Client × List Output :=
  match http2.bind (HttpConnection.connect s.connections (connectScheme r) host (domain ipText host)) with
  | some c =>
    ({ s with connections := s.connections + 1, tasks := s.tasks.set task (.sending r host c false) }, [.send r c])
  | none => ({ s with tasks := s.tasks.set task .over }, [])

def step (s : Client) : Event → Client × List Output
  | .request r now look =>
    match hostAddr H r with
    | none => (s, [.panicked r])
    | some host => sendRequest s r host now look
  | .connected task http2 =>
    match s.tasks[task]? with
    | some (.connecting r host) => sendConnected ipText s task r host http2
    | _ => (s, [])
  | .sent task result =>
    match s.tasks[task]? with
    | some (.sending r host c cached) => ({ s with tasks := s.tasks.set task (afterSend r host c cached result) }, [])
    | _ => (s, [])
  | .ready task ok now =>
    match s.tasks[task]? with
    | some (.returning host c) =>
      ({ s with cache := if ok then cacheConnection s.cache now host c else s.cache, tasks := s.tasks.set task .over },
        [])
    | _ => (s, [])

def after (es : List Event) : Client × List Output := Lib.run (step H ipText) .new es

/-! ## 3. What a connection was opened for -/

variable (P : HttpRequest → Prop)

def Given : Event → Prop
  | .request r _ _ => P r
  | _ => True

def Opened (host : Address) (c : HttpConnection) : Prop :=
  ∃ r n http2, P r ∧ hostAddr H r = some host ∧
    HttpConnection.connect n (connectScheme r) host (domain ipText host) http2 = some c

def Task.Sound : Task → Prop
  | .connecting r host => P r ∧ hostAddr H r = some host
  | .sending r host c _ => P r ∧ hostAddr H r = some host ∧ Opened H ipText P host c
  | .returning host c => Opened H ipText P host c
  | .over => True

def Filed (cache : Cache) : Prop :=
  ∀ e ∈ cache.entries, ∀ x ∈ e.value, Opened H ipText P e.key x.1

/-- **Every connection goes where it is kept for**, and so does every request. -/
structure Sound (P : HttpRequest → Prop) (s : Client) (log : List Output) : Prop where
  cache : Filed H ipText P s.cache
  tasks : ∀ t ∈ s.tasks, t.Sound H ipText P
  log : ∀ r c, .send r c ∈ log → P r ∧ ∃ host, hostAddr H r = some host ∧ Opened H ipText P host c

end

section

variable {H : HttpText} {ipText : SocketAddr → String} {P : HttpRequest → Prop} {q : List (HttpConnection × Nat)}

variable {look : Nat → Look}

theorem popUsable_mem :
    (∀ c, (popUsable look q).1 = some c → ∃ x ∈ q, x.1 = c) ∧ (popUsable look q).2 ⊆ q := by
  induction q with
  | nil => exact ⟨nofun, List.Subset.refl _⟩
  | cons x q ih =>
    obtain ⟨c, inst⟩ := x
    have hskip : (∀ d, (popUsable look q).1 = some d → ∃ x ∈ (c, inst) :: q, x.1 = d) ∧
        (popUsable look q).2 ⊆ (c, inst) :: q :=
      ⟨fun d hd => (ih.1 d hd).imp fun _ hx => ⟨mem_cons_of_mem _ hx.1, hx.2⟩,
        fun _ hx => mem_cons_of_mem _ (ih.2 hx)⟩
    rw [popUsable]
    split
    · exact hskip
    split
    · exact hskip
    split
    · exact hskip
    · exact ⟨fun d hd => ⟨_, mem_cons_self, Option.some.inj hd⟩, subset_cons_self _ _⟩

variable {host : Address} {cache : Cache} {now : Nat}

theorem Filed.touch (h : Filed H ipText P cache) (hq : ∀ x ∈ q, Opened H ipText P host x.1) :
    Filed H ipText P (cache.touch now host q) := by
  intro e he
  rcases LruCache.mem_of_touch he with hold | rfl
  · exact h e hold
  · exact hq

theorem Filed.lookup (h : Filed H ipText P cache)
    (hq : cache.lookup now host = some q) : ∀ x ∈ q, Opened H ipText P host x.1 := by
  obtain ⟨e, he, rfl, rfl⟩ := LruCache.mem_of_lookup hq
  exact h e he

theorem getCachedConnection_filed {cache' : Cache} (h : Filed H ipText P cache)
    {o : Option HttpConnection} (hget : getCachedConnection cache now look host = (o, cache')) :
    (∀ c, o = some c → Opened H ipText P host c) ∧ Filed H ipText P cache' := by
  rw [getCachedConnection] at hget
  split at hget
  · rename_i q hq
    cases hget
    refine ⟨fun c hc => ?_, h.touch fun x hx => h.lookup hq x (popUsable_mem.2 hx)⟩
    obtain ⟨x, hx, rfl⟩ := popUsable_mem.1 c hc
    exact h.lookup hq x hx
  · cases hget
    exact ⟨nofun, fun e he => h e (LruCache.mem_alive.mp he).1⟩

variable {c : HttpConnection}

theorem cacheConnection_filed (h : Filed H ipText P cache) (hc : Opened H ipText P host c) (now : Nat) :
    Filed H ipText P (cacheConnection cache now host c) := by
  rw [cacheConnection]
  split
  · rename_i q hq
    refine h.touch fun x hx => ?_
    rcases mem_concat.mp hx with hold | rfl
    · exact h.lookup hq x hold
    · exact hc
  · intro e he
    rcases LruCache.mem_of_insert he with hold | rfl
    · exact h e hold
    · exact forall_mem_singleton.mpr hc

variable {log : List Output} {s : Client}

theorem Sound.next {s' : Client} {more : List Output} (h : Sound H ipText P s log)
    (hcache : Filed H ipText P s'.cache) (htasks : ∀ t ∈ s'.tasks, t.Sound H ipText P)
    (hmore : ∀ r c, .send r c ∈ more → P r ∧ ∃ host, hostAddr H r = some host ∧ Opened H ipText P host c) :
    Sound H ipText P s' (log ++ more) where
  cache := hcache
  tasks := htasks
  log r c hmem := (mem_append.mp hmem).elim (h.log r c) (hmore r c)

theorem Sound.started (h : Sound H ipText P s log) {t : Task} (ht : t.Sound H ipText P) :
    ∀ u ∈ s.tasks ++ [t], u.Sound H ipText P := by
  intro u hu
  rcases mem_concat.mp hu with hold | rfl
  · exact h.tasks u hold
  · exact ht

theorem Sound.moved (h : Sound H ipText P s log) (task : Nat) {t : Task} (ht : t.Sound H ipText P) :
    ∀ u ∈ s.tasks.set task t, u.Sound H ipText P := by
  intro u hu
  rcases mem_or_eq_of_mem_set hu with hold | rfl
  · exact h.tasks u hold
  · exact ht

variable {r : HttpRequest} {r' : HttpRequest}

theorem mem_send {c' : HttpConnection} (h : Output.send r c ∈ [Output.send r' c']) :
    r = r' ∧ c = c' := by
  cases mem_singleton.mp h
  exact ⟨rfl, rfl⟩

theorem Sound.sendRequest (h : Sound H ipText P s log) (hr : P r) (hhost : hostAddr H r = some host) (now : Nat)
    (look : Nat → Look) :
    Sound H ipText P (sendRequest s r host now look).1 (log ++ (sendRequest s r host now look).2) := by
  rw [HttpClient.sendRequest]
  split
  · rename_i c cache hget
    obtain ⟨hopened, hfiled⟩ := getCachedConnection_filed h.cache hget
    refine h.next hfiled (h.started ⟨hr, hhost, hopened c rfl⟩) fun r' c' hmem => ?_
    obtain ⟨rfl, rfl⟩ := mem_send hmem
    exact ⟨hr, host, hhost, hopened c' rfl⟩
  · rename_i cache hget
    obtain ⟨-, hfiled⟩ := getCachedConnection_filed h.cache hget
    exact h.next hfiled (h.started ⟨hr, hhost⟩) fun r' c' hmem => (by cases hmem)

theorem Sound.sendConnected (h : Sound H ipText P s log) (hr : P r) (hhost : hostAddr H r = some host) (task : Nat)
    (http2 : Option Bool) : Sound H ipText P (sendConnected ipText s task r host http2).1
      (log ++ (sendConnected ipText s task r host http2).2) := by
  rw [HttpClient.sendConnected]
  split
  · rename_i c hc
    obtain ⟨negotiated, -, hconnect⟩ := Option.bind_eq_some_iff.mp hc
    have hopened : Opened H ipText P host c := ⟨r, _, negotiated, hr, hhost, hconnect⟩
    refine h.next h.cache (h.moved task ⟨hr, hhost, hopened⟩) fun r' c' hmem => ?_
    obtain ⟨rfl, rfl⟩ := mem_send hmem
    exact ⟨hr, host, hhost, hopened⟩
  · exact h.next h.cache (h.moved task trivial) fun r' c' hmem => (by cases hmem)

theorem afterSend_sound {cached : Bool} (h : (Task.sending r host c cached).Sound H ipText P) (result : Sent) :
    (afterSend r host c cached result).Sound H ipText P := by
  obtain ⟨hr, hhost, hopened⟩ := h
  cases result with
  | response keepAlive =>
    rw [afterSend]
    split
    · exact hopened
    · trivial
  | trySend message =>
    rw [afterSend]
    split
    · exact ⟨hr, hhost⟩
    · trivial
  | http => trivial

theorem Sound.step (h : Sound H ipText P s log) (e : Event) (he : Given P e) :
    Sound H ipText P (step H ipText s e).1 (log ++ (step H ipText s e).2) := by
  have hnothing : Sound H ipText P s (log ++ []) := h.next h.cache h.tasks nofun
  cases e with
  | request r now look =>
    rw [HttpClient.step]
    split
    · exact h.next h.cache h.tasks fun _ _ hmem => (by cases mem_singleton.mp hmem)
    · exact h.sendRequest he ‹_› now look
  | connected task http2 =>
    rw [HttpClient.step]
    split
    · rename_i r host ht
      obtain ⟨hr, hhost⟩ := h.tasks _ (mem_of_getElem? ht)
      exact h.sendConnected hr hhost task http2
    · exact hnothing
  | sent task result =>
    rw [HttpClient.step]
    split
    · rename_i r host c cached ht
      have hsound := h.tasks _ (mem_of_getElem? ht)
      exact h.next h.cache (h.moved task (afterSend_sound hsound result)) nofun
    · exact hnothing
  | ready task ok now =>
    rw [HttpClient.step]
    split
    · rename_i host c ht
      have hopened : Opened H ipText P host c := h.tasks _ (mem_of_getElem? ht)
      refine h.next ?_ (h.moved task trivial) nofun
      split
      · exact cacheConnection_filed h.cache hopened now
      · exact h.cache
    · exact hnothing

def Kept (H : HttpText) (ipText : SocketAddr → String) (r : HttpRequest) (c : HttpConnection) : Prop :=
  (r.scheme = some "https" → ∃ host, hostAddr H r = some host ∧ c.host = host ∧ c.tls = some (domain ipText host)) ∧
  (r.scheme = some "http" → c.tls = none)

def Conflict (H : HttpText) (r r' : HttpRequest) : Prop :=
  r.scheme = some "https" ∧ (r'.scheme = some "http" ∨ r'.scheme = none) ∧
    ∃ host, hostAddr H r = some host ∧ hostAddr H r' = some host

theorem Opened.kept (h : Opened H ipText P host c) (hhost : hostAddr H r = some host)
    (hfree : ∀ r', P r' → ¬Conflict H r r' ∧ ¬Conflict H r' r) : Kept H ipText r c := by
  obtain ⟨r', n, http2, hr', hhost', hconnect⟩ := h
  obtain ⟨hfree, hfree'⟩ := hfree r' hr'
  unfold HttpConnection.connect connectScheme at hconnect
  split at hconnect
  · rename_i hplain
    cases hconnect
    refine ⟨fun htls => absurd ⟨htls, ?_, host, hhost, hhost'⟩ hfree, fun _ => rfl⟩
    cases hscheme : r'.scheme with
    | none => exact .inr rfl
    | some scheme =>
      rw [hscheme] at hplain
      exact .inl (congrArg some hplain)
  split at hconnect
  · rename_i htls
    cases hconnect
    refine ⟨fun _ => ⟨host, hhost, rfl, rfl⟩, fun hplain => absurd ⟨?_, .inl hplain, host, hhost', hhost⟩ hfree'⟩
    cases hscheme : r'.scheme with
    | none =>
      rw [hscheme] at htls
      exact absurd htls (by decide)
    | some scheme =>
      rw [hscheme] at htls
      exact congrArg some htls
  · cases hconnect

def fresh : Nat → Look := fun _ => ⟨0, false, true⟩

end

def sampleRequest (scheme : String) : HttpRequest := ⟨some scheme, some ⟨"h", some 443⟩, none⟩

end Shadowsocks.Local.HttpClient
