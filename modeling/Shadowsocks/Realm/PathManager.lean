/-
  Subject:   THE CHOICE BETWEEN QUIC AND DIRECT TCP (`path_manager.rs` of `shadowsocks-realm`, `connect_target`,
  `dial_tcp` and `spawn_control_loop` of `crates/shadowsocks/src/realm.rs`). Every use of the shared `PathManager`
  is a critical section of its own. Offers are numbered for the statements.
-/
import Shadowsocks.Lib.Machine
import Shadowsocks.Relay.Address

namespace Shadowsocks.Realm.Paths

open Lib List

/-! ## 1. The path manager -/

structure TcpPath where
  addr : SocketAddr
  token : Bytes
  offer : Nat

inductive Path where
  | quic
  | tcp (addr : SocketAddr) (offer : Nat)

structure PathManager where
  tcp : Option TcpPath
  preferTcp : Bool

namespace PathManager

def new (preferTcp : Bool) : PathManager := ⟨none, preferTcp⟩

variable (m : PathManager)

def setTcp (addr : SocketAddr) (token : Bytes) (offer : Nat) : PathManager :=
  { m with tcp := some ⟨addr, token, offer⟩ }

def markTcpDown : PathManager := { m with tcp := none }

def tcpToken : Option Bytes := m.tcp.map TcpPath.token

def select : Path :=
  match m.preferTcp, m.tcp with
  | true, some t => .tcp t.addr t.offer
  | _, _ => .quic

end PathManager

/-! ## 2. The calls and the control loop -/

inductive Call where
  | begun
  | selected (addr : SocketAddr) (offer : Nat)
  | dialling (offer : Nat)
  | failed (offer : Nat)
  | quic
  | tcp

inductive Output where
  | dialled (addr : SocketAddr) (token : Bytes)
  | withdrawn (own offer : Nat)
  deriving DecidableEq

def Call.advance (m : PathManager) (connected : Bool) : Call → PathManager × Call × List Output
  | .begun =>
    match m.select with
    | .quic => (m, .quic, [])
    | .tcp addr offer => (m, .selected addr offer, [])
  | .selected addr offer =>
    match m.tcpToken with
    | none => (m, .failed offer, [])
    | some token => (m, .dialling offer, [.dialled addr token])
  | .dialling offer => (m, if connected then .tcp else .failed offer, [])
  | .failed offer => (m.markTcpDown, .quic, m.tcp.toList.map fun t => .withdrawn offer t.offer)
  | .quic => (m, .quic, [])
  | .tcp => (m, .tcp, [])

structure Client where
  manager : PathManager
  calls : List Call
  offers : List (SocketAddr × Bytes)

def Client.new (preferTcp : Bool) : Client := ⟨.new preferTcp, [], []⟩

inductive Event where
  | tcpEndpointOffer (addresses : List String) (token : Bytes)
  | tcpPathDown
  | connectTarget
  | advance (call : Nat) (connected : Bool)

def step (parse : String → Option SocketAddr) (s : Client) : Event → Client × List Output
  | .tcpEndpointOffer addresses token =>
    match addresses.findSome? parse with
    | none => (s, [])
    | some addr =>
      ({ s with
          manager := s.manager.setTcp addr token s.offers.length,
          offers := s.offers ++ [(addr, token)] }, [])
  | .tcpPathDown => ({ s with manager := s.manager.markTcpDown }, [])
  | .connectTarget => ({ s with calls := s.calls ++ [.begun] }, [])
  | .advance call connected =>
    match s.calls[call]? with
    | none => (s, [])
    | some c =>
      let (manager, c, out) := c.advance s.manager connected
      ({ s with manager := manager, calls := s.calls.set call c }, out)

/-! ## 3. One offer for each dial -/

def Output.Bound (offers : List (SocketAddr × Bytes)) : Output → Prop
  | .dialled addr token => (addr, token) ∈ offers
  | .withdrawn own offer => offer = own

def Call.reliesOn : Call → Option Nat
  | .selected _ offer => some offer
  | .failed offer => some offer
  | _ => none

def Undisturbed (s : Client) : Event → Prop
  | .advance call _ =>
    ∀ c ∈ s.calls[call]?, ∀ offer ∈ c.reliesOn, ∀ t ∈ s.manager.tcp, t.offer = offer
  | _ => True

instance (s : Client) (e : Event) : Decidable (Undisturbed s e) :=
  match e with
  | .advance call _ => inferInstanceAs (Decidable (∀ c ∈ s.calls[call]?, ∀ offer ∈ c.reliesOn,
      ∀ t ∈ s.manager.tcp, t.offer = offer))
  | .tcpEndpointOffer _ _ => isTrue trivial
  | .tcpPathDown => isTrue trivial
  | .connectTarget => isTrue trivial

def Call.Numbered (offers : List (SocketAddr × Bytes)) : Call → Prop
  | .selected addr offer => ∃ token, offers[offer]? = some (addr, token)
  | _ => True

structure Numbered (s : Client) (log : List Output) : Prop where
  manager : ∀ t ∈ s.manager.tcp, s.offers[t.offer]? = some (t.addr, t.token)
  calls : ∀ c ∈ s.calls, c.Numbered s.offers
  log : ∀ o ∈ log, o.Bound s.offers

variable {offers : List (SocketAddr × Bytes)}

theorem getElem?_concat {offer : Nat} {x : SocketAddr × Bytes} (h : offers[offer]? = some x) (y : SocketAddr × Bytes) :
    (offers ++ [y])[offer]? = some x := by
  have hlt : offer < offers.length := (List.getElem?_eq_some_iff.mp h).1
  rw [List.getElem?_append_left hlt, h]

theorem Call.Numbered.concat {c : Call} (h : c.Numbered offers) (y : SocketAddr × Bytes) :
    c.Numbered (offers ++ [y]) := by
  cases c with
  | selected addr offer =>
    obtain ⟨token, hget⟩ := h
    exact ⟨token, getElem?_concat hget y⟩
  | begun | dialling offer | failed offer | quic | tcp => trivial

theorem Output.Bound.concat {o : Output} (h : o.Bound offers) (y : SocketAddr × Bytes) : o.Bound (offers ++ [y]) := by
  cases o with
  | dialled addr token => exact mem_append_left [y] h
  | withdrawn own offer => exact h

variable {log : List Output} {s : Client}

theorem Numbered.offer (h : Numbered s log) (addr : SocketAddr) (token : Bytes) :
    Numbered { s with manager := s.manager.setTcp addr token s.offers.length,
                      offers := s.offers ++ [(addr, token)] } log where
  manager t ht := by
    cases ht
    exact getElem?_concat_length
  calls c hc := (h.calls c hc).concat (addr, token)
  log o ho := (h.log o ho).concat (addr, token)

theorem select_tcp {m : PathManager} {addr : SocketAddr} {offer : Nat} (h : m.select = .tcp addr offer) :
    ∃ t ∈ m.tcp, t.addr = addr ∧ t.offer = offer := by
  unfold PathManager.select at h
  split at h
  · cases h
    exact ⟨_, ‹_›, rfl, rfl⟩
  · cases h

theorem Numbered.update (h : Numbered s log) {m : PathManager} (hmanager : ∀ t ∈ m.tcp, t ∈ s.manager.tcp)
    (call : Nat) (c : Call) (hcall : c.Numbered s.offers) {out : List Output} (hout : ∀ o ∈ out, o.Bound s.offers) :
    Numbered { s with manager := m, calls := s.calls.set call c } (log ++ out) where
  manager t ht := h.manager t (hmanager t ht)
  calls d hd := by
    rcases mem_or_eq_of_mem_set hd with hd | rfl
    · exact h.calls d hd
    · exact hcall
  log o ho := (mem_append.mp ho).elim (h.log o) (hout o)

theorem Numbered.advance (h : Numbered s log) {call : Nat} {c : Call} (hcall : s.calls[call]? = some c)
    (connected : Bool) (hundisturbed : ∀ offer ∈ c.reliesOn, ∀ t ∈ s.manager.tcp, t.offer = offer) :
    Numbered { s with manager := (c.advance s.manager connected).1,
                      calls := s.calls.set call (c.advance s.manager connected).2.1 }
      (log ++ (c.advance s.manager connected).2.2) := by
  have hkeep : ∀ t ∈ s.manager.tcp, t ∈ s.manager.tcp := fun t ht => ht
  have hsilent : ∀ o ∈ ([] : List Output), o.Bound s.offers := forall_mem_nil _
  cases c with
  | begun =>
    unfold Call.advance
    cases hselect : s.manager.select with
    | quic => exact h.update hkeep call .quic trivial hsilent
    | tcp addr offer =>
      obtain ⟨t, ht, rfl, rfl⟩ := select_tcp hselect
      exact h.update hkeep call (.selected t.addr t.offer) ⟨t.token, h.manager t ht⟩ hsilent
  | selected addr offer =>
    unfold Call.advance
    cases htcp : s.manager.tcp with
    | none =>
      rw [show s.manager.tcpToken = none by rw [PathManager.tcpToken, htcp]; rfl]
      exact h.update hkeep call (.failed offer) trivial hsilent
    | some t =>
      rw [show s.manager.tcpToken = some t.token by rw [PathManager.tcpToken, htcp]; rfl]
      -- the token is that of the offer with the number the call goes by, and so is the address
      have hsame : t.offer = offer := hundisturbed offer rfl t htcp
      have hoffer := h.manager t htcp
      obtain ⟨token, hselected⟩ := h.calls _ (mem_of_getElem? hcall)
      rw [hsame, hselected] at hoffer
      cases hoffer
      refine h.update hkeep call (.dialling offer) trivial fun o ho => ?_
      rw [mem_singleton.mp ho]
      exact mem_of_getElem? hselected
  | dialling offer =>
    cases connected with
    | true => exact h.update hkeep call .tcp trivial hsilent
    | false => exact h.update hkeep call (.failed offer) trivial hsilent
  | failed offer =>
    refine h.update (m := s.manager.markTcpDown) nofun call .quic trivial fun o ho => ?_
    obtain ⟨t, ht, rfl⟩ := mem_map.mp ho
    exact hundisturbed offer rfl t (Option.mem_toList.mp ht)
  | quic => exact h.update hkeep call .quic trivial hsilent
  | tcp => exact h.update hkeep call .tcp trivial hsilent

theorem step_numbered (parse : String → Option SocketAddr) (h : Numbered s log) {e : Event}
    (hundisturbed : Undisturbed s e) : Numbered (step parse s e).1 (log ++ (step parse s e).2) := by
  cases e with
  | tcpEndpointOffer addresses token =>
    unfold step
    dsimp only
    cases addresses.findSome? parse with
    | none => exact (append_nil log).symm ▸ h
    | some addr => exact (append_nil log).symm ▸ h.offer addr token
  | tcpPathDown => exact (append_nil log).symm ▸ ⟨nofun, h.calls, h.log⟩
  | connectTarget =>
    refine (append_nil log).symm ▸ ⟨h.manager, fun c hc => ?_, h.log⟩
    rcases mem_concat.mp hc with hc | rfl
    · exact h.calls c hc
    · trivial
  | advance call connected =>
    unfold step
    dsimp only
    cases hcall : s.calls[call]? with
    | none => exact (append_nil log).symm ▸ h
    | some c => exact h.advance hcall connected (hundisturbed c hcall)

theorem new_numbered (preferTcp : Bool) : Numbered (.new preferTcp) [] where
  manager _ ht := by cases ht
  calls := forall_mem_nil _
  log := forall_mem_nil _

/-- **Every dial is bound to one offer**, as long as no call goes on with another offer in place of its own. -/
theorem dials_bound (parse : String → Option SocketAddr) (preferTcp : Bool) (events : List Event)
    (h : Along (step parse) Undisturbed (.new preferTcp) events) :
    ∀ o ∈ (run (step parse) (.new preferTcp) events).2, o.Bound (run (step parse) (.new preferTcp) events).1.offers :=
  (run_inv (I := Numbered) (new_numbered preferTcp)
    (fun _ _ _ hnumbered hstep => step_numbered parse hnumbered hstep) h).log

def parseTwo (s : String) : Option SocketAddr :=
  if s = "1.1.1.1:443" then some (.v4 ⟨1, 443⟩) else if s = "2.2.2.2:443" then some (.v4 ⟨2, 443⟩) else none

def oneOffer : List Event :=
  [.tcpEndpointOffer ["here", "1.1.1.1:443"] [1], .connectTarget, .advance 0 true, .advance 0 true,
    .advance 0 false, .advance 0 true]

theorem dials_bound_one : Along (step parseTwo) Undisturbed (.new true) oneOffer ∧
      (run (step parseTwo) (.new true) oneOffer).2 = [.dialled (.v4 ⟨1, 443⟩) [1], .withdrawn 0 0] ∧
      ∀ o ∈ (run (step parseTwo) (.new true) oneOffer).2,
        o.Bound (run (step parseTwo) (.new true) oneOffer).1.offers :=
  have h : Along (step parseTwo) Undisturbed (.new true) oneOffer := by decide
  ⟨h, by decide, dials_bound parseTwo true oneOffer h⟩

/-- **A second offer meanwhile**: its token is presented at the first's address; or it is withdrawn when the first
fails. -/
theorem dials_unbound : (run (step parseTwo) (.new true)
        [.tcpEndpointOffer ["1.1.1.1:443"] [1], .connectTarget, .advance 0 true,
          .tcpEndpointOffer ["2.2.2.2:443"] [2], .advance 0 true]).2 = [.dialled (.v4 ⟨1, 443⟩) [2]] ∧
      ¬ Output.Bound [(.v4 ⟨1, 443⟩, [1]), (.v4 ⟨2, 443⟩, [2])] (.dialled (.v4 ⟨1, 443⟩) [2]) ∧
      (run (step parseTwo) (.new true)
        [.tcpEndpointOffer ["1.1.1.1:443"] [1], .connectTarget, .advance 0 true, .advance 0 true,
          .tcpEndpointOffer ["2.2.2.2:443"] [2], .advance 0 false, .advance 0 true]).2 =
        [.dialled (.v4 ⟨1, 443⟩) [1], .withdrawn 0 1] := by
  refine ⟨by decide, ?_, by decide⟩
  show (SocketAddr.v4 ⟨1, 443⟩, ([2] : Bytes)) ∉ [(SocketAddr.v4 ⟨1, 443⟩, [1]), (.v4 ⟨2, 443⟩, [2])]
  decide

end Shadowsocks.Realm.Paths
