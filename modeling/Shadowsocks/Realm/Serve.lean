/-
  Subject:   A SERVER ENTRY SERVED THROUGH A REALM AND BY AN ORDINARY LISTENER (`crates/shadowsocks/src/realm.rs`;
  `server/` of the service): which requests are accepted and which targets contacted. The list's decisions are two
  functions; the handshake timeout is left out.
-/
import Shadowsocks.Realm.UdpRelay
import Shadowsocks.Tcp.Handshake

namespace Shadowsocks.Realm

open Lib Udp List
open Server (wallClock recvOnePacket RecvEnv)
open Tcp (Incoming HandshakeError handshake)

/-! ## 1. The two ways to serve an entry -/

/-- What `AccessControl` decides: `check_client_blocked` and `check_outbound_blocked`. -/
structure AccessControl where
  checkClientBlocked : SocketAddr → Bool
  checkOutboundBlocked : Address → Bool

def AccessControl.none : AccessControl := ⟨fun _ => false, fun _ => false⟩

/-- A server entry: its methods, key, users and list, and how addresses are printed. -/
structure Entry where
  method : Tcp.CipherKind
  config : Server.Config
  acl : AccessControl
  showSocketAddr : SocketAddr → String

variable (e : Entry)

def Entry.relay : Config :=
  ⟨e.config.kind, e.config.key, e.config.users, e.showSocketAddr⟩

inductive Served where
  | dropped
  | refused (e : HandshakeError)
  | waiting
  | blocked (target : Address)
  | dialled (target : Address)
  deriving DecidableEq

/-- **A stream of a carrier**: a round of `serve_quic_only`. -/
def serveQuicOnly (r : Relay) (c : Incoming) : Relay × Served :=
  if r.running then
    match handshake e.method e.config.key none c with
    | .failed err => ({ r with running := false }, .refused err)
    | .waiting => (r, .waiting)
    | .done target => (r, .dialled target)
  else (r, .dropped)

def opened (now : Nat) (datagram : Bytes) : Option (Address × Bytes) :=
  match decryptClientPayload e.config.kind (wallClock now) e.config.key datagram e.config.users with
  | .ok (payload, target, _) => some (target, payload)
  | _ => none

variable (now : Nat) (datagram : Bytes) (peerAddr : SocketAddr)

/-- **The relay reaches a target**: it has a socket for it, or an IPv4 address is had and connects. -/
def Reaches (cfg : Config) (r : Relay) (dial : Dial) (target : Address) : Prop :=
  (r.pump (cfg.showAddress target)).isSome = true ∨
    ∃ addr ∈ resolveTarget dial target, dial.bound = true ∧ dial.connect addr = true

theorem serveUdpRelay_forwards {r : Relay} (hrunning : r.running = true) (now : Nat)
    {datagram : Bytes} (hlen : datagram.length ≤ bufferSize) (sender : Nat) (dial : Dial) (target : Address)
    (payload : Bytes) : (serveUdpRelay e.relay now r datagram sender dial).2 = some (target, payload) ↔
      opened e now datagram = some (target, payload) ∧ Reaches e.relay r dial target := by
  have hsame : decryptClientPayload e.relay.kind (wallClock now) e.relay.key datagram e.relay.users =
      decryptClientPayload e.config.kind (wallClock now) e.config.key datagram e.config.users := rfl
  rw [serveUdpRelay, opened, if_pos hrunning, take_of_length_le hlen, hsame]
  cases decryptClientPayload e.config.kind (wallClock now) e.config.key datagram e.config.users with
  | err err | panic => simp
  | ok x =>
    obtain ⟨data, asked, control⟩ := x
    dsimp only
    by_cases hasked : asked = target
    · subst hasked
      cases hpump : r.pump (e.relay.showAddress asked) with
      | some p => simp [Reaches, hpump]
      | none =>
        cases haddr : resolveTarget dial asked with
        | none => simp [Reaches, hpump, haddr]
        | some addr =>
          cases hbound : dial.bound with
          | false => simp [Reaches, hpump, haddr, hbound]
          | true => cases hconnect : dial.connect addr <;> simp [Reaches, hpump, haddr, hbound, hconnect]
    · -- whatever becomes of the datagram, it goes to no other target than the one asked for
      split
      · simp [hasked]
      · simp [hasked]
      · split
        · simp [hasked]
        · split <;> simp [hasked]

def strictEntry (users : Option ServerUserManager) : Entry where
  method := .aead2022 Tcp.V2.taggedMethod
  config := ⟨.aead2022 taggedMethod, keyOf 9, users, none, none, ⟨true, true, false⟩, 1⟩
  acl := ⟨fun _ => false, fun target => target == someTarget⟩
  showSocketAddr _ := "address"

def firstPacket (clientKey : Bytes) (identityKeys : List Bytes) : Incoming :=
  let setup : Tcp.V2.Setup := ⟨clientKey, identityKeys, keyOf 9, none, keyOf 2, keyOf 3⟩
  let client := setup.client Tcp.V2.taggedMethod someTarget [] Tcp.V2.emptyContext []
  ⟨keyOf 3, [.data (client.pollWrite [7] ⟨0, []⟩).2.stream.enc.wire], Tcp.V2.emptyContext,
    replicate 8 ⟨0, 0, Tcp.V2.emptyContext⟩⟩

end Shadowsocks.Realm
