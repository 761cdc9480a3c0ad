/-
  Subject:   THE HANDSHAKE OF A SERVER, FOR ALL METHODS (`ProxyServerStream::handshake` and
  `TcpRequestHeader::read_from`), and the table of users in it.
-/
import Shadowsocks.Lib.Answers
import Shadowsocks.Tcp.CryptoIo

namespace Shadowsocks.Tcp

open Lib

/-! ## 1. A table that is not looked at -/

namespace V2

variable {M : Method}

def DecryptedReader.withoutUsers (r : DecryptedReader M) : DecryptedReader M := { r with userManager := none }

def ReaderIo.withoutUsers (s : ReaderIo M) : ReaderIo M := { s with reader := s.reader.withoutUsers }

def CryptoStream.withoutUsers (s : CryptoStream M) : CryptoStream M := { s with dec := s.dec.withoutUsers }

def ProxyServerStream.withoutUsers (s : ProxyServerStream M) : ProxyServerStream M :=
  { s with stream := s.stream.withoutUsers }

section
variable (heih : methodSupportEih M.kind = false)
include heih

end

section
variable (heih : methodSupportEih M.kind = false)
include heih

end

end V2

/-! ## 2. All methods -/

inductive HandshakeError where
  | protocol (e : ProtocolError)
  | address (e : Socks5.Error)
  | aead2022 (e : V2.StreamError)
  deriving DecidableEq

def pollServer (K : CipherKind) (env : V2.ReadEnv) (cap : Nat) (s : ReaderIo K) :
    Poll HandshakeError Bytes × ReaderIo K :=
  match pollIn K env cap s with
  | (r, s') => (r.mapError .protocol, s')

structure Incoming where
  nonce : Bytes
  sock : ReadSock
  context : Context
  envs : List V2.ReadEnv

def handshake (K : CipherKind) (key : Bytes) (users : Option ServerUserManager) (c : Incoming) :
    Await HandshakeError Address :=
  match K with
  | .aead2022 M =>
    (V2.ProxyServerStream.handshake (.fromStreamWithUserManager M key c.nonce users c.sock c.context [])
      c.envs).1.mapError .aead2022
  | K =>
    (Address.readFrom (pollServer K) (.protocol (.ioError .unexpectedEof)) .address
      (.withUserManager K .server key users c.sock c.context) c.envs).1

def ServerStream : CipherKind → Type
  | .none => ReaderIo .none
  | .stream S => ReaderIo (.stream S)
  | .aead M => ReaderIo (.aead M)
  | .aead2022 M => V2.ProxyServerStream M

namespace ServerStream

def fromStreamWithUserManager : (K : CipherKind) → Bytes → Option ServerUserManager → Incoming → ServerStream K
  | .none, key, users, c => ReaderIo.withUserManager .none .server key users c.sock c.context
  | .stream S, key, users, c => ReaderIo.withUserManager (.stream S) .server key users c.sock c.context
  | .aead M, key, users, c => ReaderIo.withUserManager (.aead M) .server key users c.sock c.context
  | .aead2022 M, key, users, c =>
    V2.ProxyServerStream.fromStreamWithUserManager M key c.nonce users c.sock c.context []

def pollRead : (K : CipherKind) → V2.ReadEnv → Nat → ServerStream K → Poll HandshakeError Bytes × ServerStream K
  | .none, env, cap, s => pollServer .none env cap s
  | .stream S, env, cap, s => pollServer (.stream S) env cap s
  | .aead M, env, cap, s => pollServer (.aead M) env cap s
  | .aead2022 _, env, cap, s =>
    match V2.ProxyServerStream.pollRead env cap s with
    | (r, s') => (r.mapError .aead2022, s')

def eofError : CipherKind → HandshakeError
  | .aead2022 _ => .aead2022 V2.eofError
  | _ => .protocol (.ioError .unexpectedEof)

def handshake : (K : CipherKind) → Async (ServerStream K) V2.ReadEnv HandshakeError Address
  | .none => Address.readFrom (pollServer .none) (eofError .none) .address
  | .stream S => Address.readFrom (pollServer (.stream S)) (eofError (.stream S)) .address
  | .aead M => Address.readFrom (pollServer (.aead M)) (eofError (.aead M)) .address
  | .aead2022 _ => Async.mapError .aead2022 V2.ProxyServerStream.handshake

theorem pollServer_bounded (K : CipherKind) : Bounded (pollServer K) := by
  intro env cap s bs s' h
  have hready := Poll.mapError_ready.mp (congrArg Prod.fst h)
  exact pollIn_bounded K env cap s bs _ (Prod.ext hready rfl)

theorem pollRead_bounded (K : CipherKind) : Bounded (pollRead K) := by
  cases K with
  | none => exact pollServer_bounded .none
  | stream S => exact pollServer_bounded (.stream S)
  | aead M => exact pollServer_bounded (.aead M)
  | aead2022 M =>
    intro env cap s bs s' h
    have hready := Poll.mapError_ready.mp (congrArg Prod.fst h)
    exact V2.server_bounded env cap s bs _ (Prod.ext hready rfl)

end ServerStream

end Shadowsocks.Tcp
