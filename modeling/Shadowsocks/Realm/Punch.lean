/-
  Subject:   HOLE PUNCHING: the `HYRLMv1` packets and the Hello/Ack loop (`crates/shadowsocks-realm/src/punch.rs`).
  The network may hand the endpoint any bytes; all that is asked of it (`KeyHolders`) is that a packet which decodes
  was built by a holder of the nonce and the key. SHA-256 is a parameter.
-/
import Shadowsocks.Server.Association

namespace Shadowsocks.Realm.Punch

open Lib List Outcome

/-! ## 1. The packets -/

def saltLen : Nat := 8

def nonceLen : Nat := 16

def obfsLen : Nat := 32

def headerLen : Nat := 25

def minWireLen : Nat := saltLen + headerLen

def maxPadding : Nat := 1024

def maxWireLen : Nat := minWireLen + maxPadding

def hyrlmMagic : Bytes := [0x48, 0x59, 0x52, 0x4c, 0x4d, 0x76, 0x31, 0x00]

abbrev Block (n : Nat) := { bytes : Bytes // bytes.length = n }

inductive PunchType where
  | hello
  | ack

namespace PunchType

def toU8 : PunchType → UInt8
  | .hello => 0x01
  | .ack => 0x02

def fromU8 (b : UInt8) : Option PunchType :=
  if b = 0x01 then some .hello else if b = 0x02 then some .ack else none

@[simp] theorem fromU8_toU8 (ptype : PunchType) : fromU8 ptype.toU8 = some ptype := by
  cases ptype <;> rfl

theorem toU8_of_fromU8 {b : UInt8} {ptype : PunchType} (h : fromU8 b = some ptype) : ptype.toU8 = b := by
  unfold fromU8 at h
  split at h
  · cases h
    exact Eq.symm ‹_›
  · split at h
    · cases h
      exact Eq.symm ‹_›
    · cases h

end PunchType

inductive Error where
  | punch (reason : String)
  | punchTimeout
  | ioError
  deriving DecidableEq

section

variable (sha256 : Bytes → Fin 32 → UInt8)

def mask (obfs : Block obfsLen) (salt : Block saltLen) : Fin 32 → UInt8 :=
  sha256 (obfs.1 ++ salt.1)

def applyMask (m : Fin 32 → UInt8) (payload : Bytes) : Bytes :=
  payload.mapIdx fun i b => b ^^^ m (Fin.ofNat 32 i)

def encodeWith (ptype : PunchType) (nonce : Block nonceLen) (obfs : Block obfsLen)
    (salt : Block saltLen) (padding : Bytes) : Bytes :=
  salt.1 ++ applyMask (mask sha256 obfs salt) (hyrlmMagic ++ ptype.toU8 :: (nonce.1 ++ padding))

structure Draw where
  salt : Block saltLen
  padding : { padding : Bytes // padding.length ≤ maxPadding }

def encode (ptype : PunchType) (nonce : Block nonceLen) (obfs : Block obfsLen) (draw : Draw) : Bytes :=
  encodeWith sha256 ptype nonce obfs draw.salt draw.padding.1

theorem length_take_saltLen {packet : Bytes} (h : minWireLen ≤ packet.length) :
    (packet.take saltLen).length = saltLen := by
  rw [length_take]
  exact min_eq_left (le_trans (by decide) h)

def decode (packet : Bytes) (nonce : Block nonceLen) (obfs : Block obfsLen) :
    Except Error (PunchType × Nat) :=
  if h : minWireLen ≤ packet.length ∧ packet.length ≤ maxWireLen then
    let body := applyMask (mask sha256 obfs ⟨packet.take saltLen, length_take_saltLen h.1⟩)
      (packet.drop saltLen)
    if body.take 8 ≠ hyrlmMagic then .error (.punch "bad magic")
    else
      match PunchType.fromU8 (body.getD 8 0) with
      | none => .error (.punch "bad type")
      | some ptype =>
        if (body.drop 9).take nonceLen ≠ nonce.1 then .error (.punch "nonce mismatch")
        else .ok (ptype, body.length - headerLen)
  else .error (.punch ("bad length " ++ toString packet.length))

def decodeIndexed (packet : Bytes) (nonce : Block nonceLen) (obfs : Block obfsLen) :
    Outcome Error (PunchType × Nat) :=
  if minWireLen ≤ packet.length ∧ packet.length ≤ maxWireLen then do
    let salt ← slice 0 saltLen packet
    let payload ← slice saltLen packet.length packet
    let body := applyMask (sha256 (obfs.1 ++ salt)) payload
    let magic ← slice 0 8 body
    if magic ≠ hyrlmMagic then .err (.punch "bad magic")
    else do
      let tag ← slice 8 9 body
      match PunchType.fromU8 (tag.headD 0) with
      | none => .err (.punch "bad type")
      | some ptype => do
        let read ← slice 9 headerLen body
        if read ≠ nonce.1 then .err (.punch "nonce mismatch")
        else if headerLen ≤ body.length then .ok (ptype, body.length - headerLen) else .panic
  else .err (.punch ("bad length " ++ toString packet.length))

end

@[simp] theorem applyMask_length (m : Fin 32 → UInt8) (payload : Bytes) :
    (applyMask m payload).length = payload.length := by
  simp [applyMask]

@[simp] theorem applyMask_applyMask (m : Fin 32 → UInt8) (payload : Bytes) :
    applyMask m (applyMask m payload) = payload := by
  apply ext_getElem
  · simp
  · intro i h h'
    simp only [applyMask, getElem_mapIdx, UInt8.xor_assoc, UInt8.xor_self, UInt8.xor_zero]

section

variable {sha256 : Bytes → Fin 32 → UInt8} {nonce : Block nonceLen} {obfs : Block obfsLen} (ptype : PunchType)

theorem encodeWith_length (salt : Block saltLen) (padding : Bytes) :
    (encodeWith sha256 ptype nonce obfs salt padding).length = minWireLen + padding.length := by
  have hs : salt.1.length = 8 := salt.2
  have hn : nonce.1.length = 16 := nonce.2
  simp only [encodeWith, length_append, applyMask_length, length_cons, hs, hn, hyrlmMagic,
    minWireLen, saltLen, headerLen, length_nil]
  omega

theorem decode_encodeWith (salt : Block saltLen) {padding : Bytes} (hpad : padding.length ≤ maxPadding) :
    decode sha256 (encodeWith sha256 ptype nonce obfs salt padding) nonce obfs = .ok (ptype, padding.length) := by
  have hlen : (encodeWith sha256 ptype nonce obfs salt padding).length = minWireLen + padding.length :=
    encodeWith_length ptype salt padding
  have hwire : minWireLen ≤ (encodeWith sha256 ptype nonce obfs salt padding).length ∧
      (encodeWith sha256 ptype nonce obfs salt padding).length ≤ maxWireLen := by
    rw [hlen]
    exact ⟨Nat.le_add_right _ _, Nat.add_le_add_left hpad _⟩
  have htake : (encodeWith sha256 ptype nonce obfs salt padding).take saltLen = salt.1 := by
    simp only [encodeWith, ← salt.2, take_left]
  have hdrop : (encodeWith sha256 ptype nonce obfs salt padding).drop saltLen =
      applyMask (mask sha256 obfs salt) (hyrlmMagic ++ ptype.toU8 :: (nonce.1 ++ padding)) := by
    simp only [encodeWith, ← salt.2, drop_left]
  have hn : nonce.1.length = nonceLen := nonce.2
  simp only [decode, hwire, and_self, ↓reduceDIte, htake, hdrop, Subtype.coe_eta, applyMask_applyMask]
  simp [hyrlmMagic, ← hn, headerLen]
  rw [hn]
  simp only [nonceLen]
  omega

theorem decode_encode (draw : Draw) :
    decode sha256 (encode sha256 ptype nonce obfs draw) nonce obfs = .ok (ptype, draw.padding.1.length) :=
  decode_encodeWith ptype draw.salt draw.padding.2

theorem decode_ok_length {packet : Bytes} {x : PunchType × Nat}
    (h : decode sha256 packet nonce obfs = .ok x) : packet.length ≤ maxWireLen := by
  unfold decode at h
  split at h
  case isTrue hwire => exact hwire.2
  case isFalse => cases h

variable {packet : Bytes}

theorem encoded_of_decode {ptype : PunchType} {n : Nat} (h : decode sha256 packet nonce obfs = .ok (ptype, n)) :
    ∃ (salt : Block saltLen) (padding : Bytes), padding.length = n ∧ padding.length ≤ maxPadding ∧
      packet = encodeWith sha256 ptype nonce obfs salt padding := by
  unfold decode at h
  split at h
  case isFalse => cases h
  case isTrue hwire =>
    obtain ⟨body, hbody⟩ : ∃ body, applyMask (mask sha256 obfs ⟨packet.take saltLen, length_take_saltLen hwire.1⟩)
      (packet.drop saltLen) = body := ⟨_, rfl⟩
    have hlen : body.length = packet.length - saltLen := by rw [← hbody, applyMask_length, length_drop]
    have hbound : body.length ≤ maxWireLen - saltLen := by rw [hlen]; exact Nat.sub_le_sub_right hwire.2 _
    have height : 8 < body.length := by rw [hlen]; exact Nat.lt_sub_of_add_lt (lt_of_lt_of_le (by decide) hwire.1)
    simp only [hbody] at h
    split at h
    · cases h
    rename_i hmagic
    split at h
    · cases h
    rename_i ptype' htype
    split at h
    · cases h
    · rename_i hnonce
      cases h
      refine ⟨⟨packet.take saltLen, length_take_saltLen hwire.1⟩, body.drop headerLen, length_drop,
        by rw [length_drop]; exact Nat.sub_le_sub_right hbound headerLen, ?_⟩
      rw [getD_eq_getElem _ _ height] at htype
      have hsplit : hyrlmMagic ++ ptype.toU8 :: (nonce.1 ++ body.drop headerLen) = body := by
        rw [← not_not.mp hmagic, ← not_not.mp hnonce, PunchType.toU8_of_fromU8 htype,
          show headerLen = 9 + nonceLen from rfl, ← drop_drop, take_append_drop, getElem_cons_drop,
          take_append_drop]
      rw [encodeWith, hsplit, ← hbody, applyMask_applyMask, take_append_drop]

theorem decodeIndexed_eq : decodeIndexed sha256 packet nonce obfs = .ofExcept (decode sha256 packet nonce obfs) := by
  unfold decodeIndexed decode
  by_cases hwire : minWireLen ≤ packet.length ∧ packet.length ≤ maxWireLen
  · have hsalt : saltLen ≤ packet.length := le_trans (by decide) hwire.1
    rw [if_pos hwire, dif_pos hwire, slice_ok zero_le hsalt, ok_bind, slice_ok hsalt (le_refl _),
      ok_bind, take_length, drop_zero, mask]
    dsimp only
    generalize hbody : applyMask (sha256 (obfs.1 ++ packet.take saltLen)) (packet.drop saltLen) = body
    have hlen : headerLen ≤ body.length := by
      rw [← hbody, applyMask_length, length_drop]
      exact Nat.le_sub_of_add_le (by rw [add_comm]; exact hwire.1)
    have htag : ((body.take 9).drop 8).headD 0 = body.getD 8 0 := by
      simp [headD_eq_head?_getD, head?_drop, getD_eq_getElem?_getD]
    have hread : (body.take headerLen).drop 9 = (body.drop 9).take nonceLen := drop_take
    rw [slice_ok zero_le (le_trans (by decide) hlen), ok_bind, drop_zero,
      slice_ok (by decide) (le_trans (by decide) hlen), ok_bind, htag]
    split
    · rfl
    · split
      · rfl
      · rw [slice_ok (by decide) hlen, ok_bind, hread]
        split <;> rfl
  · rw [if_neg hwire, dif_neg hwire]
    rfl

/-- **What decodes is what was encoded**, and no read is out of range. -/
theorem decode_exact (sha256 : Bytes → Fin 32 → UInt8) (packet : Bytes) (nonce : Block nonceLen) (obfs : Block obfsLen) :
    decodeIndexed sha256 packet nonce obfs ≠ .panic ∧
      ∀ ptype n, decodeIndexed sha256 packet nonce obfs = .ok (ptype, n) ↔
        ∃ (salt : Block saltLen) (padding : Bytes), padding.length = n ∧ padding.length ≤ maxPadding ∧
          packet = encodeWith sha256 ptype nonce obfs salt padding := by
  rw [decodeIndexed_eq]
  refine ⟨ofExcept_ne_panic _, fun ptype n => ?_⟩
  rw [ofExcept_ok_iff]
  refine ⟨encoded_of_decode, ?_⟩
  rintro ⟨salt, padding, rfl, hpad, rfl⟩
  exact decode_encodeWith ptype salt hpad

end

/-! ## 2. The loop -/

def mapToSocketFamily (localIsV6 : Bool) : SocketAddr → SocketAddr
  | .v4 a => if localIsV6 then .v6 ⟨Server.toIpv6Mapped a.ip, a.port, 0, 0⟩ else .v4 a
  | .v6 a => .v6 a

structure Config where
  sha256 : Bytes → Fin 32 → UInt8
  localIsV6 : Bool
  peers : List SocketAddr
  nonce : Block nonceLen
  obfs : Block obfsLen
  deadline : Nat

def Config.targets (c : Config) : List SocketAddr :=
  (c.peers.filter fun p => c.localIsV6 || Server.SocketAddr.isV4 p).map (mapToSocketFamily c.localIsV6)

inductive Phase where
  | looping
  | receiving
  | done (result : Except Error SocketAddr)
  deriving DecidableEq

structure Endpoint where
  lastSend : Option Nat
  confirmed : Option SocketAddr
  phase : Phase

def Endpoint.start (targets : List SocketAddr) : Endpoint :=
  ⟨none, none, if targets.isEmpty then .done (.error .punchTimeout) else .looping⟩

structure Sent where
  ptype : PunchType
  packet : Bytes
  dest : SocketAddr

inductive Received where
  | timedOut
  | failed
  | packet (data : Bytes) (src : SocketAddr)

def Endpoint.head (c : Config) (s : Endpoint) (now sentAt : Nat) (draw : Draw) : Endpoint × List Sent :=
  if now < c.deadline ∧ s.confirmed = none then
    if s.lastSend.all fun t => 250 < now - t then
      ({ s with lastSend := some sentAt, phase := .receiving },
        c.targets.map fun p => ⟨.hello, encode c.sha256 .hello c.nonce c.obfs draw, p⟩)
    else ({ s with phase := .receiving }, [])
  else
    match s.confirmed with
    | none => ({ s with phase := .done (.error .punchTimeout) }, [])
    | some peer =>
      ({ s with phase := .done (.ok peer) }, replicate 5 ⟨.ack, encode c.sha256 .ack c.nonce c.obfs draw, peer⟩)

def bufLen : Nat := 2048

def Endpoint.answer (c : Config) (s : Endpoint) (src : SocketAddr) (draw : Draw) :
    Except Error (PunchType × Nat) → Endpoint × List Sent
  | .ok (.hello, _) =>
    ({ s with phase := .looping }, [⟨.ack, encode c.sha256 .ack c.nonce c.obfs draw, src⟩])
  | .ok (.ack, _) => ({ s with confirmed := some src, phase := .looping }, [])
  | .error _ => ({ s with phase := .looping }, [])

def Endpoint.receive (c : Config) (s : Endpoint) (r : Received) (draw : Draw) : Endpoint × List Sent :=
  match r with
  | .timedOut => ({ s with phase := .looping }, [])
  | .failed => ({ s with phase := .done (.error .ioError) }, [])
  | .packet data src => s.answer c src draw (decode c.sha256 (data.take bufLen) c.nonce c.obfs)

/-! ## 3. The endpoint in a hostile network -/

inductive Party where
  | own
  | peer

structure Built where
  party : Party
  ptype : PunchType
  packet : Bytes

structure World where
  endpoint : Endpoint
  built : List Built

inductive Event where
  | peer (ptype : PunchType) (draw : Draw)
  | head (now sentAt : Nat) (draw : Draw)
  | receive (r : Received) (draw : Draw)

def World.move (w : World) (r : Endpoint × List Sent) : World :=
  ⟨r.1, w.built ++ r.2.map fun s => ⟨.own, s.ptype, s.packet⟩⟩

def Received.log : Received → List (Bytes × SocketAddr)
  | .packet data src => [(data, src)]
  | _ => []

def step (c : Config) (w : World) : Event → World × List (Bytes × SocketAddr)
  | .peer ptype draw =>
    ({ w with built := w.built ++ [⟨.peer, ptype, encode c.sha256 ptype c.nonce c.obfs draw⟩] }, [])
  | .head now sentAt draw =>
    if w.endpoint.phase = .looping then (w.move (w.endpoint.head c now sentAt draw), []) else (w, [])
  | .receive r draw =>
    if w.endpoint.phase = .receiving then (w.move (w.endpoint.receive c r draw), r.log) else (w, [])

def World.start (c : Config) : World := ⟨.start c.targets, []⟩

def KeyHolders (c : Config) (w : World) : Event → Prop
  | .receive (.packet data _) _ =>
    (decode c.sha256 data c.nonce c.obfs).isOk → ∃ b ∈ w.built, b.packet = data
  | _ => True

instance (c : Config) (w : World) : (e : Event) → Decidable (KeyHolders c w e)
  | .receive (.packet _ _) _ => inferInstanceAs (Decidable (_ → _))
  | .receive .timedOut _ => isTrue trivial
  | .receive .failed _ => isTrue trivial
  | .peer _ _ => isTrue trivial
  | .head _ _ _ => isTrue trivial

section

variable {c : Config}

theorem head_spec (s : Endpoint) (now sentAt : Nat) (draw : Draw) :
    (s.head c now sentAt draw).1.confirmed = s.confirmed ∧
      (∀ a, (s.head c now sentAt draw).1.phase = .done (.ok a) → s.confirmed = some a) ∧
      ∀ x ∈ (s.head c now sentAt draw).2, x.packet = encode c.sha256 x.ptype c.nonce c.obfs draw := by
  unfold Endpoint.head
  by_cases hloop : now < c.deadline ∧ s.confirmed = none
  · rw [if_pos hloop]
    by_cases hdue : (s.lastSend.all fun t => 250 < now - t) = true
    · rw [if_pos hdue]
      refine ⟨rfl, nofun, fun x hx => ?_⟩
      obtain ⟨p, _, rfl⟩ := mem_map.mp hx
      rfl
    · rw [if_neg hdue]
      exact ⟨rfl, nofun, nofun⟩
  rw [if_neg hloop]
  cases hconf : s.confirmed with
  | none => exact ⟨rfl, nofun, nofun⟩
  | some peer =>
    refine ⟨rfl, fun a h => ?_, fun x hx => ?_⟩
    · cases h
      rfl
    · rw [eq_of_mem_replicate hx]

theorem receive_spec (s : Endpoint) (r : Received) (draw : Draw) : ((s.receive c r draw).1.confirmed = s.confirmed ∨
        ∃ data src n, r = .packet data src ∧ decode c.sha256 (data.take bufLen) c.nonce c.obfs = .ok (.ack, n) ∧
          (s.receive c r draw).1.confirmed = some src) ∧
      (∀ a, (s.receive c r draw).1.phase ≠ .done (.ok a)) ∧
      ∀ x ∈ (s.receive c r draw).2, x.packet = encode c.sha256 x.ptype c.nonce c.obfs draw := by
  cases r with
  | timedOut | failed => exact ⟨.inl rfl, nofun, nofun⟩
  | packet data src =>
    simp only [Endpoint.receive]
    cases hdec : decode c.sha256 (data.take bufLen) c.nonce c.obfs with
    | error e =>
      exact ⟨.inl rfl, nofun, nofun⟩
    | ok v =>
      obtain ⟨ptype, n⟩ := v
      cases ptype with
      | hello =>
        refine ⟨.inl rfl, nofun, fun x hx => ?_⟩
        rw [mem_singleton.mp hx]
      | ack =>
        refine ⟨.inr ⟨data, src, n, rfl, hdec, rfl⟩, nofun, fun x hx => ?_⟩
        cases hx

def AckFrom (w : World) (log : List (Bytes × SocketAddr)) (a : SocketAddr) : Prop :=
  ∃ b ∈ w.built, b.ptype = .ack ∧ (b.packet, a) ∈ log

theorem AckFrom.mono {w w' : World} {log log' : List (Bytes × SocketAddr)} {a : SocketAddr}
    (h : AckFrom w log a) (hb : w.built ⊆ w'.built) (hl : log ⊆ log') : AckFrom w' log' a := by
  obtain ⟨b, hmem, hack, hfrom⟩ := h
  exact ⟨b, hb hmem, hack, hl hfrom⟩

structure Inv (c : Config) (w : World) (log : List (Bytes × SocketAddr)) : Prop where
  built : ∀ b ∈ w.built, ∃ draw, b.packet = encode c.sha256 b.ptype c.nonce c.obfs draw
  confirmed : ∀ a, w.endpoint.confirmed = some a → AckFrom w log a
  result : ∀ a, w.endpoint.phase = .done (.ok a) → w.endpoint.confirmed = some a

theorem inv_start (c : Config) : Inv c (.start c) [] where
  built := nofun
  confirmed := fun a h => by cases h
  result := by
    intro a h
    simp only [World.start, Endpoint.start] at h
    split at h <;> cases h

theorem Inv.ack {w : World} {log : List (Bytes × SocketAddr)} (hI : Inv c w log) {data : Bytes}
    {src : SocketAddr} {draw : Draw} {n : Nat} (hkey : KeyHolders c w (.receive (.packet data src) draw))
    (hdec : decode c.sha256 (data.take bufLen) c.nonce c.obfs = .ok (.ack, n)) :
    ∃ b ∈ w.built, b.ptype = .ack ∧ b.packet = data := by
  have htake : data.take bufLen = data := by
    apply take_of_length_le
    have hle := decode_ok_length hdec
    rw [length_take] at hle
    have hbuf : maxWireLen < bufLen := by decide
    omega
  rw [htake] at hdec
  obtain ⟨b, hb, hpacket⟩ := hkey (by rw [hdec]; rfl)
  obtain ⟨draw', hbuilt⟩ := hI.built b hb
  -- what was built decodes as it was built, so the type read is the type written
  have hround : decode c.sha256 (encode c.sha256 b.ptype c.nonce c.obfs draw') c.nonce c.obfs =
      .ok (b.ptype, draw'.padding.1.length) := decode_encode b.ptype draw'
  rw [← hbuilt, hpacket, hdec] at hround
  injection hround with hpair
  injection hpair with htype _
  exact ⟨b, hb, htype.symm, hpacket⟩

theorem built_move {w : World} {r : Endpoint × List Sent} {draw : Draw}
    (hw : ∀ b ∈ w.built, ∃ draw, b.packet = encode c.sha256 b.ptype c.nonce c.obfs draw)
    (hr : ∀ x ∈ r.2, x.packet = encode c.sha256 x.ptype c.nonce c.obfs draw) :
    ∀ b ∈ (w.move r).built, ∃ draw, b.packet = encode c.sha256 b.ptype c.nonce c.obfs draw := by
  intro b hb
  rcases mem_append.mp hb with hold | hnew
  · exact hw b hold
  · obtain ⟨x, hx, rfl⟩ := mem_map.mp hnew
    exact ⟨draw, hr x hx⟩

theorem step_inv (w : World) (log : List (Bytes × SocketAddr)) (e : Event) (hI : Inv c w log)
    (hkey : KeyHolders c w e) : Inv c (step c w e).1 (log ++ (step c w e).2) := by
  cases e with
  | peer ptype draw =>
    refine ⟨fun b hb => ?_, fun a h => ?_, hI.result⟩
    · rcases mem_append.mp hb with hold | hnew
      · exact hI.built b hold
      · exact ⟨draw, by rw [mem_singleton.mp hnew]⟩
    · exact (hI.confirmed a h).mono (subset_append_left _ _) (subset_append_left _ _)
  | head now sentAt draw =>
    simp only [step]
    split
    case isFalse => simpa using hI
    case isTrue =>
        obtain ⟨hconf, hresult, hsent⟩ := head_spec (c := c) w.endpoint now sentAt draw
        refine ⟨built_move hI.built hsent, fun a h => ?_, fun a h => ?_⟩
        · have hold : w.endpoint.confirmed = some a := hconf.symm.trans h
          exact (hI.confirmed a hold).mono (subset_append_left _ _) (subset_append_left _ _)
        · exact hconf.trans (hresult a h)
  | receive r draw =>
    simp only [step]
    split
    case isFalse => simpa using hI
    case isTrue =>
        obtain ⟨hconf, hresult, hsent⟩ := receive_spec (c := c) w.endpoint r draw
        refine ⟨built_move hI.built hsent, fun a h => ?_, fun a h => absurd h (hresult a)⟩
        rcases hconf with hsame | ⟨data, src, n, rfl, hdec, hsrc⟩
        · have hold : w.endpoint.confirmed = some a := hsame.symm.trans h
          exact (hI.confirmed a hold).mono (subset_append_left _ _) (subset_append_left _ _)
        obtain ⟨b, hb, hack, rfl⟩ := hI.ack hkey hdec
        have hsrc' : src = a := Option.some.inj (hsrc.symm.trans h)
        refine ⟨b, mem_append_left _ hb, hack, mem_append_right _ ?_⟩
        rw [hsrc']
        exact mem_singleton_self _

/-- **An address is returned only after an Ack of a key holder came from it**, whatever the network does. -/
theorem ok_only_by_ack (c : Config) (events : List Event) (a : SocketAddr)
    (hkey : Along (step c) (KeyHolders c) (.start c) events)
    (hok : (run (step c) (.start c) events).1.endpoint.phase = .done (.ok a)) :
    ∃ b ∈ (run (step c) (.start c) events).1.built,
      b.ptype = .ack ∧ (b.packet, a) ∈ (run (step c) (.start c) events).2 := by
  have hI := run_inv (I := Inv c) (inv_start c) step_inv hkey
  exact hI.confirmed a (hI.result a hok)

end

section

variable (sha256 : Bytes → Fin 32 → UInt8)

def zeroConfig : Config where
  sha256 := sha256
  localIsV6 := false
  peers := [.v4 ⟨0xcb007101, 4500⟩]
  nonce := ⟨replicate 16 0, rfl⟩
  obfs := ⟨replicate 32 0, rfl⟩
  deadline := 10000

def zeroDraw : Draw := ⟨⟨replicate 8 0, rfl⟩, ⟨[], zero_le⟩⟩

def zeroPacket (ptype : PunchType) : Bytes :=
  encode sha256 ptype (zeroConfig sha256).nonce (zeroConfig sha256).obfs zeroDraw

theorem step_zeroPacket {w : World} (h : w.endpoint.phase = .receiving) (ptype : PunchType) (src : SocketAddr) :
    step (zeroConfig sha256) w (.receive (.packet (zeroPacket sha256 ptype) src) zeroDraw) =
      (w.move (w.endpoint.answer (zeroConfig sha256) src zeroDraw (.ok (ptype, 0))),
        [(zeroPacket sha256 ptype, src)]) := by
  have hshort : (zeroPacket sha256 ptype).take bufLen = zeroPacket sha256 ptype := by
    apply take_of_length_le
    rw [zeroPacket, encode, encodeWith_length]
    decide
  have hdec : decode sha256 (zeroPacket sha256 ptype) (zeroConfig sha256).nonce (zeroConfig sha256).obfs =
      .ok (ptype, 0) := decode_encode ptype zeroDraw
  simp only [step, h, ↓reduceIte, Endpoint.receive, hshort, Received.log]
  rw [show (zeroConfig sha256).sha256 = sha256 from rfl, hdec]

def answered : List Event :=
  [.head 0 0 zeroDraw, .peer .ack zeroDraw,
    .receive (.packet (zeroPacket sha256 .ack) (.v4 ⟨0xcb007101, 4500⟩)) zeroDraw, .head 20 20 zeroDraw]

def elsewhere : SocketAddr := .v4 ⟨0xc6336407, 9⟩

def reflected : List Event :=
  [.head 0 0 zeroDraw, .receive (.packet (zeroPacket sha256 .hello) elsewhere) zeroDraw,
    .head 20 20 zeroDraw, .receive (.packet (zeroPacket sha256 .ack) elsewhere) zeroDraw,
    .head 40 40 zeroDraw]

def ownZero (ptype : PunchType) : Built := ⟨.own, ptype, zeroPacket sha256 ptype⟩

theorem reflected_run : Along (step (zeroConfig sha256)) (KeyHolders (zeroConfig sha256)) (.start (zeroConfig sha256))
        (reflected sha256) ∧
      run (step (zeroConfig sha256)) (.start (zeroConfig sha256)) (reflected sha256) =
        (⟨⟨some 0, some elsewhere, .done (.ok elsewhere)⟩,
            ownZero sha256 .hello :: replicate 6 (ownZero sha256 .ack)⟩,
          [(zeroPacket sha256 .hello, elsewhere), (zeroPacket sha256 .ack, elsewhere)]) := by
  have hfirst : step (zeroConfig sha256) (.start (zeroConfig sha256)) (.head 0 0 zeroDraw) =
      (⟨⟨some 0, none, .receiving⟩, [ownZero sha256 .hello]⟩, []) := rfl
  have hhello : step (zeroConfig sha256) ⟨⟨some 0, none, .receiving⟩, [ownZero sha256 .hello]⟩
      (.receive (.packet (zeroPacket sha256 .hello) elsewhere) zeroDraw) =
      (⟨⟨some 0, none, .looping⟩, [ownZero sha256 .hello, ownZero sha256 .ack]⟩,
        [(zeroPacket sha256 .hello, elsewhere)]) :=
    step_zeroPacket sha256 rfl .hello elsewhere
  have hagain : step (zeroConfig sha256)
      ⟨⟨some 0, none, .looping⟩, [ownZero sha256 .hello, ownZero sha256 .ack]⟩ (.head 20 20 zeroDraw) =
      (⟨⟨some 0, none, .receiving⟩, [ownZero sha256 .hello, ownZero sha256 .ack]⟩, []) := rfl
  have hack : step (zeroConfig sha256)
      ⟨⟨some 0, none, .receiving⟩, [ownZero sha256 .hello, ownZero sha256 .ack]⟩
      (.receive (.packet (zeroPacket sha256 .ack) elsewhere) zeroDraw) =
      (⟨⟨some 0, some elsewhere, .looping⟩, [ownZero sha256 .hello, ownZero sha256 .ack]⟩,
        [(zeroPacket sha256 .ack, elsewhere)]) :=
    step_zeroPacket sha256 rfl .ack elsewhere
  have hlast : step (zeroConfig sha256)
      ⟨⟨some 0, some elsewhere, .looping⟩, [ownZero sha256 .hello, ownZero sha256 .ack]⟩
      (.head 40 40 zeroDraw) =
      (⟨⟨some 0, some elsewhere, .done (.ok elsewhere)⟩,
        ownZero sha256 .hello :: replicate 6 (ownZero sha256 .ack)⟩, []) := rfl
  simp only [reflected, Along, run, hfirst, hhello, hagain, hack, hlast]
  refine ⟨⟨trivial, fun _ => ?_, trivial, fun _ => ?_, trivial, trivial⟩, rfl⟩
  · exact ⟨ownZero sha256 .hello, mem_singleton_self _, rfl⟩
  · exact ⟨ownZero sha256 .ack, mem_cons_of_mem _ (mem_singleton_self _), rfl⟩

end

theorem ok_only_by_ack_answered : ∃ b ∈ (run (step (zeroConfig fun _ _ => 0)) (.start (zeroConfig fun _ _ => 0))
        (answered fun _ _ => 0)).1.built,
      b.ptype = .ack ∧ (b.packet, .v4 ⟨0xcb007101, 4500⟩) ∈
          (run (step (zeroConfig fun _ _ => 0)) (.start (zeroConfig fun _ _ => 0)) (answered fun _ _ => 0)).2 :=
  ok_only_by_ack (zeroConfig fun _ _ => 0) (answered fun _ _ => 0) (.v4 ⟨0xcb007101, 4500⟩)
    (by decide +kernel) (by decide +kernel)

/-- **The endpoint can be made to confirm its own Ack**: no packet says who built it. -/
theorem ok_by_reflection :
    (∀ sha256, Along (step (zeroConfig sha256)) (KeyHolders (zeroConfig sha256)) (.start (zeroConfig sha256))
        (reflected sha256)) ∧
      (∀ sha256, (run (step (zeroConfig sha256)) (.start (zeroConfig sha256))
          (reflected sha256)).1.endpoint.phase = .done (.ok elsewhere)) ∧
      ∀ sha256, ∀ b ∈ (run (step (zeroConfig sha256)) (.start (zeroConfig sha256)) (reflected sha256)).1.built,
        b.party = .own := by
  refine ⟨fun sha256 => (reflected_run sha256).1, fun sha256 => ?_, fun sha256 b hb => ?_⟩
  · rw [(reflected_run sha256).2]
  rw [(reflected_run sha256).2] at hb
  rcases mem_cons.mp hb with rfl | hack
  · rfl
  · rw [eq_of_mem_replicate hack]
    rfl

end Shadowsocks.Realm.Punch
