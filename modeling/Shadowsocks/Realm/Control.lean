/-
  Subject:   THE CONTROL STREAM OF A CARRIER (`crates/shadowsocks-realm/src/control.rs`). The writer checks nothing;
  the reader does not look at what stands behind an offer, nor at the body of `TcpPathDown`.
-/
import Shadowsocks.Realm.DirectTcp
import Shadowsocks.Relay.Socks5

namespace Shadowsocks.Realm.Control

open Lib Lib.ReadCode DirectTcp List Outcome

def maxBody : Nat := 64 * 1024

inductive ControlMsg where
  | tcpEndpointOffer (addresses : List String) (token : Token)
  | tcpEndpointAck (accepted : Bool)
  | ping (ts : UInt64)
  | pong (ts : UInt64)
  | tcpPathDown

inductive Error where
  | rendezvous (text : String)
  | unexpectedEof
  | panicked

/-! ## 1. Messages -/

def ControlMsg.typeTag : ControlMsg → UInt8
  | .tcpEndpointOffer _ _ => 0x01
  | .tcpEndpointAck _ => 0x02
  | .ping _ => 0x03
  | .pong _ => 0x04
  | .tcpPathDown => 0x05

/-- The addresses of an offer; `as u16` cuts a length off. -/
def encodeAddresses (addresses : List String) : Bytes :=
  addresses.flatMap fun a => put16 (UInt16.ofNat (utf8Bytes a).length) ++ utf8Bytes a

def ControlMsg.encodeBody : ControlMsg → Bytes
  | .tcpEndpointOffer addresses token =>
    UInt8.ofNat (min addresses.length 255) :: (encodeAddresses (addresses.take 255) ++ token.1)
  | .tcpEndpointAck accepted => [if accepted then 1 else 0]
  | .ping ts => put64 ts
  | .pong ts => put64 ts
  | .tcpPathDown => []

def bad (m : String) : Error := .rendezvous ("control decode: " ++ m)

/-- One turn of the loop over the addresses of an offer. -/
def decodeAddress (rest : Bytes) : Outcome Error (String × Bytes) :=
  if rest.length < 2 then .err (bad "truncated addr len")
  else do
    let len ← slice 0 2 rest
    if rest.length < 2 + (get16 len).toNat then .err (bad "truncated addr")
    else do
      let bytes ← slice 2 (2 + (get16 len).toNat) rest
      match fromUtf8 bytes with
      | none => .err (bad "addr not utf8")
      | some s => .ok (s, rest.drop (2 + (get16 len).toNat))

def decodeAddresses : Nat → Bytes → Outcome Error (List String × Bytes)
  | 0, rest => .ok ([], rest)
  | n + 1, rest => do
    let (s, rest) ← decodeAddress rest
    let (addresses, rest) ← decodeAddresses n rest
    pure (s :: addresses, rest)

def decodeOffer (body : Bytes) : Outcome Error ControlMsg :=
  match body with
  | [] => .err (bad "empty offer")
  | n :: rest => do
    let (addresses, rest) ← decodeAddresses n.toNat rest
    if h : tokenLen ≤ rest.length then
      pure (.tcpEndpointOffer addresses ⟨rest.take tokenLen, length_take_of_le h⟩)
    else .err (bad "missing token")

variable (typeTag : UInt8)

def ControlMsg.decode (body : Bytes) : Outcome Error ControlMsg :=
  if typeTag = 0x01 then decodeOffer body
  else if typeTag = 0x02 then
    match body with
    | [accepted] => .ok (.tcpEndpointAck (accepted != 0))
    | _ => .err (bad "bad ack body")
  else if typeTag = 0x03 ∨ typeTag = 0x04 then
    if body.length ≠ 8 then .err (bad "bad ping/pong body")
    else .ok (if typeTag = 0x03 then .ping (get64 body) else .pong (get64 body))
  else if typeTag = 0x05 then .ok .tcpPathDown
  else
    let digits := Nat.toDigits 16 typeTag.toNat
    .err (bad ("unknown type 0x" ++ String.ofList (if typeTag < 16 then '0' :: digits else digits)))

/-- A frame of `write_msg`; `as u32` cuts the length off. -/
def frame (body : Bytes) : Bytes := typeTag :: (beBytes 4 body.length ++ body)

def writeMsg (msg : ControlMsg) : Bytes := frame msg.typeTag msg.encodeBody

def settle : Outcome Error ControlMsg → ReadCode False Error ControlMsg
  | .ok msg => pure msg
  | .err e => fail e
  | .panic => fail .panicked

def readMsg : ReadCode False Error ControlMsg := do
  let header ← exactly 5
  let len := beNat (header.drop 1)
  if len > maxBody then fail (.rendezvous ("control frame too large: " ++ toString len))
  else do
    let body ← exactly len
    settle (ControlMsg.decode (header.headD 0) body)

def readMsgs : Nat → ReadCode False Error (List ControlMsg)
  | 0 => pure []
  | n + 1 => do
    let msg ← readMsg
    let msgs ← readMsgs n
    pure (msg :: msgs)

/-! ## 2. Bodies -/

variable {addresses : List String} {rest post body : Bytes} {n : Nat} {msg : ControlMsg} {s : String}

theorem decodeAddress_spec (rest : Bytes) : (∃ e, decodeAddress rest = .err e) ∨
    ∃ s post, decodeAddress rest = .ok (s, post) ∧ (utf8Bytes s).length < 65536 ∧
      rest = put16 (UInt16.ofNat (utf8Bytes s).length) ++ (utf8Bytes s ++ post) := by
  unfold decodeAddress
  split
  · exact .inl ⟨_, rfl⟩
  rw [slice_ok (by omega) (by omega), ok_bind, drop_zero]
  split
  · exact .inl ⟨_, rfl⟩
  rw [slice_ok (by omega) (by omega), ok_bind]
  split
  · exact .inl ⟨_, rfl⟩
  · rename_i s hs
    generalize hlen : (get16 (rest.take 2)).toNat = len at *
    have hbytes : (utf8Bytes s).length = len := by
      rw [utf8Bytes_of_fromUtf8 hs, length_drop, length_take]
      omega
    refine .inr ⟨_, _, rfl, ?_, ?_⟩
    · rw [hbytes, ← hlen]
      exact UInt16.toNat_lt _
    · have htake : rest.take 2 = (rest.take (2 + len)).take 2 := by rw [take_take, min_eq_left (by omega)]
      rw [hbytes, ← hlen, UInt16.ofNat_toNat, put16_get16 (length_take_of_le (by omega)), hlen,
        utf8Bytes_of_fromUtf8 hs, ← append_assoc, htake, take_append_drop, take_append_drop]

theorem decodeAddress_encode (hs : (utf8Bytes s).length < 65536) (post : Bytes) :
    decodeAddress (put16 (UInt16.ofNat (utf8Bytes s).length) ++ (utf8Bytes s ++ post)) = .ok (s, post) := by
  have hslice := slice_append (ε := Error) [] (put16 (UInt16.ofNat (utf8Bytes s).length)) (utf8Bytes s ++ post) rfl rfl
  rw [nil_append, length_nil, put16_length] at hslice
  unfold decodeAddress
  rw [if_neg (by rw [length_append, put16_length]; omega), hslice, ok_bind, put16_ofNat hs, if_neg (by simp),
    slice_append (put16 _) (utf8Bytes s) post (by simp) (by simp), ok_bind, fromUtf8_utf8Bytes]
  rw [← append_assoc, drop_left' (by simp)]

theorem decodeAddresses_spec (n : Nat) (rest : Bytes) : (∃ e, decodeAddresses n rest = .err e) ∨
    ∃ addresses post, decodeAddresses n rest = .ok (addresses, post) ∧ addresses.length = n ∧
      (∀ a ∈ addresses, (utf8Bytes a).length < 65536) ∧ rest = encodeAddresses addresses ++ post := by
  induction n generalizing rest with
  | zero => exact .inr ⟨[], rest, rfl, rfl, nofun, rfl⟩
  | succ n ih =>
    rw [decodeAddresses]
    obtain ⟨e, he⟩ | ⟨s, post, hs, hshort, hrest⟩ := decodeAddress_spec rest
    · exact .inl ⟨e, by rw [he]; rfl⟩
    rw [hs, ok_bind]
    obtain ⟨e, he⟩ | ⟨addresses, post', ha, hcount, hshorts, hpost⟩ := ih post
    · exact .inl ⟨e, by simp only [he]; rfl⟩
    · refine .inr ⟨s :: addresses, post', by simp only [ha]; rfl, congrArg (· + 1) hcount,
        forall_mem_cons.mpr ⟨hshort, hshorts⟩, ?_⟩
      rw [hrest, hpost, encodeAddresses, encodeAddresses, flatMap_cons, append_assoc, append_assoc]

theorem decodeAddresses_encode (h : ∀ a ∈ addresses, (utf8Bytes a).length < 65536) (post : Bytes) :
    decodeAddresses addresses.length (encodeAddresses addresses ++ post) = .ok (addresses, post) := by
  induction addresses with
  | nil => rfl
  | cons a addresses ih =>
    have hrest := ih fun b hb => h b (mem_cons_of_mem _ hb)
    rw [encodeAddresses] at hrest
    rw [length_cons, decodeAddresses, encodeAddresses, flatMap_cons, append_assoc, append_assoc,
      decodeAddress_encode (h a mem_cons_self), ok_bind]
    simp only [hrest]
    rfl

theorem decode_spec (body : Bytes) : (∃ e, ControlMsg.decode typeTag body = .err e) ∨
    ∃ msg, ControlMsg.decode typeTag body = .ok msg ∧ msg.encodeBody.length ≤ body.length ∧
      ∀ addresses token, msg = .tcpEndpointOffer addresses token → addresses.length ≤ 255 := by
  unfold ControlMsg.decode
  split
  · unfold decodeOffer
    split
    · exact .inl ⟨_, rfl⟩
    rename_i n rest
    obtain ⟨e, he⟩ | ⟨addresses, post, ha, hcount, -, hrest⟩ := decodeAddresses_spec n.toNat rest
    · exact .inl ⟨e, by rw [he]; rfl⟩
    have hn := n.toNat_lt
    simp only [ha, ok_bind]
    split
    · refine .inr ⟨_, rfl, ?_, ?_⟩
      · rw [ControlMsg.encodeBody, take_of_length_le (by omega), hrest]
        simp only [length_cons, length_append, length_take]
        omega
      · rintro _ _ ⟨⟩
        omega
    · exact .inl ⟨_, rfl⟩
  split
  · split
    · exact .inr ⟨_, rfl, le_rfl, nofun⟩
    · exact .inl ⟨_, rfl⟩
  split
  · split
    · exact .inl ⟨_, rfl⟩
    · refine .inr ⟨_, rfl, ?_, ?_⟩
      · split <;> simp [ControlMsg.encodeBody] <;> omega
      · split <;> exact nofun
  · split
    · exact .inr ⟨_, rfl, zero_le, nofun⟩
    · exact .inl ⟨_, rfl⟩

/-! ## 3. Frames -/

variable {X : Bytes}

theorem settle_done_iff {o : Outcome Error ControlMsg} :
    (settle o).parse .unexpectedEof X = .done msg rest ↔ o = .ok msg ∧ X = rest := by
  cases o <;> simp [settle, parse_pure, parse_fail]

theorem readMsg_done_iff : readMsg.parse .unexpectedEof X = .done msg rest ↔
    ∃ tag len body, X = tag :: (len ++ (body ++ rest)) ∧ len.length = 4 ∧ body.length = beNat len ∧
      body.length ≤ maxBody ∧ ControlMsg.decode tag body = .ok msg := by
  unfold readMsg
  simp only [parse_bind_done, parse_exactly_done]
  constructor
  · rintro ⟨header, Y, ⟨rfl, hheader⟩, h⟩
    obtain ⟨tag, len, rfl⟩ := exists_of_length_succ header hheader
    split at h
    · cases h
    · rename_i hmax
      simp only [parse_bind_done, parse_exactly_done, settle_done_iff] at h
      obtain ⟨body, Z, ⟨rfl, hbody⟩, h, rfl⟩ := h
      exact ⟨tag, len, body, rfl, Nat.succ.inj hheader, hbody, hbody ▸ not_lt.mp hmax, h⟩
  rintro ⟨tag, len, body, rfl, hlen, hbody, hmax, h⟩
  refine ⟨tag :: len, body ++ rest, ⟨rfl, congrArg (· + 1) hlen⟩, ?_⟩
  rw [if_neg (not_lt.mpr (hbody ▸ hmax))]
  simp only [parse_bind_done, parse_exactly_done, settle_done_iff]
  exact ⟨body, rest, ⟨rfl, hbody⟩, h, rfl⟩

theorem readMsg_strict : readMsg.Strict := by
  refine (strict_exactly 5).bind fun header => ?_
  dsimp only
  split
  · exact strict_fail _
  · refine (strict_exactly _).bind fun body => ?_
    cases ControlMsg.decode (header.headD 0) body <;> exact trivial

theorem readMsgs_strict (n : Nat) : (readMsgs n).Strict := by
  induction n with
  | zero => exact strict_pure _
  | succ n ih => exact readMsg_strict.bind fun msg => ih.bind fun msgs => strict_pure _

theorem beNat_length (body : Bytes) (h : body.length < 2 ^ 32) : beNat (beBytes 4 body.length) = body.length := by
  rw [beNat_beBytes]
  exact Nat.mod_eq_of_lt h

theorem frame_done {tag : UInt8} (hbody : body.length ≤ maxBody) (h : ControlMsg.decode tag body = .ok msg) :
    Reads .unexpectedEof readMsg (frame tag body) msg := fun Y =>
  readMsg_done_iff.mpr ⟨tag, beBytes 4 body.length, body, by simp [frame], beBytes_length 4 _,
    (beNat_length body (lt_of_le_of_lt hbody (by decide))).symm, hbody, h⟩

def ControlMsg.Fits (msg : ControlMsg) : Prop :=
  msg.encodeBody.length ≤ maxBody ∧ ∀ addresses token, msg = .tcpEndpointOffer addresses token → addresses.length ≤ 255

theorem decode_offer (addresses : List String) (token : Token) (extra : Bytes)
    (h : (ControlMsg.encodeBody (.tcpEndpointOffer addresses token) ++ extra).length ≤ maxBody) :
    ControlMsg.decode 0x01 (ControlMsg.encodeBody (.tcpEndpointOffer addresses token) ++ extra) =
      .ok (.tcpEndpointOffer (addresses.take 255) token) := by
  have hshort : ∀ a ∈ addresses.take 255, (utf8Bytes a).length < 65536 := fun a ha => by
    obtain ⟨before, after, hsplit⟩ := append_of_mem ha
    simp [ControlMsg.encodeBody, encodeAddresses, hsplit, maxBody] at h
    omega
  have hcount : (UInt8.ofNat (min addresses.length 255)).toNat = (addresses.take 255).length := by
    rw [UInt8.toNat_ofNat', length_take]
    omega
  have htoken : (token.1 ++ extra).take tokenLen = token.1 := take_left' token.2
  unfold ControlMsg.decode
  rw [if_pos rfl, ControlMsg.encodeBody, cons_append, append_assoc, decodeOffer, hcount,
    decodeAddresses_encode hshort, ok_bind]
  exact (dif_pos (by rw [length_append, token.2]; omega)).trans (by simp only [htoken]; rfl)

theorem decode_encodeBody (h : msg.Fits) : ControlMsg.decode msg.typeTag msg.encodeBody = .ok msg := by
  cases msg with
  | tcpEndpointOffer addresses token =>
    have hdecode := decode_offer addresses token [] (by rw [append_nil]; exact h.1)
    rwa [append_nil, take_of_length_le (h.2 _ _ rfl)] at hdecode
  | tcpEndpointAck accepted => cases accepted <;> rfl
  | ping ts | pong ts => simp [ControlMsg.decode, ControlMsg.typeTag, ControlMsg.encodeBody]
  | tcpPathDown => rfl

theorem fits_of_done (h : readMsg.parse .unexpectedEof (writeMsg msg ++ X) = .done msg rest) :
    msg.Fits ∧ rest = X := by
  obtain ⟨tag, len, body, heq, hlen, hbody, hmax, hdecode⟩ := readMsg_done_iff.mp h
  rw [writeMsg, frame, cons_append, append_assoc, cons.injEq] at heq
  obtain ⟨rfl, heq⟩ := heq
  obtain ⟨rfl, hrest⟩ := append_inj heq (by rw [hlen, beBytes_length])
  obtain ⟨e, he⟩ | ⟨msg', hmsg, hle, hcount⟩ := decode_spec msg.typeTag body
  · rw [he] at hdecode
    cases hdecode
  rw [hmsg] at hdecode
  cases hdecode
  have hmod : body.length ≤ msg.encodeBody.length := by
    rw [hbody, beNat_beBytes]
    exact Nat.mod_le _ _
  obtain ⟨rfl, hX⟩ := append_inj hrest (le_antisymm hle hmod)
  exact ⟨⟨hmax, hcount⟩, hX.symm⟩

theorem readMsgs_iff (msgs : List ControlMsg) (Y : Bytes) :
    (readMsgs msgs.length).parse .unexpectedEof (msgs.flatMap writeMsg ++ Y) = .done msgs Y ↔ ∀ msg ∈ msgs, msg.Fits := by
  induction msgs with
  | nil => simp [readMsgs, parse_pure]
  | cons msg msgs ih =>
    rw [length_cons, readMsgs, flatMap_cons, append_assoc, forall_mem_cons, ← ih]
    simp only [parse_bind_done]
    constructor
    · rintro ⟨msg', Z, hmsg, msgs', Z', hmsgs, hdone⟩
      cases hdone
      obtain ⟨hfits, rfl⟩ := fits_of_done hmsg
      exact ⟨hfits, hmsgs⟩
    · intro ⟨hfits, hmsgs⟩
      exact ⟨msg, _, frame_done hfits.1 (decode_encodeBody hfits) _, msgs, Y, hmsgs, rfl⟩

def ControlMsg.fixed : ControlMsg → Bool
  | .tcpEndpointOffer _ _ => false
  | .tcpPathDown => false
  | _ => true

theorem decodeOffer_append (h : decodeOffer body = .ok msg) (extra : Bytes) :
    decodeOffer (body ++ extra) = .ok msg ∧ msg.fixed = false := by
  obtain _ | ⟨n, rest⟩ := body
  · cases h
  rw [decodeOffer] at h
  obtain ⟨e, he⟩ | ⟨addresses, post, ha, hcount, hshort, hrest⟩ := decodeAddresses_spec n.toNat rest
  · rw [he] at h
    cases h
  rw [ha, ok_bind] at h
  dsimp only at h
  split at h
  · rename_i htoken
    cases h
    have hlong : tokenLen ≤ (post ++ extra).length := by
      rw [length_append]
      omega
    rw [cons_append, decodeOffer, hrest, append_assoc, ← hcount, decodeAddresses_encode hshort, ok_bind]
    refine ⟨(dif_pos hlong).trans ?_, rfl⟩
    simp only [take_append_of_le_length htoken]
    rfl
  · cases h

theorem decode_extra {tag : UInt8} {extra : Bytes} (h : ControlMsg.decode tag body = .ok msg) (hextra : extra ≠ []) :
    (∃ e, ControlMsg.decode tag (body ++ extra) = .err e) ↔ msg.fixed = true := by
  have hpos := length_pos_iff.mpr hextra
  unfold ControlMsg.decode at h ⊢
  split at h
  · rename_i htag
    obtain ⟨happ, hfixed⟩ := decodeOffer_append h extra
    simp [htag, happ, hfixed]
  rename_i hoffer
  rw [if_neg hoffer]
  split at h
  · rename_i htag
    rw [if_pos htag]
    split at h
    · cases h
      obtain ⟨b, extra, rfl⟩ := exists_cons_of_ne_nil hextra
      simp [ControlMsg.fixed]
    · cases h
  rename_i hack
  rw [if_neg hack]
  split at h
  · rename_i htag
    rw [if_pos htag]
    split at h
    · cases h
    · cases h
      rw [if_pos (by rw [length_append]; omega)]
      refine iff_of_true ⟨_, rfl⟩ ?_
      split <;> rfl
  rename_i hping
  rw [if_neg hping]
  split at h
  · rename_i htag
    cases h
    simp [htag, ControlMsg.fixed]
  · cases h

theorem frame_fails_iff {tag : UInt8} (h : body.length < 2 ^ 32) :
    (∃ e, Fails .unexpectedEof readMsg (frame tag body) e) ↔
      maxBody < body.length ∨ ∃ e, ControlMsg.decode tag body = .err e := by
  rw [readMsg_strict.fails_iff]
  constructor
  · intro hnone
    by_cases hmax : maxBody < body.length
    · exact .inl hmax
    obtain he | ⟨msg, hmsg, -⟩ := decode_spec tag body
    · exact .inr he
    · have hdone := frame_done (not_lt.mp hmax) hmsg []
      rw [append_nil] at hdone
      exact absurd hdone (hnone _ _)
  intro hrefused msg rest hdone
  obtain ⟨tag', len, body', heq, hlen, hbody, hmax, hdecode⟩ := readMsg_done_iff.mp hdone
  obtain ⟨rfl, hbytes⟩ := cons.inj heq
  obtain ⟨rfl, hrest⟩ := append_inj hbytes (by rw [hlen, beBytes_length])
  rw [beNat_length body h] at hbody
  rw [← append_nil body] at hrest
  obtain ⟨rfl, -⟩ := append_inj hrest hbody.symm
  rcases hrefused with hlarge | ⟨e, he⟩
  · exact absurd hmax (not_le.mpr hlarge)
  · rw [he] at hdecode
    cases hdecode

/-- **The control stream.** Messages come back exactly if each fits; the decoder does not panic and refuses cut and
overlong frames. -/
theorem control_exact (msgs : List ControlMsg) :
    ((∀ Y, Returns .unexpectedEof (readMsgs msgs.length) (msgs.flatMap writeMsg ++ Y) msgs Y) ↔ ∀ msg ∈ msgs, msg.Fits) ∧
      (∀ tag body, ControlMsg.decode tag body ≠ .panic) ∧
      (∀ X msg, Returns .unexpectedEof readMsg X msg [] → ∀ ys, ys <+: X → ys ≠ X →
        ∃ e, Fails .unexpectedEof readMsg ys e) ∧
      (∀ tag body, maxBody < body.length → body.length < 2 ^ 32 →
        ∃ e, Fails .unexpectedEof readMsg (frame tag body) e) ∧
      ∀ tag body msg, ControlMsg.decode tag body = .ok msg → ∀ extra, extra ≠ [] → (body ++ extra).length < 2 ^ 32 →
        ((∃ e, Fails .unexpectedEof readMsg (frame tag (body ++ extra)) e) ↔
          maxBody < (body ++ extra).length ∨ msg.fixed = true) := by
  refine ⟨?_, fun tag body hpanic => ?_, fun X msg h ys hys hne => ?_, fun tag body hmax hlen =>
    (frame_fails_iff hlen).mpr (.inl hmax), fun tag body msg hdecode extra hextra hlen => ?_⟩
  · have hiff : ∀ Y, Returns .unexpectedEof (readMsgs msgs.length) (msgs.flatMap writeMsg ++ Y) msgs Y ↔
        ∀ msg ∈ msgs, msg.Fits := fun Y => by
      rw [returns_iff, ← readMsgs_iff msgs Y]
      exact ⟨(readMsgs_strict _).done, fun h => by rw [h]; rfl⟩
    exact ⟨fun h => (hiff []).mp (h []), fun h Y => (hiff Y).mpr h⟩
  · obtain ⟨e, he⟩ | ⟨msg, hmsg, -⟩ := decode_spec tag body
    · rw [he] at hpanic
      cases hpanic
    · rw [hmsg] at hpanic
      cases hpanic
  · have hdone := readMsg_strict.done (returns_iff.mp h)
    exact Reads.refuses (fun Y => parse_done_append hdone Y) readMsg_strict hys hne
  · rw [frame_fails_iff hlen, decode_extra hdecode hextra]

/-- One address too many is lost without an error, and a byte that belongs to no message is accepted. -/
theorem control_lossy :
    let token : Token := ⟨replicate 32 7, rfl⟩
    Returns .unexpectedEof readMsg (writeMsg (.tcpEndpointOffer (replicate 256 "a") token))
        (.tcpEndpointOffer (replicate 255 "a") token) [] ∧
      Returns .unexpectedEof readMsg (frame 0x05 [0]) .tcpPathDown [] := by
  intro token
  have hlen : (ControlMsg.encodeBody (.tcpEndpointOffer (replicate 256 "a") token)).length ≤ maxBody := by
    decide +kernel
  have hdecode := decode_offer (replicate 256 "a") token [] (by rwa [append_nil])
  rw [append_nil, take_replicate, show min 255 256 = 255 from rfl] at hdecode
  have hoffer := (frame_done hlen hdecode).returns []
  have hdown := (frame_done (by decide) (rfl : ControlMsg.decode 0x05 [0] = .ok .tcpPathDown)).returns []
  rw [append_nil] at hoffer hdown
  exact ⟨hoffer, hdown⟩

end Shadowsocks.Realm.Control
