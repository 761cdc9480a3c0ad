/-
  Subject:   THE EVENTS OF THE RENDEZVOUS SERVER (`rendezvous/events.rs`, `rendezvous/client.rs` and `session.rs` of
  `shadowsocks-realm`). Every `poll_event` makes a request of its own and drops the response with what stands in it
  behind the event it returns. Parsing JSON is a parameter.
-/
import Shadowsocks.Lib.Utf8

namespace Shadowsocks.Realm.Events

open Lib List

abbrev Text := List Char

/-! ## 1. The decoder -/

structure ConnectBody where
  addresses : List Text
  (nonce obfs : Text)
  deriving DecidableEq

inductive RendezvousEvent where
  | punch (body : ConnectBody)
  | heartbeatAck

inductive Error where
  | badPunchData (reason data : Text)
  | unknownSseEvent (name : Text)
  | streamClosed
  | request (reason : Text)
  deriving DecidableEq

/-- `buf.find("\n\n")`: what stands before the first empty line, and what behind it. -/
def splitFrame : Text → Option (Text × Text)
  | [] => none
  | '\n' :: '\n' :: rest => some ([], rest)
  | c :: rest => (splitFrame rest).map fun x => (c :: x.1, x.2)

def stripLead (lead t : Text) : Option Text :=
  if lead.isPrefixOf t then some (t.drop lead.length) else none

/-- One `\r` at the end of a line belongs to its ending. -/
def stripCr (t : Text) : Text := if t.getLast? = some '\r' then t.dropLast else t

def lines (t : Text) : List Text :=
  let parts := t.splitOn '\n'
  (if parts.getLast? = some [] then parts.dropLast else parts).map stripCr

variable (fields : Text × Text)

def addLine (raw : Text) : Text × Text :=
  let line := raw.rdropWhile (· == '\r')
  match stripLead "event:".toList line with
  | some v => (trim v, fields.2)
  | none =>
    match stripLead "data:".toList line with
    | some v =>
      let data := if fields.2.isEmpty then fields.2 else fields.2 ++ ['\n']
      (fields.1, data ++ (stripLead [' '] v).getD v)
    | none => fields

def frameFields (frame : Text) : Text × Text := (lines frame).foldl addLine ([], [])

section

variable (fromStr : Text → Except Text ConnectBody)

def decodeEvent (name data : Text) : Except Error (Option RendezvousEvent) :=
  if name = "punch".toList then
    match fromStr data with
    | .ok body => .ok (some (.punch body))
    | .error e => .error (.badPunchData e data)
  else if name = "heartbeat_ack".toList then .ok (some .heartbeatAck)
  else .error (.unknownSseEvent name)

/-- The loop of `take_first_sse_event`, for at most `fuel` frames. -/
def takeFrames : Nat → Text → Except Error (Option RendezvousEvent) × Text
  | 0, buf => (.ok none, buf)
  | fuel + 1, buf =>
    match splitFrame buf with
    | none => (.ok none, buf)
    | some (frame, rest) =>
      if (frameFields frame).1 = [] then takeFrames fuel rest
      else (decodeEvent fromStr (frameFields frame).1 (frameFields frame).2, rest)

/-- `take_first_sse_event`: the result and the buffer it leaves. -/
def takeFirstSseEvent (buf : Text) : Except Error (Option RendezvousEvent) × Text :=
  takeFrames fromStr buf.length buf

/-- How a response ends: it is closed, or the connection or the timeout of the request fails it. -/
inductive Ending where
  | closed
  | failed (reason : Text)

def Ending.error : Ending → Error
  | .closed => .streamClosed
  | .failed reason => .request reason

/-- **`poll_event`** on the chunks of one response, from the buffer `buf` on. -/
def pollEvent (ending : Ending) (buf : Text) : List Bytes → Except Error RendezvousEvent
  | [] => .error ending.error
  | chunk :: chunks =>
    match takeFirstSseEvent fromStr (buf ++ fromUtf8Lossy chunk) with
    | (.ok none, buf) => pollEvent ending buf chunks
    | (.ok (some event), _) => .ok event
    | (.error e, _) => .error e

end

/-! ## 2. What the server writes -/

inductive Eol where
  | lf
  | crlf
  deriving DecidableEq

def Eol.text : Eol → Text
  | .lf => ['\n']
  | .crlf => ['\r', '\n']

/-- A text without line breaks. -/
abbrev Line := { t : Text // '\n' ∉ t ∧ '\r' ∉ t }

inductive Item where
  | comment (first : Line) (more : List Line)
  | heartbeatAck (data : Line)
  | punch (first : Line) (more : List Line)

namespace Item

def lines : Item → List Text
  | .comment first more => (first :: more).map fun l => ':' :: l.1
  | .heartbeatAck data => ["event: heartbeat_ack".toList, "data: ".toList ++ data.1]
  | .punch first more => "event: punch".toList :: (first :: more).map fun l => "data: ".toList ++ l.1

def write (eol : Eol) (item : Item) : Text := item.lines.flatMap (· ++ eol.text) ++ eol.text

def isEvent : Item → Bool
  | .comment _ _ => false
  | _ => true

def isPunch : Item → Bool
  | .punch _ _ => true
  | _ => false

def json (first : Line) (more : List Line) : Text := ['\n'].intercalate ((first :: more).map Subtype.val)

section

variable (fromStr : Text → Except Text ConnectBody)

def body : Item → Option ConnectBody
  | .punch first more => (fromStr (json first more)).toOption
  | _ => none

def IsJson : Item → Prop
  | .punch first more => first.1 ≠ [] ∧ ∃ body, fromStr (json first more) = .ok body
  | _ => True

end

end Item

def wire (written : List (Eol × Item)) : Text := written.flatMap fun x => x.2.write x.1

/-- **A response** of the server: what it writes, and the chunks its bytes arrive in. -/
structure Response where
  written : List (Eol × Item)
  chunks : List Bytes
  ending : Ending
  whole : chunks.flatten = utf8 (wire written)

/-- What `next_punch`, called again and again, returns while the server gives these responses. -/
def returned (fromStr : Text → Except Text ConnectBody) (responses : List Response) :
    List (Except Error ConnectBody) :=
  responses.filterMap fun r =>
    match pollEvent fromStr r.ending [] r.chunks with
    | .ok (.punch body) => some (.ok body)
    | .ok .heartbeatAck => none
    | .error e => some (.error e)

/-! ## 3. Finding a frame -/

variable {t : Text}

theorem splitFrame_cons {c : Char} (h : ¬ (c = '\n' ∧ t.head? = some '\n')) :
    splitFrame (c :: t) = (splitFrame t).map fun x => (c :: x.1, x.2) := by
  rw [splitFrame]
  intro rest hc ht
  exact h ⟨hc, by rw [ht]; rfl⟩

theorem splitFrame_append {f r : Text} (h : splitFrame t = some (f, r)) (x : Text) :
    splitFrame (t ++ x) = some (f, r ++ x) := by
  induction t using splitFrame.induct generalizing f with
  | case1 => cases h
  | case2 rest =>
    cases h
    rfl
  | case3 c rest hne ih =>
    have hcons : ¬ (c = '\n' ∧ rest.head? = some '\n') := by
      intro hc
      obtain ⟨tail, htail⟩ := head?_eq_some_iff.mp hc.2
      exact hne tail hc.1 htail
    rw [splitFrame_cons hcons, Option.map_eq_some_iff] at h
    obtain ⟨⟨f', r'⟩, hrest, heq⟩ := h
    cases heq
    have hnil : rest ≠ [] := fun hn => by rw [hn] at hrest; cases hrest
    have happ : ¬ (c = '\n' ∧ (rest ++ x).head? = some '\n') := by
      rwa [head?_append_of_ne_nil _ hnil]
    rw [cons_append, splitFrame_cons happ, ih hrest]
    rfl

theorem splitFrame_line {l : Text} (hl : '\n' ∉ l) (t : Text) :
    splitFrame (l ++ t) = (splitFrame t).map fun x => (l ++ x.1, x.2) := by
  induction l with
  | nil => simp
  | cons c l ih =>
    have hc : ¬ (c = '\n' ∧ (l ++ t).head? = some '\n') := fun h => hl (h.1 ▸ mem_cons_self)
    rw [cons_append, splitFrame_cons hc, ih fun h => hl (mem_cons_of_mem _ h), Option.map_map]
    rfl

theorem splitFrame_lines {ls : List Text} (hne : ls ≠ []) (hls : ∀ l ∈ ls, l ≠ [] ∧ '\n' ∉ l) (rest : Text) :
    splitFrame (['\n'].intercalate ls ++ '\n' :: '\n' :: rest) = some (['\n'].intercalate ls, rest) := by
  induction ls with
  | nil => exact absurd rfl hne
  | cons l ls ih =>
    obtain ⟨⟨hl, hbreak⟩, hrest⟩ := forall_mem_cons.mp hls
    cases ls with
    | nil =>
      rw [intercalate_singleton, splitFrame_line hbreak]
      simp [splitFrame]
    | cons l' ls =>
      -- behind the line stands one line break, and then the first character of the next line
      have hnext : ¬ ('\n' = '\n' ∧ (['\n'].intercalate (l' :: ls) ++ '\n' :: '\n' :: rest).head? = some '\n') := by
        obtain ⟨hl', hbreak'⟩ := hrest l' mem_cons_self
        obtain ⟨c, l'', rfl⟩ := exists_cons_of_ne_nil hl'
        intro h
        have hc : c = '\n' := by
          cases ls <;> simpa [intercalate_cons_of_ne_nil] using h
        exact hbreak' (hc ▸ mem_cons_self)
      rw [intercalate_cons_of_ne_nil (cons_ne_nil _ _), append_assoc, append_assoc,
        splitFrame_line hbreak, singleton_append, splitFrame_cons hnext,
        ih (cons_ne_nil _ _) hrest]
      simp

/-! ## 4. The frames of the server -/

namespace Item

theorem lines_ne_nil (item : Item) : item.lines ≠ [] := by
  cases item <;> exact cons_ne_nil _ _

theorem lines_spec (item : Item) : ∀ l ∈ item.lines, l ≠ [] ∧ '\n' ∉ l ∧ '\r' ∉ l := by
  intro l hl
  cases item with
  | comment first more =>
    obtain ⟨t, _, rfl⟩ := mem_map.mp hl
    simpa using t.2
  | heartbeatAck data =>
    rcases mem_pair.mp hl with rfl | rfl
    · decide
    · simpa using data.2
  | punch first more =>
    rcases mem_cons.mp hl with rfl | hl
    · decide
    · obtain ⟨t, _, rfl⟩ := mem_map.mp hl
      simpa using t.2

def frame (item : Item) : Text := ['\n'].intercalate item.lines

end Item

theorem flatMap_lf {ls : List Text} (hne : ls ≠ []) : ls.flatMap (· ++ ['\n']) = ['\n'].intercalate ls ++ ['\n'] := by
  induction ls with
  | nil => exact absurd rfl hne
  | cons l ls ih =>
    cases ls with
    | nil => simp
    | cons l' ls =>
      rw [flatMap_cons, ih (cons_ne_nil _ _), intercalate_cons_of_ne_nil (cons_ne_nil _ _)]
      simp only [append_assoc]

theorem write_lf (item : Item) : item.write .lf = item.frame ++ ['\n', '\n'] := by
  rw [Item.write, Eol.text, flatMap_lf item.lines_ne_nil, append_assoc]
  rfl

theorem splitFrame_write (item : Item) (rest : Text) :
    splitFrame (item.write .lf ++ rest) = some (item.frame, rest) := by
  rw [write_lf, append_assoc]
  exact splitFrame_lines item.lines_ne_nil (fun l hl => ⟨(item.lines_spec l hl).1, (item.lines_spec l hl).2.1⟩) rest

variable {item : Item}

theorem splitFrame_incomplete (h : t <+: item.write .lf) (hne : t ≠ item.write .lf) : splitFrame t = none := by
  cases hs : splitFrame t with
  | none => rfl
  | some x =>
    exfalso
    obtain ⟨more, hmore⟩ := h
    have happ := splitFrame_append hs more
    have hwhole := splitFrame_write item []
    rw [hmore] at happ
    rw [append_nil, happ] at hwhole
    injection hwhole with hpair
    have hnil : more = [] := (append_eq_nil_iff.mp (congrArg Prod.snd hpair)).2
    exact hne (by rw [← hmore, hnil, append_nil])

theorem trimCr_of_notMem (h : '\r' ∉ t) : t.rdropWhile (· == '\r') = t := by
  rw [rdropWhile_eq_self_iff]
  intro hne hlast
  exact h (beq_iff_eq.mp hlast ▸ getLast_mem hne)

theorem stripCr_of_notMem (h : '\r' ∉ t) : stripCr t = t := by
  rw [stripCr, if_neg]
  exact fun hlast => h (mem_of_getLast? hlast)

theorem lines_frame (item : Item) : lines item.frame = item.lines := by
  have hsplit : item.frame.splitOn '\n' = item.lines :=
    splitOn_intercalate '\n' (fun l hl => (item.lines_spec l hl).2.1) item.lines_ne_nil
  have hlast : item.lines.getLast? ≠ some [] := fun h => (item.lines_spec _ (mem_of_getLast? h)).1 rfl
  rw [lines, hsplit]
  simp only [hlast, ↓reduceIte]
  rw [map_congr_left fun l hl => stripCr_of_notMem (item.lines_spec l hl).2.2, map_id']

theorem addLine_comment (h : '\r' ∉ t) : addLine fields (':' :: t) = fields := by
  have hcr : '\r' ∉ ':' :: t := by simpa using h
  simp only [addLine, trimCr_of_notMem hcr]
  rfl

theorem addLine_data (h : '\r' ∉ t) : addLine fields ("data: ".toList ++ t) =
      (fields.1, (if fields.2.isEmpty then fields.2 else fields.2 ++ ['\n']) ++ t) := by
  have hcr : '\r' ∉ "data: ".toList ++ t := by simpa using h
  simp only [addLine, trimCr_of_notMem hcr]
  rfl

theorem foldl_comments (ls : List Line) : (ls.map fun l => ':' :: l.1).foldl addLine fields = fields := by
  induction ls with
  | nil => rfl
  | cons l ls ih => rw [map_cons, foldl_cons, addLine_comment fields l.2.2, ih]

theorem foldl_data (name : Text) {data : Text} (h : data ≠ []) (ls : List Line) :
    (ls.map fun l => "data: ".toList ++ l.1).foldl addLine (name, data) =
      (name, data ++ ls.flatMap fun l => '\n' :: l.1) := by
  induction ls generalizing data with
  | nil => simp
  | cons l ls ih =>
    have hfalse : data.isEmpty = false := isEmpty_eq_false_iff.mpr h
    rw [map_cons, foldl_cons, addLine_data _ l.2.2]
    simp only [hfalse, Bool.false_eq_true, ↓reduceIte]
    rw [ih (by simp), flatMap_cons]
    simp only [append_assoc, cons_append, nil_append]

theorem json_eq (first : Line) (more : List Line) :
    Item.json first more = first.1 ++ more.flatMap fun l => '\n' :: l.1 := by
  induction more generalizing first with
  | nil => simp [Item.json]
  | cons l more ih =>
    have hstep : Item.json first (l :: more) = first.1 ++ ['\n'] ++ Item.json l more :=
      intercalate_cons_of_ne_nil (cons_ne_nil _ _)
    rw [hstep, ih, flatMap_cons]
    simp only [append_assoc, cons_append, nil_append]

theorem frameFields_comment (first : Line) (more : List Line) :
    frameFields (Item.comment first more).frame = ([], []) := by
  rw [frameFields, lines_frame]
  exact foldl_comments _ (first :: more)

theorem frameFields_heartbeatAck (data : Line) :
    frameFields (Item.heartbeatAck data).frame = ("heartbeat_ack".toList, data.1) := by
  rw [frameFields, lines_frame, Item.lines, foldl_cons, foldl_cons, addLine_data _ data.2.2]
  rfl

theorem frameFields_punch {first : Line} (h : first.1 ≠ []) (more : List Line) :
    frameFields (Item.punch first more).frame = ("punch".toList, Item.json first more) := by
  have hname : addLine ([], []) "event: punch".toList = ("punch".toList, []) := rfl
  rw [frameFields, lines_frame, Item.lines, foldl_cons, hname, map_cons, foldl_cons,
    addLine_data _ first.2.2, json_eq]
  exact foldl_data "punch".toList h more

/-! ## 5. Taking the first event -/

section

variable {fromStr : Text → Except Text ConnectBody}

theorem splitFrame_length {f r : Text} (h : splitFrame t = some (f, r)) : r.length < t.length := by
  induction t using splitFrame.induct generalizing f with
  | case1 => cases h
  | case2 rest =>
    cases h
    simp only [length_cons]
    omega
  | case3 c rest hne ih =>
    rw [splitFrame, Option.map_eq_some_iff] at h
    · obtain ⟨⟨f', r'⟩, hrest, heq⟩ := h
      cases heq
      have hlt : r'.length < rest.length := ih hrest
      exact Nat.lt_succ_of_lt hlt
    · exact hne

theorem takeFrames_enough {fuel : Nat} {buf : Text} (h : buf.length ≤ fuel) :
    takeFrames fromStr fuel buf = takeFirstSseEvent fromStr buf := by
  suffices hany : ∀ n m : Nat, ∀ buf : Text, buf.length ≤ n → buf.length ≤ m →
      takeFrames fromStr n buf = takeFrames fromStr m buf from hany _ _ _ h le_rfl
  intro n
  induction n with
  | zero =>
    intro m buf hn hm
    obtain rfl : buf = [] := length_eq_zero_iff.mp (Nat.le_zero.mp hn)
    cases m <;> rfl
  | succ n ih =>
    intro m buf hn hm
    cases m with
    | zero =>
      obtain rfl : buf = [] := length_eq_zero_iff.mp (Nat.le_zero.mp hm)
      rfl
    | succ m =>
      rw [takeFrames, takeFrames]
      cases hs : splitFrame buf with
      | none => rfl
      | some x =>
        obtain ⟨frame, rest⟩ := x
        have hlt := splitFrame_length hs
        simp only
        rw [ih m rest (by omega) (by omega)]

theorem takeFirst_none {buf : Text} (h : splitFrame buf = none) :
    takeFirstSseEvent fromStr buf = (.ok none, buf) := by
  rw [← takeFrames_enough (Nat.le_succ buf.length), takeFrames, h]

theorem takeFirst_some {buf frame rest : Text} (h : splitFrame buf = some (frame, rest)) :
    takeFirstSseEvent fromStr buf = if (frameFields frame).1 = [] then takeFirstSseEvent fromStr rest
      else (decodeEvent fromStr (frameFields frame).1 (frameFields frame).2, rest) := by
  have hlt := splitFrame_length h
  rw [← takeFrames_enough (Nat.le_succ buf.length), takeFrames, h]
  simp only
  rw [takeFrames_enough (le_of_lt hlt)]

theorem takeFirst_named {buf frame rest name data : Text} (h : splitFrame buf = some (frame, rest))
    (hfields : frameFields frame = (name, data)) (hname : name ≠ []) :
    takeFirstSseEvent fromStr buf = (decodeEvent fromStr name data, rest) := by
  rw [takeFirst_some h, hfields, if_neg hname]

theorem takeFirst_comment (first : Line) (more : List Line) (rest : Text) :
    takeFirstSseEvent fromStr ((Item.comment first more).write .lf ++ rest) = takeFirstSseEvent fromStr rest := by
  rw [takeFirst_some (splitFrame_write _ rest), frameFields_comment, if_pos rfl]

def RendezvousEvent.body : RendezvousEvent → Option ConnectBody
  | .punch body => some body
  | .heartbeatAck => none

theorem decodeEvent_punch {data : Text} {body : ConnectBody} (h : fromStr data = .ok body) :
    decodeEvent fromStr "punch".toList data = .ok (some (.punch body)) := by
  rw [decodeEvent, if_pos rfl, h]

theorem takeFirst_event (hjson : item.IsJson fromStr) (hevent : item.isEvent = true) (rest : Text) :
    ∃ ev, takeFirstSseEvent fromStr (item.write .lf ++ rest) = (.ok (some ev), rest) ∧
      ev.body = item.body fromStr := by
  have hsplit := splitFrame_write item rest
  cases item with
  | comment first more => cases hevent
  | heartbeatAck data =>
    refine ⟨.heartbeatAck, ?_, rfl⟩
    rw [takeFirst_named hsplit (frameFields_heartbeatAck data) (by decide)]
    rfl
  | punch first more =>
    obtain ⟨hfirst, body, hbody⟩ := hjson
    refine ⟨.punch body, ?_, ?_⟩
    · rw [takeFirst_named hsplit (frameFields_punch hfirst more) (by decide), decodeEvent_punch hbody]
    · rw [Item.body, hbody]
      rfl

def text (items : List Item) : Text := items.flatMap (Item.write .lf)

theorem text_append (items items' : List Item) : text (items ++ items') = text items ++ text items' :=
  flatMap_append

theorem text_cons (item : Item) (items : List Item) : text (item :: items) = item.write .lf ++ text items :=
  flatMap_cons

def Open (p : Text) : List Item → Prop
  | [] => p = []
  | item :: _ => p <+: item.write .lf ∧ p ≠ item.write .lf

theorem take_write {items : List Item} (hjson : ∀ item ∈ items, item.IsJson fromStr) (ht : t <+: text items) :
    ∃ comments back, items = comments ++ back ∧ (∀ c ∈ comments, c.isEvent = false) ∧
      ((∃ p, t = text comments ++ p ∧ Open p back ∧ takeFirstSseEvent fromStr t = (.ok none, p)) ∨
        ∃ item back' rest ev, back = item :: back' ∧ item.isEvent = true ∧
          takeFirstSseEvent fromStr t = (.ok (some ev), rest) ∧ ev.body = item.body fromStr) := by
  induction items generalizing t with
  | nil =>
    obtain rfl : t = [] := prefix_nil.mp ht
    exact ⟨[], [], rfl, by simp, .inl ⟨[], rfl, rfl, rfl⟩⟩
  | cons item items ih =>
    obtain ⟨hitem, hrest⟩ := forall_mem_cons.mp hjson
    by_cases hwhole : item.write .lf <+: t
    · obtain ⟨t', rfl⟩ := hwhole
      by_cases hevent : item.isEvent = true
      · obtain ⟨ev, htake, hret⟩ := takeFirst_event hitem hevent t'
        exact ⟨[], item :: items, rfl, by simp,
          .inr ⟨item, items, t', ev, rfl, hevent, htake, hret⟩⟩
      -- a comment: go on behind it
      cases item with
      | heartbeatAck data | punch first more => exact absurd rfl hevent
      | comment first more =>
        obtain ⟨comments, back, rfl, hnone, hcases⟩ := ih hrest ((prefix_append_right_inj _).mp ht)
        refine ⟨Item.comment first more :: comments, back, rfl, ?_, ?_⟩
        · exact forall_mem_cons.mpr ⟨rfl, hnone⟩
        rw [takeFirst_comment]
        rcases hcases with ⟨p, rfl, hopen, htake⟩ | hfound
        · exact .inl ⟨p, by rw [text_cons, append_assoc], hopen, htake⟩
        · exact .inr hfound
    have hpart : t <+: item.write .lf := by
      rcases prefix_or_prefix_of_prefix ht (prefix_append (item.write .lf) _) with h | h
      · exact h
      · exact absurd h hwhole
    have hne : t ≠ item.write .lf := fun h => hwhole (h ▸ prefix_refl _)
    exact ⟨[], item :: items, rfl, by simp,
      .inl ⟨t, rfl, ⟨hpart, hne⟩, takeFirst_none (splitFrame_incomplete hpart hne)⟩⟩

end

/-! ## 6. The whole stream -/

section

variable {fromStr : Text → Except Text ConnectBody}

theorem open_nil (items : List Item) : Open [] items := by
  cases items with
  | nil => rfl
  | cons item items =>
    refine ⟨⟨_, rfl⟩, fun h => ?_⟩
    rw [write_lf] at h
    simp at h

theorem Open.eq_nil {p : Text} {items : List Item} (h : Open p items) (hp : p = text items) : items = [] := by
  cases items with
  | nil => rfl
  | cons item items =>
    exfalso
    have hlt := lt_of_le_of_ne h.1.length_le fun heq => h.2 (h.1.eq_of_length heq)
    rw [hp, text_cons, length_append] at hlt
    omega

/-- What a poll makes of a response whose first event is `first`. -/
def Polled (fromStr : Text → Except Text ConnectBody) (result : Except Error RendezvousEvent) :
    Option Item → Prop
  | some first => ∃ ev, result = .ok ev ∧ ev.body = first.body fromStr
  | none => ∃ e, result = .error e

/-- **A poll returns the first event of its response**, however the text is divided. -/
theorem pollEvent_texts (ending : Ending) {p : Text} {texts : List Text} {items : List Item}
    (hjson : ∀ item ∈ items, item.IsJson fromStr) (hopen : Open p items)
    (htext : p ++ texts.flatten = text items) :
    Polled fromStr (pollEvent fromStr ending p (texts.map utf8)) (items.find? Item.isEvent) := by
  induction texts generalizing p items with
  | nil =>
    obtain rfl := hopen.eq_nil (by simpa using htext)
    exact ⟨_, rfl⟩
  | cons x texts ih =>
    rw [flatten_cons, ← append_assoc] at htext
    obtain ⟨comments, back, rfl, hnone, hcases⟩ := take_write hjson ⟨_, htext⟩
    have hcomments : comments.find? Item.isEvent = none := find?_eq_none.mpr fun c hc => by simp [hnone c hc]
    rw [find?_append, hcomments, Option.none_or, map_cons, pollEvent, fromUtf8Lossy_utf8]
    rcases hcases with ⟨p', hx, hopen', htake⟩ | ⟨item, back, rest, ev, rfl, hevent, htake, hbody⟩
    · rw [htake]
      refine ih (fun item h => hjson item (mem_append_right _ h)) hopen' ?_
      rw [hx, append_assoc, text_append] at htext
      exact append_cancel_left htext
    · rw [htake, find?_cons_of_pos hevent]
      exact ⟨ev, rfl, hbody⟩

end

section

variable (fromStr : Text → Except Text ConnectBody)

/-- **Each punch event once, in order and unaltered**: what is returned beside errors is what the server wrote. -/
def Delivered (responses : List Response) : Prop :=
  (returned fromStr responses).filterMap Except.toOption =
    responses.flatMap fun r => r.written.filterMap fun x => x.2.body fromStr

instance (responses : List Response) : Decidable (Delivered fromStr responses) := inferInstanceAs (Decidable (_ = _))

end

/-- **What the loop needs of a response**: lines ending with LF, chunks that cut no character, and no punch event
behind the first event. -/
structure Response.Lossless (r : Response) : Prop where
  lf : ∀ x ∈ r.written, x.1 = .lf
  chars : ∀ chunk ∈ r.chunks, ∃ t, chunk = utf8 t
  first : ∀ item ∈ ((r.written.map Prod.snd).filter Item.isEvent).tail, item.isPunch = false

theorem wire_lf {written : List (Eol × Item)} (h : ∀ x ∈ written, x.1 = .lf) :
    wire written = text (written.map Prod.snd) := by
  rw [wire, text, flatMap_map]
  exact flatMap_congr fun x hx => by rw [h x hx]

variable {fromStr : Text → Except Text ConnectBody}

theorem Response.Lossless.polled {r : Response} (h : r.Lossless) (hjson : ∀ x ∈ r.written, x.2.IsJson fromStr) :
    Polled fromStr (pollEvent fromStr r.ending [] r.chunks) ((r.written.map Prod.snd).find? Item.isEvent) := by
  -- the chunks as texts
  have htexts : (r.chunks.map fromUtf8Lossy).map utf8 = r.chunks := by
    rw [map_map]
    refine (map_congr_left fun chunk hchunk => ?_).trans (map_id _)
    obtain ⟨t, rfl⟩ := h.chars chunk hchunk
    exact congrArg utf8 (fromUtf8Lossy_utf8 t)
  rw [← htexts]
  refine pollEvent_texts r.ending (fun item hitem => ?_) (open_nil _) ?_
  · obtain ⟨x, hx, rfl⟩ := mem_map.mp hitem
    exact hjson x hx
  · have hwhole := r.whole
    rw [← htexts, ← utf8_flatten, wire_lf h.lf] at hwhole
    exact utf8_injective hwhole

theorem bodies_first (fromStr : Text → Except Text ConnectBody) {items : List Item}
    (h : ∀ item ∈ (items.filter Item.isEvent).tail, item.isPunch = false) :
    items.filterMap (Item.body fromStr) = ((items.find? Item.isEvent).bind (Item.body fromStr)).toList := by
  have hevents : items.filterMap (Item.body fromStr) = (items.filter Item.isEvent).filterMap (Item.body fromStr) := by
    rw [filterMap_filter]
    refine filterMap_congr fun item _ => ?_
    cases item <;> rfl
  rw [hevents, ← head?_filter]
  cases hfilter : items.filter Item.isEvent with
  | nil => rfl
  | cons first rest =>
    have hrest : rest.filterMap (Item.body fromStr) = [] := filterMap_eq_nil_iff.mpr fun item hitem => by
      have hpunch := h item (by rw [hfilter]; exact hitem)
      cases item with
      | punch first more => cases hpunch
      | comment first more | heartbeatAck data => rfl
    rw [filterMap_cons, hrest]
    cases hbody : first.body fromStr <;> simp [hbody]

/-- **Every punch event is returned once, in order and unaltered**, for any responses with what the loop needs. -/
theorem punches_delivered (fromStr : Text → Except Text ConnectBody) (responses : List Response)
    (hjson : ∀ r ∈ responses, ∀ x ∈ r.written, x.2.IsJson fromStr) (h : ∀ r ∈ responses, r.Lossless) :
    Delivered fromStr responses := by
  rw [Delivered, returned]
  induction responses with
  | nil => rfl
  | cons r responses ih =>
    obtain ⟨hr, hrest⟩ := forall_mem_cons.mp h
    obtain ⟨hjsonr, hjsonrest⟩ := forall_mem_cons.mp hjson
    have hbodies := bodies_first fromStr hr.first
    rw [filterMap_map] at hbodies
    have hpolled := hr.polled hjsonr
    rw [flatMap_cons, ← ih hjsonrest hrest, show (r.written.filterMap fun x => x.2.body fromStr) = _ from hbodies,
      filterMap_cons]
    cases hfirst : (r.written.map Prod.snd).find? Item.isEvent with
    | none =>
      rw [hfirst] at hpolled
      obtain ⟨e, he⟩ := hpolled
      rw [he]
      rfl
    | some item =>
      rw [hfirst] at hpolled
      obtain ⟨ev, hev, hbody⟩ := hpolled
      rw [hev, Option.bind_some, ← hbody]
      cases ev <;> rfl

def nonceOnly (t : Text) : Except Text ConnectBody := .ok ⟨[], t, []⟩

def keepalive : Item := .comment ⟨" keepalive".toList, by decide⟩ []

def euro : Item := .punch ⟨[Char.ofNat 0x20ac], by decide⟩ []

def ack : Item := .heartbeatAck ⟨['1'], by decide⟩

def perItem (written : List (Eol × Item)) : Response where
  written := written
  chunks := written.map fun x => utf8 (x.2.write x.1)
  ending := .closed
  whole := by rw [wire, flatMap_def, utf8_flatten, map_map]; rfl

def cutAt (n : Nat) (written : List (Eol × Item)) : Response :=
  ⟨written, [(utf8 (wire written)).take n, (utf8 (wire written)).drop n], .closed, by simp⟩

theorem perItem_lossless {written : List (Eol × Item)} (hlf : ∀ x ∈ written, x.1 = .lf)
    (hfirst : ∀ item ∈ ((written.map Prod.snd).filter Item.isEvent).tail, item.isPunch = false) :
    (perItem written).Lossless := by
  refine ⟨hlf, fun chunk hchunk => ?_, hfirst⟩
  obtain ⟨x, -, rfl⟩ := mem_map.mp hchunk
  exact ⟨_, rfl⟩

theorem punches_delivered_two :
    Delivered nonceOnly [perItem [(.lf, keepalive), (.lf, euro), (.lf, ack)], perItem [(.lf, euro)]] := by
  refine punches_delivered nonceOnly _ ?_ (forall_mem_cons.mpr ⟨?_, forall_mem_cons.mpr ⟨?_, forall_mem_nil _⟩⟩)
  · have heuro : euro.IsJson nonceOnly := ⟨cons_ne_nil _ _, _, rfl⟩
    simp only [perItem, forall_mem_cons]
    exact ⟨⟨trivial, heuro, trivial, forall_mem_nil _⟩, ⟨heuro, forall_mem_nil _⟩, forall_mem_nil _⟩
  · exact perItem_lossless (by decide) (by decide)
  · exact perItem_lossless (by decide) (by decide)

/-- **Each is needed**: with CRLF no event is found; a second punch event of a response is dropped, also in a chunk of
its own; a cut character becomes two. -/
theorem punches_lost : returned nonceOnly [perItem [(.crlf, euro)]] = [.error .streamClosed] ∧
      ¬ Delivered nonceOnly [perItem [(.crlf, euro)]] ∧
      returned nonceOnly [perItem [(.lf, euro), (.lf, euro)]] = [.ok ⟨[], [Char.ofNat 0x20ac], []⟩] ∧
      ¬ Delivered nonceOnly [perItem [(.lf, euro), (.lf, euro)]] ∧
      returned nonceOnly [cutAt 34 [(.lf, keepalive), (.lf, euro)]] =
        [.ok ⟨[], [Char.ofNat 0xfffd, Char.ofNat 0xfffd], []⟩] ∧
      ¬ Delivered nonceOnly [cutAt 34 [(.lf, keepalive), (.lf, euro)]] := by
  decide +kernel

end Shadowsocks.Realm.Events
