/-
  Subject:   THE REQUESTS OF THE SERVER MANAGER (`crates/shadowsocks/src/manager/protocol.rs`). The JSON library is
  a parameter that reads back what it has written, with white space around it.
-/
import Mathlib.Data.Set.Countable
import Mathlib.Tactic.DeriveCountable
import Shadowsocks.Lib.Utf8

namespace Shadowsocks.Manager

open Lib List

instance countableString : Countable String :=
  have : Countable Char := Function.Injective.countable fun _ _ h => Char.toNat_inj.mp h
  Function.Injective.countable fun _ _ h => String.toList_injective h

instance finiteUInt16 : Finite UInt16 := .of_injective UInt16.toFin fun _ _ h => UInt16.toFin_inj.mp h

instance finiteUInt64 : Finite UInt64 := .of_injective UInt64.toFin fun _ _ h => UInt64.toFin_inj.mp h

structure ServerUserConfig where
  (name password : String)
  deriving Countable

structure ServerConfig where
  serverPort : UInt16
  password : String
  method : Option String
  noDelay : Option Bool
  (plugin pluginOpts pluginMode mode : Option String)
  users : Option (List ServerUserConfig)
  deriving Countable

abbrev AddRequest := ServerConfig

structure RemoveRequest where
  serverPort : UInt16
  deriving Countable

structure StatRequest where
  stat : UInt16 → Option UInt64
  deriving Countable

inductive Error where
  | jsonError
  | fromUtf8Error
  | missingParameter
  | redundantParameter
  | unrecognizedCommand (cmd : List Char)
  deriving DecidableEq, Repr

def jsonSpace : Bytes := [0x20, 0x09, 0x0a, 0x0d]

structure Json (T : Type) where
  toVec : T → Bytes
  fromSlice : Bytes → Option T
  inverts : ∀ t before after, before ⊆ jsonSpace → after ⊆ jsonSpace → fromSlice (before ++ (toVec t ++ after)) = some t

structure Library where
  add : Json AddRequest
  remove : Json RemoveRequest
  stat : Json StatRequest

noncomputable def Json.counting (T : Type) [Countable T] : Json T :=
  letI := Encodable.ofCountable T
  { toVec := fun t => replicate (Encodable.encode t) 0x31
    fromSlice := fun b => Encodable.decode (b.count 0x31)
    inverts := by
      intro t before after hbefore hafter
      have hspace : ∀ b : Bytes, b ⊆ jsonSpace → b.count 0x31 = 0 := fun b hb =>
        count_eq_zero.mpr fun h => absurd (hb h) (by decide)
      simp [count_append, hspace _ hbefore, hspace _ hafter] }

noncomputable def Library.counting : Library := ⟨.counting _, .counting _, .counting _⟩

/-! ## 1. One command -/

def splitn : Bytes → Bytes × Option Bytes
  | [] => ([], none)
  | b :: buf => if b = 0x3a then ([], some buf) else (b :: (splitn buf).1, (splitn buf).2)

def command (buf : Bytes) : Except Error (List Char × Option Bytes) :=
  match fromUtf8 (splitn buf).1 with
  | none => .error .fromUtf8Error
  | some cmd => .ok (trim cmd, (splitn buf).2)

variable {T : Type}

def parameter (J : Json T) : Option Bytes → Except Error T
  | none => .error .missingParameter
  | some param =>
    match J.fromSlice param with
    | none => .error .jsonError
    | some req => .ok req

def fromBytes (name : List Char) (J : Json T) (buf : Bytes) : Except Error T := do
  let (cmd, param) ← command buf
  if cmd ≠ name then .error (.unrecognizedCommand cmd) else parameter J param

def toBytes (name : List Char) (J : Json T) (req : T) : Bytes :=
  utf8 name ++ 0x3a :: ([0x20] ++ (J.toVec req ++ [0x0a]))

def bareFromBytes (name : List Char) (buf : Bytes) : Except Error Unit :=
  match fromUtf8 buf with
  | none => .error .fromUtf8Error
  | some cmd => if cmd ≠ name then .error (.unrecognizedCommand cmd) else .ok ()

def bareToBytes (name : List Char) : Bytes := utf8 (name ++ ['\n'])

def addName : List Char := ['a', 'd', 'd']

def removeName : List Char := ['r', 'e', 'm', 'o', 'v', 'e']

def listName : List Char := ['l', 'i', 's', 't']

def pingName : List Char := ['p', 'i', 'n', 'g']

def statName : List Char := ['s', 't', 'a', 't']

/-! ## 2. All commands -/

inductive ManagerRequest where
  | add (req : AddRequest)
  | remove (req : RemoveRequest)
  | list
  | ping
  | stat (req : StatRequest)

namespace ManagerRequest

variable (L : Library)

def toBytes : ManagerRequest → Bytes
  | .add req => Manager.toBytes addName L.add req
  | .remove req => Manager.toBytes removeName L.remove req
  | .list => bareToBytes listName
  | .ping => bareToBytes pingName
  | .stat req => Manager.toBytes statName L.stat req

def ownFromBytes (buf : Bytes) : ManagerRequest → Except Error ManagerRequest
  | .add _ => (Manager.fromBytes addName L.add buf).map .add
  | .remove _ => (Manager.fromBytes removeName L.remove buf).map .remove
  | .list => (bareFromBytes listName buf).map fun () => .list
  | .ping => (bareFromBytes pingName buf).map fun () => .ping
  | .stat _ => (Manager.fromBytes statName L.stat buf).map .stat

def ofCommand (cmd : List Char) (param : Option Bytes) : Except Error ManagerRequest :=
  if cmd = addName then (parameter L.add param).map .add
  else if cmd = removeName then (parameter L.remove param).map .remove
  else if cmd = listName then if param.isSome then .error .redundantParameter else .ok .list
  else if cmd = pingName then if param.isSome then .error .redundantParameter else .ok .ping
  else if cmd = statName then (parameter L.stat param).map .stat
  else .error (.unrecognizedCommand cmd)

def fromBytes (buf : Bytes) : Except Error ManagerRequest := do
  let (cmd, param) ← command buf
  ofCommand L cmd param

end ManagerRequest

theorem splitn_append {cmd : Bytes} (h : 0x3a ∉ cmd) (param : Bytes) :
    splitn (cmd ++ 0x3a :: param) = (cmd, some param) := by
  induction cmd with
  | nil => rfl
  | cons b cmd ih =>
    rw [mem_cons, not_or] at h
    rw [cons_append, splitn, if_neg (Ne.symm h.1), ih h.2]

theorem splitn_bare {cmd : Bytes} (h : 0x3a ∉ cmd) : splitn cmd = (cmd, none) := by
  induction cmd with
  | nil => rfl
  | cons b cmd ih =>
    rw [mem_cons, not_or] at h
    rw [splitn, if_neg (Ne.symm h.1), ih h.2]

def Plain (name : List Char) : Prop := 0x3a ∉ utf8 (name ++ ['\n']) ∧ trim name = name ∧ trim (name ++ ['\n']) = name

variable {name : List Char}

theorem command_toBytes (hname : Plain name) (J : Json T) (req : T) :
    command (toBytes name J req) = .ok (name, some ([0x20] ++ (J.toVec req ++ [0x0a]))) := by
  have hcolon : 0x3a ∉ utf8 name := fun h => hname.1 (by rw [utf8_append]; exact mem_append_left _ h)
  rw [command, toBytes, splitn_append hcolon]
  simp only [fromUtf8_utf8, hname.2.1]

theorem command_bareToBytes (hname : Plain name) : command (bareToBytes name) = .ok (name, none) := by
  rw [command, bareToBytes, splitn_bare hname.1]
  simp only [fromUtf8_utf8, hname.2.2]

theorem parameter_toVec (J : Json T) (req : T) : parameter J (some ([0x20] ++ (J.toVec req ++ [0x0a]))) = .ok req := by
  have hinv := J.inverts req [0x20] [0x0a] (by decide) (by decide)
  simp only [parameter, hinv]

theorem fromBytes_toBytes (hname : Plain name) (J : Json T) (req : T) :
    fromBytes name J (toBytes name J req) = .ok req := by
  rw [fromBytes, command_toBytes hname]
  exact (if_neg (not_not.mpr rfl)).trans (parameter_toVec J req)

theorem bareFromBytes_bareToBytes (name : List Char) :
    bareFromBytes name (bareToBytes name) = .error (.unrecognizedCommand (name ++ ['\n'])) := by
  rw [bareFromBytes, bareToBytes, fromUtf8_utf8]
  exact if_pos (by simp)

theorem plain_names : Plain addName ∧ Plain removeName ∧ Plain listName ∧ Plain pingName ∧ Plain statName := by
  unfold Plain
  decide +kernel

namespace ManagerRequest

theorem fromBytes_of_command {L : Library} {buf : Bytes} {cmd : List Char} {param : Option Bytes}
    (h : command buf = .ok (cmd, param)) : fromBytes L buf = ofCommand L cmd param := by
  rw [fromBytes, h]
  rfl

/-- Every request is read back by the parser of all requests, and by its own but for `list` and `ping`. -/
theorem roundTrip_iff (L : Library) (req : ManagerRequest) : fromBytes L (req.toBytes L) = .ok req ∧
    (req.ownFromBytes L (req.toBytes L) = .ok req ↔ req ≠ .list ∧ req ≠ .ping) := by
  obtain ⟨hadd, hremove, hlist, hping, hstat⟩ := plain_names
  cases req with
  | add req =>
    have hall : ofCommand L addName (some ([0x20] ++ (L.add.toVec req ++ [0x0a]))) = .ok (add req) :=
      congrArg (Except.map add) (parameter_toVec L.add req)
    have hown := congrArg (Except.map add) (fromBytes_toBytes hadd L.add req)
    exact ⟨(fromBytes_of_command (command_toBytes hadd L.add req)).trans hall, iff_of_true hown ⟨nofun, nofun⟩⟩
  | remove req =>
    have hall : ofCommand L removeName (some ([0x20] ++ (L.remove.toVec req ++ [0x0a]))) = .ok (remove req) :=
      congrArg (Except.map remove) (parameter_toVec L.remove req)
    have hown := congrArg (Except.map remove) (fromBytes_toBytes hremove L.remove req)
    exact ⟨(fromBytes_of_command (command_toBytes hremove L.remove req)).trans hall, iff_of_true hown ⟨nofun, nofun⟩⟩
  | list =>
    have hown := congrArg (Except.map fun () => list) (bareFromBytes_bareToBytes listName)
    refine ⟨fromBytes_of_command (command_bareToBytes hlist), iff_of_false (fun h => ?_) fun h => h.1 rfl⟩
    exact nomatch hown.symm.trans h
  | ping =>
    have hown := congrArg (Except.map fun () => ping) (bareFromBytes_bareToBytes pingName)
    refine ⟨fromBytes_of_command (command_bareToBytes hping), iff_of_false (fun h => ?_) fun h => h.2 rfl⟩
    exact nomatch hown.symm.trans h
  | stat req =>
    have hall : ofCommand L statName (some ([0x20] ++ (L.stat.toVec req ++ [0x0a]))) = .ok (stat req) :=
      congrArg (Except.map stat) (parameter_toVec L.stat req)
    have hown := congrArg (Except.map stat) (fromBytes_toBytes hstat L.stat req)
    exact ⟨(fromBytes_of_command (command_toBytes hstat L.stat req)).trans hall, iff_of_true hown ⟨nofun, nofun⟩⟩

def oneUser : ManagerRequest :=
  .add ⟨8388, "secret", some "aes-256-gcm", none, none, none, none, none, some [⟨"user", "AAAA"⟩]⟩

theorem roundTrip_oneUser : fromBytes .counting (oneUser.toBytes .counting) = .ok oneUser ∧
      oneUser.ownFromBytes .counting (oneUser.toBytes .counting) = .ok oneUser ∧
      list.ownFromBytes .counting (list.toBytes .counting) ≠ .ok list :=
  ⟨(roundTrip_iff .counting oneUser).1, (roundTrip_iff .counting oneUser).2.mpr ⟨nofun, nofun⟩,
    fun h => ((roundTrip_iff .counting list).2.mp h).1 rfl⟩

end ManagerRequest

theorem bare_requests_refused :
    bareFromBytes listName (bareToBytes listName) = .error (.unrecognizedCommand ['l', 'i', 's', 't', '\n']) ∧
      bareFromBytes pingName (bareToBytes pingName) = .error (.unrecognizedCommand ['p', 'i', 'n', 'g', '\n']) :=
  ⟨bareFromBytes_bareToBytes listName, bareFromBytes_bareToBytes pingName⟩

end Shadowsocks.Manager
