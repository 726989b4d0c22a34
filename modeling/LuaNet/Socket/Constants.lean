import Mathlib.Algebra.Group.Int.Defs
import Mathlib.Algebra.Group.Nat.Defs
import Mathlib.Data.List.Basic
import Mathlib.Data.List.Nodup

/-! The name tables of `constants.h`, with the values that Linux gives them, and the check of
`MSG_*` arguments. -/

namespace LuaNet.Socket

structure NetConstant where
  name : String
  value : Nat

def netConstantName2value (map : List NetConstant) (name : String) : Option Nat :=
  (map.find? fun entry => entry.name = name).map (·.value)

def netConstantValue2name (map : List NetConstant) (value : Int) : Option String :=
  (map.find? fun entry => (entry.value : Int) = value).map (·.name)

def netMsgflagMap : List NetConstant :=
  [⟨"batch", 0x40000⟩, ⟨"cmsg_cloexec", 0x40000000⟩, ⟨"confirm", 0x800⟩, ⟨"dontroute", 0x4⟩,
    ⟨"dontwait", 0x40⟩, ⟨"eor", 0x80⟩, ⟨"errqueue", 0x2000⟩, ⟨"fastopen", 0x20000000⟩,
    ⟨"more", 0x8000⟩, ⟨"nosignal", 0x4000⟩, ⟨"oob", 0x1⟩, ⟨"peek", 0x2⟩, ⟨"tryhard", 0x4⟩,
    ⟨"waitall", 0x100⟩, ⟨"waitforone", 0x10000⟩]

def solSocket : Nat := 1

def ipprotoIp : Nat := 0

def ipprotoIpv6 : Nat := 41

def scmRights : Nat := 1

def scmTimestamp : Nat := 29

def netCmsgLevelMap : List NetConstant :=
  [⟨"socket", solSocket⟩, ⟨"ip", ipprotoIp⟩, ⟨"ipv6", ipprotoIpv6⟩, ⟨"tcp", 6⟩, ⟨"udp", 17⟩]

def netCmsgSocketTypeMap : List NetConstant :=
  [⟨"rights", scmRights⟩, ⟨"timestamp", scmTimestamp⟩, ⟨"credentials", 2⟩]

def netCmsgIpTypeMap : List NetConstant := [⟨"ttl", 2⟩, ⟨"tos", 1⟩]

def netCmsgIpv6TypeMap : List NetConstant :=
  [⟨"pktinfo", 50⟩, ⟨"hoplimit", 52⟩, ⟨"tclass", 67⟩, ⟨"hopopts", 54⟩, ⟨"dstopts", 59⟩,
    ⟨"rthdr", 57⟩]

/-- The levels without a table have no type that is known by name. -/
def netCmsgTypeMap (level : Int) : Option (List NetConstant) :=
  if level = solSocket then some netCmsgSocketTypeMap
  else if level = ipprotoIp then some netCmsgIpTypeMap
  else if level = ipprotoIpv6 then some netCmsgIpv6TypeMap
  else none

def netMsgflagValue (name : String) : Option Nat := netConstantName2value netMsgflagMap name

def netCmsgLevelValue (name : String) : Option Nat := netConstantName2value netCmsgLevelMap name

def netCmsgLevelName (value : Int) : Option String := netConstantValue2name netCmsgLevelMap value

def netCmsgTypeValue (level : Int) (name : String) : Option Nat :=
  (netCmsgTypeMap level).bind fun map => netConstantName2value map name

def netCmsgTypeName (level value : Int) : Option String :=
  (netCmsgTypeMap level).bind fun map => netConstantValue2name map value

inductive LuaError
  | arg (i : Nat) (msg : String)
  | error (msg : String)
deriving DecidableEq

def cString (s : String) : String := (s.takeWhile fun c => c != Char.ofNat 0).toString

inductive FlagArg
  | nil
  | string (s : String)
  | other

def netCheckMsgflags (i : Nat) : List FlagArg → Except LuaError Nat
  | [] => .ok 0
  | .nil :: args => netCheckMsgflags (i + 1) args
  | .other :: _ => .error (.arg i "flag must be a string")
  | .string s :: args =>
    match netMsgflagValue s with
    | none =>
      .error (.arg i ("unknown MSG_* flag: '" ++ ((cString s).take 64).toString ++ "'" ++
        if 64 < s.length then "..." else ""))
    | some value => (netCheckMsgflags (i + 1) args).map (value ||| ·)

/-- No value stands in the table twice, and each is an `int`. -/
structure NetConstantMap (map : List NetConstant) : Prop where
  values : (map.map (·.value)).Nodup
  ints : ∀ entry ∈ map, entry.value < 2 ^ 31

theorem netCmsgLevelMap_map : NetConstantMap netCmsgLevelMap :=
  ⟨by decide, by decide⟩

theorem netCmsgTypeMap_map {level : Int} {map : List NetConstant}
    (h : netCmsgTypeMap level = some map) : NetConstantMap map := by
  unfold netCmsgTypeMap at h
  split_ifs at h <;> cases h <;> exact ⟨by decide, by decide⟩

theorem name2value_mem {map : List NetConstant} {name : String} {value : Nat}
    (h : netConstantName2value map name = some value) : ⟨name, value⟩ ∈ map := by
  obtain ⟨entry, hentry, rfl⟩ := Option.map_eq_some_iff.1 h
  have hname : entry.name = name := by simpa using List.find?_some hentry
  rw [← hname]
  exact List.mem_of_find?_eq_some hentry

theorem name2value_lt {map : List NetConstant} (hmap : NetConstantMap map) {name : String}
    {value : Nat} (h : netConstantName2value map name = some value) : value < 2 ^ 31 :=
  hmap.ints _ (name2value_mem h)

theorem value2name_of_name2value {map : List NetConstant} (hmap : NetConstantMap map)
    {name : String} {value : Nat} (h : netConstantName2value map name = some value) :
    netConstantValue2name map value = some name := by
  have hmem := name2value_mem h
  have hsome : (map.find? fun entry => (entry.value : Int) = value).isSome = true :=
    List.find?_isSome.2 ⟨_, hmem, decide_eq_true rfl⟩
  obtain ⟨entry, hentry⟩ := Option.isSome_iff_exists.1 hsome
  have hvalue : (entry.value : Int) = value := by simpa using List.find?_some hentry
  have heq : entry = ⟨name, value⟩ :=
    List.inj_on_of_nodup_map hmap.values (List.mem_of_find?_eq_some hentry) hmem
      (Int.ofNat_inj.1 hvalue)
  rw [netConstantValue2name, hentry, heq]
  rfl

theorem name_eq_iff {map : List NetConstant} (hmap : NetConstantMap map) {name name' : String}
    {value value' : Nat} (h : netConstantName2value map name = some value)
    (h' : netConstantName2value map name' = some value') : name = name' ↔ value = value' := by
  constructor
  · rintro rfl
    exact Option.some.inj (h.symm.trans h')
  · rintro rfl
    exact Option.some.inj
      ((value2name_of_name2value hmap h).symm.trans (value2name_of_name2value hmap h'))

end LuaNet.Socket
