import LuaNet.Addrinfo.UnixAddr
import LuaNet.Shared.OptCheck
import LuaNet.Socket.Constants
import LuaNet.Tls.CtxOptions
import Mathlib.Data.Nat.Bitwise

/-! The options of `addrinfo.c`: the name tables, with the values that Linux gives them, and the
callbacks that write to the hints. -/

namespace LuaNet.Addrinfo

open LuaNet.Lib LuaNet.Shared LuaNet.Socket LuaNet.Tls

def netFamilyMap : List NetConstant :=
  [⟨"unspec", 0⟩, ⟨"unix", 1⟩, ⟨"inet", 2⟩, ⟨"inet6", 10⟩, ⟨"packet", 17⟩, ⟨"route", 16⟩]

def netSocktypeMap : List NetConstant :=
  [⟨"unspec", 0⟩, ⟨"stream", 1⟩, ⟨"dgram", 2⟩, ⟨"seqpacket", 5⟩, ⟨"raw", 3⟩, ⟨"rdm", 4⟩]

def netProtocolMap : List NetConstant :=
  [⟨"auto", 0⟩, ⟨"icmp", 1⟩, ⟨"igmp", 2⟩, ⟨"tcp", 6⟩, ⟨"udp", 17⟩, ⟨"ipv6", 41⟩, ⟨"raw", 255⟩,
    ⟨"icmpv6", 58⟩, ⟨"sctp", 132⟩]

def aiPassive : Nat := 0x1

def aiCanonname : Nat := 0x2

def netAddrinfoFlagMap : List NetConstant :=
  [⟨"numerichost", 0x4⟩, ⟨"numericserv", 0x400⟩, ⟨"passive", aiPassive⟩,
    ⟨"canonname", aiCanonname⟩, ⟨"addrconfig", 0x20⟩, ⟨"v4mapped", 0x8⟩, ⟨"all", 0x10⟩,
    ⟨"idn", 0x40⟩, ⟨"canonidn", 0x80⟩]

def name2value (map : List NetConstant) (name : LuaString) : Option Nat :=
  (map.find? fun entry => ascii entry.name = name.bytes).map (·.value)

inductive HintElem
  | string (s : LuaString)
  | other (typename : String)
deriving DecidableEq

/-- A value of an options table; a table is what its elements are. -/
inductive HintVal
  | string (s : LuaString)
  | boolean (b : Bool)
  | table (elems : List HintElem)
  | other (typename : String)
deriving DecidableEq

def HintVal.typename : HintVal → String
  | .string _ => "string"
  | .boolean _ => "boolean"
  | .table _ => "table"
  | .other typename => typename

def HintElem.val : HintElem → HintVal
  | .string s => .string s
  | .other typename => .other typename

def wrongHint (name expected : String) (v : HintVal) : String :=
  "opts." ++ name ++ " must be " ++ expected ++ ", got " ++ v.typename

def hintConstant (name : String) (map : List NetConstant) : HintVal → Except String Nat
  | .string s =>
    match name2value map s with
    | some value => .ok value
    | none => .error ("invalid opts." ++ name ++ " value: '" ++ printed s ++ "'")
  | v => .error (wrongHint name "string" v)

def hintBoolean (name : String) : HintVal → Except String Bool
  | .boolean b => .ok b
  | v => .error (wrongHint name "boolean" v)

def elemName (name : String) (i : Nat) : String :=
  "opts." ++ name ++ "[" ++ toString (toSigned 32 (i % 2 ^ 32)) ++ "]"

def flagsFrom (name : String) : Nat → Nat → List HintElem → Except String Nat
  | _, flags, [] => .ok flags
  | i, flags, .string s :: elems =>
    match name2value netAddrinfoFlagMap s with
    | some value => flagsFrom name (i + 1) (flags ||| value) elems
    | none => .error ("invalid " ++ elemName name i ++ " value: '" ++ printed s ++ "'")
  | i, _, .other typename :: _ =>
    .error (elemName name i ++ " must be string, got " ++ typename)

def hintFlags (name : String) : HintVal → Except String Nat
  | .table elems => flagsFrom name 1 0 elems
  | v => .error (wrongHint name "table" v)

def setFamily (value : Nat) (hints : AddrHints) : AddrHints := { hints with family := value }

def setSocktype (value : Nat) (hints : AddrHints) : AddrHints := { hints with socktype := value }

def setProtocol (value : Nat) (hints : AddrHints) : AddrHints := { hints with protocol := value }

def orFlags (flags : Nat) (hints : AddrHints) : AddrHints :=
  { hints with flags := hints.flags ||| flags }

def orFlagIf (flag : Nat) (b : Bool) (hints : AddrHints) : AddrHints :=
  if b then orFlags flag hints else hints

abbrev HintM := OptM HintVal AddrHints

/-- The loop of `check_flags` with `left` elements to go. The value is a table on the top. -/
def checkFlagsLoop (name : String) : Nat → Nat → Nat → HintM Nat
  | 0, _, flags => return flags
  | left + 1, i, flags => do
    match ← onStack StackM.top with
    | .value (.table elems) =>
      match elems[i - 1]? with
      | some elem => do
        onStack (StackM.push (.value elem.val))
        match elem with
        | .string s => do
          onStack (StackM.pop 1)
          match name2value netAddrinfoFlagMap s with
          | some value => checkFlagsLoop name left (i + 1) (flags ||| value)
          | none => Raising.raise (.raised
              ("invalid " ++ elemName name i ++ " value: '" ++ printed s ++ "'"))
        | .other typename =>
          Raising.raise (.raised (elemName name i ++ " must be string, got " ++ typename))
      | none => Raising.raise .misuse
    | _ => Raising.raise .misuse

def checkFlags (name : String) : HintM Unit := do
  match ← onStack StackM.top with
  | .value (.table elems) => do
    let flags ← checkFlagsLoop name elems.length 1 0
    Raising.update fun s => { s with ctx := orFlags flags s.ctx }
  | .value v => Raising.raise (.raised (wrongHint name "table" v))
  | _ => Raising.raise .misuse

section Flags

variable {b : BoundedStack (OptSlot HintVal)} {below : List (OptSlot HintVal)}
  {elems : List HintElem}

theorem checkFlagsLoop_run (name : String) (ctx : AddrHints) (trace : List OptEvent)
    (hroom : below.length + 1 < b.ensured) (rest done : List HintElem) (flags : Nat)
    (helems : elems = done ++ rest) :
    (∀ value, flagsFrom name (done.length + 1) flags rest = .ok value →
      checkFlagsLoop name rest.length (done.length + 1) flags
          ⟨b.withSlots (below ++ [.value (.table elems)]), ctx, trace⟩ =
        (.ok value, ⟨b.withSlots (below ++ [.value (.table elems)]), ctx, trace⟩)) ∧
    ∀ msg, flagsFrom name (done.length + 1) flags rest = .error msg →
      ∃ t, checkFlagsLoop name rest.length (done.length + 1) flags
          ⟨b.withSlots (below ++ [.value (.table elems)]), ctx, trace⟩ =
        (.error (.raised msg), ⟨t, ctx, trace⟩) := by
  induction rest generalizing done flags with
  | nil =>
    refine ⟨fun value h => ?_, fun msg h => ?_⟩
    · cases h
      rfl
    · cases h
  | cons elem rest ih =>
    have hnext : elems = (done ++ [elem]) ++ rest := by rw [helems, List.append_assoc]; rfl
    have hdone : (done ++ [elem]).length = done.length + 1 := by rw [List.length_append]; rfl
    have helem : elems[done.length + 1 - 1]? = some elem := by
      rw [helems, Nat.add_sub_cancel, List.getElem?_append_right (Nat.le_refl _), Nat.sub_self]
      rfl
    have hslots : (below ++ [OptSlot.value (HintVal.table elems)]).length < b.ensured := by
      rw [List.length_append]
      exact hroom
    have hpush : (StackM.push (.value elem.val) : StackM (OptSlot HintVal) String Unit)
        (b.withSlots (below ++ [.value (.table elems)])) =
          (.ok (), b.withSlots (below ++ [.value (.table elems)] ++ [.value elem.val])) :=
      StackM.push_run hslots _
    rw [List.length_cons, checkFlagsLoop,
      Raising.bind_of_ok (onStack_run (StackM.top_snoc below _) ctx trace)]
    simp only [helem]
    rw [Raising.bind_of_ok (onStack_run hpush ctx trace)]
    cases elem with
    | other typename =>
      refine ⟨fun value h => ?_, fun msg h => ?_⟩
      · cases h
      · cases h
        exact ⟨_, rfl⟩
    | string s =>
      have hpop := onStack_run (StackM.pop_snoc (ε := String)
        (s := b) (below ++ [.value (.table elems)]) (.value (.string s))) ctx trace
      rw [flagsFrom]
      cases hvalue : name2value netAddrinfoFlagMap s with
      | none =>
        refine ⟨fun value h => ?_, fun msg h => ?_⟩
        · cases h
        · cases h
          refine ⟨b.withSlots (below ++ [.value (.table elems)]),
            (Raising.bind_of_ok hpop).trans ?_⟩
          simp only [hvalue]
          rfl
      | some value =>
        have hrun := ih (done ++ [.string s]) (flags ||| value) hnext
        rw [hdone] at hrun
        refine ⟨fun result h => ?_, fun msg h => ?_⟩
        · refine (Raising.bind_of_ok hpop).trans ?_
          simp only [hvalue]
          exact hrun.1 result h
        · obtain ⟨t, hfail⟩ := hrun.2 msg h
          refine ⟨t, (Raising.bind_of_ok hpop).trans ?_⟩
          simp only [hvalue]
          exact hfail

theorem flags_room (key : OptSlot HintVal) (h : below.length + calleeSlots ≤ b.ensured) :
    (below ++ [key]).length + 1 < b.ensured := by
  rw [calleeSlots] at h
  rw [List.length_append, List.length_singleton]
  omega

end Flags

theorem checkFlags_runs (idx : Nat) (name : String) :
    CallbackRuns idx (checkFlags name) (writing (hintFlags name) orFlags) where
  accepts b ctx trace below key v change _ _ hroom h := by
    obtain ⟨flags, hflags, rfl⟩ := except_map_eq_ok h
    refine ⟨below, .value v, ?_, rfl, Nat.le_refl _, Nat.le_succ _⟩
    rw [List.append_cons below, checkFlags,
      Raising.bind_of_ok (onStack_run (StackM.top_snoc _ _) ctx trace)]
    cases v with
    | table elems =>
      have hloop := checkFlagsLoop_run name ctx trace (flags_room key hroom) elems [] 0 rfl
      exact Raising.bind_of_ok (hloop.1 flags hflags)
    | _ => cases hflags
  rejects b ctx trace below key v msg _ _ hroom h := by
    have herr := except_map_eq_error h
    have htop := onStack_run (StackM.top_snoc (ε := String) (s := b) (below ++ [key])
      (.value v)) ctx trace
    rw [List.append_cons below, checkFlags, Raising.bind_of_ok htop]
    cases v with
    | table elems =>
      have hloop := checkFlagsLoop_run name ctx trace (flags_room key hroom) elems [] 0 rfl
      obtain ⟨t, hrun⟩ := hloop.2 msg herr
      exact ⟨t, ctx, Raising.bind_of_error hrun⟩
    | _ =>
      cases herr
      exact ⟨_, ctx, rfl⟩

/-! The specs of `addrinfo.c`. -/

section Specs

variable (idx : Nat)

def checkFamily : OptSpec HintVal AddrHints idx :=
  .read (ascii "family") (writing (hintConstant "family" netFamilyMap) setFamily)

def checkSocktype : OptSpec HintVal AddrHints idx :=
  .read (ascii "socktype") (writing (hintConstant "socktype" netSocktypeMap) setSocktype)

def checkProtocol : OptSpec HintVal AddrHints idx :=
  .read (ascii "protocol") (writing (hintConstant "protocol" netProtocolMap) setProtocol)

def checkFlagsSpec : OptSpec HintVal AddrHints idx where
  name := ascii "flags"
  callback := checkFlags "flags"
  check := writing (hintFlags "flags") orFlags
  runs := checkFlags_runs idx "flags"

def checkPassive : OptSpec HintVal AddrHints idx :=
  .read (ascii "passive") (writing (hintBoolean "passive") (orFlagIf aiPassive))

def checkCanonname : OptSpec HintVal AddrHints idx :=
  .read (ascii "canonname") (writing (hintBoolean "canonname") (orFlagIf aiCanonname))

def optsAddrinfoSpecs : List (OptSpec HintVal AddrHints idx) :=
  [checkSocktype idx, checkProtocol idx, checkFlagsSpec idx, checkPassive idx, checkCanonname idx]

def optsGetaddrinfoSpecs : List (OptSpec HintVal AddrHints idx) :=
  checkFamily idx :: optsAddrinfoSpecs idx

theorem orFlags_comm (f g : Nat) (hints : AddrHints) :
    orFlags f (orFlags g hints) = orFlags g (orFlags f hints) := by
  rw [orFlags, orFlags, orFlags, orFlags]
  simp only [Nat.or_right_comm]

theorem orFlagIf_comm {flag : Nat} (f : AddrHints → AddrHints)
    (h : ∀ hints, f (orFlags flag hints) = orFlags flag (f hints)) (b : Bool)
    (hints : AddrHints) : f (orFlagIf flag b hints) = orFlagIf flag b (f hints) := by
  cases b with
  | true => exact h hints
  | false => rfl

theorem checkSocktype_commutes : ∀ x ∈ [checkProtocol idx, checkFlagsSpec idx, checkPassive idx,
    checkCanonname idx], (checkSocktype idx).Commutes x := by
  simp only [List.forall_mem_cons]
  refine ⟨?_, ?_, ?_, ?_, List.forall_mem_nil _⟩
  · exact writing_commutes rfl rfl fun _ _ _ => rfl
  · exact writing_commutes rfl rfl fun _ _ _ => rfl
  · exact writing_commutes rfl rfl fun a b => orFlagIf_comm (setSocktype a) (fun _ => rfl) b
  · exact writing_commutes rfl rfl fun a b => orFlagIf_comm (setSocktype a) (fun _ => rfl) b

theorem checkProtocol_commutes : ∀ x ∈ [checkFlagsSpec idx, checkPassive idx, checkCanonname idx],
    (checkProtocol idx).Commutes x := by
  simp only [List.forall_mem_cons]
  refine ⟨?_, ?_, ?_, List.forall_mem_nil _⟩
  · exact writing_commutes rfl rfl fun _ _ _ => rfl
  · exact writing_commutes rfl rfl fun a b => orFlagIf_comm (setProtocol a) (fun _ => rfl) b
  · exact writing_commutes rfl rfl fun a b => orFlagIf_comm (setProtocol a) (fun _ => rfl) b

theorem checkFlagsSpec_commutes : ∀ x ∈ [checkPassive idx, checkCanonname idx],
    (checkFlagsSpec idx).Commutes x := by
  simp only [List.forall_mem_cons]
  refine ⟨?_, ?_, List.forall_mem_nil _⟩
  · exact writing_commutes rfl rfl fun f b => orFlagIf_comm (orFlags f) (orFlags_comm f aiPassive) b
  · exact writing_commutes rfl rfl fun f b => orFlagIf_comm (orFlags f) (orFlags_comm f aiCanonname) b

theorem checkPassive_commutes : (checkPassive idx).Commutes (checkCanonname idx) := by
  refine writing_commutes rfl rfl fun a b => orFlagIf_comm _ (fun hints => ?_) b
  exact (orFlagIf_comm _ (orFlags_comm aiCanonname aiPassive) a hints).symm

theorem optsAddrinfoSpecs_commute : (optsAddrinfoSpecs idx).Pairwise OptSpec.Commutes := by
  refine .cons (checkSocktype_commutes idx) (.cons (checkProtocol_commutes idx)
    (.cons (checkFlagsSpec_commutes idx) (.cons ?_ (.cons (List.forall_mem_nil _) .nil))))
  simp only [List.forall_mem_cons]
  exact ⟨checkPassive_commutes idx, List.forall_mem_nil _⟩

theorem checkFamily_commutes : ∀ x ∈ optsAddrinfoSpecs idx, (checkFamily idx).Commutes x := by
  simp only [optsAddrinfoSpecs, List.forall_mem_cons]
  refine ⟨?_, ?_, ?_, ?_, ?_, List.forall_mem_nil _⟩
  · exact writing_commutes rfl rfl fun _ _ _ => rfl
  · exact writing_commutes rfl rfl fun _ _ _ => rfl
  · exact writing_commutes rfl rfl fun _ _ _ => rfl
  · exact writing_commutes rfl rfl fun a b => orFlagIf_comm (setFamily a) (fun _ => rfl) b
  · exact writing_commutes rfl rfl fun a b => orFlagIf_comm (setFamily a) (fun _ => rfl) b

def addrinfoNames : List Bytes := ["socktype", "protocol", "flags", "passive", "canonname"].map ascii

theorem optsAddrinfoSpecs_independent : Independent (optsAddrinfoSpecs idx) :=
  .of_names addrinfoNames rfl (by decide) (by decide) (by decide)
    (optsAddrinfoSpecs_commute idx)

theorem optsGetaddrinfoSpecs_independent : Independent (optsGetaddrinfoSpecs idx) :=
  .of_names (ascii "family" :: addrinfoNames) rfl (by decide) (by decide)
    (by decide) (.cons (checkFamily_commutes idx) (optsAddrinfoSpecs_commute idx))

end Specs

end LuaNet.Addrinfo
