import LuaNet.Lib.Codec
import LuaNet.Lib.Raising

/-! Walks over a buffer: computations that read bytes of it, note what they come by, and may
raise. A read that is not inside the buffer stops the walk, and so does a loop that runs out of
turns. -/

namespace LuaNet.Lib

variable {σ ε ν α β : Type}

/-- Why a walk has stopped short. -/
inductive Halt (ε : Type)
  | overread (offset width : Nat)
  | stuck
  | raised (e : ε)
deriving DecidableEq

abbrev Walk (σ ε ν α : Type) := Raising (List ν × σ) (Halt ε) α

namespace Walk

def fetch (buffer : Bytes) (offset width : Nat) : Walk σ ε ν Bytes :=
  if offset + width ≤ buffer.length then pure ((buffer.drop offset).take width)
  else Raising.raise (.overread offset width)

def stuck : Walk σ ε ν α := Raising.raise .stuck

def visit (v : ν) : Walk σ ε ν Unit := Raising.update fun s => (s.1 ++ [v], s.2)

def store (fault : ε) (offset : Nat) (src : Bytes) : Walk Bytes ε ν Unit := fun s =>
  if offset + src.length ≤ s.2.length then
    (.ok (), (s.1, s.2.take offset ++ src ++ s.2.drop (offset + src.length)))
  else (.error (.raised fault), s)

def lift (m : Raising σ ε α) : Walk σ ε ν α := fun s =>
  match m s.2 with
  | (.ok a, t) => (.ok a, (s.1, t))
  | (.error e, t) => (.error (.raised e), (s.1, t))

theorem fetch_of_le {buffer : Bytes} {offset width : Nat} (h : offset + width ≤ buffer.length) :
    (fetch buffer offset width : Walk σ ε ν Bytes) =
      pure ((buffer.drop offset).take width) := if_pos h

theorem store_of_le {fault : ε} {offset : Nat} {src buffer : Bytes}
    (h : offset + src.length ≤ buffer.length) (vs : List ν) :
    store fault offset src (vs, buffer) =
      (.ok (), (vs, buffer.take offset ++ src ++ buffer.drop (offset + src.length))) := if_pos h

theorem pure_bind (a : α) (f : α → Walk σ ε ν β) : (pure a : Walk σ ε ν α) >>= f = f a := rfl

theorem lift_of_ok {m : Raising σ ε α} {s t : σ} {a : α} (h : m s = (.ok a, t)) (vs : List ν) :
    lift m (vs, s) = (.ok a, (vs, t)) := by
  unfold lift
  rw [h]

theorem lift_of_error {m : Raising σ ε α} {s t : σ} {e : ε} (h : m s = (.error e, t))
    (vs : List ν) : lift m (vs, s) = (.error (.raised e), (vs, t)) := by
  unfold lift
  rw [h]

theorem lift_bind (m : Raising σ ε α) (f : α → Raising σ ε β) :
    (lift (m >>= f) : Walk σ ε ν β) = lift m >>= fun a => lift (f a) := by
  funext s
  obtain ⟨vs, s⟩ := s
  match h : m s with
  | (.ok a, t) =>
    rw [Raising.bind_of_ok (lift_of_ok h vs)]
    unfold lift
    rw [Raising.bind_of_ok h]
  | (.error e, t) =>
    rw [Raising.bind_of_error (lift_of_error h vs), lift_of_error (Raising.bind_of_error h)]

end Walk

end LuaNet.Lib
