/-!
# The call stack

Room for sixteen return addresses. The slots below the depth are live; a
return leaves its address behind in a dead slot, where only a full report of
the machine shows it. The depth never exceeds the room, by the type.
-/

namespace ChipEight

/-- Why a call or a return was refused. -/
inductive StackError where
  /-- A call found every slot in use. -/
  | overflow
  /-- A return found no slot in use. -/
  | underflow
deriving DecidableEq

/-- The refusal in words. -/
def StackError.message : StackError → String
  | overflow => "call stack overflow (depth 16)"
  | underflow => "return with empty call stack"

/-- Sixteen slots, of which the first `depth` are live. -/
structure CallStack where
  /-- The slots, dead ones included. -/
  slots : Vector UInt16 16
  /-- How many slots are live. -/
  depth : Nat
  /-- There are only sixteen slots. -/
  depth_le : depth ≤ 16 := by omega
deriving DecidableEq

namespace CallStack

/-- No live address, and zero in every slot. -/
def empty : CallStack :=
  { slots := Vector.replicate 16 0, depth := 0 }

/-- The live addresses, oldest first. -/
def live (s : CallStack) : List UInt16 :=
  s.slots.toList.take s.depth

/-- Add a return address. -/
def push (s : CallStack) (addr : UInt16) : Except StackError CallStack :=
  if h : s.depth < 16 then
    .ok { slots := s.slots.set s.depth addr, depth := s.depth + 1 }
  else .error .overflow

/-- The return address added last, and the stack without it. -/
def pop (s : CallStack) : Except StackError (UInt16 × CallStack) :=
  if h : 0 < s.depth then
    have : s.depth - 1 < 16 := by have := s.depth_le; omega
    .ok (s.slots[s.depth - 1], { s with depth := s.depth - 1, depth_le := by omega })
  else .error .underflow

/-! ## Live addresses -/

@[simp] theorem length_live (s : CallStack) : s.live.length = s.depth := by
  simp [live, s.depth_le]

/-- A call adds its address to the live ones. -/
theorem live_push {s s' : CallStack} {addr : UInt16} (h : s.push addr = .ok s') :
    s'.live = s.live ++ [addr] := by
  unfold push at h
  split at h
  · rename_i hd
    cases h
    simp only [live, Vector.toList_set]
    rw [List.take_add_one, List.getElem?_set_self (by simpa using hd),
      List.take_set_of_le (Nat.le_refl _)]
    rfl
  · cases h

/-- A return gives the live address that was added last, and the others stay live. -/
theorem live_pop {s s' : CallStack} {addr : UInt16} (h : s.pop = .ok (addr, s')) :
    s.live = s'.live ++ [addr] := by
  unfold pop at h
  split at h
  · rename_i hd
    cases h
    have hle := s.depth_le
    simp only [live]
    have : s.depth = s.depth - 1 + 1 := by omega
    conv => lhs; rw [this]
    rw [List.take_add_one, List.getElem?_eq_getElem (by simp; omega)]
    simp
  · cases h

end CallStack

end ChipEight
