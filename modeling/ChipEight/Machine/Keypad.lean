import ChipEight.Text

/-!
# The keypad

Sixteen keys, numbered `0x0` to `0xf`, each up or down. A number beyond the
last key names no key, and asking for it is an error.
-/

namespace ChipEight

/-- A number that names no key. -/
structure NoSuchKey where
  /-- The number asked for. -/
  key : UInt8
deriving DecidableEq

/-- The error in words. -/
def NoSuchKey.message (e : NoSuchKey) : String :=
  "key " ++ Hex.nibble e.key.toNat ++ " out of range (0x0-0xf)"

/-- Which keys are down. -/
structure Keypad where
  /-- Whether each key is down. -/
  down : Vector Bool 16
deriving DecidableEq

namespace Keypad

/-- No key is down. -/
def released : Keypad :=
  ⟨Vector.replicate 16 false⟩

/-- Whether a key is down. A number without a key is never down. -/
def isDown (k : Keypad) (key : Nat) : Bool :=
  k.down[key]?.getD false

/-- Press or release a key. -/
def set (k : Keypad) (key : UInt8) (down : Bool) : Except NoSuchKey Keypad :=
  if key.toNat < 16 then .ok ⟨k.down.setIfInBounds key.toNat down⟩ else .error ⟨key⟩

/-- Whether a key is down, if there is such a key. -/
def pressed (k : Keypad) (key : UInt8) : Except NoSuchKey Bool :=
  if key.toNat < 16 then .ok (k.isDown key.toNat) else .error ⟨key⟩

/-- The lowest key that is down. -/
def first? (k : Keypad) : Option Nat :=
  (List.range 16).find? k.isDown

/-- Pressing or releasing a key changes that key alone. -/
theorem isDown_set {k k' : Keypad} {key : UInt8} {down : Bool} (h : k.set key down = .ok k')
    (j : Nat) : k'.isDown j = if j = key.toNat then down else k.isDown j := by
  unfold set at h
  split at h
  · rename_i hk
    cases h
    by_cases hj : j = key.toNat
    · subst hj
      simp [isDown, hk]
    · simp [isDown, hj, Ne.symm hj]
  · cases h

end Keypad

end ChipEight
