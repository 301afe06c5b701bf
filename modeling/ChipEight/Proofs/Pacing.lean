import Mathlib
import ChipEight.Proofs.Requests

/-!
# Frames keep pace with the clock

A frame gets a whole number of cycles although the rates need not divide evenly.
With `c` instructions and `h` ticks in a second, the first `n` frames together get
`n * c / h` cycles, rounded down: exactly those that are due by then. So no error
adds up, and `h` frames in a row get `c` cycles wherever they start.

One invariant carries this, `toNat_carryAt`: what is carried to frame `n` is the
remainder `n * c % h` of the division that gives the sum of the budgets before it.

The budgets are computed in words of 32 and 64 bits. Beside that computation stands
one that gives up where a word could lose part of a value or a divisor could be
zero, and for accepted settings the two are the same. The last part follows the
budgets through everything that can be asked of a console: only frames move the
carry, and a frame that faults moves it as well.
-/

namespace ChipEight

namespace Settings

/-! ## Budgets as numbers -/

/-- Accepted rates: a timer ticks, and an instruction falls between two ticks. -/
theorem rates_of_validate {s : Settings} (h : s.validate = .ok ()) :
    0 < s.timerHz.toNat ∧ s.timerHz.toNat ≤ s.cyclesPerSecond.toNat := by
  unfold validate at h
  split at h
  · cases h
  · rename_i hz
    split at h
    · cases h
    · rename_i hslow
      have hne : s.timerHz.toNat ≠ 0 := fun h0 => hz (UInt32.toNat_inj.mp h0)
      exact ⟨Nat.pos_of_ne_zero hne, Nat.not_lt.mp fun hlt => hslow (UInt32.lt_iff_toNat_lt.mpr hlt)⟩

theorem toNat_max (a b : UInt32) : (max a b).toNat = max a.toNat b.toNat := by
  change (if a ≤ b then b else a).toNat = _
  split <;> rename_i h <;> rw [UInt32.le_iff_toNat_le] at h <;> omega

section

variable {s : Settings} (hs : s.validate = .ok ())

include hs

theorem toNat_cyclesPerTick :
    s.cyclesPerTick.toNat = s.cyclesPerSecond.toNat / s.timerHz.toNat := by
  obtain ⟨hpos, hle⟩ := rates_of_validate hs
  have hmax : max s.timerHz.toNat 1 = s.timerHz.toNat := Nat.max_eq_left hpos
  have hone : 1 ≤ s.cyclesPerSecond.toNat / s.timerHz.toNat := (Nat.one_le_div_iff hpos).mpr hle
  rw [cyclesPerTick, toNat_max, UInt32.toNat_div, toNat_max, UInt32.toNat_one, hmax]
  exact Nat.max_eq_left hone

variable {carry : UInt32} (hcarry : carry.toNat < s.timerHz.toNat)

include hcarry

theorem toNat_gathered :
    (s.gathered carry).toNat =
      carry.toNat + s.cyclesPerSecond.toNat % s.timerHz.toNat := by
  obtain ⟨hpos, -⟩ := rates_of_validate hs
  have hmod := Nat.mod_lt s.cyclesPerSecond.toNat hpos
  have hlt := s.timerHz.toNat_lt
  simp only [gathered, UInt64.toNat_add, UInt64.toNat_mod, UInt32.toNat_toUInt64]
  omega

theorem toNat_nextCarry :
    (s.nextCarry carry).toNat =
      (carry.toNat + s.cyclesPerSecond.toNat) % s.timerHz.toNat := by
  obtain ⟨hpos, -⟩ := rates_of_validate hs
  have hmod := Nat.mod_lt (carry.toNat + s.cyclesPerSecond.toNat) hpos
  have hlt := s.timerHz.toNat_lt
  rw [nextCarry, UInt64.toNat_toUInt32, UInt64.toNat_mod, UInt32.toNat_toUInt64,
    toNat_gathered hs hcarry, Nat.add_mod_mod]
  exact Nat.mod_eq_of_lt (Nat.lt_trans hmod hlt)

/-- The two quotients of a budget are one. -/
theorem add_gathered_div :
    s.cyclesPerTick.toNat + (s.gathered carry / s.timerHz.toUInt64).toNat =
      (carry.toNat + s.cyclesPerSecond.toNat) / s.timerHz.toNat := by
  obtain ⟨hpos, -⟩ := rates_of_validate hs
  rw [toNat_cyclesPerTick hs, UInt64.toNat_div, UInt32.toNat_toUInt64, toNat_gathered hs hcarry,
    Nat.add_comm, ← Nat.add_mul_div_left _ _ hpos, Nat.add_assoc, Nat.mod_add_div]

/-- No budget exceeds the cycles of a second, so it fits in 32 bits. -/
theorem add_gathered_div_lt :
    s.cyclesPerTick.toNat + (s.gathered carry / s.timerHz.toUInt64).toNat < UInt32.size := by
  obtain ⟨hpos, hle⟩ := rates_of_validate hs
  obtain ⟨h, hh⟩ : ∃ h, s.timerHz.toNat = h + 1 := ⟨_, (Nat.succ_pred_eq_of_pos hpos).symm⟩
  have hmul : h ≤ h * s.cyclesPerSecond.toNat := Nat.le_mul_of_pos_right h (by omega)
  have hsecond : (carry.toNat + s.cyclesPerSecond.toNat) / s.timerHz.toNat ≤
      s.cyclesPerSecond.toNat := by
    apply Nat.div_le_of_le_mul
    rw [hh, Nat.succ_mul]
    omega
  rw [add_gathered_div hs hcarry]
  exact Nat.lt_of_le_of_lt hsecond s.cyclesPerSecond.toNat_lt

/-- The cycle that gathered fits, being part of the budget. -/
theorem gathered_div_lt : (s.gathered carry / s.timerHz.toUInt64).toNat < UInt32.size :=
  Nat.lt_of_le_of_lt (Nat.le_add_left _ _) (add_gathered_div_lt hs hcarry)

theorem toNat_frameBudget :
    (s.frameBudget carry).toNat =
      (carry.toNat + s.cyclesPerSecond.toNat) / s.timerHz.toNat := by
  have hlt := add_gathered_div_lt hs hcarry
  have hcast := gathered_div_lt hs hcarry
  rw [frameBudget, UInt32.toNat_add, UInt64.toNat_toUInt32, Nat.mod_eq_of_lt hcast,
    Nat.mod_eq_of_lt hlt, add_gathered_div hs hcarry]

/-- A budget is the rate of cycles to ticks, rounded down or up, and never zero. -/
theorem frameBudget_floor_or_ceil :
    ((s.frameBudget carry).toNat = s.cyclesPerSecond.toNat / s.timerHz.toNat ∨
      (s.frameBudget carry).toNat =
        (s.cyclesPerSecond.toNat + s.timerHz.toNat - 1) / s.timerHz.toNat) ∧
    1 ≤ (s.frameBudget carry).toNat := by
  obtain ⟨hpos, hle⟩ := rates_of_validate hs
  rw [toNat_frameBudget hs hcarry]
  have hone : 1 ≤ s.cyclesPerSecond.toNat / s.timerHz.toNat := (Nat.one_le_div_iff hpos).mpr hle
  have hfloor : s.cyclesPerSecond.toNat / s.timerHz.toNat ≤
      (carry.toNat + s.cyclesPerSecond.toNat) / s.timerHz.toNat :=
    Nat.div_le_div_right (Nat.le_add_left _ _)
  have hceil : (carry.toNat + s.cyclesPerSecond.toNat) / s.timerHz.toNat ≤
      (s.cyclesPerSecond.toNat + s.timerHz.toNat - 1) / s.timerHz.toNat :=
    Nat.div_le_div_right (by omega)
  -- the two roundings are at most one apart, so nothing else lies between them
  have hnext : (s.cyclesPerSecond.toNat + s.timerHz.toNat - 1) / s.timerHz.toNat ≤
      s.cyclesPerSecond.toNat / s.timerHz.toNat + 1 := by
    rw [← Nat.add_div_right _ hpos]
    exact Nat.div_le_div_right (Nat.sub_le _ _)
  omega

end

/-! ## Budgets that lose nothing -/

/-- A sum of 32 bits, which must not wrap. -/
def sum? (a b : UInt32) : Option UInt32 :=
  if a.toNat + b.toNat < UInt32.size then some (a + b) else none

/-- A number cast to 32 bits, in which it must fit. -/
def narrow? (a : UInt64) : Option UInt32 :=
  if a.toNat < UInt32.size then some a.toUInt32 else none

/-- A quotient, whose divisor must not be zero. -/
def quotient? (a b : UInt64) : Option UInt64 :=
  if b = 0 then none else some (a / b)

/-- A remainder, whose divisor must not be zero. -/
def remainder? (a b : UInt64) : Option UInt64 :=
  if b = 0 then none else some (a % b)

/-- What has gathered when the next frame starts; the sum must not wrap. -/
def gathered? (s : Settings) (carry : UInt32) : Option UInt64 := do
  let rest ← remainder? s.cyclesPerSecond.toUInt64 s.timerHz.toUInt64
  if carry.toUInt64.toNat + rest.toNat < UInt64.size then some (carry.toUInt64 + rest) else none

/-- Whole instructions between two ticks. -/
def cyclesPerTick? (s : Settings) : Option UInt32 :=
  if max s.timerHz 1 = 0 then none else some (max (s.cyclesPerSecond / max s.timerHz 1) 1)

/-- The cycles of the next frame. -/
def frameBudget? (s : Settings) (carry : UInt32) : Option UInt32 := do
  sum? (← s.cyclesPerTick?) (← narrow? (← quotient? (← s.gathered? carry) s.timerHz.toUInt64))

/-- What is carried on from the next frame. -/
def nextCarry? (s : Settings) (carry : UInt32) : Option UInt32 := do
  narrow? (← remainder? (← s.gathered? carry) s.timerHz.toUInt64)

theorem cyclesPerTick?_eq (s : Settings) : s.cyclesPerTick? = some s.cyclesPerTick := by
  have hmax : max s.timerHz 1 ≠ 0 := by
    intro h0
    have := congrArg UInt32.toNat h0
    rw [toNat_max, UInt32.toNat_one, UInt32.toNat_zero] at this
    omega
  rw [cyclesPerTick?, if_neg hmax, cyclesPerTick]

section

variable {s : Settings} (hs : s.validate = .ok ()) {carry : UInt32}
  (hcarry : carry.toNat < s.timerHz.toNat)

include hs

theorem timerHz_ne_zero : s.timerHz.toUInt64 ≠ 0 := by
  obtain ⟨hpos, -⟩ := rates_of_validate hs
  intro h0
  have := congrArg UInt64.toNat h0
  rw [UInt32.toNat_toUInt64, UInt64.toNat_zero] at this
  omega

include hcarry

theorem gathered?_eq : s.gathered? carry = some (s.gathered carry) := by
  have hmod := Nat.mod_lt s.cyclesPerSecond.toNat (rates_of_validate hs).1
  have hlt := s.timerHz.toNat_lt
  have hroom : carry.toUInt64.toNat +
      (s.cyclesPerSecond.toUInt64 % s.timerHz.toUInt64).toNat < UInt64.size := by
    simp only [UInt64.toNat_mod, UInt32.toNat_toUInt64, UInt64.size]
    omega
  simp only [gathered?, remainder?, if_neg (timerHz_ne_zero hs), Option.bind_eq_bind,
    Option.bind_some, if_pos hroom]
  rfl

/-- **The budget of a frame loses nothing.** -/
theorem frameBudget?_eq : s.frameBudget? carry = some (s.frameBudget carry) := by
  have hcast := gathered_div_lt hs hcarry
  have hsum : s.cyclesPerTick.toNat + (s.gathered carry / s.timerHz.toUInt64).toUInt32.toNat <
      UInt32.size := by
    rw [UInt64.toNat_toUInt32, Nat.mod_eq_of_lt hcast]
    exact add_gathered_div_lt hs hcarry
  simp only [frameBudget?, cyclesPerTick?_eq, gathered?_eq hs hcarry, quotient?,
    if_neg (timerHz_ne_zero hs), narrow?, if_pos hcast, sum?, if_pos hsum, Option.bind_eq_bind,
    Option.bind_some]
  rfl

/-- **What is carried loses nothing.** -/
theorem nextCarry?_eq : s.nextCarry? carry = some (s.nextCarry carry) := by
  have hmod := Nat.mod_lt (s.gathered carry).toNat (rates_of_validate hs).1
  have hnarrow : (s.gathered carry % s.timerHz.toUInt64).toNat < UInt32.size := by
    rw [UInt64.toNat_mod, UInt32.toNat_toUInt64]
    exact Nat.lt_trans hmod s.timerHz.toNat_lt
  simp only [nextCarry?, gathered?_eq hs hcarry, remainder?, if_neg (timerHz_ne_zero hs), narrow?,
    if_pos hnarrow, Option.bind_eq_bind, Option.bind_some]
  rfl

end

/-! ## Frames in a row -/

/-- What is carried to frame `n`, counted from a start with nothing carried. -/
def carryAt (s : Settings) : Nat → UInt32
  | 0 => 0
  | n + 1 => s.nextCarry (s.carryAt n)

/-- The cycles of frame `n`. -/
def budgetAt (s : Settings) (n : Nat) : UInt32 :=
  s.frameBudget (s.carryAt n)

section

variable {s : Settings} (hs : s.validate = .ok ())

include hs

/-- **The carry is the remainder of the cycles that were due.** -/
theorem toNat_carryAt (n : Nat) :
    (s.carryAt n).toNat = n * s.cyclesPerSecond.toNat % s.timerHz.toNat := by
  obtain ⟨hpos, -⟩ := rates_of_validate hs
  induction n with
  | zero => simp [carryAt]
  | succ n ih =>
      have hcarry : (s.carryAt n).toNat < s.timerHz.toNat := ih ▸ Nat.mod_lt _ hpos
      rw [carryAt, toNat_nextCarry hs hcarry, ih, Nat.mod_add_mod, Nat.succ_mul]

theorem carryAt_lt (n : Nat) : (s.carryAt n).toNat < s.timerHz.toNat := by
  rw [toNat_carryAt hs]
  exact Nat.mod_lt _ (rates_of_validate hs).1

/-- A frame gets the cycles that fall due with it. -/
theorem toNat_budgetAt (n : Nat) :
    n * s.cyclesPerSecond.toNat / s.timerHz.toNat + (s.budgetAt n).toNat =
      (n + 1) * s.cyclesPerSecond.toNat / s.timerHz.toNat := by
  obtain ⟨hpos, -⟩ := rates_of_validate hs
  rw [budgetAt, toNat_frameBudget hs (carryAt_lt hs n), toNat_carryAt hs, Nat.add_comm,
    ← Nat.add_mul_div_left _ _ hpos, Nat.add_right_comm, Nat.mod_add_div, Nat.succ_mul]

/-- **Frames in a row get the cycles that fall due between them.** -/
theorem sum_budgetAt (k n : Nat) :
    k * s.cyclesPerSecond.toNat / s.timerHz.toNat +
        ((List.range' k n).map fun i => (s.budgetAt i).toNat).sum =
      (k + n) * s.cyclesPerSecond.toNat / s.timerHz.toNat := by
  induction n with
  | zero => simp
  | succ n ih =>
      rw [List.range'_1_concat, List.map_append, List.sum_append, ← Nat.add_assoc, ih]
      simpa [Nat.add_assoc] using toNat_budgetAt hs (k + n)

/-- **A second of frames gets the cycles of a second**, wherever it starts. -/
theorem sum_budgetAt_second (k : Nat) :
    ((List.range' k s.timerHz.toNat).map fun i => (s.budgetAt i).toNat).sum =
      s.cyclesPerSecond.toNat := by
  obtain ⟨hpos, -⟩ := rates_of_validate hs
  have h := sum_budgetAt hs k s.timerHz.toNat
  rw [Nat.add_mul, Nat.add_mul_div_left _ _ hpos] at h
  omega

end

end Settings

namespace Console

/-! ## The budgets that a console hands out -/

/-- The budgets of `n` frames, or of those up to the first that faults. -/
def advanceBudgets : Nat → Console → List UInt32
  | 0, _ => []
  | n + 1, c =>
    c.budget ::
      match c.runFrame with
      | (.error _, _) => []
      | (.ok _, c') => advanceBudgets n c'

/-- The budgets of the frames that a request starts. -/
def budgets (c : Console) : Request → List UInt32
  | .frame => [c.budget]
  | .frames n => advanceBudgets n c
  | _ => []

/-- The budgets of the frames that requests start, one request after another. -/
def budgetsOf (c : Console) : List Request → List UInt32
  | [] => []
  | r :: rs => c.budgets r ++ budgetsOf (c.serve r).2 rs

/-- A console that is new, or was restarted whether or not the image fitted. -/
def Started (s : Settings) (entropy : KeyStream) (c : Console) : Prop :=
  Console.new s entropy = .ok c ∨
    ∃ c' image, Reachable s entropy c' ∧ (c'.restart image).2 = c

/-- The next frame of the console is frame `n`. -/
structure Paced (s : Settings) (n : Nat) (c : Console) : Prop where
  settings : c.settings = s
  carry : c.carry = s.carryAt n

variable {s : Settings}

theorem Paced.budget {n : Nat} {c : Console} (h : Paced s n c) : c.budget = s.budgetAt n := by
  rw [Console.budget, h.settings, h.carry, Settings.budgetAt]

/-- **A frame is one frame further**, even if it faults. -/
theorem Paced.framed {n : Nat} {c c' : Console} {r : Except Fault FrameReport} (h : Paced s n c)
    (hf : Framed c r c') : Paced s (n + 1) c' where
  settings := hf.settings.trans h.settings
  carry := by rw [hf.carry, h.settings, h.carry, Settings.carryAt]

theorem Paced.advance {k : Nat} {c : Console} (h : Paced s k c) (n : Nat) :
    ∃ j, advanceBudgets n c = (List.range' k j).map s.budgetAt ∧
      Paced s (k + j) (Console.advance n c).2 := by
  induction n generalizing k c with
  | zero => exact ⟨0, rfl, h⟩
  | succ n ih =>
      have hf := runFrame_framed c
      rw [advanceBudgets, advance_succ, h.budget]
      cases hc : c.runFrame with
      | mk r c' =>
          rw [hc] at hf
          cases r with
          | error e => exact ⟨1, rfl, h.framed hf⟩
          | ok report =>
              obtain ⟨j, hj, hp⟩ := ih (h.framed hf)
              refine ⟨j + 1, ?_, ?_⟩
              · rw [List.range'_succ, List.map_cons, ← hj]
              · rwa [Nat.add_right_comm] at hp

/-- **A request hands out the next budgets**, as many as it starts frames. -/
theorem Paced.serve {k : Nat} {c : Console} (h : Paced s k c) {r : Request}
    (hr : ∀ image, r ≠ .restart image) :
    ∃ j, c.budgets r = (List.range' k j).map s.budgetAt ∧ Paced s (k + j) (c.serve r).2 := by
  cases r with
  | frame =>
      refine ⟨1, ?_, h.framed (runFrame_framed c)⟩
      rw [budgets, h.budget]
      rfl
  | frames n =>
      rw [Console.serve, runFrames_snd]
      exact h.advance n
  | load image =>
      rw [serve_load]
      exact ⟨0, rfl, h.settings, h.carry⟩
  | key key down =>
      rw [serve_key]
      exact ⟨0, rfl, h.settings, h.carry⟩
  | restart image => exact absurd rfl (hr image)
  | machine op => exact ⟨0, rfl, h.settings, h.carry⟩

/-- **Without a restart, all budgets are handed out in order.** -/
theorem Paced.serve_all {k : Nat} {c : Console} (h : Paced s k c) {requests : List Request}
    (hr : ∀ image, Request.restart image ∉ requests) :
    ∃ j, c.budgetsOf requests = (List.range' k j).map s.budgetAt ∧
      Paced s (k + j) (answersTo Console.serve c requests).2 := by
  induction requests generalizing k c with
  | nil => exact ⟨0, rfl, h⟩
  | cons r rs ih =>
      obtain ⟨j, hj, hp⟩ := h.serve fun image he => hr image (he ▸ List.mem_cons_self)
      obtain ⟨i, hi, hq⟩ := ih hp fun image hm => hr image (List.mem_cons_of_mem r hm)
      refine ⟨j + i, ?_, ?_⟩
      · rw [budgetsOf, hj, hi, ← List.map_append, List.range'_append_1]
      · rwa [Nat.add_assoc] at hq

theorem Started.paced {entropy : KeyStream} {c : Console} (h : Started s entropy c) :
    s.validate = .ok () ∧ Paced s 0 c := by
  rcases h with h | ⟨c', image, hr, rfl⟩
  · obtain ⟨hv, rfl⟩ := new_eq_ok h
    exact ⟨hv, rfl, rfl⟩
  · obtain ⟨hs, hv⟩ := settings_reachable hr
    exact ⟨hv, hs, rfl⟩

/-- Frames alone hand out a budget each. -/
theorem length_budgetsOf_replicate (c : Console) (n : Nat) :
    (c.budgetsOf (List.replicate n .frame)).length = n := by
  induction n generalizing c with
  | zero => rfl
  | succ n ih =>
      rw [List.replicate_succ, budgetsOf, List.length_append, ih, Nat.add_comm]
      rfl

/--
**Frames keep pace with the clock.**

From a new or restarted console on, whatever is asked of it short of another
restart and whether or not frames fault: the first `n` budgets add up to the cycles
due after `n` ticks, each budget is the rate rounded down or up and never zero, and
a second of frames gets the cycles of a second wherever it starts. The carry stays
below the tick rate, and what is computed from it loses nothing.
-/
theorem budgets_keep_pace {entropy : KeyStream} {c : Console} (hc : Started s entropy c)
    {requests : List Request} (hr : ∀ image, Request.restart image ∉ requests) :
    let cps := s.cyclesPerSecond.toNat
    let hz := s.timerHz.toNat
    let budgets := (c.budgetsOf requests).map UInt32.toNat
    let last := (answersTo serve c requests).2
    (∀ n ≤ budgets.length, (budgets.take n).sum = n * cps / hz) ∧
    (∀ b ∈ budgets, (b = cps / hz ∨ b = (cps + hz - 1) / hz) ∧ 1 ≤ b) ∧
    (∀ k, k + hz ≤ budgets.length → ((budgets.drop k).take hz).sum = cps) ∧
    last.carry.toNat < hz ∧
    s.frameBudget? last.carry = some last.budget ∧
    s.nextCarry? last.carry = some last.runFrame.2.carry := by
  intro cps hz budgets last
  obtain ⟨hs, hp⟩ := hc.paced
  obtain ⟨j, hj, hlast⟩ := hp.serve_all hr
  rw [Nat.zero_add] at hlast
  have hbudgets : budgets = (List.range' 0 j).map fun i => (s.budgetAt i).toNat := by
    rw [show budgets = (c.budgetsOf requests).map UInt32.toNat from rfl, hj, List.map_map]
    rfl
  have hlength : budgets.length = j := by rw [hbudgets, List.length_map, List.length_range']
  have hcarry : last.carry.toNat < hz := hlast.carry ▸ Settings.carryAt_lt hs j
  refine ⟨fun n hn => ?_, fun b hb => ?_, fun k hk => ?_, hcarry, ?_, ?_⟩
  · rw [hbudgets, ← List.map_take, List.take_range'_of_length_ge (hlength ▸ hn)]
    have hsum := Settings.sum_budgetAt hs 0 n
    rwa [Nat.zero_mul, Nat.zero_div, Nat.zero_add, Nat.zero_add] at hsum
  · rw [hbudgets] at hb
    obtain ⟨i, -, rfl⟩ := List.mem_map.mp hb
    exact Settings.frameBudget_floor_or_ceil hs (Settings.carryAt_lt hs i)
  · rw [hbudgets, ← List.map_drop, ← List.map_take, List.drop_range',
      List.take_range'_of_length_ge (by omega)]
    exact Settings.sum_budgetAt_second hs _
  · rw [budget, hlast.settings]
    exact Settings.frameBudget?_eq hs hcarry
  · rw [(runFrame_framed last).carry, hlast.settings]
    exact Settings.nextCarry?_eq hs hcarry

/-- Five hundred instructions and sixty ticks in a second: sixty frames get all five hundred. Here
they all fault, for want of a program. -/
theorem budgets_keep_pace_uneven :
    let s : Settings := ⟨500, 60, some 7⟩
    let c : Console := { machine := .ofSeed 7, settings := s, frames := 0, carry := 0 }
    let requests := List.replicate 60 Request.frame
    Started s (.ofSeed 0) c ∧ (∀ image, Request.restart image ∉ requests) ∧
      ((c.budgetsOf requests).map UInt32.toNat).sum = 500 := by
  intro s c requests
  have hc : Started s (.ofSeed 0) c := .inl rfl
  have hr : ∀ image, Request.restart image ∉ requests := by
    intro image hm
    cases List.eq_of_mem_replicate hm
  have hlength : ((c.budgetsOf requests).map UInt32.toNat).length = 60 :=
    (List.length_map _).trans (length_budgetsOf_replicate c 60)
  obtain ⟨hsum, -⟩ := budgets_keep_pace hc hr
  have hall := hsum 60 (Nat.le_of_eq hlength.symm)
  rw [List.take_of_length_le (Nat.le_of_eq hlength)] at hall
  exact ⟨hc, hr, hall.trans (by decide)⟩

end Console

end ChipEight
