import ChipEight.Proofs.Cycle
import ChipEight.Proofs.Requests

/-!
# A restart is a fresh start

A console that was used in any way and is then restarted with an image cannot be
told from a new console that has loaded the image. Nothing is left over: no dead
stack slot, no byte of a longer image, no key that is down, no remainder carried,
no fault.

A reset writes all of the state except two parts of the machine, the seed and,
without a seed, the random stream. So for settings with a seed one thing has to be
known of a reachable console, `seed_reachable`: its machine still has the seed of
the settings. The stream then starts where that of a new machine starts.
-/

namespace ChipEight

namespace Machine

theorem seed_cycled {m m' : Machine} {r : Except Fault Instruction} (h : Cycled m r m') :
    m'.seed = m.seed := by
  cases h with
  | refused _ _ _ he | executed _ _ _ he =>
      obtain ⟨-, hs, -⟩ := execute_frame m.advanced m.registers.pc m.word ‹Instruction›
      rw [he] at hs
      exact hs
  | _ => rfl

theorem seed_kept (seed : Option UInt64) : Kept fun m => m.seed = seed where
  cycle {m} h := (seed_cycled m.cycle_cycled).trans h
  tick h := h
  keypad _ h := h
  settle h := h
  memory _ h := h
  reset h := h

/-- An image that fits is loaded, and only memory changes. -/
theorem exists_load (m : Machine) {image : List UInt8} (h : image.length ≤ 3584) :
    ∃ memory, m.load image = (.ok (), { m with memory }) := by
  rw [load, m.memory.load_of_le h]
  exact ⟨_, rfl⟩

/-- An image that is too long is refused, and nothing changes. -/
theorem load_of_lt (m : Machine) {image : List UInt8} (h : 3584 < image.length) :
    m.load image = (.error (.programTooLarge image.length 3584), m) := by
  rw [load, m.memory.load_of_lt h]
  rfl

end Machine

namespace Console

theorem exists_load (c : Console) {image : List UInt8} (h : image.length ≤ 3584) :
    ∃ memory, c.load image = (.ok (), c.withMachine { c.machine with memory }) := by
  obtain ⟨memory, hm⟩ := c.machine.exists_load h
  rw [load, hm]
  exact ⟨memory, rfl⟩

theorem load_of_lt (c : Console) {image : List UInt8} (h : 3584 < image.length) :
    c.load image = (.error (.programTooLarge image.length 3584), c) := by
  rw [load, c.machine.load_of_lt h]
  rfl

/-- What a console has loaded fits, and only its memory changes. -/
theorem load_eq_ok {c c' : Console} {image : List UInt8} (h : c.load image = (.ok (), c')) :
    image.length ≤ 3584 ∧ ∃ memory, c' = c.withMachine { c.machine with memory } := by
  rcases Nat.lt_or_ge 3584 image.length with hlt | hle
  · rw [c.load_of_lt hlt] at h
    cases h
  · obtain ⟨memory, hm⟩ := c.exists_load hle
    rw [hm] at h
    cases h
    exact ⟨hle, memory, rfl⟩

theorem seed_reachable {s : Settings} {entropy : KeyStream} {c : Console}
    (h : Reachable s entropy c) : c.machine.seed = s.seed := by
  refine (Machine.seed_kept s.seed).console.reachable (fun hc => ?_) h
  obtain ⟨-, rfl⟩ := new_eq_ok hc
  unfold freshMachine
  split <;> simp [Machine.ofSeed, Machine.powerOn, *]

/-- **A reset of a reachable console is a new console**, if there is a seed. -/
theorem new_eq_reset {s : Settings} {entropy : KeyStream} {seed : UInt64} {c : Console}
    (hs : s.seed = some seed) (h : Reachable s entropy c) (entropy' : KeyStream) :
    Console.new s entropy' = .ok c.reset := by
  obtain ⟨hc, hv⟩ := settings_reachable h
  have hseed := (seed_reachable h).trans hs
  have hm : c.machine.reset = freshMachine s entropy' := by
    rw [Machine.reset, Machine.resetRandom, freshMachine, hs, hseed]
    rfl
  simp only [Console.new, hv, reset, hm, hc]

/--
**A restart cannot be told from a fresh start.**

The restarted console and the new one that loads the same image are equal, so all
that is asked of them later has the same replies. With a seed it makes no
difference from which stream the new console would have drawn without one.
-/
theorem restart_fresh {s : Settings} {entropy : KeyStream} {seed : UInt64} {c : Console}
    {image : List UInt8} (hs : s.seed = some seed) (h : Reachable s entropy c)
    (hi : image.length ≤ 3584) (entropy' : KeyStream) :
    ∃ c₀ c₁, Console.new s entropy' = .ok c₀ ∧ c₀.load image = (.ok (), c₁) ∧
      c.restart image = (.ok (), c₁) ∧
      ∀ requests, answersTo serve (c.restart image).2 requests = answersTo serve c₁ requests := by
  have hnew := new_eq_reset hs h entropy'
  obtain ⟨memory, hload⟩ := c.reset.exists_load hi
  exact ⟨c.reset, _, hnew, hload, hload, fun _ => by rw [restart, hload]⟩

/-- A console that has a key down, has run a frame and carries a remainder. -/
theorem restart_fresh_used :
    let s : Settings := ⟨500, 60, some 7⟩
    let c₀ : Console := { machine := .ofSeed 7, settings := s, frames := 0, carry := 0 }
    let c := (answersTo serve c₀ [.load [0xC0, 0xFF, 0x12, 0x02], .key 3 true]).2
    Reachable s (.ofSeed 0) (c.serve .frame).2 ∧ (c.serve .frame).2.carry = 20 ∧
      ∃ c₁, c₀.load [0x12, 0x00] = (.ok (), c₁) ∧
        (c.serve .frame).2.restart [0x12, 0x00] = (.ok (), c₁) := by
  intro s c₀ c
  have hr : Reachable s (.ofSeed 0) (c.serve .frame).2 :=
    (((Reachable.new rfl).serve _).serve _).serve .frame
  have hcarry : (c.serve .frame).2.carry = c.settings.nextCarry c.carry :=
    (runFrame_framed c).carry
  have hi : List.length [(0x12 : UInt8), 0x00] ≤ 3584 := by decide
  obtain ⟨_, c₁, hnew, hload, hrestart, -⟩ := restart_fresh rfl hr hi (.ofSeed 0)
  cases hnew
  exact ⟨hr, hcarry.trans (by decide), c₁, hload, hrestart⟩

end Console

end ChipEight
