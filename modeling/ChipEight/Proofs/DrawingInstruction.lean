import ChipEight.Proofs.Cycle
import ChipEight.Proofs.Drawing

/-!
# The drawing instruction

`Drawing.lean` says what drawing a sprite does to a screen. Here the sprite comes from
a machine: its rows are the bytes at `I`, and its corner is in two registers
(`Machine.sprite`). A cycle at a drawing instruction draws it and keeps the collision in
`VF` (`cycle_draw`). The registers are read before `VF` is written, so the corner may be
in `VF` as well.

Sprites are clipped at the right and at the bottom edge. What lies beyond an edge is off
the screen, and nothing there is drawn or collides (`pixels_draw_off`).
-/

namespace ChipEight

/-! ## Sprites off the screen -/

namespace Screen

/-- A sprite that covers nothing on the screen changes no pixel. -/
theorem pixels_draw_off {s : Screen} {d : Sprite} (h : ∀ px py, Within px py → ¬d.Covers px py) :
    (s.stroke (.draw d)).pixels = s.pixels := by
  refine pixels_ext fun px py => ?_
  have hoff : ¬(Within px py ∧ d.Covers px py) := fun hd => h px py hd.1 hd.2
  rw [pixel_draw, decide_eq_false hoff, Bool.xor_false]

theorem collides_off {s : Screen} {d : Sprite} (h : ∀ px py, Within px py → ¬d.Covers px py) :
    s.collides d.x d.y d.rows = false := by
  rw [Bool.eq_false_iff, Ne, collides_iff]
  rintro ⟨px, py, ⟨hw, hd⟩, -⟩
  exact h px py hw hd

end Screen

/-- A sprite whose corner is past the right or the bottom edge, or that has no rows. -/
theorem Sprite.not_covers {d : Sprite} (h : 64 ≤ d.x ∨ 32 ≤ d.y ∨ d.rows.length = 0) (px py : Nat)
    (hw : Screen.Within px py) : ¬d.Covers px py := by
  rintro ⟨htop, hbottom, hleft, -⟩
  simp only [Screen.Within, Screen.width, Screen.height] at hw
  omega

/-! ## The sprite of an instruction -/

namespace Machine

/-- The sprite that an instruction draws. -/
def sprite (m : Machine) (x y n : UInt8) : Sprite :=
  ⟨(m.registers.get x).toNat, (m.registers.get y).toNat,
    m.memory.span m.registers.i.toNat n.toNat⟩

theorem covers_sprite {m : Machine} {x y n : UInt8} {px py : Nat} :
    (m.sprite x y n).Covers px py ↔
      (m.registers.get y).toNat ≤ py ∧ py < (m.registers.get y).toNat + n.toNat ∧
      (m.registers.get x).toNat ≤ px ∧ px < (m.registers.get x).toNat + 8 ∧
      (m.memory.byte (m.registers.i.toNat + (py - (m.registers.get y).toNat))).toNat.testBit
        (7 - (px - (m.registers.get x).toNat)) = true := by
  simp only [Sprite.Covers, sprite, Memory.length_span]
  refine and_congr_right fun htop => and_congr_right fun hbottom => ?_
  have hrow : py - (m.registers.get y).toNat < n.toNat := by omega
  rw [Memory.getElem?_span _ hrow, Option.getD_some]

/-- **A cycle at a drawing instruction draws its sprite**, and keeps in `VF` whether it collided. -/
theorem cycle_draw {m : Machine} {x y n : UInt8} (hs : m.status = .running)
    (hpc : m.registers.pc.toNat ≤ 0xFFE) (hd : m.word.decode? = some (.draw x y n))
    (hi : m.registers.i.toNat + n.toNat ≤ 4096) :
    let d := m.sprite x y n
    m.cycle = (.ok (.draw x y n), { m with
      screen := m.screen.stroke (.draw d)
      registers := m.registers.advance.setFlag (m.screen.collides d.x d.y d.rows)
      cycles := m.cycles + 1
      lastInstruction := some (.draw x y n) }) := by
  have hexec : m.advanced.execute m.registers.pc m.word (.draw x y n) = accept _ :=
    reading_of_le (m := m.advanced) hi
  exact (Cycled.executed hs hpc hd hexec).cycle_eq

/-! ## All that it does -/

theorem decode?_of_kind {w : Word} (h : w.kind = 0xD) :
    w.decode? = some (.draw w.x w.y w.n) := by
  rw [Word.decode?, h]
  rfl

/--
**The drawing instruction, from the word to the screen.**

A running machine whose next word is `DXYN`, with the `N` bytes at `I` in memory, reads
the corner from its registers, `VF` included. A pixel of the screen is flipped exactly
if its row and column are those of a bit that is set, and others stay as they were.
Pixels are lit or dark, and nothing else. `VF` is 1 if a pixel that was lit is flipped,
and 0 if none is. A corner past the right or the bottom edge draws nothing, so nothing
comes out at the opposite edge. The screen is marked for a repaint, and the other
registers, `I`, memory and the timers are as before.
-/
theorem draw_end_to_end {m : Machine} {w : Word} (hs : m.status = .running)
    (hw : m.memory.readWord m.registers.pc = .ok w) (hkind : w.kind = 0xD)
    (hi : m.registers.i.toNat + w.n.toNat ≤ 4096) :
    let m' := m.cycle.2
    let x₀ := (m.registers.get w.x).toNat
    let y₀ := (m.registers.get w.y).toNat
    let n := w.n.toNat
    let row (k : Nat) : UInt8 := m.memory.byte (m.registers.i.toNat + k)
    let Hit (px py : Nat) : Prop := y₀ ≤ py ∧ py < y₀ + n ∧ x₀ ≤ px ∧ px < x₀ + 8 ∧
      (row (py - y₀)).toNat.testBit (7 - (px - x₀)) = true
    let Collides : Prop := ∃ px py, (px < 64 ∧ py < 32) ∧ Hit px py ∧ m.screen.pixel px py = true
    m.cycle.1 = .ok (.draw w.x w.y w.n) ∧
    (∀ px py, px < 64 → py < 32 →
      (Hit px py → m'.screen.pixel px py = !m.screen.pixel px py) ∧
      (¬Hit px py → m'.screen.pixel px py = m.screen.pixel px py)) ∧
    ((Collides → m'.registers.get 0xF = 1) ∧ (¬Collides → m'.registers.get 0xF = 0)) ∧
    (64 ≤ x₀ ∨ 32 ≤ y₀ ∨ n = 0 →
      m'.screen.pixels = m.screen.pixels ∧ m'.registers.get 0xF = 0) ∧
    m'.screen.dirty = true ∧
    (∀ r : UInt8, r.toNat < 15 → m'.registers.get r = m.registers.get r) ∧
    m'.registers.i = m.registers.i ∧ m'.memory = m.memory ∧
    m'.registers.delay = m.registers.delay ∧ m'.registers.sound = m.registers.sound := by
  intro m' x₀ y₀ n row Hit Collides
  obtain ⟨hpc, rfl⟩ := le_of_readWord hw
  let d := m.sprite m.word.x m.word.y m.word.n
  have hcycle := cycle_draw hs hpc (decode?_of_kind hkind) hi
  have hhit : ∀ px py, d.Covers px py ↔ Hit px py := fun px py => covers_sprite
  have hscreen : m'.screen = m.screen.stroke (.draw d) := congrArg (·.2.screen) hcycle
  have hregisters : m'.registers =
      m.registers.advance.setFlag (m.screen.collides d.x d.y d.rows) :=
    congrArg (·.2.registers) hcycle
  have hflag : m'.registers.get 0xF = if m.screen.collides d.x d.y d.rows then 1 else 0 := by
    rw [hregisters, Registers.get_flag_setFlag]
  have hcollides : m.screen.collides d.x d.y d.rows = true ↔ Collides := by
    rw [Screen.collides_iff]
    simp only [hhit, and_assoc]
    rfl
  refine ⟨congrArg Prod.fst hcycle, fun px py hx hy => ?_, ⟨fun hc => ?_, fun hc => ?_⟩,
    fun hoff => ?_, ?_, fun r hr => ?_, ?_, ?_, ?_, ?_⟩
  · have hwithin : Screen.Within px py := ⟨hx, hy⟩
    rw [hscreen, Screen.pixel_draw]
    constructor
    · intro h
      rw [decide_eq_true ⟨hwithin, (hhit px py).mpr h⟩, Bool.xor_true]
    · intro h
      rw [decide_eq_false fun hd => h ((hhit px py).mp hd.2), Bool.xor_false]
  · rw [hflag, if_pos (hcollides.mpr hc)]
  · rw [hflag, if_neg (mt hcollides.mp hc)]
  · have hlength : d.rows.length = n := Memory.length_span _ _ _
    have hnothing := Sprite.not_covers (d := d) (hlength.symm ▸ hoff)
    rw [hflag, hscreen, Screen.collides_off hnothing]
    exact ⟨Screen.pixels_draw_off hnothing, rfl⟩
  · rw [hscreen]
    rfl
  · rw [hregisters, Registers.get_setFlag_of_lt _ _ hr]
    rfl
  · rw [hregisters]
    rfl
  · exact congrArg (·.2.memory) hcycle
  · rw [hregisters]
    rfl
  · rw [hregisters]
    rfl

/-- A digit in the lower right corner, placed by `VF`: two columns and one row of it are on the
screen, one pixel of them is lit before, and the left edge stays dark. -/
theorem draw_end_to_end_corner :
    let m : Machine := { ofSeed 7 with
      memory := Memory.powerOn.store 0x200 [0xDF, 0x12]
      registers := { (Registers.powerOn.put 0xF 62).put 1 31 with i := 0x50 }
      screen := Screen.blank.flip (63, 31) }
    let m' := m.cycle.2
    m.status = .running ∧ m.memory.readWord m.registers.pc = .ok ⟨0xDF12⟩ ∧
      m'.screen.pixel 62 31 = true ∧ m'.screen.pixel 63 31 = false ∧
      m'.screen.pixel 0 31 = false ∧ m'.registers.get 0xF = 1 := by
  intro m m'
  have hpc : m.registers.pc.toNat ≤ 0xFFE := by decide
  have hw : m.memory.readWord m.registers.pc = .ok ⟨0xDF12⟩ := by
    rw [readWord_of_le hpc, word_of_store hpc rfl]
    rfl
  let d := m.sprite (Word.mk 0xDF12).x (Word.mk 0xDF12).y (Word.mk 0xDF12).n
  -- one evaluation for the sprite and for the screen before
  have hbefore : (d.Covers 62 31 ∧ d.Covers 63 31 ∧ ¬d.Covers 0 31) ∧
      m.screen.pixel 62 31 = false ∧ m.screen.pixel 63 31 = true ∧
      m.screen.pixel 0 31 = false := by decide +kernel
  obtain ⟨⟨hleft, hright, hedge⟩, hdark, hlit, hedge'⟩ := hbefore
  obtain ⟨-, hpixel, ⟨hcollides, -⟩, -⟩ := draw_end_to_end rfl hw rfl (by decide)
  refine ⟨rfl, hw, ?_, ?_, ?_, ?_⟩
  · rw [(hpixel 62 31 (by decide) (by decide)).1 (covers_sprite.mp hleft), hdark]
    rfl
  · rw [(hpixel 63 31 (by decide) (by decide)).1 (covers_sprite.mp hright), hlit]
    rfl
  · rw [(hpixel 0 31 (by decide) (by decide)).2 (mt covers_sprite.mpr hedge), hedge']
  · exact hcollides ⟨63, 31, by decide, covers_sprite.mp hright, hlit⟩

end Machine

end ChipEight
