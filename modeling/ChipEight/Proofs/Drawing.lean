import Mathlib.Data.List.DropRight
import ChipEight.Machine.Screen

/-!
# What a screen remembers

A sprite covers the positions of its bits that are set, and to draw it is to flip
what it covers (`pixel_draw`). From this one fact follows all that can be said of
drawings. The screen that a sequence of strokes leaves is its history counted
modulo two: a pixel is lit exactly if an odd number of the sprites drawn since the
last clear cover it (`pixel_paint`). So sprites may be drawn in any order, and a
sprite drawn twice leaves no trace.

`Sprite.Covers` says what a sprite covers without running along its rows, and also
for positions off the screen. Those it covers on the screen are its `cells`, each
listed once.
-/

namespace ChipEight

/-! ## Sprites and strokes -/

/-- A sprite, and the position of its top left corner. -/
structure Sprite where
  x : Nat
  y : Nat
  rows : List UInt8
deriving DecidableEq

/-- The sprite has a bit set at a position; the highest bit of a row is leftmost. -/
def Sprite.Covers (d : Sprite) (px py : Nat) : Prop :=
  d.y ≤ py ∧ py < d.y + d.rows.length ∧ d.x ≤ px ∧ px < d.x + 8 ∧
    (d.rows[py - d.y]?.getD 0).toNat.testBit (7 - (px - d.x)) = true

instance (d : Sprite) (px py : Nat) : Decidable (d.Covers px py) :=
  inferInstanceAs (Decidable (_ ∧ _))

/-- One thing done to a screen. -/
inductive Stroke where
  | clear
  | draw (sprite : Sprite)
deriving DecidableEq

/-- The stroke draws a sprite that covers the position. -/
def Stroke.Covers : Stroke → Nat → Nat → Prop
  | clear, _, _ => False
  | draw d, px, py => d.Covers px py

instance : (k : Stroke) → (px py : Nat) → Decidable (k.Covers px py)
  | .clear, _, _ => inferInstanceAs (Decidable False)
  | .draw d, px, py => inferInstanceAs (Decidable (d.Covers px py))

/-- The strokes after the last clear. -/
def sinceClear (strokes : List Stroke) : List Stroke :=
  strokes.rtakeWhile fun k => decide (k ≠ .clear)

/-- How many strokes after the last clear cover a position. -/
def coverings (strokes : List Stroke) (px py : Nat) : Nat :=
  (sinceClear strokes).countP fun k => decide (k.Covers px py)

theorem coverings_clear (strokes : List Stroke) (px py : Nat) :
    coverings (strokes ++ [.clear]) px py = 0 := by
  rw [coverings, sinceClear, List.rtakeWhile_concat_neg _ _ _ (by simp), List.countP_nil]

theorem coverings_draw (strokes : List Stroke) (d : Sprite) (px py : Nat) :
    coverings (strokes ++ [.draw d]) px py =
      coverings strokes px py + if d.Covers px py then 1 else 0 := by
  rw [coverings, sinceClear, List.rtakeWhile_concat_pos _ _ _ (by simp), List.countP_append,
    List.countP_singleton]
  simp only [decide_eq_true_eq]
  rfl

namespace Screen

/-- Carry out a stroke. -/
def stroke (s : Screen) : Stroke → Screen
  | .clear => s.clear
  | .draw d => s.draw d.x d.y d.rows

/-- Carry out strokes, one after another. -/
def paint (s : Screen) (strokes : List Stroke) : Screen :=
  strokes.foldl stroke s

theorem paint_concat (s : Screen) (strokes : List Stroke) (k : Stroke) :
    s.paint (strokes ++ [k]) = (s.paint strokes).stroke k :=
  List.foldl_concat stroke s k strokes

/-! ## The cells of a sprite -/

theorem mem_rowCells {x y px py : Nat} {row : UInt8} :
    (px, py) ∈ rowCells x y row ↔
      Within px py ∧ py = y ∧ x ≤ px ∧ px < x + 8 ∧ hasBit row (px - x) = true := by
  simp only [rowCells, List.mem_map, List.mem_filter, List.mem_range, Bool.and_eq_true,
    decide_eq_true_eq, Prod.mk.injEq]
  constructor
  · rintro ⟨dx, ⟨hdx, hbit, hw⟩, rfl, rfl⟩
    rw [Nat.add_sub_cancel_left]
    exact ⟨hw, rfl, Nat.le_add_right x dx, Nat.add_lt_add_left hdx x, hbit⟩
  · rintro ⟨hw, rfl, hle, hlt, hbit⟩
    have hx : x + (px - x) = px := Nat.add_sub_cancel' hle
    refine ⟨px - x, ⟨by omega, hbit, ?_⟩, hx, rfl⟩
    rwa [hx]

/-- **The cells of a sprite are what it covers on the screen.** -/
theorem mem_cells {x y px py : Nat} {rows : List UInt8} :
    (px, py) ∈ cells x y rows ↔ Within px py ∧ Sprite.Covers ⟨x, y, rows⟩ px py := by
  induction rows generalizing y with
  | nil =>
      simp only [cells, List.not_mem_nil, Sprite.Covers, List.length_nil, false_iff]
      omega
  | cons row rows ih =>
      rw [cells, List.mem_append, mem_rowCells, ih]
      simp only [Sprite.Covers, List.length_cons, hasBit]
      -- the position is in the first row, in a later one, or above all of them
      rcases Nat.lt_trichotomy y py with hlt | rfl | hgt
      · have hpy : py - y = py - (y + 1) + 1 := by omega
        rw [hpy, List.getElem?_cons_succ]
        constructor
        · rintro (⟨-, rfl, -⟩ | ⟨hw, -, hlen, hcols⟩)
          · omega
          · exact ⟨hw, by omega, by omega, hcols⟩
        · rintro ⟨hw, -, hlen, hcols⟩
          exact .inr ⟨hw, hlt, by omega, hcols⟩
      · rw [Nat.sub_self, List.getElem?_cons_zero, Option.getD_some]
        constructor
        · rintro (⟨hw, -, hcols⟩ | ⟨-, hlt, -⟩)
          · exact ⟨hw, Nat.le_refl y, by omega, hcols⟩
          · omega
        · rintro ⟨hw, -, -, hcols⟩
          exact .inl ⟨hw, rfl, hcols⟩
      · omega

theorem nodup_rowCells (x y : Nat) (row : UInt8) : (rowCells x y row).Nodup := by
  refine List.Pairwise.map _ (fun a b hne h => hne ?_) (List.nodup_range.filter _)
  exact Nat.add_left_cancel (Prod.mk.inj h).1

/-- No cell is listed twice: the rows of a sprite are at different heights. -/
theorem nodup_cells (x y : Nat) (rows : List UInt8) : (cells x y rows).Nodup := by
  induction rows generalizing y with
  | nil => exact List.nodup_nil
  | cons row rows ih =>
      refine List.nodup_append.mpr ⟨nodup_rowCells x y row, ih (y + 1), ?_⟩
      rintro ⟨px, py⟩ hrow _ hrest rfl
      obtain ⟨-, rfl, -⟩ := mem_rowCells.mp hrow
      obtain ⟨-, hle, -⟩ := mem_cells.mp hrest
      exact absurd hle (Nat.not_succ_le_self py)

/-! ## One drawing -/

/-- Screens with the same pixels hold the same buffer. -/
theorem pixels_ext {s s' : Screen} (h : ∀ x y, s.pixel x y = s'.pixel x y) :
    s.pixels = s'.pixels := by
  refine Vector.ext fun k hk => ?_
  have hw : Within (k % width) (k / width) := by
    simp only [Within, width, height]
    omega
  have hplace : width * (k / width) + k % width = k := Nat.div_add_mod k width
  have := h (k % width) (k / width)
  simpa [pixel, hw, hplace, hk] using this

/-- Cells that are all different are each flipped once. -/
theorem pixel_foldl_flip {ps : List (Nat × Nat)} (hps : ps.Nodup) (s : Screen) (px py : Nat) :
    (ps.foldl flip s).pixel px py =
      (s.pixel px py ^^ decide (Within px py ∧ (px, py) ∈ ps)) := by
  induction ps generalizing s with
  | nil => simp
  | cons p ps ih =>
      obtain ⟨hp, hps⟩ := List.nodup_cons.mp hps
      rw [List.foldl_cons, ih hps, pixel_flip]
      by_cases he : p = (px, py)
      · subst he
        simp [hp]
      · simp [he, Ne.symm he]

/-- **To draw a sprite is to flip what it covers.** -/
theorem pixel_draw (s : Screen) (d : Sprite) (px py : Nat) :
    (s.stroke (.draw d)).pixel px py =
      (s.pixel px py ^^ decide (Within px py ∧ d.Covers px py)) := by
  have h := pixel_foldl_flip (nodup_cells d.x d.y d.rows) s px py
  simp only [mem_cells, and_self_left] at h
  exact h

/-- A drawing leaves the same pixels on screens that had the same before. -/
theorem pixels_draw_congr {s s' : Screen} (h : s'.pixels = s.pixels) (x y : Nat)
    (rows : List UInt8) : (s'.draw x y rows).pixels = (s.draw x y rows).pixels := by
  refine pixels_ext fun px py => ?_
  have hpixel : s'.pixel px py = s.pixel px py := by rw [pixel, h, pixel]
  have hdraw := s'.pixel_draw ⟨x, y, rows⟩ px py
  rw [hpixel, ← pixel_draw] at hdraw
  exact hdraw

/-! ## Many strokes -/

/-- **The screen is its history, counted modulo two.** -/
theorem pixel_paint (strokes : List Stroke) (px py : Nat) :
    (blank.paint strokes).pixel px py =
      decide (Within px py ∧ coverings strokes px py % 2 = 1) := by
  -- the last stroke is the one that a fold carries out last
  induction strokes using List.reverseRecOn with
  | nil => simp [paint, coverings, sinceClear]
  | append_singleton strokes k ih =>
      rw [paint_concat]
      cases k with
      | clear =>
          rw [coverings_clear, stroke, pixel_clear]
          simp
      | draw d =>
          rw [pixel_draw, ih, coverings_draw]
          by_cases hd : d.Covers px py
          · simp only [hd, and_true, if_true]
            by_cases hw : Within px py
            · simp only [hw, true_and, decide_true, Bool.xor_true]
              rw [← decide_not]
              congr 1
              simp only [eq_iff_iff]
              omega
            · simp [hw]
          · simp [hd]

/-- Two sprites may be drawn in either order. -/
theorem draw_comm (s : Screen) (d e : Sprite) :
    (s.stroke (.draw d)).stroke (.draw e) = (s.stroke (.draw e)).stroke (.draw d) := by
  have hpixels : ((s.stroke (.draw d)).stroke (.draw e)).pixels =
      ((s.stroke (.draw e)).stroke (.draw d)).pixels := by
    refine pixels_ext fun px py => ?_
    rw [pixel_draw, pixel_draw, pixel_draw, pixel_draw, Bool.xor_right_comm]
  -- the mark is up after either
  exact congrArg (fun pixels => Screen.mk pixels true) hpixels

/-- **Sprites may be drawn in any order.** -/
theorem paint_perm {draws draws' : List Sprite} (h : draws.Perm draws') (s : Screen) :
    s.paint (draws.map .draw) = s.paint (draws'.map .draw) := by
  rw [paint, paint, List.foldl_map, List.foldl_map]
  exact h.foldl_eq' (fun d _ e _ t => draw_comm t d e) s

theorem paint_append (s : Screen) (strokes strokes' : List Stroke) :
    s.paint (strokes ++ strokes') = (s.paint strokes).paint strokes' :=
  List.foldl_append

/-- **A sprite drawn twice leaves no trace.** -/
theorem pixels_draw_twice (s : Screen) (d : Sprite) :
    ((s.stroke (.draw d)).stroke (.draw d)).pixels = s.pixels := by
  refine pixels_ext fun px py => ?_
  rw [pixel_draw, pixel_draw, Bool.xor_assoc, Bool.xor_self, Bool.xor_false]

/-- A sprite collides with the lit pixels that it covers. -/
theorem collides_iff (s : Screen) (d : Sprite) :
    s.collides d.x d.y d.rows = true ↔
      ∃ px py, (Within px py ∧ d.Covers px py) ∧ s.pixel px py = true := by
  simp only [collides, List.any_eq_true, Prod.exists, mem_cells]

/-- **The repeat of a drawing collides exactly if the first one lit a pixel.** -/
theorem collides_draw_iff (s : Screen) (d : Sprite) :
    (s.stroke (.draw d)).collides d.x d.y d.rows = true ↔
      ∃ px py, s.pixel px py = false ∧ (s.stroke (.draw d)).pixel px py = true := by
  rw [collides_iff]
  refine exists_congr fun px => exists_congr fun py => ?_
  rw [pixel_draw]
  by_cases hc : Within px py ∧ d.Covers px py
  · simp [hc]
  · -- what the sprite does not cover, it does not light
    simp only [hc, false_and, decide_false, Bool.xor_false, false_iff, not_and]
    intro hdark hlit
    rw [hdark] at hlit
    cases hlit

end Screen

/-- **The screen is its drawing history, modulo two.** On a new screen a pixel is lit exactly if it
is on the screen and an odd number of the sprites drawn since the last clear cover it. So a stretch
of drawings may be done in any order, and on any screen the repeat of a drawing restores the
buffer, and collides exactly if the first lit a pixel. -/
theorem screen_is_history :
    (∀ (strokes : List Stroke) (px py : Nat),
      (Screen.blank.paint strokes).pixel px py = true ↔
        (px < 64 ∧ py < 32) ∧ coverings strokes px py % 2 = 1) ∧
    (∀ (before after : List Stroke) (draws draws' : List Sprite), draws.Perm draws' →
      Screen.blank.paint (before ++ draws.map .draw ++ after) =
        Screen.blank.paint (before ++ draws'.map .draw ++ after)) ∧
    ∀ (s : Screen) (d : Sprite),
      ((s.stroke (.draw d)).stroke (.draw d)).pixels = s.pixels ∧
        ((s.stroke (.draw d)).collides d.x d.y d.rows = true ↔
          ∃ px py, s.pixel px py = false ∧ (s.stroke (.draw d)).pixel px py = true) := by
  refine ⟨fun strokes px py => ?_, fun before after draws draws' h => ?_, fun s d => ?_⟩
  · rw [Screen.pixel_paint, decide_eq_true_eq]
    rfl
  · rw [Screen.paint_append, Screen.paint_append, Screen.paint_append, Screen.paint_append,
      Screen.paint_perm h]
  · exact ⟨s.pixels_draw_twice d, s.collides_draw_iff d⟩

/-- Two sprites that overlap in the corner of the screen, after a clear. One pixel is covered by
both, its neighbour by one of them. -/
theorem screen_is_history_overlap :
    let digit : Sprite := ⟨62, 30, [0xF0, 0x90, 0xF0]⟩
    let bar : Sprite := ⟨60, 30, [0xE0]⟩
    let strokes : List Stroke := [.draw bar, .clear, .draw digit, .draw bar]
    [digit, bar].Perm [bar, digit] ∧
      Screen.blank.paint ([.draw bar, .clear] ++ [digit, bar].map .draw ++ []) =
        Screen.blank.paint ([.draw bar, .clear] ++ [bar, digit].map .draw ++ []) ∧
      ¬(Screen.blank.paint strokes).pixel 62 30 = true ∧
      (Screen.blank.paint strokes).pixel 61 30 = true ∧
      ((Screen.blank.stroke (.draw digit)).collides 62 30 [0xF0, 0x90, 0xF0] = true) := by
  intro digit bar strokes
  have hperm : [digit, bar].Perm [bar, digit] := List.Perm.swap bar digit []
  obtain ⟨hlit, horder, hrepeat⟩ := screen_is_history
  refine ⟨hperm, horder _ _ _ _ hperm, fun h => ?_, ?_, ?_⟩
  · exact absurd ((hlit strokes 62 30).mp h) (by decide)
  · exact (hlit strokes 61 30).mpr (by decide)
  · refine (hrepeat Screen.blank digit).2.mpr ⟨62, 30, Screen.pixel_blank 62 30, ?_⟩
    exact (hlit [.draw digit] 62 30).mpr (by decide)

end ChipEight
