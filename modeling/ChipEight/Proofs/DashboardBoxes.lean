import ChipEight.Proofs.DebuggerRows
import ChipEight.Proofs.HexDump
import ChipEight.Proofs.Layout
import ChipEight.View.Dashboard

/-!
# The boxes of the dashboard

On a terminal that is large enough, every box of the dashboard stands in a place of its
own, whoever divides the cells: among the columns, and among the boxes of each column,
just one can grow, so the constraints decide where each begins and ends.

The screen and the memory at `I` have no room to spare. With the debugger shown, the
inside of the screen box is just as wide as the lines of the screen. On the narrowest
terminal, the right column has 28 cells inside a border, as many as a row of memory has
characters. They fit, so nothing of them is cut.
-/

namespace ChipEight.View

/-- Whether a terminal is large enough for what is shown. -/
def Fits (s : Session) (width height : Nat) : Prop :=
  if s.showDebug then 96 ≤ width ∧ 29 ≤ height else 66 ≤ width ∧ 21 ≤ height

/-- The width of the column with the screen. -/
def leftWidth (s : Session) (width : Nat) : Nat :=
  if s.showDebug then 66 else width

variable {divide : Divider} {s : Session} {width height : Nat}

/-! ## Parts that fill their places -/

-- every part but the blanks is a box, and asks for more cells than its edges take
theorem sized_leftParts (hw : 2 ≤ width) :
    ∀ part ∈ leftParts s, ∀ n, part.1.Admits n → (part.2 width n).Sized width n := by
  intro part hpart n hn
  have hleast := hn.least_le
  simp only [leftParts, List.mem_cons, List.not_mem_nil, or_false] at hpart
  rcases hpart with rfl | rfl | rfl
  · exact Picture.sized_box _ _ _ _ hw (Nat.le_trans (Nat.le_of_ble_eq_true rfl) hleast)
  · exact Picture.sized_box _ _ _ _ hw (Nat.le_trans (Nat.le_of_ble_eq_true rfl) hleast)
  · exact Picture.sized_blank

theorem sized_rightParts (hw : 2 ≤ width) :
    ∀ part ∈ rightParts s, ∀ n, part.1.Admits n → (part.2 width n).Sized width n := by
  intro part hpart n hn
  have hleast := hn.least_le
  simp only [rightParts, List.mem_cons, List.not_mem_nil, or_false] at hpart
  rcases hpart with rfl | rfl | rfl | rfl <;>
    exact Picture.sized_box _ _ _ _ hw (Nat.le_trans (Nat.le_of_ble_eq_true rfl) hleast)

theorem sized_columns :
    ∀ part ∈ columns divide s, ∀ n, part.1.Admits n → (part.2 n height).Sized n height := by
  intro part hpart n _
  rw [columns] at hpart
  split at hpart
  · simp only [List.mem_cons, List.not_mem_nil, or_false] at hpart
    rcases hpart with rfl | rfl <;> exact sized_stacked
  · obtain rfl := List.mem_singleton.mp hpart
    exact sized_stacked

theorem sized_screenLines (style : Style) (screen : Screen) :
    Picture.Sized 64 16 ((screenLines screen).map (Row.ofText style)) := by
  refine ⟨?_, fun row hrow => ?_⟩
  · rw [List.length_map, screenLines, List.length_map, List.length_range]
    rfl
  · obtain ⟨l, hl, rfl⟩ := List.mem_map.mp hrow
    obtain ⟨r, -, rfl⟩ := List.mem_map.mp hl
    rw [Row.length_ofText, screenLine, String.length_ofList, List.length_map, List.length_range]
    rfl

/-! ## Where parts begin and end -/

theorem leastTotal_columns_le (divide : Divider) (h : Fits s width height) :
    leastTotal ((columns divide s).map (·.1)) ≤ width := by
  unfold Fits at h
  split at h
  · rename_i hdebug
    rw [columns, if_pos hdebug]
    exact h.1
  · rename_i hdebug
    rw [columns, if_neg hdebug]
    exact h.1

/-- The screen asks for less than the boxes of the debugger. -/
theorem Fits.le_height (h : Fits s width height) : 21 ≤ height := by
  unfold Fits at h
  split at h <;> omega

theorem Fits.le_leftWidth (h : Fits s width height) : 66 ≤ leftWidth s width := by
  unfold Fits at h
  unfold leftWidth
  split at h
  · rw [if_pos ‹_›]
  · rw [if_neg ‹_›]
    exact h.1

theorem fits_of_debug (hw : 96 ≤ width) (hh : 29 ≤ height) (hdebug : s.showDebug = true) :
    Fits s width height := by
  rw [Fits, if_pos hdebug]
  exact ⟨hw, hh⟩

section
variable (hd : divide.Lawful)
include hd

theorem widths_columns (h : Fits s width height) :
    divide ((columns divide s).map (·.1)) width =
      if s.showDebug then [66, width - 66] else [width] := by
  have hleast := leastTotal_columns_le divide h
  cases hdebug : s.showDebug with
  | true =>
    rw [columns, if_pos hdebug] at hleast ⊢
    exact hd.eq_greedy hleast rfl
  | false =>
    rw [columns, hdebug] at hleast ⊢
    exact hd.eq_greedy hleast rfl

theorem heights_leftParts (h : 21 ≤ height) :
    divide ((leftParts s).map (·.1)) height = [18, 3, height - 21] := by
  have hrest : height - 18 - 3 - 0 = height - 21 := by omega
  rw [hd.eq_greedy h rfl, ← hrest]
  rfl

theorem heights_rightParts (h : 29 ≤ height) :
    divide ((rightParts s).map (·.1)) height = [10, height - 23, 6, 7] := by
  have hrest : height - 10 - (6 + (7 + 0)) = height - 23 := by omega
  rw [hd.eq_greedy h rfl, ← hrest]
  rfl

/-! ## The columns -/

theorem sized_dashboard (h : Fits s width height) :
    (dashboardBy divide s width height).Sized width height := by
  refine sized_abreast hd (leastTotal_columns_le divide h) sized_columns ?_
  rw [columns]
  split <;> rfl

/-- The left column stands in the corner. -/
theorem window_leftColumn (h : Fits s width height) :
    (dashboardBy divide s width height).window 0 0 (leftWidth s width) height =
      stacked divide (leftParts s) (leftWidth s width) height := by
  have hfits := leastTotal_columns_le divide h
  have hwidths := widths_columns hd h
  cases hdebug : s.showDebug with
  | true =>
    rw [hdebug, if_pos rfl] at hwidths
    have hcolumn : (columns divide s)[0]? = some (.exactly 66, stacked divide (leftParts s)) := by
      rw [columns, if_pos hdebug]
      rfl
    rw [leftWidth, if_pos hdebug]
    exact window_abreast hd hfits sized_columns hwidths hcolumn rfl
  | false =>
    rw [hdebug, if_neg Bool.false_ne_true] at hwidths
    have hcolumn : (columns divide s)[0]? = some (.atLeast 66, stacked divide (leftParts s)) := by
      rw [columns, hdebug]
      rfl
    rw [leftWidth, hdebug]
    exact window_abreast hd hfits sized_columns hwidths hcolumn rfl

/-- The right column gets all cells beside the screen. -/
theorem window_rightColumn (h : Fits s width height) (hdebug : s.showDebug = true) :
    (dashboardBy divide s width height).window 66 0 (width - 66) height =
      stacked divide (rightParts s) (width - 66) height := by
  have hwidths := widths_columns hd h
  rw [if_pos hdebug] at hwidths
  have hcolumn : (columns divide s)[1]? = some (.atLeast 30, stacked divide (rightParts s)) := by
    rw [columns, if_pos hdebug]
    rfl
  exact window_abreast hd (leastTotal_columns_le divide h) sized_columns hwidths hcolumn rfl

/-! ## The boxes -/

theorem window_screenBox (h : Fits s width height) :
    (dashboardBy divide s width height).window 0 0 (leftWidth s width) 18 =
      screenBox s (leftWidth s width) 18 := by
  have hwidth := h.le_leftWidth
  have hheight := h.le_height
  have hbox : (stacked divide (leftParts s) (leftWidth s width) height).window
      0 0 (leftWidth s width) 18 = screenBox s (leftWidth s width) 18 :=
    window_stacked (k := 0) hd hheight rfl (sized_leftParts (by omega))
      (heights_leftParts hd hheight) rfl rfl
  exact Picture.window_trans (window_leftColumn hd h) hbox (by omega) (by omega)

/-- The screen box shows the lines of the screen in its corner. -/
theorem window_screen (h : Fits s width height) :
    (dashboardBy divide s width height).window 1 1 64 16 =
      (screenLines s.console.machine.screen).map (Row.ofText (.color .green)) := by
  have hwidth := h.le_leftWidth
  have hinside := Picture.window_trans (window_screenBox hd h)
    (Picture.window_box _ _ _ _) (by omega) (by decide)
  exact Picture.window_trans hinside
    (Picture.window_fit _ (sized_screenLines _ _) (by omega) (by decide)) (by omega) (by decide)

section
variable (hw : 96 ≤ width) (hh : 29 ≤ height) (hdebug : s.showDebug = true)
include hw hh hdebug

theorem window_codeBox :
    (dashboardBy divide s width height).window 66 10 (width - 66) (height - 23) =
      codeBox s (width - 66) (height - 23) := by
  have hbox : (stacked divide (rightParts s) (width - 66) height).window
      0 10 (width - 66) (height - 23) = codeBox s (width - 66) (height - 23) :=
    window_stacked (k := 1) hd hh rfl (sized_rightParts (by omega)) (heights_rightParts hd hh)
      rfl rfl
  exact Picture.window_trans (window_rightColumn hd (fits_of_debug hw hh hdebug) hdebug) hbox
    (by omega) (by omega)

theorem window_memoryBox :
    (dashboardBy divide s width height).window 66 (height - 13) (width - 66) 6 =
      memoryBox s (width - 66) 6 := by
  have hstart : 10 + (height - 23 + 0) = height - 13 := by omega
  have hbox : (stacked divide (rightParts s) (width - 66) height).window
      0 (10 + (height - 23 + 0)) (width - 66) 6 = memoryBox s (width - 66) 6 :=
    window_stacked (k := 2) hd hh rfl (sized_rightParts (by omega)) (heights_rightParts hd hh)
      rfl rfl
  rw [hstart] at hbox
  have hplace := Picture.window_trans
    (window_rightColumn hd (fits_of_debug hw hh hdebug) hdebug) hbox (by omega) (by omega)
  rwa [Nat.zero_add] at hplace

/-- The memory box shows the rows of memory, with blanks after them. -/
theorem window_memory :
    let m := s.console.machine
    (dashboardBy divide s width height).window 67 (height - 12) (width - 68) 4 =
      Picture.filled (width - 68) 4 .plain
        ((memoryLines m.memory m.registers.i 4).map (Row.ofText .plain)) := by
  intro m
  have hstart : height - 13 + 1 = height - 12 := by omega
  have hinside := Picture.window_trans (window_memoryBox hd hw hh hdebug)
    (Picture.window_box _ _ _ _) (by omega) (by decide)
  rw [hstart] at hinside
  refine hinside.trans (Picture.fit_eq_filled .plain ?_ fun row hrow => ?_)
  · rw [List.length_map, length_memoryLines]
    exact dumpRows_le _ 4
  · obtain ⟨l, hl, rfl⟩ := List.mem_map.mp hrow
    rw [Row.length_ofText, length_of_mem_memoryLines hl]
    omega

end

end

/-- **Nothing of the screen or of the rows of memory is cut.** On a terminal that is large enough,
however its cells are divided, the box with the screen stands in the corner and its inside starts
with the lines of the screen, every one complete. With the debugger shown, the inside of the box
with the memory is the rows from `I` on, every one complete, and otherwise blank. -/
theorem dashboard_cuts_nothing (hd : divide.Lawful) (h : Fits s width height) :
    let p := dashboardBy divide s width height
    let m := s.console.machine
    p.Sized width height ∧
      p.window 0 0 (leftWidth s width) 18 = screenBox s (leftWidth s width) 18 ∧
      p.window 1 1 64 16 = (screenLines m.screen).map (Row.ofText (.color .green)) ∧
      (s.showDebug = true →
        p.window 66 (height - 13) (width - 66) 6 = memoryBox s (width - 66) 6 ∧
        p.window 67 (height - 12) (width - 68) 4 =
          Picture.filled (width - 68) 4 .plain
            ((memoryLines m.memory m.registers.i 4).map (Row.ofText .plain))) := by
  intro p m
  refine ⟨sized_dashboard hd h, window_screenBox hd h, window_screen hd h, fun hdebug => ?_⟩
  rw [Fits, if_pos hdebug] at h
  exact ⟨window_memoryBox hd h.1 h.2 hdebug, window_memory hd h.1 h.2 hdebug⟩

/-- The narrowest terminal, with `I` in the last row of memory: the box shows that row alone. -/
theorem dashboard_cuts_nothing_last_row :
    ∃ s₀, Session.new ⟨480, 60, some 7⟩ [0xAF, 0xFA] (.ofSeed 0) = .ok s₀ ∧
      let s := s₀.after [.step]
      let p := dashboard s 96 29
      let m := s.console.machine
      s.showDebug = true ∧ m.registers.i = 0xFFA ∧
        p.window 1 1 64 16 = (screenLines m.screen).map (Row.ofText (.color .green)) ∧
        p.window 67 17 28 4 = Picture.filled 28 4 .plain
          [Row.ofText .plain (dumpRow 0xFF8 (m.memory.span 0xFF8 8))] := by
  have hrun : (Session.new ⟨480, 60, some 7⟩ [0xAF, 0xFA] (.ofSeed 0)).toOption.map
      (fun s => ((s.after [.step]).showDebug, (s.after [.step]).console.machine.registers.i)) =
      some (true, 0xFFA) := by decide +kernel
  obtain ⟨s₀, h₀, hs₀⟩ := Session.exists_new_of_map hrun
  obtain ⟨hdebug, hi⟩ := Prod.mk.inj hs₀
  have hlarge : Fits (s₀.after [.step]) 96 29 := fits_of_debug (by decide) (by decide) hdebug
  obtain ⟨-, -, hscreen, hmemory⟩ := dashboard_cuts_nothing Divider.greedy_lawful hlarge
  refine ⟨s₀, h₀, hdebug, hi, hscreen, (hmemory hdebug).2.trans ?_⟩
  have hone : List.range (dumpRows 0xFFA 4) = [0] := by decide
  have hstart : dumpStart 0xFFA + 8 * 0 = 0xFF8 := by decide
  rw [hi, memoryLines_eq, hone, List.map_singleton, hstart, List.map_singleton]

end ChipEight.View
