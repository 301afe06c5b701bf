import Mathlib.Algebra.Ring.Nat
import Mathlib.Data.List.Forall2
import ChipEight.View.Picture

/-!
# Windows of a picture

What stands at a place of a picture is said by the window there, the cells of a
rectangle. Pictures are put together so that the parts can be found again. Laid one
below the other or side by side, part `k` is the window that starts where the parts
before it end. What a box frames is the window one cell inside its edges.

Every part has to be as large as its place. Boxes are, and whatever was fitted to a size.
To fit may cut; what cuts nothing is `filled`, and to fit is no more than that if all is
small enough.
-/

namespace ChipEight.View

namespace Row

/-- A row followed by blanks up to a width. -/
def filled (width : Nat) (style : Style) (row : Row) : Row :=
  row ++ replicate (width - row.length) style ' '

theorem length_replicate (n : Nat) (style : Style) (c : Char) :
    (replicate n style c).length = n :=
  List.length_replicate

theorem length_ofText (style : Style) (text : String) :
    (ofText style text).length = text.length := by
  rw [ofText, List.length_map, String.length_toList]

theorem length_fit (width : Nat) (style : Style) (row : Row) :
    (fit width style row).length = width := by
  rw [fit, List.length_append, List.length_take, length_replicate]
  omega

theorem fit_eq_filled {width : Nat} {row : Row} (style : Style) (h : row.length ≤ width) :
    fit width style row = filled width style row := by
  rw [fit, filled, List.take_of_length_le h]

theorem fit_of_length_eq {width : Nat} {row : Row} (style : Style) (h : row.length = width) :
    fit width style row = row := by
  rw [fit_eq_filled style (Nat.le_of_eq h), filled, h, Nat.sub_self]
  exact List.append_nil row

end Row

namespace Picture

/-- So many rows of so many cells each. -/
structure Sized (width height : Nat) (p : Picture) : Prop where
  length_eq : p.length = height
  width_eq : ∀ row ∈ p, row.length = width

/-- The cells of a rectangle of a size, whose corner is in column `x` of row `y`. -/
def window (x y width height : Nat) (p : Picture) : Picture :=
  ((p.drop y).take height).map fun row => (row.drop x).take width

/-- Rows followed by blanks up to a width, and by blank rows up to a height. -/
def filled (width height : Nat) (style : Style) (p : Picture) : Picture :=
  (p ++ List.replicate (height - p.length) []).map (Row.filled width style)

variable {width height x y w h : Nat} {p q : Picture}

/-! ## Windows in general -/

/-- The window over all of a picture. -/
theorem window_all (hp : p.Sized w h) : p.window 0 0 w h = p := by
  rw [window, List.drop_zero, List.take_of_length_le (Nat.le_of_eq hp.length_eq)]
  refine (List.map_congr_left fun row hrow => ?_).trans p.map_id
  exact List.take_of_length_le (Nat.le_of_eq (hp.width_eq row hrow))

/-- A window of a window. -/
theorem window_window {x' y' w' h' : Nat} (hw : x' + w' ≤ w) (hh : y' + h' ≤ h) :
    (p.window x y w h).window x' y' w' h' = p.window (x + x') (y + y') w' h' := by
  unfold window
  rw [← List.map_drop, ← List.map_take, List.map_map, List.drop_take, List.take_take,
    List.drop_drop, Nat.min_eq_left (by omega)]
  refine List.map_congr_left fun row _ => ?_
  rw [Function.comp_apply, List.drop_take, List.take_take, List.drop_drop,
    Nat.min_eq_left (by omega)]

/-- What is found in a window, and what is found in that. -/
theorem window_trans {r : Picture} {x' y' w' h' : Nat} (hq : p.window x y w h = q)
    (hr : q.window x' y' w' h' = r) (hw : x' + w' ≤ w) (hh : y' + h' ≤ h) :
    p.window (x + x') (y + y') w' h' = r := by
  rw [← window_window hw hh, hq, hr]

/-! ## Parts one below the other -/

theorem sized_append {h' : Nat} (hp : p.Sized w h) (hq : q.Sized w h') :
    Sized w (h + h') (p ++ q) := by
  refine ⟨?_, fun row hrow => ?_⟩
  · rw [List.length_append, hp.length_eq, hq.length_eq]
  · exact (List.mem_append.mp hrow).elim (hp.width_eq row) (hq.width_eq row)

theorem window_append_left (h : y + height ≤ p.length) :
    window x y width height (p ++ q) = p.window x y width height := by
  have hdrop : height ≤ (p.drop y).length := by
    rw [List.length_drop]
    omega
  rw [window, List.drop_append_of_le_length (by omega), List.take_append_of_le_length hdrop]
  rfl

theorem window_append_right :
    window x (p.length + y) width height (p ++ q) = q.window x y width height := by
  rw [window, List.drop_append, List.drop_of_length_le (by omega), Nat.add_sub_cancel_left]
  rfl

variable {ps : List Picture} {lengths : List Nat}

theorem sized_flatten (h : List.Forall₂ (fun p n => p.Sized w n) ps lengths) :
    Sized w lengths.sum ps.flatten := by
  induction h with
  | nil => exact ⟨rfl, fun _ hrow => nomatch hrow⟩
  | cons hp _ ih => exact sized_append hp ih

/-- **Of parts one below the other, each starts where those before it end.** -/
theorem window_flatten (h : List.Forall₂ (fun p n => p.Sized w n) ps lengths) {k n : Nat}
    (hp : ps[k]? = some p) (hn : lengths[k]? = some n) :
    window 0 (lengths.take k).sum w n ps.flatten = p := by
  induction h generalizing k with
  | nil => cases hp
  | @cons first m rest more hfirst _ ih =>
    cases k with
    | zero =>
      obtain rfl := Option.some.inj hp
      obtain rfl := Option.some.inj hn
      have hlength : 0 + m ≤ first.length := by
        rw [hfirst.length_eq]
        omega
      exact (window_append_left hlength).trans (window_all hfirst)
    | succ k =>
      rw [List.flatten_cons, List.take_succ_cons, List.sum_cons, ← hfirst.length_eq,
        window_append_right]
      exact ih hp hn

/-! ## Parts side by side -/

/-- What stands on the left. -/
theorem map_take_beside (hp : ∀ row ∈ p, row.length = w) (hq : q.length = p.length) :
    (p.beside q).map (·.take w) = p := by
  induction p generalizing q with
  | nil => rfl
  | cons row p ih =>
    cases q with
    | nil => cases hq
    | cons row' q =>
      have hrow : row.length = w := hp row List.mem_cons_self
      have hrest := ih (fun row hrow => hp row (List.mem_cons_of_mem _ hrow)) (Nat.succ.inj hq)
      rw [beside, List.zipWith_cons_cons, List.map_cons, ← hrow, List.take_left, hrow]
      exact congrArg (row :: ·) hrest

/-- What stands on the right. -/
theorem map_drop_beside (hp : ∀ row ∈ p, row.length = w) (hq : q.length = p.length) :
    (p.beside q).map (·.drop w) = q := by
  induction p generalizing q with
  | nil => exact (List.eq_nil_of_length_eq_zero hq).symm
  | cons row p ih =>
    cases q with
    | nil => cases hq
    | cons row' q =>
      have hrow : row.length = w := hp row List.mem_cons_self
      have hrest := ih (fun row hrow => hp row (List.mem_cons_of_mem _ hrow)) (Nat.succ.inj hq)
      rw [beside, List.zipWith_cons_cons, List.map_cons, ← hrow, List.drop_left, hrow]
      exact congrArg (row' :: ·) hrest

theorem length_beside (hq : q.length = p.length) : (p.beside q).length = p.length := by
  rw [beside, List.length_zipWith, hq, Nat.min_self]

theorem sized_beside {w' : Nat} (hp : p.Sized w h) (hq : q.Sized w' h) :
    (p.beside q).Sized (w + w') h := by
  have hlength : q.length = p.length := hq.length_eq.trans hp.length_eq.symm
  refine ⟨(length_beside hlength).trans hp.length_eq, fun row hrow => ?_⟩
  have hleft : row.take w ∈ p := by
    rw [← map_take_beside hp.width_eq hlength]
    exact List.mem_map_of_mem hrow
  have hright : row.drop w ∈ q := by
    rw [← map_drop_beside hp.width_eq hlength]
    exact List.mem_map_of_mem hrow
  calc row.length
    _ = (row.take w).length + (row.drop w).length := by
        rw [← List.length_append, List.take_append_drop]
    _ = w + w' := by rw [hp.width_eq _ hleft, hq.width_eq _ hright]

theorem window_beside_left (hp : p.Sized w h) (hq : q.length = h) :
    (p.beside q).window 0 0 w h = p := by
  have hlength : q.length = p.length := hq.trans hp.length_eq.symm
  have hall : (p.beside q).length ≤ h := by
    rw [length_beside hlength]
    exact Nat.le_of_eq hp.length_eq
  rw [window, List.drop_zero, List.take_of_length_le hall]
  exact map_take_beside hp.width_eq hlength

theorem window_beside_right (hp : p.Sized w h) (hq : q.length = h) :
    (p.beside q).window (w + x) y width height = q.window x y width height := by
  have hlength : q.length = p.length := hq.trans hp.length_eq.symm
  conv_rhs => rw [← map_drop_beside hp.width_eq hlength]
  unfold window
  rw [← List.map_drop, ← List.map_take, List.map_map]
  refine List.map_congr_left fun row _ => ?_
  rw [Function.comp_apply, List.drop_drop]

/-- Parts side by side are as wide as all of them together. -/
theorem sized_foldr_beside (h : List.Forall₂ (fun p n => p.Sized n height) ps lengths) :
    Sized lengths.sum height (ps.foldr beside (List.replicate height [])) := by
  induction h with
  | nil =>
    refine ⟨List.length_replicate, fun row hrow => ?_⟩
    rw [List.eq_of_mem_replicate hrow]
    rfl
  | cons hp _ ih => exact sized_beside hp ih

/-- **Of parts side by side, each starts where those before it end.** -/
theorem window_foldr_beside (h : List.Forall₂ (fun p n => p.Sized n height) ps lengths)
    {k n : Nat} (hp : ps[k]? = some p) (hn : lengths[k]? = some n) :
    window (lengths.take k).sum 0 n height (ps.foldr beside (List.replicate height [])) = p := by
  induction h generalizing k with
  | nil => cases hp
  | @cons first m rest more hfirst hrest ih =>
    have hlength := (sized_foldr_beside hrest).length_eq
    cases k with
    | zero =>
      obtain rfl := Option.some.inj hp
      obtain rfl := Option.some.inj hn
      exact window_beside_left hfirst hlength
    | succ k =>
      rw [List.foldr_cons, List.take_succ_cons, List.sum_cons, window_beside_right hfirst hlength]
      exact ih hp hn

/-! ## Fitted pictures and boxes -/

theorem sized_fit (style : Style) : (fit w h style p).Sized w h := by
  refine ⟨?_, fun row hrow => ?_⟩
  · rw [fit, List.length_map, List.length_append, List.length_take, List.length_replicate]
    omega
  · obtain ⟨row', -, rfl⟩ := List.mem_map.mp hrow
    exact Row.length_fit w style row'

theorem getElem?_fit {row : Row} {k : Nat} (style : Style) (hrow : p[k]? = some row) (hk : k < h) :
    (fit w h style p)[k]? = some (Row.fit w style row) := by
  have hlength : k < (p.take h).length := by
    have := (List.getElem?_eq_some_iff.mp hrow).1
    rw [List.length_take]
    omega
  rw [fit, List.getElem?_map, List.getElem?_append_left hlength, List.getElem?_take_of_lt hk, hrow]
  rfl

/-- Nothing is cut from what is small enough. -/
theorem fit_eq_filled (style : Style) (hh : p.length ≤ h) (hw : ∀ row ∈ p, row.length ≤ w) :
    fit w h style p = filled w h style p := by
  rw [fit, filled, List.take_of_length_le hh]
  refine List.map_congr_left fun row hrow => Row.fit_eq_filled style ?_
  rcases List.mem_append.mp hrow with hrow | hrow
  · exact hw row hrow
  · rw [List.eq_of_mem_replicate hrow]
    exact Nat.zero_le w

theorem fit_of_sized (style : Style) (hp : p.Sized w h) : fit w h style p = p := by
  rw [fit, List.take_of_length_le (Nat.le_of_eq hp.length_eq), hp.length_eq, Nat.sub_self,
    List.replicate_zero, List.append_nil]
  refine (List.map_congr_left fun row hrow => ?_).trans p.map_id
  exact Row.fit_of_length_eq style (hp.width_eq row hrow)

/-- A picture in the corner of one that it was fitted to. -/
theorem window_fit {w' h' : Nat} (style : Style) (hp : p.Sized w h) (hw : w ≤ w') (hh : h ≤ h') :
    (fit w' h' style p).window 0 0 w h = p := by
  have hlength : p.length = h := hp.length_eq
  rw [fit, List.take_of_length_le (by omega), window, List.drop_zero, ← List.map_take,
    List.take_left' hlength, List.map_map]
  refine (List.map_congr_left fun row hrow => ?_).trans p.map_id
  have hwidth : row.length = w := hp.width_eq row hrow
  have hrest : row.take w' = row := List.take_of_length_le (by omega)
  rw [Function.comp_apply, List.drop_zero, Row.fit, hrest, List.take_left' hwidth, id]

theorem sized_blank : (blank w h).Sized w h := by
  refine ⟨List.length_replicate, fun row hrow => ?_⟩
  rw [List.eq_of_mem_replicate hrow]
  exact Row.length_replicate w _ _

theorem length_edge (style : Style) (left right : Char) (title : String) (hw : 2 ≤ w) :
    (edge w style left right title).length = w := by
  simp only [edge, List.length_append, List.length_cons, List.length_nil, List.length_take,
    Row.length_replicate]
  omega

section
variable (border inside : Style) (title : String) (rows : List Row)

theorem sized_box (hw : 2 ≤ w) (hh : 2 ≤ h) : (box w h border inside title rows).Sized w h := by
  have hrows := sized_fit (w := w - 2) (h := h - 2) (p := rows) inside
  refine ⟨?_, fun row hrow => ?_⟩
  · rw [box, List.length_append, List.length_cons, List.length_map, hrows.length_eq,
      List.length_singleton]
    omega
  · rw [box, List.cons_append, List.mem_cons, List.mem_append, List.mem_singleton] at hrow
    rcases hrow with rfl | hrow | rfl
    · exact length_edge border _ _ title hw
    · obtain ⟨row', hrow', rfl⟩ := List.mem_map.mp hrow
      rw [List.length_append, List.length_cons, hrows.width_eq row' hrow', List.length_singleton]
      omega
    · exact length_edge border _ _ "" hw

/-- **A box frames its rows, fitted to its inside.** -/
theorem window_box :
    (box w h border inside title rows).window 1 1 (w - 2) (h - 2) =
      fit (w - 2) (h - 2) inside rows := by
  have hrows := sized_fit (w := w - 2) (h := h - 2) (p := rows) inside
  rw [box, List.cons_append, window, List.drop_succ_cons, List.drop_zero,
    List.take_left' (by rw [List.length_map, hrows.length_eq]), List.map_map]
  refine (List.map_congr_left fun row hrow => ?_).trans (List.map_id _)
  rw [Function.comp_apply, List.cons_append, List.drop_succ_cons, List.drop_zero,
    List.take_left' (hrows.width_eq row hrow), id]

end

end Picture

end ChipEight.View
