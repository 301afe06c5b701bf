import ChipEight.Proofs.Windows
import ChipEight.View.Layout

/-!
# Layouts that fit

How the cells of a terminal are divided is somebody else's business. All that is asked of
a `Divider` is that it honours the constraints whenever the cells suffice for them, and
that it then gives all cells away if some part can take more (`Divider.Lawful`). Dividing
greedily does so. If just one part can take more, it leaves no choice: every lawful
divider then divides as the greedy one does (`Divider.Lawful.eq_greedy`).

A layout that fits has each part in a window of its own, where the lengths before it
end, and there nothing of it is cut.
-/

namespace ChipEight.View

/-- Whether a part is content with a length. -/
def Constraint.Admits : Constraint → Nat → Prop
  | exactly n, length => length = n
  | atLeast n, length => n ≤ length

/-- Whether a part can take more than it asks for. -/
def Constraint.grows : Constraint → Bool
  | exactly _ => false
  | atLeast _ => true

theorem Constraint.admits_least (c : Constraint) : c.Admits c.least := by
  cases c with
  | exactly n => exact rfl
  | atLeast n => exact Nat.le_refl n

/-- A part that does not grow has only one length. -/
theorem Constraint.Admits.eq_least {c : Constraint} {n : Nat} (h : c.Admits n)
    (hc : c.grows = false) : n = c.least := by
  cases c with
  | exactly m => exact h
  | atLeast m => cases hc

theorem Constraint.Admits.least_le {c : Constraint} {n : Nat} (h : c.Admits n) : c.least ≤ n := by
  cases c with
  | exactly m => exact Nat.le_of_eq h.symm
  | atLeast m => exact h

theorem sum_map_least (parts : List Constraint) :
    (parts.map Constraint.least).sum = leastTotal parts := by
  induction parts with
  | nil => rfl
  | cons c parts ih =>
    rw [List.map_cons, List.sum_cons, ih]
    rfl

namespace Divider

/-- What a layout relies on. -/
structure Lawful (divide : Divider) : Prop where
  /-- If the cells suffice, every part gets a length that it is content with. -/
  admits : ∀ {parts : List Constraint} {total : Nat}, leastTotal parts ≤ total →
    List.Forall₂ Constraint.Admits parts (divide parts total)
  /-- If the cells suffice and some part can take more, no cell is left over. -/
  exhausts : ∀ {parts : List Constraint} {total : Nat}, leastTotal parts ≤ total →
    parts.any Constraint.grows = true → (divide parts total).sum = total

variable {divide : Divider} {parts : List Constraint} {lengths : List Nat} {total : Nat}

/-! ## Dividing greedily -/

theorem forall₂_admits_least (parts : List Constraint) :
    List.Forall₂ Constraint.Admits parts (parts.map Constraint.least) := by
  induction parts with
  | nil => exact .nil
  | cons c parts ih => exact .cons c.admits_least ih

theorem admits_greedy (h : leastTotal parts ≤ total) :
    List.Forall₂ Constraint.Admits parts (greedy parts total) := by
  induction parts generalizing total with
  | nil => exact .nil
  | cons c parts ih =>
    cases c with
    | exactly n => exact .cons rfl (ih (Nat.le_sub_of_add_le' h))
    | atLeast n => exact .cons (Nat.le_sub_of_add_le h) (forall₂_admits_least parts)

theorem sum_greedy (h : leastTotal parts ≤ total) (hgrows : parts.any Constraint.grows = true) :
    (greedy parts total).sum = total := by
  induction parts generalizing total with
  | nil => cases hgrows
  | cons c parts ih =>
    cases c with
    | exactly n =>
      have hrest : (greedy parts (total - n)).sum = total - n :=
        ih (Nat.le_sub_of_add_le' h) hgrows
      rw [greedy, List.sum_cons, hrest]
      exact Nat.add_sub_cancel' (Nat.le_of_add_right_le h)
    | atLeast n =>
      rw [greedy, List.sum_cons, sum_map_least]
      exact Nat.sub_add_cancel (Nat.le_of_add_left_le h)

theorem greedy_lawful : Lawful greedy :=
  ⟨admits_greedy, sum_greedy⟩

/-! ## No choice -/

/-- Parts none of which grows have only one way to be content. -/
theorem eq_least_of_admits (h : List.Forall₂ Constraint.Admits parts lengths)
    (hgrows : parts.countP Constraint.grows = 0) : lengths = parts.map Constraint.least := by
  induction h with
  | nil => rfl
  | @cons c n parts lengths hc _ ih =>
    have hfixed := List.countP_eq_zero.mp hgrows
    have hrest := List.countP_eq_zero.mpr fun c' hc' => hfixed c' (List.mem_cons_of_mem c hc')
    rw [List.map_cons, ← ih hrest,
      hc.eq_least (Bool.eq_false_iff.mpr (hfixed c List.mem_cons_self))]

/-- Where just one part grows, the sum of the lengths decides them all. -/
theorem eq_greedy_of_admits (h : List.Forall₂ Constraint.Admits parts lengths)
    (hgrows : parts.countP Constraint.grows = 1) : lengths = greedy parts lengths.sum := by
  induction h with
  | nil => cases hgrows
  | @cons c n parts lengths hc hrest ih =>
    cases c with
    | exactly m =>
      obtain rfl : n = m := hc
      have hfixed : ¬(Constraint.exactly n).grows = true := Bool.false_ne_true
      rw [List.countP_cons_of_neg hfixed] at hgrows
      rw [greedy, List.sum_cons, Nat.add_sub_cancel_left, ← ih hgrows]
    | atLeast m =>
      -- the others have their lengths from the constraints, and this part has what is left
      rw [List.countP_cons_of_pos rfl] at hgrows
      have hfixed := eq_least_of_admits hrest (Nat.succ.inj hgrows)
      rw [greedy, List.sum_cons, ← sum_map_least, ← hfixed, Nat.add_sub_cancel]

/-- **Where just one part grows, there is only one lawful way to divide cells that suffice.** -/
theorem Lawful.eq_greedy (hd : divide.Lawful) (h : leastTotal parts ≤ total)
    (hgrows : parts.countP Constraint.grows = 1) : divide parts total = greedy parts total := by
  have hany : parts.any Constraint.grows = true := by
    obtain ⟨c, hc, hcgrows⟩ := List.countP_pos_iff.mp (Nat.lt_of_lt_of_eq Nat.one_pos hgrows.symm)
    exact List.any_eq_true.mpr ⟨c, hc, hcgrows⟩
  calc divide parts total
    _ = greedy parts (divide parts total).sum := eq_greedy_of_admits (hd.admits h) hgrows
    _ = greedy parts total := by rw [hd.exhausts h hany]

end Divider

/-! ## Parts in their windows -/

/-- What is made of each item and its partner stands to the partner as it should. -/
theorem forall₂_zipWith {α β γ : Type} {R : α → β → Prop} {S : γ → β → Prop} {f : α → β → γ}
    {as : List α} {bs : List β} (h : List.Forall₂ R as bs)
    (hf : ∀ a ∈ as, ∀ b, R a b → S (f a b) b) : List.Forall₂ S (List.zipWith f as bs) bs := by
  induction h with
  | nil => exact .nil
  | @cons a b as bs hab _ ih =>
    exact .cons (hf a List.mem_cons_self b hab) (ih fun a ha => hf a (List.mem_cons_of_mem _ ha))

section
variable {divide : Divider} {parts : List (Constraint × Panel)} {lengths : List Nat}
variable {width height k n : Nat} {part : Constraint × Panel}

theorem sized_stacked : (stacked divide parts width height).Sized width height :=
  Picture.sized_fit .plain

section
variable (hd : divide.Lawful) (hfits : leastTotal (parts.map (·.1)) ≤ height)
variable (hgrows : (parts.map (·.1)).any Constraint.grows = true)
variable (hsized : ∀ part ∈ parts, ∀ n, part.1.Admits n → (part.2 width n).Sized width n)
include hd hfits hgrows hsized

/-- **A part of a stack that fits is seen in full, below the parts before it.** -/
theorem window_stacked (hlengths : divide (parts.map (·.1)) height = lengths)
    (hpart : parts[k]? = some part) (hn : lengths[k]? = some n) :
    (stacked divide parts width height).window 0 (lengths.take k).sum width n =
      part.2 width n := by
  have hdrawn : List.Forall₂ (fun p n => Picture.Sized width n p)
      (List.zipWith (fun part length => part.2 width length) parts lengths) lengths := by
    rw [← hlengths]
    exact forall₂_zipWith (List.forall₂_map_left_iff.mp (hd.admits hfits)) hsized
  have hall := Picture.sized_flatten hdrawn
  rw [← hlengths, hd.exhausts hfits hgrows, hlengths] at hall
  rw [stacked, hlengths, Picture.fit_of_sized .plain hall]
  exact Picture.window_flatten hdrawn (List.getElem?_zipWith_eq_some.mpr ⟨_, _, hpart, hn, rfl⟩) hn

end

section
variable (hd : divide.Lawful) (hfits : leastTotal (parts.map (·.1)) ≤ width)
variable (hsized : ∀ part ∈ parts, ∀ n, part.1.Admits n → (part.2 n height).Sized n height)
include hd hfits hsized

theorem forall₂_sized_abreast (hlengths : divide (parts.map (·.1)) width = lengths) :
    List.Forall₂ (fun p n => Picture.Sized n height p)
      (List.zipWith (fun part length => part.2 length height) parts lengths) lengths := by
  rw [← hlengths]
  exact forall₂_zipWith (List.forall₂_map_left_iff.mp (hd.admits hfits)) hsized

/-- Columns that fit fill the whole. -/
theorem sized_abreast (hgrows : (parts.map (·.1)).any Constraint.grows = true) :
    (abreast divide parts width height).Sized width height := by
  have hall := Picture.sized_foldr_beside (forall₂_sized_abreast hd hfits hsized rfl)
  rwa [hd.exhausts hfits hgrows] at hall

/-- **A column that fits is seen in full, to the right of those before it.** -/
theorem window_abreast (hlengths : divide (parts.map (·.1)) width = lengths)
    (hpart : parts[k]? = some part) (hn : lengths[k]? = some n) :
    (abreast divide parts width height).window (lengths.take k).sum 0 n height =
      part.2 n height := by
  rw [abreast, hlengths]
  exact Picture.window_foldr_beside (forall₂_sized_abreast hd hfits hsized hlengths)
    (List.getElem?_zipWith_eq_some.mpr ⟨_, _, hpart, hn, rfl⟩) hn

end

end

end ChipEight.View
