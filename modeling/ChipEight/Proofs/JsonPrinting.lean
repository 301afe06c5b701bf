import ChipEight.Json
import ChipEight.Proofs.JsonGrammar

/-!
# Printed values are read back

What is printed of a value is one of the texts that spell it
(`Proper.spells_prettyAt`), and so a value that can be written at all comes back when its
text is read. The induction follows the printer: line breaks and indentation are blanks,
and they stand where blanks may.
-/

namespace ChipEight.Json

theorem toList_quoted (body : List Char) : (quoted body).toList = '"' :: (body ++ ['"']) := by
  simp only [quoted, String.toList_append, String.toList_ofList]
  rfl

theorem blanks_newline (depth : Nat) : Blanks (newline depth).toList := by
  intro c hc
  simp only [newline, String.toList_append, String.toList_ofList, List.mem_append] at hc
  rcases hc with hc | hc
  · exact .inr (.inr (.inl (List.mem_singleton.mp hc)))
  · exact .inl (List.mem_replicate.mp hc).2

/-- A member, cut where the grammar cuts it. -/
theorem toList_member (key : List Char) (t : String) (after : List Char) :
    (quoted key ++ ": " ++ t).toList ++ after =
      '"' :: (key ++ '"' :: ([] ++ ':' :: ' ' :: (t.toList ++ after))) := by
  simp only [String.toList_append, toList_quoted, List.append_assoc, List.cons_append]
  rfl

/-- What stands between the marks of a container that is not empty. -/
def contents (depth : Nat) (texts : List String) : List Char :=
  (newline (depth + 1)).toList ++
    ((String.intercalate ("," ++ newline (depth + 1)) texts).toList ++ (newline depth).toList)

theorem toList_container (opening closing : String) (depth : Nat) {texts : List String}
    (h : texts ≠ []) : (container opening closing depth texts).toList =
      opening.toList ++ (contents depth texts ++ closing.toList) := by
  unfold container
  split
  · exact absurd rfl h
  · simp only [contents, String.toList_append, List.append_assoc]

theorem contents_singleton (depth : Nat) (t : String) :
    contents depth [t] =
      (newline (depth + 1)).toList ++ (t.toList ++ (newline depth).toList) := by
  rw [contents, String.intercalate_singleton]

theorem contents_cons_cons (depth : Nat) (t u : String) (texts : List String) :
    contents depth (t :: u :: texts) =
      (newline (depth + 1)).toList ++ (t.toList ++ ',' :: contents depth (u :: texts)) := by
  simp only [contents, String.intercalate_cons_cons, String.toList_append, List.append_assoc]
  rfl

mutual

/-- A value that can be written is spelled by what is printed of it. -/
theorem Proper.spells_prettyAt {v : Json} (h : v.Proper) (depth : Nat) :
    Spells v (prettyAt depth v).toList := by
  match v, h with
  | .null, _ =>
      rw [prettyAt]
      exact .null
  | .bool true, _ =>
      rw [prettyAt, if_pos rfl]
      exact .true
  | .bool false, _ =>
      rw [prettyAt, if_neg Bool.false_ne_true]
      exact .false
  | .number cs, .number hn =>
      rw [prettyAt, String.toList_ofList]
      exact .number hn
  | .string cs, .string hb =>
      rw [prettyAt, toList_quoted]
      exact .string hb
  | .array [], _ =>
      rw [prettyAt, prettyItems, container, String.toList_append]
      exact .emptyArray (List.forall_mem_nil _)
  | .array (w :: items), .array hitems =>
      rw [prettyAt, toList_container _ _ _ (by simp [prettyItems])]
      exact .array (spellsItems_contents hitems (by simp) depth)
  | .object [], _ =>
      rw [prettyAt, prettyMembers, container, String.toList_append]
      exact .emptyObject (List.forall_mem_nil _)
  | .object (m :: members), .object hkeys hmembers =>
      rw [prettyAt, toList_container _ _ _ (by simp [prettyMembers])]
      exact .object (spellsMembers_contents hkeys hmembers (by simp) depth)

theorem spellsItems_contents {items : List Json} (h : ∀ v ∈ items, Proper v) (hne : items ≠ [])
    (depth : Nat) : SpellsItems items (contents depth (prettyItems (depth + 1) items)) := by
  match items with
  | [] => exact absurd rfl hne
  | [v] =>
      have hv := (h v List.mem_cons_self).spells_prettyAt (depth + 1)
      rw [prettyItems, prettyItems, contents_singleton]
      exact .last ((hv.blanksAfter (blanks_newline _)).blanksBefore (blanks_newline _))
  | v :: w :: items =>
      have hv := (h v List.mem_cons_self).spells_prettyAt (depth + 1)
      have hitems := spellsItems_contents (fun u hu => h u (List.mem_cons_of_mem v hu))
        (List.cons_ne_nil w items) depth
      rw [prettyItems, prettyItems, contents_cons_cons, ← prettyItems]
      rw [← List.append_assoc]
      exact .cons (hv.blanksBefore (blanks_newline _)) hitems

theorem spellsMembers_contents {members : List (List Char × Json)}
    (hkeys : ∀ m ∈ members, Body m.1) (h : ∀ m ∈ members, Proper m.2) (hne : members ≠ [])
    (depth : Nat) : SpellsMembers members (contents depth (prettyMembers (depth + 1) members)) := by
  match members with
  | [] => exact absurd rfl hne
  | [(k, v)] =>
      have hv := (h (k, v) List.mem_cons_self).spells_prettyAt (depth + 1)
      have hcolon := (hv.blanksAfter (blanks_newline depth)).blankBefore (.inl rfl)
      have hkey := hkeys (k, v) List.mem_cons_self
      rw [prettyMembers, prettyMembers, contents_singleton, toList_member]
      exact .last (blanks_newline _) hkey (List.forall_mem_nil _) hcolon
  | (k, v) :: (k', v') :: members =>
      have hv := (h (k, v) List.mem_cons_self).spells_prettyAt (depth + 1)
      have hmembers := spellsMembers_contents (fun m hm => hkeys m (List.mem_cons_of_mem _ hm))
        (fun m hm => h m (List.mem_cons_of_mem _ hm)) (List.cons_ne_nil (k', v') members) depth
      have hcolon := hv.blankBefore (c := ' ') (.inl rfl)
      have hkey := hkeys (k, v) List.mem_cons_self
      rw [prettyMembers, prettyMembers, contents_cons_cons, ← prettyMembers, toList_member]
      exact .cons (blanks_newline _) hkey (List.forall_mem_nil _) hcolon hmembers

end

end ChipEight.Json
