import AuditTrail.Proofs.Json.Same

/-!
Values that are the same once they are normalized for comparison. Marks hide identifiers and never
structure: a text that is replaced in part holds the mark that was put in, and one that is left as
it is has a mark of its own if it is a single word, so no text becomes the mark of a number.
-/

namespace AuditTrail

namespace Normalize

/-! ### Texts -/

theorem replaceAll_eq_self_or (scan : Option Char → Scanner) (mark : List Char)
    (before : Option Char) (text : List Char) :
    replaceAll scan mark 0 before text = text ∨ mark ⊆ replaceAll scan mark 0 before text := by
  induction text generalizing before with
  | nil => exact .inl rfl
  | cons c rest ih =>
      rw [replaceAll]
      cases scan before (c :: rest) with
      | some after => exact .inr (List.subset_append_left ..)
      | none =>
          rcases ih (some c) with same | marked
          · exact .inl (congrArg (c :: ·) same)
          · exact .inr (List.subset_cons_of_subset c marked)

theorem eq_of_foldl_replaceAll {marks : List ((Option Char → Scanner) × String)}
    {text shown : List Char} (unmarked : ∀ entry ∈ marks, ¬ entry.2.toList ⊆ shown)
    (replaced : marks.foldl (fun text (scan, mark) =>
      replaceAll scan mark.toList 0 none text) text = shown) : text = shown := by
  induction marks generalizing text with
  | nil => exact replaced
  | cons entry rest ih =>
      obtain ⟨here, later⟩ := List.forall_mem_cons.mp unmarked
      have next := ih later replaced
      rcases replaceAll_eq_self_or entry.1 entry.2.toList none text with same | marked
      · exact same.symm.trans next
      · exact absurd (next ▸ marked) here

theorem string_ne_number (text : String) : string text ≠ "<number>" := by
  intro shown
  unfold string at shown
  simp only at shown
  split at shown
  · exact absurd shown (by decide)
  · rename_i notWord
    have replaced : replaceMarked text.toList = "<number>".toList := by
      rw [← shown, String.toList_ofList]
    have same := eq_of_foldl_replaceAll (by decide) replaced
    rw [replaced, same] at notWord
    exact notWord (by decide)

/-- A text that spells the mark is a word like any other. -/
example : string "<number>" = "<id>" := by decide

/-! ### Values -/

/-- Values that differ at most in their numbers and in what the marks hide of their texts. -/
inductive Alike : Json → Json → Prop where
  | null : Alike .null .null
  | bool (value : Bool) : Alike (.bool value) (.bool value)
  | number (first second : Number) : Alike (.number first) (.number second)
  | string {first second : String} (shown : string first = string second) :
      Alike (.string first) (.string second)
  | array {items others : List Json} (length : items.length = others.length)
      (each : ∀ item other, (item, other) ∈ items.zip others → Alike item other) :
      Alike (.array items) (.array others)
  | object {fields others : List (String × Json)}
      (keys : fields.map Prod.fst = others.map Prod.fst)
      (each : ∀ field other, (field, other) ∈ fields.zip others → Alike field.2 other.2) :
      Alike (.object fields) (.object others)

theorem array_value_same_iff {items others : List Json} :
    (value (.array items)).same (value (.array others)) = true ↔
      List.Forall₂ (fun item other => (value item).same (value other) = true) items others := by
  rw [value, value, Json.array_same_iff, values_eq_map, values_eq_map]
  simp only [Json.array.injEq, exists_eq_left', List.forall₂_map_left_iff,
    List.forall₂_map_right_iff]

theorem object_value_same_iff {fields others : List (String × Json)} :
    (value (.object fields)).same (value (.object others)) = true ↔
      List.Forall₂ (fun field other => field.1 = other.1 ∧
        (value field.2).same (value other.2) = true) fields others := by
  rw [value, value, Json.object_same_iff, valuesOf_eq_map, valuesOf_eq_map]
  simp only [Json.object.injEq, exists_eq_left', List.forall₂_map_left_iff,
    List.forall₂_map_right_iff]

theorem alike_of_same {first second : Json}
    (same : (value first).same (value second) = true) : Alike first second := by
  induction first using Json.structural generalizing second with
  | null =>
      cases second <;> simp only [value, Json.same, Bool.false_eq_true] at same
      exact .null
  | bool flag =>
      cases second <;> simp only [value, Json.same, Bool.false_eq_true, beq_iff_eq] at same
      exact same ▸ .bool flag
  | number first =>
      cases second with
      | number second => exact .number first second
      | string text =>
          simp only [value, Json.same, beq_iff_eq] at same
          exact absurd same.symm (string_ne_number text)
      | _ => simp [value, Json.same] at same
  | string text =>
      cases second with
      | number => exact absurd (beq_iff_eq.mp same) (string_ne_number text)
      | string other => exact .string (beq_iff_eq.mp same)
      | _ => simp [value, Json.same] at same
  | array items each =>
      cases second with
      | array others =>
          obtain ⟨length, paired⟩ := List.forall₂_iff_zip.mp (array_value_same_iff.mp same)
          refine .array length fun item other member => ?_
          exact each item (List.of_mem_zip member).1 (paired member)
      | _ => simp [value, Json.same] at same
  | object fields each =>
      cases second with
      | object others =>
          obtain ⟨keys, paired⟩ := forall₂_keyed_iff.mp (object_value_same_iff.mp same)
          refine .object keys fun field other member => ?_
          exact each field (List.of_mem_zip member).1 (paired field other member)
      | _ => simp [value, Json.same] at same

theorem Alike.same {first second : Json} (alike : Alike first second) :
    (value first).same (value second) = true := by
  induction alike with
  | null => rfl
  | bool flag => exact beq_self_eq_true flag
  | number => rfl
  | string shown => exact beq_iff_eq.mpr shown
  | array length _ each =>
      exact array_value_same_iff.mpr
        (List.forall₂_iff_zip.mpr ⟨length, fun member => each _ _ member⟩)
  | object keys _ each => exact object_value_same_iff.mpr (forall₂_keyed_iff.mpr ⟨keys, each⟩)

/-- Two values are the same after normalization exactly if they are alike, place by place; a number
and a text never are. -/
theorem same_iff_alike (first second : Json) :
    ((value first).same (value second) = true ↔ Alike first second) ∧
      ∀ (number : Number) (text : String),
        (value (.number number)).same (value (.string text)) = false := by
  refine ⟨⟨alike_of_same, Alike.same⟩, fun number text => ?_⟩
  rw [Bool.eq_false_iff]
  intro same
  cases alike_of_same same

end Normalize

end AuditTrail
