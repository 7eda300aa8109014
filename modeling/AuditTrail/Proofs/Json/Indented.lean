import AuditTrail.Proofs.Json.Depth

/-!
Indented text is read like compact text: what the writer puts between the parts of a value is
nothing but blanks, and these are passed over.
-/

namespace AuditTrail

namespace Json

open Canonical

theorem isBlank_newline (depth : Nat) : ∀ c ∈ newline depth, Document.isBlank c = true := by
  refine List.forall_mem_cons.mpr ⟨by decide, fun c member => ?_⟩
  rw [List.eq_of_mem_replicate member]
  decide

theorem prettyItems_eq_joinItems (depth : Nat) {items : List Json} (nonempty : items ≠ []) :
    newline depth ++ prettyItems depth items =
      joinItems (items.map (newline depth ++ prettyChars depth ·)) := by
  induction items with
  | nil => exact absurd rfl nonempty
  | cons item rest ih =>
      cases rest with
      | nil => rfl
      | cons next rest =>
          have later := ih (List.cons_ne_nil _ _)
          simp only [List.map_cons] at later
          simp only [List.map_cons, joinItems, prettyItems, ← later]
          simp only [List.append_assoc, List.cons_append]

theorem prettyFields_eq_joinItems (depth : Nat) {fields : List (String × Json)}
    (nonempty : fields ≠ []) : newline depth ++ prettyFields depth fields =
      joinItems (fields.map fun field =>
        newline depth ++ (quote field.1 ++ ':' :: ([' '] ++ field.2.prettyChars depth))) := by
  induction fields with
  | nil => exact absurd rfl nonempty
  | cons field rest ih =>
      cases rest with
      | nil => rfl
      | cons next rest =>
          have later := ih (List.cons_ne_nil _ _)
          simp only [List.map_cons] at later
          simp only [List.map_cons, joinItems, prettyFields, ← later]
          simp only [List.append_assoc, List.cons_append, List.nil_append]

theorem prettyChars_array (depth : Nat) {items : List Json} (nonempty : items ≠ []) :
    (array items).prettyChars depth = '[' ::
      (joinItems (items.map (newline (depth + 1) ++ prettyChars (depth + 1) ·)) ++
        (newline depth ++ [']'])) := by
  obtain ⟨item, rest, rfl⟩ := List.exists_cons_of_ne_nil nonempty
  rw [← prettyItems_eq_joinItems _ nonempty]
  simp only [prettyChars, List.append_assoc, List.cons_append]

theorem prettyChars_object (depth : Nat) {fields : List (String × Json)} (nonempty : fields ≠ []) :
    (object fields).prettyChars depth = '\x7b' ::
      (joinItems (fields.map fun field => newline (depth + 1) ++
        (quote field.1 ++ ':' :: ([' '] ++ field.2.prettyChars (depth + 1)))) ++
        (newline depth ++ ['\x7d'])) := by
  obtain ⟨field, rest, rfl⟩ := List.exists_cons_of_ne_nil nonempty
  rw [← prettyFields_eq_joinItems _ nonempty]
  simp only [prettyChars, List.append_assoc, List.cons_append]

end Json

namespace Document

open Json

theorem opensValue_prettyChars (depth : Nat) (value : Json) :
    OpensValue (value.prettyChars depth) := by
  cases value with
  | number n => exact LiteralOf.opens (exists_literal n)
  | bool b => cases b <;> exact ⟨_, _, rfl, by decide, by decide⟩
  | array items =>
      cases items with
      | nil => exact ⟨_, _, rfl, by decide, by decide⟩
      | cons item items =>
          exact ⟨_, _, prettyChars_array depth (List.cons_ne_nil _ _), by decide, by decide⟩
  | object fields =>
      cases fields with
      | nil => exact ⟨_, _, rfl, by decide, by decide⟩
      | cons field fields =>
          exact ⟨_, _, prettyChars_object depth (List.cons_ne_nil _ _), by decide, by decide⟩
  | _ => exact ⟨_, _, rfl, by decide, by decide⟩

theorem readsAs_prettyChars (value : Json) (depth : Nat) :
    ReadsAs (value.prettyChars depth) (ofJson value) := by
  have space : ∀ c ∈ [' '], isBlank c = true := List.forall_mem_singleton.mpr (by decide)
  induction value using structural generalizing depth with
  | null => exact readsAs_null
  | bool b =>
      cases b with
      | true => exact readsAs_bool true
      | false => exact readsAs_bool false
  | number n => exact readsAs_literal (exists_literal n)
  | string s => exact readsAs_string s
  | array items each =>
      cases items with
      | nil => exact readsAs_emptyArray
      | cons item items =>
          rw [prettyChars_array depth (List.cons_ne_nil _ _)]
          have reads := readsAs_array (isBlank_newline (depth + 1)) (prettyChars (depth + 1)) id
            (isBlank_newline depth) (List.cons_ne_nil item items)
            (fun item member => each item member (depth + 1))
            fun item _ => opensValue_prettyChars (depth + 1) item
          simpa using reads
  | object fields each =>
      cases fields with
      | nil => exact readsAs_emptyObject
      | cons field fields =>
          rw [prettyChars_object depth (List.cons_ne_nil _ _)]
          have reads := readsAs_object (isBlank_newline (depth + 1))
            (fun value => [' '] ++ value.prettyChars (depth + 1)) id (isBlank_newline depth)
            (List.cons_ne_nil field fields)
            fun field member => (each field member (depth + 1)).blanks space
          simpa using reads

theorem ofText_pretty (value : Json) : ofText value.pretty = (ofJson value, true) := by
  rw [ofText, pretty, String.toList_ofList, ofChars_of_readsAs (readsAs_prettyChars value 0)]

end Document

open Document in
theorem Json.parse?_pretty (value : Json) : Json.parse? value.pretty =
    if (ofJson value).nesting ≤ Json.maxDepth then some value.normalize else none :=
  Json.parse?_of_ofText (ofText_pretty value)

end AuditTrail
