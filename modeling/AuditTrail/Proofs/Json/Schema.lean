import AuditTrail.Json.Schema
import AuditTrail.Proofs.Table

/-!
What a schema asks of a value, told without the list of faults. No fault is found exactly when the
value is admitted.
-/

namespace AuditTrail.Schema

inductive Admits : Schema → Json → Prop
  | any (value : Json) : Admits .any value
  | boolean (b : Bool) : Admits .boolean (.bool b)
  | text {minLength : Nat} {s : String} : minLength ≤ s.length → Admits (.text minLength) (.string s)
  | choice {options : List String} {s : String} : s ∈ options → Admits (.choice options) (.string s)
  | list {items : Schema} {values : List Json} : (∀ value ∈ values, Admits items value) →
      Admits (.list items) (.array values)
  | record {properties : List (String × Schema)} {required : List String} {closed : Bool}
      {fields : List (String × Json)} :
      (∀ property ∈ properties, ∀ value, Table.find? property.1 fields = some value →
        Admits property.2 value) →
      (closed = true → ∀ field ∈ fields, field.1 ∈ properties.map Prod.fst) →
      (∀ name ∈ required, ∃ value, Table.find? name fields = some value) →
      Admits (.record properties required closed) (.object fields)

theorem exists_string {minLength : Nat} {value : Json} (admits : (text minLength).Admits value) :
    ∃ s, value = .string s := by
  cases admits with
  | @text _ s _ => exact ⟨s, rfl⟩

theorem admits_filled_iff {value : Json} :
    (text 1).Admits value ↔ ∃ s, s ≠ "" ∧ value = .string s := by
  constructor
  · intro admits
    cases admits with
    | @text _ s long =>
        refine ⟨s, ?_, rfl⟩
        rintro rfl
        exact absurd long (by decide)
  · rintro ⟨s, filled, rfl⟩
    have long : s.length ≠ 0 := fun empty => filled (String.length_eq_zero_iff.mp empty)
    exact .text (Nat.one_le_iff_ne_zero.mpr long)

section

variable {pointer : List String} {fields : List (String × Json)}

theorem missing_eq_nil_iff {required : List String} : missing pointer fields required = [] ↔
    ∀ name ∈ required, ∃ value, Table.find? name fields = some value := by
  simp only [missing, List.map_eq_nil_iff, List.filter_eq_nil_iff, Option.isNone_iff_eq_none,
    ← Option.ne_none_iff_exists']

theorem unexpected_eq_nil_iff {known : List String} : unexpected pointer fields known = [] ↔
    ∀ field ∈ fields, field.1 ∈ known := by
  unfold unexpected
  dsimp only
  split
  next none =>
    rw [List.isEmpty_iff, List.filter_eq_nil_iff] at none
    simpa using none
  next some =>
    rw [List.isEmpty_iff, List.filter_eq_nil_iff] at some
    simpa using some

end

mutual

theorem violations_eq_nil_iff (schema : Schema) (pointer : List String) (value : Json) :
    schema.violations pointer value = [] ↔ schema.Admits value := by
  cases schema with
  | any => exact ⟨fun _ => .any value, fun _ => by rw [violations]⟩
  | boolean =>
      cases value with
      | bool b => exact ⟨fun _ => .boolean b, fun _ => by rw [violations]⟩
      | _ => exact ⟨nofun, nofun⟩
  | text minLength =>
      cases value with
      | string s =>
          rw [violations]
          split
          next short => exact ⟨nofun, fun admits => by cases admits; omega⟩
          next long => exact ⟨fun _ => .text (by omega), fun _ => rfl⟩
      | _ => exact ⟨nofun, nofun⟩
  | choice options =>
      cases value with
      | string s =>
          rw [violations]
          split
          next chosen => exact ⟨fun _ => .choice (by simpa using chosen), fun _ => rfl⟩
          next other => exact ⟨nofun, fun admits => by cases admits; simp_all⟩
      | _ => exact ⟨nofun, nofun⟩
  | list items =>
      cases value with
      | array values =>
          have each (index : Nat) (value : Json) := violations_eq_nil_iff items
            (pointer ++ [toString index]) value
          simp only [violations, List.flatMap_eq_nil_iff, Prod.forall, List.mem_zipIdx_iff_getElem?,
            each]
          constructor
          · intro admits
            refine .list fun value member => ?_
            obtain ⟨index, found⟩ := List.mem_iff_getElem?.mp member
            exact admits value index found
          · intro admits value index found
            cases admits with
            | list admits => exact admits value (List.mem_of_getElem? found)
      | _ => exact ⟨nofun, nofun⟩
  | record properties required closed =>
      cases value with
      | object fields =>
          have each := fieldViolations_eq_nil_iff properties pointer fields
          rw [violations, List.append_eq_nil_iff, List.append_eq_nil_iff, each, missing_eq_nil_iff]
          constructor
          · rintro ⟨⟨admits, known⟩, present⟩
            refine .record admits (fun tight => ?_) present
            rw [if_pos tight] at known
            exact unexpected_eq_nil_iff.mp known
          · intro admits
            cases admits with
            | record admits known present =>
                refine ⟨⟨admits, ?_⟩, present⟩
                split
                next tight => exact unexpected_eq_nil_iff.mpr (known tight)
                next => rfl
      | _ => exact ⟨nofun, nofun⟩

theorem fieldViolations_eq_nil_iff (properties : List (String × Schema)) (pointer : List String)
    (fields : List (String × Json)) : fieldViolations pointer fields properties = [] ↔
      ∀ property ∈ properties, ∀ value, Table.find? property.1 fields = some value →
        property.2.Admits value := by
  cases properties with
  | nil => simp [fieldViolations]
  | cons property rest =>
      obtain ⟨name, schema⟩ := property
      have first := violations_eq_nil_iff schema (pointer ++ [name])
      have later := fieldViolations_eq_nil_iff rest pointer fields
      rw [fieldViolations, List.append_eq_nil_iff, later, List.forall_mem_cons]
      cases Table.find? name fields with
      | none => simp
      | some value => simp [first value]

end

end AuditTrail.Schema
