import AuditTrail.Proofs.Canonical
import AuditTrail.Proofs.Json.Spelling

/-!
Values in normal form: every object holds its keys in order, once. Normalizing gives such a value
and leaves one as it is, and a value is the same as itself.
-/

namespace AuditTrail

theorem Table.Ordered.ofList_eq {α : Type} {table : Table α} (ordered : table.Ordered) :
    ofList table = table :=
  (ordered_ofList table).ext ordered fun key => by
    rw [find?_ofList, ordered.lastOf_eq_find?]

theorem Number.same_refl (number : Number) : number.same number = true := by
  cases number <;> simp [Number.same, Binary64.sameValue]

namespace Json

theorem same_refl (value : Json) : value.same value = true := by
  induction value using structural with
  | null => simp [same]
  | bool b => simp [same]
  | number n => simp [same, Number.same_refl]
  | string s => simp [same]
  | array items each =>
      rw [same]
      induction items with
      | nil => simp [sameItems]
      | cons item rest ih =>
          simp [sameItems, each item List.mem_cons_self,
            ih fun other member => each other (List.mem_cons_of_mem _ member)]
  | object fields each =>
      rw [same]
      induction fields with
      | nil => simp [sameFields]
      | cons field rest ih =>
          simp [sameFields, each field List.mem_cons_self,
            ih fun other member => each other (List.mem_cons_of_mem _ member)]

def Normal (value : Json) : Prop :=
  value.normalize = value

theorem map_eq_self_iff {α : Type} {f : α → α} {items : List α} :
    items.map f = items ↔ ∀ item ∈ items, f item = item := by
  simpa using List.map_inj_left (f := f) (g := id)

theorem normal_array_iff {items : List Json} :
    (array items).Normal ↔ ∀ item ∈ items, item.Normal := by
  simp only [Normal, normalize, normalizeItems_eq_map, array.injEq, map_eq_self_iff]

theorem normal_object_iff {fields : List (String × Json)} :
    (object fields).Normal ↔ Table.Ordered fields ∧ ∀ field ∈ fields, field.2.Normal := by
  have same_iff : (∀ field ∈ fields, field.2.Normal) ↔ normalizeFields fields = fields := by
    rw [normalizeFields_eq_map, map_eq_self_iff]
    exact forall₂_congr fun field _ => by simp [Normal, Prod.ext_iff]
  simp only [Normal, normalize, object.injEq] at same_iff ⊢
  rw [same_iff]
  constructor
  · intro same
    have ordered : Table.Ordered fields := same ▸ Table.ordered_ofList _
    -- Keys are not touched, so the list that is sorted is in order before.
    have before : Table.Ordered (normalizeFields fields) := by
      rw [normalizeFields_eq_map]
      exact ordered.map _
    exact ⟨ordered, before.ofList_eq.symm.trans same⟩
  · rintro ⟨ordered, same⟩
    rw [same, ordered.ofList_eq]

theorem normal_normalize (value : Json) : value.normalize.Normal := by
  induction value using structural with
  | array items each =>
      rw [normalize, normal_array_iff, normalizeItems_eq_map]
      intro item member
      obtain ⟨former, inItems, rfl⟩ := List.mem_map.mp member
      exact each former inItems
  | object fields each =>
      rw [normalize, normal_object_iff]
      refine ⟨Table.ordered_ofList _, fun field member => ?_⟩
      have listed := Table.mem_ofList member
      rw [normalizeFields_eq_map] at listed
      obtain ⟨former, inFields, rfl⟩ := List.mem_map.mp listed
      exact each former inFields
  | _ => rfl

theorem find?_ofList_normalizeFields (fields : List (String × Json)) (key : String) :
    Table.find? key (Table.ofList (normalizeFields fields)) =
      (Table.lastOf key fields).map normalize := by
  rw [Table.find?_ofList, normalizeFields_eq_map, Table.lastOf_map]

end Json

end AuditTrail
