import AuditTrail.Proofs.Json.Normal
import AuditTrail.Replay.Normalize
import Mathlib.Data.List.Forall2

/-!
When two values are the same: arrays item by item, objects field by field. Values that are the same
stay so when both are normalized for comparison.
-/

namespace AuditTrail

theorem rel_getElem? {α β : Type} {Goes : α → β → Prop} {items : List α} {others : List β}
    (all : List.Forall₂ Goes items others) (index : Nat) :
    Option.Rel Goes items[index]? others[index]? := by
  induction all generalizing index with
  | nil => exact .none
  | cons goes _ ih =>
      cases index with
      | zero => exact .some goes
      | succ index => exact ih index

theorem forall₂_of_rel_getElem? {α β : Type} {Goes : α → β → Prop} {items : List α}
    {others : List β} (rel : ∀ index : Nat, Option.Rel Goes items[index]? others[index]?) :
    List.Forall₂ Goes items others := by
  induction items generalizing others with
  | nil =>
      cases others with
      | nil => exact .nil
      | cons other rest => cases rel 0
  | cons item items ih =>
      cases others with
      | nil => cases rel 0
      | cons other rest =>
          cases rel 0 with
          | some goes => exact .cons goes (ih fun index => rel (index + 1))

theorem forall₂_trans {α β γ : Type} {Goes : α → β → Prop} {Leads : β → γ → Prop}
    {Reaches : α → γ → Prop} {items : List α} {others : List β} {last : List γ}
    (goes : List.Forall₂ Goes items others) (leads : List.Forall₂ Leads others last)
    (reaches : ∀ item other third, Goes item other → Leads other third → Reaches item third) :
    List.Forall₂ Reaches items last := by
  induction goes generalizing last with
  | nil => cases leads; exact .nil
  | cons first _ ih =>
      cases leads with
      | cons next rest => exact .cons (reaches _ _ _ first next) (ih rest)

theorem forall₂_keyed_iff {α β : Type} {Goes : String × α → String × β → Prop}
    {fields : List (String × α)} {others : List (String × β)} :
    List.Forall₂ (fun field other => field.1 = other.1 ∧ Goes field other) fields others ↔
      fields.map Prod.fst = others.map Prod.fst ∧
        ∀ field other, (field, other) ∈ fields.zip others → Goes field other := by
  rw [← List.forall₂_eq_eq_eq, List.forall₂_map_left_iff, List.forall₂_map_right_iff]
  constructor
  · intro all
    exact ⟨all.imp fun _ _ goes => goes.1, fun _ _ member => (List.forall₂_zip all member).2⟩
  · rintro ⟨keys, each⟩
    exact List.forall₂_iff_zip.mpr
      ⟨keys.length_eq, fun member => ⟨List.forall₂_zip keys member, each _ _ member⟩⟩

theorem Table.Ordered.of_keys {α β : Type} {table : Table α} {other : Table β}
    (ordered : table.Ordered) (keys : table.map Prod.fst = other.map Prod.fst) : other.Ordered := by
  rw [Table.Ordered, ← List.pairwise_map (f := Prod.fst) (R := (· < ·))] at ordered ⊢
  rwa [← keys]

theorem Number.same_symm {first second : Number} (same : first.same second = true) :
    second.same first = true := by
  cases first <;> cases second <;>
    simp only [Number.same, Bool.false_eq_true, beq_iff_eq] at same ⊢
  · exact same.symm
  · simp only [Binary64.sameValue, Bool.or_eq_true, Bool.and_eq_true, beq_iff_eq] at same ⊢
    exact same.imp And.symm Eq.symm

theorem Number.same_trans {first second third : Number} (same : first.same second = true)
    (further : second.same third = true) : first.same third = true := by
  cases first <;> cases second <;> cases third <;>
    simp only [Number.same, Bool.false_eq_true, beq_iff_eq] at same further ⊢
  · exact same.trans further
  · simp only [Binary64.sameValue, Bool.or_eq_true, Bool.and_eq_true, beq_iff_eq]
      at same further ⊢
    rcases same with ⟨zero, other⟩ | rfl
    · rcases further with further | rfl
      · exact .inl ⟨zero, further.2⟩
      · exact .inl ⟨zero, other⟩
    · exact further

namespace Json

theorem array_same_iff {items : List Json} {value : Json} :
    (array items).same value = true ↔ ∃ others, value = array others ∧
      List.Forall₂ (fun item other => item.same other = true) items others := by
  cases value with
  | array others =>
      simp only [same, array.injEq, exists_eq_left']
      induction items generalizing others with
      | nil => cases others <;> simp [sameItems]
      | cons item rest ih => cases others <;> simp [sameItems, ih]
  | _ => simp [same]

theorem object_same_iff {fields : List (String × Json)} {value : Json} :
    (object fields).same value = true ↔ ∃ others, value = object others ∧
      List.Forall₂ (fun field other => field.1 = other.1 ∧ field.2.same other.2 = true) fields
        others := by
  cases value with
  | object others =>
      simp only [same, object.injEq, exists_eq_left']
      induction fields generalizing others with
      | nil => cases others <;> simp [sameFields]
      | cons field rest ih => cases others <;> simp [sameFields, ih]
  | _ => simp [same]

theorem same_symm {first second : Json} (same : first.same second = true) :
    second.same first = true := by
  induction first using structural generalizing second with
  | number n =>
      cases second <;> simp only [Json.same, Bool.false_eq_true] at same ⊢
      exact Number.same_symm same
  | array items each =>
      obtain ⟨others, rfl, paired⟩ := array_same_iff.mp same
      have back := ((List.forall₂_and_left _ _).mpr ⟨each, paired⟩).imp
        fun _ _ goes => goes.1 goes.2
      exact array_same_iff.mpr ⟨items, rfl, back.flip⟩
  | object fields each =>
      obtain ⟨others, rfl, paired⟩ := object_same_iff.mp same
      have back := ((List.forall₂_and_left _ _).mpr ⟨each, paired⟩).imp
        fun _ _ goes => And.intro goes.2.1.symm (goes.1 goes.2.2)
      exact object_same_iff.mpr ⟨fields, rfl, back.flip⟩
  | _ => cases second <;> simp_all [Json.same]

theorem same_trans {first second third : Json} (same : first.same second = true)
    (further : second.same third = true) : first.same third = true := by
  induction first using structural generalizing second third with
  | null =>
      cases second <;> simp only [Json.same, Bool.false_eq_true] at same
      exact further
  | bool b =>
      cases second <;> simp only [Json.same, Bool.false_eq_true, beq_iff_eq] at same
      exact same ▸ further
  | number n =>
      cases second <;> cases third <;> simp only [Json.same, Bool.false_eq_true] at same further ⊢
      exact Number.same_trans same further
  | string s =>
      cases second <;> simp only [Json.same, Bool.false_eq_true, beq_iff_eq] at same
      exact same ▸ further
  | array items each =>
      obtain ⟨others, rfl, paired⟩ := array_same_iff.mp same
      obtain ⟨last, rfl, next⟩ := array_same_iff.mp further
      refine array_same_iff.mpr ⟨last, rfl, ?_⟩
      exact forall₂_trans ((List.forall₂_and_left _ _).mpr ⟨each, paired⟩) next
        fun _ _ _ goes leads => goes.1 goes.2 leads
  | object fields each =>
      obtain ⟨others, rfl, paired⟩ := object_same_iff.mp same
      obtain ⟨last, rfl, next⟩ := object_same_iff.mp further
      refine object_same_iff.mpr ⟨last, rfl, ?_⟩
      exact forall₂_trans ((List.forall₂_and_left _ _).mpr ⟨each, paired⟩) next
        fun _ _ _ goes leads => ⟨goes.2.1.trans leads.1, goes.1 goes.2.2 leads.2⟩

/-! ### Objects by their fields -/

abbrev SameFound : Option Json → Option Json → Prop :=
  Option.Rel fun value other => value.same other = true

variable {fields others : List (String × Json)}

theorem find?_of_same (same : (object fields).same (object others) = true) (key : String) :
    SameFound (Table.find? key fields) (Table.find? key others) := by
  obtain ⟨_, kind, entries⟩ := object_same_iff.mp same
  cases kind
  exact Table.rel_find? entries key

theorem ordered_of_same (ordered : Table.Ordered others)
    (same : (object fields).same (object others) = true) : Table.Ordered fields := by
  obtain ⟨_, kind, entries⟩ := object_same_iff.mp same
  cases kind
  exact ordered.of_keys (forall₂_keyed_iff.mp entries).1.symm

theorem same_of_find? (ordered : Table.Ordered fields) (orderedOther : Table.Ordered others)
    (found : ∀ key, SameFound (Table.find? key fields) (Table.find? key others)) :
    (object fields).same (object others) = true := by
  have entries := ordered.forall₂_of_rel orderedOther found
  exact object_same_iff.mpr ⟨others, rfl, entries⟩

end Json

namespace Normalize

theorem values_eq_map (items : List Json) : values items = items.map value := by
  induction items with
  | nil => rfl
  | cons item rest ih => rw [values, ih, List.map_cons]

theorem valuesOf_eq_map (fields : List (String × Json)) :
    valuesOf fields = fields.map fun field => (field.1, value field.2) := by
  induction fields with
  | nil => rfl
  | cons field rest ih => rw [valuesOf, ih, List.map_cons]

theorem same_value {first second : Json} (same : first.same second = true) :
    (value first).same (value second) = true := by
  induction first using Json.structural generalizing second with
  | array items each =>
      obtain ⟨others, rfl, paired⟩ := Json.array_same_iff.mp same
      rw [value, value, values_eq_map, values_eq_map, Json.array_same_iff]
      refine ⟨_, rfl, List.forall₂_map_left_iff.mpr (List.forall₂_map_right_iff.mpr ?_)⟩
      exact ((List.forall₂_and_left _ _).mpr ⟨each, paired⟩).imp fun _ _ goes => goes.1 goes.2
  | object fields each =>
      obtain ⟨others, rfl, paired⟩ := Json.object_same_iff.mp same
      rw [value, value, valuesOf_eq_map, valuesOf_eq_map, Json.object_same_iff]
      refine ⟨_, rfl, List.forall₂_map_left_iff.mpr (List.forall₂_map_right_iff.mpr ?_)⟩
      exact ((List.forall₂_and_left _ _).mpr ⟨each, paired⟩).imp
        fun _ _ goes => ⟨goes.2.1, goes.1 goes.2.2⟩
  | _ => cases second <;> simp_all [Json.same, value]

end Normalize

end AuditTrail
