import AuditTrail.Proofs.Json.Same
import AuditTrail.Replay.Path

/-!
Values that agree but for what is found at one path. Whatever is looked up elsewhere is equal, and a
value that has no place for the path itself is the same as both or as neither.
-/

namespace AuditTrail

namespace Json

open AuditTrail.Path (index?)

/-- Agreement but for what is found at a path; there may be something else, or nothing. -/
inductive AgreeOff : List String → Option Json → Option Json → Prop where
  | here (first second : Option Json) : AgreeOff [] first second
  | equal (path : List String) (value : Option Json) : AgreeOff path value value
  | field {name : String} {path : List String} {fields others : List (String × Json)} :
      (∀ key, key ≠ name → Table.find? key fields = Table.find? key others) →
      AgreeOff path (Table.find? name fields) (Table.find? name others) →
      AgreeOff (name :: path) (some (.object fields)) (some (.object others))
  | item {segment : String} {place : Nat} {path : List String} {items others : List Json} :
      index? segment = some place →
      (∀ index, index ≠ place → items[index]? = others[index]?) →
      AgreeOff path items[place]? others[place]? →
      AgreeOff (segment :: path) (some (.array items)) (some (.array others))

/-- Something could be put at a path without changing what is around it. -/
def HasPlace : List String → Option Json → Prop
  | [], _ => True
  | name :: path, some (.object fields) => HasPlace path (Table.find? name fields)
  | segment :: path, some (.array items) =>
    ∃ place ≤ items.length, index? segment = some place ∧ HasPlace path items[place]?
  | _ :: _, _ => False

instance decidableHasPlace : (path : List String) → (value : Option Json) →
    Decidable (HasPlace path value)
  | [], _ => isTrue trivial
  | name :: path, some (.object fields) => decidableHasPlace path (Table.find? name fields)
  | segment :: path, some (.array items) =>
    match indexed : index? segment with
    | none => isFalse (by simp [HasPlace, indexed])
    | some place =>
      have := decidableHasPlace path items[place]?
      decidable_of_iff (place ≤ items.length ∧ HasPlace path items[place]?)
        (by simp [HasPlace, indexed])
  | _ :: _, none => isFalse id
  | _ :: _, some .null => isFalse id
  | _ :: _, some (.bool _) => isFalse id
  | _ :: _, some (.number _) => isFalse id
  | _ :: _, some (.string _) => isFalse id

variable {path : List String} {first second : Option Json}

theorem AgreeOff.symm (agree : AgreeOff path first second) : AgreeOff path second first := by
  induction agree with
  | here first second => exact .here second first
  | equal path value => exact .equal path value
  | field others _ ih => exact .field (fun key other => (others key other).symm) ih
  | item indexed others _ ih => exact .item indexed (fun index other => (others index other).symm) ih

theorem AgreeOff.isSome_eq {name : String} (agree : AgreeOff (name :: path) first second) :
    first.isSome = second.isSome := by
  cases agree <;> rfl

/-! ### Sameness -/

theorem AgreeOff.same_of_same (agree : AgreeOff path first second)
    (normal : ∀ value, first = some value → value.Normal)
    (normalOther : ∀ value, second = some value → value.Normal) {value : Option Json}
    (noPlace : ¬HasPlace path value)
    (same : SameFound value first) : SameFound value second := by
  -- On the agreement; the value must be of the kind of both, and it has no place further down.
  induction agree generalizing value with
  | here => exact absurd trivial noPlace
  | equal => exact same
  | @field name path fields others apart _ ih =>
      obtain ⟨ordered, parts⟩ := normal_object_iff.mp (normal _ rfl)
      obtain ⟨orderedOther, partsOther⟩ := normal_object_iff.mp (normalOther _ rfl)
      cases same with
      | @some wanted _ holds =>
          cases wanted with
          | object wanted =>
              refine .some (same_of_find? (ordered_of_same ordered holds) orderedOther fun key => ?_)
              by_cases own : key = name
              · subst key
                exact ih (fun _ at_ => parts _ (Table.mem_of_find? at_))
                  (fun _ at_ => partsOther _ (Table.mem_of_find? at_)) noPlace (find?_of_same holds name)
              · rw [← apart key own]
                exact find?_of_same holds key
          | _ => simp [Json.same] at holds
  | @item segment place path items others indexed apart _ ih =>
      have parts := normal_array_iff.mp (normal _ rfl)
      have partsOther := normal_array_iff.mp (normalOther _ rfl)
      cases same with
      | @some wanted _ holds =>
          cases wanted with
          | array wanted =>
              obtain ⟨_, kind, entries⟩ := array_same_iff.mp holds
              cases kind
              have found := rel_getElem? entries
              refine .some (array_same_iff.mpr ⟨_, rfl, forall₂_of_rel_getElem? fun index => ?_⟩)
              by_cases own : index = place
              · subst index
                by_cases inside : place ≤ wanted.length
                · exact ih (fun _ at_ => parts _ (List.mem_of_getElem? at_))
                    (fun _ at_ => partsOther _ (List.mem_of_getElem? at_))
                    (fun more => noPlace ⟨place, inside, indexed, more⟩) (found place)
                · -- Neither array reaches as far as the place.
                  have short : others[wanted.length]? = none := by
                    rw [← apart _ (by omega), entries.length_eq]
                    exact List.getElem?_eq_none (Nat.le_refl _)
                  rw [List.getElem?_eq_none_iff] at short
                  rw [List.getElem?_eq_none (by omega), List.getElem?_eq_none (by omega)]
                  exact .none
              · rw [← apart index own]
                exact found index
          | _ => simp [Json.same] at holds

/-! ### Normalized values -/

theorem AgreeOff.map_value (agree : AgreeOff path first second) :
    AgreeOff path (first.map Normalize.value) (second.map Normalize.value) := by
  induction agree with
  | here first second => exact .here _ _
  | equal path value => exact .equal _ _
  | field apart _ ih => 
      simp only [Option.map_some, Normalize.value, Normalize.valuesOf_eq_map]
      refine .field (fun key own => ?_) ?_
      · rw [Table.find?_map, Table.find?_map, apart key own]
      · rw [Table.find?_map, Table.find?_map]
        exact ih
  | item indexed apart _ ih =>
      simp only [Option.map_some, Normalize.value, Normalize.values_eq_map]
      refine .item indexed (fun index own => ?_) ?_
      · rw [List.getElem?_map, List.getElem?_map, apart index own]
      · rw [List.getElem?_map, List.getElem?_map]
        exact ih

theorem hasPlace_map_value (path : List String) (value : Option Json) :
    HasPlace path (value.map Normalize.value) ↔ HasPlace path value := by
  induction path generalizing value with
  | nil => exact Iff.rfl
  | cons name path ih =>
      cases value with
      | none => exact Iff.rfl
      | some value =>
          cases value with
          | array items =>
              simp only [Option.map_some, Normalize.value, Normalize.values_eq_map, HasPlace,
                List.length_map, List.getElem?_map, ih]
          | object fields =>
              simp only [Option.map_some, Normalize.value, Normalize.valuesOf_eq_map, HasPlace,
                Table.find?_map, ih]
          | _ => simp [Normalize.value, HasPlace]

theorem normal_value {value : Json} (normal : value.Normal) : (Normalize.value value).Normal := by
  induction value using structural with
  | array items each =>
      rw [Normalize.value, Normalize.values_eq_map, normal_array_iff, List.forall_mem_map]
      exact fun item member => each item member (normal_array_iff.mp normal item member)
  | object fields each =>
      obtain ⟨ordered, parts⟩ := normal_object_iff.mp normal
      rw [Normalize.value, Normalize.valuesOf_eq_map, normal_object_iff, List.forall_mem_map]
      exact ⟨ordered.map _, fun field member => each field member (parts field member)⟩
  | _ => rfl

end Json

end AuditTrail
