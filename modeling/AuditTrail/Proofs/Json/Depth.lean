import AuditTrail.Json.Decode
import AuditTrail.Proofs.Canonical
import AuditTrail.Proofs.Json.Reader

/-!
Texts are read down to a depth only, and this is all that keeps a printed value from being read
back: a value that is not too deep comes back with its keys sorted.
-/

namespace AuditTrail.Document

open Json

theorem itemTrees?_ofItems {items : List Json} {depth : Nat}
    (each : ∀ item ∈ items, (ofJson item).toTree? depth =
      if (ofJson item).nesting ≤ depth then some item else none) :
    itemTrees? depth (ofItems items) =
      if nestingItems (ofItems items) ≤ depth then some items else none := by
  induction items with
  | nil => simp [ofItems, itemTrees?, nestingItems]
  | cons item items ih =>
      have first := each item List.mem_cons_self
      have later := ih fun other member => each other (List.mem_cons_of_mem _ member)
      simp only [ofItems, itemTrees?, first, later, nestingItems, Nat.max_le]
      by_cases shallow : (ofJson item).nesting ≤ depth
      · by_cases rest : nestingItems (ofItems items) ≤ depth <;> simp [shallow, rest]
      · simp [shallow]

theorem memberTrees?_ofFields {fields : List (String × Json)} {depth : Nat}
    (each : ∀ field ∈ fields, (ofJson field.2).toTree? depth =
      if (ofJson field.2).nesting ≤ depth then some field.2 else none) :
    memberTrees? depth (ofFields fields) =
      if nestingMembers (ofFields fields) ≤ depth then some fields else none := by
  induction fields with
  | nil => simp [ofFields, memberTrees?, nestingMembers]
  | cons field fields ih =>
      have first := each field List.mem_cons_self
      have later := ih fun other member => each other (List.mem_cons_of_mem _ member)
      simp only [ofFields, memberTrees?, first, later, nestingMembers, Nat.max_le]
      by_cases shallow : (ofJson field.2).nesting ≤ depth
      · by_cases rest : nestingMembers (ofFields fields) ≤ depth <;> simp [shallow, rest]
      · simp [shallow]

theorem toTree?_ofJson (value : Json) (depth : Nat) : (ofJson value).toTree? depth =
    if (ofJson value).nesting ≤ depth then some value else none := by
  induction value using structural generalizing depth with
  | array items each =>
      cases depth with
      | zero => simp [ofJson, toTree?, nesting]
      | succ depth =>
          simp only [ofJson, toTree?, nesting, if_true, Nat.add_le_add_iff_right,
            itemTrees?_ofItems fun item member => each item member depth]
          split <;> rfl
  | object fields each =>
      cases depth with
      | zero => simp [ofJson, toTree?, nesting]
      | succ depth =>
          simp only [ofJson, toTree?, nesting, if_true, Nat.add_le_add_iff_right,
            memberTrees?_ofFields fun field member => each field member depth]
          split <;> rfl
  | _ => simp [ofJson, toTree?, nesting]

section

variable {depth : Nat}

theorem nestingItems_le_iff {items : List Json} : nestingItems (ofItems items) ≤ depth ↔
    ∀ item ∈ items, (ofJson item).nesting ≤ depth := by
  induction items with
  | nil => simp [ofItems, nestingItems]
  | cons item items ih => rw [ofItems, nestingItems, Nat.max_le, ih, List.forall_mem_cons]

theorem nestingMembers_le_iff {fields : List (String × Json)} :
    nestingMembers (ofFields fields) ≤ depth ↔
      ∀ field ∈ fields, (ofJson field.2).nesting ≤ depth := by
  induction fields with
  | nil => simp [ofFields, nestingMembers]
  | cons field fields ih => rw [ofFields, nestingMembers, Nat.max_le, ih, List.forall_mem_cons]

theorem nesting_array_le_iff {items : List Json} : (ofJson (.array items)).nesting ≤ depth + 1 ↔
    ∀ item ∈ items, (ofJson item).nesting ≤ depth := by
  rw [ofJson, nesting, Nat.add_le_add_iff_right, nestingItems_le_iff]

theorem nesting_object_le_iff {fields : List (String × Json)} :
    (ofJson (.object fields)).nesting ≤ depth + 1 ↔
      ∀ field ∈ fields, (ofJson field.2).nesting ≤ depth := by
  rw [ofJson, nesting, Nat.add_le_add_iff_right, nestingMembers_le_iff]

end

theorem exists_item_of_itemTrees? {depth : Nat} {items : List Document} {values : List Json}
    (trees : itemTrees? depth items = some values) :
    ∀ value ∈ values, ∃ item, toTree? depth item = some value := by
  induction items generalizing values with
  | nil =>
      obtain rfl := Option.some.inj trees
      simp
  | cons item items ih =>
      obtain ⟨first, own, trees⟩ := Option.bind_eq_some_iff.mp trees
      obtain ⟨later, rest, same⟩ := Option.bind_eq_some_iff.mp trees
      obtain rfl := Option.some.inj same
      exact List.forall_mem_cons.mpr ⟨⟨item, own⟩, ih rest⟩

theorem exists_member_of_memberTrees? {depth : Nat} {members : List (Option String × Document)}
    {fields : List (String × Json)} (trees : memberTrees? depth members = some fields) :
    ∀ field ∈ fields, ∃ document, toTree? depth document = some field.2 := by
  induction members generalizing fields with
  | nil =>
      obtain rfl := Option.some.inj trees
      simp
  | cons member members ih =>
      obtain ⟨_, _, trees⟩ := Option.bind_eq_some_iff.mp trees
      obtain ⟨first, own, trees⟩ := Option.bind_eq_some_iff.mp trees
      obtain ⟨later, rest, same⟩ := Option.bind_eq_some_iff.mp trees
      obtain rfl := Option.some.inj same
      exact List.forall_mem_cons.mpr ⟨⟨member.2, own⟩, ih rest⟩

theorem nesting_of_toTree? {depth : Nat} {document : Document} {value : Json}
    (tree : toTree? depth document = some value) : (ofJson value).nesting ≤ depth := by
  induction depth generalizing document value with
  | zero => cases document <;> cases tree <;> exact Nat.le_refl 0
  | succ depth ih =>
      cases document with
      | array items closed =>
          cases closed with
          | false => cases tree
          | true =>
              obtain ⟨values, trees, rfl⟩ := Option.map_eq_some_iff.mp tree
              refine nesting_array_le_iff.mpr fun value member => ?_
              obtain ⟨item, own⟩ := exists_item_of_itemTrees? trees value member
              exact ih own
      | object members closed =>
          cases closed with
          | false => cases tree
          | true =>
              obtain ⟨fields, trees, rfl⟩ := Option.map_eq_some_iff.mp tree
              refine nesting_object_le_iff.mpr fun field member => ?_
              obtain ⟨document, own⟩ := exists_member_of_memberTrees? trees field member
              exact ih own
      | _ => cases tree <;> exact Nat.zero_le _

theorem nesting_normalize {value : Json} {depth : Nat} (shallow : (ofJson value).nesting ≤ depth) :
    (ofJson value.normalize).nesting ≤ depth := by
  induction value using structural generalizing depth with
  | array items each =>
      have positive : 0 < depth := Nat.lt_of_lt_of_le (Nat.succ_pos _) shallow
      obtain ⟨depth, rfl⟩ := Nat.exists_eq_succ_of_ne_zero positive.ne'
      rw [nesting_array_le_iff] at shallow
      rw [Json.normalize, normalizeItems_eq_map, nesting_array_le_iff, List.forall_mem_map]
      exact fun item member => each item member (shallow item member)
  | object fields each =>
      have positive : 0 < depth := Nat.lt_of_lt_of_le (Nat.succ_pos _) shallow
      obtain ⟨depth, rfl⟩ := Nat.exists_eq_succ_of_ne_zero positive.ne'
      rw [nesting_object_le_iff] at shallow
      rw [Json.normalize, normalizeFields_eq_map, nesting_object_le_iff]
      intro field member
      obtain ⟨former, inFields, rfl⟩ := List.mem_map.mp (Table.mem_ofList member)
      exact each former inFields (shallow former inFields)
  | _ => exact shallow

end AuditTrail.Document

namespace AuditTrail

open Document

theorem Json.parse?_of_ofText {text : String} {value : Json}
    (read : Document.ofText text = (ofJson value, true)) : Json.parse? text =
      if (ofJson value).nesting ≤ Json.maxDepth then some value.normalize else none := by
  rw [Json.parse?, read]
  dsimp only
  rw [toJson?, toTree?_ofJson]
  split <;> rfl

theorem Json.parse?_print (value : Json) : Json.parse? value.print =
    if (ofJson value).nesting ≤ Json.maxDepth then some value.normalize else none :=
  Json.parse?_of_ofText (ofText_print value)

end AuditTrail
