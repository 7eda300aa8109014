import AuditTrail.Proofs.Replay.Derived

/-!
What a matcher that was derived from a value asks of another. Without rules the other has all the
fields of the value, so that it has as many or more; if it has as many the two are the same.
-/

namespace AuditTrail

namespace Json

mutual

def fieldCount : Json → Nat
  | .object fields => fieldCounts fields
  | _ => 0

def fieldCounts : List (String × Json) → Nat
  | [] => 0
  | (_, value) :: rest => fieldCount value + 1 + fieldCounts rest

end

theorem fieldCounts_eq_total (fields : List (String × Json)) :
    fieldCounts fields = Table.total (fun value => value.fieldCount + 1) fields := by
  induction fields with
  | nil => rfl
  | cons field rest ih => rw [fieldCounts, Table.total, ih]

theorem fieldCounts_congr {fields others : List (String × Json)}
    (paired : List.Forall₂ (fun field other => field.2.fieldCount = other.2.fieldCount) fields
      others) : fieldCounts fields = fieldCounts others := by
  induction paired with
  | nil => rfl
  | cons first _ ih => rw [fieldCounts, fieldCounts, first, ih]

theorem fieldCount_of_same {first second : Json} (same : first.same second = true) :
    first.fieldCount = second.fieldCount := by
  induction first using structural generalizing second with
  | object fields each =>
      obtain ⟨others, rfl, paired⟩ := object_same_iff.mp same
      exact fieldCounts_congr (((List.forall₂_and_left _ _).mpr ⟨each, paired⟩).imp
        fun _ _ goes => goes.1 goes.2.2)
  | _ => cases second <;> first | rfl | simp [Json.same] at same

end Json

namespace ReplayEngine

def Bare (engine : ReplayEngine) : Prop :=
  engine.ignored = [] ∧ engine.normalized = []

variable {engine : ReplayEngine} {place : String}

theorem Bare.isIgnored (bare : engine.Bare) (place : String) : engine.isIgnored place = false := by
  simp [ReplayEngine.isIgnored, PathRule.covers, bare.1]

theorem Bare.literalHolds (bare : engine.Bare) (place : String) (value actual : Json) :
    engine.literalHolds place value actual = value.same actual := by
  simp [ReplayEngine.literalHolds, PathRule.covers, bare.2]

theorem Bare.check_literal (bare : engine.Bare) {value : Json} {actual : Option Json} :
    engine.check place (.literal value) actual = [] ↔
      ∃ found, actual = some found ∧ value.same found = true := by
  simp [check, diffAt, bare.isIgnored, bare.literalHolds, Option.any_eq_true]

theorem Bare.check_every (bare : engine.Bare) {children : List (String × Matcher)}
    {actual : Option Json} :
    engine.check place (.every children) actual = [] ↔
      ∃ fields, actual = some (.object fields) ∧ ∀ child ∈ children,
        engine.check (Path.join place child.1) child.2 (Table.find? child.1 fields) = [] := by
  simp only [check, bare.isIgnored, Bool.false_eq_true, ↓reduceIte]
  split
  · simp [checkChildren_eq_flatMap]
  · rename_i other
    simp only [diffAt, List.cons_ne_nil, false_iff]
    rintro ⟨fields, rfl, -⟩
    exact other fields rfl

theorem Bare.exists_of_check (bare : engine.Bare) {value : Json} {actual : Option Json}
    (holds : engine.check place (.ofValue value) actual = []) : ∃ found, actual = some found := by
  cases value with
  | object fields =>
      rw [Matcher.ofValue] at holds
      split at holds
      · obtain ⟨found, rfl, -⟩ := bare.check_literal.mp holds
        exact ⟨found, rfl⟩
      · obtain ⟨fields, rfl, -⟩ := bare.check_every.mp holds
        exact ⟨_, rfl⟩
  | _ =>
      obtain ⟨found, rfl, -⟩ := bare.check_literal.mp holds
      exact ⟨found, rfl⟩

theorem Bare.fieldCount_le (bare : engine.Bare) {value found : Json} (normal : value.Normal)
    (normalFound : found.Normal) (holds : engine.check place (.ofValue value) (some found) = []) :
    value.fieldCount ≤ found.fieldCount ∧
      (found.fieldCount ≤ value.fieldCount → value.same found = true) := by
  -- On the value; a literal that holds is the same, and an object is counted field by field.
  have literal {place : String} {value found : Json}
      (holds : engine.check place (.literal value) (some found) = []) :
      value.fieldCount ≤ found.fieldCount ∧
        (found.fieldCount ≤ value.fieldCount → value.same found = true) := by
    obtain ⟨_, ⟨⟩, same⟩ := bare.check_literal.mp holds
    exact ⟨(Json.fieldCount_of_same same).le, fun _ => same⟩
  induction value using Json.structural generalizing found place with
  | object fields each =>
      rw [Matcher.ofValue] at holds
      split at holds
      · exact literal holds
      · obtain ⟨others, ⟨⟩, every⟩ := bare.check_every.mp holds
        obtain ⟨ordered, parts⟩ := Json.normal_object_iff.mp normal
        obtain ⟨orderedOther, partsOther⟩ := Json.normal_object_iff.mp normalFound
        rw [Matcher.ofValues_eq_map, List.forall_mem_map] at every
        have positive : ∀ value : Json, 0 < value.fieldCount + 1 := fun _ => Nat.succ_pos _
        have inside : ∀ field ∈ fields, ∃ value, Table.find? field.1 others = some value ∧
            field.2.fieldCount + 1 ≤ value.fieldCount + 1 ∧
            (value.fieldCount + 1 ≤ field.2.fieldCount + 1 → field.2.same value = true) := by
          intro field member
          have holds := every field member
          obtain ⟨value, there⟩ := bare.exists_of_check holds
          rw [there] at holds
          obtain ⟨less, same⟩ := each field member (parts field member)
            (partsOther _ (Table.mem_of_find? there)) holds
          exact ⟨value, there, Nat.succ_le_succ less, fun more => same (Nat.le_of_succ_le_succ more)⟩
        have counted := @Table.Ordered.rel_of_total _ _ positive
          (fun value other => value.same other = true) _ _ ordered inside
        rw [Json.fieldCount, Json.fieldCount, Json.fieldCounts_eq_total, Json.fieldCounts_eq_total]
        exact ⟨counted.1, fun less => Json.same_of_find? ordered orderedOther (counted.2 less)⟩
  | _ => exact literal holds

end ReplayEngine

end AuditTrail
