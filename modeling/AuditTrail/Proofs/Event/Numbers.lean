import AuditTrail.Proofs.Canonical.Numbers
import AuditTrail.Proofs.Event.Preimage

/-!
Changing a number of a recorded event. The bytes that are hashed change with the value of the
number, but for an integer and a float that is shown as that integer.
-/

namespace AuditTrail

namespace Table

variable {α : Type}

theorem lastOf_of_last {key : String} {after : List (String × α)}
    (last : ∀ entry ∈ after, entry.1 ≠ key) (before : List (String × α)) (value : α) :
    lastOf key (before ++ (key, value) :: after) = some value := by
  have later : lastOf key after = none := by
    rw [← Option.not_isSome_iff_eq_none, isSome_lastOf_iff]
    intro member
    obtain ⟨entry, found, same⟩ := List.mem_map.mp member
    exact last entry found same
  simp [lastOf_append, lastOf, later]

end Table

namespace Json

/-- Values that differ in one number, wherever it stands. Of equal keys of an object the last one
counts, so that is where the change is. -/
inductive ChangedNumber (a b : Number) : Json → Json → Prop
  | here : ChangedNumber a b (.number a) (.number b)
  | item (before after : List Json) {value other : Json} : ChangedNumber a b value other →
      ChangedNumber a b (.array (before ++ value :: after)) (.array (before ++ other :: after))
  | field (before after : List (String × Json)) {key : String}
      (last : ∀ field ∈ after, field.1 ≠ key) {value other : Json} :
      ChangedNumber a b value other →
      ChangedNumber a b (.object (before ++ (key, value) :: after))
        (.object (before ++ (key, other) :: after))

theorem spelled_eq_iff_of_changed {a b : Number} {value other : Json}
    (changed : ChangedNumber a b value other) :
    value.spelled = other.spelled ↔ a.canonicalChars = b.canonicalChars := by
  induction changed with
  | here => simp only [spelled, spellWith, Spelled.number.injEq]
  | item before after _ ih =>
      rw [← ih]
      simp [spelled, spellWith, spellItems_eq_map]
  | @field before after key last _ _ _ ih =>
      rw [← ih]
      constructor
      · intro same
        have here := spelled_lastOf same key
        rw [Table.lastOf_of_last last, Table.lastOf_of_last last] at here
        exact Option.some.inj here
      · intro same
        refine congrArg Spelled.object (funext fun key => ?_)
        have same : _ = _ := same
        unfold spelled at same
        simp only [spellFields_eq_lastOf, ← Table.lastOf_map, List.map_append, List.map_cons, same]

end Json

theorem SealedEvent.sameContent_withPayload_iff (event : SealedEvent) (payload : Json) :
    event.reread.SameContent { event with payload }.reread ↔
      event.payload.spelled = payload.spelled := by
  have normal : (event.reread.payload.spelled = { event with payload }.reread.payload.spelled) ↔
      event.payload.spelled = payload.spelled := by
    simp only [reread, Json.spelled, Json.spellWith_normalize]
  rw [← normal]
  constructor
  · exact fun same => same.payload
  · exact fun same =>
      ⟨rfl, rfl, rfl, rfl, rfl, rfl, rfl, rfl, rfl, same, rfl, rfl, rfl, rfl⟩

/-- Numbers of different values have different texts, and an event is hashed from different bytes
once one of them is put in the place of the other. The only exception is an integer and a float from
`2 ^ 53` on whose shortest digits are that integer: these have one text. -/
theorem Number.change_told {a b : Number} (different : a.value ≠ b.value) :
    (a.canonicalChars = b.canonicalChars ↔ a.Shadows b ∨ b.Shadows a) ∧
    ∀ (event : SealedEvent) (payload : Json) (previous : String),
      event.payload.ChangedNumber a b payload →
      (event.preimage previous = { event with payload }.preimage previous ↔
        a.Shadows b ∨ b.Shadows a) := by
  have told := canonicalChars_eq_iff_shadows different
  refine ⟨told, fun event payload previous changed => ?_⟩
  rw [← told, ← Json.spelled_eq_iff_of_changed changed, SealedEvent.preimage_eq_iff,
    SealedEvent.sameContent_withPayload_iff]
  exact and_iff_right rfl

def largeFloat : Number :=
  .float ⟨false, 4503599627370496, 8, by decide⟩

def largeInt : Number :=
  .int 1152921504606847000 (by decide)

theorem largeInt_ne_largeFloat : largeInt.value ≠ largeFloat.value := by
  norm_num [largeInt, largeFloat, Number.value, Binary64.value, Binary64.sign]

theorem sameText_of_large : largeInt.value ≠ largeFloat.value ∧
    largeInt.canonicalChars = largeFloat.canonicalChars :=
  ⟨largeInt_ne_largeFloat, by decide +kernel⟩

/-- A recorded float is replaced by another number, and the bytes that are hashed stay. -/
theorem preimage_of_large :
    let event := { sampleSealed "s" 0 with payload := .object [("n", .number largeInt)] }
    let changed := { event with payload := .object [("n", .number largeFloat)] }
    largeInt.value ≠ largeFloat.value ∧ event.preimage "" = changed.preimage "" := by
  obtain ⟨texts, hashed⟩ := Number.change_told largeInt_ne_largeFloat
  have same : largeInt.canonicalChars = largeFloat.canonicalChars := by decide +kernel
  exact ⟨largeInt_ne_largeFloat, (hashed _ _ _ (.field [] [] (by simp) .here)).mpr (texts.mp same)⟩

end AuditTrail
