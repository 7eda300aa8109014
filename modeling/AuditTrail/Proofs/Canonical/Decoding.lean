import AuditTrail.Proofs.Canonical
import AuditTrail.Proofs.Digest
import AuditTrail.Proofs.Json.Spelling

/-!
Canonical bytes are uniquely decodable: they tell all of a value but the form of its numbers and
the order in which its objects were filled.
-/

namespace AuditTrail

theorem NumberText.cons {c : Char} {text : List Char} (own : isNumberChar c = true)
    (chars : ∀ d ∈ text, isNumberChar d = true) : NumberText (c :: text) :=
  ⟨List.cons_ne_nil _ _, List.forall_mem_cons.mpr ⟨own, chars⟩⟩

theorem numberText_digits (n : Nat) : NumberText (Nat.toDigits 10 n) where
  nonempty := Nat.toDigits_ne_nil
  chars c member := by
    have digit := Nat.isDigit_of_mem_toDigits (by decide) (by decide) member
    simp [isNumberChar, digit]

theorem numberText_decimalChars (n : Int) : NumberText (decimalChars n) := by
  have digits := numberText_digits n.natAbs
  unfold decimalChars
  split
  · exact .cons (by decide) digits.chars
  · exact digits

theorem numberText_positional (d : Decimal) : NumberText d.positional := by
  obtain ⟨nonempty, digits⟩ := numberText_digits d.digits
  have zeros (count : Nat) : ∀ c ∈ List.replicate count '0', isNumberChar c = true := by
    intro c member
    rw [List.eq_of_mem_replicate member]
    decide
  unfold Decimal.positional
  dsimp only
  split
  · exact ⟨List.append_ne_nil_of_left_ne_nil nonempty _,
      List.forall_mem_append.mpr ⟨digits, zeros _⟩⟩
  split
  · refine ⟨by simp, List.forall_mem_append.mpr ⟨?_, List.forall_mem_cons.mpr ⟨by decide, ?_⟩⟩⟩
    · exact fun c member => digits c (List.mem_of_mem_take member)
    · exact fun c member => digits c (List.mem_of_mem_drop member)
  · refine .cons (by decide) (List.forall_mem_cons.mpr ⟨by decide, ?_⟩)
    exact List.forall_mem_append.mpr ⟨zeros _, digits⟩

theorem Binary64.numberText_canonicalChars (x : Binary64) : NumberText x.canonicalChars := by
  have magnitude := numberText_positional (x.shortest .away)
  unfold canonicalChars
  split
  · exact .cons (by decide) (by simp)
  · cases x.negative
    · exact magnitude
    · exact .cons (by decide) magnitude.chars

theorem Number.numberText_canonicalChars (n : Number) : NumberText n.canonicalChars := by
  cases n with
  | int n _ => exact numberText_decimalChars n
  | float x => exact x.numberText_canonicalChars

namespace Json

open Canonical

theorem map_eq_of_map_eq {α β γ : Type} {read : α → β} {write : α → γ} {items others : List α}
    (told : ∀ a ∈ items, ∀ b, read a = read b → write a = write b)
    (same : items.map read = others.map read) : items.map write = others.map write := by
  induction items generalizing others with
  | nil => simpa [eq_comm] using same
  | cons a as ih =>
      cases others with
      | nil => cases same
      | cons b bs =>
          obtain ⟨first, later⟩ := List.cons.inj same
          have rest := ih (fun item member => told item (List.mem_cons_of_mem _ member)) later
          simp only [List.map_cons, told a List.mem_cons_self b first, rest]

section

variable {number : Number → List Char}

theorem spellWith_normalize (value : Json) :
    value.normalize.spellWith number = value.spellWith number := by
  induction value using structural with
  | array items ih =>
      have parts : (items.map Json.normalize).map (·.spellWith number) =
          items.map (·.spellWith number) := by
        rw [List.map_map]
        exact List.map_congr_left ih
      simp only [Json.normalize, spellWith, spellItems_eq_map, normalizeItems_eq_map, parts]
  | object fields ih =>
      have parts : spellFields number (Table.ofList (normalizeFields fields)) =
          spellFields number fields := by
        funext key
        rw [spellFields_eq_lastOf, spellFields_eq_lastOf,
          (Table.ordered_ofList _).lastOf_eq_find?, Table.find?_ofList, normalizeFields_eq_map,
          Table.lastOf_map, Option.map_map]
        exact Option.map_congr fun part found => ih _ (Table.mem_of_lastOf found)
      simp only [Json.normalize, spellWith, parts]
  | _ => rfl

def sortedTexts (number : Number → List Char) (fields : List (String × Json)) :
    Table (List Char) :=
  (Table.ofList (normalizeFields fields)).map fun field => (field.1, field.2.writeWith number)

theorem find?_sortedTexts (fields : List (String × Json)) (key : String) :
    (sortedTexts number fields).find? key =
      (Table.lastOf key fields).map (·.normalize.writeWith number) := by
  rw [sortedTexts, Table.find?_map, Table.find?_ofList, normalizeFields_eq_map, Table.lastOf_map,
    Option.map_map]
  rfl

theorem ordered_sortedTexts (fields : List (String × Json)) :
    (sortedTexts number fields).Ordered :=
  (Table.ordered_ofList _).map _

theorem writeFields_sorted (fields : List (String × Json)) :
    writeFields number (Table.ofList (normalizeFields fields)) =
      joinItems ((sortedTexts number fields).map fun field => quote field.1 ++ ':' :: field.2) := by
  rw [writeFields_eq_joinItems, sortedTexts, List.map_map]
  rfl

theorem writeWith_normalize_eq {value other : Json}
    (same : value.spellWith number = other.spellWith number) :
    value.normalize.writeWith number = other.normalize.writeWith number := by
  have kinds := sameKind_of_spellWith_eq same
  induction value using structural generalizing other with
  | null =>
      cases kinds
      rfl
  | bool b =>
      cases kinds
      rfl
  | number m =>
      cases kinds
      exact Spelled.number.inj same
  | string s =>
      cases kinds
      exact congrArg quote (Spelled.string.inj same)
  | array items ih =>
      cases kinds with
      | array _ others =>
          simp only [spellWith, Spelled.array.injEq, spellItems_eq_map] at same
          have texts : items.map (·.normalize.writeWith number) =
              others.map (·.normalize.writeWith number) := by
            refine map_eq_of_map_eq (fun item member next told => ?_) same
            exact ih item member told (sameKind_of_spellWith_eq told)
          simp only [Json.normalize, writeWith, writeItems_eq_joinItems, normalizeItems_eq_map,
            List.map_map, Function.comp_def, texts]
  | object fields ih =>
      cases kinds with
      | object _ others =>
          simp only [spellWith, Spelled.object.injEq] at same
          -- Fields of the two objects need not stand at the same places, so the sorted tables of
          -- texts are compared key by key.
          have texts : sortedTexts number fields = sortedTexts number others := by
            refine (ordered_sortedTexts fields).ext (ordered_sortedTexts others) fun key => ?_
            have here := congrFun same key
            rw [spellFields_eq_lastOf, spellFields_eq_lastOf] at here
            rw [find?_sortedTexts, find?_sortedTexts]
            cases found : Table.lastOf key fields with
            | none =>
                rw [found, Option.map_none] at here
                rw [Option.map_eq_none_iff.mp here.symm]
            | some part =>
                rw [found, Option.map_some] at here
                obtain ⟨next, foundOther, told⟩ := Option.map_eq_some_iff.mp here.symm
                have text := ih _ (Table.mem_of_lastOf found) told.symm
                  (sameKind_of_spellWith_eq told.symm)
                rw [foundOther, Option.map_some, Option.map_some, text]
          simp only [Json.normalize, writeWith, writeFields_sorted, texts]

end

/-- A value with its objects as maps and the canonical text of every number in its place. -/
def spelled (value : Json) : Spelled :=
  value.spellWith Number.canonicalChars

theorem canonicalChars_eq_iff {value other : Json} :
    value.canonicalChars = other.canonicalChars ↔ value.spelled = other.spelled := by
  constructor
  · intro same
    have nothing : EndsNumber [] := by simp [EndsNumber]
    have told := (writeWith_append_inj Number.numberText_canonicalChars nothing nothing
      (by simpa only [canonicalChars, List.append_nil] using same)).1
    rw [spellWith_normalize, spellWith_normalize] at told
    exact told
  · exact writeWith_normalize_eq

/-- Two values have the same canonical bytes exactly if they become equal once every number is
replaced by its canonical text. The order of the fields of an object does not count. -/
theorem canonicalBytes_eq_iff (value other : Json) :
    value.canonicalBytes = other.canonicalBytes ↔ value.spelled = other.spelled := by
  rw [← canonicalChars_eq_iff]
  constructor
  · intro same
    have strings : value.canonical = other.canonical :=
      Utf8.encode_injective (by
        simpa only [Utf8.encode, canonical, canonicalBytes, String.toList_ofList] using same)
    exact String.ofList_injective strings
  · exact congrArg Utf8.encodeChars

end Json

end AuditTrail
