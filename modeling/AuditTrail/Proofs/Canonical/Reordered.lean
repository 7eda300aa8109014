import AuditTrail.Proofs.Canonical.Encoder

/-!
The order in which a datum offers its entries and fields is not told by its canonical text. Adding
two entries to a table in either order gives one table or fails either way, so entries may be moved
anywhere; a change further inside shows only through the text of the part that is changed.
-/

namespace AuditTrail

theorem Except.toOption_bind {ε α β : Type} (first : Except ε α) (next : α → Except ε β) :
    (first >>= next).toOption = first.toOption.bind fun value => (next value).toOption := by
  cases first <;> rfl

theorem Except.toOption_eq_some_iff {ε α : Type} {result : Except ε α} {value : α} :
    result.toOption = some value ↔ result = .ok value := by
  cases result <;> simp [Except.toOption]

namespace Datum

open Canonical

def asEntries (fields : List (String × Datum)) : List (Option Datum × Datum) :=
  fields.map fun field => (some (.text field.1), field.2)

/-- Data that differ in the order of map entries and record fields, and in records that are given as
maps, at any depth. -/
inductive Rearranged : Datum → Datum → Prop
  | refl (datum : Datum) : Rearranged datum datum
  | symm {datum other : Datum} : Rearranged datum other → Rearranged other datum
  | trans {datum middle other : Datum} : Rearranged datum middle → Rearranged middle other →
      Rearranged datum other
  | entries {entries others : List (Option Datum × Datum)} : entries.Perm others →
      Rearranged (.map entries) (.map others)
  | fields {fields others : List (String × Datum)} : fields.Perm others →
      Rearranged (.record fields) (.record others)
  | variantFields (name : String) {fields others : List (String × Datum)} : fields.Perm others →
      Rearranged (.recordVariant name fields) (.recordVariant name others)
  | asMap (fields : List (String × Datum)) : Rearranged (.record fields) (.map (asEntries fields))
  | variantAsMap (name : String) (fields : List (String × Datum)) :
      Rearranged (.recordVariant name fields) (.variant name (.map (asEntries fields)))
  | present {datum other : Datum} : Rearranged datum other →
      Rearranged (.present datum) (.present other)
  | wrapped {datum other : Datum} : Rearranged datum other →
      Rearranged (.wrapped datum) (.wrapped other)
  | variant (name : String) {datum other : Datum} : Rearranged datum other →
      Rearranged (.variant name datum) (.variant name other)
  | item (before after : List Datum) {datum other : Datum} : Rearranged datum other →
      Rearranged (.sequence (before ++ datum :: after)) (.sequence (before ++ other :: after))
  | variantItem (name : String) (before after : List Datum) {datum other : Datum} :
      Rearranged datum other → Rearranged (.sequenceVariant name (before ++ datum :: after))
        (.sequenceVariant name (before ++ other :: after))
  | key (before after : List (Option Datum × Datum)) (value : Datum) {datum other : Datum} :
      Rearranged datum other → Rearranged (.map (before ++ (some datum, value) :: after))
        (.map (before ++ (some other, value) :: after))
  | value (before after : List (Option Datum × Datum)) (key : Option Datum) {datum other : Datum} :
      Rearranged datum other → Rearranged (.map (before ++ (key, datum) :: after))
        (.map (before ++ (key, other) :: after))
  | field (before after : List (String × Datum)) (name : String) {datum other : Datum} :
      Rearranged datum other → Rearranged (.record (before ++ (name, datum) :: after))
        (.record (before ++ (name, other) :: after))
  | variantField (variant : String) (before after : List (String × Datum)) (name : String)
      {datum other : Datum} : Rearranged datum other →
      Rearranged (.recordVariant variant (before ++ (name, datum) :: after))
        (.recordVariant variant (before ++ (name, other) :: after))

/-! ### Records as maps -/

theorem encodeFields_eq (table : Table (List Char)) (fields : List (String × Datum)) :
    encodeFields table fields = encodeEntries table (asEntries fields) := by
  induction fields generalizing table with
  | nil => rfl
  | cons field rest ih =>
      have key : (text field.1).encode = .ok (quote field.1) := by simp only [encode]
      simp only [encodeFields, asEntries, List.map_cons, encodeEntries, key, bind, Except.bind,
        decodeKey_quote]
      cases field.2.encode with
      | error error => rfl
      | ok written =>
          dsimp only
          cases insertNew field.1 written table with
          | error error => rfl
          | ok table => exact ih table

theorem encode_record (fields : List (String × Datum)) :
    (record fields).encode = (map (asEntries fields)).encode := by
  simp only [encode, encodeFields_eq]

theorem encode_recordVariant (name : String) (fields : List (String × Datum)) :
    (recordVariant name fields).encode = (variant name (map (asEntries fields))).encode := by
  simp only [encode, encodeFields_eq]
  cases encodeEntries [] (asEntries fields) <;> rfl

/-! ### Texts, with all refusals taken for one -/

def text? (datum : Datum) : Option (List Char) :=
  datum.encode.toOption

def pair? : Option Datum × Datum → Option (String × List Char)
  | (none, _) => none
  | (some key, value) => do
    let key ← (decodeKey (← key.text?)).toOption
    return (key, ← value.text?)

def add? (table : Table (List Char)) (pair : String × List Char) : Option (Table (List Char)) :=
  if table.contains pair.1 then none else some (table.insert pair.1 pair.2)

def step? (table : Table (List Char)) (entry : Option Datum × Datum) :
    Option (Table (List Char)) :=
  (pair? entry).bind (add? table)

theorem add?_eq_some_iff {table added : Table (List Char)} {pair : String × List Char} :
    add? table pair = some added ↔
      table.find? pair.1 = none ∧ added = table.insert pair.1 pair.2 := by
  unfold add? Table.contains
  cases table.find? pair.1 <;> simp [eq_comm]

theorem foldlM_add? {pairs : List (String × List Char)} {table : Table (List Char)}
    (distinct : (pairs.map Prod.fst).Nodup) (fresh : ∀ pair ∈ pairs, table.find? pair.1 = none) :
    pairs.foldlM add? table =
      some (pairs.foldl (fun table pair => table.insert pair.1 pair.2) table) := by
  induction pairs generalizing table with
  | nil => rfl
  | cons pair pairs ih =>
      obtain ⟨first, distinct⟩ := List.nodup_cons.mp distinct
      obtain ⟨new, fresh⟩ := List.forall_mem_cons.mp fresh
      have adds := add?_eq_some_iff.mpr ⟨new, rfl⟩
      rw [List.foldlM_cons, adds]
      refine ih distinct fun other member => ?_
      have different : other.1 ≠ pair.1 := fun same => first (same ▸ List.mem_map_of_mem member)
      rw [Table.find?_insert, if_neg different, fresh other member]

theorem toOption_insertNew (key : String) (written : List Char) (table : Table (List Char)) :
    (insertNew key written table).toOption = add? table (key, written) := by
  unfold insertNew add?
  split <;> rfl

theorem toOption_encodeEntries (table : Table (List Char))
    (entries : List (Option Datum × Datum)) :
    (encodeEntries table entries).toOption = entries.foldlM step? table := by
  induction entries generalizing table with
  | nil => rfl
  | cons entry rest ih =>
      obtain ⟨key, value⟩ := entry
      rw [List.foldlM_cons]
      cases key with
      | none => rfl
      | some key =>
          simp only [encodeEntries, Except.toOption_bind, toOption_insertNew, ih, step?, pair?,
            text?, Option.bind_eq_bind, Option.bind_assoc, Option.pure_def, Option.bind_some]

theorem text?_map (entries : List (Option Datum × Datum)) :
    (map entries).text? = (entries.foldlM step? []).map braces := by
  rw [text?, encode, ← toOption_encodeEntries]
  cases encodeEntries [] entries <;> rfl

theorem toOption_encodeItems (items : List Datum) :
    (encodeItems items).toOption = items.mapM text? := by
  induction items with
  | nil => rfl
  | cons item rest ih =>
      rw [List.mapM_cons, ← ih, encodeItems, text?]
      cases item.encode <;> cases encodeItems rest <;> rfl

theorem text?_sequence (items : List Datum) :
    (sequence items).text? = (items.mapM text?).map brackets := by
  rw [text?, encode, ← toOption_encodeItems]
  cases encodeItems items <;> rfl

theorem text?_sequenceVariant (name : String) (items : List Datum) :
    (sequenceVariant name items).text? =
      (items.mapM text?).map fun texts => singleEntry name (brackets texts) := by
  rw [text?, encode, ← toOption_encodeItems]
  cases encodeItems items <;> rfl

theorem text?_variant (name : String) (datum : Datum) :
    (variant name datum).text? = datum.text?.map (singleEntry name) := by
  rw [text?, text?, encode]
  cases datum.encode <;> rfl

/-! ### Moving entries -/

theorem ordered_of_add? {table added : Table (List Char)} {pair : String × List Char}
    (ordered : table.Ordered) (adds : add? table pair = some added) : added.Ordered := by
  obtain ⟨-, rfl⟩ := add?_eq_some_iff.mp adds
  exact ordered.insert _ _

/-- Two entries of one key are refused in either order; others find their places in either order. -/
theorem add?_comm {table : Table (List Char)} (ordered : table.Ordered)
    (first second : String × List Char) :
    (add? table first).bind (add? · second) = (add? table second).bind (add? · first) := by
  by_cases same : first.1 = second.1
  · have refused (pair other : String × List Char) (same : other.1 = pair.1) :
        (add? table pair).bind (add? · other) = none := by
      unfold add?
      split
      · rfl
      · simp [Table.contains, Table.find?_insert, same]
    rw [refused first second same.symm, refused second first same]
  · have swapped : (table.insert first.1 first.2).insert second.1 second.2 =
        (table.insert second.1 second.2).insert first.1 first.2 := by
      refine ((ordered.insert _ _).insert _ _).ext ((ordered.insert _ _).insert _ _) fun key => ?_
      simp only [Table.find?_insert]
      by_cases here : key = first.1
      · simp [here, same]
      · simp [here]
    have different := Ne.symm same
    unfold add?
    cases one : table.contains first.1 <;> cases two : table.contains second.1 <;>
      simp_all [Table.contains, Table.find?_insert]

theorem step?_comm {table : Table (List Char)} (ordered : table.Ordered)
    (first second : Option Datum × Datum) :
    (step? table first).bind (step? · second) = (step? table second).bind (step? · first) := by
  unfold step?
  cases pair? first with
  | none => simp
  | some one =>
      cases pair? second with
      | none => simp
      | some two => exact add?_comm ordered one two

theorem foldlM_step?_of_perm {entries others : List (Option Datum × Datum)}
    (moved : entries.Perm others) {table : Table (List Char)} (ordered : table.Ordered) :
    entries.foldlM step? table = others.foldlM step? table := by
  induction moved generalizing table with
  | nil => rfl
  | cons entry _ ih =>
      rw [List.foldlM_cons, List.foldlM_cons]
      refine Option.bind_congr fun added adds => ih ?_
      obtain ⟨pair, _, adds⟩ := Option.bind_eq_some_iff.mp adds
      exact ordered_of_add? ordered adds
  | swap first second rest =>
      simp only [List.foldlM_cons, Option.bind_eq_bind, ← Option.bind_assoc,
        step?_comm ordered first second]
  | trans _ _ ihFirst ihSecond => exact (ihFirst ordered).trans (ihSecond ordered)

/-! ### Changing a part -/

theorem foldlM_step?_of_pair? {entry other : Option Datum × Datum}
    (same : pair? entry = pair? other) (before after : List (Option Datum × Datum)) :
    (before ++ entry :: after).foldlM step? [] = (before ++ other :: after).foldlM step? [] := by
  simp only [List.foldlM_append, List.foldlM_cons, step?, same]

theorem mapM_text?_of_text? {item other : Datum} (same : item.text? = other.text?)
    (before after : List Datum) :
    (before ++ item :: after).mapM text? = (before ++ other :: after).mapM text? := by
  simp only [List.mapM_append, List.mapM_cons, same]

theorem text?_record (fields : List (String × Datum)) :
    (record fields).text? = (map (asEntries fields)).text? :=
  congrArg Except.toOption (encode_record fields)

theorem text?_recordVariant (name : String) (fields : List (String × Datum)) :
    (recordVariant name fields).text? = (map (asEntries fields)).text?.map (singleEntry name) := by
  rw [← text?_variant]
  exact congrArg Except.toOption (encode_recordVariant name fields)

theorem text?_map_of_perm {entries others : List (Option Datum × Datum)}
    (moved : entries.Perm others) : (map entries).text? = (map others).text? := by
  rw [text?_map, text?_map, foldlM_step?_of_perm moved Table.Ordered.nil]

theorem text?_map_of_key {datum other : Datum} (same : datum.text? = other.text?)
    (before after : List (Option Datum × Datum)) (value : Datum) :
    (map (before ++ (some datum, value) :: after)).text? =
      (map (before ++ (some other, value) :: after)).text? := by
  have pairs : pair? (some datum, value) = pair? (some other, value) := by
    simp only [pair?, same]
  rw [text?_map, text?_map, foldlM_step?_of_pair? pairs]

theorem text?_map_of_value {datum other : Datum} (same : datum.text? = other.text?)
    (before after : List (Option Datum × Datum)) (key : Option Datum) :
    (map (before ++ (key, datum) :: after)).text? =
      (map (before ++ (key, other) :: after)).text? := by
  have pairs : pair? (key, datum) = pair? (key, other) := by
    cases key <;> simp only [pair?, same]
  rw [text?_map, text?_map, foldlM_step?_of_pair? pairs]

theorem text?_map_of_field {datum other : Datum} (same : datum.text? = other.text?)
    (before after : List (String × Datum)) (name : String) :
    (map (asEntries (before ++ (name, datum) :: after))).text? =
      (map (asEntries (before ++ (name, other) :: after))).text? := by
  simp only [asEntries, List.map_append, List.map_cons]
  exact text?_map_of_value same _ _ _

theorem text?_of_rearranged {datum other : Datum} (rearranged : Rearranged datum other) :
    datum.text? = other.text? := by
  induction rearranged with
  | refl _ => rfl
  | symm _ ih => exact ih.symm
  | trans _ _ ihFirst ihSecond => exact ihFirst.trans ihSecond
  | entries moved => exact text?_map_of_perm moved
  | fields moved =>
      rw [text?_record, text?_record]
      exact text?_map_of_perm (moved.map _)
  | variantFields _ moved =>
      rw [text?_recordVariant, text?_recordVariant]
      exact congrArg _ (text?_map_of_perm (moved.map _))
  | asMap fields => exact text?_record fields
  | variantAsMap name fields => rw [text?_recordVariant, text?_variant]
  | present _ ih =>
      simp only [text?, encode] at ih ⊢
      exact ih
  | wrapped _ ih =>
      simp only [text?, encode] at ih ⊢
      exact ih
  | variant _ _ ih => rw [text?_variant, text?_variant, ih]
  | item before after _ ih =>
      rw [text?_sequence, text?_sequence, mapM_text?_of_text? ih]
  | variantItem _ before after _ ih =>
      rw [text?_sequenceVariant, text?_sequenceVariant, mapM_text?_of_text? ih]
  | key before after value _ ih => exact text?_map_of_key ih before after value
  | value before after key _ ih => exact text?_map_of_value ih before after key
  | field before after name _ ih =>
      rw [text?_record, text?_record, text?_map_of_field ih]
  | variantField _ before after name _ ih =>
      rw [text?_recordVariant, text?_recordVariant, text?_map_of_field ih]

theorem encode_of_text? {datum other : Datum} (same : datum.text? = other.text?) :
    (∃ written, datum.encode = .ok written ∧ other.encode = .ok written) ∨
      ∃ error fault, datum.encode = .error error ∧ other.encode = .error fault := by
  unfold text? at same
  cases first : datum.encode <;> cases second : other.encode <;>
    simp_all [Except.toOption]

/-- Data that differ only in the order of entries and fields, and in records given as maps, have the
same canonical text or are both refused; and a record is encoded or refused exactly as the map of
its fields. -/
theorem encode_of_rearranged {datum other : Datum} (rearranged : Rearranged datum other) :
    ((∃ written, datum.encode = .ok written ∧ other.encode = .ok written) ∨
      ∃ error fault, datum.encode = .error error ∧ other.encode = .error fault) ∧
    ∀ fields, (record fields).encode = (map (asEntries fields)).encode :=
  ⟨encode_of_text? (text?_of_rearranged rearranged), encode_record⟩

def sampleDatum : Datum :=
  .sequence [.absent, .map [
    (some (.integer 1 (by decide)), .record [("b", .unit), ("a", .present (.text "x"))]),
    (some (.text "k"), .bool true)]]

def sampleRearranged : Datum :=
  .sequence [.absent, .map [
    (some (.text "k"), .bool true),
    (some (.integer 1 (by decide)),
      .map [(some (.text "a"), .present (.text "x")), (some (.text "b"), .unit)])]]

def sampleText : List Char :=
  "[null,\x7b\"1\":\x7b\"a\":\"x\",\"b\":null\x7d,\"k\":true\x7d]".toList

theorem encode_sampleRearranged : Rearranged sampleDatum sampleRearranged ∧
    sampleDatum.encode = .ok sampleText ∧ sampleRearranged.encode = .ok sampleText := by
  have inner := (Rearranged.fields (List.Perm.swap ("a", .present (.text "x")) ("b", .unit) [])).trans
    (.asMap _)
  have moved : Rearranged sampleDatum sampleRearranged := .item [.absent] []
    ((Rearranged.value [] _ _ inner).trans (.entries (List.Perm.swap _ _ [])))
  have encoded : sampleDatum.encode = .ok sampleText := by rfl
  refine ⟨moved, encoded, ?_⟩
  rcases (encode_of_rearranged moved).1 with ⟨written, first, second⟩ | ⟨error, _, refused, _⟩
  · rw [encoded] at first
    exact (Except.ok.inj first) ▸ second
  · rw [encoded] at refused
    cases refused

end Datum

end AuditTrail
