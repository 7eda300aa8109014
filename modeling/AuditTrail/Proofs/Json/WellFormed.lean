import AuditTrail.Json.Decode

/-!
What a text must be like to be read. A reader that has got a value has met every bracket of the
document up to its closing one, whether it needed the part or passed over it.
-/

namespace AuditTrail

open Document

theorem exists_of_bind_eq_ok {α β : Type} {ε : Type} {first : Except ε α} {next : α → Except ε β}
    {result : β} (done : first >>= next = .ok result) :
    ∃ value, first = .ok value ∧ next value = .ok result := by
  cases first with
  | error error => cases done
  | ok value => exact ⟨value, rfl, done⟩

theorem exists_of_map_eq_ok {α β : Type} {ε : Type} {first : Except ε α} {f : α → β} {result : β}
    (done : first.map f = .ok result) : ∃ value, first = .ok value ∧ f value = result := by
  cases first with
  | error error => cases done
  | ok value => exact ⟨value, rfl, Except.ok.inj done⟩

/-- Whatever is read from a text is well formed. -/
def Decoder.Sound {α : Type} (decode : Decoder α) : Prop :=
  ∀ depth document value, decode (.text depth) document = .ok value → document.wellFormed = true

namespace Document

theorem wellFormedItems_of_itemTrees? {depth : Nat}
    (each : ∀ document value, toTree? depth document = some value → document.wellFormed = true)
    {items : List Document} {values : List Json} (trees : itemTrees? depth items = some values) :
    wellFormedItems items = true := by
  induction items generalizing values with
  | nil => rfl
  | cons item items ih =>
      obtain ⟨first, own, trees⟩ := Option.bind_eq_some_iff.mp trees
      obtain ⟨later, rest, _⟩ := Option.bind_eq_some_iff.mp trees
      simp [wellFormedItems, each _ _ own, ih rest]

theorem wellFormedMembers_of_memberTrees? {depth : Nat}
    (each : ∀ document value, toTree? depth document = some value → document.wellFormed = true)
    {members : List (Option String × Document)} {fields : List (String × Json)}
    (trees : memberTrees? depth members = some fields) : wellFormedMembers members = true := by
  induction members generalizing fields with
  | nil => rfl
  | cons member members ih =>
      obtain ⟨_, _, trees⟩ := Option.bind_eq_some_iff.mp trees
      obtain ⟨first, own, trees⟩ := Option.bind_eq_some_iff.mp trees
      obtain ⟨later, rest, _⟩ := Option.bind_eq_some_iff.mp trees
      simp [wellFormedMembers, each _ _ own, ih rest]

theorem wellFormed_of_toTree? (depth : Nat) : ∀ document value,
    toTree? depth document = some value → document.wellFormed = true := by
  induction depth with
  | zero =>
      intro document value tree
      cases document <;> first | rfl | cases tree
  | succ depth ih =>
      intro document value tree
      cases document with
      | array items closed =>
          cases closed with
          | false => cases tree
          | true =>
              obtain ⟨values, trees, _⟩ := Option.map_eq_some_iff.mp tree
              simp [wellFormed, wellFormedItems_of_itemTrees? ih trees]
      | object members closed =>
          cases closed with
          | false => cases tree
          | true =>
              obtain ⟨fields, trees, _⟩ := Option.map_eq_some_iff.mp tree
              simp [wellFormed, wellFormedMembers_of_memberTrees? ih trees]
      | malformed => cases tree
      | _ => rfl

end Document

namespace Decoder

variable {α : Type}

theorem mismatch_ne_ok (document : Document) (expected : String) (value : α) :
    mismatch document expected ≠ .ok value := by
  intro done
  obtain ⟨_, _, failed⟩ := exists_of_bind_eq_ok done
  cases failed

theorem sound_string : Sound string := by
  intro depth document value read
  cases document with
  | string s => rfl
  | _ => exact absurd read (mismatch_ne_ok _ _ _)

theorem sound_uint64 : Sound uint64 := by
  intro depth document value read
  cases document with
  | number n => rfl
  | _ =>
      obtain ⟨_, given, _⟩ := exists_of_map_eq_ok read
      exact absurd given (mismatch_ne_ok _ _ _)

theorem sound_json : Sound json := by
  intro depth document value read
  unfold json at read
  dsimp only at read
  split at read
  · rename_i given
    obtain ⟨tree, found, _⟩ := Option.map_eq_some_iff.mp given
    exact wellFormed_of_toTree? depth _ _ found
  · cases read

theorem Sound.option {decode : Decoder α} (sound : decode.Sound) : Sound (option decode) := by
  intro depth document value read
  unfold Decoder.option at read
  split at read
  · rfl
  · obtain ⟨inner, given, _⟩ := exists_of_map_eq_ok read
    exact sound _ _ _ given

theorem wellFormedItems_of_listItems {decode : Decoder α} (sound : decode.Sound) {depth : Nat}
    {items : List Document} {values : List α}
    (read : listItems decode (.text depth) items = .ok values) : wellFormedItems items = true := by
  induction items generalizing values with
  | nil => rfl
  | cons item items ih =>
      obtain ⟨first, given, read⟩ := exists_of_bind_eq_ok read
      obtain ⟨later, givenLater, _⟩ := exists_of_bind_eq_ok read
      simp [wellFormedItems, sound _ _ _ given, ih givenLater]

theorem descend_text {depth : Nat} {inner : Origin}
    (descends : (Origin.text depth).descend = .ok inner) : ∃ below, inner = .text below := by
  cases depth with
  | zero => cases descends
  | succ depth =>
      cases descends
      exact ⟨depth, rfl⟩

theorem Sound.list {decode : Decoder α} (sound : decode.Sound) : Sound (list decode) := by
  intro depth document values read
  unfold Decoder.list at read
  split at read
  · obtain ⟨inner, descends, read⟩ := exists_of_bind_eq_ok read
    obtain ⟨below, rfl⟩ := descend_text descends
    obtain ⟨listed, given, read⟩ := exists_of_bind_eq_ok read
    split at read
    · rename_i closed
      simp [wellFormed, wellFormedItems_of_listItems sound given, closed]
    · cases read
  · exact absurd read (mismatch_ne_ok _ _ _)

theorem wellFormed_of_unit {origin : Origin} {document : Document}
    (read : unit origin document = .ok ()) : document.wellFormed = true := by
  cases document with
  | null => rfl
  | _ => exact absurd read (mismatch_ne_ok _ _ _)

theorem sound_variant (variants : List (String × α)) : Sound (variant variants) := by
  intro depth document value read
  cases document with
  | string name => rfl
  | object members closed =>
      obtain ⟨inner, _, read⟩ := exists_of_bind_eq_ok read
      split at read
      · obtain ⟨chosen, _, read⟩ := exists_of_bind_eq_ok read
        obtain ⟨_, empty, read⟩ := exists_of_bind_eq_ok read
        split at read
        · rename_i only
          obtain ⟨none, closed⟩ : _ = [] ∧ closed = true := by simpa using only
          simp [wellFormed, wellFormedMembers, wellFormed_of_unit empty, none, closed]
        · cases read
      · cases read
  | _ => cases read

end Decoder

namespace RecordReader

variable {α β : Type}

def Sound (reader : RecordReader α) : Prop :=
  ∀ field ∈ reader.fields, ∀ depth document, field.check (.text depth) document = .ok () →
    document.wellFormed = true

theorem Sound.seq {first : RecordReader (α → β)} {second : RecordReader α} (sound : first.Sound)
    (other : second.Sound) : (first <*> second).Sound := by
  intro field member
  rcases List.mem_append.mp member with own | own
  · exact sound field own
  · exact other field own

theorem Sound.map {reader : RecordReader α} (f : α → β) (sound : reader.Sound) :
    (f <$> reader).Sound :=
  have constant : (RecordReader.pure f).Sound := by simp [Sound, RecordReader.pure]
  constant.seq sound

theorem sound_field {name : String} {required : Bool} {decode : Decoder α}
    {missing : Except DecodeError α} (sound : decode.Sound) :
    (field name required decode missing).Sound := by
  intro field member depth document passed
  obtain rfl := List.mem_singleton.mp member
  obtain ⟨value, given, _⟩ := exists_of_map_eq_ok passed
  exact sound _ _ _ given

theorem wellFormedMembers_of_scan {reader : RecordReader α} (sound : reader.Sound) {depth : Nat}
    {members : List (Option String × Document)} {known later : List (String × Document)}
    (read : reader.scan (.text depth) known members = .ok later) :
    wellFormedMembers members = true := by
  induction members generalizing known with
  | nil => rfl
  | cons member members ih =>
      obtain ⟨key, value⟩ := member
      cases key with
      | none => cases read
      | some key =>
          rw [scan] at read
          split at read
          · rename_i field found
            split at read
            · cases read
            · obtain ⟨_, passed, read⟩ := exists_of_bind_eq_ok read
              have own := sound field (List.mem_of_find?_eq_some found) _ _ passed
              simp [wellFormedMembers, own, ih read]
          · split at read
            · rename_i own
              simp [wellFormedMembers, own, ih read]
            · cases read

theorem wellFormedItems_of_scanItems {total depth : Nat} {name : String} {closed : Bool}
    {fields : List FieldCheck} {items : List Document} {known : List (String × Document)}
    (sound : ∀ field ∈ fields, ∀ depth document, field.check (.text depth) document = .ok () →
      document.wellFormed = true)
    (read : scanItems total name (.text depth) closed fields items = .ok known) :
    wellFormedItems items = true ∧ closed = true := by
  induction fields generalizing items known with
  | nil =>
      cases items with
      | nil => 
          cases closed with
          | false => cases read
          | true => exact ⟨rfl, rfl⟩
      | cons item items => cases read
  | cons field fields ih =>
      have later := fun other member => sound other (List.mem_cons_of_mem field member)
      cases items with
      | nil =>
          rw [scanItems] at read
          split at read
          · cases read
          · split at read
            · cases read
            · exact ih later read
      | cons item items =>
          obtain ⟨_, passed, read⟩ := exists_of_bind_eq_ok read
          obtain ⟨rest, given, _⟩ := exists_of_bind_eq_ok read
          obtain ⟨wholeLater, closed⟩ := ih later given
          have own := sound field List.mem_cons_self _ _ passed
          exact ⟨by simp [wellFormedItems, own, wholeLater], closed⟩

theorem Sound.decode {reader : RecordReader α} (sound : reader.Sound) (name : String) :
    (reader.decode name).Sound := by
  intro depth document value read
  unfold RecordReader.decode at read
  split at read
  · obtain ⟨inner, descends, read⟩ := exists_of_bind_eq_ok read
    obtain ⟨below, rfl⟩ := Decoder.descend_text descends
    obtain ⟨known, scanned, read⟩ := exists_of_bind_eq_ok read
    split at read
    · rename_i closed
      simp [wellFormed, wellFormedMembers_of_scan sound scanned, closed]
    · cases read
  · obtain ⟨inner, descends, read⟩ := exists_of_bind_eq_ok read
    obtain ⟨below, rfl⟩ := Decoder.descend_text descends
    obtain ⟨known, scanned, read⟩ := exists_of_bind_eq_ok read
    simp [wellFormed, wellFormedItems_of_scanItems sound scanned]
  · exact absurd read (Decoder.mismatch_ne_ok _ _ _)

end RecordReader

end AuditTrail
