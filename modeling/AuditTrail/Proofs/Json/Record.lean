import AuditTrail.Json.Decode
import Mathlib.Data.List.Nodup

/-!
Records read back from their own objects. Accepting a record is put together field by field, along
its description; the members may stand in any order as long as none is unknown or repeated.
-/

namespace AuditTrail

open Document

namespace RecordReader

variable {α β : Type} {origin inner : Origin} {lookup : String → Option Document}

def names (reader : RecordReader α) : List String :=
  reader.fields.map FieldCheck.name

@[simp] theorem names_seq (first : RecordReader (α → β)) (second : RecordReader α) :
    (first <*> second).names = first.names ++ second.names :=
  List.map_append

@[simp] theorem names_map (f : α → β) (reader : RecordReader α) :
    (f <$> reader).names = reader.names := rfl

@[simp] theorem names_required (name : String) (decode : Decoder α) :
    (required name decode).names = [name] := rfl

@[simp] theorem names_withDefault (name : String) (decode : Decoder α) (default : α) :
    (withDefault name decode default).names = [name] := rfl

/-- The documents that a look-up finds make up the value, and each passes the check of its field. -/
structure Accepts (reader : RecordReader α) (origin : Origin) (lookup : String → Option Document)
    (value : α) : Prop where
  build : reader.build origin lookup = .ok value
  checks : ∀ field ∈ reader.fields, ∀ document, lookup field.name = some document →
    field.check origin document = .ok ()

theorem Accepts.seq {first : RecordReader (α → β)} {second : RecordReader α} {f : α → β} {value : α}
    (accepts : first.Accepts origin lookup f) (other : second.Accepts origin lookup value) :
    (first <*> second).Accepts origin lookup (f value) where
  build := by
    show (first.app second).build origin lookup = _
    simp only [app, accepts.build, other.build]
    rfl
  checks field member := by
    rcases List.mem_append.mp member with own | own
    · exact accepts.checks field own
    · exact other.checks field own

theorem Accepts.map {reader : RecordReader α} {value : α} (f : α → β)
    (accepts : reader.Accepts origin lookup value) :
    (f <$> reader).Accepts origin lookup (f value) :=
  have constant : (RecordReader.pure f).Accepts origin lookup f := ⟨rfl, by simp [RecordReader.pure]⟩
  constant.seq accepts

theorem accepts_field {name : String} {required : Bool} {decode : Decoder α}
    {missing : Except DecodeError α} {document : Document} {value : α}
    (found : lookup name = some document) (decoded : decode origin document = .ok value) :
    (field name required decode missing).Accepts origin lookup value where
  build := by simp [field, found, decoded]
  checks other member document' found' := by
    obtain rfl := List.mem_singleton.mp member
    obtain rfl : document = document' := Option.some.inj (found.symm.trans found')
    simp [decoded, Except.map]

theorem accepts_default {name : String} {decode : Decoder α} {value : α}
    (missing : lookup name = none) :
    (withDefault name decode value).Accepts origin lookup value where
  build := by simp [withDefault, field, missing]
  checks other member document found := by
    obtain rfl := List.mem_singleton.mp member
    rw [missing] at found
    cases found

end RecordReader

def documents (fields : List (String × Json)) : List (String × Document) :=
  fields.map fun field => (field.1, Document.ofJson field.2)

theorem keys_documents (fields : List (String × Json)) :
    (documents fields).map Prod.fst = fields.map Prod.fst := by
  simp [documents, Function.comp_def]

theorem ofFields_eq_map (fields : List (String × Json)) :
    ofFields fields = (documents fields).map fun entry => (some entry.1, entry.2) := by
  induction fields with
  | nil => rfl
  | cons field rest ih => simp only [ofFields, ih, documents, List.map_cons]

namespace RecordReader

variable {α : Type} {origin inner : Origin}

theorem lookup_eq_some_iff {known : List (String × Document)}
    (distinct : (known.map Prod.fst).Nodup) {key : String} {document : Document} :
    lookup known key = some document ↔ (key, document) ∈ known := by
  induction known with
  | nil => simp [lookup]
  | cons entry rest ih =>
      obtain ⟨name, value⟩ := entry
      obtain ⟨fresh, distinct⟩ := List.nodup_cons.mp distinct
      have later := ih distinct
      unfold lookup at later ⊢
      rw [List.find?_cons]
      by_cases same : name = key
      · subst same
        have absent : (name, document) ∉ rest := fun member =>
          fresh (List.mem_map.mpr ⟨_, member, rfl⟩)
        simp [absent, eq_comm]
      · simp [same, Ne.symm same, later]

theorem lookup_eq_none_iff {known : List (String × Document)} {key : String} :
    lookup known key = none ↔ key ∉ known.map Prod.fst := by
  rw [lookup, Option.map_eq_none_iff, List.find?_eq_none]
  constructor
  · intro other present
    obtain ⟨entry, member, rfl⟩ := List.mem_map.mp present
    exact other entry member (by simp)
  · intro absent entry member same
    exact absent (List.mem_map.mpr ⟨entry, member, by simpa using same⟩)

theorem lookup_reverse {known : List (String × Document)}
    (distinct : (known.map Prod.fst).Nodup) : lookup known.reverse = lookup known := by
  funext key
  refine Option.ext fun document => ?_
  rw [lookup_eq_some_iff (by rwa [List.map_reverse, List.nodup_reverse]), lookup_eq_some_iff distinct,
    List.mem_reverse]

theorem scan_append (reader : RecordReader α) {members known : List (String × Document)}
    (rest : List (Option String × Document)) (distinct : (members.map Prod.fst).Nodup)
    (fresh : ∀ entry ∈ known, ∀ member ∈ members, entry.1 ≠ member.1)
    (passes : ∀ member ∈ members, ∃ field,
      reader.fields.find? (fun field => field.name = member.1) = some field ∧
        field.check origin member.2 = .ok ()) :
    reader.scan origin known (members.map (fun entry => (some entry.1, entry.2)) ++ rest) =
      reader.scan origin (members.reverse ++ known) rest := by
  induction members generalizing known with
  | nil => rfl
  | cons member members ih =>
      obtain ⟨key, document⟩ := member
      obtain ⟨field, found, passed⟩ := passes (key, document) List.mem_cons_self
      obtain ⟨absent, distinct⟩ := List.nodup_cons.mp distinct
      have unseen : (known.any fun entry => entry.1 = key) = false := by
        simpa using fun name value member => fresh (name, value) member _ List.mem_cons_self
      have fresh : ∀ entry ∈ (key, document) :: known, ∀ member ∈ members,
          entry.1 ≠ member.1 := by
        intro entry seen member later
        rcases List.mem_cons.mp seen with rfl | seen
        · exact fun same => absent (same ▸ List.mem_map_of_mem later)
        · exact fresh entry seen member (List.mem_cons_of_mem _ later)
      have step := ih distinct fresh fun member later =>
        passes member (List.mem_cons_of_mem _ later)
      rw [List.map_cons, List.cons_append, scan]
      simp only [found, unseen, passed, bind, Except.bind, Bool.false_eq_true, if_false, step,
        List.reverse_cons, List.append_assoc, List.singleton_append]

theorem Accepts.passes {reader : RecordReader α} {members : List (String × Document)} {value : α}
    (accepts : reader.Accepts origin (lookup members) value)
    (distinct : (members.map Prod.fst).Nodup)
    (known : ∀ key ∈ members.map Prod.fst, key ∈ reader.names)
    (member : String × Document) (found : member ∈ members) :
    ∃ field, reader.fields.find? (fun field => field.name = member.1) = some field ∧
      field.check origin member.2 = .ok () := by
  obtain ⟨field, inFields, named⟩ := List.mem_map.mp (known member.1 (List.mem_map_of_mem found))
  have some : (reader.fields.find? fun field => field.name = member.1).isSome = true :=
    List.find?_isSome.mpr ⟨field, inFields, by simpa using named⟩
  obtain ⟨own, found'⟩ := Option.isSome_iff_exists.mp some
  have same : own.name = member.1 := by simpa using List.find?_some found'
  refine ⟨own, found', accepts.checks own (List.mem_of_find?_eq_some found') _ ?_⟩
  rw [same]
  exact (lookup_eq_some_iff distinct).mpr found

/-- A record is read from an object of its fields, whatever their order. -/
theorem Accepts.decode {reader : RecordReader α} {fields : List (String × Json)} {value : α}
    (accepts : reader.Accepts inner (lookup (documents fields)) value)
    (distinct : (fields.map Prod.fst).Nodup)
    (known : ∀ key ∈ fields.map Prod.fst, key ∈ reader.names)
    (descends : origin.descend = .ok inner) (name : String) :
    reader.decode name origin (Document.ofJson (.object fields)) = .ok value := by
  have keys := keys_documents fields
  have scanned : reader.scan inner [] _ = reader.scan inner ((documents fields).reverse ++ []) [] :=
    reader.scan_append [] (keys ▸ distinct) (by simp)
      (accepts.passes (keys ▸ distinct) (keys ▸ known))
  rw [List.append_nil, List.append_nil, ← ofFields_eq_map] at scanned
  rw [Document.ofJson, RecordReader.decode]
  simp only [descends, scanned, scan, bind, Except.bind, if_true,
    lookup_reverse (keys ▸ distinct), accepts.build]

theorem decode_error {reader : RecordReader α} {before after : List (String × Json)}
    {key : String} {part : Json} {field : FieldCheck} {error : DecodeError}
    (distinct : ((before ++ [(key, part)]).map Prod.fst).Nodup)
    (passes : ∀ member ∈ documents before, ∃ field,
      reader.fields.find? (fun field => field.name = member.1) = some field ∧
        field.check inner member.2 = .ok ())
    (found : reader.fields.find? (fun field => field.name = key) = some field)
    (fails : field.check inner (Document.ofJson part) = .error error)
    (descends : origin.descend = .ok inner) (name : String) :
    reader.decode name origin (Document.ofJson (.object (before ++ (key, part) :: after))) =
      .error error := by
  have keys := keys_documents before
  rw [List.map_append, List.nodup_append] at distinct
  obtain ⟨distinct, _, apart⟩ := distinct
  have unseen : ((documents before).reverse.any fun entry => entry.1 = key) = false := by
    simp only [List.any_eq_false, List.mem_reverse, decide_eq_true_eq]
    intro entry member
    exact apart entry.1 (keys ▸ List.mem_map_of_mem member) key (by simp)
  have scanned : reader.scan inner [] (_ ++ (some key, Document.ofJson part) :: ofFields after) =
      reader.scan inner ((documents before).reverse ++ [])
        ((some key, Document.ofJson part) :: ofFields after) :=
    reader.scan_append _ (keys ▸ distinct) (by simp) passes
  have members : ofFields (before ++ (key, part) :: after) =
      (documents before).map (fun entry => (some entry.1, entry.2)) ++
        (some key, Document.ofJson part) :: ofFields after := by
    simp only [ofFields_eq_map, documents, List.map_append, List.map_cons]
  rw [List.append_nil, scan] at scanned
  rw [Document.ofJson, RecordReader.decode, members]
  simp only [descends, scanned, found, unseen, fails, bind, Except.bind, Bool.false_eq_true,
    if_false]

end RecordReader

end AuditTrail
