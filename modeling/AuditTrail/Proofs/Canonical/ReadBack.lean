import AuditTrail.Error
import AuditTrail.Proofs.Canonical.Acceptance
import AuditTrail.Proofs.Canonical.Encoder
import AuditTrail.Proofs.Canonical.Rereading
import AuditTrail.Proofs.Json.Depth
import AuditTrail.Proofs.Json.Normal

/-!
Canonical text read back as a value. What is read goes with the datum part by part: it is in normal
form, nests as deep as the datum does, is read from its own text again, and has the same text as the
datum unless that holds an integer beyond 64 bits.
-/

namespace AuditTrail

open Document Canonical

namespace Document

theorem ReadsAs.append_inj {text other rest more : List Char} {tree : Document}
    (reads : ReadsAs text tree) (readsOther : ReadsAs other tree) (ends : EndsLiteral rest)
    (endsOther : EndsLiteral more) (same : text ++ rest = other ++ more) :
    text = other ∧ rest = more := by
  have first := reads (2 * (text.length + other.length)) rest (by omega) ends
  have second := readsOther (2 * (text.length + other.length)) more (by omega) endsOther
  rw [same, second] at first
  obtain rfl : more = rest := (Prod.mk.inj first).2
  exact ⟨List.append_cancel_right same, rfl⟩

theorem joinItems_eq_iff {α : Type} {text other : α → List Char} {tree : α → Document}
    (lead : α → List Char) (items : List α) (reads : ∀ item ∈ items, ReadsAs (text item) (tree item))
    (readsOther : ∀ item ∈ items, ReadsAs (other item) (tree item)) :
    joinItems (items.map fun item => lead item ++ text item) =
      joinItems (items.map fun item => lead item ++ other item) ↔
      ∀ item ∈ items, text item = other item := by
  induction items with
  | nil => simp
  | cons item items ih =>
      have first := reads item List.mem_cons_self
      have firstOther := readsOther item List.mem_cons_self
      have later := ih (fun next member => reads next (List.mem_cons_of_mem _ member))
        fun next member => readsOther next (List.mem_cons_of_mem _ member)
      rw [List.forall_mem_cons, ← later]
      cases items with
      | nil => simp [joinItems]
      | cons next items =>
          simp only [List.map_cons, joinItems, List.append_assoc]
          rw [List.append_cancel_left_eq]
          have comma (rest : List Char) : EndsLiteral (',' :: rest) :=
            endsLiteral_cons (by decide) (by decide) (by decide) (by decide) rest
          constructor
          · intro same
            obtain ⟨texts, rest⟩ := first.append_inj firstOther (comma _) (comma _) same
            exact ⟨texts, (List.cons.inj rest).2⟩
          · rintro ⟨texts, rest⟩
            rw [texts, rest]

end Document

namespace Datum

def levels : Datum → Nat
  | .variant _ _ | .sequence _ | .map _ | .record _ => 1
  | .sequenceVariant _ _ | .recordVariant _ _ => 2
  | _ => 0

/-- A datum that opens at most `depth` brackets inside each other. -/
inductive Within : Nat → Datum → Prop
  | intro {depth : Nat} {datum : Datum} (opens : datum.levels ≤ depth)
      (inside : ∀ child ∈ datum.children, Within (depth - datum.levels) child) :
      Within depth datum

theorem within_iff {depth : Nat} {datum : Datum} : datum.Within depth ↔
    datum.levels ≤ depth ∧ ∀ child ∈ datum.children, child.Within (depth - datum.levels) := by
  constructor
  · rintro ⟨opens, inside⟩
    exact ⟨opens, inside⟩
  · rintro ⟨opens, inside⟩
    exact .intro opens inside

/-- An integer that keeps its text when that is read: one of 64 bits, or what a float is shown as. -/
def Rereads : Datum → Prop
  | .integer n _ => (-9223372036854775808 ≤ n ∧ n < 18446744073709551616) ∨
      ∃ x : Binary64, x.canonicalChars = decimalChars n
  | _ => True

/-- What a datum is read back as from its text. -/
structure Restored (datum : Datum) (text : List Char) (value : Json) : Prop where
  reads : ReadsAs text (Document.ofJson value)
  opens : OpensValue text
  normal : value.Normal
  again : ReadsAs (value.writeWith Number.canonicalChars) (Document.ofJson value)
  nesting : ∀ depth, (Document.ofJson value).nesting ≤ depth ↔ datum.Within depth
  same : value.writeWith Number.canonicalChars = text ↔ datum.Everywhere Rereads

structure Piece where
  datum : Datum
  text : List Char
  value : Json
  restored : Restored datum text value

theorem opensValue_canonical (value : Json) :
    OpensValue (value.writeWith Number.canonicalChars) := by
  refine opensValue_writeWith (fun n => ?_) value
  cases n with
  | int n inRange => exact ⟨_, literalOf_int inRange⟩
  | float x =>
      obtain ⟨m, literal, _⟩ := x.exists_literal_canonicalChars
      exact ⟨m, literal⟩

/-! ### Data with nothing inside -/

theorem restored_leaf {datum : Datum} {text : List Char} {value : Json} (flat : datum.levels = 0)
    (none : datum.children = []) (reads : ReadsAs text (Document.ofJson value))
    (opens : OpensValue text) (normal : value.Normal)
    (again : ReadsAs (value.writeWith Number.canonicalChars) (Document.ofJson value))
    (shallow : (Document.ofJson value).nesting = 0)
    (same : value.writeWith Number.canonicalChars = text ↔ datum.Rereads) :
    Restored datum text value where
  reads := reads
  opens := opens
  normal := normal
  again := again
  nesting depth := by
    rw [shallow, within_iff, flat, none]
    simp
  same := by
    rw [same, everywhere_iff, none]
    simp

theorem restored_number {datum : Datum} {text : List Char} {n : Number} (flat : datum.levels = 0)
    (none : datum.children = []) (literal : LiteralOf text n)
    (again : LiteralOf n.canonicalChars n) (same : n.canonicalChars = text ↔ datum.Rereads) :
    Restored datum text (.number n) :=
  restored_leaf flat none (readsAs_literal literal) literal.opens rfl (readsAs_literal again) rfl
    same

theorem restored_string {datum : Datum} {s : String} (flat : datum.levels = 0)
    (none : datum.children = []) (rereads : datum.Rereads) :
    Restored datum (quote s) (.string s) :=
  restored_leaf flat none (readsAs_string s) ⟨_, _, rfl, by decide, by decide⟩ rfl
    (readsAs_string s) rfl (iff_of_true rfl rereads)

theorem restored_null {datum : Datum} (flat : datum.levels = 0) (none : datum.children = [])
    (rereads : datum.Rereads) : Restored datum "null".toList .null :=
  restored_leaf flat none readsAs_null ⟨_, _, rfl, by decide, by decide⟩ rfl readsAs_null rfl
    (iff_of_true rfl rereads)

theorem restored_integer {n : Int} (inRange) :
    ∃ value, Restored (integer n inRange) (decimalChars n) value := by
  obtain ⟨m, literal, again, same⟩ := exists_literal_integer inRange
  exact ⟨.number m, restored_number rfl rfl literal again same⟩

theorem restored_float (x : Binary64) :
    ∃ value, Restored (float (.finite x)) x.canonicalChars value := by
  obtain ⟨m, literal, same⟩ := x.exists_literal_canonicalChars
  exact ⟨.number m,
    restored_number rfl rfl literal (same ▸ literal) (iff_of_true same trivial)⟩

/-! ### Lists and objects -/

section

variable {datum : Datum} {pieces : List Piece}
  (children : ∀ child, child ∈ datum.children ↔ ∃ piece ∈ pieces, piece.datum = child)

include children

theorem within_iff_pieces (one : datum.levels = 1) {depth : Nat} : datum.Within (depth + 1) ↔
    ∀ piece ∈ pieces, (Document.ofJson piece.value).nesting ≤ depth := by
  rw [within_iff, one]
  constructor
  · rintro ⟨_, inside⟩ piece member
    exact (piece.restored.nesting depth).mpr (inside _ ((children _).mpr ⟨piece, member, rfl⟩))
  · intro shallow
    refine ⟨by omega, fun child member => ?_⟩
    obtain ⟨piece, found, rfl⟩ := (children child).mp member
    exact (piece.restored.nesting depth).mp (shallow piece found)

theorem everywhere_iff_pieces (rereads : datum.Rereads) : datum.Everywhere Rereads ↔
    ∀ piece ∈ pieces, piece.value.writeWith Number.canonicalChars = piece.text := by
  rw [everywhere_iff]
  constructor
  · rintro ⟨_, inside⟩ piece member
    exact piece.restored.same.mpr (inside _ ((children _).mpr ⟨piece, member, rfl⟩))
  · intro same
    refine ⟨rereads, fun child member => ?_⟩
    obtain ⟨piece, found, rfl⟩ := (children child).mp member
    exact piece.restored.same.mp (same piece found)

theorem restored_array (one : datum.levels = 1) (rereads : datum.Rereads) :
    Restored datum (brackets (pieces.map Piece.text)) (.array (pieces.map Piece.value)) where
  reads := readsAs_brackets Piece.text Piece.value (fun piece _ => piece.restored.reads)
    fun piece _ => piece.restored.opens
  opens := ⟨_, _, rfl, by decide, by decide⟩
  normal := by
    rw [Json.normal_array_iff, List.forall_mem_map]
    exact fun piece _ => piece.restored.normal
  again := by
    rw [Json.writeWith_array, List.map_map]
    exact readsAs_brackets (fun piece : Piece => piece.value.writeWith Number.canonicalChars)
      Piece.value (fun piece _ => piece.restored.again) fun piece _ => opensValue_canonical _
  nesting depth := by
    cases depth with
    | zero =>
        rw [within_iff, one]
        simp [Document.ofJson, Document.nesting]
    | succ depth =>
        rw [nesting_array_le_iff, List.forall_mem_map, within_iff_pieces children one]
  same := by
    have joined := joinItems_eq_iff (fun _ => []) pieces
      (fun piece _ => piece.restored.again) fun piece _ => piece.restored.reads
    rw [everywhere_iff_pieces children rereads, ← joined, Json.writeWith_array, List.map_map]
    simp [brackets, Function.comp_def]

end

theorem restored_object {datum : Datum} {pieces : Table Piece} (ordered : pieces.Ordered)
    (children : ∀ child, child ∈ datum.children ↔ ∃ piece ∈ pieces.values, piece.datum = child)
    (one : datum.levels = 1) (rereads : datum.Rereads) :
    Restored datum (braces (pieces.map fun piece => (piece.1, piece.2.text)))
      (.object (pieces.map fun piece => (piece.1, piece.2.value))) where
  reads := readsAs_braces Piece.text Piece.value fun piece _ => piece.2.restored.reads
  opens := ⟨_, _, rfl, by decide, by decide⟩
  normal := by
    rw [Json.normal_object_iff, List.forall_mem_map]
    exact ⟨ordered.map _, fun piece _ => piece.2.restored.normal⟩
  again := by
    rw [Json.writeWith_object, List.map_map]
    exact readsAs_braces (fun piece : Piece => piece.value.writeWith Number.canonicalChars)
      Piece.value fun piece _ => piece.2.restored.again
  nesting depth := by
    cases depth with
    | zero =>
        rw [within_iff, one]
        simp [Document.ofJson, Document.nesting]
    | succ depth =>
        rw [nesting_object_le_iff, List.forall_mem_map, within_iff_pieces children one,
          Table.values, List.forall_mem_map]
  same := by
    have joined := joinItems_eq_iff (fun piece : String × Piece => quote piece.1 ++ [':'])
      pieces (fun piece _ => piece.2.restored.again)
      fun piece _ => piece.2.restored.reads
    rw [everywhere_iff_pieces children rereads, Table.values, List.forall_mem_map, ← joined,
      Json.writeWith_object, List.map_map]
    simp [braces, Function.comp_def]

/-! ### Every datum -/

def ReadsBack (datum : Datum) : Prop :=
  ∀ text, datum.text? = some text → ∃ value, Restored datum text value

theorem exists_pieces_of_items {items : List Datum} {texts : List (List Char)}
    (each : ∀ item ∈ items, item.ReadsBack) (written : items.mapM text? = some texts) :
    ∃ pieces : List Piece, pieces.map Piece.datum = items ∧ pieces.map Piece.text = texts := by
  induction items generalizing texts with
  | nil =>
      obtain rfl := Option.some.inj written
      exact ⟨[], rfl, rfl⟩
  | cons item items ih =>
      rw [List.mapM_cons] at written
      obtain ⟨text, first, written⟩ := Option.bind_eq_some_iff.mp written
      obtain ⟨later, rest, same⟩ := Option.bind_eq_some_iff.mp written
      obtain rfl := Option.some.inj same
      obtain ⟨value, restored⟩ := each item List.mem_cons_self text first
      obtain ⟨pieces, rfl, rfl⟩ := ih (fun other member => each other (List.mem_cons_of_mem _ member))
        rest
      exact ⟨⟨item, text, value, restored⟩ :: pieces, rfl, rfl⟩

theorem exists_pieces_of_entries {entries : List (Option Datum × Datum)} {pieces : Table Piece}
    {table : Table (List Char)} (each : ∀ entry ∈ entries, entry.2.ReadsBack)
    (ordered : pieces.Ordered)
    (written : entries.foldlM step? (pieces.map fun piece => (piece.1, piece.2.text)) = some table) :
    ∃ more : Table Piece, more.Ordered ∧
      table = more.map (fun piece => (piece.1, piece.2.text)) ∧
      ∀ child, (∃ piece ∈ more.values, piece.datum = child) ↔
        (∃ piece ∈ pieces.values, piece.datum = child) ∨ child ∈ entries.map Prod.snd := by
  induction entries generalizing pieces with
  | nil => exact ⟨pieces, ordered, (Option.some.inj written).symm, by simp⟩
  | cons entry entries ih =>
      rw [List.foldlM_cons] at written
      obtain ⟨added, adds, later⟩ := Option.bind_eq_some_iff.mp written
      obtain ⟨name, text, ⟨_, first⟩, fresh, rfl⟩ := step?_eq_some_iff.mp adds
      obtain ⟨value, restored⟩ := each entry List.mem_cons_self text first
      rw [Table.find?_map, Option.map_eq_none_iff] at fresh
      rw [← Table.map_insert Piece.text pieces name ⟨entry.2, text, value, restored⟩] at later
      obtain ⟨more, ordered, rfl, children⟩ := ih
        (fun other member => each other (List.mem_cons_of_mem _ member)) (ordered.insert _ _) later
      refine ⟨more, ordered, rfl, fun child => ?_⟩
      have found := (Table.insert_perm ⟨entry.2, text, value, restored⟩ fresh).map Prod.snd
      rw [children, List.map_cons, List.mem_cons, ← or_assoc]
      refine or_congr_left ?_
      simp only [Table.values, found.mem_iff, List.map_cons, List.mem_cons, exists_eq_or_imp]
      rw [or_comm, eq_comm]

theorem Restored.congr {datum other : Datum} {text : List Char} {value : Json}
    (restored : Restored datum text value)
    (within : ∀ depth, datum.Within depth ↔ other.Within depth)
    (everywhere : datum.Everywhere Rereads ↔ other.Everywhere Rereads) :
    Restored other text value :=
  ⟨restored.reads, restored.opens, restored.normal, restored.again,
    fun depth => (restored.nesting depth).trans (within depth), restored.same.trans everywhere⟩

theorem Restored.around {datum inner : Datum} {text : List Char} {value : Json}
    (restored : Restored inner text value) (flat : datum.levels = 0)
    (single : datum.children = [inner]) (rereads : datum.Rereads) : Restored datum text value := by
  refine restored.congr (fun depth => ?_) ?_
  · rw [@within_iff depth datum, flat, single]
    simp
  · rw [@everywhere_iff Rereads datum, single]
    simp [rereads]

theorem Restored.variant {inner : Datum} {text : List Char} {value : Json}
    (restored : Restored inner text value) (name : String) :
    Restored (.variant name inner) (singleEntry name text) (.object [(name, value)]) :=
  @restored_object _ [(name, ⟨inner, text, value, restored⟩)] (List.pairwise_singleton _ _)
    (by simp [children, Table.values, eq_comm]) rfl trivial

theorem Restored.unfold {datum inner : Datum} {name : String} {text : List Char} {value : Json}
    (restored : Restored (.variant name inner) text value) (two : datum.levels = 2)
    (one : inner.levels = 1) (inside : datum.children = inner.children)
    (rereads : datum.Rereads) (rereadsInner : inner.Rereads) : Restored datum text value := by
  have outer : (Datum.variant name inner).levels = 1 := rfl
  have single : (Datum.variant name inner).children = [inner] := rfl
  refine restored.congr (fun depth => ?_) ?_
  · rw [within_iff, @within_iff depth datum, outer, single, List.forall_mem_singleton,
      @within_iff _ inner, one, two, inside, Nat.sub_sub, ← and_assoc]
    exact and_congr_left fun _ => by omega
  · rw [everywhere_iff, @everywhere_iff Rereads datum, single, List.forall_mem_singleton,
      @everywhere_iff Rereads inner, inside]
    exact and_congr (iff_of_true trivial rereads) (and_iff_right rereadsInner)

theorem readsBack_sequence {items : List Datum} (each : ∀ item ∈ items, item.ReadsBack) :
    (sequence items).ReadsBack := by
  intro text encodes
  rw [text?_sequence] at encodes
  obtain ⟨texts, written, rfl⟩ := Option.map_eq_some_iff.mp encodes
  obtain ⟨pieces, rfl, rfl⟩ := exists_pieces_of_items each written
  exact ⟨_, restored_array (by simp [children]) rfl trivial⟩

theorem readsBack_map {entries : List (Option Datum × Datum)}
    (each : ∀ entry ∈ entries, entry.2.ReadsBack) : (map entries).ReadsBack := by
  intro text encodes
  rw [text?_map] at encodes
  obtain ⟨table, written, rfl⟩ := Option.map_eq_some_iff.mp encodes
  obtain ⟨pieces, ordered, rfl, found⟩ :=
    @exists_pieces_of_entries entries [] table each Table.Ordered.nil written
  refine ⟨_, restored_object ordered (fun child => ?_) rfl trivial⟩
  rw [found]
  simp [children, Table.values]

theorem readsBack_record {fields : List (String × Datum)}
    (each : ∀ field ∈ fields, field.2.ReadsBack) : (record fields).ReadsBack := by
  intro text encodes
  rw [text?_record] at encodes
  have whole : (map (asEntries fields)).ReadsBack := readsBack_map (List.forall_mem_map.mpr each)
  obtain ⟨value, restored⟩ := whole text encodes
  have inside : (map (asEntries fields)).children = (record fields).children := by
    simp [children, asEntries]
  refine ⟨value, restored.congr (fun depth => ?_) ?_⟩
  · rw [within_iff, @within_iff depth (record fields), inside]
    rfl
  · rw [everywhere_iff, @everywhere_iff Rereads (record fields), inside]
    rfl

section

variable {datum inner : Datum}

theorem readsBack_of_none (refused : datum.text? = none) : datum.ReadsBack := by
  intro text encodes
  rw [refused] at encodes
  cases encodes

theorem readsBack_of_encode {written : List Char} (encodes : datum.encode = .ok written)
    (restored : ∃ value, Restored datum written value) : datum.ReadsBack := by
  intro text other
  rw [text?, encodes] at other
  obtain rfl := Option.some.inj other
  exact restored

theorem readsBack_string {s : String} (encodes : datum.encode = .ok (quote s))
    (flat : datum.levels = 0) (none : datum.children = []) (rereads : datum.Rereads) :
    datum.ReadsBack :=
  readsBack_of_encode encodes ⟨_, restored_string flat none rereads⟩

theorem readsBack_around (inside : inner.ReadsBack) (same : datum.text? = inner.text?)
    (flat : datum.levels = 0) (single : datum.children = [inner]) (rereads : datum.Rereads) :
    datum.ReadsBack := by
  intro text encodes
  obtain ⟨value, restored⟩ := inside text (same.symm.trans encodes)
  exact ⟨value, restored.around flat single rereads⟩

theorem readsBack_variant (name : String) (inside : inner.ReadsBack) :
    (variant name inner).ReadsBack := by
  intro text encodes
  rw [text?_variant] at encodes
  obtain ⟨written, here, rfl⟩ := Option.map_eq_some_iff.mp encodes
  obtain ⟨value, restored⟩ := inside written here
  exact ⟨_, restored.variant name⟩

theorem readsBack_unfold {name : String} (whole : (variant name inner).ReadsBack)
    (same : datum.text? = (variant name inner).text?) (two : datum.levels = 2)
    (one : inner.levels = 1) (inside : datum.children = inner.children)
    (rereads : datum.Rereads) (rereadsInner : inner.Rereads) : datum.ReadsBack := by
  intro text encodes
  obtain ⟨value, restored⟩ := whole text (same.symm.trans encodes)
  exact ⟨value, restored.unfold two one inside rereads rereadsInner⟩

end

theorem readsBack_bool (b : Bool) : (bool b).ReadsBack := by
  have opens : OpensValue ((Json.bool b).writeWith Number.canonicalChars) :=
    opensValue_canonical _
  cases b with
  | true =>
      exact readsBack_of_encode (by simp only [encode, Json.writeWith]) ⟨.bool true,
        restored_leaf rfl rfl (readsAs_bool true) opens rfl (readsAs_bool true) rfl
          (iff_of_true rfl trivial)⟩
  | false =>
      exact readsBack_of_encode (by simp only [encode, Json.writeWith]) ⟨.bool false,
        restored_leaf rfl rfl (readsAs_bool false) opens rfl (readsAs_bool false) rfl
          (iff_of_true rfl trivial)⟩

theorem readsBack (datum : Datum) : datum.ReadsBack := by
  induction datum using childwise with
  | step datum ih => ?_
  cases datum with
  | bool b => exact readsBack_bool b
  | integer n inRange =>
      exact readsBack_of_encode (by simp only [encode]) (restored_integer inRange)
  | float x =>
      cases x with
      | nan => exact readsBack_of_none rfl
      | infinity negative => exact readsBack_of_none rfl
      | finite x => exact readsBack_of_encode (by simp only [encode]) (restored_float x)
  | char c => exact readsBack_string (s := .ofList [c]) (by simp only [encode]) rfl rfl trivial
  | text s => exact readsBack_string (s := s) (by simp only [encode]) rfl rfl trivial
  | bytes octets =>
      cases decodes : Utf8.decode octets with
      | ok s => exact readsBack_string (s := s) (by simp only [encode, decodes]) rfl rfl trivial
      | error broken =>
          exact readsBack_of_none (by simp [text?, encode, decodes, Except.toOption])
  | absent =>
      exact readsBack_of_encode (by simp only [encode]) ⟨_, restored_null rfl rfl trivial⟩
  | unit => exact readsBack_of_encode (by simp only [encode]) ⟨_, restored_null rfl rfl trivial⟩
  | unitVariant s => exact readsBack_string (s := s) (by simp only [encode]) rfl rfl trivial
  | present inner =>
      have same : (present inner).text? = inner.text? := by simp only [text?, encode]
      exact readsBack_around (ih inner List.mem_cons_self) same rfl rfl trivial
  | wrapped inner =>
      have same : (wrapped inner).text? = inner.text? := by simp only [text?, encode]
      exact readsBack_around (ih inner List.mem_cons_self) same rfl rfl trivial
  | variant name inner => exact readsBack_variant name (ih inner List.mem_cons_self)
  | sequence items => exact readsBack_sequence ih
  | sequenceVariant name items =>
      have same : (sequenceVariant name items).text? = (variant name (sequence items)).text? := by
        rw [text?_sequenceVariant, text?_variant, text?_sequence, Option.map_map]
        rfl
      have whole := readsBack_variant name (readsBack_sequence ih)
      exact readsBack_unfold whole same rfl rfl rfl trivial trivial
  | map entries => exact readsBack_map (List.forall_mem_map.mp ih)
  | record fields => exact readsBack_record (List.forall_mem_map.mp ih)
  | recordVariant name fields =>
      have same : (recordVariant name fields).text? = (variant name (record fields)).text? := by
        rw [text?_recordVariant, text?_variant, text?_record]
      have whole := readsBack_variant name (readsBack_record (List.forall_mem_map.mp ih))
      exact readsBack_unfold whole same rfl rfl rfl trivial trivial
  | fault message => exact readsBack_of_none rfl

/-! ### Values -/

theorem toValue_of_reads {datum : Datum} {text : List Char} {value : Json}
    (encodes : datum.encode = .ok text) (reads : ReadsAs text (Document.ofJson value))
    (normal : value.Normal) (shallow : (Document.ofJson value).nesting ≤ Json.maxDepth) :
    datum.toValue = .ok value := by
  have read : Document.ofText (String.ofList text) = (Document.ofJson value, true) := by
    rw [Document.ofText, String.toList_ofList, ofChars_of_readsAs reads]
  have parsed : Json.parse? (String.ofList text) = some value := by
    rw [Json.parse?_of_ofText read, if_pos shallow, normal]
  simp only [toValue, canonical, encodes, bind, Except.bind, parsed]

section

variable {datum : Datum} {text : List Char} {value : Json} (restored : Restored datum text value)

include restored

theorem Restored.canonicalChars_eq : value.canonicalChars = value.writeWith Number.canonicalChars := by
  rw [Json.canonicalChars, restored.normal]

theorem Restored.encode_value : (ofJson value).encode = .ok value.canonicalChars := by
  conv_lhs => rw [← restored.normal]
  exact encode_ofJson value

variable (shallow : datum.Within Json.maxDepth)

include shallow

theorem Restored.toValue (encodes : datum.encode = .ok text) : datum.toValue = .ok value :=
  toValue_of_reads encodes restored.reads restored.normal ((restored.nesting _).mpr shallow)

theorem Restored.toValue_value : (ofJson value).toValue = .ok value :=
  toValue_of_reads restored.encode_value (restored.canonicalChars_eq ▸ restored.again)
    restored.normal ((restored.nesting _).mpr shallow)

end

end Datum

end AuditTrail
