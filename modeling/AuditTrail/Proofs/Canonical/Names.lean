import AuditTrail.Proofs.Canonical.Reordered
import AuditTrail.Proofs.Text.Utf8

/-!
Strings in canonical text, as octets and as names. The octets of a quoted string show where it
ends, whatever octets follow, and as a key it is read back as itself. So a map is refused if two of
its keys are one name, and otherwise its object holds every entry under its own name.
-/

namespace AuditTrail

theorem Utf8.isPrefix_of_encodeChars {text other : List Char}
    (front : encodeChars text <+: encodeChars other) : text <+: other := by
  obtain ⟨rest, whole⟩ := front
  refine List.isPrefix_of_utf8Encode_append_eq_utf8Encode rest.toByteArray ?_
  rw [List.utf8Encode, List.utf8Encode, ← List.toByteArray_append]
  exact congrArg List.toByteArray whole

theorem eq_of_quote_isPrefix {text other : String} (front : quote text <+: quote other) :
    text = other := by
  obtain ⟨rest, whole⟩ := front
  rw [← List.append_nil (quote other)] at whole
  exact (quote_append_inj whole).1

theorem encodeChars_quote_append_iff (text other : String) (rest more : List UInt8) :
    Utf8.encodeChars (quote text) ++ rest = Utf8.encodeChars (quote other) ++ more ↔
      text = other ∧ rest = more := by
  constructor
  · intro same
    have front := List.prefix_append (Utf8.encodeChars (quote text)) rest
    rw [same] at front
    -- Of two prefixes one is a prefix of the other, which no two quoted strings are.
    obtain rfl : text = other := by
      rcases List.prefix_or_prefix_of_prefix front (List.prefix_append _ more) with
        shorter | longer
      · exact eq_of_quote_isPrefix (Utf8.isPrefix_of_encodeChars shorter)
      · exact (eq_of_quote_isPrefix (Utf8.isPrefix_of_encodeChars longer)).symm
    exact ⟨rfl, List.append_cancel_left same⟩
  · rintro ⟨rfl, rfl⟩
    rfl

namespace Datum

open Canonical

/-- An entry adds to an object the name that its key is read as, with the text of its value. -/
def Offers (entry : Option Datum × Datum) (pair : String × List Char) : Prop :=
  (∃ key written, entry.1 = some key ∧ key.encode = .ok written ∧
    decodeKey written = .ok pair.1) ∧ entry.2.encode = .ok pair.2

theorem pair?_eq_some_iff_offers {entry : Option Datum × Datum} {pair : String × List Char} :
    pair? entry = some pair ↔ Offers entry pair := by
  obtain ⟨key, value⟩ := entry
  obtain ⟨name, text⟩ := pair
  cases key with
  | none => simp [pair?, Offers]
  | some key =>
      simp only [pair?, Offers, text?, Option.bind_eq_bind, Option.pure_def,
        Option.bind_eq_some_iff, Except.toOption_eq_some_iff, Option.some.injEq, Prod.mk.injEq]
      constructor
      · rintro ⟨written, encodes, _, decodes, _, own, rfl, rfl⟩
        exact ⟨⟨key, written, rfl, encodes, decodes⟩, own⟩
      · rintro ⟨⟨_, written, rfl, encodes, decodes⟩, own⟩
        exact ⟨written, encodes, name, decodes, text, own, rfl, rfl⟩

theorem foldlM_step?_eq_some_iff {entries : List (Option Datum × Datum)}
    {table added : Table (List Char)} : entries.foldlM step? table = some added ↔
      ∃ pairs, entries.Forall₂ Offers pairs ∧ pairs.foldlM add? table = some added := by
  induction entries generalizing table with
  | nil => simp
  | cons entry rest ih =>
      simp only [List.foldlM_cons, step?, Option.bind_eq_bind, Option.bind_assoc,
        Option.bind_eq_some_iff, ih, pair?_eq_some_iff_offers, List.forall₂_cons_left_iff]
      constructor
      · rintro ⟨pair, offers, middle, adds, pairs, each, later⟩
        exact ⟨pair :: pairs, ⟨pair, pairs, offers, each, rfl⟩,
          Option.bind_eq_some_iff.mpr ⟨middle, adds, later⟩⟩
      · rintro ⟨_, ⟨pair, pairs, offers, each, rfl⟩, folded⟩
        obtain ⟨middle, adds, later⟩ := Option.bind_eq_some_iff.mp folded
        exact ⟨pair, offers, middle, adds, pairs, each, later⟩

theorem grown_of_foldlM_add? {pairs : List (String × List Char)} {table added : Table (List Char)}
    (ordered : table.Ordered) (folded : pairs.foldlM add? table = some added) :
    added.Ordered ∧ added.Perm (pairs ++ table) := by
  induction pairs generalizing table with
  | nil =>
      cases folded
      exact ⟨ordered, .refl _⟩
  | cons pair rest ih =>
      obtain ⟨middle, adds, later⟩ := Option.bind_eq_some_iff.mp folded
      obtain ⟨still, grown⟩ := ih (ordered_of_add? ordered adds) later
      obtain ⟨fresh, rfl⟩ := add?_eq_some_iff.mp adds
      have placed := (Table.insert_perm pair.2 fresh).append_left rest
      exact ⟨still, grown.trans (placed.trans List.perm_middle)⟩

theorem foldlM_add?_nil_iff {pairs : List (String × List Char)} {added : Table (List Char)} :
    pairs.foldlM add? [] = some added ↔
      (pairs.map Prod.fst).Nodup ∧ added.Ordered ∧ added.Perm pairs := by
  constructor
  · intro folded
    obtain ⟨ordered, kept⟩ := grown_of_foldlM_add? .nil folded
    rw [List.append_nil] at kept
    exact ⟨(kept.map Prod.fst).nodup_iff.mp ordered.distinct, ordered, kept⟩
  · rintro ⟨distinct, ordered, kept⟩
    have folded : pairs.foldlM add? [] = _ := foldlM_add? distinct fun _ _ => rfl
    obtain ⟨sorted, whole⟩ := grown_of_foldlM_add? .nil folded
    rw [List.append_nil] at whole
    rw [folded, Option.some.injEq]
    exact (whole.trans kept.symm).eq_of_pairwise
      (fun _ _ _ _ before after => absurd after (lt_asymm before)) sorted ordered

theorem encode_map_eq_ok_iff {entries : List (Option Datum × Datum)} {written : List Char} :
    (map entries).encode = .ok written ↔ ∃ pairs, entries.Forall₂ Offers pairs ∧
      (pairs.map Prod.fst).Nodup ∧
      ∃ table : Table (List Char), table.Ordered ∧ table.Perm pairs ∧ written = braces table := by
  rw [← Except.toOption_eq_some_iff, ← text?, text?_map]
  simp only [Option.map_eq_some_iff, foldlM_step?_eq_some_iff, foldlM_add?_nil_iff]
  constructor
  · rintro ⟨table, ⟨pairs, each, distinct, ordered, kept⟩, rfl⟩
    exact ⟨pairs, each, distinct, table, ordered, kept, rfl⟩
  · rintro ⟨pairs, each, distinct, table, ordered, kept, rfl⟩
    exact ⟨table, ⟨pairs, each, distinct, ordered, kept⟩, rfl⟩

/-- A quoted string is told from whatever octets follow it, and as a key it is read back. So no two
strings are taken for one name: a map is written exactly if the names of its keys are pairwise
different, and then with all its entries, each under its name. -/
theorem names_told_apart :
    (∀ (text other : String) (rest more : List UInt8),
      Utf8.encodeChars (quote text) ++ rest = Utf8.encodeChars (quote other) ++ more ↔
        text = other ∧ rest = more) ∧
    (∀ name : String, decodeKey (quote name) = .ok name) ∧
    ∀ (entries : List (Option Datum × Datum)) (written : List Char),
      (map entries).encode = .ok written ↔ ∃ pairs, entries.Forall₂ Offers pairs ∧
        (pairs.map Prod.fst).Nodup ∧
        ∃ table : Table (List Char), table.Ordered ∧ table.Perm pairs ∧ written = braces table :=
  ⟨encodeChars_quote_append_iff, decodeKey_quote, fun _ _ => encode_map_eq_ok_iff⟩

end Datum

end AuditTrail
