import AuditTrail.Json.Document
import AuditTrail.Json.Printer
import Mathlib.Data.String.Basic

/-!
Quoted strings read back. A reader finds one piece of text for every character, whichever way it is
escaped, and stops at the closing quote, so a quoted string can be told from what follows it.
-/

namespace AuditTrail

namespace Document

def StandsFor (text : List Char) (c : Char) : Prop :=
  ∃ piece : Piece,
    (∀ rest, pieces? (text ++ rest) =
      (pieces? rest).map fun (pieces, rest) => (piece :: pieces, rest)) ∧
    ∀ pieces, joinPieces (piece :: pieces) = (joinPieces pieces).map (c :: ·)

theorem standsFor_simple {letter c : Char} (known : simpleEscape? letter = some c) :
    StandsFor ['\\', letter] c := by
  have notUnit : letter ≠ 'u' := by
    rintro rfl
    cases known
  refine ⟨.char c, fun rest => ?_, fun pieces => by simp [joinPieces]⟩
  simp [pieces?, notUnit, known]

theorem hexUnit?_four {n : Nat} (bound : n < 0x20) :
    hexUnit? (Hex.digit (n / 4096 % 16)) (Hex.digit (n / 256 % 16)) (Hex.digit (n / 16 % 16))
      (Hex.digit (n % 16)) = some n := by
  revert n
  decide

theorem joinPieces_unit {n : Nat} (control : n < 0x20) (pieces : List Piece) :
    joinPieces (.unit n :: pieces) = (joinPieces pieces).map (Char.ofNat n :: ·) := by
  have notHigh : isHighSurrogate n = false := by simp [isHighSurrogate]; omega
  have notLow : isLowSurrogate n = false := by simp [isLowSurrogate]; omega
  cases pieces with
  | nil => simp [joinPieces, notHigh, notLow]
  | cons piece rest => cases piece <;> simp [joinPieces, notHigh, notLow]

theorem standsFor_control {c : Char} (control : c.toNat < 0x20) :
    StandsFor ('\\' :: 'u' :: Hex.four c.toNat) c := by
  refine ⟨.unit c.toNat, fun rest => ?_, fun pieces => ?_⟩
  · simp [pieces?, Hex.four, hexUnit?_four control]
  · rw [joinPieces_unit control, Char.ofNat_toNat]

theorem standsFor_escapeChar (c : Char) : StandsFor (escapeChar c) c := by
  unfold escapeChar
  split
  · exact standsFor_simple (by subst c; rfl)
  split
  · exact standsFor_simple (by subst c; rfl)
  split
  · exact standsFor_simple (by subst c; rfl)
  split
  · exact standsFor_simple (by subst c; rfl)
  split
  · exact standsFor_simple (by subst c; rfl)
  split
  · exact standsFor_simple (by subst c; rfl)
  split
  · exact standsFor_simple (by subst c; rfl)
  split
  · rename_i control
    exact standsFor_control control
  · rename_i _ backslash _ _ _ _ _ printable
    refine ⟨.char c, fun rest => ?_, fun pieces => by simp [joinPieces]⟩
    simp [pieces?, backslash, printable]

theorem pieces?_escaped (text rest : List Char) :
    ∃ pieces, pieces? (text.flatMap escapeChar ++ '"' :: rest) = some (pieces, rest) ∧
      joinPieces pieces = some text := by
  induction text with
  | nil => exact ⟨[], by simp [pieces?], rfl⟩
  | cons c text ih =>
      obtain ⟨pieces, read, joined⟩ := ih
      obtain ⟨piece, reads, joins⟩ := standsFor_escapeChar c
      refine ⟨piece :: pieces, ?_, ?_⟩
      · rw [List.flatMap_cons, List.append_assoc, reads, read]
        rfl
      · rw [joins, joined]
        rfl

theorem string?_escaped (text : String) (rest : List Char) :
    string? (text.toList.flatMap escapeChar ++ '"' :: rest) = some (some text, rest) := by
  obtain ⟨pieces, read, joined⟩ := pieces?_escaped text.toList rest
  simp [string?, read, joined]

end Document

theorem quote_append (text : String) (rest : List Char) :
    quote text ++ rest = '"' :: (text.toList.flatMap escapeChar ++ '"' :: rest) := by
  simp [quote]

/-- What follows a quoted string cannot change which string it is. -/
theorem quote_append_inj {text other : String} {rest more : List Char}
    (same : quote text ++ rest = quote other ++ more) : text = other ∧ rest = more := by
  rw [quote_append, quote_append, List.cons_inj_right] at same
  have read := Document.string?_escaped text rest
  rw [same, Document.string?_escaped] at read
  simpa [eq_comm] using read

end AuditTrail
