import Mathlib.Data.String.Basic

/-!
Runs of decimal digits: where a reader stops, and the value of digits that were written.
-/

namespace AuditTrail

def Digits (text : List Char) : Prop :=
  ∀ c ∈ text, c.isDigit = true

def EndsDigits (rest : List Char) : Prop :=
  ∀ c ∈ rest.head?, c.isDigit = false

theorem endsDigits_cons {c : Char} (other : c.isDigit = false) (rest : List Char) :
    EndsDigits (c :: rest) := by
  simpa [EndsDigits] using other

theorem endsDigits_nil : EndsDigits [] := by
  simp [EndsDigits]

theorem EndsDigits.take {rest : List Char} (ends : EndsDigits rest) (count : Nat) :
    EndsDigits (rest.take count) := by
  intro c first
  rw [List.head?_take] at first
  split at first
  · cases first
  · exact ends c first

section

variable {text rest : List Char}

theorem Digits.append (first : Digits text) (second : Digits rest) : Digits (text ++ rest) :=
  List.forall_mem_append.mpr ⟨first, second⟩

theorem Digits.takeWhile_append (digits : Digits text) (ends : EndsDigits rest) :
    (text ++ rest).takeWhile Char.isDigit = text := by
  rw [List.takeWhile_append_of_pos digits]
  cases rest with
  | nil => simp
  | cons c rest => simp [ends c (by simp)]

theorem Digits.dropWhile_append (digits : Digits text) (ends : EndsDigits rest) :
    (text ++ rest).dropWhile Char.isDigit = rest := by
  rw [List.dropWhile_append_of_pos digits]
  cases rest with
  | nil => simp
  | cons c rest => simp [ends c (by simp)]

end

theorem digits_toDigits (n : Nat) : Digits (Nat.toDigits 10 n) :=
  fun _ member => Nat.isDigit_of_mem_toDigits (by decide) (by decide) member

theorem digits_zeros (count : Nat) : Digits (List.replicate count '0') := by
  intro c member
  rw [List.eq_of_mem_replicate member]
  decide

theorem head?_toDigits {n : Nat} (positive : 0 < n) : (Nat.toDigits 10 n).head? ≠ some '0' := by
  induction n using Nat.strong_induction_on with
  | _ n ih =>
      rw [Nat.toDigits_eq_if (by decide)]
      split
      · simp only [List.head?_cons, ne_eq, Option.some.injEq, Nat.digitChar_eq_zero]
        omega
      · have shorter := ih (n / 10) (by omega) (by omega)
        rwa [List.head?_append_of_ne_nil _ Nat.toDigits_ne_nil]

end AuditTrail
