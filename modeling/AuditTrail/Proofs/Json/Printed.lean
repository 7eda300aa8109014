import AuditTrail.Proofs.Json.Spelling

/-!
Written text holds no control character, whatever a value holds, so it stands on one line.
-/

namespace AuditTrail

def Printable (text : List Char) : Prop :=
  ∀ c ∈ text, 0x20 ≤ c.toNat

section

variable {text other : List Char}

theorem Printable.append (first : Printable text) (second : Printable other) :
    Printable (text ++ other) :=
  List.forall_mem_append.mpr ⟨first, second⟩

theorem Printable.cons {c : Char} (plain : 0x20 ≤ c.toNat) (later : Printable text) :
    Printable (c :: text) :=
  List.forall_mem_cons.mpr ⟨plain, later⟩

theorem Printable.nil : Printable [] := by
  simp [Printable]

theorem Printable.of_subset (plain : Printable text) (part : other ⊆ text) : Printable other :=
  fun c member => plain c (part member)

theorem printable_flatMap {α : Type} {write : α → List Char} {items : List α}
    (each : ∀ item ∈ items, Printable (write item)) : Printable (items.flatMap write) := by
  intro c member
  obtain ⟨item, inItems, written⟩ := List.mem_flatMap.mp member
  exact each item inItems c written

end

theorem printable_digits (n : Nat) : Printable (Nat.toDigits 10 n) := by
  intro c member
  have digit := Nat.isDigit_of_mem_toDigits (by decide) (by decide) member
  simp only [Char.isDigit, Bool.and_eq_true, decide_eq_true_eq] at digit
  have low : '0'.val.toNat ≤ c.val.toNat := UInt32.le_iff_toNat_le.mp digit.1
  exact le_trans (by decide) low

theorem printable_four (n : Nat) : Printable (Hex.four n) := by
  have digit : ∀ k < 16, 0x20 ≤ (Hex.digit k).toNat := by decide
  have single (m : Nat) : 0x20 ≤ (Hex.digit (m % 16)).toNat := digit _ (Nat.mod_lt _ (by decide))
  exact .cons (single _) (.cons (single _) (.cons (single _) (.cons (single _) .nil)))

theorem printable_escapeChar (c : Char) : Printable (escapeChar c) := by
  unfold escapeChar
  have simple {letter : Char} (plain : 0x20 ≤ letter.toNat) : Printable ['\\', letter] :=
    .cons (by decide) (.cons plain .nil)
  repeat' split
  any_goals exact simple (by decide)
  · exact .cons (by decide) (.cons (by decide) (printable_four _))
  · rename_i high
    exact .cons (Nat.not_lt.mp high) .nil

theorem printable_quote (text : String) : Printable (quote text) :=
  (Printable.cons (by decide) (printable_flatMap fun c _ => printable_escapeChar c)).append
    (.cons (by decide) .nil)

theorem printable_decimalChars (n : Int) : Printable (decimalChars n) := by
  unfold decimalChars
  split
  · exact .cons (by decide) (printable_digits _)
  · exact printable_digits _

theorem printable_zeros (count : Nat) : Printable (List.replicate count '0') := by
  intro c member
  rw [List.eq_of_mem_replicate member]
  decide

theorem printable_positional (d : Decimal) : Printable d.positional := by
  have digits := printable_digits d.digits
  unfold Decimal.positional
  dsimp only
  split
  · exact digits.append (printable_zeros _)
  split
  · exact (digits.of_subset (List.take_subset _ _)).append
      (.cons (by decide) (digits.of_subset (List.drop_subset _ _)))
  · exact .cons (by decide) (.cons (by decide) ((printable_zeros _).append digits))

theorem printable_scientific (d : Decimal) : Printable d.scientific := by
  have digits := printable_digits d.digits
  unfold Decimal.scientific
  dsimp only
  refine Printable.append ?_ (.cons (by decide) (.cons ?_ (printable_digits _)))
  · cases written : Nat.toDigits 10 d.digits with
    | nil => exact .nil
    | cons digit rest =>
        rw [written] at digits
        obtain ⟨first, later⟩ := List.forall_mem_cons.mp digits
        cases rest with
        | nil => exact digits
        | cons next rest => exact .cons first (.cons (by decide) later)
  · split <;> decide

theorem Number.printable_jsonChars (n : Number) : Printable n.jsonChars := by
  cases n with
  | int n _ => exact printable_decimalChars n
  | float x =>
      unfold jsonChars Binary64.jsonChars
      have sign : Printable (if x.negative then ['-'] else []) := by
        split
        · exact .cons (by decide) .nil
        · exact .nil
      dsimp only
      split
      · exact sign.append (by simp [Printable])
      split
      · refine (sign.append (printable_positional _)).append ?_
        split <;> simp [Printable]
      · exact sign.append (printable_scientific _)

theorem printable_joinItems {items : List (List Char)} (each : ∀ item ∈ items, Printable item) :
    Printable (Canonical.joinItems items) := by
  induction items with
  | nil => exact .nil
  | cons item rest ih =>
      have first := each item List.mem_cons_self
      have later := ih fun other member => each other (List.mem_cons_of_mem _ member)
      cases rest with
      | nil => exact first
      | cons next rest => exact first.append (.cons (by decide) later)

namespace Json

theorem printable_writeWith (value : Json) : Printable (value.writeWith Number.jsonChars) := by
  induction value using structural with
  | null => simp [writeWith, Printable]
  | bool b => cases b <;> simp [writeWith, Printable]
  | number n => exact n.printable_jsonChars
  | string s => exact printable_quote s
  | array items each =>
      rw [writeWith, writeItems_eq_joinItems]
      refine Printable.append (.cons (by decide) (printable_joinItems ?_)) (.cons (by decide) .nil)
      simpa using each
  | object fields each =>
      rw [writeWith, writeFields_eq_joinItems]
      refine Printable.append (.cons (by decide) (printable_joinItems ?_)) (.cons (by decide) .nil)
      intro text member
      obtain ⟨field, inFields, rfl⟩ := List.mem_map.mp member
      exact (printable_quote field.1).append (.cons (by decide) (each field inFields))

end Json

end AuditTrail
