import AuditTrail.Canonical.Datum

/-!
What stands inside a datum, down to any depth. The keys of a map are not parts of it: they are
written as names.
-/

namespace AuditTrail.Datum

def children : Datum → List Datum
  | .present datum | .wrapped datum | .variant _ datum => [datum]
  | .sequence items | .sequenceVariant _ items => items
  | .map entries => entries.map Prod.snd
  | .record fields | .recordVariant _ fields => fields.map Prod.snd
  | _ => []

inductive Part : Datum → Datum → Prop
  | refl (datum : Datum) : Part datum datum
  | inside {part child datum : Datum} : Part part child → child ∈ datum.children → Part part datum

def Everywhere (Holds : Datum → Prop) (datum : Datum) : Prop :=
  ∀ part, Part part datum → Holds part

theorem everywhere_iff {Holds : Datum → Prop} {datum : Datum} : datum.Everywhere Holds ↔
    Holds datum ∧ ∀ child ∈ datum.children, child.Everywhere Holds := by
  constructor
  · exact fun all => ⟨all datum (.refl datum),
      fun child member part inside => all part (.inside inside member)⟩
  · rintro ⟨here, below⟩ part inside
    cases inside with
    | refl => exact here
    | inside inside member => exact below _ member part inside

theorem sizeOf_lt_of_mem_children {child datum : Datum} (member : child ∈ datum.children) :
    sizeOf child < sizeOf datum := by
  cases datum with
  | present inner | wrapped inner | variant name inner =>
      obtain rfl := List.mem_singleton.mp member
      simp only [present.sizeOf_spec, wrapped.sizeOf_spec, variant.sizeOf_spec]
      omega
  | sequence items | sequenceVariant name items =>
      have smaller : sizeOf child < sizeOf items := List.sizeOf_lt_of_mem member
      simp only [sequence.sizeOf_spec, sequenceVariant.sizeOf_spec]
      omega
  | map entries =>
      obtain ⟨entry, found, rfl⟩ := List.mem_map.mp member
      have smaller := List.sizeOf_lt_of_mem found
      have part : sizeOf entry.2 < sizeOf entry := by
        cases entry
        simp only [Prod.mk.sizeOf_spec]
        omega
      simp only [map.sizeOf_spec]
      omega
  | record fields | recordVariant name fields =>
      obtain ⟨field, found, rfl⟩ := List.mem_map.mp member
      have smaller := List.sizeOf_lt_of_mem found
      have part : sizeOf field.2 < sizeOf field := by
        cases field
        simp only [Prod.mk.sizeOf_spec]
        omega
      simp only [record.sizeOf_spec, recordVariant.sizeOf_spec]
      omega
  | _ => exact absurd member List.not_mem_nil

/-- Induction that gives its hypothesis for everything directly inside a datum. -/
theorem childwise {Holds : Datum → Prop}
    (step : ∀ datum : Datum, (∀ child ∈ datum.children, Holds child) → Holds datum)
    (datum : Datum) : Holds datum :=
  step datum fun child _member => childwise step child
termination_by sizeOf datum
decreasing_by exact sizeOf_lt_of_mem_children _member

end AuditTrail.Datum
