import AuditTrail.Proofs.Json.Same
import AuditTrail.Proofs.Replay.Alignment
import Mathlib.Data.List.Flatten

/-!
What a check of a value depends on: the rules that cover its place, and for an object the checks of
its fields. Rules that are added only take differences away.
-/

namespace AuditTrail

/-- Induction on a matcher that gives its hypothesis for every field of an object. -/
theorem Matcher.structural {Holds : Matcher → Prop} (literal : ∀ value, Holds (.literal value))
    (present : ∀ wanted, Holds (.present wanted))
    (pattern : ∀ source regex, Holds (.pattern source regex))
    (every : ∀ children, (∀ child ∈ children, Holds child.2) → Holds (.every children)) :
    ∀ matcher, Holds matcher
  | .literal value => literal value
  | .present wanted => present wanted
  | .pattern source regex => pattern source regex
  | .every children =>
    every children fun child _member => structural literal present pattern every child.2
termination_by matcher => sizeOf matcher
decreasing_by
  have smaller := List.sizeOf_lt_of_mem _member
  have part : sizeOf child.2 < sizeOf child := by cases child; simp
  simp only [Matcher.every.sizeOf_spec]
  omega

theorem PathRule.covers_mono {rules more : List PathRule} (added : rules ⊆ more) {path : String}
    (covered : covers rules path = true) : covers more path = true := by
  simp only [covers, List.any_eq_true] at covered ⊢
  obtain ⟨ancestor, begins, rule, member, selected⟩ := covered
  exact ⟨ancestor, begins, rule, added member, selected⟩

namespace ReplayEngine

variable {engine looser : ReplayEngine}

theorem checkChildren_eq_flatMap (engine : ReplayEngine) (place : String)
    (fields : List (String × Json)) (children : List (String × Matcher)) :
    engine.checkChildren place fields children = children.flatMap fun child =>
      engine.check (Path.join place child.1) child.2 (Table.find? child.1 fields) := by
  induction children with
  | nil => rfl
  | cons child rest ih => rw [checkChildren, ih, List.flatMap_cons]

theorem check_of_ignored {place : String} (ignored : engine.isIgnored place = true)
    (matcher : Matcher) (actual : Option Json) : engine.check place matcher actual = [] := by
  cases matcher <;> simp [check, ignored]

/-! ### More rules -/

structure HasRulesOf (looser engine : ReplayEngine) : Prop where
  ignored : engine.ignored ⊆ looser.ignored
  normalized : engine.normalized ⊆ looser.normalized

theorem HasRulesOf.isIgnored (more : looser.HasRulesOf engine) {place : String}
    (ignored : engine.isIgnored place = true) : looser.isIgnored place = true :=
  PathRule.covers_mono more.ignored ignored

theorem HasRulesOf.literalHolds (more : looser.HasRulesOf engine) {place : String}
    {expected actual : Json} (holds : engine.literalHolds place expected actual = true) :
    looser.literalHolds place expected actual = true := by
  unfold ReplayEngine.literalHolds at holds ⊢
  split at holds
  · rename_i covered
    rwa [if_pos (PathRule.covers_mono more.normalized covered)]
  · split
    · exact Normalize.same_value holds
    · exact holds

theorem ite_nil_sublist {α : Type} {p q : Prop} [Decidable p] [Decidable q] (implies : q → p)
    (items : List α) : (if p then [] else items).Sublist (if q then [] else items) := by
  split
  · exact List.nil_sublist _
  · rename_i not
    rw [if_neg (not ∘ implies)]

/-- With more rules a check finds some of the former differences, and no others. -/
theorem HasRulesOf.check_sublist (more : looser.HasRulesOf engine) (place : String)
    (matcher : Matcher) (actual : Option Json) :
    (looser.check place matcher actual).Sublist (engine.check place matcher actual) := by
  induction matcher using Matcher.structural generalizing place actual with
  | literal value =>
      simp only [check, Bool.or_eq_true]
      refine ite_nil_sublist (Or.imp more.isIgnored fun holds => ?_) _
      obtain ⟨found, rfl, same⟩ := (Option.any_eq_true _ _).mp holds
      exact (Option.any_eq_true _ _).mpr ⟨found, rfl, more.literalHolds same⟩
  | present wanted =>
      simp only [check, Bool.or_eq_true]
      exact ite_nil_sublist (Or.imp more.isIgnored id) _
  | pattern source regex =>
      simp only [check, Bool.or_eq_true]
      exact ite_nil_sublist (Or.imp more.isIgnored id) _
  | every children each =>
      simp only [check]
      split
      · exact List.nil_sublist _
      · rename_i covered
        rw [if_neg (covered ∘ more.isIgnored)]
        split
        · rw [checkChildren_eq_flatMap, checkChildren_eq_flatMap]
          exact .flatMap_right _ fun child member => each child member _ _
        · exact .refl _

end ReplayEngine

end AuditTrail
