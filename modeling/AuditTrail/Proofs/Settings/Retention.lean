import AuditTrail.Settings.Retention
import Mathlib.Data.List.Infix
import Mathlib.Data.List.Induction

/-!
Which events have outlived their retention. The rule that decides on a type is the one with the
longest prefix that covers it, the last one among equals, and an event has expired once as many
seconds have passed since it was stored as that rule keeps it.
-/

namespace AuditTrail

/-! ### Time that passes is never near the limit of a number of seconds -/

theorem daysInMonth_le (year : Int) (month : Nat) : daysInMonth year month ≤ 31 := by
  unfold daysInMonth
  split_ifs <;> simp

theorem Date.daysBeforeMonth_le (year : Int) (month : Nat) :
    daysBeforeMonth year month ≤ 31 * month := by
  induction month using daysBeforeMonth.induct with
  | case1 => simp [daysBeforeMonth]
  | case2 => simp [daysBeforeMonth]
  | case3 month _ ih =>
      have length := daysInMonth_le year month
      simp only [daysBeforeMonth]
      omega

theorem Date.dayNumber_bounds (date : Date) :
    -100000000 ≤ date.dayNumber ∧ date.dayNumber ≤ 100000000 := by
  have months := daysBeforeMonth_le date.year date.month
  have length := daysInMonth_le date.year date.month
  obtain ⟨low, high, _, december, _, day⟩ := date.valid
  simp only [dayNumber]
  omega

theorem Timestamp.secondsSince_lt (later earlier : Timestamp) :
    later.secondsSince earlier < Retention.maxSeconds := by
  have days := later.date.dayNumber_bounds
  have former := earlier.date.dayNumber_bounds
  have within := later.valid
  have before := earlier.valid
  have time : later.nanosWithinDay earlier ≤ 100000000000000 := by
    simp only [nanosWithinDay]
    split_ifs <;> omega
  refine Int.lt_of_le_of_lt (Int.tdiv_le_tdiv (by decide) ?_)
    (show (200000000 * 86400000000000 + 100000000000000 : Int).tdiv 1000000000 < _ by decide)
  omega

namespace Retention

/-! ### The rule that decides -/

def Covers (typePrefix eventType : String) : Prop :=
  ∃ rest, eventType = typePrefix ++ rest ∧
    (rest = "" ∨ typePrefix.toList.getLast? = some '.' ∨ rest.toList.head? = some '.')

theorem covers_iff {typePrefix eventType : String} :
    covers typePrefix.toList eventType.toList = true ↔ Covers typePrefix eventType := by
  simp only [covers, Bool.and_eq_true, List.isPrefixOf_iff_prefix, Bool.or_eq_true, beq_iff_eq,
    List.isEmpty_iff, or_assoc]
  constructor
  · rintro ⟨⟨rest, whole⟩, ends⟩
    rw [← whole, List.drop_left] at ends
    refine ⟨String.ofList rest, String.toList_inj.mp ?_, ?_⟩
    · rw [String.toList_append, String.toList_ofList, whole]
    · rw [String.toList_ofList]
      exact ends.imp_left fun none => by rw [none]
  · rintro ⟨rest, rfl, ends⟩
    rw [String.toList_append, List.drop_left]
    exact ⟨List.prefix_append _ _, ends.imp_left fun none => by rw [none, String.toList_empty]⟩

theorem utf8ByteSize_lt_append_iff (text more : String) :
    text.utf8ByteSize < (text ++ more).utf8ByteSize ↔ text.length < (text ++ more).length := by
  by_cases none : more = ""
  · simp [none]
  · have octets : 0 < more.utf8ByteSize := by
      rwa [Nat.pos_iff_ne_zero, ne_eq, String.utf8ByteSize_eq_zero_iff]
    have chars : 0 < more.length := by
      rwa [Nat.pos_iff_ne_zero, ne_eq, ← String.length_toList, List.length_eq_zero_iff,
        String.toList_eq_nil_iff]
    simp only [String.utf8ByteSize_append, String.length_append]
    omega

theorem utf8ByteSize_lt_iff {first second eventType : String} (covers : Covers first eventType)
    (other : Covers second eventType) :
    first.utf8ByteSize < second.utf8ByteSize ↔ first.length < second.length := by
  obtain ⟨rest, rfl, _⟩ := covers
  obtain ⟨more, same, _⟩ := other
  have chars := congrArg String.toList same
  rw [String.toList_append, String.toList_append, List.append_eq_append_iff] at chars
  rcases chars with ⟨extra, longer, _⟩ | ⟨extra, longer, _⟩
  · obtain rfl : second = first ++ String.ofList extra := by
      rw [← String.toList_inj, longer, String.toList_append, String.toList_ofList]
    exact utf8ByteSize_lt_append_iff first _
  · obtain rfl : first = second ++ String.ofList extra := by
      rw [← String.toList_inj, longer, String.toList_append, String.toList_ofList]
    rw [String.utf8ByteSize_append, String.length_append]
    omega

/-- The rule with the longest prefix that covers a type, the last one among equals. -/
def Governs (rules : List RetentionRule) (eventType : String) (rule : RetentionRule) : Prop :=
  ∃ before after, rules = before ++ rule :: after ∧ Covers rule.typePrefix eventType ∧
    (∀ other ∈ before, Covers other.typePrefix eventType →
      other.typePrefix.length ≤ rule.typePrefix.length) ∧
    ∀ other ∈ after, Covers other.typePrefix eventType →
      other.typePrefix.length < rule.typePrefix.length

section

variable {rules : List RetentionRule} {eventType : String} {rule other : RetentionRule}

theorem Governs.covers (governs : Governs rules eventType rule) :
    Covers rule.typePrefix eventType := by
  obtain ⟨_, _, _, own, _⟩ := governs
  exact own

theorem Governs.length_le (governs : Governs rules eventType rule) (member : other ∈ rules)
    (covers : Covers other.typePrefix eventType) :
    other.typePrefix.length ≤ rule.typePrefix.length := by
  obtain ⟨before, after, rfl, _, earlier, later⟩ := governs
  rcases List.mem_append.mp member with found | found
  · exact earlier other found covers
  · rcases List.mem_cons.mp found with rfl | found
    · exact Nat.le_refl _
    · exact Nat.le_of_lt (later other found covers)

theorem Governs.unique (governs : Governs rules eventType rule)
    (also : Governs rules eventType other) : rule = other := by
  obtain ⟨before, after, rfl, covers, earlier, later⟩ := governs
  obtain ⟨before', after', same, covers', earlier', later'⟩ := also
  rcases List.append_eq_append_iff.mp same with ⟨between, rfl, rest⟩ | ⟨between, rfl, rest⟩
  · cases between with
    | nil => exact (List.cons.inj rest).1
    | cons first between =>
        obtain ⟨rfl, rfl⟩ := List.cons.inj rest
        have shorter := later other (by simp) covers'
        have longer := earlier' rule (by simp) covers
        omega
  · cases between with
    | nil => exact ((List.cons.inj rest).1).symm
    | cons first between =>
        obtain ⟨rfl, rfl⟩ := List.cons.inj rest
        have shorter := later' rule (by simp) covers
        have longer := earlier other (by simp) covers'
        omega

theorem governs_concat (covers : Covers rule.typePrefix eventType)
    (longest : ∀ other ∈ rules, Covers other.typePrefix eventType →
      other.typePrefix.length ≤ rule.typePrefix.length) :
    Governs (rules ++ [rule]) eventType rule :=
  ⟨rules, [], rfl, covers, longest, by simp⟩

theorem Governs.concat (governs : Governs rules eventType rule)
    (shorter : Covers other.typePrefix eventType →
      other.typePrefix.length < rule.typePrefix.length) :
    Governs (rules ++ [other]) eventType rule := by
  obtain ⟨before, after, rfl, covers, earlier, later⟩ := governs
  refine ⟨before, after ++ [other], by simp, covers, earlier, fun another member => ?_⟩
  rcases List.mem_append.mp member with found | found
  · exact later another found
  · rw [List.mem_singleton.mp found]
    exact shorter

theorem ruleFor?_cases (rules : List RetentionRule) (eventType : String) :
    (ruleFor? rules eventType = none ∧ ∀ rule ∈ rules, ¬Covers rule.typePrefix eventType) ∨
    ∃ rule, ruleFor? rules eventType = some rule ∧ Governs rules eventType rule := by
  induction rules using List.reverseRecOn with
  | nil => exact Or.inl ⟨rfl, by simp⟩
  | append_singleton rules last ih =>
      have step : ruleFor? (rules ++ [last]) eventType =
          if Retention.covers last.typePrefix.toList eventType.toList then
            some (((ruleFor? rules eventType).map (longer · last)).getD last)
          else ruleFor? rules eventType := by
        simp only [ruleFor?, List.foldl_append, List.foldl_cons, List.foldl_nil]
      rw [step]
      by_cases covers : Covers last.typePrefix eventType
      · rw [if_pos (covers_iff.mpr covers)]
        rcases ih with ⟨none, uncovered⟩ | ⟨best, found, governs⟩
        · rw [none]
          exact Or.inr ⟨last, rfl, governs_concat covers fun other member covered =>
            absurd covered (uncovered other member)⟩
        · rw [found, Option.map_some, Option.getD_some, longer]
          split
          · rename_i shorter
            rw [utf8ByteSize_lt_iff covers governs.covers] at shorter
            exact Or.inr ⟨best, rfl, governs.concat fun _ => shorter⟩
          · rename_i longer
            rw [utf8ByteSize_lt_iff covers governs.covers] at longer
            exact Or.inr ⟨last, rfl, governs_concat covers fun other member covered =>
              (governs.length_le member covered).trans (Nat.not_lt.mp longer)⟩
      · rw [if_neg fun found => covers (covers_iff.mp found)]
        rcases ih with ⟨none, uncovered⟩ | ⟨best, found, governs⟩
        · refine Or.inl ⟨none, fun rule member => ?_⟩
          rcases List.mem_append.mp member with found | found
          · exact uncovered rule found
          · rw [List.mem_singleton.mp found]
            exact covers
        · exact Or.inr ⟨best, found, governs.concat fun covered => absurd covered covers⟩

theorem ruleFor?_eq_some_iff :
    ruleFor? rules eventType = some rule ↔ Governs rules eventType rule := by
  rcases ruleFor?_cases rules eventType with ⟨none, uncovered⟩ | ⟨best, found, governs⟩
  · rw [none]
    refine iff_of_false nofun fun governs => ?_
    have covers := governs.covers
    obtain ⟨before, after, rfl, _⟩ := governs
    exact uncovered rule (by simp) covers
  · rw [found, Option.some_inj]
    exact ⟨fun same => same ▸ governs, governs.unique⟩

end

/-- As many seconds have passed since an event was stored as the rule that governs it keeps it. -/
def Outlived (rules : List RetentionRule) (now : Timestamp) (event : SealedEvent) : Prop :=
  ∃ rule, Governs rules event.eventType rule ∧ rule.seconds ≤ now.secondsSince event.persistedAt

theorem isExpired_iff {rules : List RetentionRule} {now : Timestamp} {event : SealedEvent} :
    isExpired rules now event = true ↔ Outlived rules now event := by
  have short := now.secondsSince_lt event.persistedAt
  have limited (seconds : Nat) : min seconds maxSeconds ≤ now.secondsSince event.persistedAt ↔
      seconds ≤ now.secondsSince event.persistedAt := by omega
  unfold isExpired secondsFor? Outlived
  rcases ruleFor?_cases rules event.eventType with ⟨none, _⟩ | ⟨best, found, governs⟩
  · simp [none, ← ruleFor?_eq_some_iff]
  · simp only [found, Option.map_some, decide_eq_true_eq, limited]
    refine ⟨fun outlived => ⟨best, governs, outlived⟩, fun ⟨rule, same, outlived⟩ => ?_⟩
    exact governs.unique same ▸ outlived

end Retention

end AuditTrail
