import AuditTrail.Replay.Path
import Mathlib.Data.List.Infix

/-!
Paths by their segments. A path begins with another up to a dot exactly if its segments begin with
the other's, and a rule whose field has no pattern characters selects its own path alone.
-/

namespace AuditTrail

namespace Path

/-! ### Segments -/

theorem splitDots_ne_nil (text : List Char) : splitDots text ≠ [] := by
  cases text with
  | nil => simp [splitDots]
  | cons c text =>
      rw [splitDots]
      split
      · simp
      · split <;> simp

theorem splitDots_cons {c : Char} (notDot : c ≠ '.') (text : List Char) :
    ∃ part more, splitDots text = part :: more ∧ splitDots (c :: text) = (c :: part) :: more := by
  rw [splitDots, if_neg notDot]
  cases parts : splitDots text with
  | nil => exact absurd parts (splitDots_ne_nil text)
  | cons part more => exact ⟨part, more, rfl, rfl⟩

theorem splitDots_append (front back : List Char) :
    splitDots (front ++ '.' :: back) = splitDots front ++ splitDots back := by
  induction front with
  | nil => simp [splitDots]
  | cons c front ih =>
      by_cases dot : c = '.'
      · simp [splitDots, dot, ih]
      · obtain ⟨part, more, split, whole⟩ := splitDots_cons dot front
        rw [List.cons_append, splitDots, if_neg dot, ih, split, whole]
        rfl

theorem splitDots_of_undotted {text : List Char} (undotted : '.' ∉ text) :
    splitDots text = [text] := by
  induction text with
  | nil => rfl
  | cons c text ih =>
      simp only [List.mem_cons, not_or] at undotted
      rw [splitDots, if_neg (Ne.symm undotted.1), ih undotted.2]

theorem undotted_of_mem_splitDots {text part : List Char} (member : part ∈ splitDots text) :
    '.' ∉ part := by
  induction text generalizing part with
  | nil => simp_all [splitDots]
  | cons c text ih =>
      by_cases dot : c = '.'
      · rw [splitDots, if_pos dot] at member
        rcases List.mem_cons.mp member with rfl | later
        · simp
        · exact ih later
      · obtain ⟨first, more, split, whole⟩ := splitDots_cons dot text
        rw [whole] at member
        rcases List.mem_cons.mp member with rfl | later
        · simpa [Ne.symm dot] using ih (split ▸ List.mem_cons_self)
        · exact ih (split ▸ List.mem_cons_of_mem _ later)

theorem mem_ancestorChars_iff {front text : List Char} :
    front ∈ ancestorChars text ↔ splitDots front <+: splitDots text := by
  -- Both texts are taken apart together; a dot on one side alone ends the agreement.
  induction text generalizing front with
  | nil =>
      cases front with
      | nil => simp [ancestorChars]
      | cons d front =>
          by_cases dot : d = '.'
          · simp [ancestorChars, splitDots, dot, splitDots_ne_nil]
          · obtain ⟨part, more, -, whole⟩ := splitDots_cons dot front
            rw [whole]
            simp [ancestorChars, splitDots]
  | cons c text ih =>
      by_cases dot : c = '.'
      · rw [ancestorChars, if_pos dot, splitDots, if_pos dot]
        cases front with
        | nil => simp [splitDots]
        | cons d front =>
            by_cases other : d = '.'
            · simp [splitDots, other, ih]
            · obtain ⟨part, more, -, whole⟩ := splitDots_cons other front
              simp [whole, Ne.symm other]
      · obtain ⟨part, more, parts, whole⟩ := splitDots_cons dot text
        rw [ancestorChars, if_neg dot, whole]
        cases front with
        | nil => simp [splitDots]
        | cons d front =>
            by_cases other : d = '.'
            · simp [splitDots, other, dot]
            · obtain ⟨first, rest, others, own⟩ := splitDots_cons other front
              have same := @ih front
              rw [parts, others, List.cons_prefix_cons] at same
              simp only [List.mem_map, List.cons.injEq, own, List.cons_prefix_cons]
              constructor
              · rintro ⟨_, member, rfl, rfl⟩
                have both := same.mp member
                exact ⟨⟨rfl, both.1⟩, both.2⟩
              · rintro ⟨⟨rfl, part⟩, more⟩
                exact ⟨front, same.mpr ⟨part, more⟩, rfl, rfl⟩

/-! ### Paths -/

theorem mem_ancestors_iff {front path : String} :
    front ∈ ancestors path ↔ segments front <+: segments path := by
  have injective : Function.Injective String.ofList := fun a b same => by
    simpa using congrArg String.toList same
  rw [ancestors, segments, segments, List.prefix_map_iff_of_injective injective,
    ← mem_ancestorChars_iff, List.mem_map]
  constructor
  · rintro ⟨chars, member, rfl⟩
    rwa [String.toList_ofList]
  · intro member
    exact ⟨front.toList, member, String.ofList_toList⟩

theorem segments_of_undotted {key : String} (undotted : '.' ∉ key.toList) :
    segments key = [key] := by
  rw [segments, splitDots_of_undotted undotted, List.map_singleton, String.ofList_toList]

theorem undotted_of_mem_segments {path key : String} (member : key ∈ segments path) :
    '.' ∉ key.toList := by
  obtain ⟨part, inParts, rfl⟩ := List.mem_map.mp member
  rw [String.toList_ofList]
  exact undotted_of_mem_splitDots inParts

theorem toList_join {parent : String} (nonempty : parent ≠ "") (key : String) :
    (join parent key).toList = parent.toList ++ '.' :: key.toList := by
  rw [join, if_neg nonempty, String.toList_append, String.toList_append, List.append_assoc]
  rfl

theorem join_ne_empty {parent : String} (nonempty : parent ≠ "") (key : String) :
    join parent key ≠ "" := by
  intro empty
  have chars := toList_join nonempty key
  simp [empty] at chars

theorem segments_join {parent : String} (nonempty : parent ≠ "") (key : String) :
    segments (join parent key) = segments parent ++ segments key := by
  rw [segments, toList_join nonempty, splitDots_append, List.map_append, segments, segments]

/-! ### Looking up -/

def follow : Option Json → List String → Option Json
  | value, [] => value
  | value, segment :: rest => follow (value.bind (child? · segment)) rest

theorem follow_eq_bind (value : Option Json) (place : List String) :
    follow value place = value.bind (place.foldlM child?) := by
  induction place generalizing value with
  | nil => cases value <;> rfl
  | cons segment rest ih => cases value <;> simp [follow, ih]

theorem lookup?_eq_follow (value : Json) (path : String) :
    lookup? value path = follow (some value) (segments path) :=
  (follow_eq_bind (some value) (segments path)).symm

/-! ### Plain paths -/

/-- A path without the characters that patterns are made of. -/
def Plain (path : String) : Prop :=
  ∀ c ∈ path.toList, c ≠ '?' ∧ c ≠ '*' ∧ c ≠ '['

instance (path : String) : Decidable (Plain path) :=
  List.decidableBAll (fun c => c ≠ '?' ∧ c ≠ '*' ∧ c ≠ '[') path.toList

end Path

/-! ### Plain rules -/

namespace Glob

theorem readTokens_of_plain {text : List Char} (plain : ∀ c ∈ text, c ≠ '?' ∧ c ≠ '*' ∧ c ≠ '[')
    (tokens : List GlobToken) (index : Nat) (before : Option Char) :
    readTokens tokens index before text.length text =
      .ok ((text.map GlobToken.char).reverse ++ tokens) := by
  induction text generalizing tokens index before with
  | nil => rfl
  | cons c rest ih =>
      obtain ⟨anyChar, anySequence, bracket⟩ := plain c List.mem_cons_self
      rw [List.length_cons, readTokens, if_neg anyChar, if_neg anySequence, if_neg bracket,
        ih fun other member => plain other (List.mem_cons_of_mem _ member)]
      simp

theorem matchTokens_char_cons (c d : Char) (tokens : List GlobToken) (text : List Char) :
    matchTokens (.char c :: tokens) (d :: text) = (decide (d = c) && matchTokens tokens text) := rfl

theorem matchTokens_chars (text other : List Char) :
    matchTokens (text.map GlobToken.char) other = true ↔ other = text := by
  induction text generalizing other with
  | nil => exact List.isEmpty_iff
  | cons c rest ih =>
      cases other with
      | nil => exact iff_of_false Bool.false_ne_true (List.cons_ne_nil c rest).symm
      | cons d other =>
          rw [List.map_cons, matchTokens_char_cons, Bool.and_eq_true, decide_eq_true_eq, ih,
            List.cons.injEq]

end Glob

theorem PathRule.exists_plain {path : String} (plain : Path.Plain path) :
    ∃ rule, PathRule.compile path = .ok rule ∧
      ∀ other, rule.selects other = true ↔ other = path := by
  have tokens := Glob.readTokens_of_plain plain [] 0 none
  have compiled : Glob.compile path = .ok ⟨path, path.toList.map .char⟩ := by
    rw [Glob.compile, tokens]
    simp [Except.map]
  refine ⟨⟨⟨path, path.toList.map .char⟩, none⟩, ?_, fun other => ?_⟩
  · unfold PathRule.compile
    rw [compiled]
    dsimp only [bind, Except.bind]
    split
    · rename_i rest starred
      exact absurd rfl (plain '*' (starred ▸ List.mem_cons_self)).2.1
    · rfl
  · simp [PathRule.selects, Glob.accepts, Glob.matchTokens_chars, String.toList_inj]

theorem PathRule.covers_of_prefix {rules : List PathRule} {rule : PathRule} {path place : String}
    (member : rule ∈ rules) (selects : rule.selects path = true)
    (below : Path.segments path <+: Path.segments place) : covers rules place = true := by
  rw [covers, List.any_eq_true]
  exact ⟨path, Path.mem_ancestors_iff.mpr below, List.any_eq_true.mpr ⟨rule, member, selects⟩⟩

end AuditTrail
