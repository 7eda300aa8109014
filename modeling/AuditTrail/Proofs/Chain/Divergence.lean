import AuditTrail.Proofs.Chain.Tampering
import AuditTrail.Proofs.Event.Preimage

/-!
Where two chains part. The search compares the hashes alone. Of valid chains they tell the contents
as well, and chains that have parted never meet again: an equal hash further on, at whatever places,
would make all before it equal.
-/

namespace AuditTrail

namespace SealedEvent

theorem content_eq_iff (event other : SealedEvent) :
    event.content.canonicalBytes = other.content.canonicalBytes ↔
      event.reread.SameContent other.reread := by
  have same := preimage_eq_iff event other "" ""
  have empty : Utf8.encode "" = [] := rfl
  simpa [preimage, empty] using same

end SealedEvent

namespace Chain

open ChainHead SealedEvent

/-! ### The search -/

def hashAt (events : List SealedEvent) (index : Nat) : Option String :=
  events[index]?.map SealedEvent.eventHash

/-- The first index at which there are not two events with one hash. -/
structure PartsAt (first second : List SealedEvent) (index : Nat) : Prop where
  before : ∀ i < index, hashAt first i = hashAt second i
  here : hashAt first index ≠ hashAt second index

section

variable {first second : List SealedEvent} {index : Nat}

theorem PartsAt.symm (parts : PartsAt first second index) : PartsAt second first index where
  before i below := (parts.before i below).symm
  here := parts.here.symm

theorem PartsAt.unique {other : Nat} (parts : PartsAt first second index)
    (partsOther : PartsAt first second other) : index = other := by
  rcases Nat.lt_trichotomy index other with less | same | more
  · exact absurd (partsOther.before index less) parts.here
  · exact same
  · exact absurd (parts.before other more) partsOther.here

theorem PartsAt.le_length (parts : PartsAt first second index) : index ≤ first.length := by
  by_contra beyond
  have last := parts.before first.length (by omega)
  have here := parts.here
  simp only [hashAt, List.getElem?_eq_none (Nat.le_refl _), Option.map_none] at last
  have ended := List.getElem?_eq_none_iff.mp (Option.map_eq_none_iff.mp last.symm)
  rw [hashAt, hashAt, List.getElem?_eq_none (by omega), List.getElem?_eq_none (by omega)] at here
  exact here rfl

theorem hashes_eq_iff :
    first.map SealedEvent.eventHash = second.map SealedEvent.eventHash ↔
      ∀ i, hashAt first i = hashAt second i := by
  simp only [List.ext_getElem?_iff, List.getElem?_map, hashAt]

theorem divergence?_spec (first second : List SealedEvent) :
    (divergence? first second = none ∧ ∀ i, hashAt first i = hashAt second i) ∨
      ∃ index, divergence? first second = some index ∧ PartsAt first second index := by
  induction first generalizing second with
  | nil =>
      cases second with
      | nil => exact Or.inl ⟨rfl, fun _ => rfl⟩
      | cons b bs => exact Or.inr ⟨0, rfl, by simp, by simp [hashAt]⟩
  | cons a as ih =>
      cases second with
      | nil => exact Or.inr ⟨0, rfl, by simp, by simp [hashAt]⟩
      | cons b bs =>
          by_cases same : a.eventHash = b.eventHash
          · rw [divergence?, if_neg (not_not_intro same)]
            rcases ih bs with ⟨none, all⟩ | ⟨index, found, parts⟩
            · refine Or.inl ⟨by rw [none]; rfl, ?_⟩
              intro i
              cases i with
              | zero => exact congrArg some same
              | succ i => exact all i
            · refine Or.inr ⟨index + 1, by rw [found]; rfl, ?_, parts.here⟩
              intro i below
              cases i with
              | zero => exact congrArg some same
              | succ i => exact parts.before i (by omega)
          · rw [divergence?, if_pos same]
            exact Or.inr ⟨0, rfl, by simp, by simpa [hashAt] using same⟩

theorem divergence?_eq_some_iff :
    divergence? first second = some index ↔ PartsAt first second index := by
  rcases divergence?_spec first second with ⟨none, all⟩ | ⟨other, found, parts⟩
  · rw [none]
    refine iff_of_false (Option.some_ne_none index).symm ?_
    intro parts
    exact parts.here (all index)
  · rw [found]
    constructor
    · intro same
      exact Option.some.inj same ▸ parts
    · intro partsHere
      rw [parts.unique partsHere]

theorem divergence?_eq_none_iff : divergence? first second = none ↔
    first.map SealedEvent.eventHash = second.map SealedEvent.eventHash := by
  rw [hashes_eq_iff]
  rcases divergence?_spec first second with ⟨none, all⟩ | ⟨index, found, parts⟩
  · exact iff_of_true none all
  · rw [found]
    refine iff_of_false (Option.some_ne_none index) ?_
    intro all
    exact parts.here (all index)

theorem divergence?_symm (first second : List SealedEvent) :
    divergence? second first = divergence? first second := by
  rcases divergence?_spec first second with ⟨none, all⟩ | ⟨index, found, parts⟩
  · rw [none, divergence?_eq_none_iff, hashes_eq_iff]
    exact fun i => (all i).symm
  · rw [found, divergence?_eq_some_iff]
    exact parts.symm

end

/-! ### Valid chains -/

section

variable {first second : List SealedEvent} {a b : SealedEvent} {i j : Nat}

theorem take_succ_of_getElem? {events : List SealedEvent} {event : SealedEvent} {index : Nat}
    (found : events[index]? = some event) :
    events.take (index + 1) = events.take index ++ [event] := by
  simp [List.take_add_one, found]

theorem admits_take (valid : (verifyEvents first none).isValid = true) (count : Nat) :
    (origin none first).Admits (first.take count) := by
  rw [isValid_iff_origin_admits, ← List.take_append_drop count first, admits_append,
    List.take_append_drop] at valid
  exact valid.1

/-- Behind two events with one hash there is nothing but the same events. -/
theorem sameLinks_of_hash (valid : (verifyEvents first none).isValid = true)
    (validOther : (verifyEvents second none).isValid = true)
    (apart : ¬Collides (hashedFor first ++ hashedFor second)) (foundA : first[i]? = some a)
    (foundB : second[j]? = some b) (same : a.eventHash = b.eventHash) :
    List.Forall₂ SameLink (first.take (i + 1)) (second.take (j + 1)) := by
  cases first with
  | nil => simp at foundA
  | cons opening rest =>
      cases second with
      | nil => simp at foundB
      | cons other more =>
          have ends : ((fresh opening.sessionId).past ((opening :: rest).take (i + 1))).hash =
              ((fresh other.sessionId).past ((other :: more).take (j + 1))).hash := by
            rw [take_succ_of_getElem? foundA, take_succ_of_getElem? foundB, past_concat,
              past_concat, same]
          have links := sameLinks_or_collides (admits_take valid (i + 1))
            (admits_take validOther (j + 1)) ends
          apply links.resolve_right
          intro collides
          apply apart
          apply collides.mono
          have fewer (session : String) (events : List SealedEvent) (count : Nat) :
              hashedFrom session (events.take count) ⊆ hashedFrom session events := by
            conv_rhs => rw [← List.take_append_drop count events]
            exact hashedFrom_append_subset _ _ _
          apply List.append_subset.mpr
          constructor
          · exact List.subset_append_of_subset_left _ (fewer _ _ _)
          · exact List.subset_append_of_subset_right _ (fewer _ _ _)

theorem index_eq_of_sameLinks (foundA : first[i]? = some a) (foundB : second[j]? = some b)
    (links : List.Forall₂ SameLink (first.take (i + 1)) (second.take (j + 1))) : i = j := by
  have below := (List.getElem?_eq_some_iff.mp foundA).1
  have belowOther := (List.getElem?_eq_some_iff.mp foundB).1
  have lengths := links.length_eq
  simp only [List.length_take] at lengths
  omega

theorem sameLink_of_sameLinks {count other : Nat} (foundA : first[i]? = some a)
    (foundB : second[i]? = some b) (below : i < count) (belowOther : i < other)
    (links : List.Forall₂ SameLink (first.take count) (second.take other)) : SameLink a b := by
  obtain ⟨_, each⟩ := List.forall₂_iff_get.mp links
  obtain ⟨bound, rfl⟩ := List.getElem?_eq_some_iff.mp foundA
  obtain ⟨boundOther, rfl⟩ := List.getElem?_eq_some_iff.mp foundB
  have within : i < (first.take count).length := by
    rw [List.length_take]
    omega
  have withinOther : i < (second.take other).length := by
    rw [List.length_take]
    omega
  simpa using each i within withinOther

def contents (events : List SealedEvent) : List (List UInt8) :=
  events.map fun event => event.content.canonicalBytes

theorem hashes_of_contents {head other : ChainHead} (admits : head.Admits first)
    (admitsOther : other.Admits second) (same : head.hash = other.hash)
    (alike : contents first = contents second) :
    first.map SealedEvent.eventHash = second.map SealedEvent.eventHash := by
  induction first generalizing head other second with
  | nil =>
      obtain rfl : second = [] := by simpa [contents] using alike.symm
      rfl
  | cons event rest ih =>
      obtain ⟨next, more, rfl, content, later⟩ := List.map_eq_cons_iff.mp alike.symm
      obtain ⟨_, link, hash⟩ := faultOf_eq_none_iff.mp admits.1
      obtain ⟨_, linkOther, hashOther⟩ := faultOf_eq_none_iff.mp admitsOther.1
      have own : event.eventHash = next.eventHash := by
        rw [← hash, ← hashOther, computeHash, computeHash, hashAfter, hashAfter, preimage, preimage,
          link, linkOther, same, content]
      rw [List.map_cons, List.map_cons, own, ih admits.2 admitsOther.2 own later.symm]

theorem hashes_of_contents_take (valid : (verifyEvents first none).isValid = true)
    (validOther : (verifyEvents second none).isValid = true) {count : Nat}
    (alike : contents (first.take count) = contents (second.take count)) :
    (first.take count).map SealedEvent.eventHash =
      (second.take count).map SealedEvent.eventHash := by
  have admits := admits_take valid count
  have admitsOther := admits_take validOther count
  cases first with
  | nil =>
      have none : second.take count = [] := by simpa [contents] using alike.symm
      rw [none, List.take_nil]
  | cons opening rest =>
      cases second with
      | nil =>
          have none : (opening :: rest).take count = [] := by simpa [contents] using alike
          rw [none, List.take_nil]
      | cons other more =>
          cases count with
          | zero => rfl
          | succ count =>
              have openings := (List.cons.inj alike).1
              have session := ((content_eq_iff opening other).mp openings).sessionId
              exact hashes_of_contents admits admitsOther (congrArg genesis session) alike

theorem contents_take_of_each {count : Nat} (within : count ≤ first.length)
    (withinOther : count ≤ second.length)
    (each : ∀ i < count, ∀ a ∈ first[i]?, ∀ b ∈ second[i]?,
      a.content.canonicalBytes = b.content.canonicalBytes) :
    contents (first.take count) = contents (second.take count) := by
  apply List.ext_getElem
  · simp only [contents, List.length_map, List.length_take]
    omega
  · intro i below belowOther
    simp only [contents, List.length_map, List.length_take] at below belowOther
    simp only [contents, List.getElem_map, List.getElem_take]
    exact each i (by omega) _ (List.getElem?_eq_getElem _) _ (List.getElem?_eq_getElem _)

theorem hash_ne_of_parts {index : Nat} (parts : PartsAt first second index)
    (foundA : first[index]? = some a) (foundB : second[index]? = some b) :
    a.eventHash ≠ b.eventHash := by
  have here := parts.here
  simpa [hashAt, foundA, foundB] using here

theorem contents_ne_of_parts {index : Nat} (parts : PartsAt first second index)
    (valid : (verifyEvents first none).isValid = true)
    (validOther : (verifyEvents second none).isValid = true)
    (foundA : first[index]? = some a) (foundB : second[index]? = some b) :
    contents (first.take (index + 1)) ≠ contents (second.take (index + 1)) := by
  intro alike
  have hashes := hashes_of_contents_take valid validOther alike
  have hash := congrArg (·[index]?) hashes
  simp only [List.getElem?_map, List.getElem?_take_of_lt (Nat.lt_succ_self index), foundA, foundB,
    Option.map_some, Option.some.injEq] at hash
  exact hash_ne_of_parts parts foundA foundB hash

end

/-- What is told of valid chains by the index at which they part. -/
structure Diverges (first second : List SealedEvent) (index : Nat) : Prop where
  le_first : index ≤ first.length
  le_second : index ≤ second.length
  before : ∀ i < index, ∀ a ∈ first[i]?, ∀ b ∈ second[i]?,
    a.content.canonicalBytes = b.content.canonicalBytes
  here : ∀ a ∈ first[index]?, ∀ b ∈ second[index]?,
    a.content.canonicalBytes ≠ b.content.canonicalBytes
  behind : ∀ i, index ≤ i → ∀ a ∈ first[i]?, ∀ b ∈ second[i]?, a.eventHash ≠ b.eventHash

section

variable {first second : List SealedEvent}

theorem sameLink_of_hashAt (valid : (verifyEvents first none).isValid = true)
    (validOther : (verifyEvents second none).isValid = true)
    (apart : ¬Collides (hashedFor first ++ hashedFor second)) {i : Nat} {a b : SealedEvent}
    (foundA : first[i]? = some a) (foundB : second[i]? = some b)
    (same : hashAt first i = hashAt second i) : SameLink a b := by
  rw [hashAt, hashAt, foundA, foundB] at same
  have links := sameLinks_of_hash valid validOther apart foundA foundB (Option.some.inj same)
  exact sameLink_of_sameLinks foundA foundB (Nat.lt_succ_self i) (Nat.lt_succ_self i) links

theorem PartsAt.diverges {index : Nat} (parts : PartsAt first second index)
    (valid : (verifyEvents first none).isValid = true)
    (validOther : (verifyEvents second none).isValid = true)
    (apart : ¬Collides (hashedFor first ++ hashedFor second)) : Diverges first second index := by
  have before : ∀ i < index, ∀ a ∈ first[i]?, ∀ b ∈ second[i]?,
      a.content.canonicalBytes = b.content.canonicalBytes := by
    intro i below a foundA b foundB
    exact (sameLink_of_hashAt valid validOther apart foundA foundB (parts.before i below)).content
  constructor
  case le_first => exact parts.le_length
  case le_second => exact parts.symm.le_length
  case before => exact before
  case here =>
    -- Equal contents here, behind equal contents before, would have been hashed to one hash.
    intro a foundA b foundB same
    apply contents_ne_of_parts parts valid validOther foundA foundB
    have alike := contents_take_of_each parts.le_length parts.symm.le_length before
    simp only [contents] at alike ⊢
    rw [take_succ_of_getElem? foundA, take_succ_of_getElem? foundB, List.map_append,
      List.map_append, alike, List.map_singleton, List.map_singleton, same]
  case behind =>
    intro i reached a foundA b foundB same
    have below := (List.getElem?_eq_some_iff.mp foundA).1
    have belowOther := (List.getElem?_eq_some_iff.mp foundB).1
    have links := sameLinks_of_hash valid validOther apart foundA foundB same
    have within : index < first.length := by omega
    have withinOther : index < second.length := by omega
    have here := List.getElem?_eq_getElem within
    have hereOther := List.getElem?_eq_getElem withinOther
    have link := sameLink_of_sameLinks here hereOther (by omega) (by omega) links
    exact hash_ne_of_parts parts here hereOther link.hash

/-- Valid chains have the same hashes exactly if they have the same contents. -/
theorem hashes_eq_iff_contents (valid : (verifyEvents first none).isValid = true)
    (validOther : (verifyEvents second none).isValid = true)
    (apart : ¬Collides (hashedFor first ++ hashedFor second)) :
    first.map SealedEvent.eventHash = second.map SealedEvent.eventHash ↔
      contents first = contents second := by
  constructor
  · intro hashes
    have lengths : first.length = second.length := by simpa using congrArg List.length hashes
    rw [hashes_eq_iff] at hashes
    have alike := contents_take_of_each (Nat.le_refl first.length) (Nat.le_of_eq lengths)
      fun i _ a foundA b foundB =>
        (sameLink_of_hashAt valid validOther apart foundA foundB (hashes i)).content
    rwa [List.take_length, lengths, List.take_length] at alike
  · intro alike
    have lengths : first.length = second.length := by
      simpa [contents] using congrArg List.length alike
    have whole : contents (first.take first.length) = contents (second.take first.length) := by
      rw [List.take_length, lengths, List.take_length, alike]
    have hashes := hashes_of_contents_take valid validOther whole
    rwa [List.take_length, lengths, List.take_length] at hashes

end

end Chain

end AuditTrail
