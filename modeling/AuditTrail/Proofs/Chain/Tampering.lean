import AuditTrail.Proofs.Chain.Commitment
import AuditTrail.Proofs.Chain.Verdict
import Mathlib.Data.List.Nodup

/-!
Replacing one event of a valid chain. A replacement that does not fit its place is found there; one
that fits is found by the event behind it, whose link no longer matches, unless two different byte
strings have one digest.
-/

namespace AuditTrail.Chain

open ChainHead SealedEvent

/-- An event made for its place: its number, its link and its own hash are right, and at the
beginning of a chain it may be another session's. -/
structure FitsAt (events : List SealedEvent) (index : Nat) (event : SealedEvent) : Prop where
  number : event.sequenceNumber = UInt64.ofNat index
  link : event.previousEventHash = hashBefore (genesis event.sessionId) events index
  hash : event.computeHash = event.eventHash

section

variable {head : ChainHead} {before rest : List SealedEvent} {event : SealedEvent}
  {fault : ChainFault}

theorem first_fault_unique {earlier later : List SealedEvent} {other : SealedEvent}
    {reason : ChainFault} (same : before ++ event :: rest = earlier ++ other :: later)
    (admits : head.Admits before) (admitsEarlier : head.Admits earlier)
    (found : faultOf (head.past before).nextSequence (head.past before).hash event = some fault)
    (foundOther : faultOf (head.past earlier).nextSequence (head.past earlier).hash other =
      some reason) : before = earlier ∧ event = other ∧ fault = reason := by
  -- If one beginning were longer, it would hold the event with a fault that ends the other.
  rcases List.append_eq_append_iff.mp same with ⟨between, rfl, tail⟩ | ⟨between, rfl, tail⟩
  · cases between with
    | nil =>
        obtain ⟨rfl, _⟩ := List.cons.inj tail
        rw [List.append_nil, found] at foundOther
        exact ⟨(List.append_nil _).symm, rfl, Option.some.inj foundOther⟩
    | cons first between =>
        obtain ⟨rfl, _⟩ := List.cons.inj tail
        have clear := ((admits_append _ _ _).mp admitsEarlier).2.1
        rw [found] at clear
        cases clear
  · cases between with
    | nil =>
        obtain ⟨rfl, _⟩ := List.cons.inj tail
        rw [List.append_nil, foundOther] at found
        exact ⟨List.append_nil _, rfl, (Option.some.inj found).symm⟩
    | cons first between =>
        obtain ⟨rfl, _⟩ := List.cons.inj tail
        have clear := ((admits_append _ _ _).mp admits).2.1
        rw [foundOther] at clear
        cases clear

theorem stopsAt_of_fault {anchor : Option String} {events : List SealedEvent}
    (split : events = before ++ event :: rest) (admits : (origin anchor events).Admits before)
    (found : faultOf ((origin anchor events).past before).nextSequence
      ((origin anchor events).past before).hash event = some fault) :
    StopsAt (verifyEvents events anchor) anchor (origin anchor events) before event fault := by
  rcases verifyEvents_cases events anchor with
    ⟨whole, _⟩ | ⟨earlier, other, later, reason, splitOther, stops⟩
  · rw [split, admits_append, ← split] at whole
    have clear := whole.2.1
    rw [found] at clear
    cases clear
  · obtain ⟨rfl, rfl, rfl⟩ :=
      first_fault_unique (split.symm.trans splitOther) admits stops.admits found stops.found
    exact stops

theorem firstBreak_of_fault {anchor : Option String} {events : List SealedEvent}
    (split : events = before ++ event :: rest) (admits : (origin anchor events).Admits before)
    {expected : UInt64} (number : ((origin anchor events).past before).nextSequence = expected)
    (found : faultOf ((origin anchor events).past before).nextSequence
      ((origin anchor events).past before).hash event ≠ none) :
    (verifyEvents events anchor).firstBreak =
      some (if event.sequenceNumber < expected then event.sequenceNumber else expected) := by
  obtain ⟨fault, told⟩ := Option.ne_none_iff_exists'.mp found
  rw [(stopsAt_of_fault split admits told).sequence, sequence_of_faultOf told, number]

end

theorem hashedBytes_mem_hashedFor {events : List SealedEvent} {event : SealedEvent}
    (member : event ∈ events) : event.hashedBytes ∈ hashedFor events := by
  obtain ⟨first, rest, rfl⟩ := List.exists_cons_of_ne_nil (List.ne_nil_of_mem member)
  exact List.mem_cons_of_mem _ (List.mem_map_of_mem member)

theorem sameLink_or_collides {event other : SealedEvent} {input inputOther : List UInt8}
    (link : event.previousEventHash = Sha256.hexDigest input)
    (linkOther : other.previousEventHash = Sha256.hexDigest inputOther)
    (hash : event.computeHash = event.eventHash) (hashOther : other.computeHash = other.eventHash)
    (same : event.eventHash = other.eventHash) :
    SameLink event other ∨ Collides [event.hashedBytes, other.hashedBytes] := by
  by_cases equal : event.hashedBytes = other.hashedBytes
  · rw [hashedBytes, hashedBytes, link, linkOther] at equal
    obtain ⟨content, previous⟩ := preimage_inj equal
    exact Or.inl ⟨content, by rw [link, linkOther, previous], same⟩
  · refine Or.inr ⟨_, List.mem_cons_self, _, List.mem_cons_of_mem _ List.mem_cons_self, equal, ?_⟩
    exact Sha256.hash_eq_of_hexDigest_eq (hash.trans (same.trans hashOther.symm))

section

variable {before rest : List SealedEvent} {event replacement : SealedEvent}

theorem nextSequence_origin (events : List SealedEvent) :
    (origin none events).nextSequence = 0 := by
  cases events <;> rfl

theorem exists_digest_origin (admits : (origin none (before ++ event :: rest)).Admits before) :
    ∃ input, ((origin none (before ++ event :: rest)).past before).hash =
      Sha256.hexDigest input := by
  cases before with
  | nil => exact ⟨_, rfl⟩
  | cons first before => exact exists_digest_past admits

theorem admits_before (valid : (verifyEvents (before ++ event :: rest) none).isValid = true)
    (replacement : SealedEvent) : (origin none (before ++ replacement :: rest)).Admits before := by
  rw [isValid_iff_origin_admits, admits_append] at valid
  cases before with
  | nil => trivial
  | cons first before => exact valid.1

theorem nextSequence_before
    (admits : (origin none (before ++ replacement :: rest)).Admits before) :
    ((origin none (before ++ replacement :: rest)).past before).nextSequence =
      UInt64.ofNat before.length := by
  rw [admits.nextSequence_past, nextSequence_origin, UInt64.zero_add]

theorem hash_before (before rest : List SealedEvent) (event replacement : SealedEvent) :
    ((origin none (before ++ replacement :: rest)).past before).hash =
      hashBefore (genesis replacement.sessionId) (before ++ event :: rest) before.length := by
  cases before using List.reverseRecOn with
  | nil => rfl
  | append_singleton before last => simp [past_append, after_eq, hashBefore]

theorem fitsAt_iff_faultOf
    (admits : (origin none (before ++ replacement :: rest)).Admits before) :
    FitsAt (before ++ event :: rest) before.length replacement ↔
      faultOf ((origin none (before ++ replacement :: rest)).past before).nextSequence
        ((origin none (before ++ replacement :: rest)).past before).hash replacement = none := by
  rw [faultOf_eq_none_iff, nextSequence_before admits, hash_before before rest event replacement]
  exact ⟨fun fits => ⟨fits.number, fits.link, fits.hash⟩,
    fun ⟨number, link, own⟩ => ⟨number, link, own⟩⟩

theorem admits_of_isValid (valid : (verifyEvents (before ++ event :: rest) none).isValid = true) :
    FitsAt (before ++ event :: rest) before.length event ∧ (after event).Admits rest := by
  have admits := admits_before valid event
  rw [isValid_iff_origin_admits, admits_append] at valid
  exact ⟨(fitsAt_iff_faultOf admits).mpr valid.2.1, valid.2.2⟩

theorem admits_replaced (valid : (verifyEvents (before ++ event :: rest) none).isValid = true)
    (fits : FitsAt (before ++ event :: rest) before.length replacement) :
    (origin none (before ++ replacement :: rest)).Admits (before ++ [replacement]) := by
  have admits := admits_before valid replacement
  exact (admits_append _ _ _).mpr ⟨admits, (fitsAt_iff_faultOf admits).mp fits, trivial⟩

theorem firstBreak_behind {next : SealedEvent} {later : List SealedEvent}
    (valid : (verifyEvents (before ++ event :: next :: later) none).isValid = true)
    (fits : FitsAt (before ++ event :: next :: later) before.length replacement)
    (different : event.eventHash ≠ replacement.eventHash) :
    (verifyEvents (before ++ replacement :: next :: later) none).firstBreak =
      some (UInt64.ofNat before.length + 1) := by
  obtain ⟨original, behind⟩ := admits_of_isValid valid
  obtain ⟨number, link, _⟩ := faultOf_eq_none_iff.mp behind.1
  have split : before ++ replacement :: next :: later =
      (before ++ [replacement]) ++ next :: later := by simp
  have place : (origin none (before ++ replacement :: next :: later)).past
      (before ++ [replacement]) = after replacement := by rw [past_append]; rfl
  have expected : (after replacement).nextSequence = UInt64.ofNat before.length + 1 := by
    rw [← fits.number]
    rfl
  have unlinked :
      faultOf (after replacement).nextSequence (after replacement).hash next ≠ none := by
    intro clear
    exact different (link.symm.trans (faultOf_eq_none_iff.mp clear).2.1)
  rw [firstBreak_of_fault split (admits_replaced valid fits) (by rw [place, expected])
    (by rw [place]; exact unlinked)]
  have same : next.sequenceNumber = UInt64.ofNat before.length + 1 := by
    rw [number, ← original.number]
    rfl
  rw [same, ite_self]

/-- Two events made for one place have the same hash only if nothing in them is different. -/
theorem sameLink_or_collides_of_fitsAt
    (valid : (verifyEvents (before ++ event :: rest) none).isValid = true)
    (fits : FitsAt (before ++ event :: rest) before.length replacement)
    (same : event.eventHash = replacement.eventHash) :
    SameLink event replacement ∨
      Collides (hashedFor (before ++ event :: rest) ++
        hashedFor (before ++ replacement :: rest)) := by
  obtain ⟨original, _⟩ := admits_of_isValid valid
  obtain ⟨input, digest⟩ := exists_digest_origin (admits_before valid event)
  obtain ⟨inputOther, digestOther⟩ := exists_digest_origin (admits_before valid replacement)
  rw [hash_before before rest event] at digest digestOther
  rcases sameLink_or_collides (original.link.trans digest) (fits.link.trans digestOther)
    original.hash fits.hash same with linked | collides
  · exact Or.inl linked
  · refine Or.inr (collides.mono (List.cons_subset.mpr ⟨?_, List.cons_subset.mpr ⟨?_, by simp⟩⟩))
    · exact List.mem_append_left _ (hashedBytes_mem_hashedFor (by simp))
    · exact List.mem_append_right _ (hashedBytes_mem_hashedFor (by simp))

end

section

variable {events : List SealedEvent} {index : Nat}

theorem exists_split_set (within : index < events.length) (replacement : SealedEvent) :
    ∃ before rest, events = before ++ events[index] :: rest ∧ before.length = index ∧
      events.set index replacement = before ++ replacement :: rest := by
  obtain ⟨before, rest, split, place⟩ :=
    exists_append_of_getElem? (List.getElem?_eq_getElem within)
  refine ⟨before, rest, split, place, ?_⟩
  rw [split, List.set_append_right _ _ (by omega), place, Nat.sub_self, List.set_cons_zero]

theorem firstBreak_of_not_fitsAt {replacement : SealedEvent} (within : index < events.length)
    (valid : (verifyEvents events none).isValid = true)
    (astray : ¬FitsAt events index replacement) :
    (verifyEvents (events.set index replacement) none).firstBreak = some
      (if replacement.sequenceNumber < UInt64.ofNat index then replacement.sequenceNumber
      else UInt64.ofNat index) := by
  obtain ⟨before, rest, split, rfl, replaced⟩ := exists_split_set within replacement
  rw [split] at valid astray
  rw [replaced]
  have admits := admits_before valid replacement
  exact firstBreak_of_fault rfl admits (nextSequence_before admits)
    fun clear => astray ((fitsAt_iff_faultOf admits).mpr clear)

end

/-- Tampering with one event is found at that event, or at the number it was given if that is
smaller. Only a replacement made for its place is found one event later, if any event follows. -/
theorem verdict_of_replaced (events : List SealedEvent) (index : Nat)
    (within : index < events.length) (replacement : SealedEvent)
    (valid : (verifyEvents events none).isValid = true)
    (changed : ¬SameLink events[index] replacement) :
    let verdict := verifyEvents (events.set index replacement) none
    let number := UInt64.ofNat index
    (¬FitsAt events index replacement →
      verdict.isValid = false ∧ verdict.firstBreak = some
        (if replacement.sequenceNumber < number then replacement.sequenceNumber else number)) ∧
    (FitsAt events index replacement → index + 1 < events.length →
      (verdict.isValid = false ∧ verdict.firstBreak = some (number + 1)) ∨
        Collides (hashedFor events ++ hashedFor (events.set index replacement))) ∧
    (FitsAt events index replacement → index + 1 = events.length → verdict.isValid = true) := by
  refine ⟨fun astray => ?_, ?_⟩
  · have told := firstBreak_of_not_fitsAt within valid astray
    exact ⟨Verification.isValid_eq_false_of_firstBreak told, told⟩
  obtain ⟨before, rest, split, rfl, replaced⟩ := exists_split_set within replacement
  generalize events[before.length] = event at split changed
  subst split
  rw [replaced]
  refine ⟨fun fits more => ?_, fun fits last => ?_⟩
  · cases rest with
    | nil => simp at more
    | cons next later =>
        by_cases same : event.eventHash = replacement.eventHash
        · exact Or.inr ((sameLink_or_collides_of_fitsAt valid fits same).resolve_left changed)
        · have told := firstBreak_behind valid fits same
          exact Or.inl ⟨Verification.isValid_eq_false_of_firstBreak told, told⟩
  · obtain rfl : rest = [] := by simpa using last
    exact isValid_iff_origin_admits.mpr (admits_replaced valid fits)

def samplePair : List SealedEvent :=
  ((fresh "s").sealAll sampleTime [sampleRaw "a", sampleRaw "b"]).1

theorem isValid_samplePair : (verifyEvents samplePair none).isValid = true :=
  verifyEvents_isValid_iff.mpr
    (admits_sealAll (fresh "s") sampleTime [sampleRaw "a", sampleRaw "b"])

def resealed : SealedEvent :=
  sealAt (sampleRaw "c") 0 (genesis "s") sampleTime

theorem verdict_of_resealed :
    let verdict := verifyEvents (samplePair.set 0 resealed) none
    FitsAt samplePair 0 resealed ∧ ¬SameLink samplePair[0] resealed ∧
      ((verdict.isValid = false ∧ verdict.firstBreak = some 1) ∨
        Collides (hashedFor samplePair ++ hashedFor (samplePair.set 0 resealed))) := by
  have fits : FitsAt samplePair 0 resealed := ⟨rfl, rfl, computeHash_sealAt _ _ _ _⟩
  have changed : ¬SameLink samplePair[0] resealed := by
    intro same
    have content := same.content
    revert content
    decide +kernel
  exact ⟨fits, changed,
    (verdict_of_replaced samplePair 0 (by decide) resealed isValid_samplePair changed).2.1 fits
      (by decide)⟩

theorem hashedFor_set_subset {events : List SealedEvent} {index : Nat} {replacement : SealedEvent}
    (later : index ≠ 0) :
    hashedFor (events.set index replacement) ⊆ replacement.hashedBytes :: hashedFor events := by
  obtain ⟨index, rfl⟩ := Nat.exists_eq_succ_of_ne_zero later
  cases events with
  | nil => simp [hashedFor]
  | cons first rest =>
      intro input member
      simp only [List.set_cons_succ, hashedFor, hashedFrom, List.map_cons, List.mem_cons,
        List.map_set] at member ⊢
      rcases member with seed | opening | behind
      · exact Or.inr (Or.inl seed)
      · exact Or.inr (Or.inr (Or.inl opening))
      · rcases List.mem_or_eq_of_mem_set behind with old | new
        · exact Or.inr (Or.inr (Or.inr old))
        · exact Or.inl new

theorem not_collides_of_nodup {inputs : List (List UInt8)}
    (distinct : (inputs.map Sha256.hash).Nodup) : ¬Collides inputs := by
  rintro ⟨first, inFirst, second, inSecond, different, same⟩
  exact different (List.inj_on_of_nodup_map distinct inFirst inSecond same)

def renumbered : SealedEvent :=
  { samplePair[1] with sequenceNumber := 0 }

theorem not_collides_renumbered :
    ¬Collides (hashedFor samplePair ++ hashedFor (samplePair.set 1 renumbered)) := by
  have distinct : ¬Collides (renumbered.hashedBytes :: hashedFor samplePair) :=
    not_collides_of_nodup (by decide +kernel)
  intro collides
  refine distinct (collides.mono (List.append_subset.mpr ⟨List.subset_cons_self _ _, ?_⟩))
  exact hashedFor_set_subset Nat.one_ne_zero

/-- A number that was made smaller is told as it is found, not as the place where it is found. -/
theorem firstBreak_of_renumbered :
    (verifyEvents samplePair none).isValid = true ∧ ¬SameLink samplePair[1] renumbered ∧
      ¬FitsAt samplePair 1 renumbered ∧
      ¬Collides (hashedFor samplePair ++ hashedFor (samplePair.set 1 renumbered)) ∧
      (verifyEvents (samplePair.set 1 renumbered) none).firstBreak = some 0 := by
  have astray : ¬FitsAt samplePair 1 renumbered := fun fits => absurd fits.number (by decide)
  have changed : ¬SameLink samplePair[1] renumbered := by
    intro same
    have content := same.content
    revert content
    decide +kernel
  exact ⟨isValid_samplePair, changed, astray, not_collides_renumbered,
    firstBreak_of_not_fitsAt (by decide) isValid_samplePair astray⟩

end AuditTrail.Chain
