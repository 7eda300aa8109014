import AuditTrail.Proofs.Chain.Sessions
import AuditTrail.Proofs.Chain.Verdict

/-!
Ranges of a chain. The numbers of a chain rise along it, so each of its events stands between those
with lower and those with higher numbers. A list that is not so ordered around one of its events may
still have that event in both of its ranges, but they cannot both be chains.
-/

namespace AuditTrail

/-! ### Numbers next to each other -/

theorem le_maxSequence (number : UInt64) : number ≤ maxSequence := by
  have small := number.toNat_lt
  simp only [maxSequence, UInt64.le_iff_toNat_le, UInt64.reduceToNat]
  omega

theorem succ_ne_zero {number : UInt64} (bound : number < maxSequence) : number + 1 ≠ 0 := by
  intro wrapped
  have small := UInt64.lt_iff_toNat_lt.mp bound
  have reached := congrArg UInt64.toNat wrapped
  simp only [maxSequence, UInt64.toNat_add, UInt64.reduceToNat] at small reached
  omega

theorem ne_pred (n : UInt64) : n ≠ n - 1 := by
  intro same
  have wrapped := congrArg UInt64.toNat same
  have small := n.toNat_lt
  simp only [UInt64.toNat_sub, UInt64.reduceToNat] at wrapped
  omega

theorem pred_le {n : UInt64} (some : n ≠ 0) : n - 1 ≤ n := by
  have filled : n.toNat ≠ 0 := fun zero => some (UInt64.toNat_inj.mp zero)
  have small := n.toNat_lt
  simp only [UInt64.le_iff_toNat_le, UInt64.toNat_sub, UInt64.reduceToNat]
  omega

theorem le_of_pred_le {number start : UInt64} (above : start - 1 ≤ number)
    (apart : number ≠ start - 1) (later : start ≠ 0) : start ≤ number := by
  have filled : start.toNat ≠ 0 := fun zero => later (UInt64.toNat_inj.mp zero)
  have small := start.toNat_lt
  rw [ne_eq, ← UInt64.toNat_inj] at apart
  simp only [UInt64.le_iff_toNat_le, UInt64.toNat_sub, UInt64.reduceToNat] at above apart ⊢
  omega

/-! ### Events in the order of their numbers -/

def Rising (events : List SealedEvent) : Prop :=
  events.Pairwise fun earlier later => earlier.sequenceNumber < later.sequenceNumber

/-- Lower numbers on one side of an event, higher ones on the other. -/
def Parts (before : List SealedEvent) (event : SealedEvent) (after : List SealedEvent) : Prop :=
  (∀ earlier ∈ before, earlier.sequenceNumber < event.sequenceNumber) ∧
    ∀ later ∈ after, event.sequenceNumber < later.sequenceNumber

theorem Rising.parts {before after : List SealedEvent} {event : SealedEvent}
    (rising : Rising (before ++ event :: after)) : Parts before event after := by
  obtain ⟨_, behind, across⟩ := List.pairwise_append.mp rising
  exact ⟨fun earlier member => across earlier member event List.mem_cons_self,
    (List.pairwise_cons.mp behind).1⟩

theorem Rising.filter_append {events : List SealedEvent} (rising : Rising events)
    (keep : SealedEvent → Bool)
    (upward : ∀ earlier later : SealedEvent, earlier.sequenceNumber < later.sequenceNumber →
      keep earlier = true → keep later = true) :
    events.filter (!keep ·) ++ events.filter keep = events := by
  induction events with
  | nil => rfl
  | cons first rest ih =>
      obtain ⟨above, later⟩ := List.pairwise_cons.mp rising
      by_cases kept : keep first = true
      · have all : ∀ event ∈ rest, keep event = true :=
          fun event member => upward first event (above event member) kept
        have none : rest.filter (!keep ·) = [] :=
          List.filter_eq_nil_iff.mpr fun event member => by simp [all event member]
        simp [kept, none, List.filter_eq_self.mpr all]
      · simp [kept, ih later]

namespace ChainHead

open Chain

section

variable {head : ChainHead} {events : List SealedEvent} {event : SealedEvent}

theorem Admits.length_le (admits : head.Admits events)
    (bound : ∀ event ∈ events, event.sequenceNumber < maxSequence) :
    head.nextSequence.toNat + events.length ≤ UInt64.size := by
  rw [← admits.toNat_past bound]
  exact Nat.le_of_lt (head.past events).nextSequence.toNat_lt

theorem Admits.toNat_after (admits : head.Admits (event :: events)) (filled : events ≠ [])
    (room : head.nextSequence.toNat + (event :: events).length ≤ UInt64.size) :
    (after event).nextSequence.toNat = head.nextSequence.toNat + 1 := by
  obtain ⟨number, _, _⟩ := faultOf_eq_none_iff.mp admits.1
  have more := List.length_pos_iff.mpr filled
  rw [List.length_cons, UInt64.size] at room
  rw [ChainHead.toNat_after, number]
  simp only [number, UInt64.lt_iff_toNat_lt, maxSequence, UInt64.reduceToNat]
  omega

/-- Without a wrap no event of a chain has a number below the one it starts with. -/
theorem Admits.nextSequence_le (admits : head.Admits events)
    (room : head.nextSequence.toNat + events.length ≤ UInt64.size) :
    ∀ event ∈ events, head.nextSequence ≤ event.sequenceNumber := by
  induction events generalizing head with
  | nil => exact fun event member => absurd member List.not_mem_nil
  | cons first rest ih =>
      obtain ⟨number, _, _⟩ := faultOf_eq_none_iff.mp admits.1
      intro event member
      rcases List.mem_cons.mp member with rfl | later
      · rw [number]
        exact UInt64.le_refl _
      · have step := admits.toNat_after (List.ne_nil_of_mem later) room
        rw [List.length_cons] at room
        have above := ih admits.2 (by omega) event later
        rw [UInt64.le_iff_toNat_le] at above ⊢
        omega

theorem Admits.rising (admits : head.Admits events)
    (room : head.nextSequence.toNat + events.length ≤ UInt64.size) : Rising events := by
  induction events generalizing head with
  | nil => exact List.Pairwise.nil
  | cons first rest ih =>
      obtain ⟨number, _, _⟩ := faultOf_eq_none_iff.mp admits.1
      by_cases last : rest = []
      · subst last
        exact List.pairwise_singleton _ _
      · have step := admits.toNat_after last room
        rw [List.length_cons] at room
        refine List.pairwise_cons.mpr ⟨fun event member => ?_, ih admits.2 (by omega)⟩
        have above := admits.2.nextSequence_le (by omega) event member
        rw [UInt64.le_iff_toNat_le] at above
        rw [UInt64.lt_iff_toNat_lt, number]
        omega

theorem Admits.filter_inRange (admits : head.Admits events)
    (room : head.nextSequence.toNat + events.length ≤ UInt64.size) (first last : UInt64) :
    ∃ earlier : ChainHead, earlier.Admits (events.filter (·.inRange first last)) := by
  have rising := admits.rising room
  have upper := rising.filter_append (fun event => first ≤ event.sequenceNumber)
    fun earlier later lower kept => by
      simp only [decide_eq_true_eq] at kept ⊢
      exact UInt64.le_trans kept (UInt64.le_of_lt lower)
  rw [← upper, admits_append] at admits
  have kept : Rising (events.filter fun event => first ≤ event.sequenceNumber) := rising.filter _
  have lower := kept.filter_append (fun event => last < event.sequenceNumber)
    fun earlier later lower past => by
      simp only [decide_eq_true_eq] at past ⊢
      exact UInt64.lt_trans past lower
  have within : events.filter (·.inRange first last) =
      (events.filter fun event => first ≤ event.sequenceNumber).filter
        fun event => !decide (last < event.sequenceNumber) := by
    rw [List.filter_filter]
    refine List.filter_congr fun event _ => ?_
    simp only [SealedEvent.inRange, ← decide_not, UInt64.not_lt, Bool.and_comm]
  have ranged := admits.2
  rw [← lower, admits_append] at ranged
  exact ⟨_, within ▸ ranged.1⟩

end

end ChainHead

/-! ### What the ranges on both sides of an event hold -/

namespace SealedEvent

variable {event : SealedEvent} {number : UInt64}

theorem inRange_upTo : event.inRange 0 number = true ↔ event.sequenceNumber ≤ number := by
  simp [inRange]

theorem inRange_from : event.inRange number maxSequence = true ↔ number ≤ event.sequenceNumber := by
  simp [inRange, le_maxSequence]

end SealedEvent

open SealedEvent

section

variable {before after : List SealedEvent} {event : SealedEvent}

theorem lower_of_parts (parts : Parts before event after) :
    (before ++ event :: after).filter (·.inRange 0 event.sequenceNumber) = before ++ [event] := by
  have below : before.filter (·.inRange 0 event.sequenceNumber) = before :=
    List.filter_eq_self.mpr fun earlier member =>
      inRange_upTo.mpr (UInt64.le_of_lt (parts.1 earlier member))
  have above : after.filter (·.inRange 0 event.sequenceNumber) = [] :=
    List.filter_eq_nil_iff.mpr fun later member held =>
      UInt64.not_lt.mpr (inRange_upTo.mp held) (parts.2 later member)
  have own := inRange_upTo.mpr (UInt64.le_refl event.sequenceNumber)
  rw [List.filter_append, List.filter_cons_of_pos own, below, above]

theorem upper_of_parts (parts : Parts before event after) :
    (before ++ event :: after).filter (·.inRange event.sequenceNumber maxSequence) =
      event :: after := by
  have below : before.filter (·.inRange event.sequenceNumber maxSequence) = [] :=
    List.filter_eq_nil_iff.mpr fun earlier member held =>
      UInt64.not_lt.mpr (inRange_from.mp held) (parts.1 earlier member)
  have above : after.filter (·.inRange event.sequenceNumber maxSequence) = after :=
    List.filter_eq_self.mpr fun later member =>
      inRange_from.mpr (UInt64.le_of_lt (parts.2 later member))
  have own := inRange_from.mpr (UInt64.le_refl event.sequenceNumber)
  rw [List.filter_append, List.filter_cons_of_pos own, below, above, List.nil_append]

theorem above_of_parts (parts : Parts before event after) :
    (before ++ event :: after).filter (event.sequenceNumber < ·.sequenceNumber) = after := by
  have below : before.filter (event.sequenceNumber < ·.sequenceNumber) = [] :=
    List.filter_eq_nil_iff.mpr fun earlier member held =>
      UInt64.lt_irrefl _ (UInt64.lt_trans (of_decide_eq_true held) (parts.1 earlier member))
  have above : after.filter (event.sequenceNumber < ·.sequenceNumber) = after :=
    List.filter_eq_self.mpr fun later member => decide_eq_true (parts.2 later member)
  rw [List.filter_append, List.filter_cons_of_neg (by simp), below, above, List.nil_append]

/-- An event stands between lower and higher numbers if no range that ends or begins with it holds
one that is out of order. -/
theorem parts_of_rising
    (low : Rising ((before ++ event :: after).filter (·.inRange 0 event.sequenceNumber)))
    (high : Rising ((before ++ event :: after).filter
      (·.inRange event.sequenceNumber maxSequence))) : Parts before event after := by
  have ends := inRange_upTo.mpr (UInt64.le_refl event.sequenceNumber)
  have begins := inRange_from.mpr (UInt64.le_refl event.sequenceNumber)
  rw [List.filter_append, List.filter_cons_of_pos ends] at low
  rw [List.filter_append, List.filter_cons_of_pos begins] at high
  constructor
  · intro earlier member
    by_contra above
    have held := inRange_from.mpr (UInt64.not_lt.mp above)
    exact above (high.parts.1 earlier (List.mem_filter.mpr ⟨member, held⟩))
  · intro later member
    by_contra below
    have held := inRange_upTo.mpr (UInt64.not_lt.mp below)
    exact below (low.parts.2 later (List.mem_filter.mpr ⟨member, held⟩))

end

namespace Chain

open ChainHead

section

variable {session : String} {before after : List SealedEvent} {event : SealedEvent}

theorem rising_of_verifyRange {start : UInt64} {read : List SealedEvent}
    (bound : ∀ event ∈ read, event.sequenceNumber < maxSequence)
    (valid : (verifyRange session start read).isValid = true) : Rising read := by
  cases read with
  | nil => exact List.Pairwise.nil
  | cons first rest =>
      have later : ∀ event ∈ rest, event.sequenceNumber < maxSequence :=
        fun event member => bound event (List.mem_cons_of_mem _ member)
      by_cases anchored : start ≠ 0 ∧ first.sequenceNumber = start - 1
      · have admits := (verifyRange_anchored_isValid_iff anchored.1 anchored.2).mp valid
        have room := admits.length_le later
        refine List.pairwise_cons.mpr ⟨fun event member => ?_, admits.rising room⟩
        have above := admits.nextSequence_le room event member
        rw [UInt64.le_iff_toNat_le, toNat_after (bound first List.mem_cons_self)] at above
        exact UInt64.lt_iff_toNat_lt.mpr above
      · obtain ⟨head, admits⟩ := admits_of_verifyRange valid
        rw [examined, if_neg anchored] at admits
        exact admits.rising (admits.length_le bound)

/-- Both sides of an event are valid exactly if the whole is; the event itself is checked in the
lower range and serves as the anchor of the upper one. -/
theorem verifyRange_isValid_iff_parts (bound : event.sequenceNumber < maxSequence) :
    (verifyRange session 0 (before ++ event :: after)).isValid = true ↔
      (verifyRange session 0 (before ++ [event])).isValid = true ∧
        (verifyRange session (event.sequenceNumber + 1) (event :: after)).isValid = true := by
  have next := succ_ne_zero bound
  have own : event.sequenceNumber = event.sequenceNumber + 1 - 1 := by simp
  rw [verifyRange_anchored_isValid_iff next own, verifyRange_zero_isValid_iff,
    verifyRange_zero_isValid_iff, List.append_cons, admits_append, past_append]
  rfl

theorem verifyRange_isValid_of_admits {head : ChainHead} {start : UInt64}
    {read : List SealedEvent} (admits : head.Admits read) (later : start ≠ 0)
    (above : ∀ event ∈ read, start - 1 ≤ event.sequenceNumber) :
    (verifyRange session start read).isValid = true := by
  cases read with
  | nil => simp [verifyRange, later, verifyAnchored, Verification.isValid]
  | cons first rest =>
      by_cases anchored : first.sequenceNumber = start - 1
      · exact (verifyRange_anchored_isValid_iff later anchored).mpr admits.2
      · have reached := le_of_pred_le (above first List.mem_cons_self) anchored later
        obtain ⟨_, _, hash⟩ := faultOf_eq_none_iff.mp admits.1
        simp only [verifyRange, if_neg later, if_neg anchored]
        refine verifyAnchored_firstEvent_isValid_iff.mpr
          ⟨faultOf_eq_none_iff.mpr ⟨?_, rfl, hash⟩, admits.2⟩
        split
        · rfl
        · rename_i top
          exact UInt64.le_antisymm (UInt64.not_lt.mp top) reached

theorem examined_of_rising {start : UInt64} {read : List SealedEvent} (rising : Rising read)
    (later : start ≠ 0) (above : ∀ event ∈ read, start - 1 ≤ event.sequenceNumber) :
    examined start read = read.filter (start ≤ ·.sequenceNumber) := by
  cases read with
  | nil => rfl
  | cons first rest =>
      have behind : ∀ event ∈ rest, start ≤ event.sequenceNumber := by
        intro event member
        have higher := (List.pairwise_cons.mp rising).1 event member
        refine le_of_pred_le (above event (List.mem_cons_of_mem _ member)) (fun same => ?_) later
        exact UInt64.not_lt.mpr (above first List.mem_cons_self) (same ▸ higher)
      have all := List.filter_eq_self.mpr fun event member =>
        decide_eq_true (behind event member)
      by_cases anchored : first.sequenceNumber = start - 1
      · have before : ¬start ≤ first.sequenceNumber := fun reached =>
          ne_pred start (UInt64.le_antisymm (anchored ▸ reached) (pred_le later))
        simp [examined, later, anchored, all, anchored ▸ before]
      · have reached := le_of_pred_le (above first List.mem_cons_self) anchored later
        simp [examined, anchored, reached, all]

theorem verifyRange_isValid_iff_ranges {stored : List SealedEvent} (number : UInt64)
    (bound : ∀ event ∈ stored, event.sequenceNumber < maxSequence)
    (held : ∃ event ∈ stored, event.sequenceNumber = number) :
    (verifyRange session 0 stored).isValid = true ↔
      (verifyRange session 0 (stored.filter (·.inRange 0 number))).isValid = true ∧
        (verifyRange session (number + 1)
          (stored.filter (·.inRange number maxSequence))).isValid = true := by
  obtain ⟨event, member, rfl⟩ := held
  obtain ⟨before, after, rfl⟩ := List.append_of_mem member
  have ranged {first last : UInt64} : ∀ other ∈ (before ++ event :: after).filter
      (·.inRange first last), other.sequenceNumber < maxSequence :=
    fun other found => bound other (List.mem_filter.mp found).1
  have own := bound event member
  constructor
  · intro valid
    have parts := (rising_of_verifyRange bound valid).parts
    rw [lower_of_parts parts, upper_of_parts parts]
    exact (verifyRange_isValid_iff_parts own).mp valid
  · rintro ⟨low, high⟩
    have parts := parts_of_rising (rising_of_verifyRange ranged low)
      (rising_of_verifyRange ranged high)
    rw [lower_of_parts parts] at low
    rw [upper_of_parts parts] at high
    exact (verifyRange_isValid_iff_parts own).mpr ⟨low, high⟩

end

end Chain

end AuditTrail
