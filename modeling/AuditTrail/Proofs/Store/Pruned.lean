import AuditTrail.Proofs.Chain.Ranges
import AuditTrail.Proofs.Store.Sessions

/-!
Sessions whose first events were removed from their file. What is left of a chain is still valid
from its own first number on, but a store that has just been opened takes the number of lines for
the next number, and so refuses the event that continues the chain.
-/

namespace AuditTrail

open ChainHead

theorem nextSequence_past_fresh {session : String} {removed : List SealedEvent}
    (admits : (fresh session).Admits removed) :
    ((fresh session).past removed).nextSequence = UInt64.ofNat removed.length := by
  rw [admits.nextSequence_past]
  exact UInt64.zero_add _

theorem ofNat_length_ne_zero {removed : List SealedEvent} (some : removed ≠ [])
    (bound : removed.length < UInt64.size) : UInt64.ofNat removed.length ≠ 0 := by
  intro zero
  have length := congrArg UInt64.toNat zero
  rw [UInt64.toNat_ofNat_of_lt' bound] at length
  exact some (List.length_eq_zero_iff.mp length)

namespace Chain

section

variable {session : String} {removed kept : List SealedEvent}

theorem examined_rest (chain : (fresh session).Admits (removed ++ kept)) :
    examined (UInt64.ofNat removed.length) kept = kept := by
  obtain ⟨before, rest⟩ := (admits_append _ _ _).mp chain
  cases kept with
  | nil => rfl
  | cons first more =>
      obtain ⟨own, _, _⟩ := faultOf_eq_none_iff.mp rest.1
      rw [nextSequence_past_fresh before] at own
      rw [examined, if_neg fun both => ne_pred _ (own.symm.trans both.2)]

theorem le_sequenceNumber_rest (chain : (fresh session).Admits (removed ++ kept))
    (short : (removed ++ kept).length < UInt64.size) :
    ∀ event ∈ kept, UInt64.ofNat removed.length ≤ event.sequenceNumber := by
  obtain ⟨before, rest⟩ := (admits_append _ _ _).mp chain
  rw [List.length_append] at short
  have bound : ((fresh session).past removed).nextSequence.toNat + kept.length ≤ UInt64.size := by
    rw [nextSequence_past_fresh before, UInt64.toNat_ofNat_of_lt' (by omega)]
    omega
  exact fun event member => nextSequence_past_fresh before ▸ rest.nextSequence_le bound event member

/-- What is left of a chain is valid from its own first number on. -/
theorem verifyRange_isValid_of_rest (chain : (fresh session).Admits (removed ++ kept))
    (short : (removed ++ kept).length < UInt64.size) :
    (verifyRange session (UInt64.ofNat removed.length) kept).isValid = true := by
  by_cases none : removed = []
  · subst none
    exact verifyRange_zero_isValid_iff.mpr chain
  · have later : UInt64.ofNat removed.length ≠ 0 := by
      rw [List.length_append] at short
      exact ofNat_length_ne_zero none (by omega)
    exact verifyRange_isValid_of_admits ((admits_append _ _ _).mp chain).2 later
      fun event member => UInt64.le_trans (pred_le later)
        (le_sequenceNumber_rest chain short event member)

end

end Chain

namespace LineFileStore

open Chain

/-- A store that has just been opened, with a file that holds what is left of a session's chain. -/
structure Pruned (store : LineFileStore) (session : String) (removed kept : List SealedEvent) :
    Prop where
  chain : (fresh session).Admits (removed ++ kept)
  short : (removed ++ kept).length < UInt64.size
  loaded : store.load session = .ok kept
  filled : kept ≠ []
  unasked : store.nextSequence.find? session = none

section

variable {store : LineFileStore} {session : String} {removed kept : List SealedEvent}

theorem readRange_of_rest (chain : (fresh session).Admits (removed ++ kept))
    (short : (removed ++ kept).length < UInt64.size) (loaded : store.load session = .ok kept)
    {first : UInt64} (number : first = UInt64.ofNat removed.length) :
    Store.readRange session (if first = 0 then 0 else first - 1) maxSequence store = .ok kept := by
  show (do
    return (← store.load session).filter (SealedEvent.inRange _ maxSequence)) = _
  rw [loaded]
  refine congrArg Except.ok (List.filter_eq_self.mpr fun event member => ?_)
  have above : first ≤ event.sequenceNumber :=
    number ▸ le_sequenceNumber_rest chain short event member
  have low : (if first = 0 then 0 else first - 1) ≤ event.sequenceNumber := by
    split
    · exact UInt64.zero_le
    · rename_i later
      exact UInt64.le_trans (pred_le later) above
  exact SealedEvent.inRange_iff.mpr ⟨low, le_maxSequence _⟩

theorem verify_of_rest (chain : (fresh session).Admits (removed ++ kept))
    (short : (removed ++ kept).length < UInt64.size) (loaded : store.load session = .ok kept) :
    ∃ verdict,
      Store.verify store session (UInt64.ofNat removed.length) maxSequence = .ok verdict ∧
      verdict.isValid = true ∧ verdict.eventCount = kept.length := by
  have ranged : ¬maxSequence < UInt64.ofNat removed.length := by
    have small := (UInt64.ofNat removed.length).toNat_lt
    simp only [maxSequence, UInt64.lt_iff_toNat_lt, UInt64.reduceToNat]
    omega
  refine ⟨_, Store.verify_of_readRange ranged (readRange_of_rest chain short loaded rfl),
    verifyRange_isValid_of_rest chain short, ?_⟩
  rw [(verifyRange_names _ _ _).2, examined_rest chain]

theorem holds_of_load (loaded : store.load session = .ok kept) (filled : kept ≠ []) :
    store.directory.Holds (fileOf session) := by
  have name : fileName session = .ok (fileOf session) := if_pos (isFileName_of_load loaded)
  simp only [load, name, bind, Except.bind] at loaded
  cases found : store.directory.entry? (fileOf session) with
  | error error =>
      rw [found] at loaded
      exact absurd (Except.ok.inj loaded).symm filled
  | ok entry =>
      rw [found] at loaded
      unfold Directory.entry? at found
      cases entry with
      | directory => cases loaded
      | file bytes =>
          cases present : store.directory.present with
          | false => simp [present] at found
          | true =>
              by_cases long : Directory.maxNameBytes < (fileOf session).utf8ByteSize
              · simp [present, long] at found
              · refine ⟨present, Nat.not_lt.mp long, fun folder => ?_⟩
                simp [present, long, folder] at found

end

section

variable {store : LineFileStore} {session : String} {removed kept : List SealedEvent}
  {event : SealedEvent}

def miscounted (session : String) (lines found : Nat) : LedgerError :=
  .storage "file"
    s!"session '{session}' expected sequence {UInt64.ofNat lines}, got {UInt64.ofNat found}"

theorem Pruned.append_refused (pruned : Pruned store session removed kept)
    (own : event.sessionId = session)
    (number : event.sequenceNumber = UInt64.ofNat (removed ++ kept).length) (cut : removed ≠ []) :
    Store.append [event] store =
      (.error (miscounted session kept.length (removed ++ kept).length), store) := by
  subst own
  have different : UInt64.ofNat (removed ++ kept).length ≠ UInt64.ofNat kept.length := by
    intro same
    have short := pruned.short
    have lengths := congrArg UInt64.toNat same
    have some : 0 < removed.length := List.length_pos_iff.mpr cut
    rw [List.length_append] at short lengths
    rw [UInt64.toNat_ofNat_of_lt' short, UInt64.toNat_ofNat_of_lt' (by omega)] at lengths
    omega
  have refused : Store.checkContiguous "file"
      [(event.sessionId, UInt64.ofNat kept.length)] [event] =
        .error (miscounted event.sessionId kept.length (removed ++ kept).length) := by
    simp only [Store.checkContiguous, Table.find?, if_true, Option.getD_some, number, ne_eq,
      different, not_false_eq_true, miscounted]
  show append [event] store = _
  unfold append
  rw [resolve_unknown pruned.unasked pruned.loaded]
  simp only [bind, Except.bind, refused]

theorem Pruned.append_taken (pruned : Pruned store session [] kept)
    (own : event.sessionId = session) (number : event.sequenceNumber = UInt64.ofNat kept.length) :
    ∃ next, Store.append [event] store = (.ok (), next) := by
  subst own
  exact append_next pruned.unasked (holds_of_load pruned.loaded pruned.filled) pruned.loaded number

end

end LineFileStore

end AuditTrail
