import AuditTrail.Proofs.Chain.Links
import AuditTrail.Proofs.Store.Atomic

/-!
The attempts of a write, counted. The writer numbers its attempts in 32 bits and gives up when the
attempt that has just failed has a number above the number of retries. So it makes one attempt more
than there are retries at most, and none after one that has succeeded.
-/

namespace AuditTrail.RetryPlan

variable {σ : Type} [Store σ] {plan : RetryPlan} {named : String} {events : List SealedEvent}
  {again : Nat}

def storeAfter (events : List SealedEvent) (store : σ) : Nat → σ
  | 0 => store
  | count + 1 => storeAfter events (Store.append events store).2 count

def answerAfter (events : List SealedEvent) (store : σ) (count : Nat) : Outcome Unit :=
  (Store.append events (storeAfter events store count)).1

/-- The number of the attempt to be made, and how long to wait if it fails. -/
structure Round (σ : Type) where
  attempt : UInt32
  delayMs : Nat
  paced : Paced σ

def Round.next (plan : RetryPlan) (round : Round σ) (store : σ) : Round σ where
  attempt := round.attempt + 1
  delayMs := plan.nextDelay round.delayMs
  paced := ⟨store, round.paced.waitedMs + round.delayMs⟩

/-- The loop goes into so many rounds after the first, and ends with this result. -/
inductive Ends (plan : RetryPlan) (named : String) (events : List SealedEvent) :
    Round σ → Nat → Outcome Unit × Paced σ → Prop
  | done {round : Round σ} {store : σ}
      (taken : Store.append events round.paced.store = (.ok (), store)) :
      Ends plan named events round 0 (.ok (), { round.paced with store })
  | exhausted {round : Round σ} {store : σ} {error : LedgerError}
      (refused : Store.append events round.paced.store = (.error error, store))
      (spent : plan.retries < round.attempt.toNat) :
      Ends plan named events round 0
        (.error (.storageWriteFailure named round.attempt.toNat error.message),
          { round.paced with store })
  | again {round : Round σ} {store : σ} {error : LedgerError} {again : Nat}
      {result : Outcome Unit × Paced σ}
      (refused : Store.append events round.paced.store = (.error error, store))
      (left : round.attempt.toNat ≤ plan.retries)
      (ends : Ends plan named events (round.next plan store) again result) :
      Ends plan named events round (again + 1) result

omit [Store σ] in
theorem toNat_next (few : plan.retries < UInt32.size - 1) {round : Round σ}
    (left : round.attempt.toNat ≤ plan.retries) (store : σ) :
    (round.next plan store).attempt.toNat = round.attempt.toNat + 1 := by
  have small : round.attempt.toNat + 1 < 2 ^ 32 := by
    simp only [UInt32.size] at few
    omega
  rw [Round.next, UInt32.toNat_add, UInt32.toNat_one, Nat.mod_eq_of_lt small]

/-- Counting down the attempts that are left is counting up to the limit. -/
theorem ends_attempts (few : plan.retries < UInt32.size - 1) (left : Nat) (round : Round σ)
    (numbered : round.attempt.toNat + left = plan.retries + 1) :
    ∃ again, Ends plan named events round again
      (plan.attempts named events left round.attempt.toNat round.delayMs round.paced) := by
  induction left generalizing round with
  | zero =>
      unfold attempts
      cases appended : Store.append events round.paced.store with
      | mk outcome store =>
          cases outcome with
          | ok => exact ⟨0, Ends.done appended⟩
          | error error => exact ⟨0, Ends.exhausted appended (by omega)⟩
  | succ left ih =>
      unfold attempts
      cases appended : Store.append events round.paced.store with
      | mk outcome store =>
          cases outcome with
          | ok => exact ⟨0, Ends.done appended⟩
          | error error =>
              have remains : round.attempt.toNat ≤ plan.retries := by omega
              have counts := toNat_next few remains store
              obtain ⟨again, ends⟩ := ih (round.next plan store) (by omega)
              rw [counts] at ends
              exact ⟨again + 1, Ends.again appended remains ends⟩

/-- What a loop that has ended has done, told by the answers of the store. -/
structure Tallied (plan : RetryPlan) (named : String) (events : List SealedEvent) (round : Round σ)
    (again : Nat) (result : Outcome Unit × Paced σ) : Prop where
  store : result.2.store = storeAfter events round.paced.store (again + 1)
  within : round.attempt.toNat + again ≤ plan.retries + 1
  refused : ∀ count < again, ∃ error,
    answerAfter events round.paced.store count = .error error
  ended : result.1 = .ok () ∧ answerAfter events round.paced.store again = .ok () ∨
    ∃ cause, answerAfter events round.paced.store again = .error cause ∧
      result.1 = .error (.storageWriteFailure named (plan.retries + 1) cause.message) ∧
      round.attempt.toNat + again = plan.retries + 1
  waited : result.2.waitedMs ≤ round.paced.waitedMs + again * plan.maxBackoffMs

theorem Ends.tallied (few : plan.retries < UInt32.size - 1) {round : Round σ}
    {result : Outcome Unit × Paced σ} (ends : Ends plan named events round again result)
    (numbered : round.attempt.toNat ≤ plan.retries + 1)
    (paced : round.delayMs ≤ plan.maxBackoffMs) :
    Tallied plan named events round again result := by
  induction ends with
  | @done round store taken =>
      have answered : answerAfter events round.paced.store 0 = .ok () := congrArg Prod.fst taken
      have left : store = storeAfter events round.paced.store 1 := (congrArg Prod.snd taken).symm
      exact ⟨left, numbered, by simp, Or.inl ⟨rfl, answered⟩, by simp⟩
  | @exhausted round store error refused spent =>
      have answered : answerAfter events round.paced.store 0 = .error error :=
        congrArg Prod.fst refused
      have left : store = storeAfter events round.paced.store 1 :=
        (congrArg Prod.snd refused).symm
      have limit : round.attempt.toNat = plan.retries + 1 := by omega
      refine ⟨left, numbered, by simp, Or.inr ⟨error, answered, ?_, limit⟩, by simp⟩
      simp only [limit]
  | @again round store error more result refused remains ends ih =>
      have counts := toNat_next few remains store
      have slower : plan.nextDelay round.delayMs ≤ plan.maxBackoffMs := Nat.min_le_right _ _
      obtain ⟨left, within, before, ended, waited⟩ := ih (by omega) slower
      rw [counts] at within ended
      have delayed : (round.next plan store).paced.waitedMs =
          round.paced.waitedMs + round.delayMs := rfl
      have moved : ∀ count, storeAfter events round.paced.store (count + 1) =
          storeAfter events (round.next plan store).paced.store count := by
        intro count
        rw [storeAfter, refused]
        rfl
      have shift : ∀ count, answerAfter events round.paced.store (count + 1) =
          answerAfter events (round.next plan store).paced.store count := by
        intro count
        rw [answerAfter, moved, answerAfter]
      refine ⟨?_, by omega, ?_, ?_, ?_⟩
      · rw [left, moved]
      · intro count earlier
        cases count with
        | zero => exact ⟨error, congrArg Prod.fst refused⟩
        | succ count =>
            rw [shift]
            exact before count (by omega)
      · rw [shift]
        rcases ended with taken | ⟨cause, answered, told, limit⟩
        · exact Or.inl taken
        · exact Or.inr ⟨cause, answered, told, by omega⟩
      · rw [Nat.add_mul, Nat.one_mul]
        omega

theorem storeAfter_logged (events : List SealedEvent) (store : σ)
    (offered : List (List SealedEvent)) (count : Nat) :
    storeAfter events (⟨store, offered⟩ : Logged σ) count =
      ⟨storeAfter events store count, offered ++ List.replicate count events⟩ := by
  induction count generalizing store offered with
  | zero => simp [storeAfter]
  | succ count ih =>
      have once : (Store.append events (⟨store, offered⟩ : Logged σ)).2 =
          ⟨(Store.append events store).2, offered ++ [events]⟩ := rfl
      rw [storeAfter, once, ih, storeAfter, List.append_assoc, List.replicate_succ]
      rfl

theorem answerAfter_logged (events : List SealedEvent) (store : σ)
    (offered : List (List SealedEvent)) (count : Nat) :
    answerAfter events (⟨store, offered⟩ : Logged σ) count = answerAfter events store count := by
  rw [answerAfter, storeAfter_logged]
  rfl

def batchSession (events : List SealedEvent) : String :=
  (events.head?.map (·.sessionId)).getD ""

/-- A write to a store that takes note of every batch it is offered. -/
structure Bounded (plan : RetryPlan) (events : List SealedEvent) (store : σ) (waitedMs again : Nat)
    (outcome : Outcome Unit) (last : Paced (Logged σ)) : Prop where
  within : again ≤ plan.retries
  offered : last.store.offered = List.replicate (again + 1) events
  refused : ∀ count < again, ∃ error, answerAfter events store count = .error error
  taken : outcome = .ok () → answerAfter events store again = .ok ()
  ok_iff : outcome = .ok () ↔ ∃ count ≤ plan.retries, answerAfter events store count = .ok ()
  exhausted : ∀ error, outcome = .error error → again = plan.retries ∧
    ∃ cause, answerAfter events store plan.retries = .error cause ∧
      error = .storageWriteFailure (batchSession events) (plan.retries + 1) cause.message
  waited : last.waitedMs ≤ waitedMs + again * plan.maxBackoffMs

theorem Tallied.bounded {store : σ} {waitedMs : Nat} {outcome : Outcome Unit}
    {last : Paced (Logged σ)}
    (tallied : Tallied plan (batchSession events) events
      ⟨1, plan.backoffMs, ⟨⟨store, []⟩, waitedMs⟩⟩ again (outcome, last)) :
    Bounded plan events store waitedMs again outcome last := by
  obtain ⟨left, within, refused, ended, waited⟩ := tallied
  simp only [answerAfter_logged] at refused ended
  simp only [UInt32.toNat_one] at within ended
  have few : again ≤ plan.retries := by omega
  have offered : last.store.offered = List.replicate (again + 1) events := by
    rw [left, storeAfter_logged, List.nil_append]
  rcases ended with ⟨rfl, taken⟩ | ⟨cause, answered, rfl, limit⟩
  · refine ⟨few, offered, refused, fun _ => taken, ?_, ?_, waited⟩
    · exact iff_of_true rfl ⟨again, few, taken⟩
    · intro error failed
      cases failed
  · obtain rfl : again = plan.retries := by omega
    refine ⟨few, offered, refused, ?_, ?_, ?_, waited⟩
    · intro ok
      cases ok
    · refine iff_of_false (by simp) ?_
      rintro ⟨count, early, ok⟩
      rcases Nat.lt_or_eq_of_le early with earlier | rfl
      · obtain ⟨error, failed⟩ := refused count earlier
        rw [failed] at ok
        cases ok
      · rw [answered] at ok
        cases ok
    · intro error failed
      cases failed
      exact ⟨rfl, cause, answered, rfl⟩

theorem allOrNothing_behind [AtomicStore σ] {first last : Paced (Logged σ)}
    {outcome : Outcome Unit} (written : AllOrNothing events first (outcome, last)) :
    AllOrNothing events first.store.store (outcome, last.store.store) := by
  cases outcome with
  | ok => exact written
  | error error => exact written

theorem write_bounded (few : plan.retries < UInt32.size - 1)
    (paced : plan.backoffMs ≤ plan.maxBackoffMs) (events : List SealedEvent) (store : σ)
    (waitedMs : Nat) :
    ∃ again outcome last,
      Ends plan (batchSession events) events ⟨1, plan.backoffMs, ⟨⟨store, []⟩, waitedMs⟩⟩ again
        (outcome, last) ∧
      plan.write events ⟨⟨store, []⟩, waitedMs⟩ = (outcome, last) ∧
      Bounded plan events store waitedMs again outcome last ∧
      ∀ [AtomicStore σ], AllOrNothing events store (outcome, last.store.store) := by
  let first : Round (Logged σ) := ⟨1, plan.backoffMs, ⟨⟨store, []⟩, waitedMs⟩⟩
  obtain ⟨again, ends⟩ : ∃ again, Ends plan (batchSession events) events first again
      (plan.write events first.paced) :=
    ends_attempts few plan.retries first (Nat.add_comm 1 plan.retries)
  have tallied := ends.tallied few (Nat.le_add_left 1 plan.retries) paced
  refine ⟨again, _, _, ends, rfl, tallied.bounded, ?_⟩
  intro atomic
  exact allOrNothing_behind (plan.write_allOrNothing events first.paced)

theorem third_attempt_taken :
    (2 < UInt32.size - 1 ∧ 10 ≤ 100) ∧
      ∃ last : Paced (Logged (RefusingStore MemoryStore)),
        write ⟨2, 10, 100⟩ [sampleSealed "s" 0] ⟨⟨⟨{}, [true, true]⟩, []⟩, 0⟩ = (.ok (), last) ∧
        last.store.offered = List.replicate 3 [sampleSealed "s" 0] ∧
        (AtomicStore.stored "s" last.store.store).length = 1 := by
  refine ⟨by decide, ?_⟩
  obtain ⟨again, outcome, last, -, written, bounded, whole⟩ :=
    @write_bounded _ _ ⟨2, 10, 100⟩ (by decide) (by decide) [sampleSealed "s" 0]
      (⟨{}, [true, true]⟩ : RefusingStore MemoryStore) 0
  obtain rfl : outcome = .ok () := bounded.ok_iff.mpr ⟨2, Nat.le_refl 2, rfl⟩
  have third : again = 2 := by
    have taken := bounded.taken rfl
    have within : again ≤ 2 := bounded.within
    rcases again with _ | _ | again
    · cases taken
    · cases taken
    · omega
  refine ⟨last, written, ?_, ?_⟩
  · rw [bounded.offered, third]
  · have own : ∀ event ∈ [sampleSealed "s" 0], event.sessionId = "s" := by
      simp [sampleSealed, SealedEvent.sealAt]
    rw [whole.own own]
    rfl

end AuditTrail.RetryPlan
