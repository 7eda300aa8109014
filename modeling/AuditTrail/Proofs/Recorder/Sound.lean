import AuditTrail.Proofs.Recorder.Progress
import AuditTrail.Proofs.Recorder.Steps

/-!
Sound recorders. Every stored session is a whole chain, every loaded head and every mark stands at
its end, and every failed batch is a piece of a chain. No single step of the recorder breaks this,
whichever appends and loads fail.
-/

namespace AuditTrail.Recorder

open AtomicStore

variable {σ : Type} [Store σ] [AtomicStore σ]

structure Sound (recorder : Recorder σ) : Prop where
  coherent : recorder.chain.Coherent
  halts : recorder.halted.Ordered
  marks : recorder.progress.Ordered
  chained : ∀ session, (ChainHead.fresh session).Admits (stored session recorder.store)
  kept : ∀ session halted, recorder.halted.find? session = some halted →
    (∀ event ∈ halted.batch.events, event.sessionId = session) ∧
      ∃ head : ChainHead, head.Admits halted.batch.events
  marked : ∀ session sequence, (recorder.progress.of session).committed = some sequence →
    (stored session recorder.store).length < UInt64.size →
      sequence.toNat + 1 = (stored session recorder.store).length

theorem sound_create {store : σ} {queue : EventQueue} {settings : WorkerSettings}
    (chained : ∀ session, (ChainHead.fresh session).Admits (stored session store)) :
    (Recorder.create store queue settings).Sound where
  coherent := ChainBuilder.coherent_open _
  halts := Table.Ordered.nil
  marks := Table.Ordered.nil
  chained := chained
  kept := by
    intro session halted found
    simp [Recorder.create] at found
  marked := by
    intro session sequence found
    simp [Recorder.create, Progress.of] at found

theorem Sound.withProgress {recorder : Recorder σ} (sound : recorder.Sound) {progress : Progress}
    (marks : progress.Ordered)
    (same : ∀ session, (progress.of session).committed = none ∨
      (progress.of session).committed = (recorder.progress.of session).committed) :
    { recorder with progress }.Sound := by
  refine { sound with marks, marked := ?_ }
  intro session sequence found
  rcases same session with dropped | kept
  · simp [dropped] at found
  · exact sound.marked session sequence (kept ▸ found)

theorem Sound.withChain {recorder : Recorder σ} (sound : recorder.Sound)
    {chain : ChainBuilder (Paced σ)} (coherent : chain.Coherent)
    (unchanged : Unchanged recorder.chain.store chain.store) :
    { recorder with chain }.Sound := by
  have same (session : String) : stored session chain.store.store = stored session recorder.store :=
    unchanged session
  refine { sound with coherent, chained := ?_, marked := ?_ }
  · intro session
    rw [store, same]
    exact sound.chained session
  · intro session sequence found bound
    rw [store, same] at bound ⊢
    exact sound.marked session sequence found bound

theorem Sound.withBatch {recorder : Recorder σ} (sound : recorder.Sound)
    {chain : ChainBuilder (Paced σ)} {session : String} {events : List SealedEvent}
    (dequeued : Nat) (coherent : chain.Coherent)
    (grown : Grown events recorder.chain.store chain.store)
    (own : ∀ event ∈ events, event.sessionId = session)
    (admits : (recorder.chain.tip session).Admits events) :
    { recorder with
      chain
      progress := recorder.progress.afterBatch session events dequeued }.Sound := by
  have whole : (ChainHead.fresh session).Admits (stored session recorder.store ++ events) :=
    (ChainHead.admits_append _ _ _).mpr ⟨sound.chained session, admits⟩
  have mine : stored session chain.store.store = stored session recorder.store ++ events :=
    grown.own own
  have others (other : String) (different : other ≠ session) :
      stored other chain.store.store = stored other recorder.store :=
    grown.other own different
  refine { sound with
    coherent
    marks := Progress.ordered_afterBatch session sound.marks events dequeued
    chained := ?_
    marked := ?_ }
  · intro other
    by_cases same : other = session
    · subst other
      rw [store, mine]
      exact whole
    · rw [store, others other same]
      exact sound.chained other
  · intro other sequence found bound
    by_cases same : other = session
    · subst other
      rw [store, mine] at bound ⊢
      cases end_ : events.getLast? with
      | none =>
          obtain rfl := List.getLast?_eq_none_iff.mp end_
          rw [List.append_nil] at bound ⊢
          exact sound.marked session sequence found bound
      | some last =>
          have final : (stored session recorder.store ++ events).getLast? = some last := by
            simp [List.getLast?_append, end_]
          have counted := whole.toNat_last bound final
          -- The former mark counts what was stored before the batch, which is less.
          have ahead (former : UInt64)
              (before : (recorder.progress.of session).committed = some former) :
              former ≤ last.sequenceNumber := by
            have less := sound.marked session former before
              (Nat.lt_of_le_of_lt (by simp) bound)
            rw [UInt64.le_iff_toNat_le]
            simp only [List.length_append] at counted
            omega
          rw [Progress.committed_of_afterBatch _ _ end_ dequeued ahead] at found
          obtain rfl := Option.some.inj found
          exact counted
    · rw [store, others other same] at bound ⊢
      rw [Progress.of_afterBatch_other _ _ _ events dequeued same] at found
      exact sound.marked other sequence found bound

theorem Sound.recordFailure {recorder : Recorder σ} (sound : recorder.Sound) {session : String}
    {failure : BatchFailure} {head : ChainHead} (parked : List RawEvent) (now : Timestamp)
    (own : ∀ event ∈ failure.events, event.sessionId = session)
    (admits : head.Admits failure.events) :
    (recorder.recordFailure session failure parked now).Sound := by
  have halting : { recorder with
      progress := recorder.progress.halt session (Halt.ofError failure.error) }.Sound :=
    sound.withProgress (Progress.ordered_update session sound.marks _) (by simp)
  refine { halting with
    halts := sound.halts.insert session _
    kept := ?_ }
  intro other halted found
  simp only [Recorder.recordFailure, Table.find?_insert] at found
  split at found
  · rename_i same
    subst other
    obtain rfl := Option.some.inj found
    exact ⟨own, head, admits⟩
  · exact sound.kept other halted found

theorem Sound.congr {recorder other : Recorder σ} (sound : recorder.Sound)
    (chain : other.chain = recorder.chain) (halted : other.halted = recorder.halted)
    (progress : other.progress = recorder.progress) : other.Sound := by
  obtain ⟨queue, chain', settings, progress', tickets, halted', running, cycles, events, batches,
    failures⟩ := other
  subst chain halted progress
  exact { sound with }

section

variable {recorder next : Recorder σ} {session : String} {raws : List RawEvent}
  {events : List SealedEvent} {failure : BatchFailure} {now : Timestamp}

theorem Sound.commitRaws_ok (sound : recorder.Sound) (dequeued : Nat)
    (committed : recorder.commitRaws session raws now = (.ok events, next)) :
    { next with progress := next.progress.afterBatch session events dequeued }.Sound := by
  obtain ⟨appended, rest⟩ := commitRaws_rest committed
  obtain ⟨coherent, admits⟩ := sound.coherent.appendBatch recorder.plan_atomic appended
  rw [rest]
  exact sound.withBatch dequeued coherent
    (ChainBuilder.appendBatch_stored recorder.plan_atomic appended)
    (ChainBuilder.appendBatch_sealed recorder.plan_atomic appended).1 admits

theorem Sound.commitRaws_error (sound : recorder.Sound)
    (failed : recorder.commitRaws session raws now = (.error failure, next)) :
    next.Sound ∧ (∀ event ∈ failure.events, event.sessionId = session) ∧
      (recorder.chain.tip session).Admits failure.events := by
  obtain ⟨appended, rest⟩ := commitRaws_rest failed
  obtain ⟨coherent, admits⟩ := sound.coherent.appendBatch recorder.plan_atomic appended
  rw [rest]
  exact ⟨sound.withChain coherent (ChainBuilder.appendBatch_stored recorder.plan_atomic appended),
    (ChainBuilder.appendBatch_sealed recorder.plan_atomic appended).1, admits⟩

theorem Sound.commitSealed_ok {taken : List SealedEvent} {head : ChainHead}
    (sound : recorder.Sound) (dequeued : Nat)
    (own : ∀ event ∈ events, event.sessionId = session) (admits : head.Admits events)
    (committed : recorder.commitSealed session events = (.ok taken, next)) :
    { next with progress := next.progress.afterBatch session taken dequeued }.Sound := by
  obtain ⟨offered, rest⟩ := commitSealed_rest committed
  obtain ⟨coherent, continues⟩ :=
    sound.coherent.commitSealed recorder.plan_atomic own admits offered
  obtain ⟨same, grown⟩ := ChainBuilder.commitSealed_stored recorder.plan_atomic offered
  obtain rfl : taken = events := same
  rw [rest]
  exact sound.withBatch dequeued coherent grown own (continues taken rfl)

theorem Sound.commitSealed_error {head : ChainHead} (sound : recorder.Sound)
    (own : ∀ event ∈ events, event.sessionId = session) (admits : head.Admits events)
    (failed : recorder.commitSealed session events = (.error failure, next)) :
    next.Sound ∧ failure.events = events := by
  obtain ⟨offered, rest⟩ := commitSealed_rest failed
  obtain ⟨coherent, _⟩ := sound.coherent.commitSealed recorder.plan_atomic own admits offered
  obtain ⟨same, unchanged⟩ := ChainBuilder.commitSealed_stored recorder.plan_atomic offered
  rw [rest]
  exact ⟨sound.withChain coherent unchanged, same⟩

theorem Sound.released (sound : recorder.Sound) (session : String) :
    (recorder.released session).Sound :=
  { sound with
    halts := sound.halts.erase session
    kept := by
      intro other halted found
      simp only [Recorder.released, sound.halts.find?_erase] at found
      split at found
      · cases found
      · exact sound.kept other halted found }

theorem Sound.recordCommit {dequeued : Nat}
    (sound : { recorder with
      progress := recorder.progress.afterBatch session events dequeued }.Sound) :
    (recorder.recordCommit session events dequeued).Sound :=
  sound.congr (recordCommit_chain ..) (recordCommit_halted ..) (recordCommit_progress ..)

theorem Sound.commitGroup (sound : recorder.Sound) (now : Timestamp)
    (group : String × List RawEvent) : (recorder.commitGroup now group).Sound := by
  obtain ⟨session, raws⟩ := group
  rcases recorder.commitGroup_cases now session raws with
    ⟨halted, found, parks⟩ | ⟨_, ⟨events, next, committed, stores⟩ | ⟨failure, next, failed, keeps⟩⟩
  · rw [parks]
    refine { sound with halts := sound.halts.insert session _, kept := ?_ }
    intro other kept entered
    simp only [Table.find?_insert] at entered
    split at entered
    · rename_i same
      subst other
      obtain rfl := Option.some.inj entered
      exact sound.kept session halted found
    · exact sound.kept other kept entered
  · rw [stores]
    exact (sound.commitRaws_ok raws.length committed).recordCommit
  · rw [keeps]
    obtain ⟨still, own, admits⟩ := sound.commitRaws_error failed
    exact still.recordFailure [] now own admits

end

theorem Step.sound {before after : Recorder σ × Journal} (step : Step before after)
    (sound : before.1.Sound) : after.1.Sound := by
  cases step with
  | weather store same => exact sound.withChain (sound.coherent.congr rfl same) same
  | announce raw free =>
      exact sound.withProgress (Progress.ordered_update _ sound.marks _) (by simp)
  | withdraw raw held =>
      exact sound.withProgress (Progress.ordered_adjust _ sound.marks _) (by simp)
  | land now group rest first => exact sound.commitGroup now group
  | @settle _ _ _ _ raw event rest ready committed =>
      obtain ⟨-, rfl⟩ : event.toRaw = raw ∧ rest = [] := by simpa using commitRaws_ok committed
      exact sound.commitRaws_ok 0 committed
  | fail failed => exact (sound.commitRaws_error failed).1
  | recommit settled found committed =>
      obtain ⟨own, head, admits⟩ := sound.kept _ _ found
      exact ((sound.released _).commitSealed_ok _ own admits committed).recordCommit
  | refail now found failed =>
      obtain ⟨own, head, admits⟩ := sound.kept _ _ found
      obtain ⟨still, same⟩ := (sound.released _).commitSealed_error own admits failed
      exact still.recordFailure _ now (same ▸ own) (same ▸ admits)
  | resume landed pending going =>
      exact sound.withProgress (Progress.ordered_adjust _ sound.marks _) (by simp)
  | @release recorder _ session ready =>
      have forgotten (other : String) :
          ((Progress.of (recorder.progress.erase session) other).committed = none) ∨
            (Progress.of (recorder.progress.erase session) other).committed =
              (recorder.progress.of other).committed := by
        rw [Progress.of_erase session other sound.marks]
        split <;> simp
      exact (sound.withProgress (sound.marks.erase session) forgotten).withChain
        (sound.coherent.evict session) fun _ => rfl
  | load session =>
      exact sound.withChain (sound.coherent.head rfl) (ChainBuilder.head_unchanged rfl)
  | _ => exact { sound with }

theorem Steps.sound {before after : Recorder σ × Journal} (steps : Steps before after)
    (sound : before.1.Sound) : after.1.Sound :=
  steps.keeps (fun state => state.1.Sound) Step.sound sound

end AuditTrail.Recorder
