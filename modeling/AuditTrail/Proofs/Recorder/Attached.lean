import AuditTrail.Proofs.Recorder.Balance

/-!
Failed batches and the heads they wait for. Over a store that can be read a batch is only kept once
it is sealed, and as long as it is kept nothing else of its session is stored, so at any time it
attaches to the head of its session.
-/

namespace AuditTrail.Recorder

open AtomicStore

variable {σ : Type} [Store σ] [AtomicStore σ]

/-- A batch with events that continue the stored chain of its session. -/
structure Pending (chain : ChainBuilder (Paced σ)) (session : String) (batch : FailedBatch) :
    Prop where
  named : batch.sessionId = session
  filled : batch.events ≠ []
  admits : (chain.tip session).Admits batch.events

structure Attached (recorder : Recorder σ) (journal : Journal) : Prop where
  coherent : recorder.chain.Coherent
  pending : ∀ session halted, recorder.halted.find? session = some halted →
    Pending recorder.chain session halted.batch
  filled : ∀ group ∈ journal.flight, group.2 ≠ []

theorem attached_create (store : σ) (queue : EventQueue) (settings : WorkerSettings) :
    (Recorder.create store queue settings).Attached {} where
  coherent := ChainBuilder.coherent_open _
  pending := by
    intro session halted found
    simp [Recorder.create] at found
  filled := by simp

theorem Pending.of_stored {chain other : ChainBuilder (Paced σ)} {session : String}
    {batch : FailedBatch} (pending : Pending chain session batch)
    (same : stored session other.store = stored session chain.store) :
    Pending other session batch :=
  { pending with admits := ChainBuilder.tip_eq_of_stored same ▸ pending.admits }

section

variable {start : σ} {recorder next : Recorder σ} {journal : Journal} {session : String}
  {raws : List RawEvent} {events : List SealedEvent} {failure : BatchFailure} {now : Timestamp}

theorem Attached.withChain (attached : recorder.Attached journal)
    {chain : ChainBuilder (Paced σ)} (coherent : chain.Coherent)
    (same : ∀ session halted, recorder.halted.find? session = some halted →
      stored session chain.store = stored session recorder.chain.store) :
    { recorder with chain }.Attached journal where
  coherent := coherent
  pending session halted found :=
    (attached.pending session halted found).of_stored (same session halted found)
  filled := attached.filled

theorem Attached.halt (attached : recorder.Attached journal) {halted : HaltedSession}
    (pending : Pending recorder.chain session halted.batch) :
    { recorder with halted := recorder.halted.insert session halted }.Attached journal := by
  refine { attached with pending := ?_ }
  intro other kept found
  rw [Table.find?_insert] at found
  split at found
  · rename_i same
    subst other
    obtain rfl := Option.some.inj found
    exact pending
  · exact attached.pending other kept found

theorem Attached.released (attached : recorder.Attached journal)
    (halts : recorder.halted.Ordered) (session : String) :
    (recorder.released session).Attached journal := by
  refine { attached with pending := ?_ }
  intro other kept found
  simp only [Recorder.released, halts.find?_erase] at found
  split at found
  · cases found
  · exact attached.pending other kept found

theorem Attached.congr {other : Recorder σ} (attached : recorder.Attached journal)
    (chain : other.chain = recorder.chain) (halted : other.halted = recorder.halted) :
    other.Attached journal where
  coherent := chain ▸ attached.coherent
  pending session kept found := chain ▸ attached.pending session kept (halted ▸ found)
  filled := attached.filled

theorem Attached.recordFailure (attached : recorder.Attached journal) (parked : List RawEvent)
    (now : Timestamp) (filled : failure.events ≠ [])
    (admits : (recorder.chain.tip session).Admits failure.events) :
    (recorder.recordFailure session failure parked now).Attached journal := by
  let halted : HaltedSession := ⟨⟨session, failure.events, (Halt.ofError failure.error).attempts,
    failure.error.message, now⟩, parked⟩
  have kept : Pending recorder.chain session halted.batch := ⟨rfl, filled, admits⟩
  exact (attached.halt kept).congr rfl rfl

theorem Attached.commitRaws_ok (attached : recorder.Attached journal)
    (going : recorder.halted.find? session = none)
    (committed : recorder.commitRaws session raws now = (.ok events, next)) :
    next.Attached journal := by
  have coherent := (attached.coherent.appendBatch recorder.plan_atomic
    (commitRaws_rest committed).1).1
  have grown := commitRaws_grown committed
  have own := commitRaws_own committed
  rw [(commitRaws_rest committed).2]
  refine attached.withChain coherent fun other halted found => ?_
  have different : other ≠ session := by
    rintro rfl
    rw [going] at found
    cases found
  exact grown.other own different

theorem Attached.commitRaws_error (attached : recorder.Attached journal)
    (failed : recorder.commitRaws session raws now = (.error failure, next)) :
    next.Attached journal ∧ (next.chain.tip session).Admits failure.events := by
  obtain ⟨coherent, admits⟩ := attached.coherent.appendBatch recorder.plan_atomic
    (commitRaws_rest failed).1
  have unchanged := commitRaws_unchanged failed
  have still : next.chain.tip session = recorder.chain.tip session :=
    ChainBuilder.tip_eq_of_stored (unchanged session)
  refine ⟨?_, still ▸ admits⟩
  rw [(commitRaws_rest failed).2]
  exact attached.withChain coherent fun other _ _ => unchanged other

/-- Over a store that can be read, a group that is not stored is kept whole as a failed batch. -/
theorem sealed_of_commitRaws [ReadableStore σ] (own : ∀ raw ∈ raws, raw.sessionId = session)
    (going : recorder.halted.find? session = none)
    (failed : recorder.commitRaws session raws now = (.error failure, next)) :
    failure.events.map SealedEvent.toRaw = raws := by
  have whole := sealed_or_dropped own going failed
  rwa [dropsOf_of_readable, List.append_nil] at whole

theorem Attached.recommit (attached : recorder.Attached journal) (halts : recorder.halted.Ordered)
    {halted : HaltedSession} (found : recorder.halted.find? session = some halted)
    (own : ∀ event ∈ halted.batch.events, event.sessionId = session)
    (committed : (recorder.released session).commitSealed session halted.batch.events =
      (.ok events, next)) : next.Attached journal := by
  have released := attached.released halts session
  have pending := attached.pending session halted found
  have coherent := (released.coherent.commitSealed (plan_atomic _) own pending.admits
    (commitSealed_rest committed).1).1
  have grown := (commitSealed_grown committed).2
  rw [(commitSealed_rest committed).2]
  refine released.withChain coherent fun other kept entered => ?_
  have different : other ≠ session := by
    rintro rfl
    simp [Recorder.released, halts.find?_erase] at entered
  exact grown.other own different

theorem Attached.refail (attached : recorder.Attached journal) (halts : recorder.halted.Ordered)
    {halted : HaltedSession} (now : Timestamp)
    (found : recorder.halted.find? session = some halted)
    (own : ∀ event ∈ halted.batch.events, event.sessionId = session)
    (failed : (recorder.released session).commitSealed session halted.batch.events =
      (.error failure, next)) :
    (next.recordFailure session failure halted.parked now).Attached journal := by
  have released := attached.released halts session
  have pending := attached.pending session halted found
  have coherent := (released.coherent.commitSealed (plan_atomic _) own pending.admits
    (commitSealed_rest failed).1).1
  obtain ⟨same, unchanged⟩ := commitSealed_unchanged failed
  have still : next.chain.tip session = recorder.chain.tip session :=
    ChainBuilder.tip_eq_of_stored (unchanged session)
  have kept : next.Attached journal := by
    rw [(commitSealed_rest failed).2]
    exact released.withChain coherent fun other _ _ => unchanged other
  refine kept.recordFailure _ now ?_ ?_
  · rw [same]
    exact pending.filled
  · rw [same, still]
    exact pending.admits

theorem Attached.land [ReadableStore σ] (attached : recorder.Attached journal) (now : Timestamp)
    (own : ∀ raw ∈ raws, raw.sessionId = session) (filled : raws ≠ []) :
    (recorder.commitGroup now (session, raws)).Attached journal := by
  rcases recorder.commitGroup_cases now session raws with
    ⟨halted, found, parks⟩ |
    ⟨going, ⟨events, next, committed, stores⟩ | ⟨failure, next, failed, keeps⟩⟩
  · rw [parks]
    exact attached.halt (attached.pending session halted found)
  · rw [stores]
    exact (attached.commitRaws_ok going committed).congr (by simp) (by simp)
  · obtain ⟨still, admits⟩ := attached.commitRaws_error failed
    have whole := sealed_of_commitRaws own going failed
    rw [keeps]
    refine still.recordFailure [] now ?_ admits
    rintro none
    rw [none] at whole
    exact filled whole.symm

end

theorem Step.attached [ReadableStore σ] {start : σ} {before after : Recorder σ × Journal}
    (step : Step before after) (balanced : Balanced start before.1 before.2)
    (attached : before.1.Attached before.2) : after.1.Attached after.2 := by
  cases step with
  | weather store same =>
      exact attached.withChain (attached.coherent.congr rfl same) fun other _ _ => same other
  | drain limit landed => exact { attached with filled := filled_groupBySession _ }
  | land now group rest first =>
      have inFlight : group ∈ _ := first ▸ List.mem_cons_self
      have lands := attached.land now (balanced.groups group inFlight)
        (attached.filled group inFlight)
      exact { lands with
        filled := fun other member => attached.filled other (first ▸ List.mem_cons_of_mem _ member) }
  | settle ready committed =>
      have going := balanced.going_of_ready ready
      exact { attached.commitRaws_ok going committed with }
  | fail failed => exact (attached.commitRaws_error failed).1
  | recommit settled found committed =>
      obtain ⟨own, _⟩ := balanced.kept _ _ found
      have kept := attached.recommit balanced.halts found own committed
      refine { kept.congr (recordCommit_chain ..) (recordCommit_halted ..) with filled := ?_ }
      split
      · simp
      · rename_i some
        simpa using some
  | refail now found failed =>
      obtain ⟨own, _⟩ := balanced.kept _ _ found
      exact attached.refail balanced.halts now found own failed
  | release session ready =>
      exact { attached.withChain (attached.coherent.evict session) fun _ _ _ => rfl with }
  | load session =>
      exact attached.withChain (attached.coherent.head rfl) fun other _ _ =>
        ChainBuilder.head_unchanged rfl other
  | _ => exact { attached with }

/-- Over a store that can be read every batch that is kept attaches to the head of its session,
whatever is done in whatever order. -/
theorem Steps.attached [ReadableStore σ] {start : σ} {before after : Recorder σ × Journal}
    (steps : Steps before after) (balanced : Balanced start before.1 before.2)
    (attached : before.1.Attached before.2) : after.1.Attached after.2 := by
  have both := steps.keeps
    (fun state => Balanced start state.1 state.2 ∧ state.1.Attached state.2)
    (fun step ⟨balanced, attached⟩ => ⟨step.balanced balanced, step.attached balanced attached⟩)
    ⟨balanced, attached⟩
  exact both.2

end AuditTrail.Recorder
