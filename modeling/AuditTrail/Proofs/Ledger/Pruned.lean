import AuditTrail.Proofs.Ledger.Opened
import AuditTrail.Proofs.Ledger.Runs
import AuditTrail.Proofs.Store.Pruned

/-!
Sessions that go on behind a cut. The head of a chain counts on from its last event and the verifier
from the first that is left, but a store of files counts lines: a ledger that is opened over a
session whose first events were removed seals the event that continues the chain and cannot store
it. With nothing removed all three agree.
-/

namespace AuditTrail.Ledger

open Chain ChainHead LineFileStore

section

variable {store : LineFileStore} {settings : Settings} {ledger : Ledger LineFileStore}
  {raw : RawEvent} {removed kept : List SealedEvent} {last : SealedEvent}

theorem lastEvent_of_pruned {session : String} (pruned : store.Pruned session removed kept)
    (found : kept.getLast? = some last) :
    Store.lastEvent session store = (.ok (some last), store) := by
  show ((store.load session).map List.getLast?, store) = _
  rw [pruned.loaded, ← found]
  rfl

theorem number_of_continuing {session : String} (pruned : store.Pruned session removed kept)
    (found : kept.getLast? = some last) (raw : RawEvent) (now : Timestamp) :
    (last.continuing raw now).sequenceNumber = UInt64.ofNat (removed ++ kept).length := by
  have behind := pruned.chain.nextSequence_past
  rw [past_append, past_of_getLast? found] at behind
  exact behind.trans (UInt64.zero_add _)

theorem admits_continuing {session : String} (pruned : store.Pruned session removed kept)
    (found : kept.getLast? = some last) (raw : RawEvent) (now : Timestamp) :
    (fresh session).Admits (removed ++ (kept ++ [(last.continuing raw now).reread])) := by
  have hash := (last.continuing raw now).verifiesHash_reread
  rw [← List.append_assoc, admits_append]
  refine ⟨pruned.chain, ?_, trivial⟩
  rw [past_append, past_of_getLast? found]
  refine Chain.faultOf_eq_none_iff.mpr ⟨rfl, rfl, ?_⟩
  simpa [SealedEvent.verifiesHash, SealedEvent.continuing, SealedEvent.computeHash_sealAt] using hash

/-- What a ledger makes of the event that continues a session of which the first events were
removed: it tells the rest of the chain valid, but stores the event only if none were. -/
theorem recorded_of_pruned (made : create store settings = .ok ledger)
    (pruned : store.Pruned raw.sessionId removed kept) (found : kept.getLast? = some last)
    (now : Timestamp) (timeoutMs : Nat) :
    -- What is left is valid from its own first number on.
    (∃ verdict,
      ledger.verify raw.sessionId (UInt64.ofNat removed.length) maxSequence = .ok verdict ∧
      verdict.isValid = true ∧ verdict.eventCount = kept.length) ∧
    -- Behind a cut the event is refused at once, or it is queued and its session halts.
    (removed ≠ [] →
      (ledger.recorded raw timeoutMs now).store = store ∧
      (ledger.isInline raw = true →
        (ledger.emit raw now).1 = .error (.storageWriteFailure raw.sessionId
          (settings.worker.maxWriteRetries + 1)
          (miscounted raw.sessionId kept.length (removed ++ kept).length).message)) ∧
      (¬ledger.isInline raw = true →
        (ledger.emit raw now).1 = .ok .queued ∧
        (ledger.recorded raw timeoutMs now).recorder.progress.isHalted raw.sessionId = true)) ∧
    -- Without a cut it is committed, and if a line can be added that reads back, all is valid.
    (removed = [] →
      (ledger.isInline raw = true →
        (ledger.emit raw now).1 = .ok (.committed (last.continuing raw now))) ∧
      (¬ledger.isInline raw = true →
        (ledger.emit raw now).1 = .ok .queued ∧
        (ledger.recorded raw timeoutMs now).committedSequence raw.sessionId =
          some (last.sequenceNumber + 1)) ∧
      (Extendable (store.directory.contentOf (fileOf raw.sessionId)) →
        (last.continuing raw now).Shallow → kept.length + 1 < UInt64.size →
        ∃ verdict,
          (ledger.recorded raw timeoutMs now).verify raw.sessionId 0 maxSequence = .ok verdict ∧
          verdict.isValid = true ∧ verdict.eventCount = kept.length + 1)) := by
  have told := lastEvent_of_pruned pruned found
  have number := number_of_continuing pruned found raw now
  have whole : ledger.store = store := by
    obtain ⟨queue, _, opened⟩ := create_ok made
    rw [Ledger.store, opened]
    rfl
  refine ⟨?_, fun cut => ?_, fun none => ?_⟩
  · rw [Ledger.verify, whole]
    exact verify_of_rest pruned.chain pruned.short pruned.loaded
  · have refused := pruned.append_refused rfl number cut
    refine ⟨store_recorded_of_refused made told refused timeoutMs, fun inline => ?_,
      fun deferred => ⟨(flush_of_queued made deferred timeoutMs now).1, ?_⟩⟩
    · exact (emit_of_refused made told refused inline).1
    · rw [recorded, if_neg deferred]
      exact (flush_of_refused made told refused deferred timeoutMs).2
  · subst none
    obtain ⟨next, taken⟩ := pruned.append_taken rfl number
    refine ⟨fun inline => ?_, fun deferred => ⟨(flush_of_queued made deferred timeoutMs now).1, ?_⟩,
      fun extendable shallow short => ?_⟩
    · exact (emit_of_taken made told taken inline).1
    · rw [recorded, if_neg deferred]
      exact (flush_of_taken made told taken deferred timeoutMs).2
    · have own : ownEvents raw.sessionId [last.continuing raw now] = [last.continuing raw now] := by
        simp [ownEvents, SealedEvent.continuing, SealedEvent.sealAt]
      have loaded := load_of_append pruned.loaded taken (by rw [own]; exact List.cons_ne_nil _ _)
      rw [own, if_pos ⟨extendable, List.forall_mem_singleton.mpr shallow⟩] at loaded
      rw [Ledger.verify, store_recorded_of_taken made told taken timeoutMs]
      obtain ⟨verdict, verified, valid, count⟩ := verify_of_rest
        (admits_continuing pruned found raw now) (by simpa using short) loaded
      exact ⟨verdict, verified, valid, by simpa using count⟩

end

def prunedFiles : LineFileStore :=
  filesWith ["s"] samplePair.tail

theorem pruned_prunedFiles : prunedFiles.Pruned "s" [samplePair[0]] samplePair.tail where
  chain := admits_sealAll (fresh "s") sampleTime [sampleRaw "a", sampleRaw "b"]
  short := by decide
  loaded := load_filesWith (nameable_sample "s" (by simp)) (by simp) fun event member =>
    readsBack_samplePair event (List.mem_of_mem_tail member)
  filled := List.cons_ne_nil _ _
  unasked := rfl

theorem getLast?_prunedFiles : samplePair.tail.getLast? = some samplePair[1] := rfl

theorem recorded_of_prunedFiles :
    create prunedFiles sampleSettings = .ok (sampleLedger prunedFiles) ∧
      prunedFiles.Pruned "s" [samplePair[0]] samplePair.tail ∧
      samplePair.tail.getLast? = some samplePair[1] ∧
      (∃ verdict, (sampleLedger prunedFiles).verify "s" 1 maxSequence = .ok verdict ∧
        verdict.isValid = true ∧ verdict.eventCount = 1) ∧
      ((sampleLedger prunedFiles).recorded (sampleRaw "c") 0 sampleTime).store = prunedFiles := by
  have law := @recorded_of_pruned prunedFiles sampleSettings _ (sampleRaw "c") _ _ _
    (create_sample _) pruned_prunedFiles getLast?_prunedFiles sampleTime 0
  exact ⟨create_sample _, pruned_prunedFiles, getLast?_prunedFiles, law.1,
    (law.2.1 (List.cons_ne_nil _ _)).1⟩

def promptSettings : Settings :=
  { sampleSettings with mode := .immediate }

/-- The rest of a chain is found valid and its next event refused for its number. -/
theorem refused_behind_cut :
    (fresh "s").Admits samplePair ∧ Store.readAll "s" prunedFiles = .ok samplePair.tail ∧
      ∃ ledger, create prunedFiles promptSettings = .ok ledger ∧
        (ledger.emit (sampleRaw "c") sampleTime).1 =
          .error (.storageWriteFailure "s" 1 (miscounted "s" 1 2).message) ∧
        (ledger.emit (sampleRaw "c") sampleTime).2.store = prunedFiles := by
  have made : create prunedFiles promptSettings =
      .ok { sampleLedger prunedFiles with settings := promptSettings } := rfl
  have told := lastEvent_of_pruned pruned_prunedFiles getLast?_prunedFiles
  have number := number_of_continuing pruned_prunedFiles getLast?_prunedFiles (sampleRaw "c")
    sampleTime
  have refused := pruned_prunedFiles.append_refused rfl number (List.cons_ne_nil _ _)
  exact ⟨pruned_prunedFiles.chain, (readAll_eq_load _ _).trans pruned_prunedFiles.loaded, _, made,
    emit_of_refused made told refused rfl⟩

end AuditTrail.Ledger
