import AuditTrail.Proofs.Ledger.Runs
import AuditTrail.Proofs.Recorder.Sound

/-!
Ledgers over one store, one after another. Each may be closed or lost at any time, and the next one
starts from what is stored. However operations follow on one another and whichever appends and
loads fail, every session stays one whole chain, with its loaded head and its mark at the end of it.
-/

namespace AuditTrail.Ledger

open AtomicStore

section

variable {σ : Type} [Store σ]

/-- The ledgers over a store; a lost ledger has stored only what it had stored before. -/
inductive Lifetime [AtomicStore σ] (store : σ) : Ledger σ → Prop
  | created {settings : Settings} {ledger : Ledger σ} :
      create store settings = .ok ledger → Lifetime store ledger
  | step {ledger : Ledger σ} (op : Op) (now : Timestamp) :
      Lifetime store ledger → Lifetime store (ledger.perform op now)
  | weather {ledger : Ledger σ} (other : σ) :
      Unchanged ledger.store other → Lifetime store ledger → Lifetime store (ledger.withStore other)
  | closed {settings : Settings} {ledger next : Ledger σ} (now : Timestamp) :
      Lifetime store ledger → create (ledger.close now) settings = .ok next → Lifetime store next
  | lost {settings : Settings} {ledger next : Ledger σ} :
      Lifetime store ledger → create ledger.store settings = .ok next → Lifetime store next

end

section

variable {σ : Type} [Store σ] [AtomicStore σ]

theorem Lifetime.sound {store : σ} {ledger : Ledger σ} (alive : Lifetime store ledger)
    (chained : ∀ session, (ChainHead.fresh session).Admits (stored session store)) :
    ledger.recorder.Sound := by
  induction alive with
  | created made =>
      obtain ⟨queue, _, fresh⟩ := create_ok made
      exact fresh ▸ Recorder.sound_create chained
  | step op now _ ih =>
      have settled : Journal.Settled {} := ⟨rfl, rfl⟩
      obtain ⟨_, steps⟩ := steps_perform ih.halts settled rfl op now
      exact steps.sound ih
  | @weather ledger other same _ ih =>
      have calm : Recorder.Step (ledger.recorder, {}) (ledger.recorder.withStore other, {}) :=
        Recorder.Step.weather other same
      exact calm.sound ih
  | @closed _ ledger _ now _ made ih =>
      obtain ⟨last, chores, left⟩ := close_eq now ledger
      obtain ⟨_, steps⟩ := chores.works ih.halts {} ⟨rfl, rfl⟩
      obtain ⟨queue, _, fresh⟩ := create_ok made
      rw [fresh, left]
      exact Recorder.sound_create (steps.sound ih).chained
  | lost _ made ih =>
      obtain ⟨queue, _, fresh⟩ := create_ok made
      rw [fresh]
      exact Recorder.sound_create ih.chained

theorem verify_all (store : σ) (session : String) :
    Store.verify store session 0 maxSequence =
      (Store.readAll session store).map fun _ =>
        Chain.verifyRange session 0 (stored session store) := by
  have bounds : ¬maxSequence < 0 := by decide
  have read : Store.verify store session 0 maxSequence =
      (Store.readAll session store).map (Chain.verifyRange session 0) := by
    simp only [Store.verify, bounds, if_false, if_true]
    rfl
  rw [read]
  cases answer : Store.readAll session store with
  | error error => rfl
  | ok events =>
      have whole : events = stored session store := by
        rw [readRange_ok answer]
        exact List.filter_eq_self.mpr fun event _ => inRange_all event
      rw [whole]
      rfl

theorem head_of_sound {recorder : Recorder σ} (sound : recorder.Sound) {session : String}
    {head : ChainHead} (bound : (stored session recorder.store).length < UInt64.size)
    (loaded : recorder.chain.heads.find? session = some (some head)) :
    head.nextSequence.toNat = (stored session recorder.store).length ∧
      head.hash =
        ((stored session recorder.store).getLast?.map (·.eventHash)).getD (genesis session) := by
  have tip : head = (ChainHead.fresh session).past (stored session recorder.store) :=
    sound.coherent.known session head loaded
  subst tip
  refine ⟨(sound.chained session).toNat_nextSequence bound, ?_⟩
  cases end_ : (stored session recorder.store).getLast? with
  | none => rw [List.getLast?_eq_none_iff.mp end_]; rfl
  | some last => rw [ChainHead.past_of_getLast? end_]; rfl

theorem mark_of_sound {recorder : Recorder σ} (sound : recorder.Sound) {session : String}
    {sequence : UInt64} (bound : (stored session recorder.store).length < UInt64.size)
    (marked : (recorder.progress.of session).committed = some sequence) :
    ∃ last, (stored session recorder.store).getLast? = some last ∧
      last.sequenceNumber = sequence := by
  have counted := sound.marked session sequence marked bound
  cases end_ : (stored session recorder.store).getLast? with
  | none => simp [List.getLast?_eq_none_iff.mp end_] at counted
  | some last =>
      have final := (sound.chained session).toNat_last bound end_
      exact ⟨last, rfl, UInt64.toNat_inj.mp (by omega)⟩

structure Agrees (ledger : Ledger σ) (session : String) : Prop where
  verifies : match Store.readAll session ledger.store with
    | .ok _ => ∃ verdict, ledger.verify session 0 maxSequence = .ok verdict ∧
        verdict.isValid = true
    | .error error => ledger.verify session 0 maxSequence = .error error
  head : ∀ head, ledger.recorder.chain.heads.find? session = some (some head) →
    head.nextSequence.toNat = (stored session ledger.store).length ∧
      head.hash =
        ((stored session ledger.store).getLast?.map (·.eventHash)).getD (genesis session)
  mark : ∀ sequence, ledger.committedSequence session = some sequence →
    ∃ last, (stored session ledger.store).getLast? = some last ∧ last.sequenceNumber = sequence

/-- Through the whole lifetime of a store whose sessions verify at its start, every session
verifies whenever it can be read, its loaded head stands behind its last event, and its mark is the
number of that event. -/
theorem Lifetime.agrees {store : σ} {ledger : Ledger σ}
    (valid : ∀ session, (Chain.verifyRange session 0 (stored session store)).isValid = true)
    (alive : Lifetime store ledger)
    (bound : ∀ session, (stored session ledger.store).length < UInt64.size) (session : String) :
    ledger.Agrees session := by
  have sound := alive.sound fun session => Chain.verifyRange_zero_isValid_iff.mp (valid session)
  refine ⟨?_, fun _ => head_of_sound sound (bound session),
    fun _ => mark_of_sound sound (bound session)⟩
  have verified := verify_all ledger.store session
  cases answer : Store.readAll session ledger.store with
  | error error => rw [answer] at verified; exact verified
  | ok events =>
      rw [answer] at verified
      exact ⟨_, verified, Chain.verifyRange_zero_isValid_iff.mpr (sound.chained session)⟩

def reopenedSample : Ledger (RefusingStore MemoryStore) :=
  let first := sampleLedger refusingSample
  let halted := (first.perform (.emit (sampleRaw "a")) sampleTime).perform (.cycle true) sampleTime
  sampleLedger ((halted.perform (.retryFailed "s") sampleTime).close sampleTime)

theorem agrees_of_reopened : reopenedSample.store.store.events.length = 1 ∧
    ∀ session, reopenedSample.Agrees session := by
  have one : reopenedSample.store.store.events.length = 1 := by decide +kernel
  have alive : Lifetime refusingSample reopenedSample :=
    ((((Lifetime.created (create_sample _)).step (.emit (sampleRaw "a")) sampleTime).step
      (.cycle true) sampleTime).step (.retryFailed "s") sampleTime).closed sampleTime
      (create_sample _)
  refine ⟨one, Lifetime.agrees ?_ alive ?_⟩
  · exact fun session => Chain.verifyRange_zero_isValid_iff.mpr trivial
  · intro session
    have fewer (store : RefusingStore MemoryStore) :
        (stored session store).length ≤ store.store.events.length :=
      List.length_filter_le _ _
    calc
      (stored session reopenedSample.store).length ≤ reopenedSample.store.store.events.length :=
        fewer reopenedSample.store
      _ = 1 := one
      _ < UInt64.size := by decide

end

end AuditTrail.Ledger
