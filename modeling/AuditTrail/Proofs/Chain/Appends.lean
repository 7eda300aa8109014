import AuditTrail.Proofs.Chain.Batches

/-!
Recording a session event by event. Over a store in memory every append succeeds, and what is stored
in the end are the raw events sealed one after another.
-/

namespace AuditTrail

open AtomicStore

namespace MemoryStore

theorem append_next {store : MemoryStore} {event : SealedEvent}
    (next : event.sequenceNumber = UInt64.ofNat (store.session event.sessionId).length) :
    Store.append [event] store = (.ok (), { store with events := store.events ++ [event] }) := by
  change append [event] store = _
  have counted : store.counts [event] = [(event.sessionId, event.sequenceNumber)] := by
    rw [next]
    rfl
  simp [append, counted, Store.checkContiguous, Table.find?]

end MemoryStore

namespace ChainBuilder

def appendAll {σ : Type} [Store σ] (now : Timestamp) :
    List RawEvent → ChainBuilder σ → Outcome (List SealedEvent) × ChainBuilder σ
  | [], builder => (.ok [], builder)
  | raw :: rest, builder =>
    match builder.append raw now with
    | (.error error, builder) => (.error error, builder)
    | (.ok event, builder) =>
      let (outcome, builder) := appendAll now rest builder
      (outcome.map (event :: ·), builder)

section

variable {builder : ChainBuilder MemoryStore} {session : String}

theorem nextSequence_tip
    (chained : (ChainHead.fresh session).Admits (stored session builder.store)) :
    (builder.tip session).nextSequence = UInt64.ofNat (stored session builder.store).length := by
  rw [tip, chained.nextSequence_past]
  exact UInt64.zero_add _

theorem append_memory {raw : RawEvent} (now : Timestamp) (coherent : builder.Coherent)
    (chained : (ChainHead.fresh raw.sessionId).Admits (stored raw.sessionId builder.store)) :
    let tip := builder.tip raw.sessionId
    let event := SealedEvent.sealAt raw tip.nextSequence tip.hash now
    ∃ next, builder.append raw now = (.ok event, next) ∧ next.Coherent ∧
      stored raw.sessionId next.store = stored raw.sessionId builder.store ++ [event] := by
  intro tip event
  rcases builder.appendBatch_cases raw.sessionId [raw] Store.append now with
    ⟨⟨other, member, astray⟩, _⟩ | ⟨error, _, failed, _⟩ | ⟨_, head, loaded, found, none | offered⟩
  · rw [List.mem_singleton.mp member] at astray
    exact absurd rfl astray
  · obtain ⟨head, answers⟩ := builder.head_ok_of_readable raw.sessionId
    rw [failed] at answers
    cases answers
  · cases none.1
  · have same := head_unchanged found raw.sessionId
    obtain rfl : head = tip := coherent.head_ok found
    have taken : (Store.append [event] loaded.store).1 = .ok () := by
      refine congrArg Prod.fst (MemoryStore.append_next ?_)
      change tip.nextSequence = UInt64.ofNat (stored raw.sessionId loaded.store).length
      rw [same]
      exact nextSequence_tip chained
    have atomic (store : MemoryStore) :
        AllOrNothing [event] store (Store.append [event] store) := append_allOrNothing _ store
    have own : ∀ other ∈ [event], other.sessionId = raw.sessionId := by
      intro other member
      rw [List.mem_singleton.mp member]
      rfl
    change builder.appendBatch raw.sessionId [raw] Store.append now =
      loaded.commit raw.sessionId [event] (tip.offered now [raw]) Store.append at offered
    rcases loaded.commit_cases raw.sessionId [event] (tip.offered now [raw]) Store.append atomic with
      ⟨next, committed, grown, _⟩ | ⟨error, next, refused, _⟩
    · have behind : (tip.offered now [raw]).result = (loaded.tip raw.sessionId).past [event] := rfl
      have still := (coherent.head found).commit atomic own behind committed
      refine ⟨next, ?_, still, ?_⟩
      · rw [append, offered, committed]
      · rw [grown.own own, same]
    · simp [commit, taken] at refused

theorem appendAll_memory {raws : List RawEvent} (now : Timestamp) (coherent : builder.Coherent)
    (chained : (ChainHead.fresh session).Admits (stored session builder.store))
    (own : ∀ raw ∈ raws, raw.sessionId = session) :
    let events := ((builder.tip session).sealAll now raws).1
    ∃ next, builder.appendAll now raws = (.ok events, next) ∧
      stored session next.store = stored session builder.store ++ events := by
  induction raws generalizing builder with
  | nil => exact ⟨builder, rfl, (List.append_nil _).symm⟩
  | cons raw rest ih =>
      obtain rfl := own raw List.mem_cons_self
      obtain ⟨next, appended, still, grown⟩ := append_memory now coherent chained
      have tip : next.tip raw.sessionId = .after (SealedEvent.sealAt raw
          (builder.tip raw.sessionId).nextSequence (builder.tip raw.sessionId).hash now) := by
        rw [ChainBuilder.tip, grown, ChainHead.past_append]
        rfl
      have admits : (ChainHead.fresh raw.sessionId).Admits (stored raw.sessionId next.store) := by
        rw [grown]
        exact (ChainHead.admits_append _ _ _).mpr
          ⟨chained, (builder.tip raw.sessionId).admits_sealAll now [raw]⟩
      obtain ⟨last, appendedAll, whole⟩ :=
        ih still admits fun other member => own other (List.mem_cons_of_mem _ member)
      rw [tip] at appendedAll whole
      refine ⟨last, ?_, ?_⟩
      · simp only [appendAll, appended, appendedAll]
        rfl
      · rw [whole, grown, List.append_assoc]
        rfl

end

end ChainBuilder

end AuditTrail
