import AuditTrail.Proofs.Chain.Batches

/-!
Turns at a chain builder, in any order: appends, commits of sealed batches, look-ups of heads and
evictions. What the answer to a turn tells is what the turn has stored, for the session it is about
and for no other, and it continues the chain of that session.
-/

namespace AuditTrail.ChainBuilder

open AtomicStore

/-- What a builder is asked, with its answer. -/
inductive Turn where
  | append (raw : RawEvent) (answer : Outcome SealedEvent)
  | appendBatch (session : String) (raws : List RawEvent)
      (answer : Except BatchFailure (List SealedEvent))
  | commitSealed (session : String) (events : List SealedEvent)
      (answer : Except BatchFailure (List SealedEvent))
  | head (session : String) (answer : Outcome ChainHead)
  | evict (session : String)

namespace Turn

def session : Turn → String
  | .append raw _ => raw.sessionId
  | .appendBatch session _ _ => session
  | .commitSealed session _ _ => session
  | .head session _ => session
  | .evict session => session

def returned : Turn → List SealedEvent
  | .append _ answer => answer.toOption.toList
  | .appendBatch _ _ answer => answer.toOption.getD []
  | .commitSealed _ _ answer => answer.toOption.getD []
  | .head _ _ => []
  | .evict _ => []

def landed (session : String) (turn : Turn) : List SealedEvent :=
  if turn.session = session then turn.returned else []

def landedIn (session : String) (turns : List Turn) : List SealedEvent :=
  turns.flatMap (landed session)

def Failed : Turn → Prop
  | .append _ (.error _) => True
  | .appendBatch _ _ (.error _) => True
  | .commitSealed _ _ (.error _) => True
  | .head _ (.error _) => True
  | _ => False

/-- The events of the answer are those of the question: newly sealed, or sealed as they were. -/
def Faithful : Turn → Prop
  | .append raw (.ok event) => event.toRaw = raw
  | .appendBatch _ raws (.ok events) => events.map SealedEvent.toRaw = raws
  | .commitSealed _ events answer => sealedOf answer = events
  | _ => True

def HandsBack (session : String) (events : List SealedEvent) : Turn → Prop
  | .appendBatch own _ (.error failure) => own = session ∧ failure.events = events
  | .commitSealed own _ (.error failure) => own = session ∧ failure.events = events
  | _ => False

/-- Only batches are committed again that were handed back before. -/
def Allowed (turns : List Turn) : Turn → Prop
  | .commitSealed session events _ => events ≠ [] ∧ ∃ turn ∈ turns, turn.HandsBack session events
  | _ => True

def Linked : Turn → Prop
  | .commitSealed session events _ =>
    (∀ event ∈ events, event.sessionId = session) ∧ ∃ head : ChainHead, head.Admits events
  | _ => True

theorem landedIn_concat (session : String) (turns : List Turn) (turn : Turn) :
    landedIn session (turns ++ [turn]) = landedIn session turns ++ turn.landed session := by
  rw [landedIn, List.flatMap_append, List.flatMap_singleton, ← landedIn]

theorem returned_of_failed {turn : Turn} (failed : turn.Failed) : turn.returned = [] := by
  unfold Failed at failed
  split at failed
  · rfl
  · rfl
  · rfl
  · rfl
  · exact failed.elim

end Turn

variable {σ : Type} [Store σ]

inductive Step : ChainBuilder σ → Turn → ChainBuilder σ → Prop
  | append {builder next : ChainBuilder σ} {raw : RawEvent} {answer : Outcome SealedEvent}
      (now : Timestamp) :
      builder.append raw now = (answer, next) → Step builder (.append raw answer) next
  | appendBatch {builder next : ChainBuilder σ} {session : String} {raws : List RawEvent}
      {answer : Except BatchFailure (List SealedEvent)} (now : Timestamp) :
      builder.appendBatch session raws Store.append now = (answer, next) →
        Step builder (.appendBatch session raws answer) next
  | commitSealed {builder next : ChainBuilder σ} {session : String} {events : List SealedEvent}
      {answer : Except BatchFailure (List SealedEvent)} :
      builder.commitSealed session events Store.append = (answer, next) →
        Step builder (.commitSealed session events answer) next
  | head {builder next : ChainBuilder σ} {session : String} {answer : Outcome ChainHead} :
      builder.head session = (answer, next) → Step builder (.head session answer) next
  | evict {builder : ChainBuilder σ} (session : String) :
      Step builder (.evict session) (builder.evict session)

inductive Run (first : ChainBuilder σ) : List Turn → ChainBuilder σ → Prop
  | nil : Run first [] first
  | tail {turns : List Turn} {turn : Turn} {builder next : ChainBuilder σ} :
      Run first turns builder → turn.Allowed turns → Step builder turn next →
        Run first (turns ++ [turn]) next

variable [AtomicStore σ] {builder next : ChainBuilder σ}

theorem Coherent.answers [ReadableStore σ] (coherent : builder.Coherent) (session : String) :
    (builder.head session).1 = .ok (builder.tip session) := by
  obtain ⟨head, answered⟩ := builder.head_ok_of_readable session
  rw [answered, coherent.head_ok (Prod.ext answered rfl)]

section

variable {session : String} {raws : List RawEvent} {events : List SealedEvent} {now : Timestamp}
  {answer : Except BatchFailure (List SealedEvent)}

theorem appendBatch_of_append {raw : RawEvent} {told : Outcome SealedEvent}
    (appended : builder.append raw now = (told, next)) :
    (∃ event, told = .ok event ∧ event.toRaw = raw ∧
      builder.appendBatch raw.sessionId [raw] Store.append now = (.ok [event], next)) ∨
    (∃ failure : BatchFailure, told = .error failure.error ∧
      builder.appendBatch raw.sessionId [raw] Store.append now = (.error failure, next)) := by
  unfold append at appended
  cases batch : builder.appendBatch raw.sessionId [raw] Store.append now with
  | mk result last =>
      rw [batch] at appended
      cases result with
      | error failure =>
          cases appended
          exact Or.inr ⟨failure, rfl, rfl⟩
      | ok events =>
          rcases (appendBatch_sealed append_allOrNothing batch).2 with sealed | ⟨_, failed, _⟩
          · obtain ⟨event, rfl, same⟩ := List.map_eq_singleton_iff.mp sealed
            cases appended
            exact Or.inl ⟨event, rfl, same, rfl⟩
          · cases failed

theorem grown_of_appendBatch
    (appended : builder.appendBatch session raws Store.append now = (answer, next)) :
    Grown (answer.toOption.getD []) builder.store next.store := by
  have kept := appendBatch_stored append_allOrNothing appended
  cases answer with
  | ok events => exact kept
  | error failure =>
      intro other
      rw [kept other]
      exact (List.append_nil _).symm

theorem grown_of_commitSealed
    (committed : builder.commitSealed session events Store.append = (answer, next)) :
    Grown (answer.toOption.getD []) builder.store next.store := by
  obtain ⟨same, kept⟩ := commitSealed_stored append_allOrNothing committed
  cases answer with
  | ok taken =>
      obtain rfl : taken = events := same
      exact kept
  | error failure =>
      intro other
      rw [kept other]
      exact (List.append_nil _).symm

theorem mem_sealedOf_of_mem {event : SealedEvent} (member : event ∈ answer.toOption.getD []) :
    event ∈ sealedOf answer := by
  cases answer with
  | ok events => exact member
  | error failure => cases member

end

section

variable {turn : Turn}

theorem Step.faithful (step : Step builder turn next) : turn.Faithful := by
  cases step with
  | append now appended =>
      rcases appendBatch_of_append appended with ⟨event, rfl, same, _⟩ | ⟨failure, rfl, _⟩
      · exact same
      · trivial
  | appendBatch now appended =>
      rename_i answer
      cases answer with
      | error failure => trivial
      | ok events =>
          rcases (appendBatch_sealed append_allOrNothing appended).2 with told | ⟨_, failed, _⟩
          · exact told
          · cases failed
  | commitSealed committed => exact (commitSealed_stored append_allOrNothing committed).1
  | head loaded => trivial
  | evict session => trivial

theorem Step.grown (step : Step builder turn next) :
    Grown turn.returned builder.store next.store := by
  cases step with
  | append now appended =>
      rcases appendBatch_of_append appended with ⟨event, rfl, _, batch⟩ | ⟨failure, rfl, batch⟩
      · exact grown_of_appendBatch batch
      · exact grown_of_appendBatch batch
  | appendBatch now appended => exact grown_of_appendBatch appended
  | commitSealed committed => exact grown_of_commitSealed committed
  | head loaded =>
      intro other
      rw [head_unchanged loaded other]
      exact (List.append_nil _).symm
  | evict session => exact fun other => (List.append_nil _).symm

theorem Step.own (step : Step builder turn next) (linked : turn.Linked) :
    ∀ event ∈ turn.returned, event.sessionId = turn.session := by
  intro event member
  cases step with
  | append now appended =>
      rcases appendBatch_of_append appended with ⟨sealed, rfl, rfl, batch⟩ | ⟨failure, rfl, batch⟩
      · exact (appendBatch_sealed append_allOrNothing batch).1 event member
      · cases member
  | appendBatch now appended =>
      exact (appendBatch_sealed append_allOrNothing appended).1 event (mem_sealedOf_of_mem member)
  | commitSealed committed =>
      have same := (commitSealed_stored append_allOrNothing committed).1
      exact linked.1 event (same ▸ mem_sealedOf_of_mem member)
  | head loaded => cases member
  | evict session => cases member

theorem Step.stored (step : Step builder turn next) (linked : turn.Linked) (session : String) :
    stored session next.store = stored session builder.store ++ turn.landed session := by
  unfold Turn.landed
  split
  · subst session
    exact step.grown.own (step.own linked)
  · rename_i other
    rw [step.grown.other (step.own linked) (Ne.symm other), List.append_nil]

/-- A coherent builder stays so, and what it stores continues the chain of the session. -/
theorem Step.coherent (step : Step builder turn next) (linked : turn.Linked)
    (coherent : builder.Coherent) :
    next.Coherent ∧ (builder.tip turn.session).Admits turn.returned := by
  cases step with
  | append now appended =>
      rcases appendBatch_of_append appended with ⟨event, rfl, _, batch⟩ | ⟨failure, rfl, batch⟩
      · exact coherent.appendBatch append_allOrNothing batch
      · exact ⟨(coherent.appendBatch append_allOrNothing batch).1, trivial⟩
  | appendBatch now appended =>
      rename_i answer
      obtain ⟨still, admits⟩ := coherent.appendBatch append_allOrNothing appended
      cases answer with
      | ok events => exact ⟨still, admits⟩
      | error failure => exact ⟨still, trivial⟩
  | commitSealed committed =>
      rename_i answer
      obtain ⟨own, head, chain⟩ := linked
      obtain ⟨still, admits⟩ := coherent.commitSealed append_allOrNothing own chain committed
      cases answer with
      | ok taken =>
          obtain rfl := (commitSealed_stored append_allOrNothing committed).1
          exact ⟨still, admits taken rfl⟩
      | error failure => exact ⟨still, trivial⟩
  | head loaded => exact ⟨coherent.head loaded, trivial⟩
  | evict session => exact ⟨coherent.evict session, trivial⟩

theorem Step.admits_landed (step : Step builder turn next) (linked : turn.Linked)
    (coherent : builder.Coherent) (session : String) :
    (builder.tip session).Admits (turn.landed session) := by
  unfold Turn.landed
  split
  · subst session
    exact (step.coherent linked coherent).2
  · trivial

end

end AuditTrail.ChainBuilder
