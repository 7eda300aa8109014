import AuditTrail.Proofs.Chain.Heads

/-!
Batches of one session on their way into the store. A raw batch is sealed at the session's head and
then stored whole or handed back sealed; it is handed back with nothing sealed only if it holds a
stray event or the head cannot be loaded. A sealed batch is stored whole or handed back as it was.
-/

namespace AuditTrail

def sealedOf : Except BatchFailure (List SealedEvent) → List SealedEvent
  | .ok events => events
  | .error failure => failure.events

def ChainHead.offered (head : ChainHead) (now : Timestamp) (raws : List RawEvent) :
    Checked ChainHead :=
  let sealed := head.sealAll now raws
  ⟨sealed.2, sealed.1.any overflowsAfter⟩

namespace ChainBuilder

open AtomicStore

variable {σ : Type} [Store σ] [AtomicStore σ]

omit [AtomicStore σ] in
theorem appendBatch_cases (builder : ChainBuilder σ) (session : String) (raws : List RawEvent)
    (persist : Persist σ) (now : Timestamp) :
    ((∃ raw ∈ raws, raw.sessionId ≠ session) ∧
      ∃ error,
        builder.appendBatch session raws persist now = (.error ⟨[], error, false⟩, builder)) ∨
    (∃ error loaded, builder.head session = (.error error, loaded) ∧
      builder.appendBatch session raws persist now = (.error ⟨[], error, false⟩, loaded)) ∨
    ((∀ raw ∈ raws, raw.sessionId = session) ∧
      ∃ head loaded, builder.head session = (.ok head, loaded) ∧
        ((raws = [] ∧ builder.appendBatch session raws persist now = (.ok [], loaded)) ∨
          builder.appendBatch session raws persist now =
            loaded.commit session (head.sealAll now raws).1 (head.offered now raws) persist)) := by
  unfold appendBatch
  cases found : raws.find? fun raw => raw.sessionId ≠ session with
  | some stray =>
      refine Or.inl ⟨⟨stray, List.mem_of_find?_eq_some found, ?_⟩, _, rfl⟩
      simpa using List.find?_some found
  | none =>
      have own : ∀ raw ∈ raws, raw.sessionId = session := by
        intro raw member
        simpa using List.find?_eq_none.mp found raw member
      refine Or.inr ?_
      cases loaded : builder.head session with
      | mk head next =>
          cases head with
          | error error => exact Or.inl ⟨error, next, rfl, rfl⟩
          | ok head =>
              refine Or.inr ⟨own, head, next, rfl, ?_⟩
              have raw_of_sealed := head.map_toRaw_sealAll now raws
              cases batch : (head.sealAll now raws).1 with
              | nil =>
                  rw [batch] at raw_of_sealed
                  refine Or.inl ⟨raw_of_sealed.symm, ?_⟩
                  simp [batch]
              | cons event rest =>
                  refine Or.inr ?_
                  simp [ChainHead.offered, batch]

/-- What becomes of a batch once no stray event is found in it. -/
def offerBatch (builder : ChainBuilder σ) (session : String) (raws : List RawEvent)
    (persist : Persist σ) (now : Timestamp) :
    Except BatchFailure (List SealedEvent) × ChainBuilder σ :=
  match builder.head session with
  | (.error error, loaded) => (.error ⟨[], error, false⟩, loaded)
  | (.ok head, loaded) =>
    loaded.commit session (head.sealAll now raws).1 (head.offered now raws) persist

omit [AtomicStore σ] in
theorem appendBatch_of_own (builder : ChainBuilder σ) {session : String} {raws : List RawEvent}
    (own : ∀ raw ∈ raws, raw.sessionId = session) (filled : raws ≠ []) (persist : Persist σ)
    (now : Timestamp) :
    builder.appendBatch session raws persist now = builder.offerBatch session raws persist now := by
  obtain ⟨raw, rest, rfl⟩ := List.exists_cons_of_ne_nil filled
  have none : (raw :: rest).find? (fun raw => raw.sessionId ≠ session) = none := by
    rw [List.find?_eq_none]
    simpa using own
  unfold appendBatch offerBatch
  rw [none]
  cases builder.head session with
  | mk answer loaded => cases answer <;> rfl

/-- A failure that comes from the store, to which all events of the batch were offered. -/
def Refused (persist : Persist σ) (failure : BatchFailure) : Prop :=
  ∃ store after, persist failure.events store = (.error failure.error, after)

omit [AtomicStore σ] [Store σ] in
theorem refused_of_commit {builder next : ChainBuilder σ} {session : String}
    {events : List SealedEvent} {head : Checked ChainHead} {persist : Persist σ}
    {failure : BatchFailure}
    (committed : builder.commit session events head persist = (.error failure, next)) :
    Refused persist failure := by
  unfold commit at committed
  cases written : persist events builder.store with
  | mk outcome store =>
      rw [written] at committed
      cases outcome with
      | ok => cases committed
      | error error =>
          cases committed
          exact ⟨builder.store, store, written⟩

def Unsealed (builder : ChainBuilder σ) (session : String) (raws : List RawEvent) : Prop :=
  (∃ raw ∈ raws, raw.sessionId ≠ session) ∨ ∃ error, (builder.head session).1 = .error error

section

variable {builder next : ChainBuilder σ} {session : String} {raws : List RawEvent}
  {events : List SealedEvent} {persist : Persist σ} {now : Timestamp}
  {result : Except BatchFailure (List SealedEvent)}

theorem sealedOf_commit {head : Checked ChainHead}
    (atomic : ∀ store, AllOrNothing events store (persist events store))
    (committed : builder.commit session events head persist = (result, next)) :
    sealedOf result = events := by
  rcases builder.commit_cases session events head persist atomic with
    ⟨_, taken, _⟩ | ⟨_, _, refused, _⟩
  · rw [taken] at committed
    cases committed
    rfl
  · rw [refused] at committed
    cases committed
    rfl

theorem appendBatch_stored
    (atomic : ∀ events store, AllOrNothing events store (persist events store))
    (appended : builder.appendBatch session raws persist now = (result, next)) :
    match result with
    | .ok events => Grown events builder.store next.store
    | .error _ => Unchanged builder.store next.store := by
  rcases builder.appendBatch_cases session raws persist now with
    ⟨_, _, stray⟩ | ⟨_, _, failed, unloaded⟩ | ⟨_, head, loaded, found, ⟨_, empty⟩ | offered⟩
  · rw [stray] at appended
    cases appended
    exact fun _ => rfl
  · rw [unloaded] at appended
    cases appended
    exact head_unchanged failed
  · rw [empty] at appended
    cases appended
    intro other
    simpa using head_unchanged found other
  · rw [offered] at appended
    rcases loaded.commit_cases session _ (head.offered now raws) persist (atomic _) with
      ⟨_, taken, grown, _⟩ | ⟨_, _, refused, unchanged, _⟩
    · rw [taken] at appended
      cases appended
      intro other
      rw [grown other, head_unchanged found other]
    · rw [refused] at appended
      cases appended
      exact fun other => (unchanged other).trans (head_unchanged found other)

/-- Whatever becomes of a sealed batch, its events are the raw ones and of the session. -/
theorem appendBatch_sealed
    (atomic : ∀ events store, AllOrNothing events store (persist events store))
    (appended : builder.appendBatch session raws persist now = (result, next)) :
    (∀ event ∈ sealedOf result, event.sessionId = session) ∧
      ((sealedOf result).map SealedEvent.toRaw = raws ∨
        (∃ failure, result = .error failure ∧ failure.events = [] ∧
          builder.Unsealed session raws)) := by
  rcases builder.appendBatch_cases session raws persist now with
    ⟨held, _, stray⟩ | ⟨error, _, failed, unloaded⟩ |
    ⟨own, head, loaded, _, ⟨none, empty⟩ | offered⟩
  · rw [stray] at appended
    cases appended
    exact ⟨by simp [sealedOf], Or.inr ⟨_, rfl, rfl, Or.inl held⟩⟩
  · rw [unloaded] at appended
    cases appended
    exact ⟨by simp [sealedOf], Or.inr ⟨_, rfl, rfl, Or.inr ⟨error, by rw [failed]⟩⟩⟩
  · rw [empty] at appended
    cases appended
    exact ⟨by simp [sealedOf], Or.inl (by simp [sealedOf, none])⟩
  · rw [offered] at appended
    rw [sealedOf_commit (atomic _) appended]
    exact ⟨fun event member => ChainHead.sessionId_of_mem_sealAll own member,
      Or.inl (head.map_toRaw_sealAll now raws)⟩

theorem Coherent.appendBatch (coherent : builder.Coherent)
    (atomic : ∀ events store, AllOrNothing events store (persist events store))
    (appended : builder.appendBatch session raws persist now = (result, next)) :
    next.Coherent ∧ (builder.tip session).Admits (sealedOf result) := by
  rcases builder.appendBatch_cases session raws persist now with
    ⟨_, _, stray⟩ | ⟨_, _, failed, unloaded⟩ | ⟨own, head, loaded, found, ⟨_, empty⟩ | offered⟩
  · rw [stray] at appended
    cases appended
    exact ⟨coherent, trivial⟩
  · rw [unloaded] at appended
    cases appended
    exact ⟨coherent.head failed, trivial⟩
  · rw [empty] at appended
    cases appended
    exact ⟨coherent.head found, trivial⟩
  · rw [offered] at appended
    have told : head = builder.tip session := coherent.head_ok found
    have still : loaded.tip session = builder.tip session :=
      tip_eq_of_stored (head_unchanged found session)
    refine ⟨(coherent.head found).commit (atomic _)
      (fun event member => ChainHead.sessionId_of_mem_sealAll own member)
      (by rw [still, ← told]; exact head.sealAll_snd now raws) appended, ?_⟩
    rw [sealedOf_commit (atomic _) appended, ← told]
    exact head.admits_sealAll now raws

omit [AtomicStore σ] in
theorem commitSealed_cases (builder : ChainBuilder σ) (session : String)
    (events : List SealedEvent) (persist : Persist σ) :
    (∃ error loaded, builder.head session = (.error error, loaded) ∧
      builder.commitSealed session events persist = (.error ⟨events, error, false⟩, loaded)) ∨
    (∃ head loaded, builder.head session = (.ok head, loaded) ∧
      ((events = [] ∧ builder.commitSealed session events persist = (.ok [], loaded)) ∨
      (∃ first rest error, events = first :: rest ∧ head.fits first = false ∧
        builder.commitSealed session events persist =
          (.error ⟨events, error, false⟩, loaded)) ∨
      (∃ first rest last, events = first :: rest ∧ events.getLast? = some last ∧
        head.fits first = true ∧ builder.commitSealed session events persist =
          loaded.commit session events (ChainHead.behind last) persist))) := by
  unfold commitSealed
  cases loaded : builder.head session with
  | mk head next =>
      cases head with
      | error error => exact Or.inl ⟨error, next, rfl, rfl⟩
      | ok head =>
          refine Or.inr ⟨head, next, rfl, ?_⟩
          cases events with
          | nil => exact Or.inl ⟨rfl, rfl⟩
          | cons first rest =>
              refine Or.inr ?_
              cases fits : head.fits first with
              | false =>
                  exact Or.inl ⟨first, rest, _, rfl, fits, by simp [List.getLast?_cons, fits]; rfl⟩
              | true =>
                  refine Or.inr ⟨first, rest, _, rfl, List.getLast?_cons, fits, ?_⟩
                  simp [List.getLast?_cons, fits]

theorem refused_of_appendBatch [ReadableStore σ] {failure : BatchFailure}
    (own : ∀ raw ∈ raws, raw.sessionId = session)
    (failed : builder.appendBatch session raws persist now = (.error failure, next)) :
    Refused persist failure := by
  obtain ⟨head, readable⟩ := head_ok_of_readable builder session
  rcases builder.appendBatch_cases session raws persist now with
    ⟨⟨raw, member, stray⟩, _⟩ | ⟨_, _, unloaded, _⟩ | ⟨_, _, _, _, ⟨_, empty⟩ | offered⟩
  · exact absurd (own raw member) stray
  · rw [unloaded] at readable
    cases readable
  · rw [empty] at failed
    cases failed
  · rw [offered] at failed
    exact refused_of_commit failed

theorem Coherent.refused_of_commitSealed [ReadableStore σ] {failure : BatchFailure}
    (coherent : builder.Coherent) (admits : (builder.tip session).Admits events)
    (failed : builder.commitSealed session events persist = (.error failure, next)) :
    Refused persist failure := by
  obtain ⟨head, readable⟩ := head_ok_of_readable builder session
  rcases builder.commitSealed_cases session events persist with
    ⟨_, _, unloaded, _⟩ |
    ⟨head, loaded, found, ⟨_, empty⟩ | ⟨_, _, _, rfl, stray, _⟩ | ⟨_, _, _, _, _, _, offered⟩⟩
  · rw [unloaded] at readable
    cases readable
  · rw [empty] at failed
    cases failed
  · rw [coherent.head_ok found, admits.fits] at stray
    cases stray
  · rw [offered] at failed
    exact refused_of_commit failed

theorem commitSealed_stored
    (atomic : ∀ events store, AllOrNothing events store (persist events store))
    (committed : builder.commitSealed session events persist = (result, next)) :
    sealedOf result = events ∧
      match result with
      | .ok _ => Grown events builder.store next.store
      | .error _ => Unchanged builder.store next.store := by
  rcases builder.commitSealed_cases session events persist with
    ⟨_, _, failed, unloaded⟩ |
    ⟨head, loaded, found, ⟨none, empty⟩ | ⟨_, _, _, _, _, astray⟩ | ⟨_, _, last, _, _, _, offered⟩⟩
  · rw [unloaded] at committed
    cases committed
    exact ⟨rfl, head_unchanged failed⟩
  · rw [empty] at committed
    cases committed
    refine ⟨none.symm, ?_⟩
    intro other
    simpa [none] using head_unchanged found other
  · rw [astray] at committed
    cases committed
    exact ⟨rfl, head_unchanged found⟩
  · rw [offered] at committed
    rcases loaded.commit_cases session events (ChainHead.behind last) persist (atomic _) with
      ⟨_, taken, grown, _⟩ | ⟨_, _, refused, unchanged, _⟩
    · rw [taken] at committed
      cases committed
      exact ⟨rfl, fun other => by rw [grown other, head_unchanged found other]⟩
    · rw [refused] at committed
      cases committed
      exact ⟨rfl, fun other => (unchanged other).trans (head_unchanged found other)⟩

/-- A batch that is a chain in itself is stored only where it continues the stored chain. -/
theorem Coherent.commitSealed {start : ChainHead} (coherent : builder.Coherent)
    (atomic : ∀ events store, AllOrNothing events store (persist events store))
    (own : ∀ event ∈ events, event.sessionId = session) (admits : start.Admits events)
    (committed : builder.commitSealed session events persist = (result, next)) :
    next.Coherent ∧ ∀ taken, result = .ok taken → (builder.tip session).Admits events := by
  rcases builder.commitSealed_cases session events persist with
    ⟨_, _, failed, unloaded⟩ |
    ⟨head, loaded, found, ⟨none, empty⟩ | ⟨_, _, _, _, _, astray⟩ |
      ⟨first, rest, last, nonempty, end_, fits, offered⟩⟩
  · rw [unloaded] at committed
    cases committed
    exact ⟨coherent.head failed, by simp⟩
  · rw [empty] at committed
    cases committed
    exact ⟨coherent.head found, fun _ _ => none ▸ trivial⟩
  · rw [astray] at committed
    cases committed
    exact ⟨coherent.head found, by simp⟩
  · rw [offered] at committed
    rw [coherent.head_ok found] at fits
    have behind : (ChainHead.behind last).result = (loaded.tip session).past events :=
      (ChainHead.past_of_getLast? end_).symm
    refine ⟨(coherent.head found).commit (atomic _) own behind committed, ?_⟩
    intro _ _
    subst nonempty
    exact ChainHead.admits_of_fits admits fits

end

end ChainBuilder

end AuditTrail
