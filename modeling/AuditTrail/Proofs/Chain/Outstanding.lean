import AuditTrail.Proofs.Chain.Turns

/-!
Sealed batches that were handed back and wait to be committed again. Any number of them can be
outstanding for a session, sealed at different heads; each remembers the chain it was sealed behind.
Since a chain only grows, a batch attaches to its head exactly as long as nothing was stored behind
the chain it remembers, so it is enough to compare its first event with the head.
-/

namespace AuditTrail.ChainBuilder

open AtomicStore

/-- The turns that followed an append that failed and handed a sealed batch back. -/
def Since (turns : List Turn) (session : String) (events : List SealedEvent)
    (after : List Turn) : Prop :=
  ∃ before raws failure,
    turns = before ++ .appendBatch session raws (.error failure) :: after ∧ failure.events = events

theorem since_concat {turns after : List Turn} {turn : Turn} {session : String}
    {events : List SealedEvent} :
    Since (turns ++ [turn]) session events after ↔
      (after = [] ∧ ∃ raws failure,
        turn = .appendBatch session raws (.error failure) ∧ failure.events = events) ∨
      ∃ fewer, after = fewer ++ [turn] ∧ Since turns session events fewer := by
  constructor
  · rintro ⟨before, raws, failure, cut, same⟩
    rcases List.eq_nil_or_concat after with rfl | ⟨fewer, last, rfl⟩
    · obtain ⟨_, one⟩ := List.append_inj' cut rfl
      exact Or.inl ⟨rfl, raws, failure, List.singleton_inj.mp one, same⟩
    · rw [List.concat_eq_append, ← List.cons_append, ← List.append_assoc] at cut
      obtain ⟨rest, one⟩ := List.append_inj' cut rfl
      obtain rfl := List.singleton_inj.mp one
      exact Or.inr ⟨fewer, List.concat_eq_append, before, raws, failure, rest, same⟩
  · rintro (⟨rfl, raws, failure, rfl, same⟩ | ⟨fewer, rfl, before, raws, failure, rfl, same⟩)
    · exact ⟨turns, raws, failure, rfl, same⟩
    · exact ⟨before, raws, failure, by simp, same⟩

section

variable {σ : Type} [Store σ] [AtomicStore σ] {first builder next : ChainBuilder σ}
  {turns : List Turn} {turn : Turn} {session : String} {event : SealedEvent}
  {events rest added : List SealedEvent}

/-- A batch was sealed behind a part of the stored chain; the rest was stored after it. -/
structure Outstanding (builder : ChainBuilder σ) (session : String)
    (events added : List SealedEvent) : Prop where
  own : ∀ event ∈ events, event.sessionId = session
  attached : ∃ old, stored session builder.store = old ++ added ∧
    ((ChainHead.fresh session).past old).Admits events

structure Sound (turns : List Turn) (builder : ChainBuilder σ) : Prop where
  coherent : builder.Coherent
  chained : ∀ session, (ChainHead.fresh session).Admits (stored session builder.store)
  outstanding : ∀ session events after, Since turns session events after →
    Outstanding builder session events (Turn.landedIn session after)

theorem outstanding_of_failed (step : Step builder turn next) (coherent : builder.Coherent)
    {raws : List RawEvent} {failure : BatchFailure}
    (failed : turn = .appendBatch session raws (.error failure)) :
    Outstanding next session failure.events [] := by
  subst failed
  cases step with
  | appendBatch now appended =>
      have still : stored session next.store = stored session builder.store :=
        appendBatch_stored append_allOrNothing appended session
      exact ⟨(appendBatch_sealed append_allOrNothing appended).1, stored session builder.store,
        still.trans (List.append_nil _).symm,
        (coherent.appendBatch append_allOrNothing appended).2⟩

theorem Outstanding.grow (outstanding : Outstanding builder session events added)
    {more : List SealedEvent}
    (grown : stored session next.store = stored session builder.store ++ more) :
    Outstanding next session events (added ++ more) := by
  obtain ⟨own, old, cut, admits⟩ := outstanding
  exact ⟨own, old, by rw [grown, cut, List.append_assoc], admits⟩

theorem Sound.step (sound : Sound turns builder) (linked : turn.Linked)
    (step : Step builder turn next) : Sound (turns ++ [turn]) next where
  coherent := (step.coherent linked sound.coherent).1
  chained session := by
    rw [step.stored linked]
    exact (ChainHead.admits_append _ _ _).mpr
      ⟨sound.chained session, step.admits_landed linked sound.coherent session⟩
  outstanding session events after since := by
    rcases since_concat.mp since with ⟨rfl, raws, failure, failed, rfl⟩ | ⟨fewer, rfl, before⟩
    · exact outstanding_of_failed step sound.coherent failed
    · rw [Turn.landedIn_concat]
      exact (sound.outstanding session events fewer before).grow (step.stored linked session)

theorem Run.since_of_handsBack (run : Run first turns builder) (member : turn ∈ turns)
    (back : turn.HandsBack session events) : ∃ after, Since turns session events after := by
  induction run generalizing turn with
  | nil => cases member
  | @tail turns last builder next run allowed step ih =>
      rcases List.mem_append.mp member with earlier | now
      · obtain ⟨after, since⟩ := ih earlier back
        exact ⟨_, since_concat.mpr (Or.inr ⟨after, rfl, since⟩)⟩
      · obtain rfl := List.mem_singleton.mp now
        unfold Turn.HandsBack at back
        split at back
        · obtain ⟨rfl, same⟩ := back
          exact ⟨[], since_concat.mpr (Or.inl ⟨rfl, _, _, rfl, same⟩)⟩
        -- A commit hands back what it was given, and that was handed back by an earlier turn.
        · obtain ⟨rfl, rfl⟩ := back
          obtain ⟨_, earlier, known, again⟩ := allowed
          obtain rfl := step.faithful
          obtain ⟨after, since⟩ := ih known again
          exact ⟨_, since_concat.mpr (Or.inr ⟨after, rfl, since⟩)⟩
        · exact back.elim

theorem Run.linked (run : Run first turns builder) (sound : Sound turns builder)
    (allowed : turn.Allowed turns) : turn.Linked := by
  cases turn with
  | commitSealed session events answer =>
      obtain ⟨_, earlier, member, back⟩ := allowed
      obtain ⟨after, since⟩ := run.since_of_handsBack member back
      obtain ⟨own, old, _, admits⟩ := sound.outstanding session events after since
      exact ⟨own, _, admits⟩
  | append | appendBatch | head | evict => trivial

theorem Run.sound (run : Run first turns builder) (coherent : first.Coherent)
    (chained : ∀ session, (ChainHead.fresh session).Admits (stored session first.store)) :
    Sound turns builder := by
  induction run with
  | nil =>
      refine ⟨coherent, chained, ?_⟩
      rintro session events after ⟨before, raws, failure, empty, _⟩
      simp at empty
  | tail run allowed step ih => exact ih.step (run.linked ih allowed) step

theorem Outstanding.fits (outstanding : Outstanding builder session (event :: rest) []) :
    (builder.tip session).fits event = true := by
  obtain ⟨_, old, cut, admits⟩ := outstanding
  rw [List.append_nil] at cut
  rw [tip, cut]
  exact admits.fits

theorem Outstanding.added_eq_nil_of_fits
    (outstanding : Outstanding builder session (event :: rest) added)
    (chained : (ChainHead.fresh session).Admits (stored session builder.store))
    (bound : added.length < UInt64.size) (fits : (builder.tip session).fits event = true) :
    added = [] := by
  obtain ⟨_, old, cut, admits⟩ := outstanding
  rw [cut] at chained
  have moved := ((ChainHead.admits_append _ _ _).mp chained).2.nextSequence_past
  have number := (Chain.faultOf_eq_none_iff.mp admits.1).1
  simp only [ChainHead.fits, tip, cut, ChainHead.past_append, Bool.and_eq_true, beq_iff_eq] at fits
  -- The chain has only grown since, so the number alone tells that it has.
  rw [← fits.1, number] at moved
  have zero : UInt64.ofNat added.length = 0 := UInt64.left_eq_add.mp moved
  have count : (UInt64.ofNat added.length).toNat = added.length := UInt64.toNat_ofNat_of_lt bound
  rw [zero] at count
  exact List.eq_nil_of_length_eq_zero count.symm

end

section

variable {σ : Type} [Store σ] {builder loaded : ChainBuilder σ} {session : String}
  {head : ChainHead} {event : SealedEvent}

theorem commitSealed_of_astray (rest : List SealedEvent) (persist : Persist σ)
    (found : builder.head session = (.ok head, loaded)) (astray : head.fits event = false) :
    builder.commitSealed session (event :: rest) persist =
      (.error ⟨event :: rest, .chainBreak session event.sequenceNumber
        s!"sealed batch does not attach to head (next sequence {head.nextSequence})", false⟩,
        loaded) := by
  simp [commitSealed, found, List.getLast?_cons, astray]

theorem commitSealed_of_fits (rest : List SealedEvent) (persist : Persist σ)
    (found : builder.head session = (.ok head, loaded)) (fits : head.fits event = true) :
    ∃ next, builder.commitSealed session (event :: rest) persist =
      loaded.commit session (event :: rest) next persist := by
  refine ⟨ChainHead.behind ((event :: rest).getLast (List.cons_ne_nil _ _)), ?_⟩
  simp [commitSealed, found, List.getLast?_eq_some_getLast, fits]

end

variable {σ : Type} [Store σ]

theorem offered_head (builder : ChainBuilder (Logged σ)) (session : String) :
    (builder.head session).2.store.offered = builder.store.offered := by
  unfold ChainBuilder.head
  split
  · rfl
  · cases asked : Store.lastEvent session builder.store with
    | mk answer store =>
        obtain rfl := congrArg Prod.snd asked
        cases answer <;> rfl

theorem offered_commit (builder : ChainBuilder (Logged σ)) (session : String)
    (events : List SealedEvent) (head : Checked ChainHead) :
    (builder.commit session events head Store.append).2.store.offered =
      builder.store.offered ++ [events] := by
  unfold commit
  cases written : Store.append events builder.store with
  | mk answer store =>
      obtain rfl := congrArg Prod.snd written
      cases answer <;> rfl

/-- What becomes of a sealed batch that is committed again. If nothing of its session was stored
since it was sealed, the store is offered the batch once. Otherwise it is not, unless so much was
stored that the numbers have started over. -/
structure Recommitted (turns : List Turn) (builder : ChainBuilder (Logged σ)) (session : String)
    (events : List SealedEvent) (answer : Except BatchFailure (List SealedEvent))
    (next : ChainBuilder (Logged σ)) : Prop where
  outstanding : ∃ after, Since turns session events after
  fresh : ∀ after, Since turns session events after → Turn.landedIn session after = [] →
    next.store.offered = builder.store.offered ++ [events]
  stale : ∀ after, Since turns session events after → Turn.landedIn session after ≠ [] →
    (Turn.landedIn session after).length < UInt64.size →
      next.store.offered = builder.store.offered ∧
        ∃ first head, events.head? = some first ∧ (builder.head session).1 = .ok head ∧
          answer = .error ⟨events, .chainBreak session first.sequenceNumber
            s!"sealed batch does not attach to head (next sequence {head.nextSequence})", false⟩

structure Lawful [AtomicStore σ] (turns : List Turn) (builder : ChainBuilder (Logged σ))
    (turn : Turn) (next : ChainBuilder (Logged σ)) : Prop where
  recommitted : ∀ session events answer, turn = .commitSealed session events answer →
    Recommitted turns builder session events answer next
  failed : turn.Failed → ∀ session, stored session next.store = stored session builder.store ∧
    (next.head session).1 = (builder.head session).1
  faithful : turn.Faithful
  extended : ∀ session,
    stored session next.store = stored session builder.store ++ turn.landed session
  valid : ∀ session, (Chain.verifyRange session 0 (stored session next.store)).isValid = true

section

variable {σ : Type} [Store σ] [AtomicStore σ] [ReadableStore σ] {first : ChainBuilder (Logged σ)}
  {builder next : ChainBuilder (Logged σ)} {turns : List Turn} {turn : Turn}

theorem Sound.recommitted (sound : Sound turns builder) {session : String}
    {events : List SealedEvent} {answer : Except BatchFailure (List SealedEvent)}
    (filled : events ≠ []) (outstanding : ∃ after, Since turns session events after)
    (committed : builder.commitSealed session events Store.append = (answer, next)) :
    Recommitted turns builder session events answer next := by
  obtain ⟨event, rest, rfl⟩ := List.exists_cons_of_ne_nil filled
  have answered := sound.coherent.answers session
  have found : builder.head session = (.ok (builder.tip session), (builder.head session).2) :=
    Prod.ext answered rfl
  have untouched := offered_head builder session
  refine ⟨outstanding, ?_, ?_⟩
  · intro after since nothing
    have waits := sound.outstanding session _ after since
    rw [nothing] at waits
    obtain ⟨head, commits⟩ := commitSealed_of_fits rest Store.append found waits.fits
    have offered := offered_commit (builder.head session).2 session (event :: rest) head
    rwa [← commits, committed, untouched] at offered
  · intro after since landed bound
    have waits := sound.outstanding session _ after since
    have astray : (builder.tip session).fits event = false := by
      refine (Bool.not_eq_true _).mp fun fits => landed ?_
      exact waits.added_eq_nil_of_fits (sound.chained session) bound fits
    rw [commitSealed_of_astray rest Store.append found astray] at committed
    cases committed
    exact ⟨untouched, event, _, rfl, answered, rfl⟩

/-- Whatever was asked of a builder before, stale batches are refused and fresh ones land once,
failures change nothing, and every stored chain stays valid. -/
theorem Run.lawful {store : Logged σ}
    (valid : ∀ session, (Chain.verifyRange session 0 (stored session store)).isValid = true)
    (run : Run { store } turns builder) (allowed : turn.Allowed turns)
    (step : Step builder turn next) : Lawful turns builder turn next := by
  have sound := run.sound (coherent_open store) fun session =>
    Chain.verifyRange_zero_isValid_iff.mp (valid session)
  have linked := run.linked sound allowed
  have later := sound.step linked step
  refine ⟨?_, ?_, step.faithful, step.stored linked, ?_⟩
  · rintro session events answer rfl
    obtain ⟨filled, earlier, member, back⟩ := allowed
    cases step with
    | commitSealed committed =>
        exact sound.recommitted filled (run.since_of_handsBack member back) committed
  · intro failed session
    have same : stored session next.store = stored session builder.store := by
      rw [step.stored linked, Turn.landed, Turn.returned_of_failed failed, ite_self,
        List.append_nil]
    refine ⟨same, ?_⟩
    rw [later.coherent.answers, sound.coherent.answers, tip_eq_of_stored same]
  · intro session
    exact Chain.verifyRange_zero_isValid_iff.mpr (later.chained session)

/-! ### A batch that another event overtakes -/

def sampleFirst (id : String) : SealedEvent :=
  .sealAt (sampleRaw id) 0 (genesis "s") sampleTime

def refusingOnce : Logged (RefusingStore MemoryStore) :=
  ⟨⟨{}, [true]⟩, []⟩

def refusedSample : ChainBuilder (Logged (RefusingStore MemoryStore)) where
  store := ⟨⟨{}, []⟩, [[sampleFirst "a"]]⟩
  heads := [("s", some (.fresh "s"))]

def overtakenSample : ChainBuilder (Logged (RefusingStore MemoryStore)) where
  store := ⟨⟨{ events := [sampleFirst "b"] }, []⟩, [[sampleFirst "a"], [sampleFirst "b"]]⟩

def overtakenTurns : List Turn := [
  .appendBatch "s" [sampleRaw "a"]
    (.error ⟨[sampleFirst "a"], .storage "refusing" "write refused", true⟩),
  .append (sampleRaw "b") (.ok (sampleFirst "b")),
  .evict "s"]

theorem run_overtaken : Run { store := refusingOnce } overtakenTurns overtakenSample := by
  have refuses : Step { store := refusingOnce } (.appendBatch "s" [sampleRaw "a"]
      (.error ⟨[sampleFirst "a"], .storage "refusing" "write refused", true⟩)) refusedSample :=
    .appendBatch sampleTime rfl
  have overtakes : Step refusedSample (.append (sampleRaw "b") (.ok (sampleFirst "b")))
      { overtakenSample with heads := [("s", some (.after (sampleFirst "b")))] } :=
    .append sampleTime rfl
  have refused := Run.nil.tail (by trivial) refuses
  have overtaken := refused.tail (by trivial) overtakes
  exact overtaken.tail trivial (.evict "s")

theorem lawful_of_overtaken :
    ∃ answer next, Lawful overtakenTurns overtakenSample
      (.commitSealed "s" [sampleFirst "a"] answer) next ∧
        answer = .error ⟨[sampleFirst "a"], .chainBreak "s" 0
          "sealed batch does not attach to head (next sequence 1)", false⟩ := by
  have fresh (session : String) :
      (Chain.verifyRange session 0 (stored session refusingOnce)).isValid = true :=
    Chain.verifyRange_zero_isValid_iff.mpr trivial
  have allowed (answer : Except BatchFailure (List SealedEvent)) :
      (Turn.commitSealed "s" [sampleFirst "a"] answer).Allowed overtakenTurns :=
    ⟨List.cons_ne_nil _ _, _, List.mem_cons_self, rfl, rfl⟩
  exact ⟨_, _, Run.lawful fresh run_overtaken (allowed _) (.commitSealed rfl), rfl⟩

end

end AuditTrail.ChainBuilder
