import AuditTrail.Proofs.Chain.Links
import AuditTrail.Proofs.Store.Atomic
import AuditTrail.Proofs.Table

/-!
Heads and what is stored behind them. A builder is coherent if every head it holds stands right
behind the stored events of its session; loading a head, committing a batch and failing at either
keep it so, provided that a batch is written whole or not at all.
-/

namespace AuditTrail.ChainBuilder

open AtomicStore

variable {σ : Type} [Store σ] [AtomicStore σ]

def tip (builder : ChainBuilder σ) (session : String) : ChainHead :=
  (ChainHead.fresh session).past (stored session builder.store)

structure Coherent (builder : ChainBuilder σ) : Prop where
  ordered : builder.heads.Ordered
  known : ∀ session head, builder.heads.find? session = some (some head) →
    head = builder.tip session

theorem tip_eq_of_stored {before after : ChainBuilder σ} {session : String}
    (same : stored session after.store = stored session before.store) :
    after.tip session = before.tip session := by
  simp only [tip, same]

theorem coherent_open (store : σ) : Coherent { store } where
  ordered := Table.Ordered.nil
  known := by
    intro session head found
    simp at found

theorem Coherent.congr {before after : ChainBuilder σ} (coherent : before.Coherent)
    (heads : after.heads = before.heads) (unchanged : Unchanged before.store after.store) :
    after.Coherent where
  ordered := heads ▸ coherent.ordered
  known := by
    intro session head found
    rw [heads] at found
    rw [coherent.known session head found, tip_eq_of_stored (unchanged session)]

/-- A head that is set to where the stored events of its session end keeps a builder coherent, as
long as nothing was stored for other sessions. -/
theorem Coherent.setHead {before after : ChainBuilder σ} {session : String}
    {head : Option ChainHead} (coherent : before.Coherent)
    (heads : after.heads = before.heads.insert session head)
    (others : ∀ other, other ≠ session → stored other after.store = stored other before.store)
    (right : ∀ known, head = some known → known = after.tip session) : after.Coherent where
  ordered := by
    rw [heads]
    exact coherent.ordered.insert session head
  known := by
    intro other known found
    rw [heads, Table.find?_insert] at found
    by_cases same : other = session
    · subst other
      exact right known (by simpa using found)
    · rw [if_neg same] at found
      rw [coherent.known other known found, tip_eq_of_stored (others other same)]

theorem Coherent.evict {builder : ChainBuilder σ} (coherent : builder.Coherent)
    (session : String) : (builder.evict session).Coherent where
  ordered := coherent.ordered.erase session
  known := by
    intro other head found
    simp only [ChainBuilder.evict, coherent.ordered.find?_erase] at found
    split at found
    · simp at found
    · exact coherent.known other head found

theorem head_cases (builder : ChainBuilder σ) (session : String) :
    (∃ head, builder.heads.find? session = some (some head) ∧
      builder.head session = (.ok head, builder)) ∨
    (∃ head next, builder.head session = (head, next) ∧
      Unchanged builder.store next.store ∧
      ((head = .ok (builder.tip session) ∧
        next.heads = builder.heads.insert session (some (builder.tip session))) ∨
      (∃ error, head = .error error ∧ (Store.lastEvent session builder.store).1 = .error error ∧
        next.heads = builder.heads.insert session none))) := by
  unfold head
  cases found : (builder.heads.find? session).join with
  | some head => exact Or.inl ⟨head, Option.join_eq_some_iff.mp found, rfl⟩
  | none =>
      refine Or.inr ?_
      cases asked : Store.lastEvent session builder.store with
      | mk answer store =>
          have unchanged : Unchanged builder.store store := by
            intro other
            have kept := stored_lastEvent session other builder.store
            rwa [asked] at kept
          cases answer with
          | error error => exact ⟨_, _, rfl, unchanged, Or.inr ⟨error, rfl, rfl, rfl⟩⟩
          | ok last =>
              have told : last = (stored session builder.store).getLast? :=
                lastEvent_ok (congrArg Prod.fst asked)
              subst told
              have stands : (ChainHead.ofLast session (stored session builder.store).getLast?).result =
                  builder.tip session := ChainHead.ofLast_result ..
              rw [← stands]
              exact ⟨_, _, rfl, unchanged, Or.inl ⟨rfl, rfl⟩⟩

theorem head_unchanged {builder next : ChainBuilder σ} {session : String}
    {head : Outcome ChainHead} (loaded : builder.head session = (head, next)) :
    Unchanged builder.store next.store := by
  rcases head_cases builder session with ⟨_, _, known⟩ | ⟨_, _, asked, unchanged, _⟩
  · rw [known] at loaded
    cases loaded
    exact fun _ => rfl
  · rw [asked] at loaded
    cases loaded
    exact unchanged

theorem Coherent.head {builder next : ChainBuilder σ} {session : String}
    {head : Outcome ChainHead} (coherent : builder.Coherent)
    (loaded : builder.head session = (head, next)) : next.Coherent := by
  rcases head_cases builder session with ⟨_, _, known⟩ | ⟨_, _, asked, unchanged, result⟩
  · rw [known] at loaded
    cases loaded
    exact coherent
  · rw [asked] at loaded
    cases loaded
    rcases result with ⟨_, heads⟩ | ⟨_, _, _, heads⟩
    · refine coherent.setHead heads (fun other _ => unchanged other) ?_
      intro known same
      rw [← Option.some.inj same, tip_eq_of_stored (unchanged session)]
    · exact coherent.setHead heads (fun other _ => unchanged other) (by simp)

theorem Coherent.head_ok {builder next : ChainBuilder σ} {session : String} {head : ChainHead}
    (coherent : builder.Coherent) (loaded : builder.head session = (.ok head, next)) :
    head = builder.tip session := by
  rcases head_cases builder session with ⟨known, found, cached⟩ | ⟨_, _, asked, _, result⟩
  · rw [cached] at loaded
    cases loaded
    exact coherent.known session head found
  · rw [asked] at loaded
    cases loaded
    rcases result with ⟨told, _⟩ | ⟨_, failed, _⟩
    · exact Except.ok.inj told
    · cases failed

theorem head_ok_of_readable [ReadableStore σ] (builder : ChainBuilder σ) (session : String) :
    ∃ head, (builder.head session).1 = .ok head := by
  rcases head_cases builder session with ⟨head, _, known⟩ | ⟨_, _, asked, _, result⟩
  · exact ⟨head, by rw [known]⟩
  · rcases result with ⟨told, _⟩ | ⟨error, _, failed, _⟩
    · exact ⟨builder.tip session, by rw [asked, told]⟩
    · obtain ⟨last, answer⟩ := ReadableStore.lastEvent_answers session builder.store
      rw [failed] at answer
      cases answer

/-- What a batch leaves behind: it is stored and the head stands behind it, or it is handed back
and nothing has happened. -/
theorem commit_cases (builder : ChainBuilder σ) (session : String) (events : List SealedEvent)
    (head : Checked ChainHead) (persist : Persist σ)
    (atomic : ∀ store, AllOrNothing events store (persist events store)) :
    (∃ next, builder.commit session events head persist = (.ok events, next) ∧
      Grown events builder.store next.store ∧
      next.heads = builder.heads.insert session (some head.result)) ∨
    (∃ error next,
      builder.commit session events head persist = (.error ⟨events, error, true⟩, next) ∧
      Unchanged builder.store next.store ∧ next.heads = builder.heads) := by
  have left := atomic builder.store
  unfold commit
  cases written : persist events builder.store with
  | mk outcome store =>
      rw [written] at left
      cases outcome with
      | ok => exact Or.inl ⟨_, rfl, left, rfl⟩
      | error error => exact Or.inr ⟨error, _, rfl, left, rfl⟩

theorem Coherent.commit {builder next : ChainBuilder σ} {session : String}
    {events : List SealedEvent} {head : Checked ChainHead} {persist : Persist σ}
    {result : Except BatchFailure (List SealedEvent)} (coherent : builder.Coherent)
    (atomic : ∀ store, AllOrNothing events store (persist events store))
    (own : ∀ event ∈ events, event.sessionId = session)
    (behind : head.result = (builder.tip session).past events)
    (committed : builder.commit session events head persist = (result, next)) :
    next.Coherent := by
  rcases builder.commit_cases session events head persist atomic with
    ⟨_, taken, grown, heads⟩ | ⟨_, _, refused, unchanged, heads⟩
  · rw [taken] at committed
    cases committed
    refine coherent.setHead heads (fun other different => grown.other own different) ?_
    intro known same
    rw [← Option.some.inj same, behind, tip, tip, grown.own own, ChainHead.past_append]
  · rw [refused] at committed
    cases committed
    exact coherent.congr heads unchanged

end AuditTrail.ChainBuilder
