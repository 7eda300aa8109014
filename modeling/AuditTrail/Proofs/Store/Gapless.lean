import AuditTrail.Proofs.Store.Atomic
import AuditTrail.Proofs.Store.Equivalence
import AuditTrail.Store.Backend
import Mathlib.Algebra.BigOperators.Group.List.Lemmas

/-!
What a store in memory holds after any appends. The events of each session are numbered from zero
without a gap, since a batch is taken only if the events of every session in it go on from what is
stored of the session. Ranges, counts and the list of sessions are told by the stored lists alone.
-/

namespace AuditTrail

/-- Events with the numbers from a count on. -/
def Continues (count : Nat) (events : List SealedEvent) : Prop :=
  ∀ index event, events[index]? = some event → event.sequenceNumber = UInt64.ofNat (count + index)

theorem continues_nil (count : Nat) : Continues count [] := by
  simp [Continues]

theorem continues_cons_iff {count : Nat} {event : SealedEvent} {rest : List SealedEvent} :
    Continues count (event :: rest) ↔
      event.sequenceNumber = UInt64.ofNat count ∧ Continues (count + 1) rest := by
  constructor
  · intro continues
    refine ⟨continues 0 event rfl, fun index other found => ?_⟩
    rw [continues (index + 1) other found, Nat.add_right_comm, Nat.add_assoc]
  · rintro ⟨first, continues⟩ index other found
    cases index with
    | zero => exact Option.some.inj found ▸ first
    | succ index => rw [continues index other found, Nat.add_right_comm, Nat.add_assoc]

theorem continues_append_iff {count : Nat} {events more : List SealedEvent} :
    Continues count (events ++ more) ↔
      Continues count events ∧ Continues (count + events.length) more := by
  induction events generalizing count with
  | nil => simp [continues_nil]
  | cons event rest ih =>
      rw [List.cons_append, continues_cons_iff, continues_cons_iff, ih, and_assoc, List.length_cons,
        Nat.add_assoc, Nat.add_comm 1]

theorem Continues.filter_inRange {count : Nat} {events : List SealedEvent}
    (continues : Continues count events) (room : count + events.length ≤ UInt64.size)
    (first last : UInt64) : events.filter (·.inRange first last) =
      (events.take (last.toNat + 1 - count)).drop (first.toNat - count) := by
  induction events generalizing count with
  | nil => simp
  | cons event rest ih =>
      obtain ⟨number, later⟩ := continues_cons_iff.mp continues
      rw [List.length_cons] at room
      have place : event.sequenceNumber.toNat = count := by
        rw [number, UInt64.toNat_ofNat_of_lt' (by omega)]
      have inRange : event.inRange first last = true ↔
          first.toNat ≤ count ∧ count ≤ last.toNat := by
        rw [SealedEvent.inRange_iff, UInt64.le_iff_toNat_le, UInt64.le_iff_toNat_le, place]
      have tail := ih later (by omega)
      rw [List.filter_cons, tail]
      rcases Nat.lt_or_ge last.toNat count with above | upTo
      · have none : last.toNat + 1 - count = 0 := by omega
        have noneLater : last.toNat + 1 - (count + 1) = 0 := by omega
        rw [if_neg fun within => Nat.not_lt.mpr (inRange.mp within).2 above, none, noneLater,
          List.take_zero, List.take_zero, List.drop_nil, List.drop_nil]
      · have some : last.toNat + 1 - count = last.toNat + 1 - (count + 1) + 1 := by omega
        rw [some, List.take_succ_cons]
        rcases Nat.lt_or_ge count first.toNat with below | reached
        · have skipped : first.toNat - count = first.toNat - (count + 1) + 1 := by omega
          rw [if_neg fun within => Nat.not_lt.mpr (inRange.mp within).1 below, skipped,
            List.drop_succ_cons]
        · rw [if_pos (inRange.mpr ⟨reached, upTo⟩), Nat.sub_eq_zero_of_le reached,
            Nat.sub_eq_zero_of_le (by omega), List.drop_zero, List.drop_zero]

namespace Store

/-- A batch is contiguous exactly if the events of every session go on from the number that is next
for it. -/
theorem checkContiguous_ok_iff_continues (backend : String) (count : String → Nat)
    {next : Table UInt64} {batch : List SealedEvent}
    (known : ∀ event ∈ batch,
      (next.find? event.sessionId).getD 0 = UInt64.ofNat (count event.sessionId)) :
    (∃ last, checkContiguous backend next batch = .ok last) ↔
      ∀ session, Continues (count session) (ownEvents session batch) := by
  induction batch generalizing next count with
  | nil => exact ⟨fun _ session => continues_nil _, fun _ => ⟨next, rfl⟩⟩
  | cons event rest ih =>
      have first := known event List.mem_cons_self
      -- Behind the event, one more is counted for its session.
      have counted : ∀ other ∈ rest,
          ((next.insert event.sessionId (UInt64.ofNat (count event.sessionId) + 1)).find?
            other.sessionId).getD 0 =
          UInt64.ofNat (Function.update count event.sessionId (count event.sessionId + 1)
            other.sessionId) := by
        intro other member
        rw [Table.find?_insert]
        by_cases same : other.sessionId = event.sessionId
        · simp [same]
        · rw [if_neg same, Function.update_of_ne same]
          exact known other (List.mem_cons_of_mem _ member)
      rw [checkContiguous, first]
      split
      · rename_i apart
        refine iff_of_false (by simp) fun continues => apart ?_
        have own := continues event.sessionId
        rw [LineFileStore.ownEvents_cons, if_pos rfl, continues_cons_iff] at own
        exact own.1
      · rename_i number
        rw [ih _ counted]
        refine forall_congr' fun session => ?_
        rw [LineFileStore.ownEvents_cons]
        by_cases same : event.sessionId = session
        · subst same
          rw [if_pos rfl, Function.update_self, continues_cons_iff,
            and_iff_right (not_not.mp number)]
        · rw [if_neg same, Function.update_of_ne (Ne.symm same)]

end Store

namespace MemoryStore

/-- An append takes a batch, and adds to each session what is its own, exactly if the events of
every session go on from what is stored of it. It changes nothing otherwise. -/
structure AppendLaw (batch : List SealedEvent) (store : MemoryStore) : Prop where
  accepted_iff : (Store.append batch store).1 = .ok () ↔
    ∀ session, Continues (store.session session).length (ownEvents session batch)
  accepted : (Store.append batch store).1 = .ok () → ∀ session,
    (Store.append batch store).2.session session = store.session session ++ ownEvents session batch
  refused : ∀ error, (Store.append batch store).1 = .error error →
    (Store.append batch store).2 = store

theorem append_ok_iff (batch : List SealedEvent) (store : MemoryStore) :
    (Store.append batch store).1 = .ok () ↔
      ∀ session, Continues (store.session session).length (ownEvents session batch) := by
  have known : ∀ event ∈ batch, ((store.counts batch).find? event.sessionId).getD 0 =
      UInt64.ofNat (store.session event.sessionId).length := by
    intro event member
    have some : ownEvents event.sessionId batch ≠ [] :=
      List.ne_nil_of_mem (List.mem_filter.mpr ⟨member, decide_eq_true rfl⟩)
    rw [LineFileStore.find?_counts, if_neg some, Option.getD_some]
  rw [← Store.checkContiguous_ok_iff_continues "in-memory"
    (fun session => (store.session session).length) known]
  change (append batch store).1 = .ok () ↔ _
  unfold append
  cases Store.checkContiguous "in-memory" (store.counts batch) batch <;> simp

theorem appendLaw (batch : List SealedEvent) (store : MemoryStore) : AppendLaw batch store := by
  refine { accepted_iff := append_ok_iff batch store, accepted := ?_, refused := ?_ }
  · intro accepted session
    rcases append_eq batch store with ⟨_, _, taken⟩ | ⟨error, refused⟩
    · rw [taken]
      exact LineFileStore.session_append store batch session
    · rw [refused] at accepted
      cases accepted
  · intro error failed
    rcases append_eq batch store with ⟨_, _, taken⟩ | ⟨_, refused⟩
    · rw [taken] at failed
      cases failed
    · rw [refused]

def Numbered (store : MemoryStore) : Prop :=
  ∀ session, Continues 0 (store.session session)

theorem Numbered.append {store : MemoryStore} (numbered : store.Numbered)
    (batch : List SealedEvent) : (Store.append batch store).2.Numbered := by
  have law := appendLaw batch store
  cases answered : (Store.append batch store).1 with
  | error error => exact (law.refused error answered).symm ▸ numbered
  | ok =>
      intro session
      rw [law.accepted answered session, continues_append_iff, Nat.zero_add]
      exact ⟨numbered session, law.accepted_iff.mp answered session⟩

def afterAppends (batches : List (List SealedEvent)) : MemoryStore :=
  batches.foldl (fun store batch => (Store.append batch store).2) {}

theorem numbered_afterAppends (batches : List (List SealedEvent)) :
    (afterAppends batches).Numbered := by
  induction batches using List.reverseRecOn with
  | nil => exact fun session => continues_nil 0
  | append_singleton earlier batch ih =>
      rw [afterAppends, List.foldl_concat]
      exact ih.append batch

theorem length_session (store : MemoryStore) (session : String) :
    (store.session session).length = (store.events.map (·.sessionId)).count session := by
  rw [MemoryStore.session, ← List.countP_eq_length_filter, List.count, List.countP_map]
  rfl

theorem mem_names_iff {store : MemoryStore} {session : String} :
    session ∈ store.events.map (·.sessionId) ↔ store.session session ≠ [] := by
  rw [← List.length_pos_iff, length_session, List.count_pos_iff]

theorem sum_lengths (store : MemoryStore) :
    ((sortedDistinct (store.events.map (·.sessionId))).map
      fun session => (store.session session).length).sum = store.events.length := by
  have distinct : (sortedDistinct (store.events.map (·.sessionId))).Perm
      (store.events.map (·.sessionId)).dedup := by
    refine (List.perm_ext_iff_of_nodup ?_ (List.nodup_dedup _)).mpr fun session => ?_
    · exact (pairwise_sortedDistinct _).imp fun less => ne_of_lt less
    · rw [mem_sortedDistinct, List.mem_dedup]
  simp only [length_session]
  rw [(distinct.map _).sum_eq, List.sum_map_count_dedup_eq_length, List.length_map]

/-- Sessions are stored without a gap, and what is told of them is told by their events alone. The
numbers do not come round again as long as there are as many of them as events of the session. -/
structure Gapless (store : MemoryStore) : Prop where
  numbered : ∀ session index event, (store.session session)[index]? = some event →
    event.sessionId = session ∧ event.sequenceNumber = UInt64.ofNat index
  readRange : ∀ session first last, (store.session session).length ≤ UInt64.size →
    Store.readRange session first last store =
      .ok (((store.session session).take (last.toNat + 1)).drop first.toNat)
  eventCount : ∀ session, Store.eventCount session store = .ok (store.session session).length
  counted : ∀ session last, (store.session session).length ≤ UInt64.size →
    (store.session session).getLast? = some last →
      (store.session session).length = last.sequenceNumber.toNat + 1
  sessions : ∃ names, Store.sessionIds store = .ok names ∧ names.Pairwise (· < ·) ∧
    (∀ session, session ∈ names ↔ store.session session ≠ []) ∧
    (Backend.memory store).totalEvents? =
      some (names.map fun session => (store.session session).length).sum

theorem Numbered.gapless {store : MemoryStore} (numbered : store.Numbered) : store.Gapless where
  numbered session index event found := by
    refine ⟨?_, by rw [numbered session index event found, Nat.zero_add]⟩
    have own := (List.mem_filter.mp (List.mem_of_getElem? found)).2
    exact of_decide_eq_true own
  readRange session first last room := by
    have slice := (numbered session).filter_inRange ((Nat.zero_add _).symm ▸ room) first last
    rw [Nat.sub_zero, Nat.sub_zero] at slice
    exact congrArg Except.ok slice
  eventCount _ := rfl
  counted session last room found := by
    rw [List.getLast?_eq_getElem?] at found
    have present : 0 < (store.session session).length := by
      have := (List.getElem?_eq_some_iff.mp found).1
      omega
    rw [numbered session _ last found, UInt64.toNat_ofNat_of_lt' (by omega)]
    omega
  sessions := ⟨_, rfl, pairwise_sortedDistinct _,
    fun _ => mem_sortedDistinct.trans mem_names_iff, congrArg some (sum_lengths store).symm⟩

/-- Whatever batches are offered to a store that was empty, the events of each session stand in it
numbered from zero without a gap, and the next batch is taken exactly if it leaves none. -/
theorem gapless_afterAppends (batches : List (List SealedEvent)) :
    (afterAppends batches).Gapless ∧ ∀ batch, AppendLaw batch (afterAppends batches) :=
  ⟨(numbered_afterAppends batches).gapless, fun batch => appendLaw batch _⟩

def interleaved : List (List SealedEvent) :=
  [[sampleSealed "t" 0, sampleSealed "s" 0, sampleSealed "t" 1],
    [sampleSealed "s" 1, sampleSealed "t" 3], [sampleSealed "s" 1]]

theorem gapless_interleaved :
    Store.readRange "t" 1 5 (afterAppends interleaved) = .ok [sampleSealed "t" 1] ∧
      (afterAppends (interleaved.take 2)).session "s" = [sampleSealed "s" 0] ∧
      (Store.append [sampleSealed "s" 1, sampleSealed "t" 3]
        (afterAppends (interleaved.take 1))).1 ≠ .ok () := by
  obtain ⟨gapless, -⟩ := gapless_afterAppends interleaved
  obtain ⟨-, law⟩ := gapless_afterAppends (interleaved.take 1)
  have stored : (afterAppends interleaved).session "t" = [sampleSealed "t" 0, sampleSealed "t" 1] :=
    rfl
  have before : (afterAppends (interleaved.take 1)).session "t" =
      [sampleSealed "t" 0, sampleSealed "t" 1] := rfl
  refine ⟨?_, rfl, fun accepted => ?_⟩
  · rw [gapless.readRange "t" 1 5 (by rw [stored]; decide), stored]
    rfl
  · have continues := (law _).accepted_iff.mp accepted "t" 0 (sampleSealed "t" 3) rfl
    rw [before] at continues
    exact absurd continues (by decide)

end MemoryStore

end AuditTrail
