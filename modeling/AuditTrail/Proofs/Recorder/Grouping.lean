import AuditTrail.Proofs.Chain.Batches
import AuditTrail.Proofs.Recorder.Groups

/-!
Grouping through an index. The place of each session's group can be noted beside the groups, so that
no event needs a search; the notes stay in step with the groups, which are the same. What is
grouped is neither lost nor moved, and every group is taken as a batch of its session.
-/

namespace AuditTrail

/-- Groups in the making, with the place of each session's group noted beside them. -/
structure Grouping where
  places : Table Nat := []
  groups : List (String × List RawEvent) := []

namespace Grouping

def add (grouping : Grouping) (event : RawEvent) : Grouping :=
  match grouping.places.find? event.sessionId with
  | some place => { grouping with
      groups := grouping.groups.modify place fun group => (group.1, group.2 ++ [event]) }
  | none =>
    { places := grouping.places.insert event.sessionId grouping.groups.length
      groups := grouping.groups ++ [(event.sessionId, [event])] }

/-- A place is noted exactly for the session whose group stands there. -/
def InStep (grouping : Grouping) : Prop :=
  ∀ session, grouping.places.find? session = (grouping.groups.map Prod.fst).idxOf? session

theorem insert_eq_modify (event : RawEvent) (groups : List (String × List RawEvent)) :
    groupBySession.insert event groups =
      match (groups.map Prod.fst).idxOf? event.sessionId with
      | some place => groups.modify place fun group => (group.1, group.2 ++ [event])
      | none => groups ++ [(event.sessionId, [event])] := by
  induction groups with
  | nil => rfl
  | cons group rest ih =>
      obtain ⟨session, raws⟩ := group
      rw [groupBySession.insert, List.map_cons, List.idxOf?_cons]
      by_cases same : session = event.sessionId
      · simp [same]
      · simp only [same, beq_iff_eq, ↓reduceIte, ih]
        cases (rest.map Prod.fst).idxOf? event.sessionId <;> simp

theorem idxOf?_concat (names : List String) (name other : String) :
    (names ++ [name]).idxOf? other =
      (names.idxOf? other).or (if other = name then some names.length else none) := by
  rw [List.idxOf?, List.findIdx?_append]
  by_cases same : other = name
  · simp [same, List.findIdx?_cons]
  · simp [same, Ne.symm same, List.findIdx?_cons]

theorem groups_add {grouping : Grouping} (inStep : grouping.InStep) (event : RawEvent) :
    (grouping.add event).groups = groupBySession.insert event grouping.groups := by
  rw [insert_eq_modify, ← inStep]
  unfold add
  cases grouping.places.find? event.sessionId <;> rfl

theorem inStep_add {grouping : Grouping} (inStep : grouping.InStep) (event : RawEvent) :
    (grouping.add event).InStep := by
  intro session
  rw [groups_add inStep, Grouped.keys_insert]
  unfold add
  cases found : grouping.places.find? event.sessionId with
  | some place =>
      have known : event.sessionId ∈ grouping.groups.map Prod.fst := by
        rw [← List.isSome_idxOf?, ← inStep, found]
        rfl
      rw [if_pos known]
      exact inStep session
  | none =>
      have new : event.sessionId ∉ grouping.groups.map Prod.fst := by
        rw [← List.idxOf?_eq_none_iff, ← inStep, found]
      rw [if_neg new, Table.find?_insert, inStep, idxOf?_concat]
      by_cases own : session = event.sessionId
      · simp [own, List.idxOf?_eq_none_iff.mpr new]
      · simp [own]

theorem groups_foldl_add (events : List RawEvent) :
    (events.foldl add {}).InStep ∧ (events.foldl add {}).groups = groupBySession events := by
  induction events using List.reverseRecOn with
  | nil => exact ⟨fun _ => rfl, rfl⟩
  | append_singleton events event ih =>
      obtain ⟨inStep, same⟩ := ih
      rw [List.foldl_concat, groupBySession_concat, ← same]
      exact ⟨inStep_add inStep event, groups_add inStep event⟩

end Grouping

/-- Grouping keeps everything in order: the groups stand in the order in which their sessions first
occur, none twice and none empty, each with exactly the events of its session in their order. So
no event is lost, and a builder finds no stray event in a group: it seals the group and offers it.
With the places of the groups noted in an index the groups are the same. -/
theorem groupBySession_keeps_order (events : List RawEvent) :
    (groupBySession events).map Prod.fst = (events.map RawEvent.sessionId).eraseDups ∧
    ((groupBySession events).map Prod.fst).Nodup ∧
    (∀ group ∈ groupBySession events, group.2 ≠ [] ∧ group.2 = eventsOf group.1 events) ∧
    ((groupBySession events).flatMap Prod.snd).Perm events ∧
    (∀ group ∈ groupBySession events, ∀ (σ : Type) [Store σ] (builder : ChainBuilder σ)
      (persist : Persist σ) (now : Timestamp),
      builder.appendBatch group.1 group.2 persist now =
        builder.offerBatch group.1 group.2 persist now) ∧
    (events.foldl Grouping.add {}).groups = groupBySession events := by
  have grouped := grouped_groupBySession events
  have filled := filled_groupBySession events
  refine ⟨sessions_groupBySession events, grouped.distinct, fun group member => ⟨?_, ?_⟩,
    perm_groupBySession events, fun group member σ _ builder persist now => ?_,
    (Grouping.groups_foldl_add events).2⟩
  · exact filled group member
  · rw [← eventsOf_groupBySession, grouped.eventsOf_flatMap member]
  · exact builder.appendBatch_of_own (grouped.own group member) (filled group member) persist now

end AuditTrail
