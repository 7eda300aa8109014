import AuditTrail.Recorder.Basic
import Mathlib.Data.List.Induction

/-!
Grouping by session. Every group holds events of its own session only, no session has two groups,
and within a session the events keep their order. The sessions stand in the order of their first
events, and no event is lost.
-/

namespace AuditTrail

def eventsOf (session : String) (raws : List RawEvent) : List RawEvent :=
  raws.filter fun raw => raw.sessionId = session

@[simp] theorem eventsOf_nil (session : String) : eventsOf session [] = [] := rfl

@[simp] theorem eventsOf_append (session : String) (first second : List RawEvent) :
    eventsOf session (first ++ second) = eventsOf session first ++ eventsOf session second :=
  List.filter_append first second

theorem eventsOf_eq_self {session : String} {raws : List RawEvent}
    (own : ∀ raw ∈ raws, raw.sessionId = session) : eventsOf session raws = raws := by
  rw [eventsOf, List.filter_eq_self]
  simpa using own

theorem eventsOf_eq_nil {session other : String} {raws : List RawEvent}
    (own : ∀ raw ∈ raws, raw.sessionId = session) (different : other ≠ session) :
    eventsOf other raws = [] := by
  rw [eventsOf, List.filter_eq_nil_iff]
  intro raw member
  simpa [own raw member] using Ne.symm different

theorem eventsOf_singleton (session : String) (raw : RawEvent) :
    eventsOf session [raw] = if session = raw.sessionId then [raw] else [] := by
  by_cases own : session = raw.sessionId
  · simp [eventsOf, own]
  · simp [eventsOf, own, Ne.symm own]

structure Grouped (groups : List (String × List RawEvent)) : Prop where
  own : ∀ group ∈ groups, ∀ raw ∈ group.2, raw.sessionId = group.1
  distinct : (groups.map Prod.fst).Nodup

namespace Grouped

theorem nil : Grouped [] := ⟨by simp, by simp⟩

theorem tail {group : String × List RawEvent} {rest : List (String × List RawEvent)}
    (grouped : Grouped (group :: rest)) : Grouped rest where
  own other member := grouped.own other (List.mem_cons_of_mem _ member)
  distinct := (List.nodup_cons.mp grouped.distinct).2

theorem keys_insert (event : RawEvent) (groups : List (String × List RawEvent)) :
    (groupBySession.insert event groups).map Prod.fst =
      if event.sessionId ∈ groups.map Prod.fst then groups.map Prod.fst
      else groups.map Prod.fst ++ [event.sessionId] := by
  induction groups with
  | nil => simp [groupBySession.insert]
  | cons group rest ih =>
      obtain ⟨session, raws⟩ := group
      simp only [groupBySession.insert]
      by_cases same : session = event.sessionId
      · simp [same]
      · simp only [same, if_false, List.map_cons, ih, List.mem_cons, Ne.symm same, false_or]
        split <;> simp

theorem ownInsert {event : RawEvent} {groups : List (String × List RawEvent)}
    (own : ∀ group ∈ groups, ∀ raw ∈ group.2, raw.sessionId = group.1) :
    ∀ group ∈ groupBySession.insert event groups, ∀ raw ∈ group.2, raw.sessionId = group.1 := by
  induction groups with
  | nil => simp [groupBySession.insert]
  | cons first rest ih =>
      obtain ⟨session, raws⟩ := first
      have mine := own (session, raws) List.mem_cons_self
      have others := fun group member => own group (List.mem_cons_of_mem _ member)
      simp only [groupBySession.insert]
      split
      · rename_i same
        intro group member raw found
        rcases List.mem_cons.mp member with rfl | later
        · rcases List.mem_append.mp found with old | new
          · exact mine raw old
          · rw [List.mem_singleton.mp new, same]
        · exact others group later raw found
      · intro group member raw found
        rcases List.mem_cons.mp member with rfl | later
        · exact mine raw found
        · exact ih others group later raw found

theorem insertEvent (event : RawEvent) {groups : List (String × List RawEvent)}
    (grouped : Grouped groups) : Grouped (groupBySession.insert event groups) where
  own := ownInsert grouped.own
  distinct := by
    rw [keys_insert]
    split
    · exact grouped.distinct
    · rename_i absent
      exact List.nodup_append.mpr ⟨grouped.distinct, by simp, by
        intro first member second single same
        rw [List.mem_singleton.mp single] at same
        exact absent (same ▸ member)⟩

theorem eventsOf_group {session : String} {raws : List RawEvent}
    {rest : List (String × List RawEvent)} (grouped : Grouped ((session, raws) :: rest)) :
    eventsOf session (rest.flatMap Prod.snd) = [] := by
  have absent : session ∉ rest.map Prod.fst := (List.nodup_cons.mp grouped.distinct).1
  rw [eventsOf, List.filter_eq_nil_iff]
  intro raw member
  obtain ⟨group, found, inside⟩ := List.mem_flatMap.mp member
  have mine := grouped.own group (List.mem_cons_of_mem _ found) raw inside
  simp only [mine, decide_eq_true_eq]
  intro same
  exact absent (same ▸ List.mem_map_of_mem found)

theorem eventsOf_insert (session : String) (event : RawEvent)
    {groups : List (String × List RawEvent)} (grouped : Grouped groups) :
    eventsOf session ((groupBySession.insert event groups).flatMap Prod.snd) =
      eventsOf session (groups.flatMap Prod.snd) ++ eventsOf session [event] := by
  induction groups with
  | nil => simp [groupBySession.insert]
  | cons group rest ih =>
      obtain ⟨first, raws⟩ := group
      simp only [groupBySession.insert]
      by_cases same : first = event.sessionId
      · simp only [same, if_true, List.flatMap_cons, eventsOf_append, List.append_assoc]
        by_cases own : session = event.sessionId
        · have none := grouped.eventsOf_group
          rw [same, ← own] at none
          simp [none]
        · have none : eventsOf session [event] = [] := eventsOf_eq_nil (by simp) own
          simp [none]
      · simp only [same, if_false, List.flatMap_cons, eventsOf_append, ih grouped.tail,
          List.append_assoc]

theorem eventsOf_flatMap {groups : List (String × List RawEvent)} (grouped : Grouped groups)
    {group : String × List RawEvent} (member : group ∈ groups) :
    eventsOf group.1 (groups.flatMap Prod.snd) = group.2 := by
  induction groups with
  | nil => cases member
  | cons first rest ih =>
      rw [List.flatMap_cons, eventsOf_append]
      rcases List.mem_cons.mp member with rfl | later
      · rw [eventsOf_eq_self (grouped.own _ List.mem_cons_self), grouped.eventsOf_group,
          List.append_nil]
      · have different : group.1 ≠ first.1 := fun same =>
          (List.nodup_cons.mp grouped.distinct).1 (same ▸ List.mem_map_of_mem later)
        rw [eventsOf_eq_nil (grouped.own _ List.mem_cons_self) different, ih grouped.tail later,
          List.nil_append]

end Grouped

theorem groupBySession_concat (events : List RawEvent) (event : RawEvent) :
    groupBySession (events ++ [event]) = groupBySession.insert event (groupBySession events) := by
  rw [groupBySession, List.foldl_append]
  rfl

theorem grouped_groupBySession (events : List RawEvent) : Grouped (groupBySession events) := by
  induction events using List.reverseRecOn with
  | nil => exact .nil
  | append_singleton events event ih =>
      rw [groupBySession_concat]
      exact ih.insertEvent event

theorem filledInsert (event : RawEvent) {groups : List (String × List RawEvent)}
    (filled : ∀ group ∈ groups, group.2 ≠ []) :
    ∀ group ∈ groupBySession.insert event groups, group.2 ≠ [] := by
  induction groups with
  | nil => simp [groupBySession.insert]
  | cons first rest ih =>
      have mine := filled first List.mem_cons_self
      have others := fun group member => filled group (List.mem_cons_of_mem _ member)
      simp only [groupBySession.insert]
      split
      · simpa using others
      · simpa using And.intro mine (ih others)

theorem filled_groupBySession (events : List RawEvent) :
    ∀ group ∈ groupBySession events, group.2 ≠ [] := by
  induction events using List.reverseRecOn with
  | nil => simp [groupBySession]
  | append_singleton events event ih =>
      rw [groupBySession_concat]
      exact filledInsert event ih

theorem eventsOf_groupBySession (session : String) (events : List RawEvent) :
    eventsOf session ((groupBySession events).flatMap Prod.snd) = eventsOf session events := by
  induction events using List.reverseRecOn with
  | nil => rfl
  | append_singleton events event ih =>
      rw [groupBySession_concat, (grouped_groupBySession events).eventsOf_insert, ih,
        eventsOf_append]

theorem perm_insert (event : RawEvent) (groups : List (String × List RawEvent)) :
    ((groupBySession.insert event groups).flatMap Prod.snd).Perm
      (event :: groups.flatMap Prod.snd) := by
  induction groups with
  | nil => exact .refl _
  | cons group rest ih =>
      obtain ⟨session, raws⟩ := group
      simp only [groupBySession.insert]
      split
      · simp only [List.flatMap_cons, List.append_assoc, List.singleton_append]
        exact List.perm_middle
      · simp only [List.flatMap_cons]
        exact (ih.append_left raws).trans List.perm_middle

theorem perm_groupBySession (events : List RawEvent) :
    ((groupBySession events).flatMap Prod.snd).Perm events := by
  induction events using List.reverseRecOn with
  | nil => exact .refl _
  | append_singleton events event ih =>
      rw [groupBySession_concat]
      have moved := (List.perm_append_singleton event events).symm
      exact (perm_insert event _).trans ((ih.cons event).trans moved)

theorem length_groupBySession (events : List RawEvent) :
    ((groupBySession events).flatMap Prod.snd).length = events.length :=
  (perm_groupBySession events).length_eq

theorem eraseDups_concat (names : List String) (name : String) :
    (names ++ [name]).eraseDups =
      if name ∈ names then names.eraseDups else names.eraseDups ++ [name] := by
  rw [List.eraseDups_append, List.removeAll]
  by_cases known : name ∈ names
  · simp [known]
  · simp [known, List.eraseDups_cons]

theorem sessions_groupBySession (events : List RawEvent) :
    (groupBySession events).map Prod.fst = (events.map RawEvent.sessionId).eraseDups := by
  induction events using List.reverseRecOn with
  | nil => rfl
  | append_singleton events event ih =>
      rw [groupBySession_concat, Grouped.keys_insert, ih, List.map_append, List.map_singleton,
        eraseDups_concat]
      simp only [List.mem_eraseDups]

end AuditTrail
