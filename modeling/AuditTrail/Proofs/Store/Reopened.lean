import AuditTrail.Proofs.Chain.Sessions
import AuditTrail.Proofs.Store.Gapless
import AuditTrail.Proofs.Store.Rollback

/-!
Session files that one store after another adds to, each opened on what is there. A reader takes
more than a writer leaves behind: blank lines, carriage returns, a last line without a line feed.
Only the last stands in the way of what is added; what one store has added never stands in the way
of the next.
-/

namespace AuditTrail

namespace LineFileStore

open Chain (OfSession)

/-! ### Files that a reader takes -/

inductive Row where
  | written (event : SealedEvent) (returned : Bool)
  | blank (octets : List UInt8)

namespace Row

def octets : Row → List UInt8
  | .written event returned => bareLine event ++ if returned then [0x0d] else []
  | .blank octets => octets

def told : Row → List SealedEvent
  | .written event _ => [event]
  | .blank _ => []

def Taken : Row → Prop
  | .written event _ => ReadsBack event
  | .blank octets => ∀ octet ∈ octets, BlankOctet octet

theorem Taken.plain {row : Row} (taken : row.Taken) : (0x0a : UInt8) ∉ row.octets := by
  cases row with
  | written event returned =>
      have line := lineFeed_not_mem_bareLine event
      cases returned <;> simp [octets, line]
  | blank octets =>
      intro member
      exact absurd (taken 0x0a member) (by decide)

theorem Taken.decodeLine {row : Row} (taken : row.Taken) :
    (decodeLine (dropReturn row.octets)).map Option.toList = .ok row.told := by
  cases row with
  | written event returned =>
      obtain ⟨shallow, same⟩ := readsBack_iff.mp taken
      have bare : dropReturn (bareLine event ++ if returned then [0x0d] else []) =
          bareLine event := by
        cases returned with
        | false => simpa using dropReturn_bareLine event
        | true => simp [dropReturn]
      rw [octets, bare, decodeLine_bareLine, if_pos shallow, same]
      rfl
  | blank octets =>
      rw [Row.octets, decodeLine_blank taken]
      rfl

end Row

/-- Rows with their line feeds, and one that stands open. -/
def layout (rows : List Row) (last : Row) : List UInt8 :=
  rows.flatMap (fun row => row.octets ++ [0x0a]) ++ last.octets

theorem decodeLines_layout {rows : List Row} {last : Row} (taken : ∀ row ∈ rows, row.Taken)
    (takenLast : last.Taken) :
    decodeLines (splitLines (layout rows last)) = .ok (rows.flatMap Row.told ++ last.told) := by
  induction rows with
  | nil => exact (decodeLines_openLine takenLast.plain).trans takenLast.decodeLine
  | cons row rest ih =>
      obtain ⟨first, later⟩ := List.forall_mem_cons.mp taken
      have split_ : splitLines (layout (row :: rest) last) =
          row.octets :: splitLines (layout rest last) := by
        rw [← splitLines_cons first.plain]
        simp [layout]
      obtain ⟨read, decoded, told⟩ := exists_of_map_eq_ok first.decodeLine
      rw [split_, decodeLines, decoded, ih later]
      simp [bind, Except.bind, pure, Except.pure, told]

theorem terminated_rows (rows : List Row) :
    Terminated (rows.flatMap fun row => row.octets ++ [0x0a]) := by
  induction rows using List.reverseRecOn with
  | nil => simp [Terminated]
  | append_singleton rows row ih => simp [Terminated]

/-- Only an event that stands open is in the way of what is added. -/
theorem extendable_layout_iff {rows : List Row} {last : Row} (taken : last.Taken) :
    Extendable (layout rows last) ↔ last.told = [] := by
  rw [Extendable, layout, openTail_append (terminated_rows rows) taken.plain]
  cases last with
  | written event returned =>
      refine iff_of_false ?_ (List.cons_ne_nil _ _)
      intro blank
      apply not_extendable_bareLine event
      intro octet member
      exact blank octet (List.mem_append_left _ ((List.rtakeWhile_suffix _ _).subset member))
  | blank octets => exact iff_of_true taken rfl

/-! ### An append by a store that has just been opened -/

theorem terminated_lines {batch : List SealedEvent} (some : batch ≠ []) (bytes : List UInt8) :
    Terminated (bytes ++ batch.flatMap lineOf) := by
  rw [← List.dropLast_append_getLast some, List.flatMap_append, List.flatMap_singleton, lineOf_eq]
  simp [Terminated, ← List.append_assoc]

theorem extendable_lines_iff {batch : List SealedEvent} {bytes : List UInt8} :
    Extendable (bytes ++ batch.flatMap lineOf) ↔ batch ≠ [] ∨ Extendable bytes := by
  by_cases none : batch = []
  · simp [none]
  · have tail := openTail_append (terminated_lines none bytes) (List.not_mem_nil (a := 0x0a))
    rw [List.append_nil] at tail
    simp [Extendable, tail, none]

section

variable {store next : LineFileStore} {session : String} {batch before : List SealedEvent}

theorem ownEvents_of_ofSession (own : OfSession session batch) :
    ownEvents session batch = batch := by
  apply List.filter_eq_self.mpr
  intro event member
  exact decide_eq_true (own event member)

theorem continues_ownEvents_iff (own : OfSession session batch) (count : Nat) :
    (∀ other, Continues count (ownEvents other batch)) ↔ Continues count batch := by
  constructor
  · intro all
    exact ownEvents_of_ofSession own ▸ all session
  · intro continues other
    by_cases same : other = session
    · rwa [same, ownEvents_of_ofSession own]
    · have none : ownEvents other batch = [] := by
        apply List.filter_eq_nil_iff.mpr
        intro event member named
        exact same ((of_decide_eq_true named).symm.trans (own event member))
      rw [none]
      exact continues_nil count

theorem resolve_known {table : Table UInt64}
    (known : ∀ event ∈ batch, table.contains event.sessionId = true) :
    store.resolve table batch = .ok table := by
  induction batch with
  | nil => rfl
  | cons event rest ih =>
      obtain ⟨first, later⟩ := List.forall_mem_cons.mp known
      rw [resolve, if_pos first, ih later]

theorem resolve_reopened (own : OfSession session batch) (some : batch ≠ []) :
    store.reopened.resolve [] batch = (store.reopened.start session).map fun number =>
      [(session, number)] := by
  obtain ⟨event, rest, rfl⟩ := List.exists_cons_of_ne_nil some
  obtain ⟨first, later⟩ := List.forall_mem_cons.mp own
  rw [resolve_cons, if_neg (by simp [Table.contains, Table.find?]), first]
  cases store.reopened.start session with
  | error cause => rfl
  | ok number =>
      apply resolve_known
      intro other member
      simp [Table.contains, Table.find?_insert, later other member]

theorem start_reopened (store : LineFileStore) (session : String) :
    store.reopened.start session = (store.load session).map fun events =>
      UInt64.ofNat events.length := by
  have again : store.reopened.load session = store.load session := rfl
  rw [start, again]
  unfold load
  cases fileName session <;> rfl

theorem numbers_reopened (own : OfSession session batch) (some : batch ≠ []) :
    store.reopened.numbersUnder {} batch = (store.load session).bind fun events =>
      Store.checkContiguous "file" [(session, UInt64.ofNat events.length)] batch := by
  show (store.reopened.resolve [] batch).bind _ = _
  rw [resolve_reopened own some, start_reopened]
  cases store.load session <;> rfl

theorem numbers_reopened_iff (loaded : store.load session = .ok before)
    (own : OfSession session batch) :
    (∃ numbers, store.reopened.numbersUnder {} batch = .ok numbers) ↔
      Continues before.length batch := by
  by_cases none : batch = []
  · subst none
    exact iff_of_true ⟨[], rfl⟩ (continues_nil _)
  · rw [numbers_reopened own none, loaded, Except.bind,
      Store.checkContiguous_ok_iff_continues "file" (fun _ => before.length),
      continues_ownEvents_iff own]
    intro event member
    simp [Table.find?, own event member]

theorem numbers_of_append (appended : Store.append batch store = (.ok (), next)) :
    ∃ numbers, store.numbersUnder {} batch = .ok numbers := by
  rw [← appendUnder_faultless, appendUnder] at appended
  cases found : store.numbersUnder {} batch with
  | error cause =>
      rw [found] at appended
      cases appended
  | ok numbers => exact ⟨numbers, rfl⟩

theorem append_reopened_iff (loaded : store.load session = .ok before)
    (own : OfSession session batch) (some : batch ≠ []) :
    (∃ next, Store.append batch store.reopened = (.ok (), next)) ↔
      store.directory.Holds (fileOf session) ∧ Continues before.length batch := by
  rw [← numbers_reopened_iff loaded own]
  constructor
  · rintro ⟨next, appended⟩
    refine ⟨?_, numbers_of_append appended⟩
    apply (directory_of_append appended).2
    rwa [ownEvents_of_ofSession own]
  · rintro ⟨holds, numbers, found⟩
    refine append_of_numbers ?_ found
    intro event member
    exact (own event member).symm ▸ holds

theorem append_reopened_unreadable {cause : LedgerError}
    (broken : store.load session = .error cause) (own : OfSession session batch)
    (some : batch ≠ []) :
    Store.append batch store.reopened = (.error cause, store.reopened) := by
  rw [← appendUnder_faultless, appendUnder, numbers_reopened own some, broken, Except.bind]

theorem content_of_append (own : OfSession session batch)
    (appended : Store.append batch store = (.ok (), next)) :
    next.directory.contentOf (fileOf session) =
      store.directory.contentOf (fileOf session) ++ batch.flatMap lineOf := by
  rw [(directory_of_append appended).1, contentOf_written_lines, ownEvents_of_ofSession own]

theorem load_reopened_append (loaded : store.load session = .ok before)
    (own : OfSession session batch)
    (appended : Store.append batch store.reopened = (.ok (), next)) :
    next.load session =
      if batch = [] ∨ Extendable (store.directory.contentOf (fileOf session)) ∧
          ∀ event ∈ batch, event.Shallow then
        .ok (before ++ batch.map (·.reread))
      else .error (.json .malformed) := by
  have again : store.reopened.load session = .ok before := loaded
  by_cases none : batch = []
  · subst none
    cases appended
    simpa using again
  · have told := load_of_append again appended (by rwa [ownEvents_of_ofSession own])
    simpa [none, ownEvents_of_ofSession own, reopened] using told

theorem load_reopened_append_iff (loaded : store.load session = .ok before)
    (own : OfSession session batch)
    (appended : Store.append batch store.reopened = (.ok (), next)) :
    next.load session = .ok (before ++ batch) ↔
      batch = [] ∨ Extendable (store.directory.contentOf (fileOf session)) ∧
        ∀ event ∈ batch, ReadsBack event := by
  rw [load_reopened_append loaded own appended]
  by_cases none : batch = []
  · simp [none]
  · simp only [none, false_or]
    by_cases reads : Extendable (store.directory.contentOf (fileOf session)) ∧
        ∀ event ∈ batch, event.Shallow
    · rw [if_pos reads, Except.ok.injEq, List.append_cancel_left_eq, map_reread_eq_iff]
      constructor
      · intro same
        refine ⟨reads.1, ?_⟩
        intro event member
        exact readsBack_iff.mpr ⟨reads.2 event member, same event member⟩
      · rintro ⟨_, back⟩ event member
        exact (readsBack_iff.mp (back event member)).2
    · rw [if_neg reads]
      constructor
      · intro same
        cases same
      · rintro ⟨extendable, back⟩
        refine absurd ⟨extendable, ?_⟩ reads
        intro event member
        exact (readsBack_iff.mp (back event member)).1

end

/-- Stores that are opened one after another, each to add to what the ones before it have left. -/
inductive Served (session : String) :
    List (List SealedEvent) → LineFileStore → LineFileStore → Prop
  | none (store : LineFileStore) : Served session [] store store
  | append {batch : List SealedEvent} {batches : List (List SealedEvent)}
      {store between next : LineFileStore} (own : OfSession session batch)
      (appended : Store.append batch store.reopened = (.ok (), between)) :
      Served session batches between next → Served session (batch :: batches) store next

section

variable {store next : LineFileStore} {session : String} {batches : List (List SealedEvent)}
  {before : List SealedEvent}

theorem Served.of_unreadable {cause : LedgerError} (served : Served session batches store next)
    (broken : store.load session = .error cause) :
    batches.flatten = [] ∧ next.load session = .error cause := by
  induction served with
  | none store => exact ⟨rfl, broken⟩
  | @append batch batches store between next own appended _ ih =>
      by_cases empty : batch = []
      · subst empty
        cases appended
        exact ih broken
      · rw [append_reopened_unreadable broken own empty] at appended
        cases appended

/-- Only the file that was there at first decides on whether the session stays readable: if it can
be added to once, it can be added to any number of times, and if not, the first event ends it. -/
theorem Served.load (served : Served session batches store next)
    (loaded : store.load session = .ok before)
    (back : ∀ event ∈ batches.flatten, ReadsBack event) :
    next.load session =
      if batches.flatten = [] ∨ Extendable (store.directory.contentOf (fileOf session)) then
        .ok (before ++ batches.flatten)
      else .error (.json .malformed) := by
  -- On the stores: a file that events have been added to can be added to.
  induction served generalizing before with
  | none store => simpa using loaded
  | @append batch batches store between next own appended later ih =>
      obtain ⟨backFirst, backLater⟩ := List.forall_mem_append.mp back
      by_cases empty : batch = []
      · subst empty
        cases appended
        exact ih loaded backLater
      · by_cases extendable : Extendable (store.directory.contentOf (fileOf session))
        · have first : between.load session = .ok (before ++ batch) :=
            (load_reopened_append_iff loaded own appended).mpr (Or.inr ⟨extendable, backFirst⟩)
          have again : Extendable (between.directory.contentOf (fileOf session)) := by
            rw [content_of_append own appended]
            exact extendable_lines_iff.mpr (Or.inl empty)
          rw [ih first backLater, if_pos (Or.inr again), if_pos (Or.inr extendable),
            List.flatten_cons, List.append_assoc]
        · have broken : between.load session = .error (.json .malformed) := by
            rw [load_reopened_append loaded own appended, if_neg]
            simp [empty, extendable]
          rw [(later.of_unreadable broken).2, if_neg]
          simp [empty, extendable]

end

/-- What has become of a session to which a store has added that was opened on it. -/
structure Extended (session : String) (before batch : List SealedEvent)
    (store next : LineFileStore) : Prop where
  continues : Continues before.length batch
  content : next.directory.contentOf (fileOf session) =
    store.directory.contentOf (fileOf session) ++ batch.flatMap lineOf
  extendable : Extendable (next.directory.contentOf (fileOf session)) ↔
    batch ≠ [] ∨ Extendable (store.directory.contentOf (fileOf session))
  readAll : Store.readAll session next =
    if batch = [] ∨ Extendable (store.directory.contentOf (fileOf session)) ∧
        ∀ event ∈ batch, event.Shallow then
      .ok (before ++ batch.map (·.reread))
    else .error (.json .malformed)
  whole_iff : Store.readAll session next = .ok (before ++ batch) ↔
    batch = [] ∨ Extendable (store.directory.contentOf (fileOf session)) ∧
      ∀ event ∈ batch, ReadsBack event

/-- A session that can be read can be read after an append, with the new events behind the old ones,
exactly if its file ended with a line feed, blanks aside, and each new event is read back from its
line. -/
theorem extended_of_reopened {store next : LineFileStore} {session : String}
    {before batch : List SealedEvent} (readable : Store.readAll session store = .ok before)
    (own : OfSession session batch)
    (appended : Store.append batch store.reopened = (.ok (), next)) :
    Extended session before batch store next := by
  rw [readAll_eq_load] at readable
  have content := content_of_append own appended
  constructor
  case continues => exact (numbers_reopened_iff readable own).mp (numbers_of_append appended)
  case content => exact content
  case extendable =>
    rw [content]
    exact extendable_lines_iff
  case readAll =>
    rw [readAll_eq_load]
    exact load_reopened_append readable own appended
  case whole_iff =>
    rw [readAll_eq_load]
    exact load_reopened_append_iff readable own appended

def laidOut (rows : List Row) (last : Row) : LineFileStore where
  directory := {
    path := "d"
    entries := [(fileOf "s", .file (layout rows last))] }

theorem holds_laidOut (rows : List Row) (last : Row) :
    (laidOut rows last).directory.Holds (fileOf "s") :=
  ⟨rfl, by decide, nofun⟩

theorem load_laidOut {rows : List Row} {last : Row} (taken : ∀ row ∈ rows, row.Taken)
    (takenLast : last.Taken) :
    (laidOut rows last).load "s" = .ok (rows.flatMap Row.told ++ last.told) := by
  rw [load_eq rfl (holds_laidOut rows last)]
  exact decodeLines_layout taken takenLast

theorem readsBack_sampleSealed (sequence : UInt64) : ReadsBack (sampleSealed "s" sequence) :=
  readsBack_iff.mpr ⟨shallow_sampleSealed "s" sequence, rfl⟩

theorem continues_samples : Continues 2 [sampleSealed "s" 2, sampleSealed "s" 3] :=
  continues_cons_iff.mpr ⟨rfl, continues_cons_iff.mpr ⟨rfl, continues_nil _⟩⟩

theorem ofSession_samples : OfSession "s" [sampleSealed "s" 2, sampleSealed "s" 3] := by
  simp [OfSession, sampleSealed, sampleRaw, SealedEvent.sealAt]

def spacious : LineFileStore :=
  laidOut
    [.written (sampleSealed "s" 0) true, .blank [0x09], .written (sampleSealed "s" 1) false]
    (.blank [0x20])

theorem extended_spacious :
    Store.readAll "s" spacious = .ok [sampleSealed "s" 0, sampleSealed "s" 1] ∧
      ∃ next, Store.append [sampleSealed "s" 2, sampleSealed "s" 3] spacious.reopened =
          (.ok (), next) ∧
        Store.readAll "s" next = .ok ([0, 1, 2, 3].map (sampleSealed "s")) := by
  have takenLast : (Row.blank [0x20]).Taken := by
    simp [Row.Taken, BlankOctet]
  have loaded : spacious.load "s" = .ok [sampleSealed "s" 0, sampleSealed "s" 1] := by
    apply load_laidOut _ takenLast
    simp [Row.Taken, BlankOctet, readsBack_sampleSealed]
  have readable := (readAll_eq_load "s" spacious).trans loaded
  obtain ⟨next, appended⟩ := (append_reopened_iff loaded ofSession_samples (by simp)).mpr
    ⟨holds_laidOut _ _, continues_samples⟩
  have extended := extended_of_reopened readable ofSession_samples appended
  refine ⟨readable, next, appended, extended.whole_iff.mpr (Or.inr ⟨?_, ?_⟩)⟩
  · exact (extendable_layout_iff takenLast).mpr rfl
  · simp [readsBack_sampleSealed]

def openEnded : LineFileStore :=
  laidOut [.written (sampleSealed "s" 0) true, .blank [0x09]] (.written (sampleSealed "s" 1) false)

theorem unreadable_of_openEnded :
    Store.readAll "s" openEnded = .ok [sampleSealed "s" 0, sampleSealed "s" 1] ∧
      ∃ next, Store.append [sampleSealed "s" 2, sampleSealed "s" 3] openEnded.reopened =
          (.ok (), next) ∧
        Store.readAll "s" next = .error (.json .malformed) := by
  have takenLast : (Row.written (sampleSealed "s" 1) false).Taken := readsBack_sampleSealed 1
  have loaded : openEnded.load "s" = .ok [sampleSealed "s" 0, sampleSealed "s" 1] := by
    apply load_laidOut _ takenLast
    simp [Row.Taken, BlankOctet, readsBack_sampleSealed]
  obtain ⟨next, appended⟩ := (append_reopened_iff loaded ofSession_samples (by simp)).mpr
    ⟨holds_laidOut _ _, continues_samples⟩
  refine ⟨(readAll_eq_load _ _).trans loaded, next, appended, ?_⟩
  rw [readAll_eq_load, load_reopened_append loaded ofSession_samples appended, if_neg]
  rintro (none | ⟨extendable, _⟩)
  · cases none
  · cases (extendable_layout_iff takenLast).mp extendable

end LineFileStore

end AuditTrail
