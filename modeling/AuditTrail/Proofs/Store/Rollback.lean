import AuditTrail.Proofs.Json.WellFormed
import AuditTrail.Proofs.Replay.Compiled
import AuditTrail.Proofs.Store.Equivalence
import AuditTrail.Proofs.Store.Faults
import AuditTrail.Proofs.Store.Ranges
import Mathlib.Data.List.Sort

/-!
What an append leaves behind that fails at whatever file it is writing. Everything is read as
before, and the same batch is taken once it can be written; but the files that were made on the way
stay, empty, and their sessions are listed.
-/

namespace AuditTrail

section

variable {α β ε : Type} {f : α → Except ε β} {items more : List α}

theorem mapM_cons_eq_error_iff {item : α} {cause : ε} :
    (item :: items).mapM f = .error cause ↔
      f item = .error cause ∨ (∃ result, f item = .ok result) ∧ items.mapM f = .error cause := by
  rw [List.mapM_cons]
  cases f item with
  | error refusal => simp [bind, Except.bind]
  | ok result => cases items.mapM f <;> simp [bind, Except.bind, pure, Except.pure]

theorem mapM_error_of_sublist (sub : items.Sublist more) (distinct : more.Nodup)
    (extra : ∀ item ∈ more, item ∉ items → ∃ result, f item = .ok result) {cause : ε}
    (failed : items.mapM f = .error cause) : more.mapM f = .error cause := by
  induction sub with
  | slnil => exact failed
  | cons item sub ih =>
      obtain ⟨apart, distinct⟩ := List.nodup_cons.mp distinct
      have goes := extra item List.mem_cons_self fun there => apart (sub.subset there)
      have tail := fun other member => extra other (List.mem_cons_of_mem _ member)
      exact mapM_cons_eq_error_iff.mpr (Or.inr ⟨goes, ih distinct tail failed⟩)
  | cons_cons item sub ih =>
      obtain ⟨apart, distinct⟩ := List.nodup_cons.mp distinct
      refine mapM_cons_eq_error_iff.mpr ((mapM_cons_eq_error_iff.mp failed).imp_right ?_)
      refine And.imp_right fun later => ih distinct (fun other member absent => ?_) later
      refine extra other (List.mem_cons_of_mem _ member) fun there => ?_
      rcases List.mem_cons.mp there with rfl | there
      · exact apart member
      · exact absent there

theorem mapM_eq_iff_of_sublist (sub : items.Sublist more) (distinct : more.Nodup)
    (extra : ∀ item ∈ more, item ∉ items → ∃ result, f item = .ok result) :
    more.mapM f = items.mapM f ↔ items = more ∨ ∃ cause, items.mapM f = .error cause := by
  constructor
  · intro same
    cases told : items.mapM f with
    | error cause => exact Or.inr ⟨cause, rfl⟩
    | ok results =>
        have fewer := (mapM_eq_ok_iff.mp told).length_eq
        have many := (mapM_eq_ok_iff.mp (same.trans told)).length_eq
        exact Or.inl (sub.eq_of_length (fewer.trans many.symm))
  · rintro (rfl | ⟨cause, failed⟩)
    · rfl
    · rw [failed, mapM_error_of_sublist sub distinct extra failed]

end

namespace LineFileStore

open Directory

section

variable {store other : LineFileStore} {faults : Faults} {batch : List SealedEvent}

theorem resolve_cons (store : LineFileStore) (next : Table UInt64) (event : SealedEvent)
    (rest : List SealedEvent) : store.resolve next (event :: rest) =
      if next.contains event.sessionId then store.resolve next rest
      else (store.start event.sessionId).bind fun start =>
        store.resolve (next.insert event.sessionId start) rest := by
  rw [resolve, start]
  split
  · rfl
  · cases fileName event.sessionId with
    | error error => rfl
    | ok name => cases store.nextSequence.find? event.sessionId <;> rfl

theorem resolve_congr (same : ∀ event ∈ batch, other.start event.sessionId =
    store.start event.sessionId) (next : Table UInt64) :
    other.resolve next batch = store.resolve next batch := by
  induction batch generalizing next with
  | nil => rfl
  | cons event rest ih =>
      have later := ih fun event member => same event (List.mem_cons_of_mem _ member)
      simp only [resolve_cons, same event List.mem_cons_self, later]

theorem isFileName_of_start {session : String} {number : UInt64}
    (found : store.start session = .ok number) : isFileName session = true := by
  by_contra unusable
  unfold start fileName at found
  rw [if_neg unusable] at found
  cases found

theorem isFileName_of_resolve {next last : Table UInt64}
    (resolved : store.resolve next batch = .ok last) {event : SealedEvent}
    (member : event ∈ batch) :
    isFileName event.sessionId = true ∨ next.contains event.sessionId = true := by
  induction batch generalizing next with
  | nil => cases member
  | cons first rest ih =>
      rw [resolve_cons] at resolved
      split at resolved
      · rename_i known
        rcases List.mem_cons.mp member with rfl | later
        · exact Or.inr known
        · exact ih resolved later
      · cases found : store.start first.sessionId with
        | error error =>
            rw [found] at resolved
            cases resolved
        | ok number =>
            rw [found] at resolved
            by_cases same : event.sessionId = first.sessionId
            · exact Or.inl (same ▸ isFileName_of_start found)
            · have later := ih resolved
                ((List.mem_cons.mp member).resolve_left fun here => same (here ▸ rfl))
              rwa [Table.contains, Table.find?_insert, if_neg same] at later

theorem append_of_numbers (holds : ∀ event ∈ batch, store.directory.Holds (fileOf event.sessionId))
    {numbers : Table UInt64} (found : store.numbersUnder {} batch = .ok numbers) :
    ∃ next, Store.append batch store = (.ok (), next) := by
  have lines : ∀ entry ∈ linesBySession batch, store.directory.Holds (fileOf entry.1) := by
    intro entry member
    obtain ⟨event, inBatch, own⟩ := exists_mem_of_line batch entry.1 member
    exact own ▸ holds event inBatch
  rw [← appendUnder_faultless, appendUnder, found, writeAllUnder_faultless,
    writeAll_of_holds [] lines]
  exact ⟨_, rfl⟩

/-- The sessions whose files an append comes to open. -/
structure Reached (faults : Faults) (batch : List SealedEvent) (store : LineFileStore)
    (session : String) : Prop where
  numbered : ∃ numbers, store.numbersUnder faults batch = .ok numbers
  reaches : Reaches faults store.directory session (linesBySession batch)

theorem Reaches.holds {directory : Directory} {session : String}
    {lines : List (String × List UInt8)} (reaches : Reaches faults directory session lines) :
    directory.Holds (fileOf session) ∧ ∃ bytes, (session, bytes) ∈ lines := by
  induction lines with
  | nil => cases reaches
  | cons entry rest ih =>
      obtain ⟨holds, -, rfl | ⟨-, later⟩⟩ := reaches
      · exact ⟨holds, entry.2, List.mem_cons_self⟩
      · obtain ⟨holds, bytes, member⟩ := ih later
        exact ⟨holds, bytes, List.mem_cons_of_mem _ member⟩

theorem Reached.isFileName {session : String} (reached : Reached faults batch store session) :
    isFileName session = true := by
  obtain ⟨⟨numbers, found⟩, reaches⟩ := reached
  obtain ⟨bytes, member⟩ := reaches.holds.2
  obtain ⟨event, inBatch, rfl⟩ := exists_mem_of_line batch session member
  obtain ⟨next, resolved, _⟩ := exists_of_bind_eq_ok found
  exact (isFileName_of_resolve resolved inBatch).resolve_right (by simp [Table.contains])

theorem opened_of_appendUnder {next : LineFileStore} {error : LedgerError}
    (failed : appendUnder faults batch store = (.error error, next)) :
    next.nextSequence = store.nextSequence ∧
      Opened (fun name => ∃ session, name = fileOf session ∧ Reached faults batch store session)
        store.directory next.directory := by
  unfold appendUnder at failed
  cases numbers : store.numbersUnder faults batch with
  | error refusal =>
      rw [numbers] at failed
      obtain rfl := (Prod.mk.inj failed).2
      refine ⟨rfl, (Opened.refl _).congr fun name => ⟨False.elim, ?_⟩⟩
      rintro ⟨session, -, ⟨last, found⟩, -⟩
      exact absurd (numbers.symm.trans found) nofun
  | ok last =>
      rw [numbers] at failed
      cases wrote : writeAllUnder faults store.directory [] (linesBySession batch) with
      | mk outcome directory =>
          rw [wrote] at failed
          cases outcome with
          | ok => cases failed
          | error cause =>
              obtain rfl := (Prod.mk.inj failed).2
              refine ⟨rfl, (opened_of_writeAllUnder wrote).congr fun name => ?_⟩
              refine exists_congr fun session => and_congr_right fun _ => ?_
              exact ⟨fun reaches => ⟨⟨last, numbers⟩, reaches⟩, Reached.reaches⟩

/-- A file that has been made reads as one that is not there. -/
theorem load_of_opened {opened : String → Prop} {next : LineFileStore}
    (opens : Opened opened store.directory next.directory) (session : String) :
    next.load session = store.load session := by
  unfold load
  cases fileName session with
  | error error => rfl
  | ok name =>
      simp only [bind, Except.bind, Directory.entry?, opens.present]
      by_cases made : opened name ∧ store.directory.entries.find? name = none
      · rw [opens.made name made.1 made.2, made.2]
        cases store.directory.present with
        | false => rfl
        | true => by_cases long : maxNameBytes < name.utf8ByteSize <;> (simp [long]; try rfl)
      · rw [opens.kept name fun now none => made ⟨now, none⟩]

theorem exists_sessionIds (present : store.directory.present = true) :
    ∃ sessions, store.sessionIds = .ok sessions ∧ sessions.Pairwise (· < ·) ∧
      ∀ session, session ∈ sessions ↔
        session ≠ "" ∧ (store.directory.entries.find? (fileOf session)).isSome = true := by
  refine ⟨_, by rw [sessionIds, names, if_pos present], pairwise_sortedDistinct _, ?_⟩
  intro session
  rw [mem_sortedDistinct, List.mem_filterMap]
  constructor
  · rintro ⟨name, member, told⟩
    obtain rfl := fileOf_of_sessionOf? told
    refine ⟨?_, Table.isSome_find?_iff.mpr member⟩
    rintro rfl
    cases told
  · rintro ⟨filled, found⟩
    exact ⟨fileOf session, Table.isSome_find?_iff.mp found, sessionOf?_fileOf filled⟩

theorem sessionIds_of_failed {next : LineFileStore} {error : LedgerError}
    (failed : appendUnder faults batch store = (.error error, next)) :
    (∃ before after, store.sessionIds = .ok before ∧ next.sessionIds = .ok after ∧
      before.Sublist after ∧ after.Nodup ∧
      ∀ session, (session ∈ after ↔ session ∈ before ∨ Reached faults batch store session) ∧
        (Reached faults batch store session →
          (session ∈ before ↔ store.directory.contains (fileOf session) = true))) ∨
    ∃ cause, store.sessionIds = .error cause ∧ next.sessionIds = .error cause ∧
      ∀ session, ¬Reached faults batch store session := by
  have opens := (opened_of_appendUnder failed).2
  cases present : store.directory.present with
  | false =>
      have told (other : LineFileStore) (gone : other.directory.present = false) :
          other.sessionIds = .error (.io
            s!"Failed to list {other.directory.path}: {FileError.notFound.message}") := by
        simp [sessionIds, names, gone]
      refine Or.inr ⟨_, told store present, ?_, fun session reached => ?_⟩
      · rw [told next (opens.present.trans present), opens.path]
      · exact Bool.false_ne_true (present.symm.trans reached.reaches.holds.1.present)
  | true =>
      obtain ⟨before, told, sorted, listed⟩ := exists_sessionIds present
      obtain ⟨after, toldNext, sortedNext, listedNext⟩ :=
        exists_sessionIds (opens.present.trans present)
      have added (session : String) :
          session ∈ after ↔ session ∈ before ∨ Reached faults batch store session := by
        rw [listedNext, listed, opens.isSome_find?, and_or_left]
        refine or_congr_right ⟨?_, fun reached => ⟨?_, session, rfl, reached⟩⟩
        · rintro ⟨-, other, same, reached⟩
          exact fileOf_inj same ▸ reached
        · rintro rfl
          exact Bool.false_ne_true reached.isFileName
      have sub : before.Sublist after :=
        List.sublist_of_subperm_of_pairwise
          (List.subperm_of_subset (sorted.imp ne_of_lt) fun session there =>
            (added session).mpr (Or.inl there)) sorted sortedNext
      refine Or.inl ⟨before, after, told, toldNext, sub, sortedNext.imp ne_of_lt, fun session =>
        ⟨added session, fun reached => ?_⟩⟩
      rw [listed, reached.reaches.holds.1.contains_iff]
      refine and_iff_right ?_
      rintro rfl
      exact Bool.false_ne_true reached.isFileName

theorem readRange_of_loads (same : ∀ session, other.load session = store.load session)
    (session : String) (first last : UInt64) :
    Store.readRange session first last other = Store.readRange session first last store := by
  show (do return (← other.load session).filter (SealedEvent.inRange first last)) = _
  rw [same session]
  rfl

theorem verify_of_loads (same : ∀ session, other.load session = store.load session)
    (session : String) (first last : UInt64) :
    Store.verify other session first last = Store.verify store session first last := by
  simp only [Store.verify, readRange_of_loads same]

theorem verify_of_reached {session : String} (reached : Reached faults batch store session)
    (absent : store.directory.contains (fileOf session) ≠ true) :
    ∃ verdict, Store.verify store session 0 maxSequence = .ok verdict := by
  have holds := reached.reaches.holds.1
  have none : store.directory.entries.find? (fileOf session) = none :=
    Option.not_isSome_iff_eq_none.mp fun found => absent (holds.contains_iff.mpr found)
  have loaded : store.load session = .ok [] := by
    rw [load_eq reached.isFileName holds, contentOf, none]
    rfl
  exact ⟨_, (Store.tells_files loaded).verify UInt64.not_lt_zero⟩

theorem sessionIds_iff_of_failed {next : LineFileStore} {error : LedgerError}
    (failed : appendUnder faults batch store = (.error error, next)) :
    next.sessionIds = store.sessionIds ↔ ∀ session, Reached faults batch store session →
      store.directory.contains (fileOf session) = true := by
  rcases sessionIds_of_failed failed with
    ⟨before, after, told, toldNext, sub, distinct, listed⟩ | ⟨cause, told, toldNext, none⟩
  · rw [told, toldNext, Except.ok.injEq]
    constructor
    · rintro rfl session reached
      exact ((listed session).2 reached).mp ((listed session).1.mpr (Or.inr reached))
    · intro made
      refine (sub.eq_of_length_le (List.Subperm.length_le
        (List.subperm_of_subset distinct fun session member => ?_))).symm
      rcases (listed session).1.mp member with there | reached
      · exact there
      · exact ((listed session).2 reached).mpr (made session reached)
  · rw [told, toldNext]
    exact iff_of_true rfl fun session reached => absurd reached (none session)

/-- All sessions are found as before exactly if no file has been made or one is unreadable. -/
theorem verifyAll_iff_of_failed {next : LineFileStore} {error : LedgerError}
    (failed : appendUnder faults batch store = (.error error, next)) :
    Store.verifyAll next = Store.verifyAll store ↔
      (∀ session, Reached faults batch store session →
        store.directory.contains (fileOf session) = true) ∨
      ∃ cause, Store.verifyAll store = .error cause := by
  have same := verify_of_loads (load_of_opened (opened_of_appendUnder failed).2)
  have all (other : LineFileStore) : Store.verifyAll other = (do
      (← other.sessionIds).mapM fun session => Store.verify other session 0 maxSequence) := rfl
  rw [all, all]
  simp only [same]
  rcases sessionIds_of_failed failed with
    ⟨before, after, told, toldNext, sub, distinct, listed⟩ | ⟨cause, told, toldNext, none⟩
  · rw [← sessionIds_iff_of_failed failed, told, toldNext, Except.ok.injEq, @eq_comm _ after]
    simp only [bind, Except.bind]
    refine mapM_eq_iff_of_sublist sub distinct fun session member absent => ?_
    have reached := ((listed session).1.mp member).resolve_left absent
    exact verify_of_reached reached fun there => absent (((listed session).2 reached).mpr there)
  · simp only [told, toldNext, bind, Except.bind, true_iff]
    exact Or.inr ⟨cause, rfl⟩

/-- A directory in which the files of a batch can be written, and of which the batch continues what
is read: so it is found now, or so the append that failed has found it and the same is read. -/
structure Mended (faults : Faults) (batch : List SealedEvent) (store : LineFileStore)
    (mended : Directory) : Prop where
  holds : ∀ event ∈ batch, mended.Holds (fileOf event.sessionId)
  continues : (∃ numbers, numbersUnder {} batch { store with directory := mended } = .ok numbers) ∨
    (∃ numbers, store.numbersUnder faults batch = .ok numbers) ∧
      ∀ event ∈ batch, start { store with directory := mended } event.sessionId =
        start { store with directory := faults.shown store.directory } event.sessionId

theorem Mended.append {mended : Directory} (repaired : Mended faults batch store mended) :
    ∃ last, Store.append batch { store with directory := mended } = (.ok (), last) := by
  rcases repaired.continues with ⟨numbers, found⟩ | ⟨⟨numbers, found⟩, same⟩
  · exact append_of_numbers repaired.holds found
  · refine append_of_numbers repaired.holds (Eq.trans ?_ found)
    simp only [numbersUnder, id, resolve_congr same]

/-- After an append that failed everything is read as before, and a batch that failed for its files
is taken once they are mended. Only the files that it has made on its way are told apart. -/
theorem unchanged_of_failed {next : LineFileStore} {error : LedgerError}
    (failed : appendUnder faults batch store = (.error error, next)) :
    (∀ session,
      next.directory.contentOf (fileOf session) = store.directory.contentOf (fileOf session) ∧
      (∀ first last, Store.readRange session first last next =
        Store.readRange session first last store) ∧
      Store.readAll session next = Store.readAll session store ∧
      (Store.lastEvent session next).1 = (Store.lastEvent session store).1 ∧
      Store.eventCount session next = Store.eventCount session store) ∧
    -- The sessions are the same exactly if every file that was opened had been there.
    (Store.sessionIds next = Store.sessionIds store ↔
      ∀ session, Reached faults batch store session →
        store.directory.contains (fileOf session) = true) ∧
    (Store.verifyAll next = Store.verifyAll store ↔
      (∀ session, Reached faults batch store session →
        store.directory.contains (fileOf session) = true) ∨
      ∃ cause, Store.verifyAll store = .error cause) ∧
    -- A second attempt adds every event once.
    ∀ mended, Mended faults batch store mended →
      ∃ last, Store.append batch { next with directory := mended } = (.ok (), last) ∧
        ∀ session,
          last.directory.contentOf (fileOf session) =
            mended.contentOf (fileOf session) ++ (ownEvents session batch).flatMap lineOf ∧
          ∀ before, load { next with directory := mended } session = .ok before →
            Extendable (mended.contentOf (fileOf session)) →
            ownEvents session batch ≠ [] → (∀ event ∈ ownEvents session batch, ReadsBack event) →
            last.load session = .ok (before ++ ownEvents session batch) := by
  obtain ⟨remembered, opens⟩ := opened_of_appendUnder failed
  have same := load_of_opened opens
  refine ⟨fun session => ⟨opens.contentOf_eq _, readRange_of_loads same session, ?_, ?_, ?_⟩, ?_,
    verifyAll_iff_of_failed failed, fun mended repaired => ?_⟩
  · rw [readAll_eq_load, readAll_eq_load, same]
  · exact congrArg (Except.map List.getLast?) (same session)
  · exact congrArg (Except.map List.length) (same session)
  · exact sessionIds_iff_of_failed failed
  · have again : { next with directory := mended } = { store with directory := mended } := by
      rw [remembered]
    rw [again]
    obtain ⟨last, appended⟩ := repaired.append
    refine ⟨last, appended, fun session => ⟨?_, fun before loaded extendable some back => ?_⟩⟩
    · rw [(directory_of_append appended).1, contentOf_written_lines]
    · have shallow := fun event member => (readsBack_iff.mp (back event member)).1
      have reread : (ownEvents session batch).map (·.reread) = ownEvents session batch := by
        refine (List.map_congr_left fun event member => ?_).trans (List.map_id _)
        exact (readsBack_iff.mp (back event member)).2
      rw [load_of_append loaded appended some, if_pos ⟨extendable, shallow⟩, reread]

end

def twoFiles : LineFileStore where
  directory := {
    path := "d"
    entries := ["s", "t"].map fun session =>
      (fileOf session, .file (lineOf (sampleSealed session 0))) }
  nextSequence := [("s", 1), ("t", 1)]

def laterPair : List SealedEvent :=
  [sampleSealed "s" 1, sampleSealed "t" 1]

def fullDisk : Faults where
  writing name :=
    if name = fileOf "t" then some (.writing 3 "No space left on device (os error 28)") else none

theorem holds_twoFiles :
    ∀ event ∈ laterPair, twoFiles.directory.Holds (fileOf event.sessionId) := by
  simp only [laterPair, List.forall_mem_cons]
  exact ⟨⟨rfl, by decide, nofun⟩, ⟨rfl, by decide, nofun⟩, List.forall_mem_nil _⟩

theorem unchanged_of_fullDisk : ∃ error next last,
    appendUnder fullDisk laterPair twoFiles = (.error error, next) ∧
      Store.readAll "s" next = Store.readAll "s" twoFiles ∧
      Store.sessionIds next = Store.sessionIds twoFiles ∧
      Store.append laterPair next = (.ok (), last) ∧
      last.directory.contentOf (fileOf "s") =
        lineOf (sampleSealed "s" 0) ++ lineOf (sampleSealed "s" 1) := by
  obtain ⟨error, next, failed⟩ : ∃ error next,
      appendUnder fullDisk laterPair twoFiles = (.error error, next) := ⟨_, _, Prod.ext rfl rfl⟩
  obtain ⟨reads, listed, -, retried⟩ := unchanged_of_failed failed
  have opens := (opened_of_appendUnder failed).2
  have known : ∀ event ∈ laterPair, start { twoFiles with directory := next.directory }
      event.sessionId = twoFiles.start event.sessionId := by
    simp only [laterPair, List.forall_mem_cons]
    exact ⟨rfl, rfl, List.forall_mem_nil _⟩
  obtain ⟨last, appended, grown⟩ := retried next.directory {
    holds := fun event member => opens.holds (holds_twoFiles event member)
    continues := Or.inr ⟨⟨_, rfl⟩, known⟩ }
  refine ⟨error, next, last, failed, (reads "s").2.2.1, listed.mpr fun session reached => ?_,
    appended, ?_⟩
  · obtain ⟨bytes, member⟩ := reached.reaches.holds.2
    have keys : (linesBySession laterPair).map Prod.fst = ["s", "t"] := rfl
    rcases List.mem_pair.mp (keys ▸ List.mem_map_of_mem member) with rfl | rfl <;> rfl
  · have own : ownEvents "s" laterPair = [sampleSealed "s" 1] := rfl
    have former : twoFiles.directory.contentOf (fileOf "s") = lineOf (sampleSealed "s" 0) := rfl
    rw [(grown "s").1, (reads "s").1, own, former, List.flatMap_singleton]

def takenOver : LineFileStore where
  directory := { path := "d", entries := [(fileOf "t", .directory)] }
  nextSequence := [("t", 1)]

/-- A session that a failed append has not stored any event of is listed. -/
theorem listed_of_failed :
    Store.sessionIds takenOver = .ok ["t"] ∧
      ∃ error next, Store.append [sampleSealed "s" 0, sampleSealed "t" 1] takenOver =
        (.error error, next) ∧
        Store.readAll "s" next = .ok [] ∧ Store.sessionIds next = .ok ["s", "t"] :=
  ⟨rfl, _, _, rfl, rfl, rfl⟩

end LineFileStore

end AuditTrail
