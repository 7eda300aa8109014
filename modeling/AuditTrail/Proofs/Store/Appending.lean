import AuditTrail.Proofs.Store.Lines
import AuditTrail.Proofs.Table

/-!
What an append leaves in the files. The file of every session of the batch has grown by the lines of
its events, in their order, and all other files are as they were, so a session loads as before with
its events behind.
-/

namespace AuditTrail

def ownEvents (session : String) (batch : List SealedEvent) : List SealedEvent :=
  batch.filter fun event => event.sessionId = session

namespace Directory

/-- The bytes of a file, or none if there is no file of the name. -/
def contentOf (directory : Directory) (name : String) : List UInt8 :=
  match directory.entries.find? name with
  | some (.file bytes) => bytes
  | _ => []

def grown (directory : Directory) (name : String) (bytes : List UInt8) : Directory :=
  { directory with
    entries := directory.entries.insert name (.file (directory.contentOf name ++ bytes)) }

/-- A name under which there is or can be a file. -/
structure Holds (directory : Directory) (name : String) : Prop where
  present : directory.present = true
  short : name.utf8ByteSize ≤ maxNameBytes
  free : directory.entries.find? name ≠ some .directory

variable {directory next : Directory} {name other : String} {bytes : List UInt8} {former : Nat}

theorem Holds.addBytes (holds : directory.Holds name) (bytes : List UInt8) :
    directory.addBytes name bytes =
      .ok ((directory.contentOf name).length, directory.grown name bytes) := by
  have short := Nat.not_lt.mpr holds.short
  have free := holds.free
  cases found : directory.entries.find? name with
  | none =>
      simp [Directory.addBytes, putBytes, entry?, grown, contentOf, holds.present, short, found]
  | some entry =>
      cases entry with
      | file former =>
          simp [Directory.addBytes, putBytes, entry?, grown, contentOf, holds.present, short, found]
      | directory => exact absurd found free

theorem holds_of_addBytes (added : directory.addBytes name bytes = .ok (former, next)) :
    directory.Holds name := by
  unfold addBytes putBytes entry? at added
  cases present : directory.present with
  | false => simp [present] at added
  | true =>
      by_cases long : maxNameBytes < name.utf8ByteSize
      · simp [present, long] at added
      · refine ⟨present, Nat.not_lt.mp long, fun found => ?_⟩
        simp [present, long, found] at added

theorem Holds.grown (holds : directory.Holds name) (other : String) (bytes : List UInt8) :
    (directory.grown other bytes).Holds name := by
  refine { holds with free := ?_ }
  simp only [Directory.grown, Table.find?_insert]
  split
  · simp
  · exact holds.free

theorem Holds.of_grown (holds : directory.Holds other) (later : (directory.grown other bytes).Holds
    name) : directory.Holds name := by
  refine { later with free := ?_ }
  have free := later.free
  simp only [Directory.grown, Table.find?_insert] at free
  split at free
  · rename_i same
    exact same ▸ holds.free
  · exact free

theorem contentOf_grown :
    (directory.grown name bytes).contentOf other =
      if other = name then directory.contentOf name ++ bytes else directory.contentOf other := by
  by_cases same : other = name <;> simp [contentOf, grown, Table.find?_insert, same]

end Directory

namespace LineFileStore

def fileOf (session : String) : String := s!"{session}.jsonl"

theorem fileOf_inj {session other : String} (same : fileOf session = fileOf other) :
    session = other := by
  have chars := congrArg String.toList same
  simp only [fileOf, toString, String.toList_append] at chars
  exact String.toList_inj.mp (List.append_cancel_right chars)

def written (directory : Directory) (lines : List (String × List UInt8)) : Directory :=
  lines.foldl (fun directory entry => directory.grown (fileOf entry.1) entry.2) directory

section

variable {directory next : Directory} {lines : List (String × List UInt8)}

theorem writeAll_of_holds (past : List (String × Nat))
    (holds : ∀ entry ∈ lines, directory.Holds (fileOf entry.1)) :
    writeAll directory past lines = (.ok (), written directory lines) := by
  induction lines generalizing directory past with
  | nil => rfl
  | cons entry rest ih =>
      obtain ⟨session, bytes⟩ := entry
      have added := (holds _ List.mem_cons_self).addBytes bytes
      have later := ih ((fileOf session, (directory.contentOf (fileOf session)).length) :: past)
        fun other member =>
          (holds other (List.mem_cons_of_mem _ member)).grown (fileOf session) bytes
      simp only [fileOf] at added later
      simp only [writeAll, added, later]
      rfl

theorem holds_of_writeAll {past : List (String × Nat)}
    (wrote : writeAll directory past lines = (.ok (), next)) :
    ∀ entry ∈ lines, directory.Holds (fileOf entry.1) := by
  induction lines generalizing directory past with
  | nil => simp
  | cons entry rest ih =>
      obtain ⟨session, bytes⟩ := entry
      simp only [writeAll] at wrote
      cases added : directory.addBytes (fileOf session) bytes with
      | error error =>
          simp only [fileOf] at added
          simp [added] at wrote
      | ok grown =>
          obtain ⟨former, grown⟩ := grown
          have holds := Directory.holds_of_addBytes added
          obtain rfl : grown = directory.grown (fileOf session) bytes :=
            (Prod.mk.inj (Except.ok.inj (added.symm.trans (holds.addBytes bytes)))).2
          simp only [fileOf] at added
          simp only [added] at wrote
          intro other member
          rcases List.mem_cons.mp member with rfl | later
          · exact holds
          · exact holds.of_grown (ih wrote other later)

theorem present_written (directory : Directory) (lines : List (String × List UInt8)) :
    (written directory lines).present = directory.present := by
  induction lines generalizing directory with
  | nil => rfl
  | cons entry rest ih => exact ih _

theorem holds_written {name : String} (holds : directory.Holds name) :
    (written directory lines).Holds name := by
  induction lines generalizing directory with
  | nil => exact holds
  | cons entry rest ih => exact ih (holds.grown _ _)

theorem find?_written_other (directory : Directory) {name : String}
    (other : ∀ entry ∈ lines, name ≠ fileOf entry.1) :
    (written directory lines).entries.find? name = directory.entries.find? name := by
  induction lines generalizing directory with
  | nil => rfl
  | cons entry rest ih =>
      have different := other entry List.mem_cons_self
      have later := ih (directory.grown (fileOf entry.1) entry.2) fun entry member =>
        other entry (List.mem_cons_of_mem _ member)
      rw [written, List.foldl_cons, ← written, later, Directory.grown, Table.find?_insert,
        if_neg different]

theorem find?_written (directory : Directory) {session : String} {bytes : List UInt8}
    (ordered : Table.Ordered lines)
    (found : Table.find? session lines = some bytes) :
    (written directory lines).entries.find? (fileOf session) =
      some (.file (directory.contentOf (fileOf session) ++ bytes)) := by
  induction lines generalizing directory with
  | nil => cases found
  | cons entry rest ih =>
      obtain ⟨first, former⟩ := entry
      obtain ⟨before, tail⟩ := List.pairwise_cons.mp ordered
      rw [written, List.foldl_cons, ← written]
      simp only [Table.find?] at found
      split at found
      · rename_i same
        subst same
        obtain rfl := Option.some.inj found
        rw [find?_written_other, Directory.grown, Table.find?_insert, if_pos rfl]
        intro entry member same
        exact absurd (before entry member) (by simp [fileOf_inj same])
      · rename_i different
        rw [ih _ tail found, Directory.contentOf_grown, if_neg]
        exact fun same => different (fileOf_inj same)

end

section

variable (batch : List SealedEvent) (session : String)

theorem find?_foldl_lines (table : Table (List UInt8)) :
    Table.find? session (batch.foldl (fun table event => table.insert event.sessionId
      ((table.find? event.sessionId).getD [] ++ lineOf event)) table) =
      if ownEvents session batch = [] then table.find? session
      else some ((table.find? session).getD [] ++ (ownEvents session batch).flatMap lineOf) := by
  induction batch generalizing table with
  | nil => rfl
  | cons event rest ih =>
      rw [List.foldl_cons, ih, Table.find?_insert]
      by_cases same : event.sessionId = session
      · subst same
        have own : ownEvents event.sessionId (event :: rest) =
            event :: ownEvents event.sessionId rest := by simp [ownEvents]
        rw [own, if_pos rfl, if_neg (List.cons_ne_nil _ _), List.flatMap_cons]
        split
        · rename_i none
          simp [none]
        · simp
      · have own : ownEvents session (event :: rest) = ownEvents session rest := by
          simp [ownEvents, same]
        rw [own, if_neg (Ne.symm same)]

theorem find?_linesBySession :
    (linesBySession batch).find? session =
      if ownEvents session batch = [] then none
      else some ((ownEvents session batch).flatMap lineOf) := by
  rw [linesBySession, find?_foldl_lines]
  rfl

theorem ordered_foldl_lines {table : Table (List UInt8)} (ordered : table.Ordered) :
    Table.Ordered (batch.foldl (fun table event => table.insert event.sessionId
      ((table.find? event.sessionId).getD [] ++ lineOf event)) table) := by
  induction batch generalizing table with
  | nil => exact ordered
  | cons event rest ih => exact ih (ordered.insert _ _)

theorem ordered_linesBySession : (linesBySession batch).Ordered :=
  ordered_foldl_lines batch Table.Ordered.nil

theorem mem_linesBySession_iff :
    (∃ bytes, (session, bytes) ∈ linesBySession batch) ↔ ownEvents session batch ≠ [] := by
  constructor
  · rintro ⟨bytes, member⟩ none
    have found := (ordered_linesBySession batch).find?_of_mem member
    rw [find?_linesBySession, if_pos none] at found
    cases found
  · intro some
    have found := find?_linesBySession batch session
    rw [if_neg some] at found
    exact ⟨_, Table.mem_of_find? found⟩

theorem exists_mem_of_line {bytes : List UInt8} (member : (session, bytes) ∈ linesBySession batch) :
    ∃ event ∈ batch, event.sessionId = session := by
  have some := (mem_linesBySession_iff batch session).mp ⟨bytes, member⟩
  obtain ⟨event, own⟩ := List.exists_mem_of_ne_nil _ some
  obtain ⟨inBatch, same⟩ := List.mem_filter.mp own
  exact ⟨event, inBatch, of_decide_eq_true same⟩

/-- Every file has grown by the lines of its session, in their order. -/
theorem contentOf_written_lines (directory : Directory) :
    (written directory (linesBySession batch)).contentOf (fileOf session) =
      directory.contentOf (fileOf session) ++ (ownEvents session batch).flatMap lineOf := by
  by_cases none : ownEvents session batch = []
  · have other : ∀ entry ∈ linesBySession batch, fileOf session ≠ fileOf entry.1 := by
      intro entry member same
      obtain rfl := fileOf_inj same
      exact (mem_linesBySession_iff batch entry.1).mp ⟨entry.2, member⟩ none
    simp [Directory.contentOf, find?_written_other directory other, none]
  · have lines := find?_linesBySession batch session
    rw [if_neg none] at lines
    have found := find?_written directory (ordered_linesBySession batch) lines
    rw [Directory.contentOf, found]

end

section

variable {store next : LineFileStore} {batch : List SealedEvent} {session : String}

theorem load_eq (named : isFileName session = true)
    (holds : store.directory.Holds (fileOf session)) :
    store.load session =
      decodeLines (splitLines (store.directory.contentOf (fileOf session))) := by
  have short := Nat.not_lt.mpr holds.short
  have free := holds.free
  have name : fileName session = .ok (fileOf session) := if_pos named
  unfold load Directory.contentOf
  rw [name]
  simp only [bind, Except.bind, Directory.entry?, holds.present, short, if_false]
  cases found : store.directory.entries.find? (fileOf session) with
  | none => rfl
  | some entry =>
      cases entry with
      | file bytes => rfl
      | directory => exact absurd found free

theorem directory_of_append (appended : append batch store = (.ok (), next)) :
    next.directory = written store.directory (linesBySession batch) ∧
      ∀ session, ownEvents session batch ≠ [] → store.directory.Holds (fileOf session) := by
  unfold append at appended
  split at appended
  · cases appended
  · cases wrote : writeAll store.directory [] (linesBySession batch) with
    | mk outcome directory =>
        rw [wrote] at appended
        cases outcome with
        | error error => cases appended
        | ok =>
            cases appended
            have holds := holds_of_writeAll wrote
            rw [writeAll_of_holds [] holds] at wrote
            refine ⟨(Prod.mk.inj wrote).2.symm, fun session some => ?_⟩
            obtain ⟨bytes, member⟩ := (mem_linesBySession_iff batch session).mpr some
            exact holds _ member

end

end LineFileStore

end AuditTrail
