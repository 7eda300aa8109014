import AuditTrail.Proofs.Store.Appending
import AuditTrail.Store.Faults

/-!
What is left of a batch of which one file cannot be written: every file that was opened is there, as
long as it was before, and empty if it was not there before.
-/

namespace AuditTrail

namespace Directory

/-- The files of some names have been opened, and thereby made where there was nothing. -/
structure Opened (opened : String → Prop) (before after : Directory) : Prop where
  path : after.path = before.path
  present : after.present = before.present
  made : ∀ name, opened name → before.entries.find? name = none →
    after.entries.find? name = some (.file [])
  kept : ∀ name, (opened name → before.entries.find? name ≠ none) →
    after.entries.find? name = before.entries.find? name

def cutEntry (length : Nat) : DirectoryEntry → DirectoryEntry
  | .file bytes => .file (bytes.take length)
  | .directory => .directory

def cutBack (directory : Directory) (written : List (String × Nat)) : Directory :=
  written.foldl (fun directory entry => directory.cutBytes entry.1 entry.2) directory

section

variable {opened others : String → Prop} {before after last directory : Directory} {name : String}

theorem Opened.refl (directory : Directory) : Opened (fun _ => False) directory directory where
  path := rfl
  present := rfl
  made _ := False.elim
  kept _ _ := rfl

theorem Opened.trans (first : Opened opened before after) (second : Opened others after last) :
    Opened (fun name => opened name ∨ others name) before last where
  path := second.path.trans first.path
  present := second.present.trans first.present
  made name either none := by
    by_cases already : opened name
    · have found := first.made name already none
      rw [second.kept name (by simp [found]), found]
    · have same := first.kept name fun now => absurd now already
      exact second.made name (either.resolve_left already) (same.trans none)
  kept name there := by
    have same := first.kept name fun now => there (Or.inl now)
    rw [second.kept name (fun now => same ▸ there (Or.inr now)), same]

theorem Opened.congr (opens : Opened opened before after)
    (same : ∀ name, opened name ↔ others name) : Opened others before after := by
  obtain rfl : opened = others := funext fun name => propext (same name)
  exact opens

theorem find?_cutBytes (directory : Directory) (name other : String) (length : Nat) :
    (directory.cutBytes name length).entries.find? other =
      if other = name ∧ directory.present = true ∧ name.utf8ByteSize ≤ maxNameBytes then
        (directory.entries.find? other).map (cutEntry length)
      else directory.entries.find? other := by
  unfold cutBytes bytesOf entry?
  cases present : directory.present with
  | false => simp
  | true =>
      by_cases long : maxNameBytes < name.utf8ByteSize
      · simp [long, Nat.not_le.mpr long]
      · by_cases same : other = name
        · subst same
          cases found : directory.entries.find? other with
          | none => simp [long, found]
          | some entry =>
              cases entry <;> simp [long, Nat.not_lt.mp long, found, Table.find?_insert, cutEntry]
        · cases found : directory.entries.find? name with
          | none => simp [long, same]
          | some entry => cases entry <;> simp [long, same, Table.find?_insert]

theorem path_cutBytes (directory : Directory) (name : String) (length : Nat) :
    (directory.cutBytes name length).path = directory.path := by
  unfold cutBytes
  split <;> rfl

theorem present_cutBytes (directory : Directory) (name : String) (length : Nat) :
    (directory.cutBytes name length).present = directory.present := by
  unfold cutBytes
  split <;> rfl

theorem Opened.cutBytes (opens : Opened opened before after) (name : String) (length : Nat) :
    Opened opened (before.cutBytes name length) (after.cutBytes name length) where
  path := by rw [path_cutBytes, path_cutBytes, opens.path]
  present := by rw [present_cutBytes, present_cutBytes, opens.present]
  made other now none := by
    have found := opens.made other now (by
      rw [find?_cutBytes] at none
      split at none
      · exact Option.map_eq_none_iff.mp none
      · exact none)
    rw [find?_cutBytes, found]
    split <;> simp [cutEntry]
  kept other there := by
    rw [find?_cutBytes, find?_cutBytes, opens.present, opens.kept other fun now none => ?_]
    exact there now (by rw [find?_cutBytes, none]; simp)

theorem Opened.cutBack (opens : Opened opened before after) (written : List (String × Nat)) :
    Opened opened (before.cutBack written) (after.cutBack written) := by
  induction written generalizing before after with
  | nil => exact opens
  | cons entry rest ih => exact ih (opens.cutBytes entry.1 entry.2)

/-- What has grown is cut back to where it was, but a file that has been made stays. -/
theorem Holds.opened_cutBytes (holds : directory.Holds name) (bytes : List UInt8) :
    Opened (· = name) directory
      ((directory.grown name bytes).cutBytes name (directory.contentOf name).length) where
  path := path_cutBytes _ _ _
  present := present_cutBytes _ _ _
  made other now none := by
    subst now
    have grown : (directory.grown other bytes).present = true := holds.present
    rw [find?_cutBytes, if_pos ⟨rfl, grown, holds.short⟩, Directory.grown, Table.find?_insert,
      if_pos rfl]
    simp [cutEntry, contentOf, none]
  kept other there := by
    have grown : (directory.grown name bytes).present = true := holds.present
    by_cases now : other = name
    · subst now
      rw [find?_cutBytes, if_pos ⟨rfl, grown, holds.short⟩, Directory.grown, Table.find?_insert,
        if_pos rfl]
      cases found : directory.entries.find? other with
      | none => exact absurd found (there rfl)
      | some entry =>
          cases entry with
          | file former => simp [cutEntry, contentOf, found]
          | directory => exact absurd found holds.free
    · rw [find?_cutBytes, if_neg (fun both => now both.1), Directory.grown, Table.find?_insert,
        if_neg now]

theorem Holds.grown_iff (holds : directory.Holds name) (bytes : List UInt8) {other : String} :
    (directory.grown name bytes).Holds other ↔ directory.Holds other :=
  ⟨holds.of_grown, fun there => there.grown name bytes⟩

theorem Holds.contains_iff (holds : directory.Holds name) :
    directory.contains name = true ↔ (directory.entries.find? name).isSome = true := by
  unfold contains entry?
  cases directory.entries.find? name <;> simp [holds.present, Nat.not_lt.mpr holds.short]

theorem Opened.contentOf_eq (opens : Opened opened before after) (name : String) :
    after.contentOf name = before.contentOf name := by
  by_cases made : opened name ∧ before.entries.find? name = none
  · simp [contentOf, opens.made name made.1 made.2, made.2]
  · rw [contentOf, opens.kept name fun now none => made ⟨now, none⟩, contentOf]

theorem Opened.holds (opens : Opened opened before after) (holds : before.Holds name) :
    after.Holds name := by
  refine ⟨opens.present.trans holds.present, holds.short, ?_⟩
  by_cases made : opened name ∧ before.entries.find? name = none
  · simp [opens.made name made.1 made.2]
  · rw [opens.kept name fun now none => made ⟨now, none⟩]
    exact holds.free

theorem Opened.isSome_find? (opens : Opened opened before after) (name : String) :
    (after.entries.find? name).isSome = true ↔
      (before.entries.find? name).isSome = true ∨ opened name := by
  by_cases made : opened name ∧ before.entries.find? name = none
  · simp [opens.made name made.1 made.2, made.1]
  · rw [opens.kept name fun now none => made ⟨now, none⟩]
    constructor
    · exact Or.inl
    · rintro (there | now)
      · exact there
      · exact Option.isSome_iff_ne_none.mpr fun none => made ⟨now, none⟩

end

end Directory

namespace LineFileStore

open Directory

theorem writeAllUnder_faultless (directory : Directory) (written : List (String × Nat))
    (lines : List (String × List UInt8)) :
    writeAllUnder {} directory written lines = writeAll directory written lines := by
  induction lines generalizing directory written with
  | nil => rfl
  | cons entry rest ih =>
      obtain ⟨session, bytes⟩ := entry
      simp only [writeAllUnder, writeAll, Directory.addUnder]
      cases directory.addBytes s!"{session}.jsonl" bytes with
      | ok added => exact ih _ _
      | error error => rfl

/-- Without faults this is the append of the store. -/
theorem appendUnder_faultless (batch : List SealedEvent) (store : LineFileStore) :
    appendUnder {} batch store = Store.append batch store := by
  show appendUnder {} batch store = append batch store
  unfold appendUnder
  rw [writeAllUnder_faultless]
  rfl

/-- A batch comes to open the file of a session: so could all files before it be, and be written. -/
def Reaches (faults : Faults) (directory : Directory) (session : String) :
    List (String × List UInt8) → Prop
  | [] => False
  | (first, _) :: rest =>
    directory.Holds (fileOf first) ∧
    (∀ cause, faults.writing (fileOf first) ≠ some (.opening cause)) ∧
    (session = first ∨
      faults.writing (fileOf first) = none ∧ Reaches faults directory session rest)

section

variable {faults : Faults} {directory next : Directory} {name session : String}
  {bytes : List UInt8} {lines : List (String × List UInt8)}

theorem addUnder_cases (directory : Directory) (fault : Option WriteFault) (name : String)
    (bytes : List UInt8) :
    (directory.Holds name ∧ fault = none ∧ directory.addUnder fault name bytes =
      (.ok (directory.contentOf name).length, directory.grown name bytes)) ∨
    ∃ cause next, directory.addUnder fault name bytes = (.error cause, next) ∧
      ¬(directory.Holds name ∧ fault = none) ∧
      Opened (fun other => other = name ∧ directory.Holds name ∧
        ∀ cause, fault ≠ some (.opening cause)) directory next := by
  by_cases holds : directory.Holds name
  · cases fault with
    | none => exact Or.inl ⟨holds, rfl, by rw [addUnder, holds.addBytes bytes]⟩
    | some fault =>
        cases fault with
        | opening cause =>
            refine Or.inr ⟨cause, directory, rfl, by simp, ?_⟩
            exact (Opened.refl directory).congr (by simp)
        | writing taken cause =>
            refine Or.inr ⟨cause, _, by rw [addUnder, holds.addBytes (bytes.take taken)], by simp,
              ?_⟩
            exact (holds.opened_cutBytes (bytes.take taken)).congr (by simp [holds])
  · have refused (bytes : List UInt8) : ∃ error, directory.addBytes name bytes = .error error := by
      cases added : directory.addBytes name bytes with
      | error error => exact ⟨error, rfl⟩
      | ok grown => exact absurd (holds_of_addBytes added) holds
    have nothing : Opened (fun other => other = name ∧ directory.Holds name ∧
        ∀ cause, fault ≠ some (.opening cause)) directory directory :=
      (Opened.refl directory).congr (by simp [holds])
    rcases fault with _ | ⟨cause⟩ | ⟨taken, cause⟩
    · obtain ⟨error, refusal⟩ := refused bytes
      exact Or.inr ⟨error.message, directory, by rw [addUnder, refusal], by simp [holds], nothing⟩
    · exact Or.inr ⟨cause, directory, rfl, by simp [holds], nothing⟩
    · obtain ⟨error, refusal⟩ := refused (bytes.take taken)
      exact Or.inr ⟨error.message, directory, by rw [addUnder, refusal], by simp [holds], nothing⟩

theorem reaches_grown_iff (holds : directory.Holds name) :
    Reaches faults (directory.grown name bytes) session lines ↔
      Reaches faults directory session lines := by
  induction lines with
  | nil => rfl
  | cons entry rest ih => simp only [Reaches, ih, holds.grown_iff]

theorem opened_of_writeAllUnder {written : List (String × Nat)} {error : LedgerError}
    (failed : writeAllUnder faults directory written lines = (.error error, next)) :
    Opened (fun name => ∃ session, name = fileOf session ∧ Reaches faults directory session lines)
      (directory.cutBack written) next := by
  induction lines generalizing directory written with
  | nil => cases failed
  | cons entry rest ih =>
      obtain ⟨session, bytes⟩ := entry
      simp only [writeAllUnder] at failed
      rcases addUnder_cases directory (faults.writing (fileOf session)) (fileOf session) bytes with
        ⟨holds, faultless, added⟩ | ⟨cause, left, refused, faulty, opens⟩
      · simp only [fileOf] at added
        simp only [added] at failed
        have first := (holds.opened_cutBytes bytes).cutBack written
        have later : Opened _ ((directory.grown (fileOf session) bytes).cutBack
          ((fileOf session, (directory.contentOf (fileOf session)).length) :: written)) next :=
          ih failed
        refine (first.trans later).congr fun name => ?_
        constructor
        · rintro (rfl | ⟨other, rfl, reaches⟩)
          · exact ⟨session, rfl, holds, by simp [faultless], Or.inl rfl⟩
          · have reaches := (reaches_grown_iff holds).mp reaches
            exact ⟨other, rfl, holds, by simp [faultless], Or.inr ⟨faultless, reaches⟩⟩
        · rintro ⟨other, rfl, -, -, rfl | ⟨-, reaches⟩⟩
          · exact Or.inl rfl
          · exact Or.inr ⟨other, rfl, (reaches_grown_iff holds).mpr reaches⟩
      · simp only [fileOf] at refused
        simp only [refused] at failed
        obtain rfl := (Prod.mk.inj failed).2
        refine (opens.cutBack written).congr fun name => ?_
        constructor
        · rintro ⟨rfl, holds, openable⟩
          exact ⟨session, rfl, holds, openable, Or.inl rfl⟩
        · rintro ⟨other, rfl, holds, openable, rfl | ⟨faultless, -⟩⟩
          · exact ⟨rfl, holds, openable⟩
          · exact absurd ⟨holds, faultless⟩ faulty

end

end LineFileStore

end AuditTrail
