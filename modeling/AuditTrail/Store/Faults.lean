import AuditTrail.Store.LineFiles

/-!
Appends while the system does not let files be read or written as usual. A file is made by being
opened, before anything is written to it; what could not be written as a whole is cut off again.
-/

namespace AuditTrail

/-- A file cannot be opened, or not be written or synced once some bytes are behind its end. -/
inductive WriteFault where
  | opening (cause : String)
  | writing (taken : Nat) (cause : String)

/-- What a system shows of a directory to those who read it, and what it does to those who write. -/
structure Faults where
  shown : Directory → Directory := id
  writing : String → Option WriteFault := fun _ => none

def Directory.addUnder (directory : Directory) (fault : Option WriteFault) (name : String)
    (bytes : List UInt8) : Except String Nat × Directory :=
  match fault with
  | some (.opening cause) => (.error cause, directory)
  | some (.writing taken cause) =>
    match directory.addBytes name (bytes.take taken) with
    | .ok (former, torn) => (.error cause, torn.cutBytes name former)
    | .error error => (.error error.message, directory)
  | none =>
    match directory.addBytes name bytes with
    | .ok (former, grown) => (.ok former, grown)
    | .error error => (.error error.message, directory)

namespace LineFileStore

def writeAllUnder (faults : Faults) (directory : Directory) (written : List (String × Nat)) :
    List (String × List UInt8) → Outcome Unit × Directory
  | [] => (.ok (), directory)
  | (session, bytes) :: rest =>
    let name := s!"{session}.jsonl"
    match directory.addUnder (faults.writing name) name bytes with
    | (.ok former, directory) => writeAllUnder faults directory ((name, former) :: written) rest
    | (.error cause, directory) =>
      let restored := written.foldl
        (fun directory (name, length) => directory.cutBytes name length) directory
      (.error (.io s!"Failed to write {directory.pathOf name}: {cause}"), restored)

def numbersUnder (faults : Faults) (batch : List SealedEvent) (store : LineFileStore) :
    Outcome (Table UInt64) := do
  let shown := { store with directory := faults.shown store.directory }
  Store.checkContiguous "file" (← shown.resolve [] batch) batch

def appendUnder (faults : Faults) (batch : List SealedEvent) (store : LineFileStore) :
    Outcome Unit × LineFileStore :=
  match store.numbersUnder faults batch with
  | .error error => (.error error, store)
  | .ok numbers =>
    match writeAllUnder faults store.directory [] (linesBySession batch) with
    | (.error error, directory) => (.error error, { store with directory })
    | (.ok (), directory) =>
      (.ok (), {
        directory
        nextSequence := numbers.foldl (fun table (session, n) => table.insert session n)
          store.nextSequence })

end LineFileStore

end AuditTrail
