import AuditTrail.Store.Basic
import AuditTrail.Store.Directory
import AuditTrail.Text.Blank

/-!
A store with one file per session and one line of JSON per event. A batch that fails at one file is
cut off again from the files written before it.
-/

namespace AuditTrail

/-- The next number of a session is remembered once an append has used it. -/
structure LineFileStore where
  directory : Directory
  nextSequence : Table UInt64 := []

namespace LineFileStore

def isFileName (session : String) : Bool :=
  session ≠ "" && session ≠ "." && session ≠ ".." &&
    session.toList.all fun c => c ≠ '/' && c ≠ '\\' && c.toNat ≠ 0

def fileName (session : String) : Outcome String :=
  if isFileName session then .ok s!"{session}.jsonl"
  else .error (.invalidSession session "not usable as a file name")

def sessionFile (store : LineFileStore) (session : String) : Outcome String :=
  (fileName session).map store.directory.pathOf

/-- Bytes up to each line feed; what follows the last one is a line unless it is empty. -/
def splitLines : List UInt8 → List (List UInt8)
  | [] => []
  | b :: rest =>
    if b = 0x0a then [] :: splitLines rest
    else
      match splitLines rest with
      | line :: more => (b :: line) :: more
      | [] => [[b]]

def dropReturn (line : List UInt8) : List UInt8 :=
  if line.getLast? = some 0x0d then line.dropLast else line

def decodeLine (line : List UInt8) : Outcome (Option SealedEvent) :=
  match Utf8.decode line with
  | .error _ => .error (.io s!"Failed to read line: {FileError.invalidText.message}")
  | .ok text =>
    if (trimStart text.toList).isEmpty then .ok none
    else
      match SealedEvent.decode.ofText text with
      | .ok event => .ok (some event)
      | .error cause => .error (.json cause)

def decodeLines : List (List UInt8) → Outcome (List SealedEvent)
  | [] => .ok []
  | line :: rest => do
    let event ← decodeLine (dropReturn line)
    return event.toList ++ (← decodeLines rest)

def load (store : LineFileStore) (session : String) : Outcome (List SealedEvent) := do
  let name ← fileName session
  match store.directory.entry? name with
  | .error _ => .ok []
  | .ok .directory => .error (.io s!"Failed to read line: {FileError.isDirectory.message}")
  | .ok (.file bytes) => decodeLines (splitLines bytes)

def lineOf (event : SealedEvent) : List UInt8 :=
  Utf8.encode event.toJson.print ++ [0x0a]

/-- Resolves every session of a batch, in order: its file must have a name and must be readable
unless its next number is remembered. -/
def resolve (store : LineFileStore) (next : Table UInt64) :
    List SealedEvent → Outcome (Table UInt64)
  | [] => .ok next
  | event :: rest =>
    if next.contains event.sessionId then resolve store next rest
    else do
      let _ ← fileName event.sessionId
      let start ← match store.nextSequence.find? event.sessionId with
        | some start => .ok start
        | none => (store.load event.sessionId).map fun events => UInt64.ofNat events.length
      resolve store (next.insert event.sessionId start) rest

def linesBySession (batch : List SealedEvent) : Table (List UInt8) :=
  batch.foldl (fun table event =>
    table.insert event.sessionId
      ((table.find? event.sessionId).getD [] ++ lineOf event)) []

/-- Appends to one file after another; on a failure the files written so far are cut back. -/
def writeAll (directory : Directory) (written : List (String × Nat)) :
    List (String × List UInt8) → Outcome Unit × Directory
  | [] => (.ok (), directory)
  | (session, bytes) :: rest =>
    let name := s!"{session}.jsonl"
    match directory.addBytes name bytes with
    | .ok (former, directory) => writeAll directory ((name, former) :: written) rest
    | .error error =>
      let restored := written.foldl
        (fun directory (name, length) => directory.cutBytes name length) directory
      (.error (.io s!"Failed to write {directory.pathOf name}: {error.message}"), restored)

def append (batch : List SealedEvent) (store : LineFileStore) : Outcome Unit × LineFileStore :=
  match (do
      let next ← store.resolve [] batch
      Store.checkContiguous "file" next batch) with
  | .error error => (.error error, store)
  | .ok next =>
    match writeAll store.directory [] (linesBySession batch) with
    | (.error error, directory) => (.error error, { store with directory })
    | (.ok (), directory) =>
      (.ok (), {
        directory
        nextSequence := next.foldl (fun table (session, n) => table.insert session n)
          store.nextSequence })

def sessionOf? (name : String) : Option String :=
  let chars := name.toList
  let stem := chars.take (chars.length - 6)
  if !stem.isEmpty && chars.drop (chars.length - 6) = ".jsonl".toList then
    some (String.ofList stem)
  else none

def sessionIds (store : LineFileStore) : Outcome (List String) :=
  match store.directory.names with
  | .ok names => .ok (sortedDistinct (names.filterMap sessionOf?))
  | .error error =>
    .error (.io s!"Failed to list {store.directory.path}: {error.message}")

instance : Store LineFileStore where
  name _ := "file"
  append := append
  readRange session first last store := do
    return (← store.load session).filter (·.inRange first last)
  lastEvent session store := ((store.load session).map List.getLast?, store)
  eventCount session store := (store.load session).map List.length
  sessionIds := sessionIds
  healthCheck store :=
    if store.directory.present then .ok ()
    else .error (.io "Storage directory does not exist")

end LineFileStore

end AuditTrail
