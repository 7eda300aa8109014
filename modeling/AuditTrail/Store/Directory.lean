import AuditTrail.Table
import AuditTrail.Text.Utf8

/-!
One directory of files, as far as a store of line files depends on it: names stand for bytes or
for a directory, and an operation fails for the reasons a system names.
-/

namespace AuditTrail

inductive FileError where
  | notFound
  | alreadyExists
  | notDirectory
  | isDirectory
  | nameTooLong
  | invalidText
deriving DecidableEq

def FileError.message : FileError → String
  | .notFound => "No such file or directory (os error 2)"
  | .alreadyExists => "File exists (os error 17)"
  | .notDirectory => "Not a directory (os error 20)"
  | .isDirectory => "Is a directory (os error 21)"
  | .nameTooLong => "File name too long (os error 36)"
  | .invalidText => "stream did not contain valid UTF-8"

inductive DirectoryEntry where
  | file (bytes : List UInt8)
  | directory

structure Directory where
  path : String
  present : Bool := true
  entries : Table DirectoryEntry := []

namespace Directory

def pathOf (directory : Directory) (name : String) : String :=
  s!"{directory.path}/{name}"

def maxNameBytes : Nat := 255

def entry? (directory : Directory) (name : String) : Except FileError DirectoryEntry :=
  if !directory.present then .error .notFound
  else if maxNameBytes < name.utf8ByteSize then .error .nameTooLong
  else
    match directory.entries.find? name with
    | some entry => .ok entry
    | none => .error .notFound

def contains (directory : Directory) (name : String) : Bool :=
  match directory.entry? name with
  | .ok _ => true
  | .error _ => false

def bytesOf (directory : Directory) (name : String) : Except FileError (List UInt8) :=
  match directory.entry? name with
  | .ok (.file bytes) => .ok bytes
  | .ok .directory => .error .isDirectory
  | .error error => .error error

def putBytes (directory : Directory) (name : String) (bytes : List UInt8) :
    Except FileError Directory :=
  match directory.entry? name with
  | .ok .directory => .error .isDirectory
  | .error .notFound =>
    if directory.present then
      .ok { directory with entries := directory.entries.insert name (.file bytes) }
    else .error .notFound
  | .error error => .error error
  | .ok (.file _) => .ok { directory with entries := directory.entries.insert name (.file bytes) }

def addBytes (directory : Directory) (name : String) (bytes : List UInt8) :
    Except FileError (Nat × Directory) :=
  let former := match directory.entry? name with
    | .ok (.file former) => former
    | _ => []
  match directory.putBytes name (former ++ bytes) with
  | .ok directory => .ok (former.length, directory)
  | .error error => .error error

def cutBytes (directory : Directory) (name : String) (length : Nat) : Directory :=
  match directory.bytesOf name with
  | .ok bytes =>
    { directory with entries := directory.entries.insert name (.file (bytes.take length)) }
  | .error _ => directory

def dropFile (directory : Directory) (name : String) : Except FileError Directory :=
  match directory.entry? name with
  | .ok (.file _) => .ok { directory with entries := directory.entries.erase name }
  | .ok .directory => .error .isDirectory
  | .error error => .error error

def addFolder (directory : Directory) (name : String) : Except FileError Directory :=
  if name = "" then .ok { directory with present := true }
  else
    match directory.entry? name with
    | .ok .directory => .ok directory
    | .ok (.file _) => .error .alreadyExists
    | .error .notFound =>
      .ok { directory with
        present := true
        entries := directory.entries.insert name .directory }
    | .error error => .error error

def dropFolder (directory : Directory) (name : String) : Except FileError Directory :=
  if name = "" then
    if directory.present then .ok { directory with present := false, entries := [] }
    else .error .notFound
  else
    match directory.entry? name with
    | .ok .directory => .ok { directory with entries := directory.entries.erase name }
    | .ok (.file _) => .error .notDirectory
    | .error error => .error error

def names (directory : Directory) : Except FileError (List String) :=
  if directory.present then .ok directory.entries.keys else .error .notFound

end Directory

end AuditTrail
