import AuditTrail.Settings.Validate
import AuditTrail.Store.Directory
import AuditTrail.Toml.Parser

/-!
Settings read from texts and files. The extension of a file's name tells its format.
-/

namespace AuditTrail

inductive SettingsFormat where
  | json
  | toml
deriving DecidableEq

inductive SettingsError where
  | undecodable (cause : DecodeError)
  | malformedToml
  | unknownExtension (extension : Option String)
  | unreadable (path : String) (error : FileError)
  | invalid (error : LedgerError)

namespace SettingsError

def toLedgerError : SettingsError → LedgerError
  | .undecodable cause => .invalidConfig cause.message
  | .malformedToml => .invalidConfig "malformed TOML"
  | .unknownExtension (some extension) =>
    .invalidConfig s!"unsupported config extension Some({Quoted.text extension})"
  | .unknownExtension none => .invalidConfig "unsupported config extension None"
  | .unreadable path error => .io s!"Failed to read {path}: {error.message}"
  | .invalid error => error

end SettingsError

def extension? (name : String) : Option String :=
  let reversed := name.toList.reverse
  let extension := reversed.takeWhile (· ≠ '.')
  let stem := reversed.drop (extension.length + 1)
  if extension.length = reversed.length || stem.isEmpty || name = ".." then none
  else some (String.ofList extension.reverse)

namespace SettingsFormat

def ofExtension? (extension : String) : Option SettingsFormat :=
  if extension = "toml" then some .toml
  else if extension = "json" then some .json
  else none

def decode (format : SettingsFormat) (text : String) : Except SettingsError Settings :=
  match format with
  | .json => (Settings.decode.ofText text).mapError .undecodable
  | .toml =>
    match Toml.parse? text with
    | none => .error .malformedToml
    | some document =>
      match Settings.decode .value document with
      | .ok settings => .ok settings
      | .error _ => .error .malformedToml

end SettingsFormat

namespace Settings

def ofText (format : SettingsFormat) (text : String) : Except SettingsError Settings := do
  let settings ← format.decode text
  match settings.validate with
  | .ok _ => .ok settings
  | .error error => .error (.invalid error)

def load (directory : Directory) (name : String) : Except SettingsError Settings :=
  match directory.bytesOf name with
  | .error error => .error (.unreadable (directory.pathOf name) error)
  | .ok bytes =>
    match Utf8.decode bytes with
    | .error _ => .error (.unreadable (directory.pathOf name) .invalidText)
    | .ok text =>
      match extension? name with
      | none => .error (.unknownExtension none)
      | some extension =>
        match SettingsFormat.ofExtension? extension with
        | some format => ofText format text
        | none => .error (.unknownExtension (some extension))

end Settings

end AuditTrail
