import AuditTrail.Error
import AuditTrail.Pattern.Glob

/-!
Event types that are recorded at once whatever the mode of their session: exact names and shell
patterns.
-/

namespace AuditTrail

structure SyncOverrides where
  exact : List String := []
  patterns : List Glob := []

namespace SyncOverrides

def isPattern (entry : String) : Bool :=
  entry.toList.any fun c => c = '*' || c = '?' || c = '['

def ofList : List String → Outcome SyncOverrides
  | [] => .ok {}
  | entry :: rest =>
    if isPattern entry then
      match Glob.compile entry with
      | .error error =>
        .error (.invalidConfig s!"sync_event_types pattern '{entry}': {error.message}")
      | .ok pattern => do
        let overrides ← ofList rest
        return { overrides with patterns := pattern :: overrides.patterns }
    else do
      let overrides ← ofList rest
      return { overrides with exact := entry :: overrides.exact }

def accepts (overrides : SyncOverrides) (eventType : String) : Bool :=
  overrides.exact.contains eventType || overrides.patterns.any (·.accepts eventType)

def isEmpty (overrides : SyncOverrides) : Bool :=
  overrides.exact.isEmpty && overrides.patterns.isEmpty

end SyncOverrides

end AuditTrail
