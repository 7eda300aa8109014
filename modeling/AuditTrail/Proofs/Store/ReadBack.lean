import AuditTrail.Proofs.Chain.Links
import AuditTrail.Proofs.Store.Appending
import AuditTrail.Proofs.Store.Atomic
import AuditTrail.Proofs.Store.OpenLine

/-!
What a session that was readable tells after an append. Its new events are read back unless its file
ended within a line that is not blank, or an event is nested deeper than texts are read; then the
session cannot be read any more.
-/

namespace AuditTrail.LineFileStore

theorem isFileName_of_load {store : LineFileStore} {session : String} {events : List SealedEvent}
    (loaded : store.load session = .ok events) : isFileName session = true := by
  by_contra unusable
  unfold load fileName at loaded
  rw [if_neg unusable] at loaded
  cases loaded

theorem readAll_eq_load (session : String) (store : LineFileStore) :
    Store.readAll session store = store.load session := by
  show (do return (← store.load session).filter (SealedEvent.inRange 0 maxSequence)) = _
  cases store.load session with
  | error error => rfl
  | ok events =>
      refine congrArg Except.ok ?_
      exact List.filter_eq_self.mpr fun event _ => inRange_all event

section

variable {store next : LineFileStore} {batch before : List SealedEvent} {session : String}

theorem load_of_append (loaded : store.load session = .ok before)
    (appended : append batch store = (.ok (), next)) (some : ownEvents session batch ≠ []) :
    next.load session =
      if Extendable (store.directory.contentOf (fileOf session)) ∧
          ∀ event ∈ ownEvents session batch, event.Shallow then
        .ok (before ++ (ownEvents session batch).map (·.reread))
      else .error (.json .malformed) := by
  obtain ⟨wrote, holds⟩ := directory_of_append appended
  have holds := holds session some
  have named := isFileName_of_load loaded
  rw [load_eq named holds] at loaded
  rw [load_eq named (wrote ▸ holds_written holds), wrote, contentOf_written_lines]
  obtain ⟨event, rest, own⟩ := List.exists_cons_of_ne_nil some
  rw [own]
  exact decodeLines_extended loaded event rest

/-- After an append to a session that was readable, the session can be read exactly if its file
ended with a line feed, blanks aside, and the new events are shallow. Then it ends with the new
events, with the keys of their payloads sorted, a leap second within a minute told as the second
behind it, and with hashes that are as right as before. -/
theorem readAll_of_append (readable : Store.readAll session store = .ok before)
    (appended : Store.append batch store = (.ok (), next))
    (some : ownEvents session batch ≠ []) :
    (Store.readAll session next =
      if Extendable (store.directory.contentOf (fileOf session)) ∧
          ∀ event ∈ ownEvents session batch, event.Shallow then
        .ok (before ++ (ownEvents session batch).map (·.reread))
      else .error (.json .malformed)) ∧
    ∀ event ∈ batch, event.reread.verifiesHash = event.verifiesHash ∧
      (event.reread = event ↔ event.payload.normalize = event.payload ∧ event.Regular) := by
  rw [readAll_eq_load] at readable ⊢
  exact ⟨load_of_append readable appended some,
    fun event _ => ⟨event.verifiesHash_reread, SealedEvent.reread_eq_iff⟩⟩

theorem resolve_unknown {event : SealedEvent}
    (unknown : store.nextSequence.find? event.sessionId = none)
    (loaded : store.load event.sessionId = .ok before) :
    store.resolve [] [event] = .ok [(event.sessionId, UInt64.ofNat before.length)] := by
  have name : fileName event.sessionId = .ok (fileOf event.sessionId) :=
    if_pos (isFileName_of_load loaded)
  simp [resolve, Table.contains, Table.find?, unknown, loaded, name, bind, Except.bind, Except.map,
    Table.insert]

theorem append_next {event : SealedEvent}
    (unknown : store.nextSequence.find? event.sessionId = none)
    (holds : store.directory.Holds (fileOf event.sessionId))
    (loaded : store.load event.sessionId = .ok before)
    (number : event.sequenceNumber = UInt64.ofNat before.length) :
    ∃ next, append [event] store = (.ok (), next) := by
  have wrote : writeAll store.directory [] (linesBySession [event]) = _ :=
    writeAll_of_holds [] fun entry member => by
      obtain rfl := List.mem_singleton.mp member
      exact holds
  unfold append
  rw [resolve_unknown unknown loaded]
  simp [bind, Except.bind, Store.checkContiguous, Table.find?, number, wrote]

end

def nestedSealed : SealedEvent :=
  .sealAt { sampleRaw "e" with payload := .object [("k", .array [.null, .string "\n"])] } 1
    (genesis "s") sampleTime

def padded : LineFileStore where
  directory := {
    path := "d"
    entries := [(fileOf "s", .file (lineOf (sampleSealed "s" 0) ++ [0x20, 0x0d]))] }

theorem content_padded :
    padded.directory.contentOf (fileOf "s") = lineOf (sampleSealed "s" 0) ++ [0x20, 0x0d] := rfl

theorem holds_padded : padded.directory.Holds (fileOf "s") :=
  ⟨rfl, by decide, nofun⟩

theorem blankOctet_pad : ∀ octet ∈ [0x20, 0x0d], BlankOctet octet := by
  simp [BlankOctet]

theorem terminated_lineOf (event : SealedEvent) : Terminated (lineOf event) := by
  simp [Terminated, lineOf_eq]

theorem load_padded : padded.load "s" = .ok [sampleSealed "s" 0] := by
  have line : decodeLines (splitLines (lineOf (sampleSealed "s" 0))) =
      .ok [sampleSealed "s" 0] := by
    have back : ∀ event ∈ [sampleSealed "s" 0], ReadsBack event :=
      List.forall_mem_singleton.mpr (readsBack_iff.mpr ⟨shallow_sampleSealed "s" 0, rfl⟩)
    simpa using decodeLines_lines back
  rw [load_eq rfl holds_padded, content_padded, splitLines_append (terminated_lineOf _),
    decodeLines_append, line, decodeLines_openLine (by decide),
    decodeLine_blank blankOctet_pad]
  rfl

theorem readAll_of_padded :
    Store.readAll "s" padded = .ok [sampleSealed "s" 0] ∧
      ∃ next, Store.append [nestedSealed] padded = (.ok (), next) ∧
        Store.readAll "s" next = .ok [sampleSealed "s" 0, nestedSealed] := by
  have readable := (readAll_eq_load "s" padded).trans load_padded
  obtain ⟨next, appended⟩ : ∃ next, append [nestedSealed] padded = (.ok (), next) :=
    append_next rfl holds_padded load_padded rfl
  have own : ownEvents "s" [nestedSealed] = [nestedSealed] := rfl
  have told := (readAll_of_append readable appended (own ▸ List.cons_ne_nil _ _)).1
  have extendable : Extendable (padded.directory.contentOf (fileOf "s")) := by
    rw [content_padded, Extendable, openTail_append (terminated_lineOf _) (by decide)]
    exact blankOctet_pad
  have shallow : nestedSealed.Shallow := by
    show (Document.ofJson (.object [("k", .array [.null, .string "\n"])])).nesting ≤ 126
    decide
  rw [own, if_pos ⟨extendable, List.forall_mem_singleton.mpr shallow⟩] at told
  exact ⟨readable, next, appended, told⟩

def unended : LineFileStore where
  directory := {
    path := "d"
    entries := [(fileOf "s", .file (bareLine (sampleSealed "s" 0)))] }

theorem holds_unended : unended.directory.Holds (fileOf "s") :=
  ⟨rfl, by decide, nofun⟩

theorem load_unended : unended.load "s" = .ok [sampleSealed "s" 0] := by
  have content : unended.directory.contentOf (fileOf "s") = bareLine (sampleSealed "s" 0) := rfl
  rw [load_eq rfl holds_unended, content, decodeLines_openLine (lineFeed_not_mem_bareLine _),
    dropReturn_bareLine, decodeLine_bareLine]
  rfl

/-- The reader takes a file without a line feed at its end, but the writer does not add one. -/
theorem unreadable_of_unended :
    Store.readAll "s" unended = .ok [sampleSealed "s" 0] ∧
      ∃ next, Store.append [sampleSealed "s" 1] unended = (.ok (), next) ∧
        Store.readAll "s" next = .error (.json .malformed) := by
  obtain ⟨next, appended⟩ : ∃ next, append [sampleSealed "s" 1] unended = (.ok (), next) :=
    append_next rfl holds_unended load_unended rfl
  have own : ownEvents "s" [sampleSealed "s" 1] = [sampleSealed "s" 1] := rfl
  have content : unended.directory.contentOf (fileOf "s") = bareLine (sampleSealed "s" 0) := rfl
  refine ⟨(readAll_eq_load _ _).trans load_unended, next, appended, ?_⟩
  rw [readAll_eq_load, load_of_append load_unended appended (own ▸ List.cons_ne_nil _ _), content]
  exact if_neg fun both => not_extendable_bareLine _ both.1

end AuditTrail.LineFileStore
