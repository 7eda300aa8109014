import AuditTrail.Proofs.Chain.Links
import AuditTrail.Proofs.Event.Decoding
import AuditTrail.Proofs.Json.Printed
import AuditTrail.Proofs.Text.Utf8
import AuditTrail.Store.LineFiles

/-!
The lines of a session file. What is written for an event is one line, whatever the event holds, and
behind any text that ends with a line feed a reader finds just the lines that were added.
-/

namespace AuditTrail.LineFileStore

def bareLine (event : SealedEvent) : List UInt8 :=
  Utf8.encode event.toJson.print

theorem lineOf_eq (event : SealedEvent) : lineOf event = bareLine event ++ [0x0a] := rfl

def Terminated (bytes : List UInt8) : Prop :=
  ∀ octet ∈ bytes.getLast?, octet = 0x0a

theorem toList_print (event : SealedEvent) : ∃ inner, event.toJson.print.toList =
    '\x7b' :: (inner ++ ['\x7d']) := by
  simp only [Json.print, String.toList_ofList, SealedEvent.toJson, Json.writeWith]
  exact ⟨_, rfl⟩

theorem lineFeed_not_mem_bareLine (event : SealedEvent) : (0x0a : UInt8) ∉ bareLine event := by
  intro member
  obtain ⟨c, inText, same⟩ := Utf8.mem_encodeChars_of_ascii member (by decide)
  have plain : 0x20 ≤ c.toNat := by
    refine event.toJson.printable_writeWith c ?_
    simpa [Json.print] using inText
  rw [same] at plain
  exact absurd plain (by decide)

theorem dropReturn_append_bareLine (bytes : List UInt8) (event : SealedEvent) :
    dropReturn (bytes ++ bareLine event) = bytes ++ bareLine event := by
  obtain ⟨inner, written⟩ := toList_print event
  have last : (bareLine event).getLast? = some 0x7d := by
    rw [bareLine, Utf8.encode, written, Utf8.encodeChars, List.flatMap_cons, List.flatMap_append]
    have brace : List.flatMap String.utf8EncodeChar ['\x7d'] = [0x7d] := by decide
    rw [brace, ← List.append_assoc, List.getLast?_concat]
  rw [dropReturn, List.getLast?_append, last, Option.some_or, if_neg (by decide)]

theorem dropReturn_bareLine (event : SealedEvent) :
    dropReturn (bareLine event) = bareLine event := by
  simpa using dropReturn_append_bareLine [] event

theorem decodeLine_encode (text : String) : decodeLine (Utf8.encode text) =
    if (trimStart text.toList).isEmpty then .ok none
    else ((SealedEvent.decode.ofText text).map some).mapError LedgerError.json := by
  unfold decodeLine
  rw [Utf8.decode_encode]
  dsimp only
  split
  · rfl
  · cases SealedEvent.decode.ofText text <;> rfl

theorem decodeLine_bareLine (event : SealedEvent) : decodeLine (bareLine event) =
    if event.Shallow then .ok (some event.reread) else .error (.json .malformed) := by
  obtain ⟨inner, written⟩ := toList_print event
  have filled : (trimStart event.toJson.print.toList).isEmpty = false := by
    rw [written, trimStart, List.dropWhile_cons_of_neg (by decide)]
    rfl
  rw [bareLine, decodeLine_encode, filled, SealedEvent.ofText_print]
  by_cases shallow : event.Shallow
  · rw [if_pos shallow, if_pos shallow]
    rfl
  · rw [if_neg shallow, if_neg shallow]
    rfl

theorem splitLines_cons {line : List UInt8} (plain : (0x0a : UInt8) ∉ line) (rest : List UInt8) :
    splitLines (line ++ 0x0a :: rest) = line :: splitLines rest := by
  induction line with
  | nil => simp [splitLines]
  | cons octet line ih =>
      obtain ⟨other, later⟩ := not_or.mp (List.mem_cons.not.mp plain)
      rw [List.cons_append, splitLines, if_neg (Ne.symm other), ih later]

theorem splitLines_append {bytes : List UInt8} (ended : Terminated bytes) (more : List UInt8) :
    splitLines (bytes ++ more) = splitLines bytes ++ splitLines more := by
  induction bytes with
  | nil => rfl
  | cons octet rest ih =>
      rw [List.cons_append, splitLines, splitLines]
      cases rest with
      | nil =>
          obtain rfl : octet = 0x0a := ended octet rfl
          simp [splitLines]
      | cons next rest =>
          have later := ih (by simpa [Terminated] using ended)
          have some : splitLines (next :: rest) ≠ [] := by
            rw [splitLines]
            split
            · exact List.cons_ne_nil _ _
            · split <;> exact List.cons_ne_nil _ _
          obtain ⟨line, lines, split_⟩ := List.exists_cons_of_ne_nil some
          rw [later, split_]
          split <;> simp

theorem decodeLines_append (first second : List (List UInt8)) :
    decodeLines (first ++ second) = do
      let events ← decodeLines first
      let later ← decodeLines second
      return events ++ later := by
  induction first with
  | nil =>
      simp only [List.nil_append, decodeLines]
      cases decodeLines second <;> rfl
  | cons line rest ih =>
      simp only [List.cons_append, decodeLines, ih]
      cases decodeLine (dropReturn line) with
      | error error => rfl
      | ok event =>
          cases decodeLines rest with
          | error error => rfl
          | ok events =>
              cases decodeLines second with
              | error error => rfl
              | ok later => simp [bind, Except.bind, pure, Except.pure]

theorem splitLines_lines (events : List SealedEvent) :
    splitLines (events.flatMap lineOf) = events.map bareLine := by
  induction events with
  | nil => rfl
  | cons event rest ih =>
      rw [List.flatMap_cons, lineOf_eq, List.append_assoc, List.cons_append, List.nil_append,
        splitLines_cons (lineFeed_not_mem_bareLine event), ih, List.map_cons]

theorem decodeLines_map_bareLine (events : List SealedEvent) :
    decodeLines (events.map bareLine) =
      if ∀ event ∈ events, event.Shallow then .ok (events.map (·.reread))
      else .error (.json .malformed) := by
  induction events with
  | nil => rfl
  | cons event rest ih =>
      rw [List.map_cons, decodeLines, dropReturn_bareLine, decodeLine_bareLine, ih]
      by_cases own : event.Shallow
      · by_cases later : ∀ event ∈ rest, event.Shallow
        · rw [if_pos own, if_pos later, if_pos (List.forall_mem_cons.mpr ⟨own, later⟩)]
          rfl
        · rw [if_pos own, if_neg later, if_neg fun all => later (List.forall_mem_cons.mp all).2]
          rfl
      · rw [if_neg own, if_neg fun all => own (List.forall_mem_cons.mp all).1]
        rfl

/-- An event whose line decodes to it again. -/
def ReadsBack (event : SealedEvent) : Prop :=
  SealedEvent.decode.ofText event.toJson.print = .ok event

theorem readsBack_iff {event : SealedEvent} :
    ReadsBack event ↔ event.Shallow ∧ event.reread = event := by
  rw [ReadsBack, SealedEvent.ofText_print]
  by_cases shallow : event.Shallow <;> simp [shallow]

theorem shallow_sampleSealed (session : String) (sequence : UInt64) :
    (sampleSealed session sequence).Shallow := by
  show (Document.ofJson (.object [])).nesting ≤ 126
  decide

theorem map_reread_eq_iff {events : List SealedEvent} :
    events.map (·.reread) = events ↔ ∀ event ∈ events, event.reread = event := by
  induction events with
  | nil => simp
  | cons event rest ih => rw [List.map_cons, List.cons.injEq, ih, List.forall_mem_cons]

theorem decodeLines_lines {events : List SealedEvent} (read : ∀ event ∈ events, ReadsBack event) :
    decodeLines (splitLines (events.flatMap lineOf)) = .ok events := by
  have same : events.map (·.reread) = events :=
    map_reread_eq_iff.mpr fun event member => (readsBack_iff.mp (read event member)).2
  rw [splitLines_lines, decodeLines_map_bareLine,
    if_pos fun event member => (readsBack_iff.mp (read event member)).1, same]

end AuditTrail.LineFileStore
