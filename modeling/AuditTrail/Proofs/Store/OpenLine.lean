import AuditTrail.Proofs.Store.Lines
import Mathlib.Data.List.DropRight

/-!
Lines added to a file that does not end with a line feed. Blanks that stand open there do no harm;
anything else becomes one line with the first that is added, and that line cannot be read.
-/

namespace AuditTrail

namespace LineFileStore

/-- What stands behind the last line feed. -/
def openTail (bytes : List UInt8) : List UInt8 :=
  bytes.rtakeWhile (· ≠ 0x0a)

def closedPart (bytes : List UInt8) : List UInt8 :=
  bytes.rdropWhile (· ≠ 0x0a)

def BlankOctet (octet : UInt8) : Prop :=
  octet = 0x20 ∨ octet = 0x09 ∨ octet = 0x0d

instance (octet : UInt8) : Decidable (BlankOctet octet) :=
  inferInstanceAs (Decidable (_ ∨ _))

/-- A file that ends with a line feed, but for blanks. -/
def Extendable (bytes : List UInt8) : Prop :=
  ∀ octet ∈ openTail bytes, BlankOctet octet

instance (bytes : List UInt8) : Decidable (Extendable bytes) :=
  inferInstanceAs (Decidable (∀ octet ∈ _, _))

theorem closedPart_append_openTail (bytes : List UInt8) :
    closedPart bytes ++ openTail bytes = bytes :=
  List.rdropWhile_append_rtakeWhile

theorem lineFeed_not_mem_openTail (bytes : List UInt8) : (0x0a : UInt8) ∉ openTail bytes := by
  intro member
  simpa using List.mem_rtakeWhile_imp member

theorem terminated_closedPart (bytes : List UInt8) : Terminated (closedPart bytes) := by
  intro octet last
  have filled : closedPart bytes ≠ [] := by
    intro none
    simp [none] at last
  have stops := List.rdropWhile_last_not (fun octet : UInt8 => decide (octet ≠ 0x0a)) bytes filled
  obtain rfl : (closedPart bytes).getLast filled = octet :=
    Option.some.inj ((List.getLast?_eq_some_getLast filled).symm.trans last)
  exact Decidable.of_not_not fun other => stops (decide_eq_true other)

theorem splitLines_line {line : List UInt8} (plain : (0x0a : UInt8) ∉ line) (filled : line ≠ []) :
    splitLines line = [line] := by
  induction line with
  | nil => exact absurd rfl filled
  | cons octet line ih =>
      obtain ⟨other, later⟩ := not_or.mp (List.mem_cons.not.mp plain)
      rw [splitLines, if_neg (Ne.symm other)]
      cases line with
      | nil => rfl
      | cons next line => rw [ih later (List.cons_ne_nil _ _)]

theorem decodeLines_openLine {line : List UInt8} (plain : (0x0a : UInt8) ∉ line) :
    decodeLines (splitLines line) = (decodeLine (dropReturn line)).map Option.toList := by
  by_cases filled : line = []
  · subst filled
    rfl
  · rw [splitLines_line plain filled]
    simp only [decodeLines, bind, Except.bind]
    cases decodeLine (dropReturn line) <;> simp [Except.map, pure, Except.pure]

theorem exists_dropReturn (line : List UInt8) :
    line = dropReturn line ∨ line = dropReturn line ++ [0x0d] := by
  unfold dropReturn
  split
  · rename_i last
    exact Or.inr (List.dropLast_append_getLast? _ last).symm
  · exact Or.inl rfl

theorem exists_blanks {tail : List UInt8}
    (blank : ∀ octet ∈ tail, BlankOctet octet) :
    ∃ text : List Char, tail = Utf8.encodeChars text ∧ ∀ c ∈ text, Document.isBlank c = true := by
  induction tail with
  | nil => exact ⟨[], rfl, by simp⟩
  | cons octet tail ih =>
      obtain ⟨text, rfl, blanks⟩ :=
        ih fun other member => blank other (List.mem_cons_of_mem _ member)
      have first : ∃ c, [octet] = String.utf8EncodeChar c ∧ Document.isBlank c = true := by
        rcases blank octet List.mem_cons_self with rfl | rfl | rfl
        · exact ⟨' ', by decide, by decide⟩
        · exact ⟨'\t', by decide, by decide⟩
        · exact ⟨'\r', by decide, by decide⟩
      obtain ⟨c, encoded, own⟩ := first
      refine ⟨c :: text, ?_, List.forall_mem_cons.mpr ⟨own, blanks⟩⟩
      show octet :: Utf8.encodeChars text = (c :: text).flatMap String.utf8EncodeChar
      rw [List.flatMap_cons, ← encoded]
      rfl

theorem isBlank_of_json {c : Char} (blank : Document.isBlank c = true) : isBlank c = true := by
  simp only [Document.isBlank, Bool.or_eq_true, decide_eq_true_eq] at blank
  rcases blank with ((rfl | rfl) | rfl) | rfl <;> decide

theorem octet_of_blank {text : List Char} (blanks : ∀ c ∈ text, Document.isBlank c = true)
    {octet : UInt8} (member : octet ∈ Utf8.encodeChars text) (plain : octet ≠ 0x0a) :
    BlankOctet octet := by
  obtain ⟨c, inText, encoded⟩ := List.mem_flatMap.mp member
  have blank := blanks c inText
  simp only [Document.isBlank, Bool.or_eq_true, decide_eq_true_eq] at blank
  rcases blank with ((rfl | rfl) | rfl) | rfl
  · exact Or.inl (List.mem_singleton.mp encoded)
  · exact absurd (List.mem_singleton.mp encoded) plain
  · exact Or.inr (Or.inl (List.mem_singleton.mp encoded))
  · exact Or.inr (Or.inr (List.mem_singleton.mp encoded))

section

variable {tail : List UInt8}

theorem decodeLine_blank (blank : ∀ octet ∈ tail, BlankOctet octet) :
    decodeLine (dropReturn tail) = .ok none := by
  have kept : ∀ octet ∈ dropReturn tail, BlankOctet octet := by
    intro octet member
    refine blank octet ?_
    rcases exists_dropReturn tail with same | same
    · exact same ▸ member
    · exact same ▸ List.mem_append_left _ member
  obtain ⟨text, encoded, blanks⟩ := exists_blanks kept
  have white : trimStart text = [] :=
    List.dropWhile_eq_nil_iff.mpr fun c member => isBlank_of_json (blanks c member)
  have line : dropReturn tail = Utf8.encode (String.ofList text) := by
    rw [encoded, Utf8.encode, String.toList_ofList]
  rw [line, decodeLine_encode, String.toList_ofList, white]
  rfl

theorem brace_mem_print (event : SealedEvent) : '\x7b' ∈ event.toJson.print.toList := by
  obtain ⟨inner, written⟩ := toList_print event
  rw [written]
  exact List.mem_cons_self

theorem decodeLine_append_bareLine (text : List Char) (event : SealedEvent) :
    decodeLine (Utf8.encodeChars text ++ bareLine event) =
      ((SealedEvent.decode.ofText (String.ofList (text ++ event.toJson.print.toList))).map
        some).mapError LedgerError.json := by
  have line : Utf8.encodeChars text ++ bareLine event =
      Utf8.encode (String.ofList (text ++ event.toJson.print.toList)) := by
    simp only [bareLine, Utf8.encode, Utf8.encodeChars, String.toList_ofList, List.flatMap_append]
  have filled : ¬ (trimStart (text ++ event.toJson.print.toList)).isEmpty = true := by
    intro none
    have white := List.dropWhile_eq_nil_iff.mp (List.isEmpty_iff.mp none) '\x7b'
      (List.mem_append_right _ (brace_mem_print event))
    cases white
  rw [line, decodeLine_encode, String.toList_ofList, if_neg filled]

theorem decodeLine_blank_append (event : SealedEvent)
    (blank : ∀ octet ∈ tail, BlankOctet octet) :
    decodeLine (tail ++ bareLine event) = decodeLine (bareLine event) := by
  obtain ⟨text, rfl, blanks⟩ := exists_blanks blank
  have same : SealedEvent.decode.ofText (String.ofList (text ++ event.toJson.print.toList)) =
      SealedEvent.decode.ofText (String.ofList ([] ++ event.toJson.print.toList)) := by
    have none : ∀ c ∈ [], Document.isBlank c = true := by simp
    simp only [Decoder.ofText, Document.ofText, String.toList_ofList, Json.print,
      Document.ofChars_blanks blanks, Document.ofChars_blanks none]
  have alone := decodeLine_append_bareLine [] event
  rw [Utf8.encodeChars, List.flatMap_nil, List.nil_append] at alone
  rw [decodeLine_append_bareLine, same, alone]

theorem exists_text {read : Option SealedEvent}
    (decoded : decodeLine (dropReturn tail) = .ok read) :
    ∃ text more, tail = Utf8.encodeChars (text ++ more) ∧
      decodeLine (Utf8.encodeChars text) = .ok read ∧ ∀ c ∈ more, Document.isBlank c = true := by
  obtain ⟨text, encoded⟩ : ∃ text, dropReturn tail = Utf8.encode text := by
    unfold decodeLine at decoded
    split at decoded
    · cases decoded
    · rename_i text known
      exact ⟨text, Utf8.decode_eq_ok_iff.mp known⟩
  rw [encoded, Utf8.encode] at decoded
  rcases exists_dropReturn tail with same | same
  · refine ⟨text.toList, [], ?_, decoded, by simp⟩
    rw [same, encoded, Utf8.encode, List.append_nil]
  · refine ⟨text.toList, ['\r'], ?_, decoded, by simp [Document.isBlank]⟩
    rw [same, encoded, Utf8.encode, Utf8.encodeChars, Utf8.encodeChars, List.flatMap_append]
    rfl

/-- A text that a line can be made of but that is not blank for a reader of JSON leaves no room for
another text behind it. -/
theorem ofText_overlong {text more : List Char} {read : Option SealedEvent}
    (decoded : decodeLine (Utf8.encodeChars text) = .ok read)
    (foreign : ∃ c ∈ text, Document.isBlank c = false)
    (further : ∃ c ∈ more, Document.isBlank c = false) :
    SealedEvent.decode.ofText (String.ofList (text ++ more)) = .error .malformed := by
  have line : Utf8.encodeChars text = Utf8.encode (String.ofList text) := by
    rw [Utf8.encode, String.toList_ofList]
  rw [line, decodeLine_encode, String.toList_ofList] at decoded
  split at decoded
  · rename_i white
    have white := List.dropWhile_eq_nil_iff.mp (List.isEmpty_iff.mp white)
    have read := Document.ofChars_foreign white foreign more
    unfold Decoder.ofText Document.ofText
    rw [String.toList_ofList]
    cases found : Document.ofChars (text ++ more) with
    | mk document ended =>
        rw [found] at read
        obtain rfl : document = .malformed := read
        rfl
  · cases told : SealedEvent.decode.ofText (String.ofList text) with
    | error cause =>
        rw [told] at decoded
        cases decoded
    | ok first =>
        have overlong := SealedEvent.ofText_append told further
        rwa [String.toList_ofList] at overlong

theorem decodeLine_overlong (event : SealedEvent) {read : Option SealedEvent}
    (plain : (0x0a : UInt8) ∉ tail) (decoded : decodeLine (dropReturn tail) = .ok read)
    (filled : ∃ octet ∈ tail, ¬ BlankOctet octet) :
    decodeLine (tail ++ bareLine event) = .error (.json .malformed) := by
  obtain ⟨text, more, whole, decoded, returns⟩ := exists_text decoded
  have foreign : ∃ c ∈ text, Document.isBlank c = false := by
    by_contra none
    have blanks : ∀ c ∈ text ++ more, Document.isBlank c = true := by
      intro c member
      rcases List.mem_append.mp member with own | own
      · by_contra other
        exact none ⟨c, own, Bool.eq_false_iff.mpr other⟩
      · exact returns c own
    obtain ⟨octet, member, odd⟩ := filled
    exact odd (octet_of_blank blanks (whole ▸ member) fun feed => plain (feed ▸ member))
  have further : ∃ c ∈ more ++ event.toJson.print.toList, Document.isBlank c = false :=
    ⟨'\x7b', List.mem_append_right _ (brace_mem_print event), by decide⟩
  rw [whole, decodeLine_append_bareLine, List.append_assoc, ofText_overlong decoded foreign further]
  rfl

end

/-- What a file says once lines have been added to one that was readable. -/
theorem decodeLines_extended {bytes : List UInt8} {before : List SealedEvent}
    (loaded : decodeLines (splitLines bytes) = .ok before) (event : SealedEvent)
    (rest : List SealedEvent) :
    decodeLines (splitLines (bytes ++ (event :: rest).flatMap lineOf)) =
      if Extendable bytes ∧ ∀ other ∈ event :: rest, other.Shallow then
        .ok (before ++ (event :: rest).map (·.reread))
      else .error (.json .malformed) := by
  have plain := lineFeed_not_mem_openTail bytes
  have ended := terminated_closedPart bytes
  have parts : splitLines (bytes ++ (event :: rest).flatMap lineOf) =
      splitLines (closedPart bytes) ++ (openTail bytes ++ bareLine event) :: rest.map bareLine := by
    have line : (0x0a : UInt8) ∉ openTail bytes ++ bareLine event := by
      simp [plain, lineFeed_not_mem_bareLine]
    rw [← splitLines_lines, ← splitLines_cons line, ← splitLines_append ended]
    conv_lhs => rw [← closedPart_append_openTail bytes]
    simp [lineOf_eq]
  have former : decodeLines (splitLines bytes) = (do
      let events ← decodeLines (splitLines (closedPart bytes))
      let last ← (decodeLine (dropReturn (openTail bytes))).map Option.toList
      return events ++ last) := by
    conv_lhs => rw [← closedPart_append_openTail bytes]
    rw [splitLines_append ended, decodeLines_append, decodeLines_openLine plain]
  rw [former] at loaded
  obtain ⟨events, closed, loaded⟩ := exists_of_bind_eq_ok loaded
  obtain ⟨_, last, same⟩ := exists_of_bind_eq_ok loaded
  obtain ⟨read, decoded, rfl⟩ := exists_of_map_eq_ok last
  obtain rfl := Except.ok.inj same
  rw [parts, decodeLines_append, closed]
  by_cases extendable : Extendable bytes
  · have alone : decodeLines ((openTail bytes ++ bareLine event) :: rest.map bareLine) =
        decodeLines ((event :: rest).map bareLine) := by
      rw [List.map_cons, decodeLines, decodeLines, dropReturn_append_bareLine, dropReturn_bareLine,
        decodeLine_blank_append event extendable]
    obtain rfl : none = read := Except.ok.inj ((decodeLine_blank extendable).symm.trans decoded)
    rw [alone, decodeLines_map_bareLine]
    by_cases shallow : ∀ other ∈ event :: rest, other.Shallow
    · rw [if_pos shallow, if_pos ⟨extendable, shallow⟩]
      simp [bind, Except.bind, pure, Except.pure]
    · rw [if_neg shallow, if_neg fun both => shallow both.2]
      rfl
  · have filled : ∃ octet ∈ openTail bytes, ¬ BlankOctet octet := by
      simpa [Extendable] using extendable
    rw [decodeLines, dropReturn_append_bareLine, decodeLine_overlong event plain decoded filled,
      if_neg fun both => extendable both.1]
    rfl

theorem openTail_append {bytes tail : List UInt8} (ended : Terminated bytes)
    (plain : (0x0a : UInt8) ∉ tail) : openTail (bytes ++ tail) = tail := by
  have other : ∀ octet ∈ tail.reverse, decide (octet ≠ 0x0a) = true := by
    intro octet member
    exact decide_eq_true fun feed => plain (feed ▸ List.mem_reverse.mp member)
  have stops : bytes.reverse.takeWhile (fun octet => decide (octet ≠ 0x0a)) = [] := by
    cases last : bytes.reverse with
    | nil => rfl
    | cons octet rest =>
        obtain rfl : octet = 0x0a := ended octet (by rw [← List.head?_reverse, last]; rfl)
        rfl
  rw [openTail, List.rtakeWhile, List.reverse_append, List.takeWhile_append_of_pos other, stops,
    List.append_nil, List.reverse_reverse]

theorem not_extendable_bareLine (event : SealedEvent) : ¬ Extendable (bareLine event) := by
  intro extendable
  have ended : Terminated [] := by simp [Terminated]
  have open_ := openTail_append ended (lineFeed_not_mem_bareLine event)
  rw [List.nil_append] at open_
  rw [Extendable, open_] at extendable
  have brace : (0x7b : UInt8) ∈ bareLine event :=
    List.mem_flatMap.mpr ⟨'\x7b', brace_mem_print event, by decide⟩
  exact absurd (extendable 0x7b brace) (by decide)

end LineFileStore

end AuditTrail
