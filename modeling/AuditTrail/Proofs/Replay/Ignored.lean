import AuditTrail.Proofs.Event.Decoding
import AuditTrail.Proofs.Replay.Accounting
import AuditTrail.Proofs.Replay.Apart
import AuditTrail.Proofs.Replay.Checks
import AuditTrail.Proofs.Replay.Compiled
import AuditTrail.Proofs.Replay.Paths

/-!
What an ignored field can do to a replay. Two runs that agree but for what is found at an ignored
path are judged alike, unless a literal is compared as a whole with a value that holds the path, or
a predicate names an item of an array on the path by another spelling of its index.
-/

namespace AuditTrail

open Json

/-- No literal in a matcher has a place for what a path leads to. -/
def Matcher.Spares : List String → Matcher → Prop
  | [], _ => True
  | segment :: path, .literal value => ¬HasPlace (segment :: path) (some value)
  | name :: path, .every children => ∀ child ∈ children, child.1 = name → child.2.Spares path
  | _ :: _, _ => True

/-- A matcher for the value at one path spares what another path leads to: it stands below the
other, or beside it, or above it with no literal that holds the other. -/
def Matcher.SparesFrom : (path place : List String) → Matcher → Prop
  | [], _, _ => True
  | segment :: path, [], matcher => matcher.Spares (segment :: path)
  | segment :: path, other :: place, matcher =>
    if segment = other then matcher.SparesFrom path place
    else ∀ index, Path.index? segment = some index → Path.index? other ≠ some index

instance Matcher.decidableSpares : (path : List String) → (matcher : Matcher) →
    Decidable (matcher.Spares path)
  | [], _ => isTrue trivial
  | segment :: path, .literal value =>
    inferInstanceAs (Decidable (¬HasPlace (segment :: path) (some value)))
  | name :: path, .every children =>
    have := decidableSpares path
    inferInstanceAs (Decidable (∀ child ∈ children, child.1 = name → child.2.Spares path))
  | _ :: _, .present _ => isTrue trivial
  | _ :: _, .pattern .. => isTrue trivial

instance Matcher.decidableSparesFrom : (path place : List String) → (matcher : Matcher) →
    Decidable (matcher.SparesFrom path place)
  | [], _, _ => isTrue trivial
  | segment :: path, [], matcher => decidableSpares (segment :: path) matcher
  | segment :: path, other :: place, matcher =>
    have := decidableSparesFrom path place matcher
    have : Decidable (∀ index, Path.index? segment = some index →
        Path.index? other ≠ some index) :=
      match indexed : Path.index? segment with
      | none => isTrue nofun
      | some index => decidable_of_iff (Path.index? other ≠ some index) (by simp)
    inferInstanceAs (Decidable (if segment = other then matcher.SparesFrom path place
      else ∀ index, Path.index? segment = some index → Path.index? other ≠ some index))

/-- The same events but for what is found at a path. -/
structure SealedEvent.AgreeOff (path : String) (first second : SealedEvent) : Prop where
  fields : second = { first with payload := second.payload }
  documents : Json.AgreeOff (Path.segments path) (some (ReplayEngine.document first))
    (some (ReplayEngine.document second))

theorem SealedEvent.AgreeOff.symm {path : String} {first second : SealedEvent}
    (agree : first.AgreeOff path second) : second.AgreeOff path first :=
  ⟨by rw [agree.fields], agree.documents.symm⟩

theorem SealedEvent.agreeOff_of_payload {path : String} {inner : List String}
    (inside : Path.segments path = "payload" :: inner) {event : SealedEvent} {payload : Json}
    (agree : Json.AgreeOff inner (some event.payload.normalize) (some payload.normalize)) :
    event.AgreeOff path { event with payload } := by
  have own : ∀ event : SealedEvent, Table.lastOf "payload" event.fields = some event.payload := by
    intro event
    simp [fields, fieldsAfter, Table.lastOf_append, Table.lastOf]
  have others : ∀ key, key ≠ "payload" →
      Table.lastOf key event.fields = Table.lastOf key { event with payload }.fields := by
    intro key other
    simp [fields, fieldsBefore, fieldsAfter, Table.lastOf_append, Table.lastOf, other]
  refine ⟨rfl, ?_⟩
  rw [inside, ReplayEngine.document, ReplayEngine.document, toJson_eq, toJson_eq,
    Json.normalize, Json.normalize]
  refine .field (fun key other => ?_) ?_
  · rw [find?_ofList_normalizeFields, find?_ofList_normalizeFields, others key other]
  · rw [find?_ofList_normalizeFields, find?_ofList_normalizeFields, own, own]
    exact agree

/-! ### Looking up -/

namespace Path

theorem normal_follow {value : Option Json} (normal : ∀ part, value = some part → part.Normal)
    (place : List String) : ∀ part, follow value place = some part → part.Normal := by
  induction place generalizing value with
  | nil => exact normal
  | cons segment rest ih =>
      refine ih fun part found => ?_
      obtain ⟨whole, rfl, inside⟩ := Option.bind_eq_some_iff.mp found
      have whole := normal whole rfl
      unfold child? at inside
      split at inside
      · exact (normal_object_iff.mp whole).2 _ (Table.mem_of_find? inside)
      · obtain ⟨index, -, at_⟩ := Option.bind_eq_some_iff.mp inside
        exact normal_array_iff.mp whole _ (List.mem_of_getElem? at_)
      · cases inside

theorem agree_follow {path place : List String} {matcher : Matcher}
    (spares : matcher.SparesFrom path place) {first second : Option Json}
    (agree : Json.AgreeOff path first second) :
    path <+: place ∨ follow first place = follow second place ∨
      ∃ rest, path = place ++ rest ∧ matcher.Spares rest ∧
        Json.AgreeOff rest (follow first place) (follow second place) := by
  induction place generalizing path first second with
  | nil =>
      refine .inr (.inr ⟨path, rfl, ?_, agree⟩)
      cases path with
      | nil => trivial
      | cons segment path => exact spares
  | cons other place ih =>
      cases path with
      | nil => exact .inl (List.nil_prefix)
      | cons segment path =>
          rw [Matcher.SparesFrom] at spares
          split at spares
          · rename_i same
            subst same
            have further : Json.AgreeOff path (first.bind (child? · segment))
                (second.bind (child? · segment)) := by
              cases agree with
              | equal => exact .equal _ _
              | field _ inside => exact inside
              | item indexed _ inside => simpa [child?, indexed] using inside
            rcases ih spares further with below | equal | ⟨rest, parts, spared, deeper⟩
            · exact .inl (List.cons_prefix_cons.mpr ⟨rfl, below⟩)
            · exact .inr (.inl equal)
            · exact .inr (.inr ⟨rest, by rw [parts, List.cons_append], spared, deeper⟩)
          · rename_i different
            refine .inr (.inl ?_)
            rw [follow, follow]
            congr 1
            cases agree with
            | equal => rfl
            | field apart _ => exact apart other (Ne.symm different)
            | @item _ index _ items others indexed apart _ =>
                have elsewhere := spares index indexed
                simp only [Option.bind_some, child?]
                cases own : index? other with
                | none => rfl
                | some found =>
                    refine apart found ?_
                    rintro rfl
                    exact elsewhere own

end Path

namespace ReplayEngine

variable {engine : ReplayEngine} {path : String} {rest : List String} {place : String}
  {first second : Option Json}

/-! ### Checks -/

theorem literalHolds_of_agree (agree : Json.AgreeOff rest first second)
    (normal : ∀ value, first = some value → value.Normal)
    (normalOther : ∀ value, second = some value → value.Normal) {value : Json}
    (noPlace : ¬HasPlace rest (some value))
    (holds : first.any (engine.literalHolds place value) = true) :
    second.any (engine.literalHolds place value) = true := by
  obtain ⟨found, rfl, same⟩ := (Option.any_eq_true _ _).mp holds
  rw [literalHolds] at same
  split at same
  · rename_i covered
    have noPlaceLeft : ¬HasPlace rest (some (Normalize.value value)) :=
      noPlace ∘ (hasPlace_map_value rest (some value)).mp
    have normalized : ∀ {former : Option Json}, (∀ value, former = some value → value.Normal) →
        ∀ value, former.map Normalize.value = some value → value.Normal := by
      rintro _ parts _ mapped
      obtain ⟨former, rfl, rfl⟩ := Option.map_eq_some_iff.mp mapped
      exact normal_value (parts former rfl)
    have other := agree.map_value.same_of_same (normalized normal) (normalized normalOther)
      noPlaceLeft (.some same)
    cases second with
    | none => cases other
    | some second =>
        cases other with
        | some same => simpa [literalHolds, covered] using same
  · rename_i uncovered
    have other := agree.same_of_same normal normalOther noPlace (.some same)
    cases other with
    | some same => simpa [literalHolds, uncovered] using same

/-- What is checked at or above an ignored path is checked alike. -/
theorem check_of_agree
    (covered : ∀ place, Path.segments path <+: Path.segments place → engine.isIgnored place = true)
    {matcher : Matcher} (spares : matcher.Spares rest)
    (nonempty : place ≠ "") (parts : Path.segments path = Path.segments place ++ rest)
    (agree : Json.AgreeOff rest first second)
    (normal : ∀ value, first = some value → value.Normal)
    (normalOther : ∀ value, second = some value → value.Normal)
    (holds : engine.check place matcher first = []) : engine.check place matcher second = [] := by
  -- On the matcher. A field that is not on the path is equal in both values; where the path ends
  -- the rule covers the place.
  induction matcher using Matcher.structural generalizing rest place first second with
  | literal value =>
      cases rest with
      | nil => exact check_of_ignored (covered place (by rw [parts, List.append_nil])) _ _
      | cons name rest =>
          simp only [check, diffAt, ite_eq_left_iff, List.cons_ne_nil, imp_false, not_not,
            Bool.or_eq_true] at holds ⊢
          exact holds.imp id (literalHolds_of_agree agree normal normalOther spares)
  | present wanted =>
      cases rest with
      | nil => exact check_of_ignored (covered place (by rw [parts, List.append_nil])) _ _
      | cons name rest =>
          simp only [check, diffAt, ite_eq_left_iff, List.cons_ne_nil, imp_false, not_not] at holds ⊢
          rwa [← agree.isSome_eq]
  | pattern source regex =>
      cases rest with
      | nil => exact check_of_ignored (covered place (by rw [parts, List.append_nil])) _ _
      | cons name rest =>
          cases agree with
          | equal => exact holds
          | field | item => simpa [check, diffAt] using holds
  | every children each =>
      cases rest with
      | nil => exact check_of_ignored (covered place (by rw [parts, List.append_nil])) _ _
      | cons name rest =>
          cases agree with
          | equal => exact holds
          | item => simpa [check, diffAt] using holds
          | field apart inside =>
              by_cases ignored : engine.isIgnored place = true
              · exact check_of_ignored ignored _ _
              · simp only [check, if_neg ignored, checkChildren_eq_flatMap,
                  List.flatMap_eq_nil_iff] at holds ⊢
                intro child member
                by_cases own : child.1 = name
                · subst own
                  have undotted : '.' ∉ child.1.toList := Path.undotted_of_mem_segments
                    (parts ▸ List.mem_append_right _ List.mem_cons_self)
                  refine each child member (spares child member rfl)
                    (Path.join_ne_empty nonempty _) ?_ inside ?_ ?_ (holds child member)
                  · rw [Path.segments_join nonempty, Path.segments_of_undotted undotted, parts,
                      List.append_assoc, List.singleton_append]
                  · exact fun _ at_ => (normal_object_iff.mp (normal _ rfl)).2 _
                      (Table.mem_of_find? at_)
                  · exact fun _ at_ => (normal_object_iff.mp (normalOther _ rfl)).2 _
                      (Table.mem_of_find? at_)
                · rw [← apart child.1 own]
                  exact holds child member

/-! ### Events -/

theorem eventType_of_agree {first second : SealedEvent} (agree : first.AgreeOff path second) :
    first.eventType = second.eventType := by
  rw [agree.fields]

theorem suits_of_agree {inner : List String} (inside : Path.segments path = "payload" :: inner)
    (covered : ∀ place, Path.segments path <+: Path.segments place → engine.isIgnored place = true)
    {expected : Expectation} (spares : ∀ entry ∈ expected.matchers,
      entry.2.SparesFrom (Path.segments path) (Path.segments entry.1))
    {first second : SealedEvent} (agree : first.AgreeOff path second)
    (suits : engine.Suits expected first) : engine.Suits expected second := by
  refine ⟨eventType_of_agree agree ▸ suits.1, fun entry member => ?_⟩
  have holds := suits.2 entry member
  rw [Path.lookup?_eq_follow] at holds ⊢
  rcases Path.agree_follow (spares entry member) agree.documents with
    below | equal | ⟨rest, parts, spared, deeper⟩
  · exact check_of_ignored (covered _ below) _ _
  · rwa [← equal]
  · have nonempty : entry.1 ≠ "" := by
      intro empty
      rw [inside, empty] at parts
      exact absurd (List.cons.inj parts).1 (by decide)
    refine check_of_agree covered spared nonempty parts deeper ?_ ?_ holds
    · exact Path.normal_follow (by rintro _ ⟨⟩; exact normal_normalize _) _
    · exact Path.normal_follow (by rintro _ ⟨⟩; exact normal_normalize _) _

theorem pairByPosition_of_types {first second : List SealedEvent}
    (types : first.map (·.eventType) = second.map (·.eventType)) (index next : Nat)
    (rest : List Expectation) :
    pairByPosition first index next rest = pairByPosition second index next rest := by
  have length : first.length = second.length := by simpa using congrArg List.length types
  induction rest generalizing index next with
  | nil => rw [pairByPosition, pairByPosition, length]
  | cons expected rest ih =>
      have same := congrArg (·[next]?) types
      simp only [List.getElem?_map] at same
      rw [pairByPosition, pairByPosition]
      cases one : first[next]? <;> cases other : second[next]? <;>
        simp_all

theorem status_of_agree {inner : List String} (inside : Path.segments path = "payload" :: inner)
    (covered : ∀ place, Path.segments path <+: Path.segments place → engine.isIgnored place = true)
    (spares : ∀ expected ∈ engine.expected, ∀ entry ∈ expected.matchers,
      entry.2.SparesFrom (Path.segments path) (Path.segments entry.1))
    {first second : List SealedEvent}
    (agree : List.Forall₂ (SealedEvent.AgreeOff path) first second) (pairing : Pairing) :
    (engine.comparePair first pairing).status = (engine.comparePair second pairing).status := by
  have found : Option.Rel (SealedEvent.AgreeOff path) (pairing.actual?.bind (first[·]?))
      (pairing.actual?.bind (second[·]?)) := by
    cases pairing.actual? with
    | none => exact .none
    | some index => exact rel_getElem? agree index
  have wanted : ∀ expected, pairing.expected?.bind (engine.expected[·]?) = some expected →
      expected ∈ engine.expected := by
    intro expected bound
    obtain ⟨index, -, at_⟩ := Option.bind_eq_some_iff.mp bound
    exact List.mem_of_getElem? at_
  unfold comparePair
  revert found wanted
  generalize pairing.expected?.bind (engine.expected[·]?) = expected
  generalize pairing.actual?.bind (first[·]?) = one
  generalize pairing.actual?.bind (second[·]?) = other
  rintro (agree | _) wanted
  · cases expected with
    | none => rfl
    | some expected =>
        rename_i one other
        have member := wanted expected rfl
        have same : engine.differences expected one = [] ↔
            engine.differences expected other = [] := by
          rw [differences_eq_nil_iff, differences_eq_nil_iff]
          exact ⟨suits_of_agree inside covered (spares expected member) agree,
            suits_of_agree inside covered (spares expected member) agree.symm⟩
        simp only [List.isEmpty_iff, same]
  · cases expected <;> rfl

end ReplayEngine

theorem ReplayReport.passed_eq_all (report : ReplayReport) :
    report.passed = (report.events.map (·.status)).all fun status => !status.isFailure := by
  rw [Bool.eq_iff_iff, passed_iff]
  simp

namespace Manifest

open ReplayEngine

theorem isIgnored_of_below {manifest : Manifest} {engine : ReplayEngine}
    (compiled : ofManifest manifest = .ok engine) {path : String} (plain : Path.Plain path)
    (ignored : ⟨path, .ignore⟩ ∈ manifest.rules) (place : String)
    (below : Path.segments path <+: Path.segments place) : engine.isIgnored place = true := by
  obtain ⟨_, rules, _, patterns, rfl⟩ := ofManifest_eq_ok_iff.mp compiled
  obtain ⟨rule, compiles, selects⟩ := PathRule.exists_plain plain
  obtain ⟨pattern, member, own⟩ := exists_of_mem_right patterns.flip ignored
  obtain rfl : (RuleKind.ignore, rule) = pattern := by simpa [compileRule, compiles] using own
  have listed : rule ∈ rulesOf .ignore rules :=
    List.mem_map_of_mem (List.mem_filter.mpr ⟨member, by simp⟩)
  exact PathRule.covers_of_prefix listed ((selects path).mpr rfl) below

/-- Two runs of the same events but for what is found at an ignored path below the payload are
judged alike, comparison by comparison. -/
theorem judged_alike_of_ignored {manifest : Manifest} {engine : ReplayEngine}
    (compiled : ofManifest manifest = .ok engine) (positional : manifest.correlationKey = none)
    {inner : String} (plain : Path.Plain (Path.join "payload" inner))
    (ignored : ⟨Path.join "payload" inner, .ignore⟩ ∈ manifest.rules)
    -- Literals are compared beside the path or below it, and no index is spelled otherwise.
    (spares : ∀ expected ∈ engine.expected, ∀ entry ∈ expected.matchers,
      entry.2.SparesFrom (Path.segments (Path.join "payload" inner)) (Path.segments entry.1))
    {first second : List SealedEvent}
    (agree : List.Forall₂ (SealedEvent.AgreeOff (Path.join "payload" inner)) first second) :
    (engine.replay first).passed = (engine.replay second).passed ∧
      (engine.replay first).events.map (fun event => (event.pairing, event.status)) =
        (engine.replay second).events.map (fun event => (event.pairing, event.status)) := by
  have inside : Path.segments (Path.join "payload" inner) = "payload" :: Path.segments inner := by
    rw [Path.segments_join (by decide)]
    rfl
  have covered := isIgnored_of_below compiled plain ignored
  have types : first.map (·.eventType) = second.map (·.eventType) := by
    rw [← List.forall₂_eq_eq_eq, List.forall₂_map_left_iff, List.forall₂_map_right_iff]
    exact agree.imp fun _ _ same => eventType_of_agree same
  have byPosition : engine.correlationKey = none := by
    obtain ⟨_, _, _, _, rfl⟩ := ofManifest_eq_ok_iff.mp compiled
    exact positional
  have paired : engine.pairings first = engine.pairings second := by
    rw [pairings, pairings, byPosition]
    exact pairByPosition_of_types types 0 0 engine.expected
  have alike : (engine.replay first).events.map (fun event => (event.pairing, event.status)) =
      (engine.replay second).events.map (fun event => (event.pairing, event.status)) := by
    simp only [ReplayEngine.replay, List.map_map, paired]
    refine List.map_congr_left fun pairing _ => ?_
    exact Prod.ext (by simp [pairing_comparePair])
      (status_of_agree inside covered spares agree pairing)
  refine ⟨?_, alike⟩
  have statuses := congrArg (List.map Prod.snd) alike
  simp only [List.map_map, Function.comp_def] at statuses
  rw [ReplayReport.passed_eq_all, ReplayReport.passed_eq_all, statuses]

def timedRun (elapsed : Nat) : List SealedEvent :=
  [{ sampleSealed "s" 0 with
    payload := .object [("elapsed_ms", .ofNat elapsed), ("result", .string "ok")] }]

theorem agree_timedRun (elapsed other : Nat) : List.Forall₂
    (SealedEvent.AgreeOff "payload.elapsed_ms") (timedRun elapsed) (timedRun other) := by
  have parts : Path.segments "payload.elapsed_ms" = ["payload", "elapsed_ms"] := by decide +kernel
  refine .cons (SealedEvent.agreeOff_of_payload parts ?_) .nil
  refine .field (fun key apart => ?_) (.here _ _)
  rw [find?_ofList_normalizeFields, find?_ofList_normalizeFields]
  simp [Table.lastOf, apart]

def timed : Manifest :=
  (ofEvents "m" (timedRun 999)).withRule ⟨"payload.elapsed_ms", .ignore⟩

theorem judged_alike_of_timed : ∃ engine, ofManifest timed = .ok engine ∧
    timed.correlationKey = none ∧ Path.Plain (Path.join "payload" "elapsed_ms") ∧
    ⟨Path.join "payload" "elapsed_ms", .ignore⟩ ∈ timed.rules ∧
    (engine.replay (timedRun 1)).passed = (engine.replay (timedRun 2)).passed ∧
    (engine.replay (timedRun 1)).events.map (fun event => (event.pairing, event.status)) =
      (engine.replay (timedRun 2)).events.map (fun event => (event.pairing, event.status)) := by
  have plain : Path.Plain (Path.join "payload" "elapsed_ms") := by decide +kernel
  have rule : ⟨Path.join "payload" "elapsed_ms", .ignore⟩ ∈ timed.rules := by
    exact List.mem_singleton.mpr rfl
  exact ⟨_, rfl, rfl, plain, rule, judged_alike_of_ignored rfl rfl plain rule (by decide +kernel)
    (agree_timedRun 1 2)⟩

def listedRun (item : Nat) : List SealedEvent :=
  [{ sampleSealed "s" 0 with payload := .object [("items", .array [.ofNat item])] }]

theorem agree_listedRun (item other : Nat) :
    List.Forall₂ (SealedEvent.AgreeOff "payload.items.0") (listedRun item) (listedRun other) := by
  have parts : Path.segments "payload.items.0" = ["payload", "items", "0"] := by decide +kernel
  have indexed : Path.index? "0" = some 0 := by decide +kernel
  refine .cons (SealedEvent.agreeOff_of_payload parts ?_) .nil
  refine .field (fun key apart => ?_) (.item indexed (fun index apart => ?_) (.here _ _))
  · rw [find?_ofList_normalizeFields, find?_ofList_normalizeFields]
    simp [Table.lastOf, apart]
  · obtain ⟨index, rfl⟩ := Nat.exists_eq_succ_of_ne_zero apart
    rfl

def listed : Manifest :=
  (ofEvents "m" (listedRun 1)).withRule ⟨"payload.items.0", .ignore⟩

/-- The list is compared as a whole, so the rule for what is in it is of no effect. -/
theorem judged_apart_in_array :
    Path.join "payload" "items.0" = "payload.items.0" ∧ Path.Plain "payload.items.0" ∧
    listed.correlationKey = none ∧ ⟨"payload.items.0", .ignore⟩ ∈ listed.rules ∧
    List.Forall₂ (SealedEvent.AgreeOff "payload.items.0") (listedRun 1) (listedRun 2) ∧
    ∃ engine, ofManifest listed = .ok engine ∧ (engine.replay (listedRun 1)).passed = true ∧
      (engine.replay (listedRun 2)).passed = false := by
  refine ⟨rfl, by decide +kernel, rfl, by simp [listed, withRule], agree_listedRun 1 2, _, rfl,
    ?_, ?_⟩
  · decide +kernel
  · decide +kernel

end Manifest

end AuditTrail
