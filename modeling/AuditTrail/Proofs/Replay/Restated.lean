import AuditTrail.Proofs.Replay.Contained
import Mathlib.Data.Fintype.EquivFin

/-!
Matchers by the predicates they are reported as. A predicate that is reported compiles to the same
matcher again, as long as every object that is to be met exactly has a key like an operator's; any
other such object is reported as if only its fields were asked for, and then means something else.
-/

namespace AuditTrail

namespace Matcher

/-! ### What a predicate compiles to -/

/-- A predicate and its matcher. A value that is no object stands for itself, an operator stands
alone, and an object without operators asks for each of its fields. -/
inductive Compiles : String → Json → Matcher → Prop where
  | plain {path : String} {value : Json} (leaf : ∀ fields, value ≠ .object fields) :
      Compiles path value (.literal value)
  | equal {path : String} (value : Json) : Compiles path (operator "$eq" value) (.literal value)
  | present {path : String} (wanted : Bool) :
      Compiles path (operator "$exists" (.bool wanted)) (.present wanted)
  | pattern {path source : String} {regex : Regex} (parsed : Regex.parse? source = some regex) :
      Compiles path (operator "$regex" (.string source)) (.pattern source regex)
  | every {path : String} {fields : List (String × Json)} {children : List (String × Matcher)}
      (unmarked : hasOperator (.object fields) = false)
      (keys : fields.map Prod.fst = children.map Prod.fst)
      (each : ∀ field child, (field, child) ∈ fields.zip children →
        Compiles (Path.join path field.1) field.2 child.2) :
      Compiles path (.object fields) (.every children)

theorem compile_operator {path name : String} {operand : Json} (marked : isOperator name = true) :
    compile path (operator name operand) =
      (ofOperator name operand).mapError fun fault => ⟨path, fault⟩ := by
  simp [operator, compile, marked]

theorem compiles_of_ofOperator {path name : String} {operand : Json} {matcher : Matcher}
    (named : ofOperator name operand = .ok matcher) :
    Compiles path (operator name operand) matcher := by
  unfold ofOperator at named
  split at named
  · rename_i same
    subst same
    split at named
    · cases named
      exact .present _
    · cases named
  · split at named
    · rename_i same
      subst same
      split at named
      · split at named
        · rename_i parsed
          cases named
          exact .pattern parsed
        · cases named
      · cases named
    · split at named
      · rename_i same
        subst same
        cases named
        exact .equal operand
      · cases named

theorem compileFields_eq_ok_iff {path : String} {fields : List (String × Json)}
    {children : List (String × Matcher)} :
    compileFields path fields = .ok children ↔ fields.map Prod.fst = children.map Prod.fst ∧
      ∀ field child, (field, child) ∈ fields.zip children →
        compile (Path.join path field.1) field.2 = .ok child.2 := by
  have each (field : String × Json) (child : String × Matcher) :
      (compile (Path.join path field.1) field.2).map (field.1, ·) = .ok child ↔
        field.1 = child.1 ∧ compile (Path.join path field.1) field.2 = .ok child.2 := by
    obtain ⟨key, matcher⟩ := child
    cases compile (Path.join path field.1) field.2 <;> simp [Except.map]
  rw [compileFields_eq_mapM, mapM_eq_ok_iff]
  simp only [each, forall₂_keyed_iff]

theorem compile_eq_ok_iff {path : String} {predicate : Json} {matcher : Matcher} :
    compile path predicate = .ok matcher ↔ Compiles path predicate matcher := by
  constructor
  · intro compiled
    induction predicate using Json.structural generalizing path matcher with
    | object fields each =>
        rw [compile] at compiled
        split at compiled
        · rename_i name operand found
          split at compiled
          · cases compiled
          · rename_i alone
            obtain ⟨field, rfl⟩ := List.length_eq_one_iff.mp (not_not.mp alone)
            obtain rfl := List.mem_singleton.mp (List.mem_of_find?_eq_some found)
            refine compiles_of_ofOperator ?_
            cases named : ofOperator name operand <;> simp_all [Except.mapError]
        · rename_i none
          have unmarked : hasOperator (.object fields) = false := by
            simpa [hasOperator] using none
          obtain ⟨children, inside, rfl⟩ := exists_of_map_eq_ok compiled
          obtain ⟨keys, all⟩ := compileFields_eq_ok_iff.mp inside
          refine .every unmarked keys fun field child member => ?_
          exact each field (List.of_mem_zip member).1 (all field child member)
    | _ =>
        cases compiled
        exact .plain (by simp)
  · intro compiles
    induction compiles with
    | @plain path value leaf =>
        cases value with
        | object fields => exact absurd rfl (leaf fields)
        | _ => rfl
    | equal value => exact compile_equal _ value
    | present wanted =>
        rw [compile_operator (by decide)]
        simp [ofOperator, Except.mapError]
    | @pattern path source regex parsed =>
        rw [compile_operator (by decide)]
        simp [ofOperator, parsed, Except.mapError]
    | every unmarked keys _ each =>
        rw [compile_plain unmarked, compileFields_eq_ok_iff.mpr ⟨keys, each⟩]
        rfl

/-! ### What a matcher is reported as -/

inductive HasLiteral (value : Json) : Matcher → Prop where
  | here : HasLiteral value (.literal value)
  | inside {children : List (String × Matcher)} {child : String × Matcher}
      (member : child ∈ children) (below : HasLiteral value child.2) :
      HasLiteral value (.every children)

/-- Every object that is to be met exactly has a key like an operator's. -/
def Quoted (matcher : Matcher) : Prop :=
  ∀ fields, matcher.HasLiteral (.object fields) → hasOperator (.object fields) = true

theorem childrenToJson_eq_map (children : List (String × Matcher)) :
    childrenToJson children = children.map fun child => (child.1, child.2.toJson) := by
  induction children with
  | nil => rfl
  | cons child rest ih => rw [childrenToJson, ih, List.map_cons]

theorem hasOperator_of_keys {α : Type} {fields : List (String × Json)} {entries : List (String × α)}
    (keys : fields.map Prod.fst = entries.map Prod.fst) :
    hasOperator (.object fields) = (entries.map Prod.fst).any isOperator := by
  rw [← keys, List.any_map]
  rfl

theorem toJson_of_leaf {value : Json} (leaf : ∀ fields, value ≠ .object fields) :
    (literal value).toJson = value := by
  cases value with
  | object fields => exact absurd rfl (leaf fields)
  | _ => rfl

theorem Compiles.toJson {path : String} {predicate : Json} {matcher : Matcher}
    (compiles : Compiles path predicate matcher) (quoted : matcher.Quoted) :
    Compiles path matcher.toJson matcher := by
  induction compiles with
  | plain leaf =>
      rw [toJson_of_leaf leaf]
      exact .plain leaf
  | equal value =>
      cases value with
      | object fields =>
          rw [Matcher.toJson, if_pos (quoted fields .here)]
          exact .equal _
      | _ =>
          rw [toJson_of_leaf (by simp)]
          exact .plain (by simp)
  | present wanted => exact .present wanted
  | pattern parsed => exact .pattern parsed
  | @every path fields children unmarked keys _ each =>
      have again : List.Forall₂ (fun field child => field.1 = child.1 ∧
          Compiles (Path.join path field.1) field.2 child.2)
          (childrenToJson children) children := by
        rw [childrenToJson_eq_map, List.forall₂_map_left_iff, List.forall₂_same]
        intro child member
        obtain ⟨field, -, same, goes⟩ :=
          exists_of_mem_right (forall₂_keyed_iff.mpr ⟨keys, each⟩) member
        exact ⟨rfl, same ▸ goes fun fields below => quoted fields (.inside member below)⟩
      obtain ⟨keysAgain, eachAgain⟩ := forall₂_keyed_iff.mp again
      rw [Matcher.toJson]
      refine .every ?_ keysAgain eachAgain
      rw [hasOperator_of_keys keysAgain, ← hasOperator_of_keys keys, unmarked]

end Matcher

/-! ### What a matcher accepts -/

namespace ReplayEngine

theorem Bare.check_eq_nil {engine other : ReplayEngine} (bare : engine.Bare) (bareToo : other.Bare)
    {matcher : Matcher} {actual : Option Json} {place elsewhere : String}
    (holds : engine.check place matcher actual = []) :
    other.check elsewhere matcher actual = [] := by
  induction matcher using Matcher.structural generalizing actual place elsewhere with
  | literal value => exact bareToo.check_literal.mpr (bare.check_literal.mp holds)
  | present wanted => simpa [check, diffAt, bare.isIgnored, bareToo.isIgnored] using holds
  | pattern source regex => simpa [check, diffAt, bare.isIgnored, bareToo.isIgnored] using holds
  | every children each =>
      obtain ⟨fields, rfl, all⟩ := bare.check_every.mp holds
      exact bareToo.check_every.mpr
        ⟨fields, rfl, fun child member => each child member (all child member)⟩

end ReplayEngine

namespace Matcher

def Accepts (matcher : Matcher) (actual : Option Json) : Prop :=
  ∀ (engine : ReplayEngine) (place : String), engine.Bare → engine.check place matcher actual = []

def bareEngine : ReplayEngine := ⟨"", [], [], [], none⟩

variable {matcher : Matcher} {actual : Option Json}

theorem accepts_iff :
    matcher.Accepts actual ↔ bareEngine.check "" matcher actual = [] :=
  ⟨fun accepts => accepts bareEngine "" ⟨rfl, rfl⟩,
    fun holds _ _ bare => ReplayEngine.Bare.check_eq_nil ⟨rfl, rfl⟩ bare holds⟩

theorem accepts_literal_iff {value : Json} :
    (literal value).Accepts actual ↔ ∃ found, actual = some found ∧ value.same found = true :=
  accepts_iff.trans (ReplayEngine.Bare.check_literal ⟨rfl, rfl⟩)

theorem accepts_every_iff {children : List (String × Matcher)} :
    (every children).Accepts actual ↔ ∃ fields, actual = some (.object fields) ∧
      ∀ child ∈ children, child.2.Accepts (Table.find? child.1 fields) := by
  have bare : bareEngine.Bare := ⟨rfl, rfl⟩
  rw [accepts_iff, bare.check_every]
  refine exists_congr fun fields => and_congr_right fun _ => forall₂_congr fun child _ => ?_
  exact ⟨fun holds _ _ bareToo => bare.check_eq_nil bareToo holds, fun accepts => accepts _ _ bare⟩

def withField (key : String) (value : Option Json) (fields : Table Json) : Table Json :=
  match value with
  | some value => fields.insert key value
  | none => fields.erase key

theorem find?_withField {fields : Table Json} (ordered : fields.Ordered) (key other : String)
    (value : Option Json) : (withField key value fields).find? other =
      if other = key then value else fields.find? other := by
  cases value with
  | some value => exact Table.find?_insert ..
  | none => exact ordered.find?_erase key other

theorem normal_withField {fields : Table Json} (normal : (Json.object fields).Normal) (key : String)
    {value : Option Json} (normalValue : ∀ found ∈ value, found.Normal) :
    (Json.object (withField key value fields)).Normal := by
  obtain ⟨ordered, parts⟩ := Json.normal_object_iff.mp normal
  refine Json.normal_object_iff.mpr ?_
  cases value with
  | some value =>
      refine ⟨ordered.insert key value, fun field member => ?_⟩
      rcases Table.mem_insert member with rfl | old
      · exact normalValue _ rfl
      · exact parts field old
  | none =>
      exact ⟨ordered.erase key, fun field member =>
        parts field ((Table.erase_sublist fields key).subset member)⟩

/-- In an object that is accepted the value of one field decides for its own matcher alone. -/
theorem accepts_withField_iff {children : List (String × Matcher)} {child : String × Matcher}
    {fields : Table Json} (distinct : Table.Ordered children) (member : child ∈ children)
    (ordered : fields.Ordered) (accepted : (every children).Accepts (some (.object fields)))
    (value : Option Json) :
    (every children).Accepts (some (.object (withField child.1 value fields))) ↔
      child.2.Accepts value := by
  obtain ⟨_, same, all⟩ := accepts_every_iff.mp accepted
  cases same
  rw [accepts_every_iff]
  constructor
  · rintro ⟨_, same, holds⟩
    cases same
    have own := holds child member
    rwa [find?_withField ordered, if_pos rfl] at own
  · intro accepts
    refine ⟨_, rfl, fun other inside => ?_⟩
    rw [find?_withField ordered]
    split
    · rename_i same
      have found := distinct.find?_of_mem (show (child.1, other.2) ∈ children from same ▸ inside)
      rw [distinct.find?_of_mem (show (child.1, child.2) ∈ children from member)] at found
      exact Option.some.inj found ▸ accepts
    · exact all other inside

/-! ### What a report means -/

/-- What a matcher is reported as compiles, to a matcher that accepts the same values. -/
def Restated (path : String) (matcher : Matcher) : Prop :=
  ∃ again, compile path matcher.toJson = .ok again ∧ ∀ actual : Option Json,
    (∀ value ∈ actual, value.Normal) → (again.Accepts actual ↔ matcher.Accepts actual)

theorem exists_of_compile_children {path : String} {children : List (String × Matcher)}
    {again : Matcher} (unmarked : (children.map Prod.fst).any isOperator = false)
    (compiled : compile path (.object (childrenToJson children)) = .ok again) :
    ∃ others, again = .every others ∧ List.Forall₂ (fun child other => child.1 = other.1 ∧
      compile (Path.join path child.1) child.2.toJson = .ok other.2) children others := by
  have keys : (childrenToJson children).map Prod.fst = children.map Prod.fst := by
    simp [childrenToJson_eq_map]
  rw [compile_plain ((hasOperator_of_keys keys).trans unmarked)] at compiled
  obtain ⟨others, inside, rfl⟩ := exists_of_map_eq_ok compiled
  have paired := forall₂_keyed_iff.mpr (compileFields_eq_ok_iff.mp inside)
  rw [childrenToJson_eq_map, List.forall₂_map_left_iff] at paired
  exact ⟨others, rfl, paired⟩

theorem Restated.child {path : String} {children : List (String × Matcher)}
    {child : String × Matcher} {fields : Table Json}
    (restated : (every children).Restated path)
    (unmarked : (children.map Prod.fst).any isOperator = false)
    (distinct : Table.Ordered children) (member : child ∈ children)
    (normal : (Json.object fields).Normal)
    (accepted : (every children).Accepts (some (.object fields))) :
    child.2.Restated (Path.join path child.1) := by
  obtain ⟨again, compiled, alike⟩ := restated
  obtain ⟨others, rfl, paired⟩ := exists_of_compile_children unmarked compiled
  obtain ⟨other, inside, same, compiledOther⟩ := exists_of_mem_right paired.flip member
  have distinctToo : Table.Ordered others := distinct.of_keys (forall₂_keyed_iff.mp paired).1
  have ordered := (Json.normal_object_iff.mp normal).1
  have acceptedToo := (alike (some (.object fields)) (by simpa using normal)).mpr accepted
  refine ⟨other.2, compiledOther, fun value normalValue => ?_⟩
  rw [← accepts_withField_iff distinctToo inside ordered acceptedToo,
    ← accepts_withField_iff distinct member ordered accepted, same]
  exact alike _ (by simpa using normal_withField normal other.1 normalValue)

theorem accepts_withField_of_absent {children : List (String × Matcher)} {fields : Table Json}
    {fresh : String} (ordered : fields.Ordered) (absent : fresh ∉ children.map Prod.fst)
    (accepted : (every children).Accepts (some (.object fields))) (value : Option Json) :
    (every children).Accepts (some (.object (withField fresh value fields))) := by
  obtain ⟨_, same, all⟩ := accepts_every_iff.mp accepted
  cases same
  refine accepts_every_iff.mpr ⟨_, rfl, fun child member => ?_⟩
  have other : child.1 ≠ fresh := fun same => absent (same ▸ List.mem_map_of_mem member)
  rw [find?_withField ordered, if_neg other]
  exact all child member

theorem not_accepts_withField_of_absent {wanted fields : Table Json} {fresh : String}
    (ordered : fields.Ordered) (absent : fresh ∉ wanted.keys) (value : Json) :
    ¬(literal (.object wanted)).Accepts (some (.object (withField fresh (some value) fields))) := by
  intro accepts
  obtain ⟨_, same, alike⟩ := accepts_literal_iff.mp accepts
  cases same
  have found := Json.find?_of_same alike fresh
  rw [← Table.isSome_find?_iff, Option.not_isSome_iff_eq_none] at absent
  rw [absent, find?_withField ordered, if_pos rfl] at found
  cases found

theorem not_restated_literal {path : String} {fields : List (String × Json)} {actual : Option Json}
    (unmarked : hasOperator (.object fields) = false) (normal : ∀ value ∈ actual, value.Normal)
    (accepted : (literal (.object fields)).Accepts actual) :
    ¬(literal (.object fields)).Restated path := by
  rintro ⟨again, compiled, alike⟩
  rw [toJson, if_neg (by simp [unmarked]), compile_plain unmarked] at compiled
  obtain ⟨children, inside, rfl⟩ := exists_of_map_eq_ok compiled
  have keys := (compileFields_eq_ok_iff.mp inside).1
  obtain ⟨others, rfl, -⟩ := accepts_every_iff.mp ((alike _ normal).mpr accepted)
  have ordered := (Json.normal_object_iff.mp (normal _ rfl)).1
  obtain ⟨fresh, absent⟩ := Infinite.exists_notMem_finset (Table.keys fields).toFinset
  rw [List.mem_toFinset] at absent
  have unasked : fresh ∉ children.map Prod.fst := by rwa [Table.keys, keys] at absent
  -- With one more field the object is accepted as it is reported, and not as it was compiled.
  have reported := accepts_withField_of_absent ordered unasked
    ((alike _ normal).mpr accepted) (some .null)
  have normalToo : (Json.object (withField fresh (some .null) others)).Normal :=
    normal_withField (normal _ rfl) fresh fun _ null => Option.mem_some_iff.mp null ▸ rfl
  exact not_accepts_withField_of_absent ordered absent .null
    ((alike _ (by simpa using normalToo)).mp reported)

theorem hasOperator_of_restated {path : String} {predicate : Json} {matcher : Matcher}
    (compiles : Compiles path predicate matcher) (normal : predicate.Normal)
    (restated : matcher.Restated path) {actual : Option Json}
    (normalActual : ∀ value ∈ actual, value.Normal) (accepted : matcher.Accepts actual)
    {fields : List (String × Json)} (literal : matcher.HasLiteral (.object fields)) :
    hasOperator (.object fields) = true := by
  -- On the predicate; a field of an object that is accepted is accepted by its own matcher.
  induction compiles generalizing actual with
  | plain leaf =>
      cases literal
      exact absurd rfl (leaf fields)
  | equal value =>
      cases literal
      by_contra unmarked
      exact not_restated_literal (by simpa using unmarked) normalActual accepted restated
  | present => cases literal
  | pattern => cases literal
  | every unmarked keys _ each =>
      cases literal with
      | inside member below =>
          obtain ⟨field, inside, same, goes⟩ :=
            exists_of_mem_right (forall₂_keyed_iff.mpr ⟨keys, each⟩) member
          obtain ⟨ordered, parts⟩ := Json.normal_object_iff.mp normal
          obtain ⟨found, rfl, all⟩ := accepts_every_iff.mp accepted
          have normalFound := normalActual _ rfl
          have own := restated.child (hasOperator_of_keys keys ▸ unmarked) (ordered.of_keys keys)
            member normalFound accepted
          refine goes (parts field inside) (same ▸ own) (fun value there => ?_) (all _ member) below
          exact (Json.normal_object_iff.mp normalFound).2 _ (Table.mem_of_find? there)

/-- A matcher whose exact objects all have a key like an operator's is reported as a predicate that
compiles to the very same matcher. Only such a matcher is, among those that accept anything at all:
any other is reported as a predicate that does not compile or accepts other values. -/
theorem restated_iff_quoted {path : String} {predicate : Json} {matcher : Matcher}
    (normal : predicate.Normal) (compiled : compile path predicate = .ok matcher) :
    (matcher.Quoted → compile path matcher.toJson = .ok matcher ∧ matcher.Restated path) ∧
      ∀ actual : Option Json, (∀ value ∈ actual, value.Normal) → matcher.Accepts actual →
        (matcher.Restated path ↔ matcher.Quoted) := by
  have compiles := compile_eq_ok_iff.mp compiled
  have means (quoted : matcher.Quoted) :
      compile path matcher.toJson = .ok matcher ∧ matcher.Restated path := by
    have again := compile_eq_ok_iff.mpr (compiles.toJson quoted)
    exact ⟨again, matcher, again, fun _ _ => Iff.rfl⟩
  refine ⟨means, fun actual normalActual accepted => ⟨fun restated fields literal => ?_, ?_⟩⟩
  · exact hasOperator_of_restated compiles normal restated normalActual accepted literal
  · exact fun quoted => (means quoted).2

def referring : Json :=
  .object [("args", operator "$eq" (.object [("$ref", .string "x")])), ("kind", .string "search"),
    ("note", operator "$exists" (.bool false))]

def referringMatcher : Matcher :=
  .every [("args", .literal (.object [("$ref", .string "x")])),
    ("kind", .literal (.string "search")), ("note", .present false)]

def referringValue : Json :=
  .object [("args", .object [("$ref", .string "x")]), ("count", .ofNat 3),
    ("kind", .string "search")]

theorem quoted_referringMatcher : referringMatcher.Quoted := by
  intro fields literal
  cases literal with
  | inside member below =>
      simp only [List.mem_cons, List.not_mem_nil, or_false] at member
      rcases member with rfl | rfl | rfl <;> cases below
      decide

theorem restated_of_referring : referring.Normal ∧
    compile "payload" referring = .ok referringMatcher ∧ referringMatcher.Quoted ∧
    compile "payload" referringMatcher.toJson = .ok referringMatcher ∧
    referringMatcher.Accepts (some referringValue) ∧ referringMatcher.Restated "payload" := by
  have normal : referring.Normal := by rfl
  have compiled : compile "payload" referring = .ok referringMatcher := by rfl
  have normalValue : ∀ value ∈ some referringValue, value.Normal := by
    intro value member
    exact Option.mem_some_iff.mp member ▸ rfl
  have accepted : referringMatcher.Accepts (some referringValue) := accepts_iff.mpr rfl
  obtain ⟨means, exactly⟩ := restated_iff_quoted normal compiled
  exact ⟨normal, compiled, quoted_referringMatcher, (means quoted_referringMatcher).1, accepted,
    (exactly _ normalValue accepted).mpr quoted_referringMatcher⟩

def onlyGoal : Json :=
  .object [("goal", .string "refund")]

/-- Reported without a mark, an object that was to be met exactly lets other fields pass, and one
with an operator's key further inside does not compile. -/
theorem accepts_more_as_reported :
    (compile "payload" (operator "$eq" onlyGoal) = .ok (.literal onlyGoal) ∧
      ∃ again, compile "payload" (literal onlyGoal).toJson = .ok again ∧
        again.Accepts (some (.object [("extra", .ofNat 1), ("goal", .string "refund")])) ∧
        ¬(literal onlyGoal).Accepts
          (some (.object [("extra", .ofNat 1), ("goal", .string "refund")]))) ∧
    ∃ matcher error,
      compile "payload" (operator "$eq" (.object [("limit", operator "$gt" .null)])) =
        .ok matcher ∧
      compile "payload" matcher.toJson = .error error := by
  refine ⟨⟨compile_equal _ _, .every [("goal", .literal (.string "refund"))], rfl, ?_, ?_⟩, ?_⟩
  · exact accepts_iff.mpr rfl
  · rw [accepts_literal_iff]
    rintro ⟨_, ⟨⟩, same⟩
    cases same
  · exact ⟨_, _, compile_equal _ _, rfl⟩

end Matcher

end AuditTrail
