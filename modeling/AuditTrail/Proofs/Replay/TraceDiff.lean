import AuditTrail.Proofs.Chain.Divergence
import AuditTrail.Proofs.Json.Same
import AuditTrail.Replay.TraceDiff

/-!
What a comparison of two runs tells. Each event of either run is told once: it is in the common
beginning, or one of a pair of one type, or it stands alone in its run. Which run is called the
first makes no difference but for the sides.
-/

namespace AuditTrail

open Chain

namespace EventDifference

/-- What there is to tell of two events that stand at one place. -/
inductive Tells (index : Nat) (a b : SealedEvent) : EventDifference → Prop
  | payload : a.payload.same b.payload = false →
      Tells index a b ⟨index, a.eventType, "payload", a.payload, b.payload⟩
  | actor : a.actor ≠ b.actor →
      Tells index a b ⟨index, a.eventType, "actor", a.actor.toJson, b.actor.toJson⟩

/-- By the places of the events, and for one place the payload before the actor. -/
def Precedes (difference later : EventDifference) : Prop :=
  difference.index < later.index ∨
    difference.index = later.index ∧ difference.field = "payload" ∧ later.field = "actor"

def exchanged (difference : EventDifference) : EventDifference :=
  { difference with first := difference.second, second := difference.first }

end EventDifference

open EventDifference

namespace TraceDiff

def exchanged (diff : TraceDiff) : TraceDiff where
  divergence := diff.divergence
  commonLength := diff.commonLength
  differences := diff.differences.map EventDifference.exchanged
  onlyInFirst := diff.onlyInSecond
  onlyInSecond := diff.onlyInFirst
  firstCount := diff.secondCount
  secondCount := diff.firstCount

def typeAt (events : List SealedEvent) (index : Nat) : Option String :=
  events[index]?.map SealedEvent.eventType

def pairedCount : List SealedEvent → List SealedEvent → Nat
  | a :: as, b :: bs => if a.eventType = b.eventType then pairedCount as bs + 1 else 0
  | _, _ => 0

/-! ### One pair -/

theorem mem_differencesAt_iff {index : Nat} {a b : SealedEvent} {difference : EventDifference} :
    difference ∈ differencesAt index a b ↔ Tells index a b difference := by
  constructor
  · intro member
    rcases List.mem_append.mp member with payload | actor
    · split at payload
      · cases payload
      · rename_i apart
        obtain rfl := List.mem_singleton.mp payload
        exact .payload (Bool.eq_false_iff.mpr apart)
    · split at actor
      · cases actor
      · rename_i apart
        obtain rfl := List.mem_singleton.mp actor
        exact .actor apart
  · intro tells
    cases tells with
    | payload apart => simp [differencesAt, apart]
    | actor apart => simp [differencesAt, apart]

theorem Tells.index {index : Nat} {a b : SealedEvent} {difference : EventDifference}
    (tells : Tells index a b difference) : difference.index = index := by
  cases tells <;> rfl

theorem pairwise_differencesAt (index : Nat) (a b : SealedEvent) :
    (differencesAt index a b).Pairwise Precedes := by
  unfold differencesAt
  split <;> split <;> simp [Precedes]

theorem differencesAt_exchanged (index : Nat) {a b : SealedEvent}
    (same : a.eventType = b.eventType) :
    differencesAt index b a = (differencesAt index a b).map EventDifference.exchanged := by
  have payloads : b.payload.same a.payload = a.payload.same b.payload := by
    rw [Bool.eq_iff_iff]
    exact ⟨Json.same_symm, Json.same_symm⟩
  simp only [differencesAt, payloads, eq_comm (a := b.actor)]
  split <;> split <;> simp [EventDifference.exchanged, same]

/-! ### The pairs -/

section

variable {first second : List SealedEvent} {difference : EventDifference}

theorem pairedCount_le (first second : List SealedEvent) :
    pairedCount first second ≤ first.length ∧ pairedCount first second ≤ second.length := by
  induction first generalizing second with
  | nil => simp [pairedCount]
  | cons a as ih =>
      cases second with
      | nil => simp [pairedCount]
      | cons b bs =>
          have later := ih bs
          simp only [pairedCount, List.length_cons]
          split <;> omega

theorem typeAt_eq_of_lt {i : Nat} (below : i < pairedCount first second) :
    typeAt first i = typeAt second i := by
  induction first generalizing second i with
  | nil => simp [pairedCount] at below
  | cons a as ih =>
      cases second with
      | nil => simp [pairedCount] at below
      | cons b bs =>
          simp only [pairedCount] at below
          split at below
          · rename_i same
            cases i with
            | zero => exact congrArg some same
            | succ i => exact ih (by omega)
          · omega

theorem pairedCount_ends (first second : List SealedEvent) :
    pairedCount first second = first.length ∨ pairedCount first second = second.length ∨
      typeAt first (pairedCount first second) ≠ typeAt second (pairedCount first second) := by
  induction first generalizing second with
  | nil => exact Or.inl rfl
  | cons a as ih =>
      cases second with
      | nil => exact Or.inr (Or.inl rfl)
      | cons b bs =>
          by_cases same : a.eventType = b.eventType
          · simp only [pairedCount, same, if_true, List.length_cons, Nat.add_right_cancel_iff]
            exact ih bs
          · simp only [pairedCount, same, if_false]
            exact Or.inr (Or.inr (by simpa [typeAt] using same))

theorem compareFrom_cons {index : Nat} {a b : SealedEvent} (same : a.eventType = b.eventType)
    (as bs : List SealedEvent) : compareFrom index (a :: as) (b :: bs) =
      (differencesAt index a b ++ (compareFrom (index + 1) as bs).1,
        (compareFrom (index + 1) as bs).2) := by
  rw [compareFrom, if_pos same]

theorem compareFrom_left (index : Nat) (first second : List SealedEvent) :
    (compareFrom index first second).2 =
      (indexed (index + pairedCount first second) (first.drop (pairedCount first second)),
        indexed (index + pairedCount first second) (second.drop (pairedCount first second))) := by
  induction first generalizing index second with
  | nil => cases second <;> rfl
  | cons a as ih =>
      cases second with
      | nil => rfl
      | cons b bs =>
          by_cases same : a.eventType = b.eventType
          · rw [compareFrom_cons same, ih, pairedCount, if_pos same, List.drop_succ_cons,
              List.drop_succ_cons, Nat.add_assoc, Nat.add_comm 1]
          · rw [compareFrom, if_neg same, pairedCount, if_neg same]
            rfl

theorem mem_compareFrom_iff {index : Nat} :
    difference ∈ (compareFrom index first second).1 ↔
      ∃ i < pairedCount first second, ∃ a ∈ first[i]?, ∃ b ∈ second[i]?,
        Tells (index + i) a b difference := by
  induction first generalizing index second with
  | nil => cases second <;> simp [compareFrom, pairedCount]
  | cons a as ih =>
      cases second with
      | nil => simp [compareFrom, pairedCount]
      | cons b bs =>
          by_cases same : a.eventType = b.eventType
          · rw [compareFrom_cons same, List.mem_append, mem_differencesAt_iff, ih, pairedCount,
              if_pos same]
            constructor
            · rintro (here | ⟨i, below, x, foundX, y, foundY, tells⟩)
              · exact ⟨0, by omega, a, rfl, b, rfl, here⟩
              · refine ⟨i + 1, by omega, x, foundX, y, foundY, ?_⟩
                rwa [Nat.add_comm i, ← Nat.add_assoc]
            · rintro ⟨i, below, x, foundX, y, foundY, tells⟩
              cases i with
              | zero =>
                  obtain rfl := Option.some.inj foundX
                  obtain rfl := Option.some.inj foundY
                  exact Or.inl tells
              | succ i =>
                  refine Or.inr ⟨i, by omega, x, foundX, y, foundY, ?_⟩
                  rwa [Nat.add_comm i, ← Nat.add_assoc] at tells
          · rw [compareFrom, if_neg same, pairedCount, if_neg same]
            simp

theorem pairwise_compareFrom (index : Nat) (first second : List SealedEvent) :
    (compareFrom index first second).1.Pairwise Precedes := by
  induction first generalizing index second with
  | nil => cases second <;> exact List.Pairwise.nil
  | cons a as ih =>
      cases second with
      | nil => exact List.Pairwise.nil
      | cons b bs =>
          by_cases same : a.eventType = b.eventType
          · rw [compareFrom_cons same]
            apply List.pairwise_append.mpr
            refine ⟨pairwise_differencesAt index a b, ih _ bs, ?_⟩
            intro difference here later behind
            obtain ⟨i, _, _, _, _, _, tells⟩ := mem_compareFrom_iff.mp behind
            left
            rw [Tells.index (mem_differencesAt_iff.mp here), Tells.index tells]
            omega
          · rw [compareFrom, if_neg same]
            exact List.Pairwise.nil

theorem compareFrom_exchanged (index : Nat) (first second : List SealedEvent) :
    compareFrom index second first =
      ((compareFrom index first second).1.map EventDifference.exchanged,
        (compareFrom index first second).2.swap) := by
  induction first generalizing index second with
  | nil => cases second <;> rfl
  | cons a as ih =>
      cases second with
      | nil => rfl
      | cons b bs =>
          by_cases same : a.eventType = b.eventType
          · rw [compareFrom_cons same, compareFrom_cons same.symm, ih,
              differencesAt_exchanged index same, List.map_append]
          · rw [compareFrom, if_neg (Ne.symm same), compareFrom, if_neg same]
            rfl

end

/-! ### Both runs -/

def restFrom (split : Nat) (events : List SealedEvent) : List (Nat × SealedEvent) :=
  (events.zipIdx.drop split).map Prod.swap

theorem indexed_drop (split : Nat) (events : List SealedEvent) :
    indexed split (events.drop split) = restFrom split events := by
  apply List.ext_getElem?
  intro i
  simp [indexed, restFrom, Function.comp_def]

theorem mem_restFrom_iff {split i : Nat} {events : List SealedEvent} {event : SealedEvent} :
    (i, event) ∈ restFrom split events ↔ split ≤ i ∧ events[i]? = some event := by
  have placed : (i, event) ∈ indexed split (events.drop split) ↔
      split ≤ i ∧ (events.drop split)[i - split]? = some event := by
    simp [indexed, List.mem_zipIdx_iff_le_and_getElem?_sub]
  rw [← indexed_drop, placed, List.getElem?_drop]
  constructor
  · rintro ⟨reached, found⟩
    exact ⟨reached, by rwa [Nat.add_sub_of_le reached] at found⟩
  · rintro ⟨reached, found⟩
    exact ⟨reached, by rwa [Nat.add_sub_of_le reached]⟩

def splitBehind (count : Nat) (first second : List SealedEvent) : Nat :=
  count + pairedCount (first.drop count) (second.drop count)

section

variable {first second : List SealedEvent} {count : Nat}

theorem typeAt_drop (count i : Nat) (events : List SealedEvent) :
    typeAt (events.drop count) i = typeAt events (count + i) := by
  rw [typeAt, typeAt, List.getElem?_drop]

theorem splitBehind_le (within : count ≤ first.length) (withinOther : count ≤ second.length) :
    splitBehind count first second ≤ first.length ∧
      splitBehind count first second ≤ second.length := by
  have paired := pairedCount_le (first.drop count) (second.drop count)
  rw [List.length_drop, List.length_drop] at paired
  rw [splitBehind]
  omega

theorem typeAt_eq_of_splitBehind {i : Nat} (reached : count ≤ i)
    (below : i < splitBehind count first second) : typeAt first i = typeAt second i := by
  obtain ⟨offset, rfl⟩ := Nat.exists_eq_add_of_le reached
  have same := typeAt_eq_of_lt (Nat.lt_of_add_lt_add_left below)
  rwa [typeAt_drop, typeAt_drop] at same

theorem splitBehind_ends (within : count ≤ first.length) (withinOther : count ≤ second.length) :
    splitBehind count first second = first.length ∨
      splitBehind count first second = second.length ∨
      typeAt first (splitBehind count first second) ≠
        typeAt second (splitBehind count first second) := by
  have ends := pairedCount_ends (first.drop count) (second.drop count)
  rw [List.length_drop, List.length_drop, typeAt_drop, typeAt_drop, ← splitBehind] at ends
  rcases ends with whole | whole | apart
  · left
    rw [splitBehind]
    omega
  · right
    left
    rw [splitBehind]
    omega
  · exact Or.inr (Or.inr apart)

theorem mem_compareFrom_drop_iff {difference : EventDifference} :
    difference ∈ (compareFrom count (first.drop count) (second.drop count)).1 ↔
      ∃ i, count ≤ i ∧ i < splitBehind count first second ∧
        ∃ a ∈ first[i]?, ∃ b ∈ second[i]?, Tells i a b difference := by
  rw [mem_compareFrom_iff]
  simp only [List.getElem?_drop]
  constructor
  · rintro ⟨i, below, found⟩
    exact ⟨count + i, Nat.le_add_right _ _, Nat.add_lt_add_left below count, found⟩
  · rintro ⟨i, reached, below, found⟩
    obtain ⟨offset, rfl⟩ := Nat.exists_eq_add_of_le reached
    exact ⟨offset, Nat.lt_of_add_lt_add_left below, found⟩

theorem compareFrom_drop_left (count : Nat) (first second : List SealedEvent) :
    (compareFrom count (first.drop count) (second.drop count)).2 =
      (restFrom (splitBehind count first second) first,
        restFrom (splitBehind count first second) second) := by
  rw [compareFrom_left, List.drop_drop, List.drop_drop, ← splitBehind, indexed_drop, indexed_drop]

end

/-- A comparison with a common beginning, pairs up to a place, and what stands alone from there. -/
structure SplitsAt (first second : List SealedEvent) (diff : TraceDiff) (split : Nat) : Prop where
  commonLength_le : diff.commonLength ≤ split
  le_first : split ≤ first.length
  le_second : split ≤ second.length
  common : ∀ i < diff.commonLength, hashAt first i = hashAt second i
  paired : ∀ i, diff.commonLength ≤ i → i < split → typeAt first i = typeAt second i
  told_iff : ∀ difference, difference ∈ diff.differences ↔
    ∃ i, diff.commonLength ≤ i ∧ i < split ∧ ∃ a ∈ first[i]?, ∃ b ∈ second[i]?,
      Tells i a b difference
  inOrder : diff.differences.Pairwise Precedes
  onlyInFirst : diff.onlyInFirst = restFrom split first
  onlyInSecond : diff.onlyInSecond = restFrom split second
  ends : split = first.length ∨ split = second.length ∨ typeAt first split ≠ typeAt second split

section

variable (first second : List SealedEvent)

theorem commonLength_between : (between first second).commonLength ≤ first.length ∧
    (between first second).commonLength ≤ second.length ∧
    ∀ i < (between first second).commonLength, hashAt first i = hashAt second i := by
  have common : (between first second).commonLength =
      (divergence? first second).getD first.length := rfl
  rw [common]
  rcases divergence?_spec first second with ⟨none, all⟩ | ⟨index, found, parts⟩
  · have lengths := congrArg List.length (hashes_eq_iff.mpr all)
    rw [List.length_map, List.length_map] at lengths
    rw [none]
    exact ⟨Nat.le_refl _, Nat.le_of_eq lengths, fun i _ => all i⟩
  · rw [found]
    exact ⟨parts.le_length, parts.symm.le_length, parts.before⟩

theorem splitsAt_between : SplitsAt first second (between first second)
    (splitBehind (between first second).commonLength first second) := by
  obtain ⟨within, withinOther, common⟩ := commonLength_between first second
  have lengths := splitBehind_le within withinOther
  have left := compareFrom_drop_left (between first second).commonLength first second
  constructor
  case commonLength_le => exact Nat.le_add_right _ _
  case le_first => exact lengths.1
  case le_second => exact lengths.2
  case common => exact common
  case paired => exact fun i => typeAt_eq_of_splitBehind
  case told_iff => exact fun difference => mem_compareFrom_drop_iff
  case inOrder => exact pairwise_compareFrom _ _ _
  case onlyInFirst => exact congrArg Prod.fst left
  case onlyInSecond => exact congrArg Prod.snd left
  case ends => exact splitBehind_ends within withinOther

theorem between_exchanged : between second first = (between first second).exchanged := by
  have common : (divergence? first second).getD second.length =
      (divergence? first second).getD first.length := by
    cases found : divergence? first second with
    | some index => rfl
    | none =>
        have lengths := congrArg List.length (divergence?_eq_none_iff.mp found)
        rw [List.length_map, List.length_map] at lengths
        exact lengths.symm
  simp only [between, divergence?_symm first second, common, compareFrom_exchanged _ (first.drop _)]
  rfl

end

/-- Both runs are told as a whole, in one way, and alike from either side. -/
theorem between_partition (first second : List SealedEvent) :
    (∃ split, SplitsAt first second (between first second) split) ∧
      ((between first second).divergence.isNone = true ↔
        first.map SealedEvent.eventHash = second.map SealedEvent.eventHash) ∧
      between second first = (between first second).exchanged := by
  refine ⟨⟨_, splitsAt_between first second⟩, ?_, between_exchanged first second⟩
  rw [Option.isNone_iff_eq_none]
  exact divergence?_eq_none_iff

section

variable {first second : List SealedEvent}

theorem rests_apart (valid : (verifyEvents first none).isValid = true)
    (validOther : (verifyEvents second none).isValid = true)
    (apart : ¬Collides (hashedFor first ++ hashedFor second)) :
    ∀ entry ∈ (between first second).onlyInFirst, ∀ other ∈ (between first second).onlyInSecond,
      entry.2.eventHash ≠ other.2.eventHash := by
  rintro ⟨i, a⟩ listed ⟨j, b⟩ listedOther same
  have splits := splitsAt_between first second
  rw [splits.onlyInFirst, mem_restFrom_iff] at listed
  rw [splits.onlyInSecond, mem_restFrom_iff] at listedOther
  obtain ⟨reached, foundA⟩ := listed
  obtain ⟨_, foundB⟩ := listedOther
  have links := sameLinks_of_hash valid validOther apart foundA foundB same
  obtain rfl := index_eq_of_sameLinks foundA foundB links
  have behind := Nat.le_trans splits.commonLength_le reached
  have common : (between first second).commonLength =
      (divergence? first second).getD first.length := rfl
  rw [common] at behind
  rcases divergence?_spec first second with ⟨none, _⟩ | ⟨index, found, parts⟩
  · rw [none] at behind
    have below := (List.getElem?_eq_some_iff.mp foundA).1
    exact absurd below (Nat.not_lt.mpr behind)
  · rw [found] at behind
    exact (parts.diverges valid validOther apart).behind i behind a foundA b foundB same

/-- The hashes of valid runs tell where their contents part, for good: no hash behind that place
is met again in the other run. -/
theorem divergence_of_valid (valid : (verifyEvents first none).isValid = true)
    (validOther : (verifyEvents second none).isValid = true)
    (apart : ¬Collides (hashedFor first ++ hashedFor second)) :
    (divergence? first second = none ↔ contents first = contents second) ∧
      (∀ index, divergence? first second = some index → Diverges first second index) ∧
      ∀ entry ∈ (between first second).onlyInFirst,
        ∀ other ∈ (between first second).onlyInSecond,
          entry.2.eventHash ≠ other.2.eventHash := by
  refine ⟨?_, ?_, rests_apart valid validOther apart⟩
  · exact divergence?_eq_none_iff.trans (hashes_eq_iff_contents valid validOther apart)
  · intro index found
    exact (divergence?_eq_some_iff.mp found).diverges valid validOther apart

end

def sampleFork : List SealedEvent :=
  ((ChainHead.fresh "s").sealAll sampleTime [sampleRaw "a", sampleRaw "c"]).1

theorem not_collides_sampleFork : ¬Collides (hashedFor samplePair ++ hashedFor sampleFork) := by
  have distinct : ¬Collides (sampleFork[1].hashedBytes :: hashedFor samplePair) :=
    not_collides_of_nodup (by decide +kernel)
  have replaced : hashedFor sampleFork = hashedFor (samplePair.set 1 sampleFork[1]) := rfl
  intro collides
  apply distinct
  apply collides.mono
  apply List.append_subset.mpr
  constructor
  · exact List.subset_cons_self _ _
  · rw [replaced]
    exact hashedFor_set_subset Nat.one_ne_zero

theorem diverges_sampleFork :
    ¬Collides (hashedFor samplePair ++ hashedFor sampleFork) ∧
      divergence? samplePair sampleFork = some 1 ∧ Diverges samplePair sampleFork 1 := by
  have validFork : (verifyEvents sampleFork none).isValid = true :=
    verifyEvents_isValid_iff.mpr
      (ChainHead.admits_sealAll (.fresh "s") sampleTime [sampleRaw "a", sampleRaw "c"])
  obtain ⟨none_iff, places, _⟩ :=
    divergence_of_valid isValid_samplePair validFork not_collides_sampleFork
  have opening : samplePair[0] = sampleFork[0] := rfl
  have apart : samplePair[1].content.canonicalBytes ≠ sampleFork[1].content.canonicalBytes := by
    decide +kernel
  -- Where they part is told by the contents, with no hash to look at.
  cases found : divergence? samplePair sampleFork with
  | none =>
      have second := congrArg (·[1]?) (none_iff.mp found)
      exact absurd (Option.some.inj second) apart
  | some index =>
      have parts := places index found
      obtain rfl : index = 1 := by
        rcases Nat.lt_trichotomy index 1 with less | one | more
        · obtain rfl : index = 0 := by omega
          exact absurd (congrArg (·.content.canonicalBytes) opening) (parts.here _ rfl _ rfl)
        · exact one
        · exact absurd (parts.before 1 more _ rfl _ rfl) apart
      exact ⟨not_collides_sampleFork, rfl, parts⟩

end TraceDiff

end AuditTrail
