import AuditTrail.Proofs.Canonical
import AuditTrail.Proofs.Chain.Links
import AuditTrail.Proofs.Digest
import Mathlib.Data.List.Forall2
import Mathlib.Data.List.Induction

/-!
A chain is fixed by its last hash. Going back from equal last hashes, either every event of two
valid chains is hashed from the same bytes, or the two chains hash different bytes to one digest.
Nothing is assumed of the hash.
-/

namespace AuditTrail

def openingBytes (key : String) : List UInt8 :=
  Utf8.encodeChars ('\x7b' :: quote key)

theorem canonicalBytes_genesisSeed (session : String) :
    openingBytes "genesis" <+: (genesisSeed session).canonicalBytes := by
  refine Json.canonicalBytes_object ?_ ?_
  · simp
  · simp only [List.map_cons, List.map_nil]
    decide

namespace SealedEvent

theorem canonicalBytes_content (event : SealedEvent) :
    openingBytes "actor" <+: event.content.canonicalBytes := by
  refine Json.canonicalBytes_object ?_ ?_
  · simp
  · simp only [List.map_cons, List.map_nil]
    decide

theorem preimage_ne_genesisSeed (event : SealedEvent) (previous session : String) :
    event.preimage previous ≠ (genesisSeed session).canonicalBytes := by
  intro same
  have content : openingBytes "actor" <+: (genesisSeed session).canonicalBytes :=
    same ▸ event.canonicalBytes_content.trans (List.prefix_append _ _)
  have both : openingBytes "actor" <+: openingBytes "genesis" :=
    List.prefix_of_prefix_length_le content (canonicalBytes_genesisSeed session) (by decide)
  exact absurd both (by decide)

theorem preimage_inj {event other : SealedEvent} {first second : List UInt8}
    (same : event.preimage (Sha256.hexDigest first) = other.preimage (Sha256.hexDigest second)) :
    event.content.canonicalBytes = other.content.canonicalBytes ∧
      Sha256.hexDigest first = Sha256.hexDigest second := by
  have lengths : (Utf8.encode (Sha256.hexDigest first)).length =
      (Utf8.encode (Sha256.hexDigest second)).length := by
    rw [Sha256.length_utf8_hexDigest, Sha256.length_utf8_hexDigest]
  obtain ⟨content, previous⟩ := List.append_inj' same lengths
  exact ⟨content, Utf8.encode_injective previous⟩

def hashedBytes (event : SealedEvent) : List UInt8 :=
  event.preimage event.previousEventHash

/-- Two events that are hashed from the same content behind the same hash. -/
structure SameLink (event other : SealedEvent) : Prop where
  content : event.content.canonicalBytes = other.content.canonicalBytes
  previous : event.previousEventHash = other.previousEventHash
  hash : event.eventHash = other.eventHash

end SealedEvent

/-- Two different byte strings of a list with one digest. -/
def Collides (inputs : List (List UInt8)) : Prop :=
  ∃ first ∈ inputs, ∃ second ∈ inputs, first ≠ second ∧ Sha256.hash first = Sha256.hash second

theorem Collides.mono {inputs more : List (List UInt8)} (collides : Collides inputs)
    (fewer : inputs ⊆ more) : Collides more := by
  obtain ⟨first, inFirst, second, inSecond, different, same⟩ := collides
  exact ⟨first, fewer inFirst, second, fewer inSecond, different, same⟩

namespace Chain

open ChainHead SealedEvent

/-- Everything that is hashed for a session's chain, its genesis seed first. -/
def hashedFrom (session : String) (events : List SealedEvent) : List (List UInt8) :=
  (genesisSeed session).canonicalBytes :: events.map SealedEvent.hashedBytes

theorem hashedFrom_append_subset (session : String) (events more : List SealedEvent) :
    hashedFrom session events ⊆ hashedFrom session (events ++ more) := by
  simp only [hashedFrom, List.map_append]
  exact List.cons_subset_cons _ (List.subset_append_left _ _)

section

variable {session : String} {events : List SealedEvent} {last : SealedEvent}

theorem admits_concat (admits : (fresh session).Admits (events ++ [last])) :
    (fresh session).Admits events ∧ last.previousEventHash = ((fresh session).past events).hash ∧
      last.eventHash = Sha256.hexDigest last.hashedBytes := by
  obtain ⟨before, final⟩ := (admits_append _ _ _).mp admits
  obtain ⟨_, link, hash⟩ := faultOf_eq_none_iff.mp final.1
  exact ⟨before, link, hash.symm⟩

theorem past_concat : ((fresh session).past (events ++ [last])).hash = last.eventHash := by
  rw [past_append]
  rfl

theorem exists_digest_past (admits : (fresh session).Admits events) :
    ∃ input, ((fresh session).past events).hash = Sha256.hexDigest input := by
  induction events using List.reverseRecOn with
  | nil => exact ⟨_, rfl⟩
  | append_singleton events last _ =>
      rw [past_concat]
      exact ⟨_, (admits_concat admits).2.2⟩

end

theorem collides_of_genesis {session other : String} {events : List SealedEvent}
    {last : SealedEvent} (admits : (fresh session).Admits (events ++ [last]))
    (same : last.eventHash = genesis other) :
    Collides (hashedFrom session (events ++ [last]) ++ hashedFrom other []) := by
  obtain ⟨_, _, hash⟩ := admits_concat admits
  refine ⟨last.hashedBytes, ?_, (genesisSeed other).canonicalBytes, ?_,
    last.preimage_ne_genesisSeed _ _, ?_⟩
  · simp [hashedFrom]
  · simp [hashedFrom]
  · exact Sha256.hash_eq_of_hexDigest_eq (hash.symm.trans same)

theorem sameLinks_or_collides {session other : String} {events others : List SealedEvent}
    (admits : (fresh session).Admits events) (admitsOther : (fresh other).Admits others)
    (same : ((fresh session).past events).hash = ((fresh other).past others).hash) :
    List.Forall₂ SameLink events others ∨
      Collides (hashedFrom session events ++ hashedFrom other others) := by
  -- Backward over both chains at once: equal last hashes come from equal bytes or collide, and
  -- equal bytes end in equal hashes one event earlier.
  induction events using List.reverseRecOn generalizing others with
  | nil =>
      cases others using List.reverseRecOn with
      | nil => exact Or.inl List.Forall₂.nil
      | append_singleton rest last =>
          rw [past_concat] at same
          refine Or.inr ((collides_of_genesis admitsOther same.symm).mono ?_)
          exact (List.perm_append_comm).subset
  | append_singleton before last ih =>
      rw [past_concat] at same
      cases others using List.reverseRecOn with
      | nil => exact Or.inr (collides_of_genesis admits same)
      | append_singleton rest final =>
          rw [past_concat] at same
          obtain ⟨chain, link, hash⟩ := admits_concat admits
          obtain ⟨chainOther, linkOther, hashOther⟩ := admits_concat admitsOther
          by_cases equal : last.hashedBytes = final.hashedBytes
          · obtain ⟨input, digest⟩ := exists_digest_past chain
            obtain ⟨inputOther, digestOther⟩ := exists_digest_past chainOther
            rw [hashedBytes, hashedBytes, link, linkOther, digest, digestOther] at equal
            obtain ⟨content, previous⟩ := preimage_inj equal
            rw [← digest, ← digestOther] at previous
            rcases ih chain chainOther previous with linked | collides
            · refine Or.inl (List.rel_append linked (List.Forall₂.cons ?_ List.Forall₂.nil))
              exact ⟨content, by rw [link, linkOther, previous], same⟩
            · refine Or.inr (collides.mono (List.append_subset.mpr ⟨?_, ?_⟩))
              · exact List.subset_append_of_subset_left _ (hashedFrom_append_subset _ _ _)
              · exact List.subset_append_of_subset_right _ (hashedFrom_append_subset _ _ _)
          · refine Or.inr ⟨last.hashedBytes, by simp [hashedFrom], final.hashedBytes,
              by simp [hashedFrom], equal, ?_⟩
            exact Sha256.hash_eq_of_hexDigest_eq (by rw [← hash, ← hashOther, same])

theorem verifyEvents_isValid_iff {first : SealedEvent} {rest : List SealedEvent} :
    (verifyEvents (first :: rest) none).isValid = true ↔
      (fresh first.sessionId).Admits (first :: rest) :=
  verifyAnchored_genesis_isValid_iff

def hashedFor : List SealedEvent → List (List UInt8)
  | [] => []
  | first :: rest => hashedFrom first.sessionId (first :: rest)

structure SameChain (events others : List SealedEvent) : Prop where
  length : events.length = others.length
  link : ∀ index (bound : index < events.length) (otherBound : index < others.length),
    SameLink events[index] others[index]

/-- Two valid chains with the same last hash have the same length and the same content and hashes
at every index, or there is a collision among the bytes that are hashed for them. -/
theorem sameChain_or_collides {events others : List SealedEvent} (nonempty : events ≠ [])
    (otherNonempty : others ≠ []) (valid : (verifyEvents events none).isValid = true)
    (otherValid : (verifyEvents others none).isValid = true)
    (same : (events.getLast nonempty).eventHash = (others.getLast otherNonempty).eventHash) :
    SameChain events others ∨ Collides (hashedFor events ++ hashedFor others) := by
  obtain ⟨first, rest, rfl⟩ := List.exists_cons_of_ne_nil nonempty
  obtain ⟨other, more, rfl⟩ := List.exists_cons_of_ne_nil otherNonempty
  have ends : ((fresh first.sessionId).past (first :: rest)).hash =
      ((fresh other.sessionId).past (other :: more)).hash := by
    rw [past_of_getLast? (List.getLast?_eq_some_getLast nonempty),
      past_of_getLast? (List.getLast?_eq_some_getLast otherNonempty)]
    exact same
  rcases sameLinks_or_collides (verifyEvents_isValid_iff.mp valid)
    (verifyEvents_isValid_iff.mp otherValid) ends with linked | collides
  · obtain ⟨length, links⟩ := List.forall₂_iff_get.mp linked
    exact Or.inl ⟨length, links⟩
  · exact Or.inr collides

def numberRaw (number : Number) : RawEvent :=
  { sampleRaw "a" with payload := .number number }

def numberChain (first second : Number) : List SealedEvent :=
  ((fresh "s").sealAll sampleTime [numberRaw first, numberRaw second]).1

theorem isValid_numberChain (first second : Number) :
    (verifyEvents (numberChain first second) none).isValid = true :=
  verifyEvents_isValid_iff.mpr
    (admits_sealAll (fresh "s") sampleTime [numberRaw first, numberRaw second])

def integerZeros : List SealedEvent :=
  numberChain (.ofNat 0) (.ofNat 0)

def floatZeros : List SealedEvent :=
  numberChain (.float (.zero false)) (.float (.zero true))

theorem sameChain_of_zeros :
    SameChain integerZeros floatZeros ∨
      Collides (hashedFor integerZeros ++ hashedFor floatZeros) :=
  sameChain_or_collides (List.cons_ne_nil _ _) (List.cons_ne_nil _ _) (isValid_numberChain _ _)
    (isValid_numberChain _ _) rfl

end Chain

end AuditTrail
