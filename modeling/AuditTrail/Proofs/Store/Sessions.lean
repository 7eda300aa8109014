import AuditTrail.Proofs.Chain.Sessions
import AuditTrail.Proofs.Chain.Tampering
import AuditTrail.Proofs.Store.Equivalence
import AuditTrail.Proofs.Store.ReadBack

/-!
Sessions in what a store verifies. A store reads what it holds under a session's name; a file may
hold events of another session, and a verdict on it is as valid as one on the original, except from
the start of the chain. Memory never does so, nor do files that have only been written by appends.
-/

namespace AuditTrail

namespace Store

open Chain

/-- The events that a verification of a store is about. -/
def examined {σ : Type} [Store σ] (store : σ) (session : String) (first last : UInt64) :
    Outcome (List SealedEvent) :=
  if last < first then .ok []
  else
    (readRange session (if first = 0 then 0 else first - 1) last store).map (Chain.examined first)

section

variable {σ : Type} [Store σ] {store : σ} {session : String} {first last : UInt64}
  {verdict : Verification}

theorem verify_cases (told : verify store session first last = .ok verdict) :
    (last < first ∧ verdict = ⟨session, 0, none, "", false⟩) ∨
    (¬last < first ∧ ∃ read,
      readRange session (if first = 0 then 0 else first - 1) last store = .ok read ∧
        verdict = verifyRange session first read) := by
  unfold verify at told
  split at told
  · rename_i crossed
    exact Or.inl ⟨crossed, (Except.ok.inj told).symm⟩
  · rename_i ranged
    simp only [bind, Except.bind, pure, Except.pure] at told
    split at told
    · cases told
    · rename_i read found
      exact Or.inr ⟨ranged, read, found, (Except.ok.inj told).symm⟩

theorem verify_of_readRange (ranged : ¬last < first) {read : List SealedEvent}
    (found : readRange session (if first = 0 then 0 else first - 1) last store = .ok read) :
    verify store session first last = .ok (verifyRange session first read) := by
  unfold verify
  rw [if_neg ranged]
  simp only [found]
  rfl

theorem examined_of_verify (told : verify store session first last = .ok verdict) :
    ∃ events, examined store session first last = .ok events ∧
      verdict.sessionId = session ∧ verdict.eventCount = events.length ∧
      (verdict.isValid = true → ∃ head : ChainHead, head.Admits events) := by
  rcases verify_cases told with ⟨crossed, rfl⟩ | ⟨ranged, read, found, rfl⟩
  · exact ⟨[], by rw [examined, if_pos crossed], rfl, rfl, fun _ => ⟨.fresh session, trivial⟩⟩
  · obtain ⟨named, counted⟩ := verifyRange_names session first read
    refine ⟨Chain.examined first read, ?_, named, counted, admits_of_verifyRange⟩
    rw [examined, if_neg ranged, found]
    rfl

end

/-- A valid verdict is about one session as far as each end of the events extends the beginning
before it, and what is read under a second name is valid for it too, unless from its start. -/
theorem session_of_valid {σ : Type} [Store σ] (store : σ) (session : String) (first last : UInt64)
    (events : List SealedEvent) (anchor : Option String) :
    ((verifyEvents events anchor).isValid = true →
      (OfSession (verifyEvents events anchor).sessionId events ↔ ExtendsThroughout events)) ∧
    ∀ verdict, verify store session first last = .ok verdict → verdict.isValid = true →
      ∃ read, examined store session first last = .ok read ∧
        verdict.sessionId = session ∧ verdict.eventCount = read.length ∧
        (OfSession session read ↔
          (∀ event ∈ read.head?, event.sessionId = session) ∧ ExtendsThroughout read) ∧
        ∀ other, (∀ low high, readRange other low high store = readRange session low high store) →
          ∃ copied, verify store other first last = .ok copied ∧ copied.sessionId = other ∧
            (copied.isValid = true ↔ first = 0 → read = [] ∨ genesis other = genesis session) := by
  refine ⟨ofSession_verifyEvents_iff, fun verdict told valid => ?_⟩
  obtain ⟨read, found, named, counted, admitted⟩ := examined_of_verify told
  obtain ⟨head, admits⟩ := admitted valid
  refine ⟨read, found, named, counted, ofSession_iff session admits, fun other copy => ?_⟩
  rcases verify_cases told with ⟨crossed, rfl⟩ | ⟨ranged, stored, inRange, rfl⟩
  · refine ⟨⟨other, 0, none, "", false⟩, by rw [verify, if_pos crossed], rfl, ?_⟩
    refine iff_of_true rfl fun zero => ?_
    subst zero
    exact absurd crossed UInt64.not_lt_zero
  · have copied := verify_of_readRange ranged ((copy _ _).trans inRange)
    obtain rfl : Chain.examined first stored = read := by
      rw [examined, if_neg ranged, inRange] at found
      exact Except.ok.inj found
    refine ⟨_, copied, (verifyRange_names other first stored).1, ?_⟩
    by_cases zero : first = 0
    · subst zero
      rw [verifyRange_zero_isValid_iff] at valid ⊢
      simpa [examined_zero] using admits_fresh_iff valid
    · obtain ⟨anchor, anchored⟩ := verifyRange_later zero stored
      rw [anchored] at valid ⊢
      rw [verifyAnchored_isValid_eq other session, valid]
      simp [zero]

/-! ### Stores that keep sessions apart -/

section

variable {session : String} {first last : UInt64} {read : List SealedEvent}

theorem ofSession_examined {σ : Type} [Store σ] {store : σ}
    (own : ∀ low high events, readRange session low high store = .ok events →
      OfSession session events)
    (found : examined store session first last = .ok read) : OfSession session read := by
  unfold examined at found
  split at found
  · cases found
    exact fun event member => absurd member List.not_mem_nil
  · cases stored : readRange session (if first = 0 then 0 else first - 1) last store with
    | error error =>
        rw [stored] at found
        cases found
    | ok events =>
        rw [stored] at found
        cases found
        exact fun event member => own _ _ _ stored event (mem_of_mem_examined member)

theorem ofSession_memory (store : MemoryStore)
    (found : examined store session first last = .ok read) : OfSession session read := by
  refine ofSession_examined (fun low high events stored => ?_) found
  obtain rfl := Except.ok.inj stored
  intro event member
  simp only [MemoryStore.session, List.mem_filter, decide_eq_true_eq] at member
  exact member.1.2

end

end Store

namespace LineFileStore

open Chain

theorem Mirrors.mem_load {files : LineFileStore} {memory : MemoryStore} {session : String}
    {events : List SealedEvent} (mirrors : Mirrors files memory)
    (loaded : files.load session = .ok events) : ∀ event ∈ events, event.sessionId = session := by
  have named := isFileName_of_load loaded
  by_cases short : (fileOf session).utf8ByteSize ≤ Directory.maxNameBytes
  · rw [mirrors.load ⟨named, short⟩] at loaded
    obtain rfl := Except.ok.inj loaded
    intro event member
    simpa using (List.mem_filter.mp member).2
  · have name : fileName session = .ok (fileOf session) := if_pos named
    have long : Directory.maxNameBytes < (fileOf session).utf8ByteSize := Nat.lt_of_not_le short
    have empty : files.load session = .ok [] := by
      simp [LineFileStore.load, name, bind, Except.bind, Directory.entry?, mirrors.present, long]
    rw [empty] at loaded
    cases loaded
    exact fun event member => absurd member List.not_mem_nil

/-- Files that only appends have written do not mix sessions. -/
theorem Mirrors.ofSession {files : LineFileStore} {memory : MemoryStore} {session : String}
    {first last : UInt64} {read : List SealedEvent} (mirrors : Mirrors files memory)
    (found : Store.examined files session first last = .ok read) : OfSession session read := by
  refine Store.ofSession_examined (fun low high events stored => ?_) found
  cases loaded : files.load session with
  | error error =>
      simp [Store.readRange, loaded, bind, Except.bind] at stored
  | ok all =>
      obtain rfl : all.filter (·.inRange low high) = events := by
        simpa [Store.readRange, loaded, bind, Except.bind, pure, Except.pure] using stored
      exact fun event member => mirrors.mem_load loaded event (List.mem_filter.mp member).1

def filesWith (sessions : List String) (events : List SealedEvent) : LineFileStore where
  directory := {
    path := "d"
    entries := sessions.map fun session => (fileOf session, .file (events.flatMap lineOf)) }

section

variable {sessions : List String} {session : String} {events : List SealedEvent}

theorem find?_filesWith (member : session ∈ sessions) (events : List SealedEvent) :
    (filesWith sessions events).directory.entries.find? (fileOf session) =
      some (.file (events.flatMap lineOf)) := by
  unfold filesWith
  induction sessions with
  | nil => cases member
  | cons first rest ih =>
      rw [List.map_cons, Table.find?]
      split
      · rfl
      · rename_i other
        refine ih ((List.mem_cons.mp member).resolve_left fun same => other ?_)
        rw [same]

theorem load_filesWith (nameable : Nameable session) (member : session ∈ sessions)
    (back : ∀ event ∈ events, ReadsBack event) :
    (filesWith sessions events).load session = .ok events := by
  have found := find?_filesWith member events
  have holds : (filesWith sessions events).directory.Holds (fileOf session) :=
    ⟨rfl, nameable.short, by rw [found]; nofun⟩
  rw [load_eq nameable.named holds, Directory.contentOf, found]
  exact decodeLines_lines back

theorem readRange_filesWith (nameable : Nameable session) (member : session ∈ sessions)
    (back : ∀ event ∈ events, ReadsBack event) (low high : UInt64) :
    Store.readRange session low high (filesWith sessions events) =
      .ok (events.filter (·.inRange low high)) := by
  show (do
    return (← (filesWith sessions events).load session).filter (SealedEvent.inRange low high)) = _
  rw [load_filesWith nameable member back]
  rfl

end

theorem readsBack_samplePair : ∀ event ∈ samplePair, ReadsBack event := by
  simp only [samplePair, ChainHead.sealAll, List.forall_mem_cons, readsBack_iff]
  exact ⟨⟨by decide, rfl⟩, ⟨by decide, rfl⟩, List.forall_mem_nil _⟩

theorem nameable_sample : ∀ session ∈ ["s", "t"], Nameable session := by
  simp only [List.forall_mem_cons]
  exact ⟨⟨by decide, by decide⟩, ⟨by decide, by decide⟩, List.forall_mem_nil _⟩

theorem ofSession_samplePair : OfSession "s" samplePair := by
  simp only [samplePair, ChainHead.sealAll, OfSession, List.forall_mem_cons]
  exact ⟨rfl, rfl, List.forall_mem_nil _⟩

def copiedFiles : LineFileStore :=
  filesWith ["s", "t"] samplePair

theorem readRange_copiedFiles {session : String} (member : session ∈ ["s", "t"])
    (low high : UInt64) : Store.readRange session low high copiedFiles =
      .ok (samplePair.filter (·.inRange low high)) :=
  readRange_filesWith (nameable_sample session member) member readsBack_samplePair low high

theorem verify_copiedFiles {session : String} (member : session ∈ ["s", "t"]) :
    Store.verify copiedFiles session 1 maxSequence = .ok (verifyRange session 1 samplePair) ∧
      Store.examined copiedFiles session 1 maxSequence = .ok samplePair.tail := by
  have all := readRange_copiedFiles member 0 maxSequence
  rw [List.filter_eq_self.mpr fun event _ => inRange_all event] at all
  refine ⟨Store.verify_of_readRange (by decide) all, ?_⟩
  rw [Store.examined, if_neg (by decide)]
  exact congrArg (Except.map (Chain.examined 1)) all

theorem isValid_samplePair_later (session : String) :
    (verifyRange session 1 samplePair).isValid = true := by
  have number : samplePair[0].sequenceNumber = 1 - 1 := by decide
  exact (verifyRange_anchored_isValid_iff (by decide) number).mpr
    (ChainHead.admits_sealAll (.after samplePair[0]) sampleTime [sampleRaw "b"])

theorem session_of_valid_copied :
    (verifyEvents samplePair none).isValid = true ∧ ExtendsThroughout samplePair ∧
      ∃ verdict copied, Store.verify copiedFiles "s" 1 maxSequence = .ok verdict ∧
        verdict.isValid = true ∧ verdict.eventCount = 1 ∧
        Store.verify copiedFiles "t" 1 maxSequence = .ok copied ∧ copied.sessionId = "t" ∧
        copied.isValid = true := by
  have law := Store.session_of_valid copiedFiles "s" 1 maxSequence samplePair none
  obtain ⟨told, found⟩ := @verify_copiedFiles "s" (by simp)
  have valid := isValid_samplePair_later "s"
  obtain ⟨read, examined, -, counted, -, copies⟩ := law.2 _ told valid
  obtain ⟨copied, toldOther, named, validOther⟩ := copies "t" fun low high => by
    rw [readRange_copiedFiles (by simp), readRange_copiedFiles (by simp)]
  have length : read.length = 1 := by rw [Except.ok.inj (examined.symm.trans found)]; rfl
  have whole : OfSession (verifyEvents samplePair none).sessionId samplePair := by
    rw [samplePair, ChainHead.sealAll, sessionId_verifyEvents]
    exact ofSession_samplePair
  exact ⟨isValid_samplePair, (law.1 isValid_samplePair).mp whole, _, copied, told, valid,
    counted.trans length, toldOther, named, validOther.mpr fun zero => absurd zero (by decide)⟩

def mixedPair : List SealedEvent :=
  ((ChainHead.fresh "s").sealAll sampleTime
    [sampleRaw "a", { sampleRaw "b" with sessionId := "t" }]).1

/-- Mixed events are valid, and so is a copy of another session's events. -/
theorem valid_of_other_session :
    ((verifyEvents mixedPair none).isValid = true ∧
      ¬OfSession (verifyEvents mixedPair none).sessionId mixedPair) ∧
    ∃ verdict read, Store.verify copiedFiles "t" 1 maxSequence = .ok verdict ∧
      verdict.isValid = true ∧ verdict.sessionId = "t" ∧
      Store.examined copiedFiles "t" 1 maxSequence = .ok read ∧ ¬OfSession "t" read := by
  have sealed := ChainHead.admits_sealAll (.fresh "s") sampleTime
    [sampleRaw "a", { sampleRaw "b" with sessionId := "t" }]
  have valid : (verifyEvents mixedPair none).isValid = true := verifyEvents_isValid_iff.mpr sealed
  obtain ⟨told, found⟩ := @verify_copiedFiles "t" (by simp)
  refine ⟨⟨valid, fun own => ?_⟩, verifyRange "t" 1 samplePair, samplePair.tail, told,
    isValid_samplePair_later "t", (verifyRange_names _ _ _).1, found, fun own => ?_⟩
  · have named : (verifyEvents mixedPair none).sessionId = "s" := sessionId_verifyEvents _ _ _
    rw [named] at own
    exact absurd (own mixedPair[1] (List.getElem_mem _)) (by decide)
  · exact absurd (own samplePair[1] List.mem_cons_self) (by decide)

end LineFileStore

end AuditTrail
