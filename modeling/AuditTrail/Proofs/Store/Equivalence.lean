import AuditTrail.Proofs.Chain.Links
import AuditTrail.Proofs.Store.Appending
import AuditTrail.Store.Memory

/-!
A store of line files and a store in memory give the same answers, whatever they are asked in
whatever order and however often the files are opened anew, as long as sessions have usable names
and the events that were taken in can be read back from their lines.
-/

namespace AuditTrail

inductive Request where
  | append (batch : List SealedEvent)
  | readRange (session : String) (first last : UInt64)
  | lastEvent (session : String)
  | eventCount (session : String)
  | sessionIds

inductive Reply where
  | taken (accepted : Bool)
  | events (outcome : Outcome (List SealedEvent))
  | last (outcome : Outcome (Option SealedEvent))
  | count (outcome : Outcome Nat)
  | sessions (outcome : Outcome (List String))

/-- Of a refused append only the refusal is told. -/
def Request.ask {σ : Type} [Store σ] (request : Request) (store : σ) : Reply × σ :=
  match request with
  | .append batch =>
    let (outcome, store) := Store.append batch store
    (.taken outcome.isOk, store)
  | .readRange session first last => (.events (Store.readRange session first last store), store)
  | .lastEvent session =>
    let (outcome, store) := Store.lastEvent session store
    (.last outcome, store)
  | .eventCount session => (.count (Store.eventCount session store), store)
  | .sessionIds => (.sessions (Store.sessionIds store), store)

theorem Request.ask_append {σ : Type} [Store σ] {batch : List SealedEvent} {store next : σ}
    {outcome : Outcome Unit} (appended : Store.append batch store = (outcome, next)) :
    (Request.append batch).ask store = (.taken outcome.isOk, next) := by
  rw [ask, appended]

namespace LineFileStore

structure Nameable (session : String) : Prop where
  named : isFileName session = true
  short : (fileOf session).utf8ByteSize ≤ Directory.maxNameBytes

structure Recordable (event : SealedEvent) : Prop where
  nameable : Nameable event.sessionId
  readsBack : ReadsBack event

def Answerable : Request → Prop
  | .append batch => ∀ event ∈ batch, Nameable event.sessionId
  | .readRange session _ _ => Nameable session
  | .lastEvent session => Nameable session
  | .eventCount session => Nameable session
  | .sessionIds => True

def takenIn (request : Request) (memory : MemoryStore) : List SealedEvent :=
  match request, (request.ask memory).1 with
  | .append batch, .taken true => batch
  | _, _ => []

def reopened (store : LineFileStore) : LineFileStore where
  directory := store.directory

/-- Files and memory that have been asked the same from the start. -/
inductive Paired (path : String) : LineFileStore → MemoryStore → Prop
  | fresh : Paired path { directory := { path } } {}
  | ask {files : LineFileStore} {memory : MemoryStore} (request : Request)
      (answerable : Answerable request)
      (readsBack : ∀ event ∈ takenIn request memory, ReadsBack event) :
      Paired path files memory → Paired path (request.ask files).2 (request.ask memory).2
  | reopen {files : LineFileStore} {memory : MemoryStore} : Paired path files memory →
      Paired path files.reopened memory

/-- The file of every session holds the lines of its events, there are no other files, and the
numbers that are remembered are right. -/
structure Mirrors (files : LineFileStore) (memory : MemoryStore) : Prop where
  present : files.directory.present = true
  contents : ∀ session, files.directory.contentOf (fileOf session) =
    (memory.session session).flatMap lineOf
  named : ∀ name, (files.directory.entries.find? name).isSome = true ↔
    ∃ session, name = fileOf session ∧ memory.session session ≠ []
  free : ∀ name, files.directory.entries.find? name ≠ some .directory
  counted : ∀ session next, files.nextSequence.find? session = some next →
    next = UInt64.ofNat (memory.session session).length
  recordable : ∀ event ∈ memory.events, Recordable event

theorem mirrors_fresh (path : String) : Mirrors { directory := { path } } {} where
  present := rfl
  contents _ := rfl
  named := by simp [MemoryStore.session]
  free := by simp
  counted := by simp
  recordable := by simp

section

variable {files : LineFileStore} {memory : MemoryStore} {session : String}

theorem Mirrors.reopen (mirrors : Mirrors files memory) : Mirrors files.reopened memory :=
  { mirrors with counted := by simp [reopened] }

theorem Mirrors.holds (mirrors : Mirrors files memory) (nameable : Nameable session) :
    files.directory.Holds (fileOf session) :=
  ⟨mirrors.present, nameable.short, mirrors.free _⟩

theorem Mirrors.load (mirrors : Mirrors files memory) (nameable : Nameable session) :
    files.load session = .ok (memory.session session) := by
  rw [load_eq nameable.named (mirrors.holds nameable), mirrors.contents]
  refine decodeLines_lines fun event member => ?_
  exact (mirrors.recordable event (List.mem_filter.mp member).1).readsBack

theorem sessionOf?_fileOf (filled : session ≠ "") : sessionOf? (fileOf session) = some session := by
  have chars : (fileOf session).toList = session.toList ++ ".jsonl".toList := by
    simp [fileOf, toString]
  have six : (session.toList ++ ".jsonl".toList).length - 6 = session.toList.length := by simp
  unfold sessionOf?
  simp only [chars, six, List.take_left', List.drop_left']
  simp [filled]

theorem fileOf_of_sessionOf? {name session : String} (told : sessionOf? name = some session) :
    name = fileOf session := by
  unfold sessionOf? at told
  simp only at told
  split at told
  · rename_i both
    simp only [Bool.and_eq_true, decide_eq_true_eq] at both
    obtain rfl := Option.some.inj told
    refine String.toList_inj.mp ?_
    simp only [fileOf, toString, String.toList_append, String.toList_ofList]
    conv_lhs => rw [← List.take_append_drop (name.toList.length - 6) name.toList, both.2]
  · cases told

theorem Nameable.ne_empty (nameable : Nameable session) : session ≠ "" := by
  rintro rfl
  cases nameable.named

theorem Mirrors.ne_empty (mirrors : Mirrors files memory) (some : memory.session session ≠ []) :
    session ≠ "" := by
  obtain ⟨event, rest, filtered⟩ := List.exists_cons_of_ne_nil some
  have member : event ∈ memory.session session := filtered ▸ List.mem_cons_self
  obtain ⟨inStore, own⟩ := List.mem_filter.mp member
  exact of_decide_eq_true own ▸ (mirrors.recordable event inStore).nameable.ne_empty

theorem Mirrors.sessionIds (mirrors : Mirrors files memory) :
    files.sessionIds = .ok (sortedDistinct (memory.events.map (·.sessionId))) := by
  unfold LineFileStore.sessionIds Directory.names
  simp only [mirrors.present, if_true]
  refine congrArg Except.ok (sortedDistinct_congr fun session => ?_)
  have known : session ∈ memory.events.map (·.sessionId) ↔ memory.session session ≠ [] := by
    simp [MemoryStore.session]
  rw [known, List.mem_filterMap]
  constructor
  · rintro ⟨name, member, told⟩
    obtain ⟨other, rfl, some⟩ := (mirrors.named name).mp (Table.isSome_find?_iff.mpr member)
    rw [sessionOf?_fileOf (mirrors.ne_empty some)] at told
    exact Option.some.inj told ▸ some
  · intro some
    exact ⟨fileOf session, Table.isSome_find?_iff.mp ((mirrors.named _).mpr ⟨session, rfl, some⟩),
      sessionOf?_fileOf (mirrors.ne_empty some)⟩

theorem ownEvents_cons (event : SealedEvent) (rest : List SealedEvent) (session : String) :
    ownEvents session (event :: rest) =
      if event.sessionId = session then event :: ownEvents session rest
      else ownEvents session rest := by
  by_cases same : event.sessionId = session <;> simp [ownEvents, same]

theorem checkContiguous_ok_iff (backend other : String) (next last : Table UInt64)
    (batch : List SealedEvent) : Store.checkContiguous backend next batch = .ok last ↔
      Store.checkContiguous other next batch = .ok last := by
  induction batch generalizing next with
  | nil => rfl
  | cons event rest ih =>
      simp only [Store.checkContiguous]
      split
      · simp
      · exact ih _

theorem ordered_checkContiguous {backend : String} {next last : Table UInt64}
    {batch : List SealedEvent} (ordered : next.Ordered)
    (checked : Store.checkContiguous backend next batch = .ok last) : last.Ordered := by
  induction batch generalizing next with
  | nil =>
      cases checked
      exact ordered
  | cons event rest ih =>
      simp only [Store.checkContiguous] at checked
      split at checked
      · cases checked
      · exact ih (ordered.insert _ _) checked

theorem find?_checkContiguous {backend : String} {next last : Table UInt64}
    {batch : List SealedEvent} (checked : Store.checkContiguous backend next batch = .ok last)
    (session : String) : last.find? session =
      if ownEvents session batch = [] then next.find? session
      else some ((next.find? session).getD 0 +
        UInt64.ofNat (ownEvents session batch).length) := by
  induction batch generalizing next with
  | nil =>
      cases checked
      rfl
  | cons event rest ih =>
      simp only [Store.checkContiguous] at checked
      split at checked
      · cases checked
      · rw [ih checked, Table.find?_insert, ownEvents_cons]
        by_cases same : event.sessionId = session
        · subst same
          rw [if_pos rfl, if_pos rfl, if_neg (List.cons_ne_nil _ _), List.length_cons]
          split
          · rename_i none
            simp [none]
          · simp [UInt64.ofNat_add, UInt64.add_assoc, UInt64.add_comm 1]
        · rw [if_neg (Ne.symm same), if_neg same]

def start (store : LineFileStore) (session : String) : Outcome UInt64 := do
  let _ ← fileName session
  match store.nextSequence.find? session with
  | some start => .ok start
  | none => (store.load session).map fun events => UInt64.ofNat events.length

theorem resolve_eq {store : LineFileStore} (count : String → UInt64) {batch : List SealedEvent}
    (known : ∀ event ∈ batch, store.start event.sessionId = .ok (count event.sessionId))
    {next : Table UInt64} (ordered : next.Ordered)
    (entered : ∀ session start, next.find? session = some start → start = count session) :
    store.resolve next batch = .ok (batch.foldl (fun table event =>
      table.insert event.sessionId (count event.sessionId)) next) := by
  induction batch generalizing next with
  | nil => rfl
  | cons event rest ih =>
      have tail : ∀ other ∈ rest, store.start other.sessionId = .ok (count other.sessionId) :=
        fun other member => known other (List.mem_cons_of_mem _ member)
      have first := known event List.mem_cons_self
      have added : next.insert event.sessionId (count event.sessionId) |>.Ordered :=
        ordered.insert _ _
      have enters : ∀ session start,
          (next.insert event.sessionId (count event.sessionId)).find? session = some start →
            start = count session := by
        intro session start found
        rw [Table.find?_insert] at found
        split at found
        · rename_i same
          rw [same, Option.some.inj found]
        · exact entered session start found
      rw [List.foldl_cons, resolve]
      split
      · rename_i contained
        obtain ⟨start, found⟩ := Option.isSome_iff_exists.mp contained
        obtain rfl := entered _ _ found
        rw [ordered.insert_eq_self found]
        exact ih tail ordered entered
      · unfold start at first
        cases named : fileName event.sessionId with
        | error error =>
            rw [named] at first
            cases first
        | ok name =>
            simp only [named, bind, Except.bind] at first ⊢
            cases remembered : store.nextSequence.find? event.sessionId with
            | some start =>
                simp only [remembered] at first ⊢
                obtain rfl := Except.ok.inj first
                exact ih tail added enters
            | none =>
                simp only [remembered] at first ⊢
                rw [first]
                exact ih tail added enters

theorem Mirrors.resolve (mirrors : Mirrors files memory) {batch : List SealedEvent}
    (nameable : ∀ event ∈ batch, Nameable event.sessionId) :
    files.resolve [] batch = .ok (memory.counts batch) := by
  refine resolve_eq (fun session => UInt64.ofNat (memory.session session).length) ?_
    Table.Ordered.nil (by simp)
  intro event member
  have nameable := nameable event member
  have name : fileName event.sessionId = .ok (fileOf event.sessionId) := if_pos nameable.named
  unfold start
  simp only [name, bind, Except.bind]
  cases remembered : files.nextSequence.find? event.sessionId with
  | some next => exact congrArg Except.ok (mirrors.counted _ _ remembered)
  | none =>
      rw [mirrors.load nameable]
      rfl

theorem ordered_counts (memory : MemoryStore) (batch : List SealedEvent) :
    (memory.counts batch).Ordered := by
  have listed : memory.counts batch = Table.ofList (batch.map fun event =>
      (event.sessionId, UInt64.ofNat (memory.session event.sessionId).length)) := by
    rw [MemoryStore.counts, Table.ofList, List.foldl_map]
  exact listed ▸ Table.ordered_ofList _

theorem find?_counts (memory : MemoryStore) (batch : List SealedEvent) (session : String) :
    (memory.counts batch).find? session =
      if ownEvents session batch = [] then none
      else some (UInt64.ofNat (memory.session session).length) := by
  have counts (table : Table UInt64) : Table.find? session (batch.foldl (fun table event =>
      table.insert event.sessionId
        (UInt64.ofNat (memory.session event.sessionId).length)) table) =
      if ownEvents session batch = [] then table.find? session
      else some (UInt64.ofNat (memory.session session).length) := by
    induction batch generalizing table with
    | nil => rfl
    | cons event rest ih =>
        rw [List.foldl_cons, ih, Table.find?_insert, ownEvents_cons]
        by_cases same : event.sessionId = session
        · subst same
          simp
        · rw [if_neg (Ne.symm same), if_neg same]
  exact counts []

theorem session_append (memory : MemoryStore) (batch : List SealedEvent) (session : String) :
    MemoryStore.session { memory with events := memory.events ++ batch } session =
      memory.session session ++ ownEvents session batch :=
  List.filter_append ..

theorem Mirrors.extend (mirrors : Mirrors files memory) {batch : List SealedEvent}
    (recordable : ∀ event ∈ batch, Recordable event) {last : Table UInt64}
    (checked : Store.checkContiguous "file" (memory.counts batch) batch = .ok last) :
    Mirrors
      { directory := written files.directory (linesBySession batch)
        nextSequence := last.foldl (fun table entry => table.insert entry.1 entry.2)
          files.nextSequence }
      { memory with events := memory.events ++ batch } := by
  have lines := ordered_linesBySession batch
  -- A file is one that has grown or one that is as it was.
  have entries (name : String) :
      (∃ session bytes, name = fileOf session ∧ ownEvents session batch ≠ [] ∧
        (written files.directory (linesBySession batch)).entries.find? name =
          some (.file bytes)) ∨
      ((∀ session, name = fileOf session → ownEvents session batch = []) ∧
        (written files.directory (linesBySession batch)).entries.find? name =
          files.directory.entries.find? name) := by
    by_cases grown : ∃ session, name = fileOf session ∧ ownEvents session batch ≠ []
    · obtain ⟨session, rfl, some⟩ := grown
      have found := find?_linesBySession batch session
      rw [if_neg some] at found
      exact Or.inl ⟨session, _, rfl, some, find?_written _ lines found⟩
    · have none : ∀ session, name = fileOf session → ownEvents session batch = [] := by
        intro session same
        by_contra some
        exact grown ⟨session, same, some⟩
      refine Or.inr ⟨none, find?_written_other _ fun entry member same => ?_⟩
      exact (mem_linesBySession_iff batch entry.1).mp ⟨entry.2, member⟩ (none _ same)
  refine ⟨?_, ?_, ?_, ?_, ?_, ?_⟩
  · rw [present_written, mirrors.present]
  · intro session
    rw [contentOf_written_lines, mirrors.contents, session_append, List.flatMap_append]
  · intro name
    rcases entries name with ⟨session, bytes, rfl, some, found⟩ | ⟨none, found⟩
    · rw [found]
      exact ⟨fun _ => ⟨session, rfl, by simp [session_append, some]⟩, fun _ => rfl⟩
    · rw [found, mirrors.named name]
      refine exists_congr fun session => and_congr_right fun same => ?_
      rw [session_append, none session same, List.append_nil]
  · intro name
    rcases entries name with ⟨session, bytes, rfl, _, found⟩ | ⟨_, found⟩
    · rw [found]
      simp
    · rw [found]
      exact mirrors.free name
  · intro session next found
    have ordered := ordered_checkContiguous (ordered_counts memory batch) checked
    rw [Table.find?_foldl_insert, ordered.lastOf_eq_find?, find?_checkContiguous checked,
      find?_counts] at found
    rw [session_append, List.length_append, UInt64.ofNat_add]
    by_cases none : ownEvents session batch = []
    · rw [if_pos none, if_pos none, Option.none_or] at found
      simp [none, ← mirrors.counted session next found]
    · rw [if_neg none, if_neg none] at found
      exact (Option.some.inj found).symm
  · exact fun event member => (List.mem_append.mp member).elim (mirrors.recordable event)
      (recordable event)

/-- Files and memory accept the same batches. -/
theorem Mirrors.append (mirrors : Mirrors files memory) {batch : List SealedEvent}
    (nameable : ∀ event ∈ batch, Nameable event.sessionId) :
    (∃ next, Store.append batch files = (.ok (), next) ∧
      Store.append batch memory = (.ok (), { memory with events := memory.events ++ batch }) ∧
      ((∀ event ∈ batch, ReadsBack event) →
        Mirrors next { memory with events := memory.events ++ batch })) ∨
    ∃ error other, Store.append batch files = (.error error, files) ∧
      Store.append batch memory = (.error other, memory) := by
  have resolved := mirrors.resolve nameable
  change (∃ next, LineFileStore.append batch files = _ ∧ MemoryStore.append batch memory = _ ∧ _) ∨
    ∃ error other, LineFileStore.append batch files = _ ∧ MemoryStore.append batch memory = _
  unfold LineFileStore.append MemoryStore.append
  cases checked : Store.checkContiguous "file" (memory.counts batch) batch with
  | error error =>
      refine Or.inr ?_
      cases again : Store.checkContiguous "in-memory" (memory.counts batch) batch with
      | error other => exact ⟨error, other, by simp [resolved, checked, bind, Except.bind], rfl⟩
      | ok last =>
          rw [(checkContiguous_ok_iff "in-memory" "file" _ last batch).mp again] at checked
          cases checked
  | ok last =>
      have holds : ∀ entry ∈ linesBySession batch, files.directory.Holds (fileOf entry.1) := by
        intro entry member
        obtain ⟨event, inBatch, own⟩ := exists_mem_of_line batch entry.1 member
        exact mirrors.holds (own ▸ nameable event inBatch)
      have other := (checkContiguous_ok_iff "file" "in-memory" _ last batch).mp checked
      refine Or.inl ⟨_, ?_, by rw [other], fun readsBack => mirrors.extend (fun event member =>
        ⟨nameable event member, readsBack event member⟩) checked⟩
      simp only [resolved, checked, writeAll_of_holds [] holds, bind, Except.bind]

theorem Mirrors.ask (mirrors : Mirrors files memory) {request : Request}
    (answerable : Answerable request) :
    (request.ask files).1 = (request.ask memory).1 ∧
      ((∀ event ∈ takenIn request memory, ReadsBack event) →
        Mirrors (request.ask files).2 (request.ask memory).2) ∧
      ((request.ask files).1 = .taken false →
        (request.ask files).2 = files ∧ (request.ask memory).2 = memory) := by
  cases request with
  | append batch =>
      rcases mirrors.append answerable with
        ⟨next, accepted, acceptedToo, extended⟩ | ⟨error, other, refused, refusedToo⟩
      · have takes : takenIn (.append batch) memory = batch := by
          unfold takenIn
          rw [Request.ask_append acceptedToo]
          rfl
        rw [Request.ask_append accepted, Request.ask_append acceptedToo, takes]
        exact ⟨rfl, extended, by simp [Except.isOk, Except.toBool]⟩
      · rw [Request.ask_append refused, Request.ask_append refusedToo]
        exact ⟨rfl, fun _ => mirrors, fun _ => ⟨rfl, rfl⟩⟩
  | readRange session first last =>
      have same : Store.readRange session first last files =
          Store.readRange session first last memory := by
        change (do return List.filter (SealedEvent.inRange first last) (← files.load session)) = _
        rw [mirrors.load answerable]
        rfl
      exact ⟨congrArg Reply.events same, fun _ => mirrors, by simp [Request.ask]⟩
  | lastEvent session =>
      have same : (Store.lastEvent session files).1 = (Store.lastEvent session memory).1 := by
        change (files.load session).map List.getLast? = _
        rw [mirrors.load answerable]
        rfl
      exact ⟨congrArg Reply.last same, fun _ => mirrors, by simp [Request.ask]⟩
  | eventCount session =>
      have same : Store.eventCount session files = Store.eventCount session memory := by
        change (files.load session).map List.length = _
        rw [mirrors.load answerable]
        rfl
      exact ⟨congrArg Reply.count same, fun _ => mirrors, by simp [Request.ask]⟩
  | sessionIds =>
      have same : Store.sessionIds files = Store.sessionIds memory := mirrors.sessionIds
      exact ⟨congrArg Reply.sessions same, fun _ => mirrors, by simp [Request.ask]⟩

theorem Paired.mirrors {path : String} (paired : Paired path files memory) :
    Mirrors files memory := by
  induction paired with
  | fresh => exact mirrors_fresh path
  | ask request answerable readsBack _ ih => exact (ih.ask answerable).2.1 readsBack
  | reopen _ ih => exact ih.reopen

/-- After the same requests, with the files opened anew at any time, files and memory answer any
further request alike, and a refused append changes neither. -/
theorem replies_eq_of_paired {path : String} (paired : Paired path files memory)
    {request : Request} (answerable : Answerable request) :
    (request.ask files).1 = (request.ask memory).1 ∧
      ((request.ask files).1 = .taken false →
        (request.ask files).2 = files ∧ (request.ask memory).2 = memory) := by
  obtain ⟨same, _, unchanged⟩ := paired.mirrors.ask answerable
  exact ⟨same, unchanged⟩

theorem recordable_sampleSealed {session : String} (nameable : Nameable session)
    (sequence : UInt64) : Recordable (sampleSealed session sequence) :=
  ⟨nameable, readsBack_iff.mpr ⟨shallow_sampleSealed session sequence, rfl⟩⟩

theorem Paired.append {path : String} {batch : List SealedEvent} (paired : Paired path files memory)
    (recordable : ∀ event ∈ batch, Recordable event) :
    Paired path ((Request.append batch).ask files).2 ((Request.append batch).ask memory).2 := by
  refine .ask _ (fun event member => (recordable event member).nameable) ?_ paired
  intro event member
  unfold takenIn at member
  split at member
  · rename_i same _
    cases same
    exact (recordable event member).readsBack
  · cases member

theorem replies_of_reopened :
    let opened : LineFileStore := { directory := { path := "d" } }
    let started := ((Request.append [sampleSealed "s" 0]).ask opened).2
    let files := ((Request.append [sampleSealed "r" 0, sampleSealed "s" 1]).ask started.reopened).2
    ((Request.readRange "s" 0 9).ask files).1 =
        .events (.ok [sampleSealed "s" 0, sampleSealed "s" 1]) ∧
      ((Request.append [sampleSealed "s" 1]).ask files).1 = .taken false ∧
      ((Request.append [sampleSealed "s" 1]).ask files).2 = files := by
  intro opened started files
  have s : Nameable "s" := ⟨rfl, by decide⟩
  have r : Nameable "r" := ⟨rfl, by decide⟩
  have first := recordable_sampleSealed s 0
  have later := recordable_sampleSealed s 1
  have other := recordable_sampleSealed r 0
  let before : MemoryStore := { events := [sampleSealed "s" 0] }
  let memory : MemoryStore :=
    { events := [sampleSealed "s" 0, sampleSealed "r" 0, sampleSealed "s" 1] }
  have alone : Paired "d" started before :=
    Paired.append .fresh (List.forall_mem_singleton.mpr first)
  have paired : Paired "d" files memory :=
    Paired.append alone.reopen
      (List.forall_mem_cons.mpr ⟨other, List.forall_mem_singleton.mpr later⟩)
  have told : ((Request.readRange "s" 0 9).ask memory).1 =
      .events (.ok [sampleSealed "s" 0, sampleSealed "s" 1]) := rfl
  have refuses : ((Request.append [sampleSealed "s" 1]).ask memory).1 = .taken false := rfl
  have read := replies_eq_of_paired paired (show Answerable (.readRange "s" 0 9) from s)
  have refused := replies_eq_of_paired paired (show Answerable (.append [sampleSealed "s" 1]) from
    List.forall_mem_singleton.mpr later.nameable)
  have reply := refused.1.trans refuses
  exact ⟨read.1.trans told, reply, (refused.2 reply).1⟩

end

end LineFileStore

end AuditTrail
