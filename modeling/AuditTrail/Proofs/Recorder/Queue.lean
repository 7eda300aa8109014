import AuditTrail.Proofs.Chain.Links
import AuditTrail.Recorder.Queue

/-!
The queue under any sequence of pushes and drains. What was drained and what is still queued are
together the events that were taken, in their order, and the counters tell how many these are.
-/

namespace AuditTrail.EventQueue

/-- A push that may wait for room makes attempts, which leave a full queue as it is; the attempt it
gives up at is a `push`. -/
inductive Request where
  | attempt (raw : RawEvent)
  | push (raw : RawEvent)
  | drain (limit : Nat)

inductive Reply where
  | took
  | waits
  | refused (raw : RawEvent)
  | drained (batch : List RawEvent)

def answer (queue : EventQueue) : Request → Reply × EventQueue
  | .attempt raw => if queue.isFull then (.waits, queue) else (.took, (queue.push raw).2)
  | .push raw =>
    match queue.push raw with
    | (.ok (), next) => (.took, next)
    | (.error back, next) => (.refused back, next)
  | .drain limit => (.drained (queue.drain limit).1, (queue.drain limit).2)

abbrev Log := List (Request × Reply)

def serve (queue : EventQueue) : List Request → Log × EventQueue
  | [] => ([], queue)
  | request :: rest =>
    let (reply, next) := queue.answer request
    let (log, last) := next.serve rest
    ((request, reply) :: log, last)

def takenBy : Request × Reply → List RawEvent
  | (.attempt raw, .took) => [raw]
  | (.push raw, .took) => [raw]
  | _ => []

def drainedBy : Request × Reply → List RawEvent
  | (_, .drained batch) => batch
  | _ => []

def refusedBy : Request × Reply → List RawEvent
  | (_, .refused raw) => [raw]
  | _ => []

def Log.taken (log : Log) : List RawEvent := log.flatMap takenBy

def Log.drained (log : Log) : List RawEvent := log.flatMap drainedBy

def Log.refused (log : Log) : List RawEvent := log.flatMap refusedBy

theorem Log.taken_concat (log : Log) (turn : Request × Reply) :
    Log.taken (log ++ [turn]) = log.taken ++ takenBy turn := by
  rw [taken, List.flatMap_append, List.flatMap_singleton]
  rfl

theorem Log.drained_concat (log : Log) (turn : Request × Reply) :
    Log.drained (log ++ [turn]) = log.drained ++ drainedBy turn := by
  rw [drained, List.flatMap_append, List.flatMap_singleton]
  rfl

theorem Log.refused_concat (log : Log) (turn : Request × Reply) :
    Log.refused (log ++ [turn]) = log.refused ++ refusedBy turn := by
  rw [refused, List.flatMap_append, List.flatMap_singleton]
  rfl

/-- The queue and its counters tell what the requests so far have done. -/
structure Accounts (queue : EventQueue) (log : Log) : Prop where
  ordered : log.drained ++ queue.entries = log.taken
  bounded : queue.size ≤ queue.capacity
  pushed : queue.totalPushed = log.taken.length
  drained : queue.totalDrained = log.drained.length
  rejected : queue.rejected = log.refused.length

structure Served (queue : EventQueue) (turn : Request × Reply) (next : EventQueue) : Prop where
  ordered : drainedBy turn ++ next.entries = queue.entries ++ takenBy turn
  capacity : next.capacity = queue.capacity
  pushed : next.totalPushed = queue.totalPushed + (takenBy turn).length
  drained : next.totalDrained = queue.totalDrained + (drainedBy turn).length
  rejected : next.rejected = queue.rejected + (refusedBy turn).length

variable {queue next : EventQueue} {log : Log}

theorem isFull_of_room (room : queue.size < queue.capacity) : queue.isFull = false := by
  simpa [isFull] using room

theorem push_of_room (room : queue.size < queue.capacity) (raw : RawEvent) :
    queue.push raw = (.ok (), { queue with
      entries := queue.entries ++ [raw]
      totalPushed := queue.totalPushed + 1 }) := by
  simp [push, isFull_of_room room]

theorem push_of_full (full : queue.size = queue.capacity) (raw : RawEvent) :
    queue.push raw = (.error raw, { queue with rejected := queue.rejected + 1 }) := by
  have isFull : queue.isFull = true := by
    simp [isFull, full]
  simp [push, isFull]

theorem answer_of_room (room : queue.size < queue.capacity) (raw : RawEvent) :
    queue.answer (.attempt raw) = (.took, (queue.push raw).2) ∧
      queue.answer (.push raw) = (.took, (queue.push raw).2) := by
  constructor
  · simp [answer, isFull_of_room room]
  · simp [answer, push_of_room room]

theorem answer_of_full (full : queue.size = queue.capacity) (raw : RawEvent) :
    queue.answer (.attempt raw) = (.waits, queue) ∧
      queue.answer (.push raw) =
        (.refused raw, { queue with rejected := queue.rejected + 1 }) := by
  constructor
  · simp [answer, isFull, full]
  · simp [answer, push_of_full full]

theorem length_drain (limit : Nat) (queue : EventQueue) :
    (queue.drain limit).1.length = min limit queue.size := by
  simp [drain, size]

theorem served_of_room (room : queue.size < queue.capacity) {raw : RawEvent} {request : Request}
    (took : takenBy (request, .took) = [raw]) :
    queue.Served (request, .took) (queue.push raw).2 ∧
      (queue.push raw).2.size ≤ queue.capacity := by
  rw [push_of_room room]
  refine ⟨⟨?_, rfl, ?_, rfl, rfl⟩, ?_⟩
  · rw [took]
    rfl
  · rw [took]
    rfl
  · rw [size, List.length_append]
    exact room

theorem served_answer (bounded : queue.size ≤ queue.capacity) (request : Request) :
    queue.Served (request, (queue.answer request).1) (queue.answer request).2 ∧
      (queue.answer request).2.size ≤ queue.capacity := by
  cases request with
  | attempt raw =>
      rcases Nat.lt_or_eq_of_le bounded with room | full
      · rw [(answer_of_room room raw).1]
        exact served_of_room room rfl
      · rw [(answer_of_full full raw).1]
        exact ⟨⟨(List.append_nil _).symm, rfl, rfl, rfl, rfl⟩, bounded⟩
  | push raw =>
      rcases Nat.lt_or_eq_of_le bounded with room | full
      · rw [(answer_of_room room raw).2]
        exact served_of_room room rfl
      · rw [(answer_of_full full raw).2]
        exact ⟨⟨(List.append_nil _).symm, rfl, rfl, rfl, rfl⟩, bounded⟩
  | drain limit =>
      have parted : queue.entries.take limit ++ queue.entries.drop limit = queue.entries ++ [] := by
        rw [List.take_append_drop, List.append_nil]
      have shorter : (queue.entries.drop limit).length ≤ queue.entries.length := by
        rw [List.length_drop]
        omega
      exact ⟨⟨parted, rfl, rfl, rfl, rfl⟩, Nat.le_trans shorter bounded⟩

theorem Accounts.extend (accounts : queue.Accounts log) {turn : Request × Reply}
    (served : queue.Served turn next) (bounded : next.size ≤ queue.capacity) :
    next.Accounts (log ++ [turn]) where
  ordered := by
    rw [Log.drained_concat, Log.taken_concat, List.append_assoc, served.ordered,
      ← List.append_assoc, accounts.ordered]
  bounded := by rwa [served.capacity]
  pushed := by rw [served.pushed, accounts.pushed, Log.taken_concat, List.length_append]
  drained := by rw [served.drained, accounts.drained, Log.drained_concat, List.length_append]
  rejected := by rw [served.rejected, accounts.rejected, Log.refused_concat, List.length_append]

theorem Accounts.serve (accounts : queue.Accounts log) (requests : List Request) :
    (queue.serve requests).2.Accounts (log ++ (queue.serve requests).1) ∧
      (queue.serve requests).2.capacity = queue.capacity := by
  induction requests generalizing queue log with
  | nil => exact ⟨by simpa [EventQueue.serve] using accounts, rfl⟩
  | cons request rest ih =>
      obtain ⟨served, bounded⟩ := served_answer accounts.bounded request
      have answered := accounts.extend served bounded
      obtain ⟨later, same⟩ := ih answered
      refine ⟨?_, same.trans served.capacity⟩
      rw [List.append_assoc] at later
      exact later

theorem Accounts.totals (accounts : queue.Accounts log) :
    queue.totalPushed = queue.totalDrained + queue.size := by
  have lengths := congrArg List.length accounts.ordered
  rw [List.length_append] at lengths
  rw [accounts.pushed, accounts.drained, ← lengths, size]

def Request.turnedAway : Request → Reply
  | .attempt _ => .waits
  | .push raw => .refused raw
  | .drain _ => .drained []

/-- Without a drain no room is made in a full queue: who waits does so in vain. -/
theorem serve_of_full (full : queue.size = queue.capacity) (requests : List Request)
    (undrained : ∀ limit, Request.drain limit ∉ requests) :
    (queue.serve requests).1 = requests.map (fun request => (request, request.turnedAway)) := by
  induction requests generalizing queue with
  | nil => rfl
  | cons request rest ih =>
      have later : ∀ limit, Request.drain limit ∉ rest := by
        intro limit member
        exact undrained limit (List.mem_cons_of_mem _ member)
      cases request with
      | attempt raw =>
          simp [EventQueue.serve, (answer_of_full full raw).1, ih full later, Request.turnedAway]
      | push raw =>
          let rejecting : EventQueue := { queue with rejected := queue.rejected + 1 }
          have refused : (rejecting.serve rest).1 = _ := ih full later
          simp [EventQueue.serve, (answer_of_full full raw).2, refused, rejecting, Request.turnedAway]
      | drain limit => exact absurd List.mem_cons_self (undrained limit)

/-- How the queue answers the next request. While it is full and nobody drains it, no push gets in,
however often it is tried again. -/
structure Answers (queue : EventQueue) : Prop where
  refuses : ∀ raw, (queue.push raw).1 = .error raw ↔ queue.size = queue.capacity
  unchanged : queue.size = queue.capacity → ∀ raw,
    (queue.push raw).2 = { queue with rejected := queue.rejected + 1 }
  takes : queue.size ≠ queue.capacity → ∀ raw,
    queue.push raw = (.ok (), { queue with
      entries := queue.entries ++ [raw]
      totalPushed := queue.totalPushed + 1 })
  waits : queue.size = queue.capacity → ∀ requests, (∀ limit, Request.drain limit ∉ requests) →
    (queue.serve requests).1 = requests.map (fun request => (request, request.turnedAway))
  drains : ∀ limit, (queue.drain limit).1 = queue.entries.take limit ∧
    (queue.drain limit).1.length = min limit queue.size

theorem answers_of_bounded (bounded : queue.size ≤ queue.capacity) : queue.Answers where
  refuses raw := by
    rcases Nat.lt_or_eq_of_le bounded with room | full
    · simp [push_of_room room, Nat.ne_of_lt room]
    · simp [push_of_full full, full]
  unchanged full raw := by rw [push_of_full full]
  takes differs raw := push_of_room (Nat.lt_of_le_of_ne bounded differs) raw
  waits full requests undrained := serve_of_full full requests undrained
  drains limit := ⟨rfl, queue.length_drain limit⟩

theorem accounts_of_empty? {capacity : Nat} {policy : OverflowPolicy} {first : EventQueue}
    (made : empty? capacity policy = some first) : first.Accounts [] := by
  unfold empty? at made
  split at made
  · obtain rfl := Option.some.inj made
    exact ⟨rfl, Nat.zero_le _, rfl, rfl, rfl⟩
  · cases made

theorem requests_accounted {capacity : Nat} (positive : 0 < capacity) (policy : OverflowPolicy)
    (requests : List Request) :
    ∃ first, empty? capacity policy = some first ∧
      (first.serve requests).2.capacity = capacity ∧
      (first.serve requests).2.Accounts (first.serve requests).1 ∧
      (first.serve requests).2.totalPushed =
        (first.serve requests).2.totalDrained + (first.serve requests).2.size ∧
      (first.serve requests).2.Answers := by
  have made : empty? capacity policy = some { capacity, policy, capacity_pos := positive } :=
    dif_pos positive
  obtain ⟨accounts, same⟩ := (accounts_of_empty? made).serve requests
  exact ⟨_, made, same, accounts, accounts.totals, answers_of_bounded accounts.bounded⟩

def sampleRequests : List Request :=
  [.push (sampleRaw "a"), .push (sampleRaw "b"), .attempt (sampleRaw "c"), .push (sampleRaw "d"),
    .drain 1, .attempt (sampleRaw "c"), .drain 5]

theorem sampleRequests_accounted :
    0 < 2 ∧ ∃ first, empty? 2 (.block 10) = some first ∧
      (first.serve sampleRequests).1.map (·.2) =
        [.took, .took, .waits, .refused (sampleRaw "d"), .drained [sampleRaw "a"], .took,
          .drained [sampleRaw "b", sampleRaw "c"]] ∧
      (first.serve sampleRequests).2.Accounts (first.serve sampleRequests).1 := by
  refine ⟨by decide, ?_⟩
  obtain ⟨first, made, -, accounts, -⟩ :=
    requests_accounted (by decide : 0 < 2) (.block 10) sampleRequests
  refine ⟨first, made, ?_, accounts⟩
  obtain rfl := Option.some.inj made
  rfl

end AuditTrail.EventQueue
