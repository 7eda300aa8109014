import AuditTrail.Proofs.Chain.Links
import AuditTrail.Recorder.Basic
import Mathlib.Data.List.Infix

/-!
Flush tickets while events are pushed, flushes are requested and cancelled, and cycles begin and end
in any order. A ticket is complete exactly if a cycle that began after it was drawn has ended. What
was queued before it has left the queue by then, unless the worker was stopped in between: that
drops the tickets that wait, and then a cycle may complete them that drains one batch only.
-/

namespace AuditTrail

/-- How far a cycle has come; only one can be under way. -/
inductive Phase where
  | idle
  | begun (flush : Bool)
  | measured (limit : Nat)
  | drained

/-- What flushes are about: the queue, the tickets and the cycle that is under way. -/
structure Desk where
  batchSize : Nat
  queue : EventQueue
  tickets : Tickets := {}
  phase : Phase := .idle

/-- What can happen. The begin of a cycle tells whether it drains the whole queue, as one does that
is told to or finds tickets waiting; a drain tells what it takes. -/
inductive Act where
  | push (raw : RawEvent)
  | request
  | cancel (ticket : Nat)
  | begin (flush : Bool)
  | measure
  | drain (batch : List RawEvent)
  | finish
  | stop
  | restart

namespace Act

def Begun : List Act → Prop
  | [] => False
  | .begin _ :: _ => True
  | _ :: rest => Begun rest

def Ended : List Act → Prop
  | [] => False
  | .begin _ :: rest => .finish ∈ rest
  | _ :: rest => Ended rest

def Limited : List Act → Prop
  | [] => False
  | .begin flush :: _ => flush = false
  | _ :: rest => Limited rest

/-- Before any cycle the worker was stopped or the ticket taken back. -/
def Dropped (ticket : Nat) : List Act → Prop
  | [] => False
  | .begin _ :: _ => False
  | .stop :: _ => True
  | .cancel other :: rest => other = ticket ∨ Dropped ticket rest
  | _ :: rest => Dropped ticket rest

def taken : Act → List RawEvent
  | .drain batch => batch
  | _ => []

def left (acts : List Act) : List RawEvent :=
  acts.flatMap taken

section

variable {acts : List Act} {act : Act} {ticket : Nat}

theorem begun_concat : Begun (acts ++ [act]) ↔ Begun acts ∨ ∃ flush, act = .begin flush := by
  induction acts with
  | nil => cases act <;> simp [Begun]
  | cons first rest ih => cases first <;> simp [Begun, ih]

theorem ended_concat : Ended (acts ++ [act]) ↔ Ended acts ∨ Begun acts ∧ act = .finish := by
  induction acts with
  | nil => cases act <;> simp [Ended, Begun]
  | cons first rest ih => cases first <;> simp [Ended, Begun, ih, eq_comm]

theorem limited_concat :
    Limited (acts ++ [act]) ↔ Limited acts ∨ ¬Begun acts ∧ act = .begin false := by
  induction acts with
  | nil => cases act <;> simp [Limited, Begun]
  | cons first rest ih => cases first <;> simp [Limited, Begun, ih]

theorem dropped_concat : Dropped ticket (acts ++ [act]) ↔
    Dropped ticket acts ∨ ¬Begun acts ∧ (act = .stop ∨ act = .cancel ticket) := by
  induction acts with
  | nil => cases act <;> simp [Dropped, Begun]
  | cons first rest ih => cases first <;> simp [Dropped, Begun, ih, or_assoc]

theorem left_concat : left (acts ++ [act]) = left acts ++ act.taken := by
  rw [left, List.flatMap_append, List.flatMap_singleton, left]

end

end Act

namespace Desk

open Act

inductive Step : Desk → Act → Desk → Prop
  | push {desk : Desk} (raw : RawEvent) :
      Step desk (.push raw) { desk with queue := (desk.queue.push raw).2 }
  | request {desk : Desk} : Step desk .request { desk with tickets := desk.tickets.draw.2 }
  | cancel {desk : Desk} (ticket : Nat) :
      Step desk (.cancel ticket) { desk with tickets := (desk.tickets.cancel ticket).2 }
  | begin {desk : Desk} {flush : Bool} (full : Bool) (idle : desk.phase = .idle)
      (flushes : flush = (full || !desk.tickets.pending.isEmpty)) :
      Step desk (.begin flush) { desk with tickets := desk.tickets.begin, phase := .begun flush }
  | measure {desk : Desk} {flush : Bool} (begun : desk.phase = .begun flush) :
      Step desk .measure { desk with
        phase := .measured (if flush then desk.queue.size else desk.batchSize) }
  | drain {desk : Desk} {limit : Nat} (measured : desk.phase = .measured limit) :
      Step desk (.drain (desk.queue.drain limit).1) { desk with
        queue := (desk.queue.drain limit).2, phase := .drained }
  | finish {desk : Desk} (drained : desk.phase = .drained) :
      Step desk .finish { desk with tickets := desk.tickets.complete, phase := .idle }
  | stop {desk : Desk} : Step desk .stop { desk with tickets := desk.tickets.stop }
  | restart {desk : Desk} : Step desk .restart { desk with tickets := desk.tickets.restart }

inductive Run (first : Desk) : List Act → Desk → Prop
  | nil : Run first [] first
  | tail {acts : List Act} {act : Act} {desk next : Desk} :
      Run first acts desk → Step desk act next → Run first (acts ++ [act]) next

/-- Tickets are numbered in the order of their requests; those wait that no cycle has reached. -/
structure Sound (desk : Desk) : Prop where
  completed : desk.tickets.completedThrough ≤ desk.tickets.begunThrough
  begun : desk.tickets.begunThrough < desk.tickets.next
  pending : ∀ ticket ∈ desk.tickets.pending,
    desk.tickets.begunThrough < ticket ∧ ticket < desk.tickets.next
  distinct : desk.tickets.pending.Nodup

section

variable {desk next : Desk} {act : Act}

theorem Sound.step (sound : desk.Sound) (step : Step desk act next) : next.Sound := by
  obtain ⟨completed, begun, pending, distinct⟩ := sound
  cases step with
  | push | measure | drain | restart => exact ⟨completed, begun, pending, distinct⟩
  | stop => exact ⟨completed, begun, by simp [Tickets.stop], by simp [Tickets.stop]⟩
  | request =>
      refine ⟨completed, Nat.lt_succ_of_lt begun, ?_, ?_⟩
      · simp only [Tickets.draw, List.forall_mem_cons]
        exact ⟨⟨begun, Nat.lt_succ_self _⟩, fun ticket waits =>
          (pending ticket waits).imp_right Nat.lt_succ_of_lt⟩
      · refine List.nodup_cons.mpr ⟨fun waits => ?_, distinct⟩
        exact Nat.lt_irrefl _ (pending _ waits).2
  | cancel ticket =>
      simp only [Tickets.cancel]
      split
      · exact ⟨completed, begun, fun other waits => pending other (List.mem_of_mem_erase waits),
          distinct.erase ticket⟩
      · exact ⟨completed, begun, pending, distinct⟩
  | begin full idle flushes =>
      refine ⟨?_, ?_, by simp [Tickets.begin], by simp [Tickets.begin]⟩
      · exact Nat.le_trans completed (Nat.le_sub_one_of_lt begun)
      · exact Nat.sub_one_lt (Nat.ne_zero_of_lt begun)
  | finish drained =>
      exact ⟨Nat.max_le.mpr ⟨completed, Nat.le_refl _⟩, begun, pending, distinct⟩

theorem Run.trans {first last : Desk} {acts more : List Act} (run : Run first acts desk)
    (later : Run desk more last) : Run first (acts ++ more) last := by
  induction later with
  | nil => exact (List.append_nil acts).symm ▸ run
  | tail _ step ih => exact List.append_assoc acts _ _ ▸ ih.tail step

theorem completedThrough_le (step : Step desk act next) :
    desk.tickets.completedThrough ≤ next.tickets.completedThrough := by
  cases step with
  | cancel ticket =>
      simp only [Tickets.cancel]
      split <;> exact Nat.le_refl _
  | finish drained => exact Nat.le_max_left _ _
  | _ => exact Nat.le_refl _

theorem isComplete_of_run {acts : List Act} {ticket : Nat} (run : Run desk acts next)
    (complete : desk.tickets.isComplete ticket = true) :
    next.tickets.isComplete ticket = true := by
  induction run with
  | nil => exact complete
  | tail run step ih =>
      simp only [Tickets.isComplete, decide_eq_true_eq] at ih ⊢
      exact Nat.le_trans ih (completedThrough_le step)

end

structure Marked (ticket : Nat) (acts : List Act) (desk : Desk) : Prop where
  sound : desk.Sound
  drawn : ticket < desk.tickets.next
  begun : ticket ≤ desk.tickets.begunThrough ↔ Begun acts
  ended : ticket ≤ desk.tickets.completedThrough ↔ Ended acts
  waits : ticket ∈ desk.tickets.pending ↔ ¬Begun acts ∧ ¬Dropped ticket acts
  limited : Limited acts → Dropped ticket acts

/-- What was queued when a ticket was drawn leaves first, and a cycle that flushes takes it all. -/
structure Served (queued : List RawEvent) (acts : List Act) (desk : Desk) : Prop where
  ordered : queued <+: left acts ++ desk.queue.entries
  serving : Begun acts → ¬Limited acts → desk.phase = .begun true ∨
    (∃ limit, desk.phase = .measured limit ∧ queued.length ≤ (left acts).length + limit) ∨
    queued <+: left acts
  gone : Ended acts → ¬Limited acts → queued <+: left acts

section

variable {desk next : Desk} {acts : List Act} {act : Act} {ticket : Nat} {queued : List RawEvent}

theorem Marked.step (marked : Marked ticket acts desk) (step : Step desk act next) :
    Marked ticket (acts ++ [act]) next := by
  have sound := marked.sound.step step
  obtain ⟨former, drawn, begun, ended, waits, limited⟩ := marked
  cases step with
  | push | measure | drain | restart =>
      refine ⟨sound, drawn, ?_, ?_, ?_, ?_⟩ <;>
        simpa [begun_concat, ended_concat, dropped_concat, limited_concat]
  | request =>
      have waiting : ticket ∈ desk.tickets.next :: desk.tickets.pending ↔
          ticket ∈ desk.tickets.pending := by simp [Nat.ne_of_lt drawn]
      refine ⟨sound, Nat.lt_succ_of_lt drawn, ?_, ?_, waiting.trans ?_, ?_⟩ <;>
        simpa [begun_concat, ended_concat, dropped_concat, limited_concat]
  | cancel other =>
      have rest : (desk.tickets.cancel other).2 =
          { desk.tickets with pending := (desk.tickets.cancel other).2.pending } := by
        unfold Tickets.cancel
        split <;> rfl
      have waiting : ticket ∈ (desk.tickets.cancel other).2.pending ↔
          ticket ∈ desk.tickets.pending ∧ other ≠ ticket := by
        unfold Tickets.cancel
        split
        · rw [former.distinct.mem_erase_iff, and_comm, ne_comm]
        · rename_i absent
          refine (and_iff_left_of_imp fun there same => ?_).symm
          subst same
          exact absent ⟨(former.pending _ there).1, there⟩
      rw [rest]
      refine ⟨rest ▸ sound, drawn, ?_, ?_, waiting.trans ?_, ?_⟩
      · simpa [begun_concat] using begun
      · simpa [ended_concat] using ended
      · simp only [waits, begun_concat, dropped_concat, reduceCtorEq, exists_false, or_false,
          false_or, Act.cancel.injEq]
        constructor
        · rintro ⟨⟨first, kept⟩, differs⟩
          exact ⟨first, fun now => now.elim kept fun same => differs same.2⟩
        · rintro ⟨first, kept⟩
          exact ⟨⟨first, fun now => kept (Or.inl now)⟩, fun same => kept (Or.inr ⟨first, same⟩)⟩
      · simpa [limited_concat, dropped_concat] using fun now => Or.inl (limited now)
  | begin full idle flushes =>
      rename_i flush
      refine ⟨sound, drawn, ?_, ?_, ?_, fun now => dropped_concat.mpr (Or.inl ?_)⟩
      -- All tickets that were drawn before count as begun, dropped ones too.
      · exact iff_of_true (Nat.le_sub_one_of_lt drawn) (begun_concat.mpr (Or.inr ⟨flush, rfl⟩))
      · simpa [ended_concat, Tickets.begin] using ended
      · exact iff_of_false List.not_mem_nil fun kept =>
          kept.1 (begun_concat.mpr (Or.inr ⟨flush, rfl⟩))
      · rcases limited_concat.mp now with already | ⟨first, begins⟩
        · exact limited already
        · obtain rfl : flush = false := by simpa using begins
          -- Had the ticket waited, the cycle would flush.
          have none : desk.tickets.pending = [] := by
            simpa using (Bool.or_eq_false_iff.mp flushes.symm).2
          by_contra kept
          exact List.not_mem_nil (none ▸ waits.mpr ⟨first, kept⟩)
  | finish drained =>
      refine ⟨sound, drawn, ?_, ?_, ?_, ?_⟩
      · simpa [begun_concat, Tickets.complete] using begun
      · rw [ended_concat, ← begun, ← ended, and_iff_left rfl]
        simp only [Tickets.complete]
        omega
      · simpa [begun_concat, dropped_concat, Tickets.complete] using waits
      · simpa [limited_concat, dropped_concat] using limited
  | stop =>
      refine ⟨sound, drawn, ?_, ?_, ?_, fun now => dropped_concat.mpr (Or.inl ?_)⟩
      · simpa [begun_concat, Tickets.stop] using begun
      · simpa [ended_concat, Tickets.stop] using ended
      · refine iff_of_false List.not_mem_nil fun kept => kept.2 (dropped_concat.mpr (Or.inr ?_))
        exact ⟨fun now => kept.1 (begun_concat.mpr (Or.inl now)), Or.inl rfl⟩
      · exact limited (by simpa [limited_concat] using now)

theorem Served.step (served : Served queued acts desk) (step : Step desk act next) :
    Served queued (acts ++ [act]) next := by
  obtain ⟨ordered, serving, gone⟩ := served
  cases step with
  | request | cancel | stop | restart =>
      refine ⟨?_, ?_, ?_⟩ <;>
        simpa [begun_concat, ended_concat, limited_concat, left_concat, taken]
  | push raw =>
      refine ⟨?_, ?_, ?_⟩
      · simp only [left_concat, taken, List.append_nil]
        obtain ⟨behind, grows⟩ : desk.queue.entries <+: (desk.queue.push raw).2.entries := by
          unfold EventQueue.push
          split
          · exact List.prefix_rfl
          · exact List.prefix_append _ _
        rw [← grows, ← List.append_assoc]
        exact ordered.trans (List.prefix_append _ _)
      · simpa [begun_concat, limited_concat, left_concat, taken] using serving
      · simpa [ended_concat, limited_concat, left_concat, taken] using gone
  | begin full idle flushes =>
      rename_i flush
      refine ⟨?_, fun _ full => ?_, ?_⟩
      · simpa [left_concat, taken] using ordered
      · by_cases already : Begun acts
        · have whole := fun now => full (limited_concat.mpr (Or.inl now))
          rcases serving already whole with starts | ⟨limit, measured, -⟩ | left
          · exact absurd (idle.symm.trans starts) nofun
          · exact absurd (idle.symm.trans measured) nofun
          · exact Or.inr (Or.inr (by simpa [left_concat, taken] using left))
        · refine Or.inl (congrArg Phase.begun ((Bool.not_eq_false flush).mp fun limited => ?_))
          exact full (limited_concat.mpr (Or.inr ⟨already, congrArg Act.begin limited⟩))
      · simpa [ended_concat, limited_concat, left_concat, taken] using
          fun now whole _ => gone now whole
  | measure started =>
      rename_i flush
      refine ⟨by simpa [left_concat, taken] using ordered, fun now whole => ?_,
        by simpa [ended_concat, limited_concat, left_concat, taken] using gone⟩
      simp only [begun_concat, limited_concat, left_concat, taken, List.append_nil, reduceCtorEq,
        exists_false, and_false, or_false] at now whole ⊢
      rcases serving now whole with starts | ⟨limit, measured, -⟩ | left
      · obtain rfl : flush = true := Phase.begun.inj (started.symm.trans starts)
        exact Or.inr (Or.inl ⟨_, rfl, by simpa [EventQueue.size] using ordered.length_le⟩)
      · exact absurd (started.symm.trans measured) nofun
      · exact Or.inr (Or.inr left)
  | drain measured =>
      rename_i limit
      have whole : left (acts ++ [.drain (desk.queue.drain limit).1]) =
          left acts ++ desk.queue.entries.take limit := left_concat
      refine ⟨?_, fun now full => Or.inr (Or.inr ?_), fun now full => ?_⟩
      · rw [whole, List.append_assoc]
        simpa [EventQueue.drain] using ordered
      · simp only [begun_concat, limited_concat, reduceCtorEq, exists_false, and_false,
          or_false] at now full
        rw [whole]
        rcases serving now full with starts | ⟨room, bounded, enough⟩ | left
        · exact absurd (measured.symm.trans starts) nofun
        · obtain rfl := Phase.measured.inj (measured.symm.trans bounded)
          rw [← List.take_length_add_append]
          exact List.prefix_take_iff.mpr ⟨ordered, enough⟩
        · exact left.trans (List.prefix_append _ _)
      · simp only [ended_concat, limited_concat, reduceCtorEq, and_false, or_false] at now full
        rw [whole]
        exact (gone now full).trans (List.prefix_append _ _)
  | finish drained =>
      have all (now : Begun acts) (full : ¬Limited acts) : queued <+: left acts := by
        rcases serving now full with starts | ⟨limit, measured, -⟩ | left
        · exact absurd (drained.symm.trans starts) nofun
        · exact absurd (drained.symm.trans measured) nofun
        · exact left
      refine ⟨by simpa [left_concat, taken] using ordered, fun now full => Or.inr (Or.inr ?_),
        fun now full => ?_⟩
      · simp only [begun_concat, limited_concat, left_concat, taken, List.append_nil, reduceCtorEq,
          exists_false, and_false, or_false] at now full ⊢
        exact all now full
      · simp only [ended_concat, limited_concat, left_concat, taken, List.append_nil, reduceCtorEq,
          and_true, and_false, or_false] at now full ⊢
        exact now.elim (fun already => gone already full) fun begun => all begun full

end

def opened (batchSize : Nat) (queue : EventQueue) : Desk where
  batchSize
  queue

def requested (desk : Desk) : Desk :=
  { desk with tickets := desk.tickets.draw.2 }

section

variable {desk next : Desk} {acts : List Act} {batchSize : Nat} {queue : EventQueue}

theorem sound_opened (batchSize : Nat) (queue : EventQueue) : (opened batchSize queue).Sound where
  completed := Nat.le_refl _
  begun := Nat.zero_lt_one
  pending := by simp [opened]
  distinct := List.nodup_nil

theorem Sound.run (sound : desk.Sound) (run : Run desk acts next) : next.Sound := by
  induction run with
  | nil => exact sound
  | tail _ step ih => exact ih.step step

theorem Sound.marked (sound : desk.Sound) : Marked desk.tickets.draw.1 [] desk.requested where
  sound := sound.step .request
  drawn := Nat.lt_succ_self _
  begun := iff_of_false (Nat.not_le.mpr sound.begun) id
  ended := iff_of_false (Nat.not_le.mpr (Nat.lt_of_le_of_lt sound.completed sound.begun)) id
  waits := iff_of_true List.mem_cons_self ⟨id, id⟩
  limited := False.elim

theorem served_requested (desk : Desk) : Served desk.queue.entries [] desk.requested where
  ordered := List.prefix_rfl
  serving := False.elim
  gone := False.elim

theorem since_of_run (sound : desk.Sound) (run : Run desk.requested acts next) :
    Marked desk.tickets.draw.1 acts next ∧ Served desk.queue.entries acts next := by
  induction run with
  | nil => exact ⟨sound.marked, served_requested desk⟩
  | tail _ step ih => exact ⟨ih.1.step step, ih.2.step step⟩

/-- Whatever happens after a flush was requested, the request is complete exactly once a cycle has
ended that began since, and it can be taken back exactly as long as it waits for one. -/
theorem flush_laws {earlier : List Act} {ticket : Nat}
    (reached : Run (opened batchSize queue) earlier desk)
    (drawn : desk.tickets.draw.1 = ticket) (run : Run desk.requested acts next) :
    (next.tickets.isComplete ticket = true ↔ Ended acts) ∧
    (∀ more last, Run next more last → next.tickets.isComplete ticket = true →
      last.tickets.isComplete ticket = true) ∧
    -- What was queued has left by then, if the first cycle since has flushed.
    (next.tickets.isComplete ticket = true → ¬Limited acts → desk.queue.entries <+: left acts) ∧
    (Limited acts → Dropped ticket acts) ∧
    ((next.tickets.cancel ticket).1 = true ↔ ¬Begun acts ∧ ¬Dropped ticket acts) := by
  subst drawn
  obtain ⟨marked, served⟩ := since_of_run ((sound_opened batchSize queue).run reached) run
  have complete : next.tickets.isComplete desk.tickets.draw.1 = true ↔ Ended acts := by
    simp only [Tickets.isComplete, decide_eq_true_eq, marked.ended]
  refine ⟨complete, fun more last later => isComplete_of_run later,
    fun done => served.gone (complete.mp done), marked.limited, ?_⟩
  rw [← marked.waits, Tickets.cancel]
  split
  · rename_i both
    exact iff_of_true rfl both.2
  · rename_i absent
    exact iff_of_false Bool.false_ne_true fun there =>
      absent ⟨(marked.sound.pending _ there).1, there⟩

end

def sampleDesk : Desk :=
  opened 1 { capacity := 4, policy := .reject, capacity_pos := by decide }

def waitingPair : Desk :=
  { sampleDesk with
    queue := ((sampleDesk.queue.push (sampleRaw "a")).2.push (sampleRaw "b")).2 }

theorem run_waitingPair :
    Run sampleDesk [.push (sampleRaw "a"), .push (sampleRaw "b")] waitingPair :=
  (Run.nil.tail (.push _)).tail (.push _)

def flushing : List Act :=
  [.begin true, .measure, .drain [sampleRaw "a", sampleRaw "b"], .finish]

theorem flush_laws_of_waitingPair :
    ∃ next, Run waitingPair.requested flushing next ∧ Ended flushing ∧ ¬Limited flushing ∧
      next.tickets.isComplete 1 = true ∧ (next.tickets.cancel 1).1 = false ∧
      waitingPair.queue.entries <+: left flushing := by
  obtain ⟨next, run⟩ : ∃ next, Run waitingPair.requested flushing next :=
    ⟨_, (((Run.nil.tail (.begin false rfl rfl)).tail (.measure rfl)).tail (.drain rfl)).tail
      (.finish rfl)⟩
  obtain ⟨complete, -, gone, -, cancels⟩ := flush_laws run_waitingPair rfl run
  have ended : Ended flushing := by simp [flushing, Ended]
  have whole : ¬Limited flushing := by simp [flushing, Limited]
  refine ⟨next, run, ended, whole, complete.mpr ended, ?_, gone (complete.mpr ended) whole⟩
  exact Bool.eq_false_iff.mpr fun taken => (cancels.mp taken).1 trivial

/-- A ticket that a stop has dropped cannot be taken back, although no cycle has begun, and it is
completed by a cycle that leaves behind what was queued before it. -/
theorem complete_of_dropped :
    Run sampleDesk [.push (sampleRaw "a"), .push (sampleRaw "b")] waitingPair ∧
    (∃ next, Run waitingPair.requested [.stop] next ∧ ¬Begun [.stop] ∧
      (next.tickets.cancel 1).1 = false) ∧
    ∃ next, Run waitingPair.requested
      [.stop, .restart, .begin false, .measure, .drain [sampleRaw "a"], .finish] next ∧
      next.tickets.isComplete 1 = true ∧ next.queue.entries = [sampleRaw "b"] := by
  have stopped : Run waitingPair.requested [.stop] _ := Run.nil.tail .stop
  have cycle := (((stopped.tail .restart).tail (.begin false rfl rfl)).tail (.measure rfl)).tail
    (.drain rfl)
  exact ⟨run_waitingPair, ⟨_, stopped, id, rfl⟩, _, cycle.tail (.finish rfl), rfl, rfl⟩

end Desk

end AuditTrail
