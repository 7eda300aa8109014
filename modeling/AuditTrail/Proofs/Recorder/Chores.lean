import AuditTrail.Recorder.Worker
import Mathlib.Logic.Relation

/-!
What the worker does on its own. Whatever starts, wakes, flushes or stops it, all that it does is to
run cycles and to keep its notes, so what these two keep is kept by every call that waits for it.
-/

namespace AuditTrail

theorem Progress.isReady_of_awaitReady {progress : Progress} {session : String} {timeoutMs : Nat}
    (told : progress.awaitReady session timeoutMs = .ok ()) : progress.isReady session = true := by
  unfold awaitReady at told
  split at told
  · cases told
  · rename_i going
    split at told
    · rename_i waiting
      simp [isReady, SessionProgress.isReady, waiting, going]
    · cases told

namespace Recorder

variable {σ : Type} [Store σ]

/-- What happens to the tickets while no cycle is under way. -/
inductive Noted : Tickets → Tickets → Prop
  | drawn (tickets : Tickets) : Noted tickets tickets.draw.2
  | cancelled (tickets : Tickets) (ticket : Nat) : Noted tickets (tickets.cancel ticket).2
  | stopped (tickets : Tickets) : Noted tickets tickets.stop
  | restarted (tickets : Tickets) : Noted tickets tickets.restart

inductive Chore (now : Timestamp) : Recorder σ → Recorder σ → Prop
  | note {recorder : Recorder σ} (tickets : Tickets) (running : Bool) (cycles : Nat)
      (noted : Noted recorder.tickets tickets) :
      Chore now recorder { recorder with tickets, running, cycles }
  | cycle {recorder : Recorder σ} (full : Bool) : Chore now recorder (recorder.cycle full now).2

abbrev Chores (now : Timestamp) : Recorder σ → Recorder σ → Prop :=
  Relation.ReflTransGen (Chore now)

theorem chores_note (now : Timestamp) (recorder : Recorder σ) {tickets : Tickets} (running : Bool)
    (cycles : Nat) (noted : Noted recorder.tickets tickets) :
    Chores now recorder { recorder with tickets, running, cycles } :=
  Relation.ReflTransGen.single (Chore.note tickets running cycles noted)

theorem chores_cycle (full : Bool) (now : Timestamp) (recorder : Recorder σ) :
    Chores now recorder (recorder.cycle full now).2 :=
  Relation.ReflTransGen.single (Chore.cycle full)

theorem chores_drainBatches (now : Timestamp) (count : Nat) (recorder : Recorder σ) :
    Chores now recorder (drainBatches now count recorder) := by
  induction count generalizing recorder with
  | zero => exact Relation.ReflTransGen.refl
  | succ count ih => exact Relation.ReflTransGen.head (Chore.cycle false) (ih _)

theorem chores_wake (now : Timestamp) (recorder : Recorder σ) :
    Chores now recorder (wake now recorder) := by
  unfold wake
  split
  · exact Relation.ReflTransGen.refl
  · split
    · exact chores_cycle true now recorder
    · exact chores_drainBatches now _ recorder

theorem chores_elapse (timeoutMs : Nat) (now : Timestamp) (recorder : Recorder σ) :
    Chores now recorder (elapse timeoutMs now recorder) := by
  unfold elapse
  split
  · exact chores_cycle true now recorder
  · exact Relation.ReflTransGen.refl

theorem chores_start (now : Timestamp) (recorder : Recorder σ) :
    Chores now recorder (recorder.start now).2 := by
  unfold start
  split
  · exact Relation.ReflTransGen.refl
  · exact (chores_note now recorder true recorder.cycles (.restarted _)).trans (chores_wake now _)

theorem chores_join (now : Timestamp) (recorder : Recorder σ) :
    Chores now recorder (recorder.join now) := by
  unfold join
  split
  · exact Relation.ReflTransGen.refl
  · split
    · exact (chores_cycle true now recorder).trans (chores_note now _ false _ (.stopped _))
    · exact chores_note now recorder false _ (.stopped _)

theorem chores_requestFlush (now : Timestamp) (recorder : Recorder σ) :
    Chores now recorder (recorder.requestFlush now).2 :=
  (chores_note now recorder recorder.running recorder.cycles (.drawn _)).trans (chores_wake now _)

theorem chores_awaitReady (session : String) (timeoutMs : Nat) (now : Timestamp)
    (recorder : Recorder σ) :
    Chores now recorder (recorder.awaitReady session timeoutMs now).2 := by
  unfold awaitReady
  split
  · exact Relation.ReflTransGen.refl
  · exact chores_elapse timeoutMs now recorder

theorem isReady_of_awaitReady {recorder next : Recorder σ} {session : String} {timeoutMs : Nat}
    {now : Timestamp} (waited : recorder.awaitReady session timeoutMs now = (.ok (), next)) :
    next.progress.isReady session = true := by
  obtain ⟨told, rfl⟩ := Prod.mk.inj waited
  exact Progress.isReady_of_awaitReady told

theorem push_eq (raw : RawEvent) (now : Timestamp) (recorder : Recorder σ) :
    ∃ given, Chores now recorder given ∧ recorder.push raw now =
      ((given.queue.push raw).1, wake now { given with queue := (given.queue.push raw).2 }) := by
  unfold push
  split
  · exact ⟨_, chores_elapse _ now recorder, rfl⟩
  · exact ⟨_, Relation.ReflTransGen.refl, rfl⟩

end Recorder

end AuditTrail
