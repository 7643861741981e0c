import Ripple.Analysis.Report

/-!
How what happens in the course of an analysis reaches the command that asked for it. The analysis is
made beside the command: it puts one event after another into a queue. The command takes them out
until no more can come, and only then goes on to the result.
-/

namespace Ripple.Command

/-- Who acts next. -/
inductive Side where
  | analysis | command
  deriving DecidableEq, Repr

/-- The events of an analysis on their way to the command. -/
structure Relay where
  /-- Those that the analysis is yet to tell. -/
  ahead : List Event
  /-- Those that have been told and not been taken. -/
  queue : List Event
  /-- Those that the command has taken. -/
  taken : List Event
  deriving DecidableEq, Repr

namespace Relay

/-- One side acts. An analysis that has told everything does nothing more, and a command that finds
the queue empty waits. -/
def step (r : Relay) : Side → Relay
  | .analysis =>
    match r.ahead with
    | [] => r
    | event :: ahead => { r with ahead := ahead, queue := r.queue ++ [event] }
  | .command =>
    match r.queue with
    | [] => r
    | event :: queue => { r with queue := queue, taken := r.taken ++ [event] }

/-- An analysis before its first event. -/
def start (events : List Event) : Relay := ⟨events, [], []⟩

/-- The whole course. When the given turns are over, the analysis comes to its end, and then the
command does. -/
def run (turns : List Side) (events : List Event) : Relay :=
  let remaining := List.replicate events.length Side.analysis ++
    List.replicate events.length Side.command
  (turns ++ remaining).foldl step (start events)

end Relay

end Ripple.Command
