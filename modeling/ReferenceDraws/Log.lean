/-!
# Log events

What a run reports while it works. Operations that report return their events, in order, beside
their result.
-/

namespace ReferenceDraws

/-- How important an event is. -/
inductive LogLevel where
  | trace
  | debug
  | info
  | warn
  | error
deriving DecidableEq

namespace LogLevel

/-- The name of a level. -/
def name : LogLevel → String
  | .trace => "TRACE"
  | .debug => "DEBUG"
  | .info => "INFO"
  | .warn => "WARN"
  | .error => "ERROR"

/-- How much is shown at most: one for errors alone, five for everything. -/
def verbosity : LogLevel → Nat
  | .error => 1
  | .warn => 2
  | .info => 3
  | .debug => 4
  | .trace => 5

/-- Every level, most important first. -/
def all : List LogLevel := [.error, .warn, .info, .debug, .trace]

end LogLevel

/-- An event: a message and the values it is about. -/
structure LogEvent where
  /-- Its level. -/
  level : LogLevel
  /-- What happened. -/
  message : String
  /-- Named values. -/
  fields : List (String × String) := []
deriving DecidableEq

/-- Whether an event is shown where events up to a level are. -/
def LogEvent.shownAt (threshold : LogLevel) (e : LogEvent) : Bool :=
  e.level.verbosity ≤ threshold.verbosity

/-- A result and the events on the way to it, first event first. -/
structure Logged (α : Type) where
  /-- The events. -/
  events : List LogEvent
  /-- The result. -/
  value : α

namespace Logged

/-- A result without events. -/
def quiet {α : Type} (value : α) : Logged α := ⟨[], value⟩

/-- An event before whatever follows. -/
def after {α : Type} (event : LogEvent) (rest : Logged α) : Logged α :=
  ⟨event :: rest.events, rest.value⟩

/-- Goes on from a result, or stops at a failure. -/
def andThen {ε α β : Type} (first : Logged (Except ε α)) (next : α → Logged (Except ε β)) :
    Logged (Except ε β) :=
  match first.value with
  | .ok a => ⟨first.events ++ (next a).events, (next a).value⟩
  | .error e => ⟨first.events, .error e⟩

end Logged

end ReferenceDraws
