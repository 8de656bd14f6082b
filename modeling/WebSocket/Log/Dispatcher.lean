import WebSocket.Log.Event

/-!
# Dispatching records

A dispatcher lets through the records of this library that its threshold admits
and hands them to a sink, or writes them to standard error while no sink is set.
-/

namespace WebSocket
namespace Log

/-- Where records go. -/
inductive Sink
  | standardError
  | named (name : String)
  deriving DecidableEq, Repr

/-- The dispatcher of a process. -/
structure Dispatcher where
  threshold : Threshold := .upTo .error
  sink : Sink := .standardError
  deriving DecidableEq, Repr

/-- Why a dispatcher is not installed. -/
inductive InstallError
  /-- A process keeps the first logger that it is given. -/
  | alreadyInstalled
  deriving DecidableEq, Repr

/-- The text of a failed installation. -/
def InstallError.message : InstallError → String
  | .alreadyInstalled =>
      "attempted to set a logger after the logging system was already initialized"

/-- What becomes of a record. -/
inductive Delivery
  | dropped
  | toSink (name : String) (record : Record)
  | toStandardError (text : String)
  deriving DecidableEq, Repr

/-- Whether a target names this library or one of its parts. -/
def isOwnTarget (target : String) : Bool :=
  target == rootTarget ||
    (rootTarget ++ "::").toList.isPrefixOf target.toList

namespace Record

/-- The line that a record takes on standard error. -/
def text (record : Record) : String :=
  let file := record.file.getD "<unknown>"
  let number := record.line.getD 0
  s!"{record.level.name} [{file}:{number}] {record.message}\n"

end Record

namespace Dispatcher

/-- Install a dispatcher in a process, unless the process has one already. -/
def install : Option Dispatcher → Except InstallError Dispatcher
  | none => .ok {}
  | some _ => .error .alreadyInstalled

/-- Set the threshold. -/
def setThreshold (dispatcher : Dispatcher) (threshold : Threshold) : Dispatcher :=
  { dispatcher with threshold }

/-- Set the sink. -/
def setSink (dispatcher : Dispatcher) (sink : Sink) : Dispatcher :=
  { dispatcher with sink }

/-- Whether records of a level and target are let through. -/
def isEnabled (dispatcher : Dispatcher) (level : Level) (target : String) : Bool :=
  dispatcher.threshold.admits level && isOwnTarget target

/-- Decide what becomes of a record. -/
def dispatch (dispatcher : Dispatcher) (record : Record) : Delivery :=
  if dispatcher.isEnabled record.level record.target then
    match dispatcher.sink with
    | .standardError => .toStandardError record.text
    | .named name => .toSink name record
  else .dropped

end Dispatcher
end Log
end WebSocket
