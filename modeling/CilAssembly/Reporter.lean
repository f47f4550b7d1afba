import CilAssembly.Source.Lines

/-!
Diagnostics. A message goes to the listener of its severity if there is one, and to the text stream
otherwise; reporting never stops anything.
-/
namespace CilAssembly

inductive Severity
  | error | warning
  deriving DecidableEq, Repr, Inhabited

structure Diagnostic where
  severity : Severity
  location : Location
  message : String
  deriving DecidableEq, Repr, Inhabited

namespace Diagnostic

/-- The line of a diagnostic on the text stream. -/
def render (d : Diagnostic) : String :=
  let mark := match d.severity with
    | .error => ""
    | .warning => "warning: "
  d.location.render ++ ": " ++ mark ++ d.message ++ "\n"

end Diagnostic

/-- A reported diagnostic, with whether a listener took it. -/
structure Delivery where
  diagnostic : Diagnostic
  heard : Bool
  deriving DecidableEq, Repr, Inhabited

/-- Everything reported so far, and which severities have a listener now. -/
structure Reporter where
  errorListener : Bool := false
  warningListener : Bool := false
  log : Array Delivery := #[]
  deriving DecidableEq, Repr, Inhabited

namespace Reporter

def hasListener (reporter : Reporter) : Severity → Bool
  | .error => reporter.errorListener
  | .warning => reporter.warningListener

def setListener (reporter : Reporter) (severity : Severity) (on : Bool) : Reporter :=
  match severity with
  | .error => { reporter with errorListener := on }
  | .warning => { reporter with warningListener := on }

def report (reporter : Reporter) (d : Diagnostic) : Reporter :=
  let heard := reporter.hasListener d.severity
  { reporter with log := reporter.log.push ⟨d, heard⟩ }

/-- The number of diagnostics of a severity. -/
def count (reporter : Reporter) (severity : Severity) : Nat :=
  reporter.log.toList.countP (·.diagnostic.severity == severity)

def hasErrors (reporter : Reporter) : Bool :=
  0 < reporter.count .error

/-- What was written to the text stream from an entry of the log on. -/
def streamFrom (reporter : Reporter) (start : Nat) : String :=
  (reporter.log.toList.drop start).foldl
    (fun text d => if d.heard then text else text ++ d.diagnostic.render) ""

/-- What listeners heard from an entry of the log on. -/
def heardFrom (reporter : Reporter) (start : Nat) : List Diagnostic :=
  (reporter.log.toList.drop start).filterMap fun d => if d.heard then some d.diagnostic else none

def dump (reporter : Reporter) : String :=
  "Reporter \x7b error_fn: " ++ Dump.bool reporter.errorListener ++ ", warning_fn: " ++
    Dump.bool reporter.warningListener ++ ", errors: " ++ toString (reporter.count .error) ++
    ", warnings: " ++ toString (reporter.count .warning) ++ ", .. \x7d"

end Reporter

end CilAssembly
