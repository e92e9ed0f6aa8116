/-!
# Levels of the log

Events have one of five levels. The log shows the events at or above a threshold, or none at all.
-/

namespace TaggedUnion

inductive Level where
  | trace
  | debug
  | info
  | warn
  | error
  deriving DecidableEq, Repr

namespace Level

def rank : Level → Nat
  | trace => 0
  | debug => 1
  | info => 2
  | warn => 3
  | error => 4

/-- The level at the head of a line of the log, five columns wide. -/
def tag : Level → String
  | trace => "TRACE"
  | debug => "DEBUG"
  | info => " INFO"
  | warn => " WARN"
  | error => "ERROR"

end Level

/-- The lowest level that is shown, or `off`. -/
inductive Threshold where
  | level (lowest : Level)
  | off
  deriving DecidableEq, Repr

namespace Threshold

def shows : Threshold → Level → Bool
  | level lowest, l => lowest.rank ≤ l.rank
  | off, _ => false

/-- The threshold without a setting, or with one that cannot be read. -/
def standard : Threshold :=
  level .warn

def ofName? (name : String) : Option Threshold :=
  match name.toLower with
  | "trace" => some (level .trace)
  | "debug" => some (level .debug)
  | "info" => some (level .info)
  | "warn" => some (level .warn)
  | "error" => some (level .error)
  | "off" => some off
  | _ => none

end Threshold

end TaggedUnion
