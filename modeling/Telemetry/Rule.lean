import Telemetry.Fault
import Telemetry.Snapshot

/-!
# Threshold rules

A rule compares one channel with a limit. The engine keeps a flag beside each
rule, a `Watch`, and reports a `Transition` only when the flag changes, never
for a breach that continues. No comparison holds of NaN, so a reading that is
not a number clears a rule and never sets it off.
-/
namespace Telemetry

/-- How a reading is compared with a limit. -/
inductive Comparison where
  | below
  | atMost
  | above
  | atLeast
deriving DecidableEq, Repr

namespace Comparison

/-- Every comparison. -/
def all : List Comparison := [below, atMost, above, atLeast]

/-- Whether `left` compares so with `right`. -/
def holds (comparison : Comparison) (left right : Float) : Bool :=
  match comparison with
  | below => decide (left < right)
  | atMost => decide (left ≤ right)
  | above => decide (right < left)
  | atLeast => decide (right ≤ left)

/-- The sign of the comparison. -/
def symbol : Comparison → String
  | below => "<"
  | atMost => "<="
  | above => ">"
  | atLeast => ">="

/-- The comparison with a sign, if there is one. -/
def ofSymbol? (symbol : String) : Option Comparison :=
  all.find? fun comparison => comparison.symbol = symbol

end Comparison

/-- How grave a warning is. -/
inductive Severity where
  | info
  | warning
  | error
  | critical
deriving DecidableEq, Repr

namespace Severity

/-- Every severity, the least grave first. -/
def all : List Severity := [info, warning, error, critical]

/-- The position in the order of gravity. -/
def rank : Severity → Nat
  | info => 0
  | warning => 1
  | error => 2
  | critical => 3

/-- The name of the severity. -/
def name : Severity → String
  | info => "info"
  | warning => "warning"
  | error => "error"
  | critical => "critical"

/-- The severity with a name, if there is one. -/
def ofName? (name : String) : Option Severity := all.find? fun severity => severity.name = name

/-- The least grave first. -/
def sort (severities : List Severity) : List Severity :=
  severities.mergeSort fun first second => decide (first.rank ≤ second.rank)

/-- The gravest of a list. -/
def gravest? (severities : List Severity) : Option Severity :=
  severities.foldl
    (fun found severity =>
      match found with
      | none => some severity
      | some former => some (if former.rank ≤ severity.rank then severity else former))
    none

end Severity

/-- A named condition on one channel. -/
structure Rule where
  name : String
  channel : String
  comparison : Comparison
  limit : Float
  severity : Severity
  message : String

namespace Rule

/-- Refuse a rule without a name, without a channel or without a usable
limit. -/
def check (rule : Rule) : Except Fault Unit := do
  if rule.name.isEmpty then throw (.emptyName .threshold)
  if rule.channel.isEmpty then throw (.ruleWithoutChannel rule.name)
  ensureFinite .limit rule.limit

/-- Whether the condition holds of a reading. -/
def isMet (rule : Rule) (reading : Float) : Bool := rule.comparison.holds reading rule.limit

end Rule

/-- The direction in which a rule's flag changed. -/
inductive Edge where
  | active
  | cleared
deriving DecidableEq, Repr

/-- The name of the direction. -/
def Edge.name : Edge → String
  | active => "active"
  | cleared => "cleared"

/-- One change of a rule's flag, with the snapshot that caused it. -/
structure Transition where
  rule : Rule
  edge : Edge
  snapshot : Snapshot

/-- The reading that caused the change. -/
def Transition.reading? (transition : Transition) : Option Float :=
  transition.snapshot.get? transition.rule.channel

/-- A rule and whether its condition held when last evaluated. -/
structure Watch where
  rule : Rule
  active : Bool := false

end Telemetry
