import Telemetry.Derivation
import Telemetry.Rule

/-!
# The engine of derivations and rules

The engine holds derivations and watched rules in the order of registration.
`recompute` evaluates every derivation against one snapshot and `watch` compares
every rule with it. Either does all of its work or none: an input that the
snapshot lacks is found before anything is computed, and the first missing one
in registration order is named. `checkInputs` foretells both from the known
names.
-/
namespace Telemetry

/-- Derivations and watched rules. -/
structure Engine where
  derivations : List Derivation := []
  watches : List Watch := []

namespace Engine

/-- Register a derivation over declared channels; a channel declared twice
counts once. -/
def registerDerivation (engine : Engine) (name : String) (dependsOn : List String)
    (compute : Context → Value) : Except Fault Engine :=
  if name.isEmpty then .error (.emptyName .derivation)
  else if engine.derivations.any fun derivation => derivation.name = name then
    .error (.alreadyRegistered .derivation name)
  else
    .ok { engine with
      derivations := engine.derivations ++ [⟨name, firstOccurrences dependsOn, compute, none⟩] }

/-- Register a rule, inactive at first. -/
def registerRule (engine : Engine) (rule : Rule) : Except Fault Engine := do
  rule.check
  if engine.watches.any fun watch => watch.rule.name = rule.name then
    throw (.alreadyRegistered .threshold rule.name)
  return { engine with watches := engine.watches ++ [⟨rule, false⟩] }

/-- The first declared channel, in order of registration and declaration, that
is not known. -/
def missingDependency? (engine : Engine) (known : String → Bool) : Option Fault :=
  engine.derivations.findSome? fun derivation =>
    (derivation.dependsOn.find? fun channel => !known channel).map fun channel =>
      .dependencyMissing channel derivation.name

/-- The first rule's channel that is not known. -/
def missingRuleChannel? (engine : Engine) (known : String → Bool) : Option Fault :=
  (engine.watches.find? fun watch => !known watch.rule.channel).map fun watch =>
    .ruleChannelMissing watch.rule.channel watch.rule.name

/-- Whether every channel that a derivation or a rule reads is known. -/
def checkInputs (engine : Engine) (known : String → Bool) : Except Fault Unit :=
  match engine.missingDependency? known with
  | some fault => .error fault
  | none =>
    match engine.missingRuleChannel? known with
    | some fault => .error fault
    | none => .ok ()

/-- Evaluate every derivation and remember the results. -/
def recompute (engine : Engine) (snapshot : Snapshot) : Except Fault (Metrics × Engine) :=
  match engine.missingDependency? snapshot.contains with
  | some fault => .error fault
  | none =>
    let metrics := engine.derivations.map fun derivation => derivation.evaluate snapshot
    let remembered := engine.derivations.zipWith
      (fun derivation metric => { derivation with previous := some metric }) metrics
    .ok (⟨snapshot.tick, metrics⟩, { engine with derivations := remembered })

/-- Whether each rule's condition holds, in registration order. -/
def conditions (snapshot : Snapshot) : List Watch → Except Fault (List Bool)
  | [] => .ok []
  | watch :: rest =>
    match snapshot.get? watch.rule.channel with
    | none => .error (.ruleChannelMissing watch.rule.channel watch.rule.name)
    | some reading => (conditions snapshot rest).map (watch.rule.isMet reading :: ·)

/-- Bring flags in line with conditions, and list the changes. -/
def flip (snapshot : Snapshot) : List Watch → List Bool → List Transition × List Watch
  | watch :: rest, now :: later =>
    let (transitions, flipped) := flip snapshot rest later
    if watch.active = now then (transitions, watch :: flipped)
    else
      (⟨watch.rule, if now then .active else .cleared, snapshot⟩ :: transitions,
        { watch with active := now } :: flipped)
  | watches, _ => ([], watches)

/-- Compare every rule with a snapshot. Yields one transition for each flag that
changed, in registration order. -/
def watch (engine : Engine) (snapshot : Snapshot) : Except Fault (List Transition × Engine) := do
  let now ← conditions snapshot engine.watches
  let (transitions, flipped) := flip snapshot engine.watches now
  return (transitions, { engine with watches := flipped })

/-- The derivation of this name. -/
def derivation (engine : Engine) (name : String) : Except Fault Derivation :=
  match engine.derivations.find? fun derivation => derivation.name = name with
  | some derivation => .ok derivation
  | none => .error (.notRegistered .derivation name)

/-- What a derivation yielded last, if it has been evaluated. -/
def previous (engine : Engine) (name : String) : Except Fault (Option Metric) :=
  (engine.derivation name).map Derivation.previous

/-- The channels a derivation declares. -/
def dependencies (engine : Engine) (name : String) : Except Fault (List String) :=
  (engine.derivation name).map Derivation.dependsOn

/-- Forget what the first derivation of this name has yielded. -/
def forget (name : String) : List Derivation → List Derivation
  | [] => []
  | derivation :: rest =>
    if derivation.name = name then { derivation with previous := none } :: rest
    else derivation :: forget name rest

/-- Let a derivation start afresh. -/
def resetDerivation (engine : Engine) (name : String) : Except Fault Engine := do
  let _ ← engine.derivation name
  return { engine with derivations := forget name engine.derivations }

/-- The names of the derivations in registration order. -/
def derivationNames (engine : Engine) : List String := engine.derivations.map Derivation.name

/-- The rules in registration order. -/
def rules (engine : Engine) : List Rule := engine.watches.map Watch.rule

/-- The rules whose flag is set. -/
def activeRules (engine : Engine) : List Rule :=
  (engine.watches.filter Watch.active).map Watch.rule

/-- Whether the flag of a rule is set. -/
def isActive (engine : Engine) (name : String) : Except Fault Bool :=
  match engine.watches.find? fun watch => watch.rule.name = name with
  | some watch => .ok watch.active
  | none => .error (.notRegistered .threshold name)

end Engine

end Telemetry
