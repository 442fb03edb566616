import Telemetry.Number.Style
import Telemetry.Operation

/-!
# Faults and their messages

A refused operation names its cause. A fault carries the names and numbers that
the cause is about; its wording is settled here in one place, and so is the
category under which callers match it. Faults that a listener reports in words
of its own are kept as given.
-/
namespace Telemetry

/-- The four stable classes of fault. -/
inductive Category where
  /-- An invalid registration or configuration. -/
  | config
  /-- A reference to a name that is not registered. -/
  | notFound
  /-- A listener failed. -/
  | listener
  /-- Reading or writing failed. -/
  | io
deriving DecidableEq, Repr

/-- The word by which a category is matched. -/
def Category.code : Category → String
  | config => "CONFIG"
  | notFound => "NOT_FOUND"
  | listener => "LISTENER"
  | io => "IO"

/-- What a message of the category starts with. -/
def Category.heading : Category → String
  | config => "config error: "
  | notFound => "not found: "
  | listener => "listener failed: "
  | io => "io: "

/-- The things that are kept under a name. -/
inductive Entity where
  | channel
  | derivation
  | threshold
  | alert
deriving DecidableEq, Repr

/-- The word for the thing in messages. -/
def Entity.noun : Entity → String
  | channel => "channel"
  | derivation => "derivation"
  | threshold => "threshold"
  | alert => "alert"

/-- The numbers that must be finite wherever they are given. -/
inductive Quantity where
  | initial
  | lower
  | upper
  | maxStep
  | override
  | limit
deriving DecidableEq, Repr

/-- The name of the number in messages. -/
def Quantity.label : Quantity → String
  | initial => "channel.initial"
  | lower => "channel.lower"
  | upper => "channel.upper"
  | maxStep => "channel.max_step"
  | override => "set_value"
  | limit => "threshold.value"

/-- The constants of a formula. -/
inductive Coefficient where
  | scale
  | offset
deriving DecidableEq, Repr

/-- The name of the constant in messages. -/
def Coefficient.label : Coefficient → String
  | scale => "scale"
  | offset => "offset"

/-- Why a file could not be read as text. -/
inductive FileProblem where
  | missing
  | directory
  | notText
  | other (detail : String)
deriving DecidableEq, Repr

/-- The system's wording of the problem. -/
def FileProblem.detail : FileProblem → String
  | missing => "No such file or directory (os error 2)"
  | directory => "Is a directory (os error 21)"
  | notText => "stream did not contain valid UTF-8"
  | other detail => detail

/-- Why an operation was refused. -/
inductive Fault where
  | emptyName (entity : Entity)
  | alreadyRegistered (entity : Entity) (name : String)
  | notFinite (quantity : Quantity) (value : Float)
  | boundsCrossed (channel : String) (lower upper : Float)
  | initialOutside (channel : String) (initial lower upper : Float)
  | negativeStep (channel : String)
  | ruleWithoutChannel (rule : String)
  | dependencyUnknown (derivation channel : String)
  | ruleChannelUnknown (rule channel : String)
  | coefficientNotFinite (derivation : String) (coefficient : Coefficient)
  | operandMissing (derivation : String) (operation : Operation)
  | precisionTooLarge (places greatest : Nat)
  | unsupportedVersion (version supported : Nat)
  | noChannels
  | periodOutOfRange (least greatest : Nat)
  | noTicksAllowed
  | malformedConfig
  | malformedData
  | notRegistered (entity : Entity) (name : String)
  | dependencyMissing (channel derivation : String)
  | ruleChannelMissing (channel rule : String)
  | listenerCrashed (message : Option String)
  | unreadable (path : String) (problem : FileProblem)
  /-- A failure that a listener reports in its own words. -/
  | reported (category : Category) (detail : String)

namespace Fault

/-- The class of a fault. -/
def category : Fault → Category
  | emptyName _ | alreadyRegistered _ _ | notFinite _ _ | boundsCrossed _ _ _
  | initialOutside _ _ _ _ | negativeStep _ | ruleWithoutChannel _ | dependencyUnknown _ _
  | ruleChannelUnknown _ _ | coefficientNotFinite _ _ | operandMissing _ _
  | precisionTooLarge _ _ | unsupportedVersion _ _ | noChannels | periodOutOfRange _ _
  | noTicksAllowed | malformedConfig | malformedData => .config
  | notRegistered _ _ | dependencyMissing _ _ | ruleChannelMissing _ _ => .notFound
  | listenerCrashed _ => .listener
  | unreadable _ _ => .io
  | reported category _ => category

/-- The part of the message that names the cause. -/
def detail : Fault → String
  | emptyName entity => entity.noun ++ " name must not be empty"
  | alreadyRegistered entity name => entity.noun ++ " already registered: " ++ name
  | notFinite quantity value =>
    quantity.label ++ " must be finite (got " ++ Number.text value ++ ")"
  | boundsCrossed channel lower upper =>
    "channel " ++ channel ++ ": lower bound " ++ Number.text lower ++ " exceeds upper bound "
      ++ Number.text upper
  | initialOutside channel initial lower upper =>
    "channel " ++ channel ++ ": initial value " ++ Number.text initial ++ " outside ["
      ++ Number.text lower ++ ", " ++ Number.text upper ++ "]"
  | negativeStep channel => "channel " ++ channel ++ ": max_step must not be negative"
  | ruleWithoutChannel rule => "threshold " ++ rule ++ ": channel must not be empty"
  | dependencyUnknown derivation channel =>
    "derivation " ++ derivation ++ " depends on unknown channel " ++ channel
  | ruleChannelUnknown rule channel =>
    "threshold " ++ rule ++ " refers to unknown channel " ++ channel
  | coefficientNotFinite derivation coefficient =>
    "derivation " ++ derivation ++ ": " ++ coefficient.label ++ " must be finite"
  | operandMissing derivation operation =>
    "derivation " ++ derivation ++ ": " ++ operation.title ++ " needs a right operand"
  | precisionTooLarge places greatest =>
    "precision must be between 0 and " ++ toString greatest ++ " (got " ++ toString places ++ ")"
  | unsupportedVersion version supported =>
    "unsupported config version " ++ toString version ++ " (expected " ++ toString supported ++ ")"
  | noChannels => "channels must not be empty"
  | periodOutOfRange least greatest =>
    "driver.period_ms must be between " ++ toString least ++ " and " ++ toString greatest
  | noTicksAllowed => "driver.max_ticks must be positive when set"
  | malformedConfig => "invalid yaml"
  | malformedData => "invalid json"
  | notRegistered entity name => entity.noun ++ ": " ++ name
  | dependencyMissing channel derivation =>
    "channel " ++ channel ++ " (required by derivation " ++ derivation ++ ")"
  | ruleChannelMissing channel rule =>
    "channel " ++ channel ++ " (required by threshold " ++ rule ++ ")"
  | listenerCrashed none => "listener panicked"
  | listenerCrashed (some message) => "listener panicked: " ++ message
  | unreadable path problem => "read config " ++ path ++ " failed: " ++ problem.detail
  | reported _ detail => detail

/-- The message shown for a fault. -/
def message (fault : Fault) : String := fault.category.heading ++ fault.detail

end Fault

/-- Refuse NaN and the infinities. -/
def ensureFinite (quantity : Quantity) (value : Float) : Except Fault Unit :=
  if value.isFinite then .ok () else .error (.notFinite quantity value)

end Telemetry
