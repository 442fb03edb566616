/-!
# Sources of random draws

The walk takes its draws from a source that the caller passes in, so a run can
be repeated. A source is any state with a rule for the next draw; nothing is
promised about the draws themselves, and the channels normalise them. Given here
are a constant, a list repeated for ever, and uniform draws made of 64-bit
words, whose generator can be taken back with all that was not drawn left in it.
-/
namespace Telemetry

/-- A state that yields one draw after another. -/
class Source (ρ : Type) where
  draw : ρ → Float × ρ

/-- The next `count` draws, and the source after them. -/
def Source.draws {ρ : Type} [Source ρ] : Nat → ρ → List Float × ρ
  | 0, source => ([], source)
  | count + 1, source =>
    let (first, after) := Source.draw source
    let (rest, final) := Source.draws count after
    (first :: rest, final)

/-- The same draw every time. -/
structure Fixed where
  factor : Float

instance : Source Fixed := ⟨fun source => (source.factor, source)⟩

/-- A list of draws, repeated for ever. `position` is the index of the next
one. -/
structure Cycle where
  factors : List Float
  position : Nat := 0

/-- An empty list yields zero. -/
def Cycle.draw (source : Cycle) : Float × Cycle :=
  match source.factors[source.position]? with
  | some factor =>
    (factor, { source with position := (source.position + 1) % source.factors.length })
  | none => (0, source)

instance : Source Cycle := ⟨Cycle.draw⟩

/-- A state that yields one 64-bit word after another. -/
class WordSource (γ : Type) where
  next : γ → UInt64 × γ

/-- A list of words, repeated for ever. -/
structure WordCycle where
  words : List UInt64
  position : Nat := 0

/-- An empty list yields zero. -/
def WordCycle.next (source : WordCycle) : UInt64 × WordCycle :=
  match source.words[source.position]? with
  | some word => (word, { source with position := (source.position + 1) % source.words.length })
  | none => (0, source)

instance : WordSource WordCycle := ⟨WordCycle.next⟩

/-- A small mixing generator for runs that nobody needs to repeat elsewhere: a
counter in steps of an odd constant, scrambled on the way out. -/
structure Mixer where
  counter : UInt64

/-- Advance the counter and scramble it. -/
def Mixer.next (source : Mixer) : UInt64 × Mixer :=
  let counter := source.counter + 0x9E3779B97F4A7C15
  let first := (counter ^^^ (counter >>> 30)) * 0xBF58476D1CE4E5B9
  let second := (first ^^^ (first >>> 27)) * 0x94D049BB133111EB
  (second ^^^ (second >>> 31), ⟨counter⟩)

instance : WordSource Mixer := ⟨Mixer.next⟩

/-- Uniform draws from the words of a generator, one word each. -/
structure Uniform (γ : Type) where
  generator : γ

/-- The upper 52 bits of a word as a number from -1 up to but not including 1.
Both steps are exact. -/
def unitOfWord (word : UInt64) : Float :=
  2.0 * ((word >>> 12).toFloat / 4503599627370496.0) - 1.0

instance {γ : Type} [WordSource γ] : Source (Uniform γ) :=
  ⟨fun source =>
    let (word, after) := WordSource.next source.generator
    (unitOfWord word, ⟨after⟩)⟩

/-- Either of two kinds of source. -/
instance {ρ τ : Type} [Source ρ] [Source τ] : Source (ρ ⊕ τ) :=
  ⟨fun source =>
    match source with
    | .inl left => let (draw, after) := Source.draw left; (draw, .inl after)
    | .inr right => let (draw, after) := Source.draw right; (draw, .inr after)⟩

end Telemetry
