import TraceProfile.Clock
import TraceProfile.Counter.Basic
import TraceProfile.Number.Numeral

/-!
# Counters in lines

The first line of a counter file defines the counter: category, name, description and color,
with commas between them. Every other line that is not blank is a sample: tick, value and number
of operations. One line that does not fit makes the whole file unusable.
-/

namespace TraceProfile.Counter

/-- The category of a name. -/
def categoryOf (name : String) : Except Fault CounterCategory :=
  match CounterCategory.ofName? name with
  | some category => .ok category
  | none => .error (Refusal.unknownCategory (Text.quote name))

/-- The counter that a line defines, without samples. The color may hold further commas, and is
no color then. -/
def ofDefinition (line : String) : Except Fault Counter :=
  match Text.splitAtMost ',' 3 (Text.stripLineEnd line) with
  | [category, name, description, color] =>
    (categoryOf category).map fun category =>
      ⟨name, category, description, GraphColor.ofName? color, []⟩
  | _ => .error (Refusal.badDefinition line)

/-- The sample on a line. -/
def sampleOfLine (clock : Clock) (line : String) : Except Fault CounterSample :=
  match Text.splitAtMost ',' 2 (Text.strip line) with
  | [tick, value, count] =>
    match Numeral.readInteger tick, Numeral.readDecimal value, Numeral.readInteger count with
    | .ok tick, .ok value, .ok count => .ok ⟨clock.convert tick, .real value, count⟩
    | _, _, _ => .error (Refusal.badSample (Text.quote line))
  | _ => .error (Refusal.badSample (Text.quote line))

/-- The samples on the lines that are not blank. -/
def samplesOfLines (clock : Clock) (lines : List String) : Except Fault (List CounterSample) :=
  (lines.filter (!Text.isBlankText ·)).mapM (sampleOfLine clock)

/-- The counter of a list of lines. -/
def ofLines (clock : Clock) : List String → Except Fault Counter
  | [] => .error Refusal.noDefinition
  | definition :: rest => do
    if Text.isBlankText definition then throw (.refusal .noDefinition)
    let counter ← ofDefinition definition
    let samples ← samplesOfLines clock rest
    pure { counter with samples }

end TraceProfile.Counter
