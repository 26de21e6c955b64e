import EarleyChart.Diagnosis.Basic
import EarleyChart.Source.Highlight
import EarleyChart.Text.Quoted

/-!
Contract: diagnoses as text.

The text names the terminals that could follow, shows the offending token in its source line if the
source is at hand, and lists the traces with their productions flush left.
-/

namespace EarleyChart

namespace TraceStep

/-- The matched text as the source has it, or as its tokens have it. -/
def matchedText (step : TraceStep) (source : Option String) : String :=
  match source with
  | some source => if step.span.isEmpty then step.matched else step.span.text source
  | none => step.matched

/-- The line of a step, its production padded to `width` characters. -/
def render (step : TraceStep) (source : Option String) (width : Nat) : String :=
  let padding := String.ofList (List.replicate (width - step.rule.length) ' ')
  let matched := step.matchedText source
  let tail :=
    if matched.isEmpty then s!"  at {step.span.start.display}\n"
    else s!"  matched {Quoted.text matched} at {step.span.display}\n"
  "    " ++ step.rule ++ padding ++ tail

end TraceStep

/-- The lines of a trace. -/
def Trace.render (trace : Trace) (source : Option String) : String :=
  let width := (trace.steps.map fun step => step.rule.length).foldl max 0
  s!"  expecting {trace.expected}:\n"
    ++ String.join (trace.steps.map fun step => step.render source width)

namespace Diagnosis

/-- The line that names the terminals which could follow. -/
def renderExpected (diagnosis : Diagnosis) : String :=
  if diagnosis.expected.isEmpty then "no token can continue the input here\n"
  else "expected one of: " ++ String.intercalate ", " diagnosis.expected ++ "\n"

/-- The text of a diagnosis. -/
def render (diagnosis : Diagnosis) (source : Option String) : String :=
  let shown := match source with
    | some source => "\n" ++ Source.highlight source diagnosis.token.span
    | none => ""
  let head :=
    if diagnosis.traces.isEmpty then ""
    else "\npartial derivations that could have continued:\n"
  let omitted :=
    if diagnosis.omitted = 0 then "" else s!"  ... and {diagnosis.omitted} more\n"
  diagnosis.renderExpected ++ shown ++ head
    ++ String.join (diagnosis.traces.map fun trace => trace.render source) ++ omitted

end Diagnosis

end EarleyChart
