import Flowchart.Diagram.OfFlow
import Flowchart.Diagram.OfWorkflow
import Flowchart.Drawing.Basic
import Flowchart.Drawing.Settings
import Flowchart.Flow.Nested
import Flowchart.Flow.Reading
import Flowchart.Workflow.Decode

/-!
# From text to drawing

What is drawn is a step flow, a flow nested in one, or a chained workflow.
-/

namespace Flowchart

/-- What a text is read as. -/
inductive Source where
  /-- A step flow, or the flow nested in it that a path leads to. -/
  | flow (drill : Option String)
  | workflow
  deriving DecidableEq, Repr

namespace Diagram

/-- The diagram of a text, and the label of the nested flow that is drawn. -/
def ofText (source : Source) (style : EdgeStyle) (text : String) :
    Except Error (Diagram × Option String) := do
  match source with
  | .flow none => return (← ofFlow style (← Flow.ofText text), none)
  | .flow (some path) =>
    let nested ← (← Flow.ofText text).findNested path
    return (← ofFlow style nested.flow, some nested.label)
  | .workflow => return (← ofWorkflow style (← Workflow.ofText text), none)

end Diagram

namespace Drawing

/-- The drawing of a text, laid out or not. -/
def ofText (source : Source) (settings : Settings) (laidOut : Bool)
    (text : String) : Except Error (Drawing Float32) := do
  let (diagram, label) ← Diagram.ofText source settings.edgeStyle text
  let drawing :=
    if laidOut then ofPlaced (diagram.place settings.measures)
    else ofDiagram settings.measures diagram
  return drawing.withLabel label

end Drawing

/-- Why an embedding page gets no drawing. -/
inductive EmbedError where
  | badOptions
  | noDrawing (error : Error)
  deriving Repr

/-- The text of the drawing that an embedding page gets.  The options are read
first. -/
def embed (isWorkflow : Bool) (options : Option String) (text : String) :
    Except EmbedError String := do
  let options ←
    match options with
    | none => pure EmbedOptions.standard
    | some options =>
      match EmbedOptions.ofText? options with
      | some options => pure options
      | none => throw .badOptions
  let source :=
    if isWorkflow then Source.workflow else Source.flow options.drill
  ((Drawing.ofText source options.settings true text).map
    (Drawing.toText false)).mapError .noDrawing

end Flowchart
