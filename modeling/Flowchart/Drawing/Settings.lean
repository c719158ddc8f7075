import Flowchart.Diagram.Encode
import Flowchart.Document.Adjustments
import Flowchart.Document.Strict
import Flowchart.Layout.Placement

/-!
# Settings

The measures of a layout and the style of edges.  Both have standard values,
which a document of adjustments may change; such a document is written in the
strict notation.
-/

namespace Flowchart

open Layout (Measures)

/-! ## Settings of a drawing -/

/-- The measures unless others are asked for. -/
def Layout.Measures.standard : Measures Float32 where
  nodeWidth := 274
  nodeHeight := 100
  largeNodeHeight := 260
  nodeSpacing := 50
  rankSpacing := 50
  orderPasses := 4

/-- How a drawing is made. -/
structure Settings where
  measures : Measures Float32
  edgeStyle : EdgeStyle
  deriving Repr

namespace Settings

/-- The settings unless others are asked for. -/
def standard : Settings := ⟨.standard, .standard⟩

/-- Changes measures. -/
def adjustMeasures (old : Measures Float32) (draft : Draft) :
    Option (Measures Float32) := do
  let adjustments ← draft.adjustments? ["nodeWidth", "nodeHeight",
    "largeNodeHeight", "nodeSpacing", "rankSpacing", "orderPasses"]
  return {
    nodeWidth :=
      ← adjustments.apply "nodeWidth" Draft.single? old.nodeWidth
    nodeHeight :=
      ← adjustments.apply "nodeHeight" Draft.single? old.nodeHeight
    largeNodeHeight :=
      ← adjustments.apply "largeNodeHeight" Draft.single? old.largeNodeHeight
    nodeSpacing :=
      ← adjustments.apply "nodeSpacing" Draft.single? old.nodeSpacing
    rankSpacing :=
      ← adjustments.apply "rankSpacing" Draft.single? old.rankSpacing
    orderPasses :=
      ← adjustments.apply "orderPasses" Draft.natural? old.orderPasses }

/-- Changes a style of edges. -/
def adjustEdgeStyle (old : EdgeStyle) (draft : Draft) : Option EdgeStyle := do
  let adjustments ← draft.adjustments?
    ["animated", "stroke", "strokeWidth", "markerEnd"]
  return {
    animated := ← adjustments.apply "animated" Draft.bool? old.animated
    stroke := ← adjustments.apply "stroke" Draft.text? old.stroke
    strokeWidth :=
      ← adjustments.apply "strokeWidth" Draft.single? old.strokeWidth
    markerEnd := ← adjustments.apply "markerEnd"
      (fun draft => (draft.oneOf? MarkerEnd.words).map some) old.markerEnd }

/-- Changes settings. -/
def adjust (old : Settings) (draft : Draft) : Option Settings := do
  let adjustments ← draft.adjustments? ["layout", "edgeStyle"]
  return {
    measures :=
      ← adjustments.apply "layout" (adjustMeasures old.measures) old.measures
    edgeStyle :=
      ← adjustments.apply "edgeStyle" (adjustEdgeStyle old.edgeStyle)
        old.edgeStyle }

/-- The settings that a text asks for. -/
def ofText? (text : String) : Option Settings :=
  (Draft.ofStrict? text).bind standard.adjust

/-- The written form of settings. -/
def toTree (settings : Settings) : Tree :=
  .map [
    ("layout", .map [
      ("nodeWidth", .single settings.measures.nodeWidth),
      ("nodeHeight", .single settings.measures.nodeHeight),
      ("largeNodeHeight", .single settings.measures.largeNodeHeight),
      ("nodeSpacing", .single settings.measures.nodeSpacing),
      ("rankSpacing", .single settings.measures.rankSpacing),
      ("orderPasses", .int settings.measures.orderPasses)]),
    ("edgeStyle", settings.edgeStyle.toTree)]

end Settings

/-! ## Options of an embedded drawing -/

/-- How an embedding page wants a flow to be drawn. -/
structure EmbedOptions where
  settings : Settings
  /-- The path of the nested flow that is to be drawn. -/
  drill : Option String
  deriving Repr

namespace EmbedOptions

/-- The options unless others are asked for. -/
def standard : EmbedOptions := ⟨.standard, none⟩

/-- The options that a draft asks for. -/
def ofDraft? (draft : Draft) : Option EmbedOptions := do
  let adjustments ← draft.adjustments? ["nodeWidth", "nodeHeight",
    "largeNodeHeight", "nodeSpacing", "rankSpacing", "animatedEdges", "drill"]
  let old := Settings.standard
  let measures := {
    nodeWidth :=
      ← adjustments.apply "nodeWidth" Draft.single? old.measures.nodeWidth
    nodeHeight :=
      ← adjustments.apply "nodeHeight" Draft.single? old.measures.nodeHeight
    largeNodeHeight :=
      ← adjustments.apply "largeNodeHeight" Draft.single?
        old.measures.largeNodeHeight
    nodeSpacing :=
      ← adjustments.apply "nodeSpacing" Draft.single? old.measures.nodeSpacing
    rankSpacing :=
      ← adjustments.apply "rankSpacing" Draft.single? old.measures.rankSpacing
    orderPasses := old.measures.orderPasses }
  let animated ←
    adjustments.apply "animatedEdges" Draft.bool? old.edgeStyle.animated
  let drill ← adjustments.apply "drill" (fun draft => draft.text?.map some) none
  return ⟨⟨measures, { old.edgeStyle with animated }⟩, drill⟩

/-- The options that a text asks for. -/
def ofText? (text : String) : Option EmbedOptions :=
  (Draft.ofStrict? text).bind ofDraft?

end EmbedOptions

end Flowchart
