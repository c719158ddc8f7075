import Flowchart.Document.Reading
import Flowchart.Workflow.Encode

/-!
# Reading chained workflows

The heads of a graph are read before the followers.
-/

namespace Flowchart

namespace ChainStep

/-- The settings of a step of a chain. -/
structure Settings where
  guard : Option Tree
  loopKind : Option LoopKind
  loopLabel : Option String

/-- Reads the settings of a step. -/
def Settings.decode : Decoder Settings :=
  (Settings.mk
    <$> .optional "when" .ok
    <*> .optional "loopType" (.oneOf LoopKind.words false)
    <*> .optional "loopLabel" .text : RecordDecoder _).decode

/-- Reads the id and the description of a step. -/
def decodeName : Decoder (String × Option String) :=
  (Prod.mk
    <$> .required "id" .text
    <*> .optional "description" .text : RecordDecoder _).decode

/-- Reads a step of a chain. -/
def decode : Decoder ChainStep :=
  ((fun name settings =>
      ChainStep.mk name.1 name.2 settings.guard settings.loopKind
        settings.loopLabel)
    <$> .required "step" decodeName
    <*> .withDefault "config" Settings.decode ⟨none, none, none⟩
    : RecordDecoder ChainStep).decode

end ChainStep

/-- Reads a graph. -/
def ChainGraph.decode : Decoder ChainGraph
  | .map fields => do
    let heads ←
      match fields.lookup headsKey with
      | some tree => Decoder.list ChainStep.decode tree
      | none => .ok []
    let followers ← Decoder.fields (.list ChainStep.decode)
      (.map (fields.filter fun field => field.1 != headsKey))
    return ⟨heads, followers⟩
  | _ => .error .mismatch

namespace Workflow

/-- Reads a workflow. -/
def decode : Decoder Workflow :=
  (Workflow.mk
    <$> .withDefault "stepGraph" ChainGraph.decode .empty
    <*> .withDefault "stepSubscriberGraph" (.fields ChainGraph.decode) []
    : RecordDecoder _).decode

/-- The workflow of a document. -/
def ofDocument : Tree → Except ParseError Workflow
  | .null => .ok .empty
  | .map fields => (decode (.map fields)).mapError .decoding
  | tree => .error (.notAWorkflow tree)

/-- The workflow that a text holds. -/
def ofText (text : String) : Except Error Workflow :=
  (Tree.ofText text >>= ofDocument).mapError .parse

end Workflow

end Flowchart
