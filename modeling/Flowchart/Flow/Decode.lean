import Flowchart.Flow.Basic

/-!
# Reading step flows

The field `type` of an entry, or the first item of an entry that is written as a
list, decides how the rest of the entry is read.  It is looked at before
everything else.  It holds the word for the type; an entry that stands inside
another one may also give the number of its type.
-/

namespace Flowchart

/-- Reads the options. -/
def ForeachOptions.decode : Decoder ForeachOptions :=
  (ForeachOptions.mk
    <$> .required "concurrency" .word32 : RecordDecoder _).decode

/-- Reads an exit condition. -/
def ExitCondition.decode : Decoder ExitCondition :=
  (ExitCondition.mk
    <$> .required "id" .text
    <*> .required "expr" .text : RecordDecoder _).decode

/-- The fields of a step, given how its nested flow is read. -/
def Step.record (flow : Decoder (List ε)) : RecordDecoder (Step ε) :=
  Step.mk
    <$> .required "id" .text
    <*> .optional "description" .text
    <*> .withDefault "isWorkflow" .bool false
    <*> .optional "nestedFlow" flow
    <*> .optional "mapConfig" .text

namespace EntryType

/-- Reads the word for a type. -/
def decodeWord : Decoder EntryType
  | .text word =>
    match ofWord? word with
    | some type => .ok type
    | none => .error (.unknownWord word)
  | _ => .error .mismatch

/-- Reads the word for a type or the number of a type. -/
def decodeWordOrNumber : Decoder EntryType
  | .number (.int (.ofNat number)) =>
    match ofNumber? number with
    | some type => .ok type
    | none => .error .mismatch
  | tree => decodeWord tree

end EntryType

namespace Entry

/-- The fields of the entries of a type, given how flows in them are read. -/
def record (flow : Decoder (List Entry)) : EntryType → RecordDecoder Entry
  | .step => .step <$> Step.record flow
  | .foreach => .foreach
      <$> .required "step" (Step.record flow).decode
      <*> .optional "opts" ForeachOptions.decode
  | .sleep => .sleep
      <$> .required "id" .text
      <*> .required "duration" .word64
  | .sleepUntil => .sleepUntil
      <$> .required "id" .text
      <*> .required "date" .text
  | .waitForEvent => .waitForEvent
      <$> .required "id" .text
      <*> .required "event" .text
      <*> .optional "description" .text
  | .loop => .loop
      <$> .required "step" (Step.record flow).decode
      <*> .required "exitCondition" ExitCondition.decode
      <*> .required "loopKind" (.oneOf LoopKind.words true)
  | .parallel => .parallel <$> .required "branches" (.list flow)
  | .conditional => .conditional
      <$> .required "branches" (.list flow)
      <*> .required "branchConditions" (.list Condition.decode)

/-- The type of an entry, from the tree that gives it.  `inside` says whether
the entry stands inside another one. -/
def decodeType (inside : Bool) : Option Tree → Except DecodeError EntryType
  | none => .error (.missingField "type")
  | some tree =>
    if inside then EntryType.decodeWordOrNumber tree
    else EntryType.decodeWord tree

/-- Reads an entry, given whether it stands inside another one and how flows in
it are read. -/
def decodeWith (inside : Bool) (flow : Decoder (List Entry)) : Decoder Entry
  | .map fields => do
    (record flow (← decodeType inside (fields.lookup "type"))).ofFields fields
  | .list items => do
    (record flow (← decodeType inside items.head?)).ofItems items.tail
  | _ => .error .mismatch

/-- Reads an entry that stands inside another one and whose tree is not higher
than `height`. -/
def decodeWithin : (height : Nat) → Decoder Entry
  | 0 => fun _ => .error .mismatch
  | height + 1 => decodeWith true (.list (decodeWithin height))

/-- Reads an entry that stands inside no other one. -/
def decode : Decoder Entry :=
  fun tree => decodeWith false (.list (decodeWithin tree.height)) tree

end Entry

/-- Reads a flow. -/
def Flow.decode : Decoder Flow :=
  .list Entry.decode

end Flowchart
