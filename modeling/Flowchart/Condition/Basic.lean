import Flowchart.Document.Record

/-!
# Conditions

A condition guards a branch, a step or a loop.  It is a raw expression, or it
compares the value that a step left at some path.  The conditions of a list are
joined by conjunctions, each of which stands at the later one of the two
conditions that it joins.
-/

namespace Flowchart

/-! ## Conditions and their parts -/

/-- The construct that a condition belongs to. -/
inductive ConditionKind where
  | ifKind
  | elseKind
  | whenKind
  | untilKind
  | whileKind
  | doUntilKind
  | doWhileKind
  deriving DecidableEq, Repr

/-- How a condition is joined to the one before it. -/
inductive Conjunction where
  | and
  | or
  | not
  deriving DecidableEq, Repr

/-- The value that a step left at a path. -/
structure Reference where
  stepId : String
  path : String
  deriving DecidableEq, Repr

/-- The operator of a comparison. -/
inductive ComparisonOp where
  | eq
  | ne
  | is
  | gt
  | gte
  | lt
  | lte
  | inList
  | notInList
  | present
  deriving DecidableEq, Repr

/-- The right-hand side of a comparison, as text. -/
structure Comparison where
  op : ComparisonOp
  value : String
  deriving DecidableEq, Repr

/-- One condition. -/
structure Condition where
  kind : ConditionKind
  reference : Option Reference
  comparison : Option Comparison
  rawExpression : Option String
  conjunction : Option Conjunction
  deriving DecidableEq, Repr

/-! ## Words -/

namespace ConditionKind

/-- The word for a kind. -/
def word : ConditionKind → String
  | ifKind => "if"
  | elseKind => "else"
  | whenKind => "when"
  | untilKind => "until"
  | whileKind => "while"
  | doUntilKind => "dountil"
  | doWhileKind => "dowhile"

/-- The words of all kinds. -/
def words : List (String × ConditionKind) :=
  [ifKind, elseKind, whenKind, untilKind, whileKind, doUntilKind,
    doWhileKind].map fun kind => (kind.word, kind)

/-- The kind with the given word. -/
def ofWord? (word : String) : Option ConditionKind :=
  words.lookup word

end ConditionKind

namespace Conjunction

/-- The word for a conjunction. -/
def word : Conjunction → String
  | and => "and"
  | or => "or"
  | not => "not"

/-- The words of all conjunctions. -/
def words : List (String × Conjunction) :=
  [and, or, not].map fun conjunction => (conjunction.word, conjunction)

/-- The conjunction with the given word. -/
def ofWord? (word : String) : Option Conjunction :=
  words.lookup word

end Conjunction

namespace ComparisonOp

/-- The word for an operator. -/
def word : ComparisonOp → String
  | eq => "eq"
  | ne => "ne"
  | is => "is"
  | gt => "gt"
  | gte => "gte"
  | lt => "lt"
  | lte => "lte"
  | inList => "in"
  | notInList => "nin"
  | present => "exists"

/-- The words of all operators. -/
def words : List (String × ComparisonOp) :=
  [eq, ne, is, gt, gte, lt, lte, inList, notInList, present].map
    fun op => (op.word, op)

/-- The operator of a query key: its word behind a dollar sign.  A query cannot
ask for `is`. -/
def ofQueryKey? (key : String) : Option ComparisonOp :=
  ((words.filter fun entry => entry.2 ≠ is).map
    fun entry => ("$" ++ entry.1, entry.2)).lookup key

end ComparisonOp

/-! ## Written forms -/

namespace Reference

/-- The step id that stands for what triggered the workflow. -/
def triggerStepId : String := "trigger"

/-- The reference reads what triggered the workflow. -/
def isTrigger (reference : Reference) : Bool :=
  reference.stepId == triggerStepId

/-- The written form of a reference. -/
def toTree (reference : Reference) : Tree :=
  .map [("stepId", .text reference.stepId), ("path", .text reference.path)]

/-- Reads a reference. -/
def decode : Decoder Reference :=
  (Reference.mk
    <$> .required "stepId" .text
    <*> .required "path" .text : RecordDecoder _).decode

end Reference

namespace Comparison

/-- The written form of a comparison. -/
def toTree (comparison : Comparison) : Tree :=
  .map [("op", .text comparison.op.word), ("value", .text comparison.value)]

/-- Reads a comparison. -/
def decode : Decoder Comparison :=
  (Comparison.mk
    <$> .required "op" (.oneOf ComparisonOp.words true)
    <*> .required "value" .text : RecordDecoder _).decode

end Comparison

namespace Condition

/-- A condition that says nothing but its kind. -/
def bare (kind : ConditionKind) : Condition :=
  ⟨kind, none, none, none, none⟩

/-- A condition that is an expression. -/
def raw (kind : ConditionKind) (expression : String) : Condition :=
  { bare kind with rawExpression := some expression }

/-- A condition that compares a referenced value. -/
def compare (kind : ConditionKind) (reference : Reference)
    (comparison : Comparison) : Condition :=
  { bare kind with reference := some reference, comparison := some comparison }

/-- The same condition joined in another way. -/
def withConjunction (condition : Condition)
    (conjunction : Option Conjunction) : Condition :=
  { condition with conjunction }

/-- The written form of a condition. -/
def toTree (condition : Condition) : Tree :=
  .map <|
    [("kind", .text condition.kind.word)] ++
    Tree.optionalField "reference" (condition.reference.map Reference.toTree) ++
    Tree.optionalField "comparison"
      (condition.comparison.map Comparison.toTree) ++
    Tree.optionalField "rawExpression" (condition.rawExpression.map .text) ++
    Tree.optionalField "conjunction"
      (condition.conjunction.map fun c => .text c.word)

/-- Reads a condition. -/
def decode : Decoder Condition :=
  (Condition.mk
    <$> .required "kind" (.oneOf ConditionKind.words true)
    <*> .optional "reference" Reference.decode
    <*> .optional "comparison" Comparison.decode
    <*> .optional "rawExpression" .text
    <*> .optional "conjunction" (.oneOf Conjunction.words true)
    : RecordDecoder _).decode

end Condition

end Flowchart
