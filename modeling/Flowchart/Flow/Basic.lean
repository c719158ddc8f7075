import Flowchart.Condition.Basic

/-!
# Step flows

A step flow is a list of entries.  Most entries are a single step or a pause; a
loop repeats a step, and a parallel or conditional entry holds branches, each of
which is a flow of its own.  A step may stand for a whole workflow and then
carry the flow of that workflow.
-/

namespace Flowchart

/-- A step.  The type of the entries of its nested flow is a parameter. -/
structure Step (ε : Type) where
  id : String
  description : Option String
  /-- The step stands for a workflow. -/
  isWorkflow : Bool
  nestedFlow : Option (List ε)
  mapConfig : Option String
  deriving Repr

/-- How many items a step that runs for each item of a list may treat at a
time. -/
structure ForeachOptions where
  concurrency : UInt32
  deriving DecidableEq, Repr

/-- The condition that ends a loop. -/
structure ExitCondition where
  id : String
  expr : String
  deriving DecidableEq, Repr

/-- Whether a loop runs until its condition holds or while it does. -/
inductive LoopKind where
  | untilKind
  | whileKind
  deriving DecidableEq, Repr

/-- An entry of a step flow. -/
inductive Entry where
  | step (step : Step Entry)
  | foreach (step : Step Entry) (options : Option ForeachOptions)
  | sleep (id : String) (duration : UInt64)
  | sleepUntil (id : String) (date : String)
  | waitForEvent (id : String) (event : String) (description : Option String)
  | loop (step : Step Entry) (exit : ExitCondition) (kind : LoopKind)
  | parallel (branches : List (List Entry))
  | conditional (branches : List (List Entry)) (conditions : List Condition)
  deriving Repr

/-- A step flow. -/
abbrev Flow := List Entry

/-- The type of an entry. -/
inductive EntryType where
  | step
  | foreach
  | sleep
  | sleepUntil
  | waitForEvent
  | loop
  | parallel
  | conditional
  deriving DecidableEq, Repr

namespace Step

/-- A step without a nested flow. -/
def plain (id : String) (description : Option String) : Step ε :=
  ⟨id, description, false, none, none⟩

/-- The flow that can be looked into: the nested flow of a step that stands for
a workflow. -/
def nested? (step : Step ε) : Option (List ε) :=
  if step.isWorkflow then step.nestedFlow else none

end Step

namespace LoopKind

/-- The word for a kind of loop. -/
def word : LoopKind → String
  | untilKind => "until"
  | whileKind => "while"

/-- The words that are read as a kind of loop. -/
def words : List (String × LoopKind) :=
  [("until", untilKind), ("dountil", untilKind), ("while", whileKind),
    ("dowhile", whileKind)]

/-- The kind of loop with the given word. -/
def ofWord? (word : String) : Option LoopKind :=
  words.lookup word

/-- The kind of the condition that ends such a loop. -/
def conditionKind : LoopKind → ConditionKind
  | untilKind => .untilKind
  | whileKind => .whileKind

end LoopKind

namespace EntryType

/-- The word for a type. -/
def word : EntryType → String
  | step => "step"
  | foreach => "foreach"
  | sleep => "sleep"
  | sleepUntil => "sleepUntil"
  | waitForEvent => "waitForEvent"
  | loop => "loop"
  | parallel => "parallel"
  | conditional => "conditional"

/-- All types, each at the place that is its number. -/
def all : List EntryType :=
  [step, foreach, sleep, sleepUntil, waitForEvent, loop, parallel, conditional]

/-- The type with the given word. -/
def ofWord? (word : String) : Option EntryType :=
  all.find? fun type => type.word == word

/-- The type with the given number. -/
def ofNumber? (number : Nat) : Option EntryType :=
  all[number]?

end EntryType

namespace Entry

/-- The type of an entry. -/
def type : Entry → EntryType
  | .step _ => .step
  | .foreach _ _ => .foreach
  | .sleep _ _ => .sleep
  | .sleepUntil _ _ => .sleepUntil
  | .waitForEvent _ _ _ => .waitForEvent
  | .loop _ _ _ => .loop
  | .parallel _ => .parallel
  | .conditional _ _ => .conditional

/-- The id that the document gives to the first node of the entry. -/
def declaredId? : Entry → Option String
  | .step s | .foreach s _ | .loop s _ _ => some s.id
  | .sleep id _ | .sleepUntil id _ | .waitForEvent id _ _ => some id
  | .parallel _ | .conditional _ _ => none

mutual

/-- The first declared id in an entry, through the first entries of its
branches. -/
def firstDeclaredId? : Entry → Option String
  | .parallel branches => firstDeclaredIdIn? branches
  | .conditional branches _ => firstDeclaredIdIn? branches
  | .step s | .foreach s _ | .loop s _ _ => some s.id
  | .sleep id _ | .sleepUntil id _ | .waitForEvent id _ _ => some id
termination_by structural e => e

/-- The first declared id at the head of one of the branches. -/
def firstDeclaredIdIn? : List (List Entry) → Option String
  | [] => none
  | branch :: branches =>
    (firstDeclaredIdAt? branch).or (firstDeclaredIdIn? branches)
termination_by structural branches => branches

/-- The first declared id in the first entry of a branch. -/
def firstDeclaredIdAt? : List Entry → Option String
  | [] => none
  | e :: _ => e.firstDeclaredId?
termination_by structural branch => branch

end

end Entry

end Flowchart
