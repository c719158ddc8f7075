import Flowchart.Condition.Basic
import Flowchart.Document.Render
import Flowchart.Text.Blank

/-!
# Condition groups

A group is a tree that describes a condition:

- a text is a raw expression;
- a map with a key `ref` compares a reference by the operator of its `query`;
- a map with some of the keys `and`, `or` and `not` joins the groups under them,
  visited in this order;
- a map with a single key of the form `step.path` compares the value at that
  path.

Any other tree describes nothing.  `Condition.ofGroup` lists the conditions of a
group from left to right.  Each condition but the first carries the innermost
combinator around it.
-/

namespace Flowchart

/-! ## Single conditions -/

namespace Condition

/-- The text of a value that is compared with.  The items of a list are joined
by commas. -/
def valueText : Tree → String
  | .text s => s
  | .list items => ", ".intercalate (itemTexts items)
  | tree => tree.render
where
  /-- The texts of the items of a list. -/
  itemTexts : List Tree → List String
    | [] => []
    | item :: items => valueText item :: itemTexts items

/-- Splits a key at its first point.  The step before it is not empty and holds
no blank; the path behind it starts with a character that is not blank and holds
no line feed. -/
def splitKey? (key : String) : Option Reference :=
  let step := key.toList.takeWhile (· ≠ '.')
  match key.toList.dropWhile (· ≠ '.') with
  | '.' :: c :: path =>
    if !step.isEmpty && !step.any Text.isBlank && !Text.isBlank c &&
        !path.contains '\n' then
      some ⟨String.ofList step, String.ofList (c :: path)⟩
    else
      none
  | _ => none

/-- The condition of a single field of a map. -/
def ofField? (kind : ConditionKind) (key : String) (value : Tree) :
    Option Condition :=
  (splitKey? key).map fun reference =>
    compare kind reference
      ⟨match value with
        | .bool _ => .is
        | _ => .eq, valueText value⟩

/-- The id of a step that is named by a text or by a map with the key `id`. -/
def stepIdOf? : Tree → Option String
  | .text id => some id
  | step => (step.get? "id").bind Tree.text?

/-- The condition of a map with the keys `ref` and `query`.  Only the first key
of the query counts. -/
def ofReference? (kind : ConditionKind) (fields : List (String × Tree)) :
    Option Condition := do
  let reference ← fields.lookup "ref"
  let stepId ← stepIdOf? (← reference.get? "step")
  let path := ((reference.get? "path").bind Tree.text?).getD ""
  match ← fields.lookup "query" with
  | .map ((key, value) :: _) =>
    let op ← ComparisonOp.ofQueryKey? key
    return compare kind ⟨stepId, path⟩ ⟨op, valueText value⟩
  | _ => none

/-! ## Combined conditions -/

/-- A list of fields holds a key. -/
def hasKey (fields : List (String × Tree)) (key : String) : Bool :=
  fields.any fun field => field.1 == key

mutual

/-- The conditions of a group that stands under a conjunction. -/
def collect (kind : ConditionKind) (conjunction : Option Conjunction) :
    Tree → List Condition
  | .text expression => [(raw kind expression).withConjunction conjunction]
  | .map fields =>
    if hasKey fields "ref" then
      (ofReference? kind fields).toList.map (withConjunction · conjunction)
    else if hasKey fields "and" || hasKey fields "or" ||
        hasKey fields "not" then
      collectUnder kind .and fields ++ collectUnder kind .or fields ++
        collectUnder kind .not fields
    else
      match fields with
      | [(key, value)] =>
        (ofField? kind key value).toList.map (withConjunction · conjunction)
      | _ => []
  | _ => []
termination_by structural group => group

/-- The conditions of the groups that a map holds under a combinator: one group
or a list of them. -/
def collectUnder (kind : ConditionKind) (combinator : Conjunction) :
    List (String × Tree) → List Condition
  | [] => []
  | (key, .list items) :: fields =>
    if key = combinator.word then collectItems kind combinator items
    else collectUnder kind combinator fields
  | (key, group) :: fields =>
    if key = combinator.word then collect kind (some combinator) group
    else collectUnder kind combinator fields
termination_by structural fields => fields

/-- The conditions of the groups of a list. -/
def collectItems (kind : ConditionKind) (combinator : Conjunction) :
    List Tree → List Condition
  | [] => []
  | item :: items =>
    collect kind (some combinator) item ++ collectItems kind combinator items
termination_by structural items => items

end

/-- The conditions of a group. -/
def ofGroup (kind : ConditionKind) (group : Tree) : List Condition :=
  match collect kind none group with
  | [] => []
  | first :: rest => first.withConjunction none :: rest

end Condition

end Flowchart
