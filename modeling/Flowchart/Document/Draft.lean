import Flowchart.Document.Basic

/-!
# Drafts of documents

A draft is a document as it is written: a map keeps its pairs in their order,
with repeated keys, and a leaf may be well-formed without having a value, such
as a number beyond the range or a text with half of a surrogate pair.  Such a
leaf does no harm where nobody looks at it.

Drafts are put together from tokens by a machine that takes one token at a time,
so that its run is a fold over the tokens.
-/

namespace Flowchart

/-! ## Drafts and tokens -/

/-- A document as it is written. -/
inductive Draft where
  | null
  | bool (b : Bool)
  | number (n : Option Number)
  | text (s : Option String)
  | list (items : List Draft)
  | map (pairs : List (Option String × Draft))
  deriving Repr, Inhabited

/-- The smallest parts of a written document that have a meaning. -/
inductive Token where
  | openList
  | closeList
  | openMap
  | closeMap
  | colon
  | comma
  /-- A value that cannot be a key. -/
  | leaf (value : Draft)
  /-- A quoted text, a value or a key. -/
  | text (s : Option String)
  /-- A name without quotes, a key and, for some names, a value. -/
  | name (key : Option String) (value : Option Draft)
  deriving Repr, Inhabited

/-! ## From drafts to trees -/

namespace Draft

mutual

/-- The tree that a draft stands for, if every leaf has a value. -/
def toTree? : Draft → Option Tree
  | .null => some .null
  | .bool b => some (.bool b)
  | .number n => n.map .number
  | .text s => s.map .text
  | .list items => (toTrees? items).map .list
  | .map pairs => (toFields? pairs).map Tree.ofFields
termination_by structural d => d

/-- The trees of the items of a list. -/
def toTrees? : List Draft → Option (List Tree)
  | [] => some []
  | item :: items => do
    let tree ← item.toTree?
    let trees ← toTrees? items
    return tree :: trees
termination_by structural items => items

/-- The fields of a map, in the order of the draft. -/
def toFields? : List (Option String × Draft) → Option (List (String × Tree))
  | [] => some []
  | (key, value) :: pairs => do
    let key ← key
    let tree ← value.toTree?
    let fields ← toFields? pairs
    return (key, tree) :: fields
termination_by structural pairs => pairs

end

mutual

/-- The number of maps and lists that the deepest leaf stands in. -/
def height : Draft → Nat
  | .list items => heightList items + 1
  | .map pairs => heightPairs pairs + 1
  | _ => 0
termination_by structural d => d

/-- The greatest height among the items of a list. -/
def heightList : List Draft → Nat
  | [] => 0
  | item :: items => max item.height (heightList items)
termination_by structural items => items

/-- The greatest height among the values of a map. -/
def heightPairs : List (Option String × Draft) → Nat
  | [] => 0
  | (_, value) :: pairs => max value.height (heightPairs pairs)
termination_by structural pairs => pairs

end

/-! ## Putting drafts together -/

/-- An unfinished list or map around the place that is being read.  What is
already read stands in reverse. -/
inductive Frame where
  | list (items : List Draft)
  | map (pairs : List (Option String × Draft)) (key : Option String)

/-- What may come next, inside the frames that are open, the innermost first. -/
inductive Assembly where
  | awaitValue (frames : List Frame)
  | awaitItem (frames : List Frame) (items : List Draft) (closable : Bool)
  | awaitKey (frames : List Frame) (pairs : List (Option String × Draft))
      (closable : Bool)
  | awaitColon (frames : List Frame) (pairs : List (Option String × Draft))
      (key : Option String)
  | complete (frames : List Frame) (value : Draft)

namespace Assembly

/-- Takes the first token of a value. -/
def startValue (frames : List Frame) : Token → Option Assembly
  | .leaf value => some (.complete frames value)
  | .text s => some (.complete frames (.text s))
  | .name _ value => value.map (.complete frames)
  | .openList => some (.awaitItem frames [] true)
  | .openMap => some (.awaitKey frames [] true)
  | _ => none

/-- Takes one token.  The flag says whether a comma may stand before a closing
bracket. -/
def step (trailingComma : Bool) : Assembly → Token → Option Assembly
  | .awaitValue frames, token => startValue frames token
  | .awaitItem frames items closable, .closeList =>
    if closable then some (.complete frames (.list items.reverse)) else none
  | .awaitItem frames items _, token => startValue (.list items :: frames) token
  | .awaitKey frames pairs closable, .closeMap =>
    if closable then some (.complete frames (.map pairs.reverse)) else none
  | .awaitKey frames pairs _, .text s => some (.awaitColon frames pairs s)
  | .awaitKey frames pairs _, .name key _ => some (.awaitColon frames pairs key)
  | .awaitColon frames pairs key, .colon =>
    some (.awaitValue (.map pairs key :: frames))
  | .complete (.list items :: frames) value, .comma =>
    some (.awaitItem frames (value :: items) trailingComma)
  | .complete (.list items :: frames) value, .closeList =>
    some (.complete frames (.list (value :: items).reverse))
  | .complete (.map pairs key :: frames) value, .comma =>
    some (.awaitKey frames ((key, value) :: pairs) trailingComma)
  | .complete (.map pairs key :: frames) value, .closeMap =>
    some (.complete frames (.map ((key, value) :: pairs).reverse))
  | _, _ => none

end Assembly

/-- The draft that the tokens make up. -/
def ofTokens? (trailingComma : Bool) (tokens : List Token) : Option Draft :=
  match tokens.foldlM (Assembly.step trailingComma) (.awaitValue []) with
  | some (.complete [] value) => some value
  | _ => none

end Draft

end Flowchart
