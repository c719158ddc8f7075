/-!
# Document trees

The values that a document is made of.  A map holds each of its keys once, in
the order of their code points; `Tree.ofFields` builds such a map from pairs in
any order, and of several pairs with one key it keeps the last.
-/

namespace Flowchart

/-- A number of a document.  Single precision occurs only in what is written. -/
inductive Number where
  | int (n : Int)
  | double (x : Float)
  | single (x : Float32)
  deriving Repr

/-- The number in single precision.  Whole numbers are rounded once; others are
rounded from double precision. -/
def Number.toSingle : Number → Float32
  | int n =>
    let size := (UInt64.ofNat n.natAbs).toFloat32
    if n < 0 then -size else size
  | double x => x.toFloat32
  | single x => x

/-- A document tree. -/
inductive Tree where
  | null
  | bool (b : Bool)
  | number (n : Number)
  | text (s : String)
  | list (items : List Tree)
  | map (fields : List (String × Tree))
  deriving Repr, Inhabited

namespace Tree

/-- A whole number. -/
def int (n : Int) : Tree :=
  .number (.int n)

/-- Puts a pair into a list of pairs that is sorted by key, in place of a pair
with this key. -/
def insertField (key : String) (value : α) :
    List (String × α) → List (String × α)
  | [] => [(key, value)]
  | (k, v) :: rest =>
    if key < k then
      (key, value) :: (k, v) :: rest
    else if key = k then
      (key, value) :: rest
    else
      (k, v) :: insertField key value rest

/-- Sorts pairs by key.  The last of several pairs with one key stays. -/
def sortFields (pairs : List (String × α)) : List (String × α) :=
  pairs.foldl (fun sorted pair => insertField pair.1 pair.2 sorted) []

/-- The map with the given pairs. -/
def ofFields (pairs : List (String × Tree)) : Tree :=
  .map (sortFields pairs)

mutual

/-- The number of maps and lists that the deepest leaf stands in. -/
def height : Tree → Nat
  | .list items => heightList items + 1
  | .map fields => heightFields fields + 1
  | _ => 0
termination_by structural t => t

/-- The greatest height among the items of a list. -/
def heightList : List Tree → Nat
  | [] => 0
  | item :: items => max item.height (heightList items)
termination_by structural items => items

/-- The greatest height among the values of a map. -/
def heightFields : List (String × Tree) → Nat
  | [] => 0
  | (_, value) :: fields => max value.height (heightFields fields)
termination_by structural fields => fields

end

mutual

/-- The same tree with the fields of every map sorted by key. -/
def sorted : Tree → Tree
  | .list items => .list (sortedList items)
  | .map fields => ofFields (sortedFields fields)
  | tree => tree
termination_by structural t => t

/-- Sorts within every item of a list. -/
def sortedList : List Tree → List Tree
  | [] => []
  | item :: items => item.sorted :: sortedList items
termination_by structural items => items

/-- Sorts within every value of a map. -/
def sortedFields : List (String × Tree) → List (String × Tree)
  | [] => []
  | (key, value) :: fields => (key, value.sorted) :: sortedFields fields
termination_by structural fields => fields

end

/-- A field that is written only if it has a value. -/
def optionalField (name : String) : Option Tree → List (String × Tree)
  | none => []
  | some tree => [(name, tree)]

/-- A value, or null in its absence. -/
def ofOption : Option Tree → Tree
  | none => .null
  | some tree => tree

/-- The value stored under a key, if the tree is a map that has the key. -/
def get? (key : String) : Tree → Option Tree
  | .map fields => fields.lookup key
  | _ => none

/-- The text of a text leaf. -/
def text? : Tree → Option String
  | .text s => some s
  | _ => none

end Tree

end Flowchart
