import Flowchart.Document.Basic

/-!
# Records in document trees

A record is written as a map from the names of its fields to their values, or as
the list of the values in the order in which the fields are declared.  Fields
that the record does not know are passed over in a map and refused in a list.

Several fields of one record may be faulty.  The fault that is reported is the
one that stands first in the tree; a field that is missing altogether comes
after all faults in values, and of several missing fields the one that is
declared first is reported.
-/

namespace Flowchart

/-! ## Decoders of single values -/

/-- Why a tree cannot be read as a value of some type. -/
inductive DecodeError where
  /-- A map without a field that is required. -/
  | missingField (name : String)
  /-- A word where one of a few other words is expected. -/
  | unknownWord (word : String)
  /-- A tree of a form that is not expected. -/
  | mismatch
  deriving DecidableEq, Repr

/-- A way to read trees. -/
abbrev Decoder (α : Type) := Tree → Except DecodeError α

namespace Decoder

/-- Reads a text. -/
def text : Decoder String
  | .text s => .ok s
  | _ => .error .mismatch

/-- Reads a truth value. -/
def bool : Decoder Bool
  | .bool b => .ok b
  | _ => .error .mismatch

/-- Reads a whole number from zero up to a bound. -/
def natural (bound : Nat) : Decoder Nat
  | .number (.int n) =>
    if 0 ≤ n ∧ n ≤ bound then .ok n.toNat else .error .mismatch
  | _ => .error .mismatch

/-- Reads an unsigned 64-bit number. -/
def word64 : Decoder UInt64 :=
  fun tree => (natural (UInt64.size - 1) tree).map UInt64.ofNat

/-- Reads an unsigned 32-bit number. -/
def word32 : Decoder UInt32 :=
  fun tree => (natural (UInt32.size - 1) tree).map UInt32.ofNat

/-- Reads a list item by item. -/
def list (item : Decoder α) : Decoder (List α)
  | .list items => items.mapM item
  | _ => .error .mismatch

/-- Reads nothing from the null tree and a value from any other. -/
def nullable (value : Decoder α) : Decoder (Option α)
  | .null => .ok none
  | tree => (value tree).map some

/-- Reads the values of a map.  The first fault in the order of the keys is
reported. -/
def fields (value : Decoder α) : Decoder (List (String × α))
  | .map pairs => pairs.mapM fun (key, tree) => (value tree).map (Prod.mk key)
  | _ => .error .mismatch

/-- Reads one of the words of a table.  A word may also be written as the only
key of a map, with null as its value or, where `emptyToo` holds, an empty
map. -/
def oneOf (words : List (String × α)) (emptyToo : Bool) : Decoder α
  | .text word => find word
  | .map [(word, value)] => do
    let a ← find word
    match value with
    | .null => return a
    | .map [] => if emptyToo then return a else throw .mismatch
    | _ => throw .mismatch
  | _ => .error .mismatch
where
  /-- The value of a word in the table. -/
  find (word : String) : Except DecodeError α :=
    match words.lookup word with
    | some a => .ok a
    | none => .error (.unknownWord word)

end Decoder

/-! ## Faults in records -/

/-- Where a fault stands among the fields of a record.  A missing field has no
place. -/
structure Fault where
  place : Option Nat
  error : DecodeError

/-- The fault that is reported of two faults. -/
def Fault.first (a b : Fault) : Fault :=
  match a.place, b.place with
  | some i, some j => if j < i then b else a
  | none, some _ => b
  | _, none => a

/-! ## Records -/

/-- The written form of a record: how to find a field with its place, and what
the absence of a required field means. -/
structure Slots where
  find : String → Option (Nat × Tree)
  absent : String → DecodeError

/-- A way to read records, with the names of the fields in the order of their
declaration. -/
structure RecordDecoder (α : Type) where
  names : List String
  read : Slots → Except Fault α

namespace RecordDecoder

/-- Reads two parts of a record and reports the first fault of both. -/
def both (f : Except Fault (α → β)) (a : Except Fault α) : Except Fault β :=
  match f, a with
  | .ok f, .ok a => .ok (f a)
  | .ok _, .error fault => .error fault
  | .error fault, .ok _ => .error fault
  | .error fault, .error fault' => .error (fault.first fault')

instance : Applicative RecordDecoder where
  pure a := ⟨[], fun _ => .ok a⟩
  map f r := ⟨r.names, fun slots => (r.read slots).map f⟩
  seq f r :=
    let r := r ()
    ⟨f.names ++ r.names, fun slots => both (f.read slots) (r.read slots)⟩

/-- A field with the value that its absence stands for. -/
def field (name : String) (value : Decoder α) (absent : Except DecodeError α) :
    RecordDecoder α where
  names := [name]
  read slots :=
    match slots.find name with
    | some (place, tree) => (value tree).mapError (Fault.mk (some place))
    | none => absent.mapError (Fault.mk none)

/-- A field that has to be there. -/
def required (name : String) (value : Decoder α) : RecordDecoder α where
  names := [name]
  read slots := (field name value (.error (slots.absent name))).read slots

/-- A field that may be missing or null. -/
def optional (name : String) (value : Decoder α) : RecordDecoder (Option α) :=
  field name (.nullable value) (.ok none)

/-- A field that may be missing and then has a fixed value. -/
def withDefault (name : String) (value : Decoder α) (default : α) :
    RecordDecoder α :=
  field name value (.ok default)

/-- Finds a field of a map. -/
def slotsOfFields (fields : List (String × Tree)) : Slots where
  find name := (fields.findIdx? fun field => field.1 == name).bind fun place =>
    fields[place]?.map fun field => (place, field.2)
  absent := .missingField

/-- Finds a field of a list by the place of its name. -/
def slotsOfItems (names : List String) (items : List Tree) : Slots where
  find name := (names.findIdx? (· == name)).bind fun place =>
    items[place]?.map fun item => (place, item)
  absent _ := .mismatch

/-- Reads a record from the fields of a map. -/
def ofFields (r : RecordDecoder α) (fields : List (String × Tree)) :
    Except DecodeError α :=
  (r.read (slotsOfFields fields)).mapError Fault.error

/-- Reads a record from a list of values. -/
def ofItems (r : RecordDecoder α) (items : List Tree) :
    Except DecodeError α := do
  let a ← (r.read (slotsOfItems r.names items)).mapError Fault.error
  if r.names.length < items.length then throw .mismatch else return a

/-- Reads a record in either form. -/
def decode (r : RecordDecoder α) : Decoder α
  | .map fields => r.ofFields fields
  | .list items => r.ofItems items
  | _ => .error .mismatch

end RecordDecoder

end Flowchart
