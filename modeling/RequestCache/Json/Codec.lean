/-
# Codecs

A codec writes the values of a type as JSON and reads them back from a syntax tree.  What a
tree says is checked only where a value is read: a bracket too deep, a number that is no
integer, half a surrogate pair are errors inside a value and go unnoticed in a member that
nobody reads.

A record is read from an object, in which members of other names are skipped, or from a list
of exactly its fields in order (`Tree.fields?`).
-/
import RequestCache.Json.Tree
import RequestCache.Json.Value

namespace RequestCache.Json

/-- How deep the brackets of a text may nest where its values are read. -/
def maxDepth : Nat := 127

/-- How the values of a type are written and read. -/
structure Codec (α : Type) where
  /-- The value as JSON, or why it has no JSON form. -/
  write : α → Except String Value
  /-- Reads a tree whose brackets may nest `depth` deep. -/
  read : (depth : Nat) → Tree → Option α
  /-- What a missing member of this type stands for. -/
  absent : Option α := none

/-- Members sorted by name, each name once. -/
abbrev Sorted (α : Type) := List (String × α)

namespace Sorted

variable {α : Type}

/-- Adds a member at its place, unless there is one of its name. -/
def insertIfNew (name : String) (a : α) : Sorted α → Sorted α
  | [] => [(name, a)]
  | (other, b) :: ms =>
    if name = other then (other, b) :: ms
    else if name < other then (name, a) :: (other, b) :: ms
    else (other, b) :: insertIfNew name a ms

/-- Reads the members of an object; of several with one name the last one stays. -/
def ofMembers? (read : Tree → Option α) : List (Option String × Tree) → Option (Sorted α)
  | [] => some []
  | (name, t) :: ms => do
    let name ← name
    let a ← read t
    let later ← ofMembers? read ms
    return insertIfNew name a later

end Sorted

mutual

/-- The value that a tree stands for when its type does not matter; the members of its objects
are sorted. -/
def Value.ofTree? : (depth : Nat) → Tree → Option Value
  | _, .null => some .null
  | _, .bool b => some (.bool b)
  | _, .number l =>
    match l.toInt? with
    | some n => some (.int n)
    | none => l.toDouble?.map .double
  | _, .text s => s.map .text
  | 0, .items _ => none
  | 0, .members _ => none
  | depth + 1, .items ts => (Value.ofTrees? depth ts).map .items
  | depth + 1, .members ms => (Value.ofMembers? depth ms).map .members

/-- The values of the items of a list. -/
def Value.ofTrees? (depth : Nat) : List Tree → Option (List Value)
  | [] => some []
  | t :: ts => do
    let v ← Value.ofTree? depth t
    let vs ← Value.ofTrees? depth ts
    return v :: vs

/-- The members of an object, sorted; of several with one name the last one stays. -/
def Value.ofMembers? (depth : Nat) : List (Option String × Tree) → Option (Sorted Value)
  | [] => some []
  | (name, t) :: ms => do
    let name ← name
    let v ← Value.ofTree? depth t
    let later ← Value.ofMembers? depth ms
    return Sorted.insertIfNew name v later

end

/-- The value of a text. -/
def Value.parse? (s : String) : Option Value := (Tree.parse? s).bind (Value.ofTree? maxDepth)

/-- The members of these names, in this order, each at most once. -/
def membersNamed? (names : List String) (ms : List (Option String × Tree)) :
    Option (List (Option Tree)) :=
  if ms.any (·.1.isNone) then none
  else names.mapM fun name =>
    match ms.filter fun m => m.1 = some name with
    | [] => some none
    | [m] => some (some m.2)
    | _ => none

/-- The fields of a record, in the order of `names`; a missing member is an absent field. -/
def Tree.fields? (names : List String) : Tree → Option (List (Option Tree))
  | .items ts => if ts.length = names.length then some (ts.map some) else none
  | .members ms => membersNamed? names ms
  | _ => none

namespace Codec

variable {α : Type}

/-- Reads a field of a record. -/
def readField (c : Codec α) (depth : Nat) : Option Tree → Option α
  | some t => c.read depth t
  | none => c.absent

/-- The text of a value. -/
def render (c : Codec α) (a : α) : Except String String := (c.write a).map Value.render

/-- Any JSON value. -/
def value : Codec Value where
  write v := .ok v
  read := Value.ofTree?

/-- A text. -/
def text : Codec String where
  write s := .ok (.text s)
  read := fun
    | _, .text s => s
    | _, _ => none

/-- A truth value. -/
def bool : Codec Bool where
  write b := .ok (.bool b)
  read := fun
    | _, .bool b => some b
    | _, _ => none

/-- The value that tells nothing. -/
def unit : Codec Unit where
  write _ := .ok .null
  read := fun
    | _, .null => some ()
    | _, _ => none

/-- The integer a tree stands for, between two ends. -/
def readInt (least greatest : Int) : Tree → Option Int
  | .number l => l.toInt?.filter fun n => least ≤ n ∧ n ≤ greatest
  | _ => none

/-- An unsigned word of 32 bits. -/
def uint32 : Codec UInt32 where
  write n := .ok (.int n.toNat)
  read _ t := (readInt 0 0xffffffff t).map fun n => n.toNat.toUInt32

/-- An unsigned word of 64 bits. -/
def uint64 : Codec UInt64 where
  write n := .ok (.int n.toNat)
  read _ t := (readInt 0 0xffffffffffffffff t).map fun n => n.toNat.toUInt64

/-- A signed word of 64 bits. -/
def int64 : Codec Int64 where
  write n := .ok (.int n.toInt)
  read _ t := (readInt (-0x8000000000000000) 0x7fffffffffffffff t).map Int64.ofInt

/-- A value or null; a missing member is null. -/
def option (c : Codec α) : Codec (Option α) where
  write
    | none => .ok .null
    | some a => c.write a
  read := fun
    | _, .null => some none
    | depth, t => (c.read depth t).map some
  absent := some none

/-- A list of values. -/
def list (c : Codec α) : Codec (List α) where
  write as := (as.mapM c.write).map .items
  read := fun
    | depth + 1, .items ts => ts.mapM (c.read depth)
    | _, _ => none

/-- Values by name. -/
def dictionary (c : Codec α) : Codec (Sorted α) where
  write ms := (ms.mapM fun m => (c.write m.2).map fun v => (m.1, v)).map .members
  read := fun
    | depth + 1, .members ms => Sorted.ofMembers? (c.read depth) ms
    | _, _ => none

/-- A record of one field. -/
def record₁ (name : String) (c : Codec α) : Codec α where
  write a := do return .members [(name, ← c.write a)]
  read := fun
    | 0, _ => none
    | depth + 1, t =>
      match t.fields? [name] with
      | some [field] => c.readField depth field
      | _ => none

/-- A record of two fields. -/
def record₂ {β : Type} (name₁ : String) (c₁ : Codec α) (name₂ : String) (c₂ : Codec β) :
    Codec (α × β) where
  write p := do return .members [(name₁, ← c₁.write p.1), (name₂, ← c₂.write p.2)]
  read := fun
    | 0, _ => none
    | depth + 1, t =>
      match t.fields? [name₁, name₂] with
      | some [field₁, field₂] => do
        return (← c₁.readField depth field₁, ← c₂.readField depth field₂)
      | _ => none

/-- The value that a text holds. -/
def parse? (c : Codec α) (s : String) : Option α := (Tree.parse? s).bind (c.read maxDepth)

end Codec

end RequestCache.Json
