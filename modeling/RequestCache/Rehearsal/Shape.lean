/-
# Sample types

The types of value that a rehearsal stores: any JSON value, words, texts, a record, and options,
lists and dictionaries of words.
-/
import RequestCache.Json.Codec

namespace RequestCache.Rehearsal

open Json

/-- A record of the rehearsal. -/
structure Order where
  name : String
  id : UInt32
deriving DecidableEq, Repr

/-- The written form of an order. -/
def Order.codec : Codec Order where
  write o := (Codec.record₂ "name" .text "id" .uint32).write (o.name, o.id)
  read depth t :=
    ((Codec.record₂ "name" .text "id" .uint32).read depth t).map fun p => ⟨p.1, p.2⟩

/-- The types of value that a rehearsal stores. -/
inductive Shape where
  | json
  | word32
  | integer64
  | text
  | flag
  | nothing
  | order
  | optional
  | list
  | dictionary
deriving DecidableEq, Repr

namespace Shape

/-- The values of a type. -/
def Carrier : Shape → Type
  | json => Value
  | word32 => UInt32
  | integer64 => Int64
  | text => String
  | flag => Bool
  | nothing => Unit
  | order => Order
  | optional => Option UInt32
  | list => List UInt32
  | dictionary => Sorted UInt32

/-- The written form of the values of a type. -/
def codec : (s : Shape) → Codec s.Carrier
  | json => Codec.value
  | word32 => Codec.uint32
  | integer64 => Codec.int64
  | text => Codec.text
  | flag => Codec.bool
  | nothing => Codec.unit
  | order => Order.codec
  | optional => Codec.option Codec.uint32
  | list => Codec.list Codec.uint32
  | dictionary => Codec.dictionary Codec.uint32

end Shape

end RequestCache.Rehearsal
