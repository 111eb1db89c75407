/-
# Bundles

What is stored under a key: a value together with all the keys it is stored under.  A bundle
is read in two ways, whole by one who wants the value (`Bundle.codec`), or for its keys alone
by one who wants to remove it (`Bundle.keysCodec`), to whom the value does not matter.
-/
import RequestCache.Json.Codec

namespace RequestCache

/-- A value and the keys it is stored under. -/
structure Bundle (α : Type) where
  /-- The value. -/
  value : α
  /-- The keys. -/
  keys : List String
deriving DecidableEq, Repr

namespace Bundle

open Json

variable {α : Type}

/-- The written form of a bundle. -/
def codec (c : Codec α) : Codec (Bundle α) where
  write b := (Codec.record₂ "value" c "keys" (.list .text)).write (b.value, b.keys)
  read depth t :=
    ((Codec.record₂ "value" c "keys" (.list .text)).read depth t).map fun p => ⟨p.1, p.2⟩

/-- The keys of a bundle, whatever its value is. -/
def keysCodec : Codec (List String) := .record₁ "keys" (.list .text)

/-- The text of a bundle. -/
def encode (c : Codec α) (b : Bundle α) : Except String String := (codec c).render b

/-- The bundle that a text holds. -/
def decode? (c : Codec α) (text : String) : Option (Bundle α) := (codec c).parse? text

/-- The keys of the bundle that a text holds. -/
def decodeKeys? (text : String) : Option (List String) := keysCodec.parse? text

end Bundle

end RequestCache
