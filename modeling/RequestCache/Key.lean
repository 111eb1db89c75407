/-
# Keys

A key is a namespace and an identifier with a colon between them.  The namespace is the name of
a kind of request.
-/

namespace RequestCache

/-- The key of an entry. -/
structure Key where
  /-- The key as the store knows it. -/
  text : String
deriving DecidableEq

namespace Key

/-- The key of an identifier in a namespace. -/
def ofParts (space identifier : String) : Key := ⟨space ++ ":" ++ identifier⟩

/-- The first occurrences of the keys of a list, in order. -/
def distinct (keys : List Key) : List Key := keys.eraseDups

end Key

end RequestCache
