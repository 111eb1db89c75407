/-
# Kinds of request

An application's requests come in kinds.  Each kind has its own requests and responses, a name,
which need not be its own alone, and a written form of its responses for the cache.
-/
import RequestCache.Fault
import RequestCache.Json.Codec

namespace RequestCache

/-- The kinds of request of an application. -/
structure Catalogue where
  /-- The kinds. -/
  Kind : Type
  /-- Kinds can be told apart. -/
  [kindEq : DecidableEq Kind]
  /-- The requests of a kind. -/
  Request : Kind → Type
  /-- What the requests of a kind are answered with. -/
  Response : Kind → Type
  /-- The name of a kind; it is the namespace of the kind's keys. -/
  name : Kind → String
  /-- A request as it is shown in logs. -/
  showRequest : (k : Kind) → Request k → String
  /-- A response as it is shown in logs. -/
  showResponse : (k : Kind) → Response k → String
  /-- The written form of the responses of a kind. -/
  codec : (k : Kind) → Json.Codec (Response k)

attribute [instance] Catalogue.kindEq

/-- How the dispatch of a request of a kind ends. -/
abbrev Outcome (C : Catalogue) (k : C.Kind) := Except DispatchFault (C.Response k)

end RequestCache
