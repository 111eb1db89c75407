/-
# How a kind of request is cached

A plan says under which identifier a request is looked up, under which identifiers its response
is stored, and for how long.  The identifiers become keys in the namespace of the kind, so the
plans of kinds with different names share the store.
-/
import RequestCache.Catalogue
import RequestCache.Entry
import RequestCache.Text.Quoted

namespace RequestCache

/-- How a kind of request is cached. -/
structure Plan (C : Catalogue) (k : C.Kind) where
  /-- The identifier under which a request is looked up. -/
  lookupId : C.Request k → String
  /-- The identifiers under which a response is stored; by default the one it is looked up
  under. -/
  chosenIds : Option (C.Request k → C.Response k → List String) := none
  /-- How long an entry lives. -/
  expiration : Expiration := .never

/-- How a store with entries under several keys is shown. -/
def entryStoreText (storeName : String) : String :=
  recordText "KeyedStore" [("store", quoted storeName)]

namespace Plan

variable {C : Catalogue} {W : Interface} {k : C.Kind}

/-- A plan needs an identifier to look requests up under. -/
def ofParts? (lookupId : Option (C.Request k → String))
    (chosenIds : Option (C.Request k → C.Response k → List String)) (expiration : Expiration) :
    Except CacheFault (Plan C k) :=
  match lookupId with
  | some lookupId => .ok ⟨lookupId, chosenIds, expiration⟩
  | none => .error (.setup ("retrieving identifier is required for " ++ C.name k))

/-- The key of an identifier of the kind. -/
def key (_ : Plan C k) (identifier : String) : Key := .ofParts (C.name k) identifier

/-- The identifiers under which a response is stored. -/
def entryIds (p : Plan C k) (request : C.Request k) (response : C.Response k) : List String :=
  match p.chosenIds with
  | some ids => ids request response
  | none => [p.lookupId request]

/-- The key under which a request is looked up. -/
def lookupKey (p : Plan C k) (request : C.Request k) : Key := p.key (p.lookupId request)

/-- The keys under which a response is stored, each once, in the order of the identifiers. -/
def entryKeys (p : Plan C k) (request : C.Request k) (response : C.Response k) : List Key :=
  Key.distinct ((p.entryIds request response).map p.key)

/-- Looks a request up. -/
def find (p : Plan C k) (request : C.Request k) :
    Action W (Except CacheFault (Option (C.Response k))) :=
  Entry.find (C.codec k) (p.lookupKey request)

/-- Stores a response.  There must be a key to store it under. -/
def store (p : Plan C k) (request : C.Request k) (response : C.Response k) :
    Action W (Except CacheFault Unit) :=
  let keys := p.entryKeys request response
  if keys.isEmpty then return .error (.noKeys (C.name k))
  else Entry.store (C.codec k) response keys p.expiration.lifetime

/-- Removes the entry under an identifier from all its keys. -/
def remove (p : Plan C k) (identifier : String) : Action W (Except CacheFault Unit) :=
  Entry.remove (p.key identifier)

/-- A plan over a store, shown. -/
def text (p : Plan C k) (storeName : String) : String :=
  recordText "CacheRegistrar"
    [("config",
        recordText "RegistrarConfig"
          [("request", quoted (C.name k)), ("custom_storing", flagText p.chosenIds.isSome),
            ("expiration", p.expiration.text)]),
      ("store", entryStoreText storeName)]

end Plan

end RequestCache
