/-
# Log events

What the library tells its logs: each event is a cause with its data, and `Event.entry` says at
which level, under which source and in which words it is written.
-/
import RequestCache.Fault
import RequestCache.Store.Lifetime
import RequestCache.Text.Quoted

namespace RequestCache

/-- How much an event matters, the most important first. -/
inductive Level where
  | error
  | warn
  | info
  | debug
  | trace
deriving DecidableEq, Repr

namespace Level

/-- The name of a level. -/
def name : Level → String
  | error => "ERROR"
  | warn => "WARN"
  | info => "INFO"
  | debug => "DEBUG"
  | trace => "TRACE"

/-- How far a level goes into detail. -/
def detail : Level → Nat
  | error => 1
  | warn => 2
  | info => 3
  | debug => 4
  | trace => 5

end Level

/-- A named piece of data beside the words of a log entry. -/
structure LogField where
  name : String
  value : String
  /-- The value is a text of its own, which a line of a log shows in quotes. -/
  isText : Bool := false
deriving DecidableEq, Repr

/-- An event as it is written. -/
structure LogEntry where
  level : Level
  /-- The part of the program that tells it. -/
  source : String
  message : String
  fields : List LogField := []
deriving DecidableEq, Repr

/-- The entry as one line. -/
def LogEntry.line (e : LogEntry) : String :=
  e.level.name ++ " " ++ e.source ++ ": " ++ e.message ++
    String.join (e.fields.map fun f =>
      " " ++ f.name ++ "=" ++ if f.isText then quoted f.value else f.value)

/-- What the library has to tell. -/
inductive Event where
  /-- A kind of request is cached from now on. -/
  | planAdded (request : String) (expiration : Expiration)
  /-- A kind of request evicts entries of another from now on. -/
  | evictionAdded (request target : String)
  /-- The stages of the cache are in place. -/
  | wired (cached evictors : Nat)
  /-- A handler takes the place of an earlier one. -/
  | handlerReplaced (request : String)
  /-- A response came from the cache; both are shown. -/
  | hit (response request : String)
  /-- The look-up failed and the request goes on as if nothing had been found. -/
  | lookupFailed (request : String) (error : CacheFault)
  /-- A response was put into the cache; both are shown. -/
  | stored (response request : String)
  /-- A response could not be put into the cache and is returned all the same. -/
  | populateFailed (request : String) (error : CacheFault)
  /-- An eviction begins. -/
  | evicting (request target : String)
  /-- An eviction failed. -/
  | evictionFailed (request target : String) (error : CacheFault)
  /-- What is stored under a key is no bundle of the type wanted. -/
  | undecodableIgnored (key : String)
  /-- What is stored under a key lists no keys; the key goes alone. -/
  | undecodableRemoved (key : String)
  /-- A store in memory was emptied. -/
  | memoryCleared
  /-- Entries that had ended were dropped. -/
  | memoryPurged (count : Nat)
  /-- A remote store answers. -/
  | remoteConnected
  /-- A write was left out because its deadline had passed. -/
  | remoteWriteSkipped (key : String)
  /-- A value was written to a remote store. -/
  | remoteWritten (key : String) (ttl : Option Int)
  /-- The settings chose the store in memory. -/
  | memoryChosen
  /-- The settings chose a remote store. -/
  | remoteChosen
  /-- The application has something to tell. -/
  | told (source message : String)

namespace Event

/-- An optional number, shown. -/
def optionText : Option Int → String
  | none => "None"
  | some n => "Some(" ++ toString n ++ ")"

/-- How an event is written. -/
def entry : Event → LogEntry
  | planAdded request expiration =>
    ⟨.debug, "pipecache::cache::registry", "Registering cache registrar",
      [⟨"request", request, true⟩, ⟨"expiration", expiration.text, false⟩]⟩
  | evictionAdded request target =>
    ⟨.debug, "pipecache::cache::registry", "Registering cache remover",
      [⟨"request", request, true⟩, ⟨"target_request", target, true⟩]⟩
  | wired cached evictors =>
    ⟨.info, "pipecache::cache::registry", "Cache behaviors installed",
      [⟨"cached", toString cached, false⟩, ⟨"invalidating", toString evictors, false⟩]⟩
  | handlerReplaced request =>
    ⟨.warn, "pipecache_core::mediator", "Replacing previously registered handler",
      [⟨"request", request, true⟩]⟩
  | hit response request =>
    ⟨.debug, "pipecache::cache::behavior",
      "Cache hit, returning " ++ response ++ " for " ++ request, []⟩
  | lookupFailed request error =>
    ⟨.warn, "pipecache::cache::behavior", "Cache lookup failed, treating as miss",
      [⟨"request", request, true⟩, ⟨"error", error.message, false⟩]⟩
  | stored response request =>
    ⟨.debug, "pipecache::cache::behavior",
      "Cache miss, saving " ++ response ++ " to cache for " ++ request, []⟩
  | populateFailed request error =>
    ⟨.warn, "pipecache::cache::behavior", "Cache population failed, returning response uncached",
      [⟨"request", request, true⟩, ⟨"error", error.message, false⟩]⟩
  | evicting request target =>
    ⟨.debug, "pipecache::cache::invalidation", "Removing cache after getting " ++ request,
      [⟨"target_request", target, true⟩]⟩
  | evictionFailed request target error =>
    ⟨.warn, "pipecache::cache::invalidation", "Cache remover failed",
      [⟨"request", request, true⟩, ⟨"target_request", target, true⟩,
        ⟨"error", error.message, false⟩]⟩
  | undecodableIgnored key =>
    ⟨.warn, "pipecache::cache::envelope", "Ignoring undecodable cache entry",
      [⟨"cache.key", key, false⟩]⟩
  | undecodableRemoved key =>
    ⟨.warn, "pipecache::cache::envelope", "Removing undecodable cache entry",
      [⟨"cache.key", key, false⟩]⟩
  | memoryCleared => ⟨.debug, "pipecache_store::backend::memory", "Memory store cleared", []⟩
  | memoryPurged count =>
    ⟨.debug, "pipecache_store::backend::memory",
      "Purged " ++ toString count ++ " expired entries from memory store", []⟩
  | remoteConnected =>
    ⟨.debug, "pipecache_store::backend::redis_store", "Connected to redis store", []⟩
  | remoteWriteSkipped key =>
    ⟨.debug, "pipecache_store::backend::redis_store", "Skipped write past its deadline",
      [⟨"cache.key", key, false⟩]⟩
  | remoteWritten key ttl =>
    ⟨.debug, "pipecache_store::backend::redis_store", "Cache set",
      [⟨"cache.key", key, false⟩, ⟨"cache.ttl_ms", optionText ttl, false⟩]⟩
  | memoryChosen => ⟨.info, "pipecache::settings", "Using in-process cache store", []⟩
  | remoteChosen => ⟨.info, "pipecache::settings", "Using redis cache store", []⟩
  | told source message => ⟨.info, source, message, []⟩

end Event

end RequestCache
