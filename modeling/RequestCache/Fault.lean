/-
# Faults of the cache and of a dispatch

Every fault is a cause; its text is made in one place (`CacheFault.message`,
`DispatchFault.message`).  A fault of the cache that leaves the cache becomes a fault of the
dispatch (`CacheFault.toDispatch`), and only a cancelled one changes its nature by that.
-/
import RequestCache.Store.Fault

namespace RequestCache

/-- One key of several for which an operation failed. -/
structure KeyFault where
  /-- The key that failed. -/
  key : String
  /-- Why it failed. -/
  source : StoreFault
deriving DecidableEq, Repr

/-- The text of a key's fault. -/
def KeyFault.message (f : KeyFault) : String := f.key ++ ": " ++ f.source.message

/-- Texts divided by semicolons. -/
def joinTexts (texts : List String) : String := "; ".intercalate texts

/-- Why an operation of the cache failed. -/
inductive CacheFault where
  /-- The store failed. -/
  | store (source : StoreFault)
  /-- A value has no written form. -/
  | unwritable (message : String)
  /-- Some of several keys failed; the others are as the operation left them. -/
  | someKeys (operation : String) (total : Nat) (faults : List KeyFault)
  /-- Evictions failed after a request had been answered. -/
  | evictions (request : String) (faults : List CacheFault)
  /-- A response is to be stored under no key at all. -/
  | noKeys (request : String)
  /-- A kind of request has a plan already. -/
  | plannedTwice (request : String)
  /-- The entries of a kind of request without a plan cannot be evicted. -/
  | targetNotCached (evicting target : String)
  /-- The cache is set up wrongly. -/
  | setup (message : String)
  /-- The operation was cancelled. -/
  | cancelled
deriving Repr

namespace CacheFault

mutual

/-- The text of a fault. -/
def message : CacheFault → String
  | .store source => "store error: " ++ source.message
  | .unwritable text => "serialization error: " ++ text
  | .someKeys operation total faults =>
    operation ++ " failed for " ++ toString faults.length ++ " of " ++ toString total ++
      " keys: " ++ joinTexts (faults.map KeyFault.message)
  | .evictions request faults =>
    toString faults.length ++ " cache removers failed after " ++ request ++ ": " ++
      joinTexts (messages faults)
  | .noKeys request => "no storing keys produced for " ++ request
  | .plannedTwice request => "a cache registrar is already registered for " ++ request
  | .targetNotCached evicting target =>
    evicting ++ " invalidates " ++ target ++ ", which has no cache registrar"
  | .setup text => "invalid cache configuration: " ++ text
  | .cancelled => "cache operation cancelled"

/-- The texts of several faults. -/
def messages : List CacheFault → List String
  | [] => []
  | e :: es => e.message :: messages es

end

/-- Was the operation cancelled? -/
def isCancelled : CacheFault → Bool
  | .cancelled => true
  | _ => false

mutual

/-- Might the operation succeed at a second try?  Only if every fault in it might pass. -/
def isTemporary : CacheFault → Bool
  | .store source => source.isTemporary
  | .someKeys _ _ faults => faults.all fun f => f.source.isTemporary
  | .evictions _ faults => allTemporary faults
  | _ => false

/-- Might all of several operations succeed at a second try? -/
def allTemporary : List CacheFault → Bool
  | [] => true
  | e :: es => e.isTemporary && allTemporary es

end

end CacheFault

/-- What a handler or a stage reports as its failure. -/
inductive Failure where
  /-- A failure of the application, known by its text. -/
  | text (message : String)
  /-- A fault of the cache. -/
  | cache (fault : CacheFault)
deriving Repr

/-- The text of a failure. -/
def Failure.message : Failure → String
  | text m => m
  | cache e => e.message

/-- Why a request was not answered. -/
inductive DispatchFault where
  /-- No handler is registered for the kind of request. -/
  | unserved (request : String)
  /-- The caller cancelled the dispatch. -/
  | cancelled
  /-- The handler or a stage failed. -/
  | failed (cause : Failure)
deriving Repr

namespace DispatchFault

/-- The text of a fault. -/
def message : DispatchFault → String
  | unserved request => "no handler registered for request " ++ request
  | cancelled => "request cancelled"
  | failed cause => cause.message

/-- Was the dispatch cancelled? -/
def isCancelled : DispatchFault → Bool
  | cancelled => true
  | _ => false

/-- The fault of the cache that a failure holds. -/
def cacheFault? : DispatchFault → Option CacheFault
  | failed (.cache e) => some e
  | _ => none

end DispatchFault

/-- The fault of a dispatch that a fault of the cache ends. -/
def CacheFault.toDispatch : CacheFault → DispatchFault
  | .cancelled => .cancelled
  | e => .failed (.cache e)

end RequestCache
