/-
# Faults of a store

Why a call to a store fails, the text of each cause, and which causes may be gone at a second
try: a store that could not be reached, and a lost connection to a remote one.
-/

namespace RequestCache

/-- The kinds of error that a remote store's client tells apart. -/
inductive ReplyCode where
  | responseError
  | parseError
  | authenticationFailed
  | typeError
  | execAbortError
  | busyLoadingError
  | noScriptError
  | invalidClientConfig
  | moved
  | ask
  | tryAgain
  | clusterDown
  | crossSlot
  | masterDown
  | ioError
  | clientError
  | extensionError
  | masterNameNotFoundBySentinel
  | noValidReplicasFoundBySentinel
  | emptySentinelList
  | notBusy
  | clusterConnectionNotFound
  | readOnly
deriving DecidableEq, Repr

namespace ReplyCode

/-- The name of a kind of error. -/
def name : ReplyCode → String
  | responseError => "ResponseError"
  | parseError => "ParseError"
  | authenticationFailed => "AuthenticationFailed"
  | typeError => "TypeError"
  | execAbortError => "ExecAbortError"
  | busyLoadingError => "BusyLoadingError"
  | noScriptError => "NoScriptError"
  | invalidClientConfig => "InvalidClientConfig"
  | moved => "Moved"
  | ask => "Ask"
  | tryAgain => "TryAgain"
  | clusterDown => "ClusterDown"
  | crossSlot => "CrossSlot"
  | masterDown => "MasterDown"
  | ioError => "IoError"
  | clientError => "ClientError"
  | extensionError => "ExtensionError"
  | masterNameNotFoundBySentinel => "MasterNameNotFoundBySentinel"
  | noValidReplicasFoundBySentinel => "NoValidReplicasFoundBySentinel"
  | emptySentinelList => "EmptySentinelList"
  | notBusy => "NotBusy"
  | clusterConnectionNotFound => "ClusterConnectionNotFound"
  | readOnly => "ReadOnly"

/-- All kinds of error. -/
def all : List ReplyCode :=
  [responseError, parseError, authenticationFailed, typeError, execAbortError, busyLoadingError,
    noScriptError, invalidClientConfig, moved, ask, tryAgain, clusterDown, crossSlot, masterDown,
    ioError, clientError, extensionError, masterNameNotFoundBySentinel,
    noValidReplicasFoundBySentinel, emptySentinelList, notBusy, clusterConnectionNotFound,
    readOnly]

/-- The kind of error of a name; a name that is not known is an error in a response. -/
def ofName (name : String) : ReplyCode :=
  (all.find? fun c => c.name = name).getD responseError

end ReplyCode

/-- What went wrong between a client and its remote store. -/
inductive RemoteFault where
  /-- The connection failed. -/
  | connection (message : String)
  /-- The store or the client reports an error. -/
  | reply (code : ReplyCode) (description : String) (detail : Option String)
deriving DecidableEq, Repr

namespace RemoteFault

/-- The text of a fault. -/
def message : RemoteFault → String
  | connection text => text
  | reply code description none => description ++ "- " ++ code.name
  | reply code description (some detail) =>
    description ++ " - " ++ code.name ++ ": " ++ detail

/-- Did the connection fail? -/
def isConnection : RemoteFault → Bool
  | connection _ => true
  | reply code _ _ => code = .ioError

end RemoteFault

/-- Why a call to a store failed. -/
inductive StoreFault where
  /-- A remote store failed. -/
  | remote (fault : RemoteFault)
  /-- The store cannot be reached. -/
  | unavailable (reason : String)
  /-- The lifetime of an entry is not acceptable. -/
  | rejected (message : String)
deriving DecidableEq, Repr

namespace StoreFault

/-- The text of a fault. -/
def message : StoreFault → String
  | remote fault => "redis error: " ++ fault.message
  | unavailable reason => "store unavailable: " ++ reason
  | rejected text => "invalid entry options: " ++ text

/-- Might the call succeed at a second try? -/
def isTemporary : StoreFault → Bool
  | remote fault => fault.isConnection
  | unavailable _ => true
  | rejected _ => false

end StoreFault

end RequestCache
