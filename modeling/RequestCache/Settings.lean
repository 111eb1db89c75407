/-
# Settings

Which store backs the cache, where it is, and what to do when it fails.  Settings come from
three optional texts (`Settings.resolve`), and these from a configuration: a file, and above it
the variables of the environment, or values that a program gives.
-/
import RequestCache.Cache.Lookup
import RequestCache.Settings.KeyPath
import RequestCache.Text.Blank

namespace RequestCache

/-- The stores that can back the cache. -/
inductive Backing where
  /-- The store in memory. -/
  | memory
  /-- A remote store. -/
  | remote
deriving DecidableEq, Repr

/-- The kind of store, shown. -/
def Backing.text : Backing → String
  | memory => "Memory"
  | remote => "Redis"

/-- The settings of the cache. -/
structure Settings where
  /-- The store that backs the cache. -/
  backing : Backing := .memory
  /-- Where the store is. -/
  connection : Option String := none
  /-- What to do when the cache fails. -/
  policy : FaultPolicy := .strict
deriving DecidableEq, Repr

/-- Why there are no settings, or no store for them. -/
inductive SettingsFault where
  /-- The configuration cannot be read. -/
  | unreadable
  /-- A value is not acceptable. -/
  | invalid (key reason : String)
  /-- The store does not connect. -/
  | store (source : StoreFault)
deriving DecidableEq, Repr

/-- The text of a fault; what makes a configuration unreadable is not told. -/
def SettingsFault.message : SettingsFault → String
  | unreadable => "failed to build configuration"
  | invalid key reason => "invalid configuration for `" ++ key ++ "`: " ++ reason
  | store source => "failed to connect store: " ++ source.message

/-- The texts that settings are made of, by the keys of a configuration. -/
structure SettingTexts where
  provider : Option String := none
  connection : Option String := none
  lookup : Option String := none
deriving DecidableEq, Repr

namespace Settings

/-- A text without the white space around it, unless nothing else is there. -/
def meaningful (s : Option String) : Option String :=
  (s.map trimText).filter fun s => !s.isEmpty

/-- Are two texts the same up to the case of the letters `A` to `Z`? -/
def sameWord (s t : String) : Bool := s.map Char.toLower == t.map Char.toLower

/-- The store of a name. -/
def resolveBacking (name : Option String) : Except SettingsFault Backing :=
  match meaningful name with
  | none => .ok .memory
  | some name =>
    if sameWord name "memory" then .ok .memory
    else if sameWord name "redis" then .ok .remote
    else .error (.invalid "provider"
      ("unknown provider `" ++ name ++ "`, expected `memory` or `redis`"))

/-- The connection, which a remote store must have. -/
def resolveConnection (backing : Backing) (connection : Option String) :
    Except SettingsFault (Option String) :=
  match backing, meaningful connection with
  | .remote, none => .error (.invalid "connection" "required when provider is `redis`")
  | _, connection => .ok connection

/-- The policy of a name. -/
def resolvePolicy (name : Option String) : Except SettingsFault FaultPolicy :=
  match meaningful name with
  | none => .ok .strict
  | some name =>
    if sameWord name "propagate" then .ok .strict
    else if sameWord name "treat_as_miss" then .ok .lenient
    else .error (.invalid "lookup"
      ("unknown policy `" ++ name ++ "`, expected `propagate` or `treat_as_miss`"))

/-- The settings that three texts stand for.  White space around a text and the case of its
letters do not matter, and a blank text is as good as none. -/
def resolve (texts : SettingTexts) : Except SettingsFault Settings := do
  let backing ← resolveBacking texts.provider
  let connection ← resolveConnection backing texts.connection
  let policy ← resolvePolicy texts.lookup
  return { backing, connection, policy }

/-- The text that a value of the configuration stands for. -/
def textOfValue : Json.Value → Except SettingsFault (Option String)
  | .null => .ok none
  | .bool b => .ok (some (flagText b))
  | .int n => .ok (some (toString n))
  | .double d => .ok (some d.plainText)
  | .text s => .ok (some s)
  | .items _ => .error .unreadable
  | .members _ => .error .unreadable

/-- The settings of a configuration, given the value of each key in it. -/
def ofValues (value : String → Option Json.Value) : Except SettingsFault Settings := do
  let text key := textOfValue ((value key).getD .null)
  resolve
    { provider := ← text "provider"
      connection := ← text "connection"
      lookup := ← text "lookup" }

/-- The text after `front`, if `s` begins with it. -/
def afterFront? (front s : String) : Option String :=
  if front.toList.isPrefixOf s.toList then
    some (String.ofList (s.toList.drop front.length))
  else none

/-- The letter of the other case.  Of the characters beyond ASCII only the sign of the kelvin has
a letter of ASCII for it. -/
def lowerChar (c : Char) : Char := if c = '\u212a' then 'k' else c.toLower

/-- The key that a variable of the environment sets: its name begins with `pipecache__` in any
case, and two underscores stand for a point. -/
def variableKey? (name : String) : Option String :=
  (afterFront? "pipecache__" (name.map lowerChar)).map fun s => ".".intercalate (s.splitOn "__")

/-- What the environment sets. -/
def environmentLayer (environment : List (String × String)) : Layer :=
  environment.filterMap fun v => (variableKey? v.1).map fun key => (key, .text v.2)

/-- The settings of a file, if there is one, and the environment, which goes before the file.
The file must hold an object. -/
def ofSources (file : Option Json.Value) (environment : List (String × String)) :
    Except SettingsFault Settings :=
  let set := environmentLayer environment
  match file with
  | some (.members ms) => ofValues fun name => (set.value? name).or (Layer.value? ms name)
  | none => ofValues set.value?
  | some _ => .error .unreadable

/-- The settings of values that a program gives.  Each of their keys must be a path. -/
def ofProgram (values : Layer) : Except SettingsFault Settings :=
  if values.all fun m => (KeyPath.parse? m.1).isSome then ofValues values.value?
  else .error .unreadable

/-- Connects the chosen store: its name, and what there is to tell.  `dial` reaches a remote
store at an address. -/
def connect (s : Settings) (dial : String → Except StoreFault Unit) :
    Except SettingsFault String × List Event :=
  match s.backing with
  | .memory => (.ok "memory", [.memoryChosen])
  | .remote =>
    match s.connection with
    | none => (.error (.invalid "connection" "missing redis url"), [])
    | some address =>
      match dial address with
      | .error e => (.error (.store e), [])
      | .ok () => (.ok "redis", [.remoteConnected, .remoteChosen])

/-- No address leads anywhere. -/
def unreachable (_ : String) : Except StoreFault Unit :=
  .error (.remote (.reply .invalidClientConfig "Redis URL did not parse" none))

end Settings

end RequestCache
