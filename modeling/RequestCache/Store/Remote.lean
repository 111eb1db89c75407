/-
# The remote store

Entries live in hashes of a server that is reached by commands.  A hash has three fields: the
absolute deadline and the sliding window, both in milliseconds, and the value; minus one stands
for a deadline or a window that is not there.  The server drops a hash when its time to live is
over, and a read renews the time to live of a hash with a window, up to the deadline at most.
-/
import RequestCache.Event
import RequestCache.Program

namespace RequestCache.Remote

/-- A command to the server. -/
inductive Command where
  /-- Removes a hash. -/
  | delete (key : String)
  /-- Reads fields of a hash. -/
  | readFields (key : String) (fields : List String)
  /-- Writes fields of a hash. -/
  | writeFields (key : String) (fields : List (String × String))
  /-- Sets the time to live in milliseconds. -/
  | expire (key : String) (millis : Int)
  /-- Asks for a sign of life. -/
  | ping
deriving DecidableEq, Repr

namespace Command

/-- The name of a command. -/
def name : Command → String
  | delete _ => "DEL"
  | readFields _ _ => "HMGET"
  | writeFields _ _ => "HSET"
  | expire _ _ => "PEXPIRE"
  | ping => "PING"

/-- The words of a command. -/
def words : Command → List String
  | delete key => ["DEL", key]
  | readFields key fields => "HMGET" :: key :: fields
  | writeFields key fields => "HSET" :: key :: fields.flatMap fun f => [f.1, f.2]
  | expire key millis => ["PEXPIRE", key, toString millis]
  | ping => ["PING"]

end Command

/-- What the client of the store asks for. -/
inductive Request where
  /-- What time is it? -/
  | now
  /-- Sends one command; only a read of fields is answered with any. -/
  | send (c : Command)
  /-- Sends commands that run together or not at all. -/
  | transact (cs : List Command)
  /-- Tells the logs. -/
  | log (event : Event)

/-- What the client is answered with. -/
def Request.Answer : Request → Type
  | now => Instant
  | send _ => Except RemoteFault (List (Option String))
  | transact _ => Except RemoteFault Unit
  | log _ => Unit

/-- The requests of the client as an interface. -/
def wire : Interface := ⟨Request, Request.Answer⟩

/-- A program of the client. -/
abbrev Client (α : Type) := Program wire α

/-- What time is it? -/
def now : Client Instant := .ask (I := wire) .now .done

/-- Sends one command. -/
def send (c : Command) : Client (Except RemoteFault (List (Option String))) :=
  .ask (I := wire) (.send c) .done

/-- Sends commands that run together or not at all. -/
def transact (cs : List Command) : Client (Except RemoteFault Unit) :=
  .ask (I := wire) (.transact cs) .done

/-- Tells the logs. -/
def log (event : Event) : Client Unit := .ask (I := wire) (.log event) .done

/-- The field of the deadline. -/
def deadlineField : String := "absexp"

/-- The field of the window. -/
def windowField : String := "sldexp"

/-- The field of the value. -/
def valueField : String := "data"

/-- What stands for a deadline or a window that is not there. -/
def absent : Int := -1

/-- The time to live: to the deadline, or the window, or the lesser of the two. -/
def timeToLive (now : Int) (deadline window : Option Int) : Option Int :=
  match deadline, window with
  | some d, some w => some (min (d - now) w)
  | some d, none => some (d - now)
  | none, some w => some w
  | none, none => none

/-- The milliseconds of a window, as far as a signed word reaches. -/
def windowMillis (d : Span) : Int := min (d.millis : Int) (maxSigned64 : Int)

/-- A number of a field, unless it stands for nothing. -/
def unlessAbsent (n : Option Int) : Option Int := n.filter (· ≠ absent)

/-- The integer that a field holds: decimal digits with or without a sign, within a signed
word. -/
def fieldInt? (s : String) : Option Int :=
  let (negative, digits) := match s.toList with
    | '-' :: cs => (true, cs)
    | '+' :: cs => (false, cs)
    | cs => (false, cs)
  if digits.isEmpty || !digits.all Char.isDigit then none
  else
    let n : Int := digits.foldl (fun n c => 10 * n + (c.toNat - '0'.toNat)) 0
    let n := if negative then -n else n
    if -0x8000000000000000 ≤ n ∧ n < 0x8000000000000000 then some n else none

/-- A reply that is no answer to the question. -/
def badReply : RemoteFault := .reply .typeError "Response was of incompatible type" none

/-- A number field of a reply, which may be missing but not be anything else. -/
def fieldOf : Option String → Except RemoteFault (Option Int)
  | none => .ok none
  | some s =>
    match fieldInt? s with
    | some n => .ok (some n)
    | none => .error badReply

/-- Deadline, window and value of a reply. -/
def entryOf : List (Option String) →
    Except RemoteFault (Option Int × Option Int × Option String)
  | [deadline, window, value] => do
    return (← fieldOf deadline, ← fieldOf window, value)
  | _ => .error badReply

/-- Sends a command whose reply does not matter. -/
def tell (c : Command) : Client (Except StoreFault Unit) := do
  match ← send c with
  | .ok _ => return .ok ()
  | .error e => return .error (.remote e)

/-- The value under a key.  A hash past its deadline is removed, and one with a window lives on
for as long as the window and the deadline let it. -/
def read (key : String) : Client (Except StoreFault (Option String)) := do
  match (← send (.readFields key [deadlineField, windowField, valueField])).bind entryOf with
  | .error e => return .error (.remote e)
  | .ok (_, _, none) => return .ok none
  | .ok (deadline, window, some value) =>
    let now := (← now).millis
    let deadline := unlessAbsent deadline
    let window := unlessAbsent window
    if deadline.any (· ≤ now) then
      return (← tell (.delete key)).map fun _ => none
    match window, timeToLive now deadline window with
    | some _, some ttl => return (← tell (.expire key ttl)).map fun _ => some value
    | _, _ => return .ok (some value)

/-- Writes a value in place of what was there.  A write whose time to live is over only removes
what was there. -/
def write (key value : String) (l : Lifetime) : Client (Except StoreFault Unit) := do
  match l.check with
  | .error e => return .error e
  | .ok () =>
    let now ← now
    let deadline := (l.deadline now).map Instant.millis
    let window := l.sliding.map windowMillis
    let ttl := timeToLive now.millis deadline window
    if ttl.any (· ≤ 0) then
      match ← tell (.delete key) with
      | .error e => return .error e
      | .ok () =>
        log (.remoteWriteSkipped key)
        return .ok ()
    let fields :=
      [(deadlineField, toString (deadline.getD absent)),
        (windowField, toString (window.getD absent)), (valueField, value)]
    let commands := [.delete key, .writeFields key fields] ++
      ttl.toList.map fun millis => Command.expire key millis
    match ← transact commands with
    | .error e => return .error (.remote e)
    | .ok () =>
      log (.remoteWritten key ttl)
      return .ok ()

/-- Removes a value. -/
def remove (key : String) : Client (Except StoreFault Unit) := tell (.delete key)

/-- Does the server answer? -/
def ping : Client (Except StoreFault Unit) := tell .ping

/-- A remote store with a clock that stands at an instant, shown. -/
def text (clock : Instant) : String :=
  "RedisStore \x7b clock: ManualClock \x7b now: RwLock \x7b data: " ++ clock.text ++
    " \x7d \x7d, .. \x7d"

end RequestCache.Remote
