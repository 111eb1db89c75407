/-
# A server for the remote store

The server keeps hashes of texts, each with an optional instant at which it goes, in whole
milliseconds of a clock.  Commands can be refused, and the connection can be lost, to see what
the store makes of it.

Calls that are under way when the connection is lost all fail, whether the server has received
anything of them or not (`Site.exchange`).
-/
import RequestCache.Store.Remote
import RequestCache.Store.Table

namespace RequestCache.Remote

/-- What the server keeps under a key. -/
inductive Content where
  /-- A hash. -/
  | hash (fields : List (String × String))
  /-- A plain text, which is no hash. -/
  | plain
deriving DecidableEq, Repr

/-- What the server keeps under a key, and until when. -/
structure Stored where
  content : Content
  /-- The millisecond from which on the key is gone. -/
  expiry : Option Int := none
deriving DecidableEq, Repr

/-- The server. -/
structure Server where
  /-- What it keeps. -/
  table : Table Stored := ∅
  /-- The commands that are refused, with the text of the refusal. -/
  refused : List (String × String) := []
  /-- The next command loses the connection. -/
  hangsUp : Bool := false
  /-- The commands received, the first one first. -/
  received : List (List String) := []

namespace Server

/-- The server without what is gone at a millisecond. -/
def settle (s : Server) (millis : Int) : Server :=
  { s with table := s.table.filter fun _ e => !e.expiry.any (· ≤ millis) }

/-- The fault of a refused command. -/
def refusal? (s : Server) (command : String) : Option RemoteFault :=
  (s.refused.lookup command).map fun text =>
    .reply .responseError "An error was signalled by the server" (some text)

/-- The fault of a command on a text that is no hash. -/
def wrongKind : RemoteFault :=
  .reply .responseError "Operation against a key holding the wrong kind of value" none

/-- The fault of a lost connection. -/
def lost : RemoteFault := .connection "broken pipe"

/-- The fault of a transaction that was not run. -/
def aborted : RemoteFault := .reply .execAbortError "Transaction discarded" none

/-- Fields of a hash with others put in place of the ones of their names. -/
def putFields (fields new : List (String × String)) : List (String × String) :=
  fields.filter (fun f => (new.lookup f.1).isNone) ++ new

/-- Runs a command at a millisecond. -/
def execute (s : Server) (millis : Int) (c : Command) :
    Except RemoteFault (List (Option String)) × Server :=
  let s := s.settle millis
  match c with
  | .ping => (.ok [], s)
  | .delete key => (.ok [], { s with table := s.table.erase key })
  | .readFields key fields =>
    match s.table.get? key with
    | none => (.ok (fields.map fun _ => none), s)
    | some ⟨.plain, _⟩ => (.error wrongKind, s)
    | some ⟨.hash hash, _⟩ => (.ok (fields.map fun f => hash.lookup f), s)
  | .writeFields key fields =>
    match s.table.get? key with
    | none => (.ok [], { s with table := s.table.insert key ⟨.hash (putFields [] fields), none⟩ })
    | some ⟨.plain, _⟩ => (.ok [], s)
    | some ⟨.hash hash, expiry⟩ =>
      (.ok [], { s with table := s.table.insert key ⟨.hash (putFields hash fields), expiry⟩ })
  | .expire key ttl =>
    if ttl ≤ 0 then (.ok [], { s with table := s.table.erase key })
    else
      (.ok [], { s with
        table := s.table.modify key fun e => { e with expiry := some (millis + ttl) } })

/-- Takes note of a command. -/
def receive (s : Server) (words : List String) : Server :=
  { s with received := s.received ++ [words] }

/-- Takes a command, unless it is refused. -/
def accept (s : Server) (millis : Int) (c : Command) :
    Except RemoteFault (List (Option String)) × Server :=
  let s := s.receive c.words
  match s.refusal? c.name with
  | some fault => (.error fault, s)
  | none => s.execute millis c

/-- Takes one command after the other and tells the first fault. -/
def acceptAll (s : Server) (millis : Int) : List Command → Except RemoteFault Unit × Server
  | [] => (.ok (), s)
  | c :: cs =>
    match s.accept millis c with
    | (.ok _, s) => s.acceptAll millis cs
    | (.error fault, s) => (.error fault, (s.acceptAll millis cs).2)

/-- Runs one command after the other. -/
def executeAll (s : Server) (millis : Int) (cs : List Command) : Server :=
  cs.foldl (fun s c => (s.execute millis c).2) s

/-- A command on its own. -/
def send (s : Server) (millis : Int) (c : Command) :
    Except RemoteFault (List (Option String)) × Server :=
  if s.hangsUp then (.error lost, { s.receive c.words with hangsUp := false })
  else s.accept millis c

/-- Commands in a transaction.  If its beginning is refused they run at once, and its end
fails; if one of them or the end is refused none of them runs. -/
def transact (s : Server) (millis : Int) (cs : List Command) :
    Except RemoteFault Unit × Server :=
  if s.hangsUp then (.error lost, { s.receive ["MULTI"] with hangsUp := false })
  else
    let s := s.receive ["MULTI"]
    match s.refusal? "MULTI" with
    | some fault => (.error fault, (s.acceptAll millis cs).2.receive ["EXEC"])
    | none =>
      let s := (cs.foldl (fun s c => s.receive c.words) s).receive ["EXEC"]
      match s.refusal? "EXEC", cs.findSome? fun c => s.refusal? c.name with
      | some fault, _ => (.error fault, s)
      | none, some _ => (.error aborted, s)
      | none, none => (.ok (), s.executeAll millis cs)

end Server

/-- What the client knows of its connection. -/
inductive Link where
  | steady
  /-- The connection is lost, and the calls that are under way fail. -/
  | lost
  /-- The next call waits for a new connection. -/
  | restoring
deriving DecidableEq, Repr

/-- A server, the clock that it and its client read, the connection between them, and what the
client told its logs. -/
structure Site where
  server : Server := {}
  clock : Instant
  link : Link := .steady
  logs : List Event := []

namespace Site

/-- Hands something over to the server, which may lose the connection. -/
def exchange {α : Type} (s : Site) (f : Server → Except RemoteFault α × Server) :
    Except RemoteFault α × Site :=
  match s.link with
  | .lost => (.error Server.lost, s)
  | _ =>
    let (reply, server) := f s.server
    (reply, { s with server, link := if s.server.hangsUp then .lost else .steady })

/-- Answers the client's requests. -/
def answer : (r : Request) → Site → r.Answer × Site
  | .now, s => (s.clock, s)
  | .send c, s => s.exchange fun server => server.send s.clock.millis c
  | .transact cs, s => s.exchange fun server => server.transact s.clock.millis cs
  | .log e, s => ((), { s with logs := s.logs ++ [e] })

/-- After all calls that were under way: a lost connection is about to be restored. -/
def settled (s : Site) : Site := if s.link = .lost then { s with link := .restoring } else s

/-- Makes a call of the client. -/
def call {α : Type} (s : Site) (p : Client α) : α × Site :=
  let (a, s) := p.run (I := wire) answer s
  (a, s.settled)

/-- Makes several calls at once.  Where the connection has to be restored the first call has to
wait for it, and the others go before it. -/
def callAll {α : Type} (s : Site) : List (Client α) → List α × Site
  | [] => ([], s)
  | p :: ps =>
    if s.link = .restoring then
      let (as, s) := Program.runAll (I := wire) answer ps s
      let (a, s) := p.run (I := wire) answer s
      (a :: as, s.settled)
    else
      let (as, s) := Program.runAll (I := wire) answer (p :: ps) s
      (as, s.settled)

end Site

end RequestCache.Remote
