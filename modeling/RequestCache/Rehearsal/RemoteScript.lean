/-
# Scripts on the remote store

Steps on a remote store and on its server, with the commands that the server received during
each step.
-/
import RequestCache.Rehearsal.EntryScript
import RequestCache.Settings
import RequestCache.Store.Server

namespace RequestCache.Rehearsal

open Json Remote

/-- A step on the remote store or its server. -/
inductive RemoteStep where
  | now
  | advance (by_ : Span)
  | clock (time : Instant)
  | set (key value : String) (lifetime : Lifetime)
  | get (key : String)
  | remove (key : String)
  | ping
  | name
  /-- How the store is shown. -/
  | text
  /-- Connects by settings and reads a key, if one is given. -/
  | connect (key : Option String)
  | putEntry (value : Value) (keys : List Key) (lifetime : Lifetime)
  | findEntry (key : Key)
  | removeEntry (key : Key)
  /-- Puts a hash into the server. -/
  | putHash (key : String) (fields : List (String × String))
  /-- Puts a text that is no hash into the server. -/
  | putPlain (key : String)
  /-- What does the server keep? -/
  | dump
  | refuse (commands : List (String × String))
  | hangUp

/-- The answer to a step. -/
inductive RemoteReply where
  | done
  | instant (t : Instant)
  | outcome (o : ChangeOutcome)
  | value (o : ReadOutcome)
  | name (s : String)
  /-- The name of the connected store and what was read, if anything was to be read. -/
  | connected (o : Except SettingsFault (String × Option ReadOutcome))
  | entry (o : Except CacheFault Unit)
  | found (o : Except CacheFault (Option Value))
  /-- The keys with their contents and how many milliseconds are left to them. -/
  | dump (contents : List (String × Content × Option Int))

/-- What a step showed. -/
structure RemoteReport where
  reply : RemoteReply
  /-- The commands that the server received. -/
  commands : List (List String)
  /-- The events told. -/
  logs : List Event

/-- A store without any work of an application. -/
def idle : Interface := ⟨Empty, fun _ => Unit⟩

/-- A change as a call of the client. -/
def changeCall : Change → Client ChangeOutcome
  | .put key text lifetime => Remote.write key text lifetime
  | .delete key => Remote.remove key

/-- Answers an effect from a remote store, at once. -/
def siteAnswer : (e : Effect idle) → Site → e.Answer × Site
  | .isCancelled, s => (false, s)
  | .read key, s =>
    let (outcome, s) := s.call (Remote.read key)
    (some outcome, s)
  | .apply cs, s =>
    let (outcomes, s) := s.callAll (cs.map changeCall)
    (some outcomes, s)
  | .log e, s => ((), { s with logs := s.logs ++ [e] })
  | .measure _ _, s => ((), s)
  | .work t, _ => nomatch t

/-- Runs an action over a remote store. -/
def runRemote {α : Type} (s : Site) (p : Action idle α) : α × Site :=
  p.run (I := effects idle) siteAnswer s

/-- What the server keeps, sorted by key, with the time left. -/
def contents (s : Site) : List (String × Content × Option Int) :=
  let now := s.clock.millis
  let entries := ((s.server.settle now).table.entries.map fun (key, e) =>
    (key, e.content, e.expiry.map (· - now)))
  entries.mergeSort fun a b => !(b.1 < a.1)

/-- Puts something into the server, to stay. -/
def putContent (s : Site) (key : String) (c : Content) : Site :=
  { s with server := { s.server with table := s.server.table.insert key ⟨c, none⟩ } }

/-- Connects by settings to the server of the rehearsal and reads a key with a clock that
nobody moves; the server keeps its own clock.  The connection is a new one, and while it is made
the other one is restored. -/
def connectBySettings (s : Site) (key : Option String) : RemoteReply × Site :=
  let settings : Settings := { backing := .remote, connection := some "here" }
  let (connected, events) := settings.connect fun _ => .ok ()
  let s := { s with link := .steady, logs := s.logs ++ events }
  match connected, key with
  | .error e, _ => (.connected (.error e), s)
  | .ok name, none => (.connected (.ok (name, none)), s)
  | .ok name, some key =>
    let answer : (r : Request) → Site → r.Answer × Site
      | .now, s => (presentTime, s)
      | r, s => Site.answer r s
    let (outcome, s) := (Remote.read key).run (I := wire) answer s
    (.connected (.ok (name, some outcome)), { s with link := .steady })

/-- Takes a step. -/
def remoteStep (s : Site) : RemoteStep → RemoteReply × Site
  | .now => (.instant s.clock, s)
  | .advance d => (.instant (s.clock.advance d), { s with clock := s.clock.advance d })
  | .clock t => (.instant t, { s with clock := t })
  | .set key value lifetime =>
    let (o, s) := s.call (Remote.write key value lifetime)
    (.outcome o, s)
  | .get key =>
    let (o, s) := s.call (Remote.read key)
    (.value o, s)
  | .remove key =>
    let (o, s) := s.call (Remote.remove key)
    (.outcome o, s)
  | .ping =>
    let (o, s) := s.call Remote.ping
    (.outcome o, s)
  | .name => (.name "redis", s)
  | .text => (.name (Remote.text s.clock), s)
  | .connect key => connectBySettings s key
  | .putEntry value keys lifetime =>
    let (o, s) := runRemote s (Entry.store Codec.value value keys lifetime)
    (.entry o, s)
  | .findEntry key =>
    let (o, s) := runRemote s (Entry.find Codec.value key)
    (.found o, s)
  | .removeEntry key =>
    let (o, s) := runRemote s (Entry.remove key)
    (.entry o, s)
  | .putHash key fields => (.done, putContent s key (.hash fields))
  | .putPlain key => (.done, putContent s key .plain)
  | .dump => (.dump (contents s), s)
  | .refuse commands => (.done, { s with server := { s.server with refused := commands } })
  | .hangUp => (.done, { s with server := { s.server with hangsUp := true } })

/-- Takes the steps of a script, from a clock on. -/
def remoteScript (clock : Instant) (steps : List RemoteStep) : List RemoteReport :=
  (steps.foldl (fun (reports, s) x =>
    let s : Site := { s with server := { s.server with received := [] }, logs := [] }
    let (reply, s) := remoteStep s x
    (⟨reply, s.server.received, s.logs⟩ :: reports, s)) ([], ({ clock } : Site))).1.reverse

end RequestCache.Rehearsal
