/-
# The kinds of request of a rehearsal

Every request is an identifier.  The kinds differ in their names, of which two are the same, and
in their responses, which are made from templates.
-/
import RequestCache.Catalogue
import RequestCache.Text.Template

namespace RequestCache.Rehearsal

open Json

/-- The kinds of request. -/
inductive Kind where
  | query
  | twin
  | count
  | blob
  | maybe
  | command
  | rename
  | ping
deriving DecidableEq, Repr

namespace Kind

/-- All kinds. -/
def all : List Kind := [query, twin, count, blob, maybe, command, rename, ping]

/-- What a kind is called in a rehearsal. -/
def label : Kind → String
  | query => "Query"
  | twin => "Twin"
  | count => "Count"
  | blob => "Blob"
  | maybe => "Maybe"
  | command => "Command"
  | rename => "Rename"
  | ping => "Ping"

/-- The kind of a label. -/
def ofLabel? (label : String) : Option Kind := all.find? fun k => k.label = label

/-- The name of a kind. -/
def name : Kind → String
  | query => "Query"
  | twin => "Query"
  | count => "app::Count"
  | blob => "app.Blob"
  | maybe => "Maybe"
  | command => "Command"
  | rename => "app::Rename"
  | ping => "Ping"

/-- What the requests of a kind are answered with. -/
def Response : Kind → Type
  | query => String
  | twin => UInt64
  | count => UInt64
  | blob => Value
  | maybe => Option UInt32
  | command => String
  | rename => String
  | ping => String

/-- The written form of responses. -/
def codec : (k : Kind) → Codec k.Response
  | query => Codec.record₁ "name" .text
  | twin => Codec.uint64
  | count => Codec.uint64
  | blob => Codec.value
  | maybe => Codec.option .uint32
  | command => Codec.text
  | rename => Codec.text
  | ping => Codec.text

/-- A response as the logs show it. -/
def showResponse : (k : Kind) → k.Response → String
  | query, (s : String) => "QueryResult(" ++ s ++ ")"
  | twin, (n : UInt64) => toString n
  | count, (n : UInt64) => toString n
  | blob, (v : Value) => v.render
  | maybe, (none : Option UInt32) => "None"
  | maybe, (some n : Option UInt32) => "Some(" ++ toString n ++ ")"
  | command, (s : String) => s
  | rename, (s : String) => s
  | ping, (s : String) => s

/-- A response as identifiers show it. -/
def responseText : (k : Kind) → k.Response → String
  | query, (s : String) => s
  | twin, (n : UInt64) => toString n
  | count, (n : UInt64) => toString n
  | blob, (v : Value) => v.render
  | maybe, (none : Option UInt32) => "none"
  | maybe, (some n : Option UInt32) => toString n
  | command, (s : String) => s
  | rename, (s : String) => s
  | ping, (s : String) => s

/-- A request as the logs show it. -/
def showRequest (k : Kind) (id : String) : String := k.label ++ "#" ++ id

end Kind

/-- The kinds of request as a catalogue. -/
def catalogue : Catalogue where
  Kind := Kind
  Request _ := String
  Response := Kind.Response
  name := Kind.name
  showRequest := Kind.showRequest
  showResponse := Kind.showResponse
  codec := Kind.codec

/-- A text with the letters `A` to `Z` in lower case. -/
def lowerText (s : String) : String := s.map Char.toLower

/-- The places of an identifier that a request fills. -/
def requestPlaces (id : String) : List Place :=
  [("id", id), ("lower", lowerText id), ("first", String.ofList (id.toList.take 1))]

/-- The identifier that a template makes of a request. -/
def identifier (template id : String) : String := fillTemplate template (requestPlaces id)

/-- The identifier that a template makes of a request and its response. -/
def responseIdentifier (template : String) (k : Kind) (id : String) (response : k.Response) :
    String :=
  fillTemplate template (requestPlaces id ++ [("resp", k.responseText response)])

/-- What goes into a response: the request, the number of the call, and who makes it. -/
structure Making where
  kind : Kind
  id : String
  call : Nat
  tag : String

namespace Making

/-- A template of a response, filled. -/
def fill (m : Making) (template : String) : String :=
  fillTemplate template
    [("id", m.id), ("call", toString m.call), ("tag", m.tag), ("label", m.kind.label)]

/-- The text made from a template, or from a default if there is no template. -/
def text (m : Making) (default : String) : Option Value → String
  | some (.text template) => m.fill template
  | _ => m.fill default

/-- The number made from a number; the number of the call if there is none. -/
def number (m : Making) : Option Value → Nat
  | some (.int n) => if n < 0 then m.call else n.toNat
  | _ => m.call

/-- How deep a nest an object asks for. -/
def nestDepth? (ms : List (String × Value)) : Option Nat :=
  match ms.lookup "$nest" with
  | some (.int n) => if n < 0 then none else some n.toNat
  | _ => none

mutual

/-- A value with every text filled and every nest in place. -/
def value (m : Making) : Value → Value
  | .text template => .text (m.fill template)
  | .items vs => .items (values m vs)
  | .members ms =>
    match nestDepth? ms with
    | some n => Value.nested n
    | none => .members (memberValues m ms)
  | v => v

/-- The items of a list, each made. -/
def values (m : Making) : List Value → List Value
  | [] => []
  | v :: vs => m.value v :: values m vs

/-- The members of an object, each made. -/
def memberValues (m : Making) : List (String × Value) → List (String × Value)
  | [] => []
  | (name, v) :: ms => (name, m.value v) :: memberValues m ms

end

/-- The response made from a specification. -/
def response (m : Making) (spec : Option Value) : m.kind.Response :=
  match m.kind with
  | .query => m.text "result \x7bid\x7d" spec
  | .twin => (m.number spec).toUInt64
  | .count => (m.number spec).toUInt64
  | .blob =>
    match spec.filter (fun v => !(v == .null)) with
    | some v => m.value v
    | none => Value.members [("call", .int m.call), ("id", .text m.id)]
  | .maybe =>
    match spec with
    | some (.int n) => if n < 0 then none else some n.toNat.toUInt32
    | _ => none
  | .command => m.text "command \x7bid\x7d done" spec
  | .rename => m.text "\x7blabel\x7d \x7bid\x7d #\x7bcall\x7d" spec
  | .ping => m.text "pong" spec

end Making

end RequestCache.Rehearsal
