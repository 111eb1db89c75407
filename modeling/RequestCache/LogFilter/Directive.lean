/-
# Directives

A directive of a filter says which log entries it is about and how far into detail these may go.
It may name the beginning of the source and a field that an entry must have.  It may also ask for
a span around the entry, or for the value of a field of such a span.  No entry is told inside of
a span, so such a directive fits none.
-/
import RequestCache.Event

namespace RequestCache

/-- How far into detail some entries are shown. -/
structure Directive where
  /-- How the names of the sources begin; none given is any source. -/
  source : Option String := none
  /-- The field that the entries have. -/
  field : Option String := none
  /-- Is a span asked for? -/
  isAboutSpans : Bool := false
  /-- The greatest detail shown; zero shows nothing. -/
  detail : Nat
deriving DecidableEq, Repr

namespace Directive

/-- The detail at which everything is shown. -/
def everything : Nat := Level.trace.detail

/-- The names of the fields of an entry; its message is one of them. -/
def fieldNames (e : LogEntry) : List String := "message" :: e.fields.map LogField.name

/-- Is the directive about an entry? -/
def fits (d : Directive) (e : LogEntry) : Bool :=
  !d.isAboutSpans && (d.source.all fun s => s.toList.isPrefixOf e.source.toList) &&
    d.field.all (fieldNames e).contains

/-- How much of the source a directive asks for. -/
def reach (d : Directive) : Nat :=
  match d.source with
  | none => 0
  | some s => s.length + 1

/-- Which of two directives is more specific: the one with more of the source, then the one with
a field, and then the one with the later name of the field. -/
def order (d e : Directive) : Ordering := (compare d.reach e.reach).then (compare d.field e.field)

end Directive

end RequestCache
