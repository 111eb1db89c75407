/-
# Which log entries are shown

A filter is a row of directives, which are written with commas between them.  Of the directives
that fit an entry the most specific one decides (`Directive.order`), and of several equally
specific ones the last; an entry that no directive fits is hidden.
-/
import RequestCache.LogFilter.Parser

namespace RequestCache

/-- Directives, the last one before the others that are as specific. -/
abbrev LogFilter := List Directive

namespace LogFilter

/-- The filter of a text without any directive. -/
def blank : LogFilter := [{ detail := Level.error.detail }]

/-- The filter that is used where nobody gives a readable one. -/
def standard : LogFilter := [{ detail := Level.info.detail }]

/-- The filter that a text stands for.  Empty parts do not count. -/
def parse (s : String) : Except FilterFault LogFilter := do
  let parts := (s.splitOn ",").filter fun part => !part.isEmpty
  let directives ← parts.mapM fun part => Directive.parse part.toList
  return if directives.isEmpty then blank else directives

/-- The filter of a variable of the environment.  A filter that cannot even be cut into pieces is
no filter, not even the standard one. -/
def ofVariable? : Option String → Option LogFilter
  | none => some standard
  | some s =>
    match parse s with
    | .ok f => some f
    | .error .unreadable => some standard
    | .error .splitCharacter => none

/-- The directive that decides about an entry. -/
def deciding? (f : LogFilter) (e : LogEntry) : Option Directive :=
  (f.filter fun d => d.fits e).foldl
    (fun best d =>
      match best with
      | some b => if d.order b = .lt then some b else some d
      | none => some d)
    none

/-- Is an entry shown? -/
def shows (f : LogFilter) (e : LogEntry) : Bool :=
  (f.deciding? e).any fun d => e.level.detail ≤ d.detail

/-- The lines of the events that are shown. -/
def lines (f : LogFilter) (events : List Event) : List String :=
  ((events.map Event.entry).filter f.shows).map LogEntry.line

end LogFilter

end RequestCache
