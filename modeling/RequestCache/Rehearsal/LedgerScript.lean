/-
# Scripts on recorders

Steps that tell recorders, copy them and make new ones, with all counts after each step.
-/
import RequestCache.Ledger

namespace RequestCache.Rehearsal

/-- A step on recorders; recorders are known by their places. -/
inductive LedgerStep where
  /-- Tells a recorder the same so many times. -/
  | record (on : Nat) (m : Measure) (times : Nat) (elapsed : Span)
  /-- Copies a recorder. -/
  | copy (on : Nat)
  /-- Makes a recorder. -/
  | make (request : String)
  /-- Describes the metrics. -/
  | describe

/-- The ledger and the recorders, each at its place. -/
structure LedgerBench where
  ledger : Ledger := {}
  recorders : List Recorder

namespace LedgerBench

/-- Takes a step. -/
def step (b : LedgerBench) : LedgerStep → LedgerBench
  | .record on m times elapsed =>
    match b.recorders[on]? with
    | some r => { b with ledger := b.ledger.record r m times elapsed }
    | none => b
  | .copy on =>
    match b.recorders[on]? with
    | some r => { b with recorders := b.recorders ++ [r] }
    | none => b
  | .make request =>
    { b with recorders := b.recorders ++ [⟨b.recorders.length, request⟩] }
  | .describe => { b with ledger := b.ledger.describe }

/-- All recorders with their counts. -/
def counts (b : LedgerBench) : List (Recorder × Counts) :=
  b.recorders.map fun r => (r, b.ledger.countsOf r)

end LedgerBench

/-- Takes the steps of a script that begins with one recorder; the counts after each step, and
the ledger at the end. -/
def ledgerScript (request : String) (steps : List LedgerStep) :
    List (List (Recorder × Counts)) × Ledger :=
  let (shown, bench) := steps.foldl (fun (shown, b) step =>
    let b := LedgerBench.step b step
    (b.counts :: shown, b)) ([], ({ recorders := [⟨0, request⟩] } : LedgerBench))
  (shown.reverse, bench.ledger)

end RequestCache.Rehearsal
