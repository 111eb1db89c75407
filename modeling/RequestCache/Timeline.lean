/-
# Time lines

What becomes of an action when each thing it waits for takes a known time: a tree of moments,
each of which happens at an instant of virtual time, counted in milliseconds, and takes none
itself.  Changes that are applied at once begin together and take effect each in its own time;
the action goes on when the last one has.

A token that is cancelled at an instant cuts short whatever is waiting at that instant: no
moment of the action that was still to come happens.  Waiting for nothing is no waiting, so it
cannot be cut short.

Time lines that run together are merged into one (`Timeline.merge`), the earlier moment first,
and of two moments at the same instant the one of the first time line.
-/
import RequestCache.Effect

namespace RequestCache

/-- What happens at one instant. -/
inductive Moment (W : Interface) where
  /-- A read of a key begins. -/
  | beginRead (key : String)
  /-- A change begins. -/
  | beginChange (change : Change)
  /-- A key is read. -/
  | read (key : String)
  /-- A change takes effect, or fails. -/
  | change (change : Change)
  /-- The logs are told. -/
  | log (event : Event)
  /-- A recorder is told. -/
  | measure (recorder : Recorder) (what : Measure)
  /-- The application has worked. -/
  | work (op : W.Op)

/-- What a moment is answered with. -/
def Moment.Answer {W : Interface} : Moment W → Type
  | beginRead _ => Unit
  | beginChange _ => Unit
  | read _ => ReadOutcome
  | change _ => ChangeOutcome
  | log _ => Unit
  | measure _ _ => Unit
  | work op => W.Answer op

/-- How long things take, in milliseconds. -/
structure Delays (W : Interface) where
  /-- A read of a key. -/
  read : String → Nat
  /-- A change. -/
  change : Change → Nat
  /-- The work of the application. -/
  work : W.Op → Nat

/-- Whether and when a call is cancelled. -/
inductive Token where
  /-- It is not. -/
  | live
  /-- At this instant. -/
  | cancelledAt (instant : Nat)
  /-- It is cancelled already. -/
  | cancelled
deriving DecidableEq, Repr

namespace Token

/-- Is the token cancelled already? -/
def isCancelled : Token → Bool
  | cancelled => true
  | _ => false

/-- When a wait from `now` until `due` is cut short. -/
def cut? (t : Token) (now due : Nat) : Option Nat :=
  match t with
  | cancelledAt instant => if now < due ∧ instant < due then some (max now instant) else none
  | _ => none

end Token

/-- A tree of moments with their instants, and a result. -/
inductive Timeline (W : Interface) (α : Type) : Type where
  /-- It has ended. -/
  | ended (at_ : Nat) (a : α)
  /-- Something happens, and the answer decides how it goes on. -/
  | moment (at_ : Nat) (what : Moment W) (next : what.Answer → Timeline W α)

namespace Timeline

variable {W : Interface} {α β γ σ : Type}

/-- The changes begin, one after the other, at one instant. -/
def begin (now : Nat) (changes : List Change) (rest : Timeline W α) : Timeline W α :=
  changes.foldr (fun c t => .moment now (.beginChange c) fun _ => t) rest

/-- A change of several, with its place among them and the instant at which it takes effect. -/
structure Flight where
  place : Nat
  due : Nat
  change : Change

/-- The changes in the order in which they take effect; those of one instant keep their
order. -/
def flights (d : Delays W) (now : Nat) (changes : List Change) : List Flight :=
  (changes.zipIdx.map fun (c, i) => Flight.mk i (now + d.change c) c).mergeSort
    fun f g => f.due ≤ g.due

/-- The outcomes of several changes in the order of the changes. -/
def inOrder (outcomes : List (Nat × ChangeOutcome)) : List ChangeOutcome :=
  (outcomes.mergeSort fun a b => a.1 ≤ b.1).map Prod.snd

/-- Changes take effect one after the other, until the wait for one of them is cut short.  The
time line goes on with the instant and the outcomes. -/
def land (token : Token) (resume : Token → Nat → Option (List ChangeOutcome) → Timeline W α) :
    (now : Nat) → (landed : List (Nat × ChangeOutcome)) → List Flight → Timeline W α
  | now, landed, [] => resume token now (some (inOrder landed))
  | now, landed, f :: fs =>
    match token.cut? now f.due with
    | some instant => resume .cancelled instant none
    | none => .moment f.due (.change f.change) fun outcome =>
      land token resume f.due ((f.place, outcome) :: landed) fs

/-- Plays an action from an instant on. -/
def play (d : Delays W) : Token → (now : Nat) → Action W α → Timeline W α
  | _, now, .done a => .ended now a
  | token, now, .ask .isCancelled next => play d token now (next token.isCancelled)
  | token, now, .ask (.log e) next =>
    .moment now (.log e) fun _ => play d token now (next ())
  | token, now, .ask (.measure r m) next =>
    .moment now (.measure r m) fun _ => play d token now (next ())
  | token, now, .ask (.read key) next =>
    if token.isCancelled then play d token now (next none)
    else .moment now (.beginRead key) fun _ =>
      match token.cut? now (now + d.read key) with
      | some instant => play d .cancelled instant (next none)
      | none => .moment (now + d.read key) (.read key) fun outcome =>
        play d token (now + d.read key) (next (some outcome))
  | token, now, .ask (.apply changes) next =>
    if token.isCancelled then play d token now (next none)
    else begin now changes
      (land token (fun token now outcomes => play d token now (next outcomes)) now []
        (flights d now changes))
  | token, now, .ask (.work op) next =>
    if token.isCancelled then play d token now (next none)
    else match token.cut? now (now + d.work op) with
      | some instant => play d .cancelled instant (next none)
      | none => .moment (now + d.work op) (.work op) fun x =>
        play d token (now + d.work op) (next (some x))

/-- Changes the result, with the instant of the end at hand. -/
def mapEnd (f : Nat → α → β) : Timeline W α → Timeline W β
  | ended t a => ended t (f t a)
  | moment t what next => moment t what fun x => (next x).mapEnd f

/-- A time line that begins with a moment, merged with another one, when it is known how it
goes on after the moment. -/
def mergeAfter (s : Nat) (what : Moment W) (go : what.Answer → Timeline W β → Timeline W γ) :
    Timeline W β → Timeline W γ
  | ended t b => moment s what fun x => go x (ended t b)
  | moment t other next =>
    if s ≤ t then moment s what fun x => go x (moment t other next)
    else moment t other fun y => mergeAfter s what go (next y)

/-- Two time lines as one. -/
def merge : Timeline W α → Timeline W β → Timeline W (α × β)
  | ended _ a, t => t.mapEnd fun _ b => (a, b)
  | moment s what next, t => mergeAfter s what (fun x t => merge (next x) t) t

/-- Many time lines as one, with the instants at which they end. -/
def mergeAll : List (Timeline W α) → Timeline W (List (Nat × α))
  | [] => ended 0 []
  | t :: ts => ((t.mapEnd Prod.mk).merge (mergeAll ts)).mapEnd fun _ p => p.1 :: p.2

/-- Runs a time line, each moment answered from a state and changing it; ends with the instant
of the end and the result. -/
def run (answer : (what : Moment W) → σ → what.Answer × σ) :
    Timeline W α → σ → (Nat × α) × σ
  | ended t a, s => ((t, a), s)
  | moment _ what next, s => (next (answer what s).1).run answer (answer what s).2

end Timeline

end RequestCache
