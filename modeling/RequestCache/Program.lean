/-
# Programs

A program is a tree of questions: it has either come to its result, or it asks its
surroundings to do something and goes on with the answer.  Who answers, and when, is not the
program's business.  The same program is run at once, on a time line, or interleaved with
others, and laws about programs hold for all of these.
-/

namespace RequestCache

/-- What programs may ask of their surroundings: operations, each with the type of its
answer. -/
structure Interface where
  /-- The operations. -/
  Op : Type
  /-- What an operation is answered with. -/
  Answer : Op → Type

/-- A program that asks its surroundings for the operations of `I` and ends with an `α`. -/
inductive Program (I : Interface) (α : Type) : Type where
  /-- The program has ended. -/
  | done (a : α)
  /-- The program asks for an operation and goes on with the answer. -/
  | ask (op : I.Op) (next : I.Answer op → Program I α)

namespace Program

variable {I J : Interface} {α β γ σ : Type}

/-- Goes on with what `f` makes of the result. -/
def bind : Program I α → (α → Program I β) → Program I β
  | done a, f => f a
  | ask op next, f => ask op fun x => (next x).bind f

instance : Monad (Program I) where
  pure := done
  bind := bind

@[simp] theorem pure_eq_done (a : α) : (pure a : Program I α) = done a := rfl

@[simp] theorem done_bind (a : α) (f : α → Program I β) : done a >>= f = f a := rfl

@[simp] theorem ask_bind (op : I.Op) (next : I.Answer op → Program I α) (f : α → Program I β) :
    ask op next >>= f = ask op fun x => next x >>= f := rfl

theorem bind_done (p : Program I α) : p.bind done = p := by
  induction p with
  | done a => rfl
  | ask op next ih => simp only [bind, ih]

theorem bind_bind (p : Program I α) (f : α → Program I β) (g : β → Program I γ) :
    (p.bind f).bind g = p.bind fun a => (f a).bind g := by
  induction p with
  | done a => rfl
  | ask op next ih => simp only [bind, ih]

instance : LawfulMonad (Program I) :=
  LawfulMonad.mk' (Program I) (fun p => bind_done p) (fun _ _ => rfl)
    (fun p f g => bind_bind p f g)

/-- Runs a program, each operation answered from a state and changing it. -/
def run (answer : (op : I.Op) → σ → I.Answer op × σ) : Program I α → σ → α × σ
  | done a, s => (a, s)
  | ask op next, s => (next (answer op s).1).run answer (answer op s).2

/-- Runs the programs of a list one after the other. -/
def runAll (answer : (op : I.Op) → σ → I.Answer op × σ) : List (Program I α) → σ → List α × σ
  | [], s => ([], s)
  | p :: ps, s =>
    let (a, s) := p.run answer s
    let (as, s) := runAll answer ps s
    (a :: as, s)

theorem run_bind (answer : (op : I.Op) → σ → I.Answer op × σ) (p : Program I α)
    (f : α → Program I β) (s : σ) :
    (p.bind f).run answer s = (f (p.run answer s).1).run answer (p.run answer s).2 := by
  induction p generalizing s with
  | done a => rfl
  | ask op next ih => exact ih _ _

end Program

end RequestCache
