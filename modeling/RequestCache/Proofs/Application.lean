/-
# An application that only handles

What an application does to answer a request is its own business, so long as it leaves the store
of the cache alone: to handle a request is one piece of work, answered with an outcome
(`handlings`).  Over a dispatcher that knows such handlers and nothing else, a setup gives every
kind of request the way handler, look-up, evictions (`Dispatcher.IsPlain.route_wire`).
-/
import RequestCache.Demo
import RequestCache.Proofs.Wiring

namespace RequestCache

/-- To handle a request, as the only work of an application. -/
def handlings (C : Catalogue) : Interface :=
  ⟨(k : C.Kind) × C.Request k, fun op => Outcome C op.1⟩

/-- A request that was handled, with the outcome. -/
structure Handling (C : Catalogue) where
  kind : C.Kind
  request : C.Request kind
  outcome : Outcome C kind

variable {C : Catalogue}

/-- The handler that leaves a request to the application. -/
def asking (k : C.Kind) : Handler C (handlings C) k := fun request => do
  match ← Action.work (W := handlings C) ⟨k, request⟩ with
  | none => return .error .cancelled
  | some outcome => return outcome

namespace Dispatcher

/-- The dispatcher has no stages, and its handlers leave requests to the application. -/
def IsPlain (d : Dispatcher C (handlings C)) : Prop :=
  ∀ k, (d.route k).stages = [] ∧ ∀ h ∈ (d.route k).handler, h = asking k

/-- The dispatcher that leaves all requests to the application. -/
def asksAll : Dispatcher C (handlings C) where
  route k := { handler := some (asking k) }

lemma isPlain_asksAll : (asksAll : Dispatcher C (handlings C)).IsPlain := by
  intro k
  refine ⟨rfl, fun h hh => ?_⟩
  cases hh
  rfl

lemma IsPlain.handler_eq {d : Dispatcher C (handlings C)} (hd : d.IsPlain) {k : C.Kind}
    (hk : d.isServed k = true) : (d.route k).handler = some (asking k) := by
  obtain ⟨h, hh⟩ := Option.isSome_iff_exists.1 hk
  rw [hh, (hd k).2 h hh]

theorem IsPlain.route_wire {d : Dispatcher C (handlings C)} (hd : d.IsPlain)
    {s : CacheSetup C (handlings C)} (hs : s.IsOrdered) (serial : ℕ) (k : C.Kind) :
    ∃ evicting looking, (s.wire d serial).1.route k =
      { handler := (d.route k).handler
        stages := s.evictionStage k evicting ++ s.lookupStage k looking } := by
  obtain ⟨evicting, looking, hroute⟩ := CacheSetup.route_wire hs d serial k
  refine ⟨evicting, looking, ?_⟩
  rw [hroute, (hd k).1]
  rfl

end Dispatcher

/-- A setup at work: it is built step by step and wired into the dispatcher of an application. -/
structure Service (C : Catalogue) (own : (k : C.Kind) → Eviction C (handlings C) k → Prop) where
  /-- What is cached, and what is evicted when. -/
  setup : CacheSetup C (handlings C)
  /-- The setup is built step by step. -/
  built : setup.Built own
  /-- What answers requests without a cache. -/
  inner : Dispatcher C (handlings C)
  /-- It leaves them to the application. -/
  plain : inner.IsPlain
  /-- The number of the first recorder. -/
  serial : ℕ

namespace Service

variable {own : (k : C.Kind) → Eviction C (handlings C) k → Prop}

/-- What answers requests. -/
def dispatcher (S : Service C own) : Dispatcher C (handlings C) :=
  (S.setup.wire S.inner S.serial).1

theorem exists_route (S : Service C own) (k : C.Kind) :
    ∃ evicting looking, S.dispatcher.route k =
      { handler := (S.inner.route k).handler
        stages := S.setup.evictionStage k evicting ++ S.setup.lookupStage k looking } :=
  S.plain.route_wire S.built.isOrdered S.serial k

end Service

namespace Demo

/-- Greetings are cached. -/
def greetingSetup : CacheSetup catalogue (handlings catalogue) where
  storeName := "memory"
  plan := Family.set (F := fun k => Option (Plan catalogue k)) (fun _ => none) Kind.greeting
    (some greetingPlan)
  cached := [Kind.greeting]

/-- The text of the greeting of a number. -/
def greetingText (number : ℕ) : String := "hello " ++ toString number

/-- Resetting a number makes its greeting go away, found by its text and not by the number. -/
def setup : CacheSetup catalogue (handlings catalogue) :=
  (greetingSetup.addEviction Kind.reset (.ofPlan greetingPlan greetingText)).1

lemma built_setup : CacheSetup.Built (fun _ _ => False) setup := by
  have hstart : CacheSetup.Built (fun _ _ => False)
      ({ storeName := "memory" } : CacheSetup catalogue (handlings catalogue)) :=
    .start "memory" .strict
  have hplan : CacheSetup.Built (fun _ _ => False) greetingSetup :=
    hstart.plan (k := Kind.greeting) (p := greetingPlan) rfl
  have hevict : greetingSetup.evictAfter (C := catalogue) Kind.reset Kind.greeting greetingText =
      .ok (greetingSetup.addEviction Kind.reset (.ofPlan greetingPlan greetingText)) := rfl
  exact hplan.evictAfter hevict

/-- The demonstration at work. -/
def service : Service catalogue fun _ _ => False where
  setup := setup
  built := built_setup
  inner := .asksAll
  plain := Dispatcher.isPlain_asksAll
  serial := 0

end Demo

end RequestCache
