/-
# Requests that are not cached

A request of a kind without a plan may have evictions, and these read the store.  Whatever they
find there, an entry or none, a blank text, one that holds no entry, or one that lists the keys
of others, they only remove and never fail, as long as the store does not.  So what the caller
learns is what the handler says (`CacheSetup.outcome_of_uncached`): if that depends on the
request alone, no one can tell from the outcome what the store holds.
-/
import RequestCache.Proofs.Protocol

namespace RequestCache

variable {C : Catalogue} {k : C.Kind} {script : Script C}

/-- The outcome of a handler depends on the request alone, and not on the store or on what was
handled before. -/
def IsDeterministic (script : Script C) (handler : Handler C (handlings C) k) : Prop :=
  ∀ request (s t : Scene C),
    (Scene.run script (handler request) s).1 = (Scene.run script (handler request) t).1

namespace CacheSetup

variable {S : CacheSetup C (handlings C)} {D : Dispatcher C (handlings C)}
  {handler : Handler C (handlings C) k}

lemma exists_route_bare (hS : S.IsOrdered)
    (hroute : D.route k = { handler := some handler }) (serial : ℕ) :
    ∃ evicting looking, (S.wire D serial).1.route k =
      { handler := some handler
        stages := S.evictionStage k evicting ++ S.lookupStage k looking ++ [] } := by
  obtain ⟨evicting, looking, hwired⟩ := route_wire hS D serial k
  refine ⟨evicting, looking, ?_⟩
  rw [hwired, hroute, List.append_nil]
  rfl

/-- The dispatch of a request that is not cached runs the handler, once, and then at most
removes; the outcome is that of the handler. -/
lemma exists_ran_uncached (script : Script C) (hS : S.Built fun _ _ => False)
    (hplan : S.plan k = none) (hroute : D.route k = { handler := some handler }) (serial : ℕ)
    (request : C.Request k) (s : Scene C) :
    ∃ (inner removals : List (effects (handlings C)).Op) (outcome : Outcome C k) (s₁ s' : Scene C),
      (handler request).Ran (Scene.answer script) s inner outcome s₁ ∧
      ((S.wire D serial).1.send k request).Ran (Scene.answer script) s
        (Effect.isCancelled :: (inner ++ removals)) outcome s' ∧
      ∀ e ∈ removals, Effect.OnlyRemoves (W := handlings C) e := by
  have hstore := Scene.reliable_answer script
  obtain ⟨evicting, looking, hwired⟩ := exists_route_bare hS.isOrdered hroute serial
  obtain ⟨keys, hkeys⟩ := hS.exists_keys request
  obtain ⟨ops, outcome, s', hran⟩ := Program.exists_ran (Scene.answer script)
    ((S.wire D serial).1.send k request) s
  obtain ⟨rest, rfl, hinside⟩ := Dispatcher.ran_send hstore.live hwired hran
  have hfollows := follows_of_ran hstore.live.uncut (hkeys.imp fun _ _ h => h.evict_eq) hinside
  have hinner : ∀ {ops : List (effects (handlings C)).Op} {outcome : Outcome C k},
      Responds (Scene.answer script) S request (throughStages handler request []) s ops outcome →
      ∃ s₁, (handler request).Ran (Scene.answer script) s ops outcome s₁ := by
    rintro ops outcome (⟨-, hnext⟩ | ⟨hsome, -⟩)
    · exact ⟨_, hnext⟩
    · rw [hplan] at hsome
      cases hsome
  cases hfollows with
  | failed hresponds =>
    obtain ⟨s₁, hhandler⟩ := hinner hresponds
    refine ⟨_, [], _, s₁, s', hhandler, ?_, by simp⟩
    rwa [List.append_nil]
  | evicting hresponds hruns =>
    obtain ⟨s₁, hhandler⟩ := hinner hresponds
    obtain rfl := hruns.faults_eq_nil hstore
    exact ⟨_, _, _, s₁, s', hhandler, hran, hruns.onlyRemoves⟩

/-- The outcome of a request that is not cached does not depend on what the store in memory holds.

Whatever texts lie under whatever keys, until whenever, at the two instants at which it is sent:
if the handler says the same, the dispatches have the same outcome.  Each of them runs the handler
once, and apart from that the application does not work. -/
theorem outcome_of_uncached (hS : S.Built fun _ _ => False) (hplan : S.plan k = none)
    (hroute : D.route k = { handler := some handler }) (hhandler : IsDeterministic script handler)
    (serial : ℕ) (request : C.Request k) :
    (∀ s t : Scene C,
      (Scene.run script ((S.wire D serial).1.send k request) s).1 =
        (Scene.run script ((S.wire D serial).1.send k request) t).1) ∧
    ∀ s : Scene C, ∃ (inner removals : List (effects (handlings C)).Op) (outcome : Outcome C k)
        (s₁ s' : Scene C),
      (handler request).Ran (Scene.answer script) s inner outcome s₁ ∧
      ((S.wire D serial).1.send k request).Ran (Scene.answer script) s
        (Effect.isCancelled :: (inner ++ removals)) outcome s' ∧
      ∀ e ∈ removals, ¬ Effect.IsWork (W := handlings C) e := by
  refine ⟨fun s t => ?_, fun s => ?_⟩
  · obtain ⟨_, _, outcome, _, _, hs, hsend, -⟩ :=
      exists_ran_uncached script hS hplan hroute serial request s
    obtain ⟨_, _, outcome', _, _, ht, hsend', -⟩ :=
      exists_ran_uncached script hS hplan hroute serial request t
    calc (Scene.run script ((S.wire D serial).1.send k request) s).1
        = outcome := congrArg Prod.fst hsend.run
      _ = (Scene.run script (handler request) s).1 := (congrArg Prod.fst hs.run).symm
      _ = (Scene.run script (handler request) t).1 := hhandler request s t
      _ = outcome' := congrArg Prod.fst ht.run
      _ = (Scene.run script ((S.wire D serial).1.send k request) t).1 :=
        (congrArg Prod.fst hsend'.run).symm
  · obtain ⟨inner, removals, outcome, s₁, s', hs, hsend, hremoves⟩ :=
      exists_ran_uncached script hS hplan hroute serial request s
    exact ⟨inner, removals, outcome, s₁, s', hs, hsend, fun e he => (hremoves e he).not_isWork⟩

end CacheSetup

namespace Demo

/-- A text that is no entry lies under both keys of the greeting of number one. -/
def spoiled : Scene catalogue :=
  opening.put (Key.texts (greetingPlan.entryKeys (1 : ℕ) (greetingText 1))) "not an entry" {}

/-- Resetting number one says the same whether there is nothing to remove or something that is no
entry. -/
theorem reset_spoiled :
    (resetting spoiled).1 = (resetting opening).1 ∧ (resetting opening).1 = .ok () := by
  have hdeterministic : IsDeterministic greetings (asking (C := catalogue) Kind.reset) :=
    fun _ _ _ => rfl
  obtain ⟨hsame, hruns⟩ := CacheSetup.outcome_of_uncached (k := Kind.reset) built_setup rfl
    (D := .asksAll) rfl hdeterministic 0 resetOne
  obtain ⟨inner, removals, outcome, s₁, s', hhandler, hsend, -⟩ := hruns opening
  refine ⟨hsame spoiled opening, ?_⟩
  have houtcome : outcome = .ok () := (congrArg Prod.fst hhandler.run).symm
  exact (congrArg Prod.fst hsend.run).trans houtcome

end Demo

end RequestCache
