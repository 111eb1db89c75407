/-
# The way through a dispatcher

Handlers and stages are registered in any order, of any kinds mixed together (`Enrolment`).  What
becomes of a request depends on the registrations of its kind alone: of the handlers the last one
counts, and the stages stand in the order in which they came (`Dispatcher.route_enrolAll`).

A request goes in through the stages, one after the other, until one of them answers it or the
handler does.  Its outcome goes out again through the stages that let it go on, the innermost
first, and each makes of it what it likes.  The dispatcher is written as one recursion, which is
inside a stage while it is further in; here its runs are taken apart into the way in and the way
out (`Inward`, `Outward`), with what is asked for at each visit, and nothing else is a run of it
(`ran_throughStages_iff`).  So nobody is visited twice, and whoever lies further in than the stage
that answers is not visited at all.

A kind without a handler is not served, whoever asks and whether or not the token is cancelled.
An error of this sort that a handler or a stage reports is an outcome like any other
(`Dispatcher.send_enrolAll`).
-/
import RequestCache.Proofs.Protocol
import RequestCache.Proofs.Cancellation

namespace RequestCache

variable {C : Catalogue} {W : Interface} {k : C.Kind} {α σ : Type}
  {answer : (e : Effect W) → σ → e.Answer × σ}

/-! ## Registrations -/

/-- A call that registers something with a dispatcher. -/
inductive Enrolment (C : Catalogue) (W : Interface) where
  /-- A handler takes the place of any earlier one. -/
  | handler (k : C.Kind) (h : Handler C W k)
  /-- A stage is added inside those that are there. -/
  | stage (k : C.Kind) (s : Stage C W k)

namespace Enrolment

/-- The kind whose requests a call is about. -/
def kind : Enrolment C W → C.Kind
  | handler k _ => k
  | stage k _ => k

/-- The handler that a call registers for a kind. -/
def handler? (k : C.Kind) : Enrolment C W → Option (Handler C W k)
  | handler j h => if e : j = k then some (e ▸ h) else none
  | stage _ _ => none

/-- The stage that a call adds to a kind. -/
def stage? (k : C.Kind) : Enrolment C W → Option (Stage C W k)
  | handler _ _ => none
  | stage j s => if e : j = k then some (e ▸ s) else none

/-- The handlers that some calls register for a kind, the first one first. -/
def handlers (k : C.Kind) (es : List (Enrolment C W)) : List (Handler C W k) :=
  es.filterMap (handler? k)

/-- The stages that some calls add to a kind, the first one first. -/
def stages (k : C.Kind) (es : List (Enrolment C W)) : List (Stage C W k) :=
  es.filterMap (stage? k)

/-- Those of some calls that are about a kind. -/
def concerning (k : C.Kind) (es : List (Enrolment C W)) : List (Enrolment C W) :=
  es.filter fun e => e.kind = k

variable {e : Enrolment C W} {es : List (Enrolment C W)}

lemma handler?_eq_some_iff {h : Handler C W k} : e.handler? k = some h ↔ e = .handler k h := by
  cases e with
  | handler j h' =>
    by_cases hj : j = k
    · subst hj
      simp [handler?]
    · simp [handler?, hj]
  | stage j s => simp [handler?]

lemma stage?_eq_some_iff {s : Stage C W k} : e.stage? k = some s ↔ e = .stage k s := by
  cases e with
  | handler j h => simp [stage?]
  | stage j s' =>
    by_cases hj : j = k
    · subst hj
      simp [stage?]
    · simp [stage?, hj]

lemma mem_handlers {h : Handler C W k} : h ∈ handlers k es ↔ .handler k h ∈ es := by
  simp [handlers, handler?_eq_some_iff]

lemma mem_stages {s : Stage C W k} : s ∈ stages k es ↔ .stage k s ∈ es := by
  simp [stages, stage?_eq_some_iff]

lemma handler?_of_kind_ne (h : e.kind ≠ k) : e.handler? k = none := by
  cases e with
  | handler j h' => simpa [handler?, kind] using h
  | stage j s => rfl

lemma stage?_of_kind_ne (h : e.kind ≠ k) : e.stage? k = none := by
  cases e with
  | handler j h' => rfl
  | stage j s => simpa [stage?, kind] using h

lemma handlers_concerning : handlers k (concerning k es) = handlers k es := by
  rw [handlers, concerning, List.filterMap_filter]
  refine List.filterMap_congr fun e _ => ?_
  by_cases h : e.kind = k
  · simp [h]
  · simp [h, handler?_of_kind_ne h]

lemma stages_concerning : stages k (concerning k es) = stages k es := by
  rw [stages, concerning, List.filterMap_filter]
  refine List.filterMap_congr fun e _ => ?_
  by_cases h : e.kind = k
  · simp [h]
  · simp [h, stage?_of_kind_ne h]

end Enrolment

namespace Dispatcher

variable {d : Dispatcher C W} {es : List (Enrolment C W)}

/-- The dispatcher after one call. -/
def enrol (d : Dispatcher C W) : Enrolment C W → Dispatcher C W
  | .handler k h => (d.setHandler k h).1
  | .stage k s => d.addStage k s

/-- The dispatcher after some calls. -/
def enrolAll (d : Dispatcher C W) (es : List (Enrolment C W)) : Dispatcher C W := es.foldl enrol d

lemma route_enrol (e : Enrolment C W) :
    (d.enrol e).route k =
      { handler := (e.handler? k).or (d.route k).handler
        stages := (d.route k).stages ++ (e.stage? k).toList } := by
  cases e with
  | handler j h =>
    by_cases hj : k = j
    · subst hj
      simp [enrol, setHandler, alter, Enrolment.handler?, Enrolment.stage?]
    · simp [enrol, setHandler, alter, Enrolment.handler?, Enrolment.stage?, Ne.symm hj,
        Family.set_other _ _ hj]
  | stage j s =>
    by_cases hj : k = j
    · subst hj
      simp [enrol, Enrolment.handler?, Enrolment.stage?]
    · simp [enrol, Enrolment.handler?, Enrolment.stage?, Ne.symm hj, d.route_addStage_other s hj]

/-- What calls do to the route of a kind. -/
theorem route_enrolAll (d : Dispatcher C W) (es : List (Enrolment C W)) :
    (d.enrolAll es).route k =
      { handler := (Enrolment.handlers k es).getLast?.or (d.route k).handler
        stages := (d.route k).stages ++ Enrolment.stages k es } := by
  induction es generalizing d with
  | nil => simp [enrolAll, Enrolment.handlers, Enrolment.stages]
  | cons e es ih =>
    change ((d.enrol e).enrolAll es).route k = _
    rw [ih, route_enrol]
    simp only [Enrolment.handlers, Enrolment.stages, List.filterMap_cons]
    congr 1
    · -- a handler that is registered later takes the place of this one
      cases e.handler? k with
      | none => rfl
      | some h =>
        dsimp only
        rw [List.getLast?_cons]
        cases (es.filterMap (Enrolment.handler? k)).getLast? <;> rfl
    · cases e.stage? k <;> simp

end Dispatcher

/-! ## In and out again -/

/-- What a stage makes of the outcome from further in. -/
abbrev Leave (C : Catalogue) (W : Interface) (k : C.Kind) := Outcome C k → Action W (Outcome C k)

/-- A part of the way of a request.  The stages are numbered, the outermost one is number zero. -/
inductive Visit where
  | entering (i : ℕ)
  | handling
  | leaving (i : ℕ)
deriving DecidableEq, Repr

/-- A visit with what is asked for during it. -/
abbrev Stop (W : Interface) := Visit × List (effects W).Op

/-- How a request gets in from stage number `i` on: through the stages that let it go on, up to the
one that answers it, or to the handler. -/
inductive Inward (answer : (e : Effect W) → σ → e.Answer × σ) (handler : Handler C W k)
    (request : C.Request k) :
    ℕ → List (Stage C W k) → σ → List (Stop W) → List (Leave C W k) → Outcome C k → σ → Prop
  /-- The handler is reached. -/
  | handled {i : ℕ} {s s' : σ} {ops : List (effects W).Op} {outcome : Outcome C k}
      (h : (handler request).Ran answer s ops outcome s') :
      Inward answer handler request i [] s [(.handling, ops)] [] outcome s'
  /-- A stage answers. -/
  | answered {i : ℕ} {stage : Stage C W k} {stages : List (Stage C W k)} {s s' : σ}
      {ops : List (effects W).Op} {outcome : Outcome C k}
      (h : (stage.enter request stages.length).Ran answer s ops (.answer outcome) s') :
      Inward answer handler request i (stage :: stages) s [(.entering i, ops)] [] outcome s'
  /-- A stage lets the request go on. -/
  | passed {i : ℕ} {stage : Stage C W k} {stages : List (Stage C W k)} {s s₁ s' : σ}
      {ops : List (effects W).Op} {leave : Leave C W k} {stops : List (Stop W)}
      {leaves : List (Leave C W k)} {outcome : Outcome C k}
      (h : (stage.enter request stages.length).Ran answer s ops (.proceed leave) s₁)
      (hrest : Inward answer handler request (i + 1) stages s₁ stops leaves outcome s') :
      Inward answer handler request i (stage :: stages) s ((.entering i, ops) :: stops)
        (leave :: leaves) outcome s'

/-- How an outcome gets out again through stages, the first of them number `i`; the last of them
is left first. -/
inductive Outward (answer : (e : Effect W) → σ → e.Answer × σ) :
    ℕ → List (Leave C W k) → Outcome C k → σ → List (Stop W) → Outcome C k → σ → Prop
  /-- There is no stage to leave. -/
  | out {i : ℕ} {outcome : Outcome C k} {s : σ} : Outward answer i [] outcome s [] outcome s
  /-- The first stage makes the outcome from what came out of the others. -/
  | left {i : ℕ} {leave : Leave C W k} {leaves : List (Leave C W k)} {s s₁ s' : σ}
      {reached inner outcome : Outcome C k} {stops : List (Stop W)} {ops : List (effects W).Op}
      (hrest : Outward answer (i + 1) leaves reached s stops inner s₁)
      (h : (leave inner).Ran answer s₁ ops outcome s') :
      Outward answer i (leave :: leaves) reached s (stops ++ [(.leaving i, ops)]) outcome s'

/-- The way of a request: the stops it makes, what the stages that let it go on make of outcomes,
the outcome with which it turns back, and the one with which it comes out. -/
def Journey (answer : (e : Effect W) → σ → e.Answer × σ) (handler : Handler C W k)
    (stages : List (Stage C W k)) (request : C.Request k) (s : σ) (stops : List (Stop W))
    (leaves : List (Leave C W k)) (reached outcome : Outcome C k) (s' : σ) : Prop :=
  ∃ inward outward s₁, Inward answer handler request 0 stages s inward leaves reached s₁ ∧
    Outward answer 0 leaves reached s₁ outward outcome s' ∧ stops = inward ++ outward

/-- Stages are entered in order, there is a turn, and they are left in the opposite order. -/
def itinerary (n : ℕ) (turn : Visit) : List Visit :=
  (List.range n).map .entering ++ turn :: ((List.range n).map .leaving).reverse

/-- Of so many stages the first `n` let the request go on, and the turn is at the handler, if these
are all, or at the next stage. -/
def TurnsAt (stages n : ℕ) : Visit → Prop
  | .handling => n = stages
  | .entering i => n = i ∧ i < stages
  | .leaving _ => False

section

variable {handler : Handler C W k} {request : C.Request k} {stages : List (Stage C W k)} {i : ℕ}
  {s s₁ s' : σ} {stops inward outward : List (Stop W)} {leaves : List (Leave C W k)}
  {reached outcome : Outcome C k} {ops : List (effects W).Op}

lemma Inward.exists_turn (h : Inward answer handler request i stages s stops leaves reached s') :
    ∃ turn, stops.map Prod.fst = (List.range' i leaves.length).map .entering ++ [turn] ∧
      (turn = .handling ∧ leaves.length = stages.length ∨
        turn = .entering (i + leaves.length) ∧ leaves.length < stages.length) := by
  induction h with
  | handled h => exact ⟨.handling, rfl, .inl ⟨rfl, rfl⟩⟩
  | @answered i stage stages _ _ _ _ h =>
    exact ⟨.entering i, rfl, .inr ⟨rfl, Nat.succ_pos stages.length⟩⟩
  | @passed i stage stages _ _ _ _ _ _ leaves _ h hrest ih =>
    obtain ⟨turn, hvisits, hturn⟩ := ih
    refine ⟨turn, ?_, ?_⟩
    · rw [List.map_cons, hvisits, List.length_cons, List.range'_succ]
      rfl
    · simp only [List.length_cons]
      rcases hturn with ⟨rfl, hlength⟩ | ⟨rfl, hlength⟩
      · exact .inl ⟨rfl, congrArg (· + 1) hlength⟩
      · exact .inr ⟨congrArg Visit.entering (by omega), Nat.succ_lt_succ hlength⟩

lemma Outward.visits (h : Outward answer i leaves reached s stops outcome s') :
    stops.map Prod.fst = ((List.range' i leaves.length).map .leaving).reverse := by
  induction h with
  | out => rfl
  | left hrest h ih =>
    simp [ih, List.range'_succ]

/-- Nobody is visited out of turn. -/
theorem Journey.exists_itinerary
    (h : Journey answer handler stages request s stops leaves reached outcome s') :
    ∃ turn, stops.map Prod.fst = itinerary leaves.length turn ∧
      TurnsAt stages.length leaves.length turn := by
  obtain ⟨inward, outward, s₁, hin, hout, rfl⟩ := h
  obtain ⟨turn, hvisits, hturn⟩ := hin.exists_turn
  refine ⟨turn, ?_, ?_⟩
  · rw [List.map_append, hvisits, hout.visits, ← List.range_eq_range', List.append_assoc]
    rfl
  · rcases hturn with ⟨rfl, hlength⟩ | ⟨rfl, hlength⟩
    · exact hlength
    · exact ⟨(Nat.zero_add _).symm, by omega⟩

/-- A request that gets in and out again has run through the stages. -/
lemma Inward.ran (hin : Inward answer handler request i stages s inward leaves reached s₁)
    (hout : Outward answer i leaves reached s₁ outward outcome s') :
    (throughStages handler request stages).Ran answer s ((inward ++ outward).flatMap Prod.snd)
      outcome s' := by
  induction hin generalizing outward outcome s' with
  | handled h =>
    cases hout
    rw [throughStages]
    simpa using h
  | answered h =>
    cases hout
    have hran : (throughStages handler request (_ :: _)).Ran answer _ (_ ++ []) _ _ :=
      h.bind (Program.ran_done _ _)
    simpa using hran
  | passed h hrest ih =>
    obtain _ | ⟨hrest', hleave⟩ := hout
    have hran : (throughStages handler request (_ :: _)).Ran answer _ _ _ _ :=
      h.bind ((ih hrest').bind hleave)
    simpa using hran

/-- Every run through stages is a way in and out again. -/
lemma exists_inward_outward (i : ℕ)
    (h : (throughStages handler request stages).Ran answer s ops outcome s') :
    ∃ inward leaves reached s₁ outward,
      Inward answer handler request i stages s inward leaves reached s₁ ∧
      Outward answer i leaves reached s₁ outward outcome s' ∧
      ops = (inward ++ outward).flatMap Prod.snd := by
  induction stages generalizing i s ops outcome s' with
  | nil => exact ⟨_, _, _, _, _, .handled h, .out, by simp⟩
  | cons stage stages ih =>
    obtain ⟨entered, verdict, s₁, rest, henter, hrest, rfl⟩ := Program.ran_bind_iff.1 h
    rcases verdict with answered | leave
    · obtain ⟨rfl, rfl, rfl⟩ := Program.ran_done_iff.1 hrest
      exact ⟨_, _, _, _, _, .answered henter, .out, by simp⟩
    · obtain ⟨passed, inner, s₂, left, hpassed, hleave, rfl⟩ := Program.ran_bind_iff.1 hrest
      obtain ⟨inward, leaves, reached, s₃, outward, hin, hout, rfl⟩ := ih (i + 1) hpassed
      exact ⟨_, _, _, _, _, .passed henter hin, .left hout hleave, by simp⟩

/-- The runs through stages are the ways in and out again. -/
theorem ran_throughStages_iff :
    (throughStages handler request stages).Ran answer s ops outcome s' ↔
      ∃ stops leaves reached,
        Journey answer handler stages request s stops leaves reached outcome s' ∧
        ops = stops.flatMap Prod.snd := by
  constructor
  · intro h
    obtain ⟨inward, leaves, reached, s₁, outward, hin, hout, rfl⟩ := exists_inward_outward 0 h
    exact ⟨_, leaves, reached, ⟨inward, outward, s₁, hin, hout, rfl⟩, rfl⟩
  · rintro ⟨stops, leaves, reached, ⟨inward, outward, s₁, hin, hout, rfl⟩, rfl⟩
    exact hin.ran hout

end

/-! ## Dispatches -/

/-- A run that ended although cancellation would have cut it short is a run of the action. -/
lemma ran_of_untilCancelled {p : Action W α} {s s' : σ} {ops : List (effects W).Op} {a : α}
    (h : p.untilCancelled.Ran answer s ops (some a) s') : p.Ran answer s ops a s' := by
  induction p generalizing s ops with
  | done b =>
    obtain ⟨rfl, heq, rfl⟩ := Program.ran_done_iff.1 h
    cases heq
    exact Program.ran_done _ _
  | ask e next ih =>
    obtain ⟨rest, rfl, hnext⟩ := Program.ran_ask_iff.1 h
    split_ifs at hnext
    · cases (Program.ran_done_iff.1 hnext).2.1
    · exact Program.ran_ask_iff.2 ⟨rest, rfl, ih _ hnext⟩

/-- What an action ends with as long as nothing is cut short holds of a run that ended. -/
lemma Action.Ensures.of_ran_untilCancelled {post : α → Prop} {p : Action W α}
    (hp : p.Ensures post) {s s' : σ} {ops : List (effects W).Op} {a : α}
    (h : p.untilCancelled.Ran answer s ops (some a) s') : post a := by
  induction p generalizing s ops with
  | done b =>
    obtain ⟨-, heq, -⟩ := Program.ran_done_iff.1 h
    cases heq
    exact hp
  | ask e next ih =>
    obtain ⟨rest, -, hnext⟩ := Program.ran_ask_iff.1 h
    split_ifs at hnext with hcut
    · cases (Program.ran_done_iff.1 hnext).2.1
    · exact ih _ (hp _ (Bool.eq_false_iff.2 hcut)) hnext

/-- A run that nothing cuts short is a run of the action that may be dropped. -/
lemma ran_untilCancelled_iff (huncut : IsUncut answer) {p : Action W α} {s s' : σ}
    {ops : List (effects W).Op} {a : α} :
    p.untilCancelled.Ran answer s ops (some a) s' ↔ p.Ran answer s ops a s' := by
  refine ⟨ran_of_untilCancelled, fun h => ?_⟩
  obtain ⟨ops', o, s'', h'⟩ := Program.exists_ran answer p.untilCancelled s
  obtain ⟨a', rfl, hran'⟩ := ran_untilCancelled huncut h'
  obtain ⟨rfl, rfl, rfl⟩ := h.unique hran'
  exact h'

/-- A stage all of whose outcomes are as `post` says if those from further in are. -/
def Stage.Keeps (post : Outcome C k → Prop) (stage : Stage C W k) : Prop :=
  ∀ request remaining, (stage.enter request remaining).Ensures fun
    | .answer outcome => post outcome
    | .proceed leave => ∀ outcome, post outcome → (leave outcome).Ensures post

lemma ensures_throughStages {post : Outcome C k → Prop} {handler : Handler C W k}
    {request : C.Request k} {stages : List (Stage C W k)}
    (hhandler : (handler request).Ensures post) (hstages : ∀ stage ∈ stages, stage.Keeps post) :
    (throughStages handler request stages).Ensures post := by
  induction stages with
  | nil => exact hhandler
  | cons stage stages ih =>
    have hrest := ih fun stage' h => hstages stage' (List.mem_cons_of_mem _ h)
    refine (hstages stage List.mem_cons_self request stages.length).bind ?_
    rintro (answered | leave) hverdict
    · exact hverdict
    · exact hrest.bind hverdict

namespace Dispatcher

variable {d : Dispatcher C W} {handler : Handler C W k} {request : C.Request k} {s s' : σ}
  {ops : List (effects W).Op} {outcome : Outcome C k}

lemma send_of_handler_eq_none (h : (d.route k).handler = none) (request : C.Request k) :
    d.send k request = .done (.error (.unserved (C.name k))) := by
  rw [send, h]
  rfl

/-- The dispatch of a kind that is served begins with a look at the token. -/
lemma exists_send_eq (h : (d.route k).handler = some handler) (request : C.Request k) :
    ∃ next : Bool → Action W (Outcome C k),
      d.send k request = .ask (I := effects W) .isCancelled next ∧
      next true = .done (.error .cancelled) ∧
      next false = (throughStages handler request (d.route k).stages).untilCancelled >>=
        fun o => .done (orCancelled o) := by
  refine ⟨_, send_eq h request, rfl, rfl⟩

/-- A kind is not served exactly if it has no handler. -/
lemma send_eq_unserved_iff :
    d.send k request = .done (.error (.unserved (C.name k))) ↔ (d.route k).handler = none := by
  refine ⟨fun hsend => ?_, fun h => send_of_handler_eq_none h request⟩
  by_contra hne
  obtain ⟨handler, h⟩ := Option.ne_none_iff_exists'.1 hne
  obtain ⟨next, heq, -⟩ := exists_send_eq h request
  cases heq.symm.trans hsend

/-- A dispatch that is cancelled before it begins does nothing. -/
lemma ran_send_of_cancelled (h : (d.route k).handler = some handler)
    (hcancelled : (answer .isCancelled s).1 = true) :
    (d.send k request).Ran answer s [Effect.isCancelled] (.error .cancelled)
      (answer .isCancelled s).2 := by
  obtain ⟨next, heq, htrue, -⟩ := exists_send_eq h request
  rw [heq]
  refine Program.ran_ask_iff.2 ⟨[], rfl, ?_⟩
  change (next (answer .isCancelled s).1).Ran answer _ [] _ _
  rw [hcancelled, htrue]
  exact Program.ran_done _ _

/-- A dispatch is cancelled, or it gets through the stages before that. -/
lemma ran_send_cases (h : (d.route k).handler = some handler)
    (hran : (d.send k request).Ran answer s ops outcome s') :
    outcome = .error .cancelled ∨ ∃ rest : List (effects W).Op, ops = Effect.isCancelled :: rest ∧
      (throughStages handler request (d.route k).stages).untilCancelled.Ran answer
        (answer .isCancelled s).2 rest (some outcome) s' := by
  obtain ⟨next, heq, htrue, hfalse⟩ := exists_send_eq h request
  rw [heq] at hran
  obtain ⟨rest, rfl, hnext⟩ := Program.ran_ask_iff.1 hran
  change (next (answer .isCancelled s).1).Ran answer _ rest outcome s' at hnext
  cases hcancelled : (answer .isCancelled s).1 with
  | true =>
    rw [hcancelled, htrue] at hnext
    exact .inl (Program.ran_done_iff.1 hnext).2.1
  | false =>
    rw [hcancelled, hfalse] at hnext
    obtain ⟨through, o, s₁, last, hthrough, hlast, rfl⟩ := Program.ran_bind_iff.1 hnext
    obtain ⟨rfl, rfl, rfl⟩ := Program.ran_done_iff.1 hlast
    cases o with
    | none => exact .inl rfl
    | some inner => exact .inr ⟨through, congrArg (_ :: ·) (List.append_nil through), hthrough⟩

/-- A fault that neither the handler nor a stage reports is no outcome of a dispatch, unless it is
that of cancellation. -/
lemma ne_error_of_ran_send {fault : DispatchFault} (hfault : fault ≠ .cancelled)
    (h : (d.route k).handler = some handler)
    (hhandler : (handler request).Ensures (· ≠ .error fault))
    (hstages : ∀ stage ∈ (d.route k).stages, stage.Keeps (· ≠ .error fault))
    (hran : (d.send k request).Ran answer s ops outcome s') : outcome ≠ .error fault := by
  rcases ran_send_cases h hran with rfl | ⟨rest, -, hthrough⟩
  · exact fun heq => hfault (Except.error.inj heq).symm
  · exact (ensures_throughStages hhandler hstages).of_ran_untilCancelled hthrough

/-- A dispatch that nobody cancels is a way through the stages. -/
lemma ran_send_iff (hlive : IsLive answer) (h : (d.route k).handler = some handler) :
    (d.send k request).Ran answer s ops outcome s' ↔
      ∃ rest : List (effects W).Op, ops = Effect.isCancelled :: rest ∧
        (throughStages handler request (d.route k).stages).Ran answer (answer .isCancelled s).2
          rest outcome s' := by
  have hroute : d.route k = { handler := some handler, stages := (d.route k).stages } := by
    rw [← h]
  refine ⟨fun hran => ran_send hlive hroute hran, ?_⟩
  rintro ⟨rest, rfl, hran⟩
  obtain ⟨next, heq, -, hfalse⟩ := exists_send_eq h request
  rw [heq]
  refine Program.ran_ask_iff.2 ⟨rest, rfl, ?_⟩
  change (next (answer .isCancelled s).1).Ran answer _ rest outcome s'
  rw [hlive.live s, hfalse]
  have hlast : (Program.done (orCancelled (some outcome)) : Action W (Outcome C k)).Ran answer s' []
      outcome s' := Program.ran_done _ s'
  rw [← List.append_nil rest]
  exact Program.Ran.bind (f := fun o => .done (orCancelled o))
    ((ran_untilCancelled_iff hlive.uncut).2 hran) hlast

/-- The dispatch of a request goes to a handler through stages, the outermost first, after a look
at the token. -/
def Takes (answer : (e : Effect W) → σ → e.Answer × σ) (handler : Handler C W k)
    (stages : List (Stage C W k)) (request : C.Request k) (s : σ) (ops : List (effects W).Op)
    (outcome : Outcome C k) (s' : σ) : Prop :=
  ∃ stops leaves reached turn,
    Journey answer handler stages request (answer .isCancelled s).2 stops leaves reached outcome
      s' ∧
    ops = Effect.isCancelled :: stops.flatMap Prod.snd ∧
    stops.map Prod.fst = itinerary leaves.length turn ∧ TurnsAt stages.length leaves.length turn

lemma takes_of_ran {stages : List (Stage C W k)} {rest : List (effects W).Op}
    (h : (throughStages handler request stages).Ran answer (answer .isCancelled s).2 rest outcome
      s') :
    Takes answer handler stages request s (Effect.isCancelled :: rest) outcome s' := by
  obtain ⟨stops, leaves, reached, hjourney, rfl⟩ := ran_throughStages_iff.1 h
  obtain ⟨turn, hvisits, hturn⟩ := hjourney.exists_itinerary
  exact ⟨stops, leaves, reached, turn, hjourney, rfl, hvisits, hturn⟩

/-- The dispatches of a kind that is served: they are cancelled, at the latest while they wait, or
they take the way through the stages to the handler. -/
lemma served_iff (h : (d.route k).handler = some handler) :
    ((answer .isCancelled s).1 = true →
      (d.send k request).Ran answer s [Effect.isCancelled] (.error .cancelled)
        (answer .isCancelled s).2) ∧
    ((d.send k request).Ran answer s ops outcome s' → outcome = .error .cancelled ∨
      Takes answer handler (d.route k).stages request s ops outcome s') ∧
    (IsLive answer → ((d.send k request).Ran answer s ops outcome s' ↔
      Takes answer handler (d.route k).stages request s ops outcome s')) := by
  refine ⟨ran_send_of_cancelled h, fun hran => ?_, fun hlive => ?_⟩
  · rcases ran_send_cases h hran with hcancelled | ⟨rest, rfl, hthrough⟩
    · exact .inl hcancelled
    · exact .inr (takes_of_ran (ran_of_untilCancelled hthrough))
  · rw [ran_send_iff hlive h]
    constructor
    · rintro ⟨rest, rfl, hthrough⟩
      exact takes_of_ran hthrough
    · rintro ⟨stops, leaves, reached, turn, hjourney, rfl, -, -⟩
      exact ⟨_, rfl, ran_throughStages_iff.2 ⟨stops, leaves, reached, hjourney, rfl⟩⟩

end Dispatcher

/-- Nothing that is registered for a kind reports by itself that the kind is not served. -/
structure Enrolment.AreCandid (k : C.Kind) (es : List (Enrolment C W)) : Prop where
  handler : ∀ h, .handler k h ∈ es →
    ∀ request, (h request).Ensures (· ≠ .error (.unserved (C.name k)))
  stage : ∀ stage, .stage k stage ∈ es → stage.Keeps (· ≠ .error (.unserved (C.name k)))

namespace Dispatcher

/-- What becomes of a request, whatever is registered with a dispatcher in whatever order.

* Its kind is not served exactly if no handler of it was registered; the token is not even looked
  at then.  If nobody else reports this fault, a dispatch ends with it in no other case.
* If there is a handler, the last one counts.  A dispatch that is cancelled does nothing from
  then on; any other takes the way through the stages, and every such way is a dispatch.
* Registrations of other kinds make no difference. -/
theorem send_enrolAll (es : List (Enrolment C W)) (k : C.Kind) (request : C.Request k) :
    ((empty.enrolAll es).send k request = .done (.error (.unserved (C.name k))) ↔
      ∀ h, .handler k h ∉ es) ∧
    (∀ (σ : Type) (answer : (e : Effect W) → σ → e.Answer × σ) (s : σ)
        (ops : List (effects W).Op) (outcome : Outcome C k) (s' : σ),
      Enrolment.AreCandid k es →
      ((empty.enrolAll es).send k request).Ran answer s ops outcome s' →
      (outcome = .error (.unserved (C.name k)) ↔ ∀ h, .handler k h ∉ es)) ∧
    (∀ handler, (Enrolment.handlers k es).getLast? = some handler →
      ∀ (σ : Type) (answer : (e : Effect W) → σ → e.Answer × σ) (s : σ)
        (ops : List (effects W).Op) (outcome : Outcome C k) (s' : σ),
      ((answer .isCancelled s).1 = true →
        ((empty.enrolAll es).send k request).Ran answer s [Effect.isCancelled]
          (.error .cancelled) (answer .isCancelled s).2) ∧
      (((empty.enrolAll es).send k request).Ran answer s ops outcome s' →
        outcome = .error .cancelled ∨
        Takes answer handler (Enrolment.stages k es) request s ops outcome s') ∧
      (IsLive answer → (((empty.enrolAll es).send k request).Ran answer s ops outcome s' ↔
        Takes answer handler (Enrolment.stages k es) request s ops outcome s'))) ∧
    ∀ es', Enrolment.concerning k es' = Enrolment.concerning k es →
      (empty.enrolAll es').send k request = (empty.enrolAll es).send k request := by
  have hroute : ∀ es, ((empty : Dispatcher C W).enrolAll es).route k =
      { handler := (Enrolment.handlers k es).getLast?, stages := Enrolment.stages k es } := by
    intro es
    rw [route_enrolAll]
    simp [empty]
  have hnone : ((empty.enrolAll es).route k).handler = none ↔ ∀ h, .handler k h ∉ es := by
    rw [hroute, List.getLast?_eq_none_iff, List.eq_nil_iff_forall_not_mem]
    simp only [Enrolment.mem_handlers]
  refine ⟨send_eq_unserved_iff.trans hnone, ?_, ?_, ?_⟩
  · rintro σ answer s ops outcome s' ⟨hhandlers, hstages⟩ hran
    rw [← hnone]
    constructor
    · rintro rfl
      by_contra hsome
      obtain ⟨handler, h⟩ := Option.ne_none_iff_exists'.1 hsome
      have hlast : (Enrolment.handlers k es).getLast? = some handler := by
        rw [hroute] at h
        exact h
      have hmem := Enrolment.mem_handlers.1 (List.mem_of_getLast? hlast)
      refine ne_error_of_ran_send (by simp) h (hhandlers handler hmem request) ?_ hran rfl
      intro stage hstage
      rw [hroute] at hstage
      exact hstages stage (Enrolment.mem_stages.1 hstage)
    · intro h
      rw [send_of_handler_eq_none h] at hran
      exact (Program.ran_done_iff.1 hran).2.1
  · intro handler hlast σ answer s ops outcome s'
    have h : ((empty.enrolAll es).route k).handler = some handler := by rw [hroute, hlast]
    have hstages : ((empty.enrolAll es).route k).stages = Enrolment.stages k es := by rw [hroute]
    rw [← hstages]
    exact served_iff h
  · intro es' hsame
    have hsame' :
        ((empty : Dispatcher C W).enrolAll es').route k = (empty.enrolAll es).route k := by
      rw [hroute, hroute, ← Enrolment.handlers_concerning, ← Enrolment.stages_concerning, hsame,
        Enrolment.handlers_concerning, Enrolment.stages_concerning]
    rw [send, send, hsame']

end Dispatcher

namespace Demo

/-- A stage that puts a mark at both ends of a greeting. -/
def marking (mark : String) : Stage catalogue counting Kind.greeting where
  enter _ _ := return .proceed fun (outcome : Except DispatchFault String) =>
    return (outcome.map fun text => mark ++ text ++ mark : Except DispatchFault String)

/-- A stage that lets every reset pass. -/
def passing : Stage catalogue counting Kind.reset where
  enter _ _ := return .proceed fun outcome => return outcome

/-- Registrations for greetings and for resets, mixed; the second handler is the one that counts,
and there is none for resets. -/
def mixed : List (Enrolment catalogue counting) :=
  [.stage Kind.greeting (marking "*"), .handler Kind.greeting fun _ => return .error .cancelled,
    .stage Kind.reset passing, .handler Kind.greeting greet, .stage Kind.greeting (marking "_")]

lemma World.isLive_answer : IsLive World.answer where
  uncut e _ := by cases e <;> rfl
  live _ := rfl

lemma areCandid_mixed : Enrolment.AreCandid (C := catalogue) Kind.greeting mixed where
  handler h hmem request := by
    have hh : h ∈ [fun _ => return .error .cancelled, greet] := Enrolment.mem_handlers.2 hmem
    rcases List.mem_pair.1 hh with rfl | rfl
    · rintro ⟨⟩
    · rintro x - ⟨⟩
  stage stage hmem request remaining := by
    have hstage : stage ∈ [marking "*", marking "_"] := Enrolment.mem_stages.2 hmem
    rcases List.mem_pair.1 hstage with rfl | rfl <;>
    · rintro (fault | text) hne
      · exact hne
      · rintro ⟨⟩

/-- The inner mark is put first; resets are not served, and greetings always are. -/
theorem mixed_greeting :
    (Dispatcher.empty.enrolAll mixed).send Kind.reset (1 : ℕ) =
      .done (.error (.unserved "pipecache_demo::ResetGreeting")) ∧
    (∃ ops s', Dispatcher.Takes World.answer greet [marking "*", marking "_"] (1 : ℕ)
      { clock := .epoch } ops (.ok ("*" ++ ("_" ++ greetingText 1 ++ "_") ++ "*" : String)) s') ∧
    ∀ outcome, (∃ ops s', ((Dispatcher.empty.enrolAll mixed).send (C := catalogue) Kind.greeting
      (1 : ℕ)).Ran World.answer { clock := .epoch } ops outcome s') →
      outcome ≠ .error (.unserved (Kind.name .greeting)) := by
  obtain ⟨hreset, -⟩ := Dispatcher.send_enrolAll mixed Kind.reset (1 : ℕ)
  obtain ⟨-, hcandid, hserved, -⟩ := Dispatcher.send_enrolAll mixed Kind.greeting (1 : ℕ)
  refine ⟨hreset.2 fun h hmem => ?_, ⟨_, _,
    ((hserved greet rfl World World.answer _ _ _ _).2.2 World.isLive_answer).1 ⟨rfl, rfl⟩⟩, ?_⟩
  · have hnone : h ∈ Enrolment.handlers Kind.reset mixed := Enrolment.mem_handlers.2 hmem
    cases hnone
  · rintro outcome ⟨ops, s', hran⟩ hunserved
    have hserves : greet ∈ Enrolment.handlers Kind.greeting mixed := List.mem_of_getLast? rfl
    exact (hcandid World World.answer _ ops outcome s' areCandid_mixed hran).1 hunserved greet
      (Enrolment.mem_handlers.1 hserves)

end Demo

end RequestCache
