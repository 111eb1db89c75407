/-
# What the cache is asked for

A kind of request that is cached has its entries looked up, stored and removed by its plan, and its
requests are dispatched through its look-up stage (`Errand`).  Any number of such errands of
several kinds are on their way at the same time over one store, which nothing else changes, and
their questions are interleaved; each may fail, and each may be cancelled at any point
(`Errands.Step`).

An errand only ever touches keys of its kind.  What a removal deletes it reads from the store, so
this needs that a text under a key of a kind lists keys of that kind alone (`CacheSetup.keyLaw`),
which every errand keeps up, half done or not, if the kinds at work have no key in common
(`Errands.Reachable.orderly`).
-/
import RequestCache.Proofs.KeySpaces
import RequestCache.Proofs.Operations

namespace RequestCache

variable {C : Catalogue} {k : C.Kind}

/-! ## Errands -/

/-- What may be asked of the cache for a kind. -/
inductive Errand (C : Catalogue) (k : C.Kind) where
  | find (request : C.Request k)
  | store (request : C.Request k) (response : C.Response k)
  | remove (identifier : String)
  /-- A request is dispatched; the look-up stage has a recorder of this number. -/
  | dispatch (request : C.Request k) (serial : ℕ)

namespace Errand

/-- What an errand ends with. -/
def Result : Errand C k → Type
  | find _ => Except CacheFault (Option (C.Response k))
  | store .. => Except CacheFault Unit
  | remove _ => Except CacheFault Unit
  | dispatch .. => Outcome C k

/-- What an errand does by the plan of its kind.  Requests are handled by the application. -/
def action (s : CacheSetup C (handlings C)) (p : Plan C k) :
    (e : Errand C k) → Action (handlings C) e.Result
  | find request => p.find request
  | store request response => p.store request response
  | remove identifier => p.remove identifier
  | dispatch request serial => (s.wireLookup .asksAll k serial).send k request

end Errand

/-- An errand on its way. -/
structure Trip (C : Catalogue) (k : C.Kind) where
  errand : Errand C k
  /-- Was the errand cancelled? -/
  cancelled : Bool
  course : Course C errand.Result

/-- All errands so far, by kind and in the order in which they began, and what they share. -/
structure Errands (C : Catalogue) where
  commons : Commons C
  trips : (k : C.Kind) → List (Trip C k)

namespace Errands

/-- The errands with others of one kind. -/
def withTrips (t : Errands C) (k : C.Kind) (trips : List (Trip C k)) : Errands C :=
  { t with trips := Family.set t.trips k trips }

@[simp] lemma trips_withTrips_same (t : Errands C) (trips : List (Trip C k)) :
    (t.withTrips k trips).trips k = trips := Family.set_same _ _ _

lemma trips_withTrips_other (t : Errands C) {j : C.Kind} (trips : List (Trip C k)) (h : j ≠ k) :
    (t.withTrips k trips).trips j = t.trips j := Family.set_other _ _ h

/-- The errands with something else to share. -/
def withCommons (t : Errands C) (c : Commons C) : Errands C := { t with commons := c }

/-- The errands at another instant. -/
def atTime (t : Errands C) (now : Instant) : Errands C :=
  t.withCommons { t.commons with clock := now }

/-- What happens next, if only errands of some kinds are at work. -/
inductive Step (s : CacheSetup C (handlings C)) (may : C.Kind → Prop) :
    Errands C → Errands C → Prop
  /-- An errand begins. -/
  | begin {t : Errands C} {k : C.Kind} {p : Plan C k} (hk : may k) (hp : s.plan k = some p)
      (e : Errand C k) :
    Step s may t (t.withTrips k (t.trips k ++ [⟨e, false, .running (e.action s p)⟩]))
  /-- Time passes. -/
  | tick {t : Errands C} {now : Instant} (h : t.commons.clock ≤ now) : Step s may t (t.atTime now)
  /-- An errand is cancelled. -/
  | cancel {t : Errands C} {k : C.Kind} {i : ℕ} {trip : Trip C k} (hk : may k)
      (h : (t.trips k)[i]? = some trip) :
    Step s may t (t.withTrips k ((t.trips k).set i { trip with cancelled := true }))
  /-- An errand takes a step. -/
  | progress {t : Errands C} {k : C.Kind} {i : ℕ} {trip : Trip C k} {c : Commons C}
      {course : Course C trip.errand.Result} (hk : may k) (h : (t.trips k)[i]? = some trip)
      (hprogress : Progress trip.cancelled t.commons trip.course c course) :
    Step s may t ((t.withCommons c).withTrips k ((t.trips k).set i { trip with course }))

/-- The states that come after others. -/
def Reaches (s : CacheSetup C (handlings C)) (may : C.Kind → Prop) : Errands C → Errands C → Prop :=
  Relation.ReflTransGen (Step s may)

/-- Nothing was asked for and nothing is stored. -/
def start (now : Instant) : Errands C := ⟨⟨now, ∅, []⟩, fun _ => []⟩

/-- The states that can be reached from an empty store. -/
def Reachable (s : CacheSetup C (handlings C)) (may : C.Kind → Prop) (t : Errands C) : Prop :=
  ∃ now, Reaches s may (start now) t

variable {s : CacheSetup C (handlings C)} {may may' : C.Kind → Prop} {t t' : Errands C}

lemma Step.mono (h : Step s may t t') (hsub : ∀ k, may k → may' k) : Step s may' t t' := by
  cases h with
  | begin hk hp e => exact .begin (hsub _ hk) hp e
  | tick hle => exact .tick hle
  | cancel hk h => exact .cancel (hsub _ hk) h
  | progress hk h hprogress => exact .progress (hsub _ hk) h hprogress

lemma Step.reaches (h : Step s may t t') : Reaches s may t t' := .single h

lemma Reaches.mono (h : Reaches s may t t') (hsub : ∀ k, may k → may' k) :
    Reaches s may' t t' :=
  Relation.ReflTransGen.mono (fun _ _ h => Step.mono h hsub) _ _ h

lemma Step.trips_eq (h : Step s may t t') (hk : ¬ may k) : t'.trips k = t.trips k := by
  have hother : ∀ {j}, may j → k ≠ j := fun hj hkj => hk (hkj ▸ hj)
  cases h with
  | begin hj hp e => exact trips_withTrips_other t _ (hother hj)
  | tick hle => rfl
  | cancel hj hi => exact trips_withTrips_other t _ (hother hj)
  | progress hj hi hprogress => exact trips_withTrips_other _ _ (hother hj)

/-- The errands of a kind that is not at work stay as they are. -/
lemma Reaches.trips_eq (h : Reaches s may t t') (hk : ¬ may k) : t'.trips k = t.trips k := by
  induction h with
  | refl => rfl
  | tail _ hstep ih => rw [hstep.trips_eq hk, ih]

end Errands

/-! ## The keys of a kind -/

namespace CacheSetup

variable (s : CacheSetup C (handlings C)) (may : C.Kind → Prop)

/-- The text is a key of the kind, which is cached. -/
def Owns (k : C.Kind) (x : String) : Prop :=
  ∃ (p : Plan C k) (identifier : String), s.plan k = some p ∧ (p.key identifier).text = x

/-- No two of the kinds have a key in common. -/
def Disjoint : Prop := ∀ ⦃k k' x⦄, may k → may k' → s.Owns k x → s.Owns k' x → k = k'

/-- A text under a key of one of the kinds lists no keys but of that kind. -/
def keyLaw : Law C where
  Allows _ key text := ∀ k, may k → s.Owns k key → ∀ listed,
    Bundle.decodeKeys? text = some listed → ∀ x ∈ listed, s.Owns k x
  mono _ h := h

end CacheSetup

namespace Law

variable {L : Law C} {h : History C} {mine : String → Prop} {p : Plan C k}
  {request : C.Request k}

/-- What the plan writes of a response under its keys is allowed, and the keys are own. -/
def ConfinesEntry (L : Law C) (h : History C) (mine : String → Prop) (p : Plan C k)
    (request : C.Request k) : Prop :=
  ∀ response text, Bundle.encode (C.codec k) ⟨response, Key.texts (p.entryKeys request response)⟩ =
    .ok text → ∀ x ∈ Key.texts (p.entryKeys request response), L.Allows h x text ∧ mine x

lemma confines_planStore (hentry : L.ConfinesEntry h mine p request) (response : C.Response k) :
    L.Confines h mine (fun _ => True) (p.store request response) := by
  unfold Plan.store
  dsimp only
  split_ifs with hempty
  · trivial
  · exact confines_store (hentry response)

lemma confines_asking (request : C.Request k) :
    L.Confines h mine (fun _ => True) (asking k request) := by
  refine (confines_work _).bind ?_
  intro x _
  cases x with
  | none => trivial
  | some outcome => trivial

lemma confines_populate (hentry : L.ConfinesEntry h mine p request) (policy : FaultPolicy)
    (recorder : Recorder) (outcome : Outcome C k) :
    L.Confines h mine (fun _ => True) (Lookup.populate p policy recorder request outcome) := by
  cases outcome with
  | error e => trivial
  | ok response =>
    refine (confines_measure _ _).bind fun _ _ => ?_
    refine (confines_planStore hentry response).bind ?_
    intro x _
    rcases x with e | _
    · dsimp only
      split_ifs
      · trivial
      · exact (confines_log _).bind fun _ _ => trivial
    · refine (confines_measure _ _).bind fun _ _ => ?_
      exact (confines_log _).bind fun _ _ => trivial

/-- What the look-up stage does on the way in and on the way out is confined. -/
lemma confines_enter (hkey : mine (p.lookupKey request).text)
    (hentry : L.ConfinesEntry h mine p request) (policy : FaultPolicy) (recorder : Recorder) :
    L.Confines h mine
      (fun verdict => ∀ leave, verdict = .proceed leave →
        ∀ outcome, L.Confines h mine (fun _ => True) (leave outcome))
      ((Lookup.stage p policy recorder).enter request 0) := by
  refine (confines_find hkey).bind ?_
  intro x _
  rcases x with e | _ | response
  · dsimp only
    split_ifs
    · rintro leave ⟨⟩
    · refine (confines_log _).bind fun _ _ => ?_
      rintro leave ⟨⟩
      exact confines_populate hentry policy recorder
  · rintro leave ⟨⟩
    exact confines_populate hentry policy recorder
  · refine (confines_measure _ _).bind fun _ _ => ?_
    refine (confines_measure _ _).bind fun _ _ => ?_
    refine (confines_log _).bind fun _ _ => ?_
    rintro leave ⟨⟩

lemma confines_dispatch {s : CacheSetup C (handlings C)} (hp : s.plan k = some p)
    (hkey : mine (p.lookupKey request).text) (hentry : L.ConfinesEntry h mine p request)
    (serial : ℕ) :
    L.Confines h mine (fun _ => True) ((s.wireLookup .asksAll k serial).send k request) := by
  have hroute : (s.wireLookup .asksAll k serial).route k =
      { handler := some (asking k)
        stages := [Lookup.stage p s.policy ⟨serial, C.name k⟩] } := by
    rw [CacheSetup.wireLookup, hp]
    simp [Dispatcher.asksAll]
  have hthrough : L.Confines h mine (fun _ => True)
      (throughStages (asking k) request [Lookup.stage p s.policy ⟨serial, C.name k⟩]) := by
    refine (confines_enter hkey hentry _ _).bind ?_
    intro verdict hverdict
    cases verdict with
    | answer outcome => trivial
    | proceed leave =>
      exact (confines_asking request).bind fun outcome _ => hverdict leave rfl outcome
  rw [Dispatcher.send, hroute]
  refine hthrough.guarded.bind ?_
  intro x _
  cases x with
  | none => trivial
  | some outcome => trivial

end Law

namespace CacheSetup

variable {s : CacheSetup C (handlings C)} {may : C.Kind → Prop} {p : Plan C k}

lemma owns_key (hp : s.plan k = some p) (identifier : String) :
    s.Owns k (p.key identifier).text := ⟨p, identifier, hp, rfl⟩

/-- Two kinds are disjoint if no identifier gives the same key in both. -/
lemma disjoint_pair {a b : C.Kind} {p : Plan C a} {q : Plan C b} (hp : s.plan a = some p)
    (hq : s.plan b = some q)
    (hapart : ∀ identifier identifier', p.key identifier ≠ q.key identifier') :
    s.Disjoint fun k => k = a ∨ k = b := by
  have hnone : ∀ x, s.Owns a x → s.Owns b x → False := by
    rintro x ⟨p', identifier, hp', rfl⟩ ⟨q', identifier', hq', htext⟩
    cases hp.symm.trans hp'
    cases hq.symm.trans hq'
    exact hapart identifier identifier' (Key.text_injective htext.symm)
  rintro k k' x (rfl | rfl) (rfl | rfl) hx hx'
  · rfl
  · exact (hnone x hx hx').elim
  · exact (hnone x hx' hx).elim
  · rfl

/-- Every key of a response is a key of its kind. -/
lemma owns_of_mem_entryKeys (hp : s.plan k = some p) {request : C.Request k}
    {response : C.Response k} {x : String} (hx : x ∈ Key.texts (p.entryKeys request response)) :
    s.Owns k x := by
  obtain ⟨key, hkey, rfl⟩ := Key.mem_texts.1 hx
  obtain ⟨identifier, rfl⟩ := Plan.Uses.exists_eq_key (.inr ⟨request, response, hkey⟩)
  exact owns_key hp identifier

/-- What is written for a response of a kind is allowed, if no other kind has one of its keys. -/
lemma confinesEntry (hdisjoint : s.Disjoint may) (hk : may k) (hp : s.plan k = some p)
    (h : History C) (request : C.Request k) :
    (s.keyLaw may).ConfinesEntry h (s.Owns k) p request := by
  intro response text htext x hx
  have howns : s.Owns k x := owns_of_mem_entryKeys hp hx
  refine ⟨?_, howns⟩
  intro k' hk' howns' listed hlisted y hy
  obtain rfl : k' = k := hdisjoint hk' hk howns' howns
  rw [Bundle.decodeKeys?_encode htext] at hlisted
  cases hlisted
  exact owns_of_mem_entryKeys hp hy

/-- Every errand is confined to the keys of its kind. -/
theorem confines_action (hdisjoint : s.Disjoint may) (hk : may k) (hp : s.plan k = some p)
    (h : History C) (e : Errand C k) :
    (s.keyLaw may).Confines h (s.Owns k) (fun _ => True) (e.action s p) := by
  cases e with
  | find request => exact Law.confines_find (owns_key hp _)
  | store request response =>
    exact Law.confines_planStore (confinesEntry hdisjoint hk hp h request) response
  | remove identifier =>
    refine Law.confines_remove (owns_key hp identifier) ?_
    intro text listed hallowed hlisted
    exact hallowed k hk (owns_key hp identifier) listed hlisted
  | dispatch request serial =>
    exact Law.confines_dispatch hp (owns_key hp _) (confinesEntry hdisjoint hk hp h request) serial

end CacheSetup

/-! ## The law in every state -/

namespace Errands

variable {s : CacheSetup C (handlings C)} {may : C.Kind → Prop} {t t' : Errands C}

/-- Nothing is handled, the store is lawful, and each errand is confined to the keys of its
kind. -/
structure Orderly (s : CacheSetup C (handlings C)) (may : C.Kind → Prop) (t : Errands C) :
    Prop where
  handled : t.commons.handled = []
  keeps : (s.keyLaw may).Keeps [] t.commons.memory
  confined : ∀ k, ∀ trip ∈ t.trips k, (s.keyLaw may).ConfinesCourse [] (s.Owns k) trip.course

/-- Other errands of a kind that are confined leave everything in order. -/
lemma Orderly.withTrips (ht : t.Orderly s may) {trips : List (Trip C k)}
    (htrips : ∀ trip ∈ trips, (s.keyLaw may).ConfinesCourse [] (s.Owns k) trip.course) :
    (t.withTrips k trips).Orderly s may := by
  refine ⟨ht.handled, ht.keeps, fun j trip htrip => ?_⟩
  by_cases hj : j = k
  · subst hj
    rw [trips_withTrips_same] at htrip
    exact htrips trip htrip
  · rw [trips_withTrips_other _ _ hj] at htrip
    exact ht.confined j trip htrip

lemma Orderly.atTime (ht : t.Orderly s may) (now : Instant) : (t.atTime now).Orderly s may :=
  ⟨ht.handled, ht.keeps, ht.confined⟩

/-- What a step of an errand does to the store. -/
lemma Orderly.progress (ht : t.Orderly s may) {trip : Trip C k} (htrip : trip ∈ t.trips k)
    {c : Commons C} {course : Course C trip.errand.Result}
    (hprogress : Progress trip.cancelled t.commons trip.course c course) :
    c.handled = [] ∧ (s.keyLaw may).Keeps [] c.memory ∧
      (s.keyLaw may).ConfinesCourse [] (s.Owns k) course ∧
      ∀ x, ¬ s.Owns k x → c.memory.get? x = t.commons.memory.get? x := by
  have hcourse := ht.confined k trip htrip
  have hkeeps := ht.keeps
  rw [← ht.handled] at hcourse hkeeps
  obtain ⟨hhandled, hkeeps', hcourse', hothers⟩ := hcourse.progress hkeeps hprogress
  rw [hhandled, ht.handled] at hkeeps' hcourse'
  exact ⟨hhandled.trans ht.handled, hkeeps', hcourse', hothers⟩

/-- One step: what is in order stays in order. -/
lemma Orderly.step (ht : t.Orderly s may) (hdisjoint : s.Disjoint may) (h : Step s may t t') :
    t'.Orderly s may := by
  cases h with
  | @begin k p hk hp e =>
    refine ht.withTrips ?_
    intro trip htrip
    rcases List.mem_append.1 htrip with hmem | hlast
    · exact ht.confined k trip hmem
    · rw [List.mem_singleton.1 hlast]
      exact CacheSetup.confines_action hdisjoint hk hp [] e
  | tick hle => exact ht.atTime _
  | @cancel k i trip hk hi =>
    refine ht.withTrips ?_
    intro other hother
    rcases List.mem_or_eq_of_mem_set hother with hmem | rfl
    · exact ht.confined k other hmem
    · exact ht.confined k trip (List.mem_of_getElem? hi)
  | @progress k i trip c course hk hi hprogress =>
    obtain ⟨hhandled, hkeeps, hcourse, -⟩ := ht.progress (List.mem_of_getElem? hi) hprogress
    have hcommons : (t.withCommons c).Orderly s may := ⟨hhandled, hkeeps, ht.confined⟩
    refine hcommons.withTrips ?_
    intro other hother
    rcases List.mem_or_eq_of_mem_set hother with hmem | rfl
    · exact ht.confined k other hmem
    · exact hcourse

lemma Reaches.orderly (h : Reaches s may t t') (hdisjoint : s.Disjoint may)
    (ht : t.Orderly s may) : t'.Orderly s may := by
  induction h with
  | refl => exact ht
  | tail _ hstep ih => exact ih.step hdisjoint hstep

/-- Everything is in order in every state that can be reached. -/
theorem Reachable.orderly (ht : t.Reachable s may) (hdisjoint : s.Disjoint may) :
    t.Orderly s may := by
  obtain ⟨now, hsteps⟩ := ht
  refine hsteps.orderly hdisjoint ⟨rfl, ?_, ?_⟩
  · rintro key e he
    cases he
  · rintro k trip htrip
    cases htrip

end Errands

end RequestCache
