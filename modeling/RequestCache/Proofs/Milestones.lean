/-
# What the stages of the cache tell

A request comes through the stages outside a stage, or they keep it from what lies further in;
they may tell nothing of what is watched, and then it does not matter to the count what they do
(`along_throughStages_append`).  From a stage on, the exchanges say which of the following has come
about.

* The look-up stage has answered with what it found in the cache, or what lies further in has
  returned a response, and that was stored or it was not.  It never comes to both, and what is told
  follows from which it is (`Lookup.told_stage`).
* The eviction stage runs its evictions one after the other once what lies further in has returned
  a response.  Each of them that has removed what it is for is told, and nothing else is
  (`Eviction.told_stage`).

All of this holds wherever a request waits, so also of those that never come to an end.
-/
import RequestCache.Proofs.Exchanges
import RequestCache.Proofs.Protocol
import RequestCache.Proofs.Cancellation

namespace RequestCache

variable {C : Catalogue} {W : Interface} {k : C.Kind} {w : Recorder → Measure → Bool}

/-! ## On the way to a stage -/

/-- Nothing that is watched is told on the way in or on the way out. -/
def Stage.IsMute (w : Recorder → Measure → Bool) (stage : Stage C W k) : Prop :=
  ∀ request remaining, (stage.enter request remaining).IsMute w fun
    | .answer _ => True
    | .proceed leave => ∀ outcome, (leave outcome).IsMute w fun _ => True

/-- A request goes in through some stages, with so many others further in.  Do all of them let it
go on? -/
def enterAll (request : C.Request k) (further : ℕ) : List (Stage C W k) → Action W Bool
  | [] => .done true
  | stage :: stages => do
    match ← stage.enter request (stages.length + further) with
    | .answer _ => return false
    | .proceed _ => enterAll request further stages

section

variable {handler : Handler C W k} {request : C.Request k} {stages outer inner : List (Stage C W k)}
  {t t' : List (Exchange W)} {q : Action W (Outcome C k)}

lemma isMute_throughStages (hhandler : (handler request).IsMute w fun _ => True)
    (hstages : ∀ stage ∈ stages, stage.IsMute w) :
    (throughStages handler request stages).IsMute w fun _ => True := by
  induction stages with
  | nil => exact hhandler
  | cons stage stages ih =>
    refine (hstages stage List.mem_cons_self request stages.length).bind ?_
    rintro (answered | leave) hverdict
    · trivial
    · exact (ih fun s hs => hstages s (List.mem_cons_of_mem _ hs)).bind fun outcome _ =>
        hverdict outcome

/-- The stages outside may keep a request from what lies further in, and they tell nothing
themselves. -/
lemma along_throughStages_append (houter : ∀ stage ∈ outer, stage.IsMute w)
    (h : (throughStages handler request (outer ++ inner)).Along t q t') (hq : q.Rests) :
    (∀ s, ¬ (enterAll request inner.length outer).Ends t true s) ∧ told w t = told w t' ∨
    ∃ s p s', (enterAll request inner.length outer).Ends t true s ∧
      (throughStages handler request inner).Along s p s' ∧ Action.Rests p ∧
      told w t = told w s ∧ told w s' = told w t' := by
  induction outer generalizing t t' q with
  | nil => exact .inr ⟨t, q, t', .ended true t, h, hq, rfl, rfl⟩
  | cons stage outer ih =>
    have hlength : (outer ++ inner).length = outer.length + inner.length := List.length_append
    have hmute := houter stage List.mem_cons_self request (outer.length + inner.length)
    rw [List.cons_append, throughStages, hlength] at h
    rcases Action.along_bind_cases h hq with ⟨p, hp, -, hne, -, rfl⟩ | ⟨verdict, s, hv, hs⟩
    · refine .inl ⟨fun s hends => ?_, (hmute.along hp).1⟩
      obtain ⟨verdict, s', hverdict, -⟩ := Program.ends_bind_iff.1 hends
      exact hp.not_ends hne hverdict
    · obtain ⟨htold, hverdict⟩ := hmute.along hv
      rcases verdict with answered | leave
      · obtain ⟨-, rfl⟩ := Program.along_done_iff.1 hs
        refine .inl ⟨fun s hends => ?_, htold⟩
        obtain ⟨verdict, s', hverdict', hfalse⟩ := Program.ends_bind_iff.1 hends
        obtain ⟨heq, rfl⟩ := hv.unique hverdict'
        cases heq
        cases hfalse
      · -- what comes after the first stage is what is asked for from there on
        have hends : ∀ s', (enterAll request inner.length (stage :: outer)).Ends t true s' ↔
            (enterAll request inner.length outer).Ends s true s' := by
          intro s'
          refine Program.ends_bind_iff.trans ⟨?_, fun h => ⟨_, s, hv, h⟩⟩
          rintro ⟨verdict, s'', hverdict', h⟩
          obtain ⟨heq, rfl⟩ := hv.unique hverdict'
          cases heq
          exact h
        have houter' : ∀ stage ∈ outer, stage.IsMute w := fun s hs =>
          houter s (List.mem_cons_of_mem _ hs)
        have hrest : ∃ p s', (throughStages handler request (outer ++ inner)).Along s p s' ∧
            Action.Rests p ∧ told w s' = told w t' := by
          rcases Action.along_bind_cases hs hq with ⟨p, hp, hrests, -, -, rfl⟩ | ⟨o, s', ho, hl⟩
          · exact ⟨p, [], hp, hrests, rfl⟩
          · exact ⟨_, s', ho, trivial, ((hverdict o).along hl).1⟩
        obtain ⟨p, s', hp, hrests, hlast⟩ := hrest
        simp only [hends]
        rcases ih houter' hp hrests with ⟨hnot, hsame⟩ | ⟨s₁, p₁, s₂, hin, hp₁, hrests₁, h₁, h₂⟩
        · exact .inl ⟨hnot, htold.trans (hsame.trans hlast)⟩
        · exact .inr ⟨s₁, p₁, s₂, hin, hp₁, hrests₁, htold.trans h₁, h₂.trans hlast⟩

end

/-- What may have become of a request that came to a stage, given the handler and the exchanges from
there on. -/
abbrev Milestone (C : Catalogue) (W : Interface) (k : C.Kind) :=
  Handler C W k → C.Request k → List (Exchange W) → Prop

/-! ## The look-up stage -/

namespace Entry

variable {α : Type}

lemma isMute_content (key : Key) : (content (W := W) key).IsMute w fun _ => True :=
  ⟨rfl, fun x => by rcases x with _ | source | text <;> trivial⟩

lemma isMute_find (c : Json.Codec α) (key : Key) :
    (find (W := W) c key).IsMute w fun _ => True := by
  refine (isMute_content key).bind ?_
  rintro (e | _ | text) -
  · trivial
  · trivial
  · dsimp only
    cases Bundle.decode? c text with
    | none => exact ⟨rfl, fun _ => trivial⟩
    | some bundle => trivial

lemma isMute_changeAll (operation : String) (change : String → Change) (keys : List String) :
    (changeAll (W := W) operation change keys).IsMute w fun _ => True :=
  ⟨rfl, fun x => by rcases x with _ | outcomes <;> trivial⟩

lemma isMute_store (c : Json.Codec α) (value : α) (keys : List Key) (l : Lifetime) :
    (store (W := W) c value keys l).IsMute w fun _ => True := by
  unfold store
  dsimp only
  split_ifs
  · trivial
  · cases Bundle.encode c ⟨value, (Key.distinct keys).map Key.text⟩ with
    | error message => trivial
    | ok text => exact isMute_changeAll "set" _ _

lemma isMute_remove (key : Key) : (remove (W := W) key).IsMute w fun _ => True := by
  refine (isMute_content key).bind ?_
  rintro (e | _ | text) -
  · trivial
  · trivial
  · dsimp only
    cases Bundle.decodeKeys? text with
    | none => exact ⟨rfl, fun _ => isMute_changeAll "remove" _ _⟩
    | some listed => exact isMute_changeAll "remove" _ _

end Entry

lemma Plan.isMute_store (plan : Plan C k) (request : C.Request k) (response : C.Response k) :
    (plan.store (W := W) request response).IsMute w fun _ => True := by
  unfold store
  dsimp only
  split_ifs
  · trivial
  · exact Entry.isMute_store _ _ _ _

namespace Lookup

variable (plan : Plan C k) (policy : FaultPolicy) (recorder : Recorder) (inner : List (Stage C W k))

/-- The stage has answered with a response. -/
def Answered : Milestone C W k := fun handler request t => ∃ response t',
  (throughStages handler request (stage plan policy recorder :: inner)).Ends t (.ok response) t'

/-- The stage has answered with what it found in the cache. -/
def Served : Milestone C W k := fun handler request t => ∃ response s t',
  (plan.find request).Ends t (.ok (some response)) s ∧
    (throughStages handler request (stage plan policy recorder :: inner)).Ends t (.ok response) t'

/-- What lies further in was run and has returned this response. -/
def FetchedAs (handler : Handler C W k) (request : C.Request k) (t : List (Exchange W))
    (response : C.Response k) (s : List (Exchange W)) : Prop :=
  (plan.find request >>= reachAfter policy (throughStages handler request inner)).Ends t
    (.inr (.ok response)) s

/-- What lies further in was run and has returned a response. -/
def Fetched : Milestone C W k := fun handler request t => ∃ response s,
  FetchedAs plan policy inner handler request t response s

/-- What lies further in has returned a response, and it was stored. -/
def Stored : Milestone C W k := fun handler request t => ∃ response s t',
  FetchedAs plan policy inner handler request t response s ∧
    (keep plan recorder request response).Ends s (.ok ()) t'

open scoped Classical in
/-- How much of what the stage tells of a request is watched. -/
noncomputable def watched (w : Recorder → Measure → Bool) (handler : Handler C W k)
    (request : C.Request k) (t : List (Exchange W)) : ℕ :=
  (if Served plan policy recorder inner handler request t
    then tally w recorder .hit + tally w recorder (.finished "get") else 0) +
  (if Fetched plan policy inner handler request t then tally w recorder .miss else 0) +
  if Stored plan policy recorder inner handler request t
    then tally w recorder (.finished "set") else 0

variable {plan policy recorder inner} {handler : Handler C W k} {request : C.Request k}
  {t t' : List (Exchange W)} {q : Action W (Outcome C k)}

/-- Until what lies further in has returned nothing is told, and if it was not run there is a
response or a failure that ends the dispatch. -/
lemma isMute_reachAfter (plan : Plan C k) (policy : FaultPolicy) (request : C.Request k)
    {handled : Action W (Outcome C k)} (h : handled.IsMute w fun _ => True) :
    (plan.find (W := W) request >>= reachAfter policy handled).IsMute w fun
      | .inl (.ok none) => False
      | .inl (.error e) => isFatal policy e = true
      | _ => True := by
  refine (Entry.isMute_find _ _).bind ?_
  rintro (e | _ | response) -
  · unfold reachAfter
    dsimp only
    split_ifs with hfatal
    · exact hfatal
    · exact ⟨rfl, fun _ => h.bind fun _ _ => trivial⟩
  · exact h.bind fun _ _ => trivial
  · trivial

/-- A look-up stage tells nothing but its own measures. -/
lemma isMute_stage (hw : ∀ what ∈ [.hit, .miss, .finished "get", .finished "set"],
    w recorder what = false) : (stage (W := W) plan policy recorder).IsMute w := by
  have hpopulate (request : C.Request k) (outcome : Outcome C k) :
      (populate (W := W) plan policy recorder request outcome).IsMute w fun _ => True := by
    rcases outcome with e | response
    · trivial
    · refine ⟨hw _ (by simp), fun _ => (plan.isMute_store request response).bind ?_⟩
      rintro (e | ⟨⟩) -
      · dsimp only
        split_ifs
        · trivial
        · exact ⟨rfl, fun _ => trivial⟩
      · exact ⟨hw _ (by simp), fun _ => ⟨rfl, fun _ => trivial⟩⟩
  intro request remaining
  refine (Entry.isMute_find _ _).bind ?_
  rintro (e | _ | response) -
  · dsimp only
    split_ifs
    · trivial
    · exact ⟨rfl, fun _ => hpopulate request⟩
  · exact hpopulate request
  · exact ⟨hw _ (by simp), fun _ => ⟨hw _ (by simp), fun _ => ⟨rfl, fun _ => trivial⟩⟩⟩

lemma throughStages_stage_eq :
    throughStages handler request (stage plan policy recorder :: inner) =
      plan.find request >>= reachAfter policy (throughStages handler request inner) >>=
        leave plan policy recorder request (throughStages handler request inner) := by
  rw [throughStages_eq, bind_assoc]
  exact congrArg (plan.find request >>= ·) (funext fun found => afterFind_eq _ _ _ _ _ found)

/-- A response that was found is told as a hit. -/
lemma told_hit {response : C.Response k} {handled : Action W (Outcome C k)}
    (h : (leave plan policy recorder request handled (.inl (.ok (some response)))).Along t q t')
    (hq : q.Rests) :
    q = .done (.ok response) ∧
      told w t = told w t' + tally w recorder .hit + tally w recorder (.finished "get") := by
  obtain ⟨s₁, -, h₁, hhit⟩ := Action.exists_of_along_measure (w := w) h hq
  obtain ⟨s₂, -, h₂, hget⟩ := Action.exists_of_along_measure (w := w) h₁ hq
  obtain ⟨s₃, -, h₃, hlog⟩ := Action.exists_of_along_log (w := w) h₂ hq
  obtain ⟨rfl, rfl⟩ := Program.along_done_iff.1 h₃
  exact ⟨rfl, by omega⟩

open scoped Classical in
/-- A response that came from further in is told as a miss, whether it is stored or not. -/
lemma told_populate {response : C.Response k}
    (h : (populate plan policy recorder request (.ok response)).Along t q t') (hq : q.Rests) :
    told w t = told w t' + tally w recorder .miss +
      if ∃ s, (keep plan recorder request response).Ends t (.ok ()) s
      then tally w recorder (.finished "set") else 0 := by
  rw [populate_ok_eq] at h
  rcases Action.along_bind_cases h hq with ⟨p, hp, hrests, hne, -, rfl⟩ | ⟨written, s, hkeep, hs⟩
  · obtain ⟨s, -, hstore, hmiss⟩ := Action.exists_of_along_measure (w := w) hp hrests
    have hmute := ((plan.isMute_store (w := w) request response).along hstore).1
    rw [if_neg fun ⟨s, hends⟩ => hp.not_ends hne hends]
    omega
  · obtain ⟨s', -, hstore, hmiss⟩ := Action.exists_of_along_measure (w := w) hkeep trivial
    have hmute := ((plan.isMute_store (w := w) request response).along hstore).1
    rcases written with e | ⟨⟩
    · have hnot : ¬ ∃ s, (keep plan recorder request response).Ends t (.ok ()) s := by
        rintro ⟨s'', hends⟩
        cases (hkeep.unique hends).1
      have hlast : told w s = told w t' := by
        unfold afterKeep at hs
        dsimp only at hs
        split_ifs at hs
        · obtain ⟨-, rfl⟩ := Program.along_done_iff.1 hs
          rfl
        · obtain ⟨s'', -, hdone, hlog⟩ := Action.exists_of_along_log (w := w) hs hq
          obtain ⟨-, rfl⟩ := Program.along_done_iff.1 hdone
          exact hlog
      rw [if_neg hnot]
      omega
    · obtain ⟨s₁, -, h₁, hset⟩ := Action.exists_of_along_measure (w := w) hs hq
      obtain ⟨s₂, -, h₂, hlog⟩ := Action.exists_of_along_log (w := w) h₁ hq
      obtain ⟨-, rfl⟩ := Program.along_done_iff.1 h₂
      rw [if_pos ⟨s, hkeep⟩]
      omega

/-- A response is found in the cache exactly if nothing further in is needed for it. -/
lemma ends_reachAfter_iff {response : C.Response k} {handled : Action W (Outcome C k)} :
    (plan.find request >>= reachAfter policy handled).Ends t (.inl (.ok (some response))) t' ↔
      (plan.find request).Ends t (.ok (some response)) t' := by
  have hinr : ∀ {s : List (Exchange W)}, ¬ (reachAfter policy handled (.ok none)).Ends s
      (.inl (.ok (some response))) t' := by
    intro s hends
    obtain ⟨outcome, s', -, hdone⟩ := Program.ends_bind_iff.1 hends
    cases hdone
  rw [Program.ends_bind_iff]
  refine ⟨?_, fun h => ⟨_, t', h, .ended _ t'⟩⟩
  rintro ⟨e | _ | found, s, hfind, hreach⟩
  · unfold reachAfter at hreach
    dsimp only at hreach
    split_ifs at hreach
    · cases hreach
    · obtain ⟨s', -, hrest, -⟩ := Action.exists_of_along_log (w := fun _ _ => false) hreach trivial
      exact absurd hrest hinr
  · exact absurd hreach hinr
  · cases hreach
    exact hfind

lemma Stored.fetched (h : Stored plan policy recorder inner handler request t) :
    Fetched plan policy inner handler request t := by
  obtain ⟨response, s, t', hfetched, -⟩ := h
  exact ⟨response, s, hfetched⟩

lemma Served.reached (h : Served plan policy recorder inner handler request t) :
    ∃ response s, (plan.find request >>=
      reachAfter policy (throughStages handler request inner)).Ends t
        (.inl (.ok (some response))) s := by
  obtain ⟨response, s, t', hfind, -⟩ := h
  exact ⟨response, s, ends_reachAfter_iff.2 hfind⟩

/-- No response comes both from the cache and from further in. -/
theorem Served.not_fetched (h : Served plan policy recorder inner handler request t) :
    ¬ Fetched plan policy inner handler request t := by
  rintro ⟨response, s, hfetched⟩
  obtain ⟨found, s', hfound⟩ := h.reached
  cases (hfound.unique hfetched).1

lemma Served.answered (h : Served plan policy recorder inner handler request t) :
    Answered plan policy recorder inner handler request t := by
  obtain ⟨response, s, t', -, hends⟩ := h
  exact ⟨response, t', hends⟩

lemma FetchedAs.fetched {response : C.Response k} {s : List (Exchange W)}
    (h : FetchedAs plan policy inner handler request t response s) :
    Fetched plan policy inner handler request t := ⟨response, s, h⟩

lemma FetchedAs.stored_iff {response : C.Response k} {s : List (Exchange W)}
    (h : FetchedAs plan policy inner handler request t response s) :
    Stored plan policy recorder inner handler request t ↔
      ∃ s', (keep plan recorder request response).Ends s (.ok ()) s' := by
  constructor
  · rintro ⟨response', s₁, s', hends, hkeep⟩
    obtain ⟨heq, rfl⟩ := h.unique hends
    cases heq
    exact ⟨s', hkeep⟩
  · rintro ⟨s', hkeep⟩
    exact ⟨response, s, s', h, hkeep⟩

lemma watched_of_neither (h₁ : ¬ Served plan policy recorder inner handler request t)
    (h₂ : ¬ Fetched plan policy inner handler request t) :
    watched plan policy recorder inner w handler request t = 0 := by
  rw [watched, if_neg h₁, if_neg h₂, if_neg fun h => h₂ h.fetched]

lemma Served.watched_eq (h : Served plan policy recorder inner handler request t) :
    watched plan policy recorder inner w handler request t =
      tally w recorder .hit + tally w recorder (.finished "get") := by
  rw [watched, if_pos h, if_neg h.not_fetched, if_neg fun h' => h.not_fetched h'.fetched,
    Nat.add_zero]

open scoped Classical in
lemma FetchedAs.watched_eq {response : C.Response k} {s : List (Exchange W)}
    (h : FetchedAs plan policy inner handler request t response s) :
    watched plan policy recorder inner w handler request t = tally w recorder .miss +
      if ∃ s', (keep plan recorder request response).Ends s (.ok ()) s'
      then tally w recorder (.finished "set") else 0 := by
  rw [watched, if_neg fun h' => h'.not_fetched h.fetched, if_pos h.fetched]
  simp only [h.stored_iff]
  omega

/-- What a look-up stage tells of a request follows from what has become of it. -/
theorem told_stage (hhandler : (handler request).IsMute w fun _ => True)
    (hinner : ∀ stage ∈ inner, stage.IsMute w)
    (h : (throughStages handler request (stage plan policy recorder :: inner)).Along t q t')
    (hq : q.Rests) :
    told w t = told w t' + watched plan policy recorder inner w handler request t := by
  have hmute := isMute_reachAfter plan policy request (isMute_throughStages hhandler hinner)
  have hall := h
  rw [throughStages_stage_eq] at h
  rcases Action.along_bind_cases h hq with ⟨p, hp, -, hne, -, rfl⟩ | ⟨reached, s, hr, hs⟩
  · rw [watched_of_neither]
    · exact (hmute.along hp).1
    · intro h
      obtain ⟨response, s, hends⟩ := h.reached
      exact hp.not_ends hne hends
    · rintro ⟨response, s, hends⟩
      exact hp.not_ends hne hends
  · obtain ⟨htold, hpost⟩ := hmute.along hr
    have hneither (h₁ : ∀ response, reached ≠ .inl (.ok (some response)))
        (h₂ : ∀ response, reached ≠ .inr (.ok response)) :
        watched plan policy recorder inner w handler request t = 0 := by
      refine watched_of_neither (fun h => ?_) ?_
      · obtain ⟨response, s', hends⟩ := h.reached
        exact h₁ response (Program.done.inj (hr.unique hends).1)
      · rintro ⟨response, s', hends⟩
        exact h₂ response (Program.done.inj (hr.unique hends).1)
    -- the result of the way in says which of the milestones it is
    rcases reached with (e | _ | response) | (e | response)
    · have hfatal : isFatal policy e = true := hpost
      rw [leave, afterFind, if_pos hfatal] at hs
      obtain ⟨-, rfl⟩ := Program.along_done_iff.1 hs
      rw [hneither (by simp) (by simp)]
      exact htold
    · exact hpost.elim
    · obtain ⟨rfl, hhit⟩ := told_hit (w := w) hs hq
      have hserved : Served plan policy recorder inner handler request t :=
        ⟨response, s, t', ends_reachAfter_iff.1 hr, hall⟩
      rw [hserved.watched_eq]
      omega
    · obtain ⟨-, rfl⟩ := Program.along_done_iff.1 hs
      rw [hneither (by simp) (by simp)]
      exact htold
    · have hmiss := told_populate (w := w) hs hq
      rw [FetchedAs.watched_eq hr]
      omega

end Lookup

/-! ## The eviction stage -/

namespace Eviction

variable (recorder : Recorder) {evictions : List (Eviction C W k)} {eviction : Eviction C W k}
  {request : C.Request k} {handler : Handler C W k} {inner : List (Stage C W k)}
  {t t' : List (Exchange W)}

/-- The evictions before number `i` have run, whether they removed or not, and then this one has
removed what it is for. -/
def Removes (evictions : List (Eviction C W k)) (request : C.Request k) (t : List (Exchange W))
    (i : ℕ) : Prop :=
  ∃ faults s s' t' eviction, (runAll recorder request (evictions.take i)).Ends t (some faults) s ∧
    evictions[i]? = some eviction ∧
    (Action.log (.evicting (C.name k) eviction.target)).Ends s () s' ∧
    (eviction.evict request).Ends s' (.ok ()) t'

/-- What lies further in has returned a response, and after that eviction number `i` has removed
what it is for. -/
def Removed (evictions : List (Eviction C W k)) (inner : List (Stage C W k)) (i : ℕ) :
    Milestone C W k := fun handler request t => ∃ response s,
  (throughStages handler request inner).Ends t (.ok response) s ∧
    Removes recorder evictions request s i

variable {recorder}

/-- An eviction stage tells nothing but its own measures, if its evictions tell nothing. -/
lemma isMute_stage (hw : ∀ target, w recorder (.eviction target) = false)
    (hw' : w recorder (.finished "invalidate") = false)
    (hmute : ∀ e ∈ evictions, ∀ request, (e.evict request).IsMute w fun _ => True) :
    (stage evictions recorder).IsMute w := by
  have hall (request : C.Request k) (es : List (Eviction C W k)) (hes : ∀ e ∈ es, e ∈ evictions) :
      (runAll recorder request es).IsMute w fun _ => True := by
    induction es with
    | nil => trivial
    | cons e es ih =>
      have hrest := ih fun e' he' => hes e' (List.mem_cons_of_mem _ he')
      refine ⟨rfl, fun _ => (hmute e (hes e List.mem_cons_self) request).bind ?_⟩
      rintro (fault | ⟨⟩) -
      · cases fault with
        | cancelled => trivial
        | _ => exact ⟨rfl, fun _ => hrest.bind fun _ _ => trivial⟩
      · exact ⟨hw _, fun _ => ⟨hw', fun _ => hrest⟩⟩
  intro request remaining outcome
  rcases outcome with e | response
  · trivial
  · refine (hall request evictions fun _ => id).bind ?_
    rintro (_ | _ | ⟨fault, faults⟩) - <;> trivial

/-- After one eviction the others run, unless it was cancelled. -/
lemma runAll_cons :
    runAll recorder request (eviction :: evictions) =
      runAll recorder request [eviction] >>= fun
        | none => .done none
        | some faults => do return (← runAll recorder request evictions).map (faults ++ ·) := by
  simp only [runAll, bind_assoc]
  refine congrArg (Action.log _ >>= ·) (funext fun _ => ?_)
  refine congrArg (eviction.evict request >>= ·) (funext fun removed => ?_)
  rcases removed with e | ⟨⟩
  · cases e <;> simp [bind_assoc]
  · have hlast : runAll recorder request evictions >>= Program.done =
        runAll recorder request evictions := Program.bind_done _
    simp [bind_assoc, hlast]

lemma removes_zero_iff :
    Removes recorder (eviction :: evictions) request t 0 ↔
      ∃ s t', (Action.log (.evicting (C.name k) eviction.target)).Ends t () s ∧
        (eviction.evict request).Ends s (.ok ()) t' := by
  constructor
  · rintro ⟨faults, s, s', t', e, hnone, he, hlog, hevict⟩
    obtain ⟨-, rfl⟩ := Program.ends_done_iff.1 hnone
    cases he
    exact ⟨s', t', hlog, hevict⟩
  · rintro ⟨s, t', hlog, hevict⟩
    exact ⟨[], t, s, t', eviction, .ended _ t, rfl, hlog, hevict⟩

/-- An eviction after the first one begins where the first one has ended. -/
lemma removes_succ_iff {i : ℕ} :
    Removes recorder (eviction :: evictions) request t (i + 1) ↔
      ∃ faults s, (runAll recorder request [eviction]).Ends t (some faults) s ∧
        Removes recorder evictions request s i := by
  constructor
  · rintro ⟨faults, s, s', t', e, hends, he, hlog, hevict⟩
    rw [List.take_succ_cons, runAll_cons] at hends
    obtain ⟨first | first, s₁, hfirst, hrest⟩ := Program.ends_bind_iff.1 hends
    · cases hrest
    · obtain ⟨others | others, s₂, hothers, hdone⟩ := Program.ends_bind_iff.1 hrest
      · cases hdone
      · obtain ⟨-, rfl⟩ := Program.ends_done_iff.1 hdone
        exact ⟨first, s₁, hfirst, others, s, s', t', e, hothers, he, hlog, hevict⟩
  · rintro ⟨first, s₁, hfirst, others, s, s', t', e, hothers, he, hlog, hevict⟩
    refine ⟨first ++ others, s, s', t', e, ?_, he, hlog, hevict⟩
    rw [List.take_succ_cons, runAll_cons]
    exact Program.ends_bind_iff.2 ⟨_, s₁, hfirst, Program.ends_bind_iff.2
      ⟨_, s, hothers, .ended _ s⟩⟩

/-- An eviction after the first one that has ended begins there. -/
lemma removes_succ_iff_of_ends {faults : List CacheFault} {s : List (Exchange W)}
    (h : (runAll recorder request [eviction]).Ends t (some faults) s) {i : ℕ} :
    Removes recorder (eviction :: evictions) request t (i + 1) ↔
      Removes recorder evictions request s i := by
  refine removes_succ_iff.trans ⟨?_, fun hremoves => ⟨faults, s, h, hremoves⟩⟩
  rintro ⟨faults', s', hends, hremoves⟩
  obtain ⟨-, rfl⟩ := h.unique hends
  exact hremoves

/-- Unless the first eviction has ended without being cancelled, no other one removes. -/
lemma not_removes_succ
    (h : ∀ faults s, ¬ (runAll recorder request [eviction]).Ends t (some faults) s) {i : ℕ} :
    ¬ Removes recorder (eviction :: evictions) request t (i + 1) := by
  rw [removes_succ_iff]
  rintro ⟨faults, s, hends, -⟩
  exact h faults s hends

open scoped Classical in
lemma countP_removes_cons :
    ((List.range (eviction :: evictions).length).countP fun i =>
      Removes recorder (eviction :: evictions) request t i) =
    ((List.range evictions.length).countP fun i =>
      Removes recorder (eviction :: evictions) request t (i + 1)) +
      if Removes recorder [eviction] request t 0 then 1 else 0 := by
  have hzero : Removes recorder (eviction :: evictions) request t 0 ↔
      Removes recorder [eviction] request t 0 := removes_zero_iff.trans removes_zero_iff.symm
  rw [List.length_cons, List.range_succ_eq_map, List.countP_cons, List.countP_map]
  simp only [Function.comp_def, decide_eq_true_eq, hzero]

open scoped Classical in
/-- An eviction is told when it has removed what it is for. -/
lemma told_runAll_singleton (hmute : (eviction.evict request).IsMute w fun _ => True)
    {q : Action W (Option (List CacheFault))}
    (h : (runAll recorder request [eviction]).Along t q t') (hq : q.Rests) :
    told w t = told w t' +
      if Removes recorder [eviction] request t 0
      then tally w recorder (.eviction eviction.target) + tally w recorder (.finished "invalidate")
      else 0 := by
  obtain ⟨s, hlog, h, htold⟩ := Action.exists_of_along_log (w := w) h hq
  have hremoves : Removes recorder [eviction] request t 0 ↔
      ∃ t', (eviction.evict request).Ends s (.ok ()) t' := by
    refine removes_zero_iff.trans ⟨?_, fun ⟨t', hevict⟩ => ⟨s, t', hlog, hevict⟩⟩
    rintro ⟨s', t', hlog', hevict⟩
    obtain ⟨-, rfl⟩ := hlog.unique hlog'
    exact ⟨t', hevict⟩
  simp only [hremoves]
  rcases Action.along_bind_cases h hq with ⟨p, hp, -, hne, -, rfl⟩ | ⟨removed, s₁, hevict, hs⟩
  · rw [if_neg fun ⟨t', hends⟩ => hp.not_ends hne hends]
    exact htold.trans (hmute.along hp).1
  · have hsame := (hmute.along hevict).1
    rcases removed with e | ⟨⟩
    · have hnot : ¬ ∃ t', (eviction.evict request).Ends s (.ok ()) t' := by
        rintro ⟨s', hends⟩
        cases (hevict.unique hends).1
      rw [if_neg hnot]
      have hlast : told w s₁ = told w t' := by
        cases e with
        | cancelled =>
          obtain ⟨-, rfl⟩ := Program.along_done_iff.1 hs
          rfl
        | _ =>
          obtain ⟨s₂, -, hrest, hlogged⟩ := Action.exists_of_along_log (w := w) hs hq
          obtain ⟨-, rfl⟩ := Program.along_done_iff.1 hrest
          exact hlogged
      omega
    · obtain ⟨s₂, -, h₂, hremoved⟩ := Action.exists_of_along_measure (w := w) hs hq
      obtain ⟨s₃, -, h₃, hfinished⟩ := Action.exists_of_along_measure (w := w) h₂ hq
      obtain ⟨-, rfl⟩ := Program.along_done_iff.1 h₃
      rw [if_pos ⟨s₁, hevict⟩]
      omega

open scoped Classical in
/-- Of several evictions those are told that have removed what they are for. -/
theorem told_runAll
    (hw : ∀ target, tally w recorder (.eviction target) + tally w recorder (.finished "invalidate")
      = 1)
    (hmute : ∀ e ∈ evictions, (e.evict request).IsMute w fun _ => True)
    {q : Action W (Option (List CacheFault))}
    (h : (runAll recorder request evictions).Along t q t') (hq : q.Rests) :
    told w t = told w t' +
      (List.range evictions.length).countP fun i => Removes recorder evictions request t i := by
  induction evictions generalizing t t' q with
  | nil =>
    obtain ⟨-, rfl⟩ := Program.along_done_iff.1 h
    rfl
  | cons eviction evictions ih =>
    have hfirst := hmute eviction List.mem_cons_self
    have hrest : ∀ e ∈ evictions, (e.evict request).IsMute w fun _ => True :=
      fun e he => hmute e (List.mem_cons_of_mem _ he)
    rw [runAll_cons] at h
    rw [countP_removes_cons]
    rcases Action.along_bind_cases h hq with ⟨p, hp, hrests, hne, -, rfl⟩ | ⟨faults, s, hs, h⟩
    · have htold := told_runAll_singleton hfirst hp hrests
      have hlater (i : ℕ) : ¬ Removes recorder (eviction :: evictions) request t (i + 1) :=
        not_removes_succ fun faults s => hp.not_ends hne
      rw [hw] at htold
      simpa [hlater] using htold
    · have htold := told_runAll_singleton hfirst hs trivial
      rw [hw] at htold
      rcases faults with _ | faults
      · obtain ⟨-, rfl⟩ := Program.along_done_iff.1 h
        have hlater (i : ℕ) : ¬ Removes recorder (eviction :: evictions) request t (i + 1) := by
          refine not_removes_succ fun faults s' hends => ?_
          cases (hs.unique hends).1
        simpa [hlater] using htold
      · obtain ⟨p, hp, hrests⟩ := Action.exists_along_of_bind_done (fun _ => ⟨_, rfl⟩) h hq
        have hothers := ih hrest hp hrests
        simp only [removes_succ_iff_of_ends hs]
        omega

open scoped Classical in
/-- What an eviction stage tells of a request. -/
theorem told_stage
    (hw : ∀ target, tally w recorder (.eviction target) + tally w recorder (.finished "invalidate")
      = 1)
    (hmute : ∀ e ∈ evictions, ∀ request, (e.evict request).IsMute w fun _ => True)
    (hhandler : (handler request).IsMute w fun _ => True)
    (hinner : ∀ stage ∈ inner, stage.IsMute w) {q : Action W (Outcome C k)}
    (h : (throughStages handler request (stage evictions recorder :: inner)).Along t q t')
    (hq : q.Rests) :
    told w t = told w t' + (List.range evictions.length).countP fun i =>
      Removed recorder evictions inner i handler request t := by
  have hbelow := isMute_throughStages hhandler hinner
  have hnone (hnot : ∀ response s, ¬ (throughStages handler request inner).Ends t (.ok response) s)
      (hsame : told w t = told w t') :
      told w t = told w t' + (List.range evictions.length).countP fun i =>
        Removed recorder evictions inner i handler request t := by
    have hnever (i : ℕ) : ¬ Removed recorder evictions inner i handler request t :=
      fun ⟨response, s, hends, _⟩ => hnot response s hends
    simpa [hnever] using hsame
  rw [throughStages_eq] at h
  rcases Action.along_bind_cases h hq with ⟨p, hp, -, hne, -, rfl⟩ | ⟨outcome, s, ho, h⟩
  · exact hnone (fun response s => hp.not_ends hne) (hbelow.along hp).1
  · have hsame := (hbelow.along ho).1
    rcases outcome with e | response
    · obtain ⟨-, rfl⟩ := Program.along_done_iff.1 h
      exact hnone (fun response s hends => by cases (ho.unique hends).1) hsame
    · have hremoved (i : ℕ) : Removed recorder evictions inner i handler request t ↔
          Removes recorder evictions request s i := by
        refine ⟨?_, fun hremoves => ⟨response, s, ho, hremoves⟩⟩
        rintro ⟨response', s', hends, hremoves⟩
        obtain ⟨-, rfl⟩ := ho.unique hends
        exact hremoves
      obtain ⟨p, hp, hrests⟩ := Action.exists_along_of_bind_done
        (by rintro (_ | _ | ⟨fault, faults⟩) <;> exact ⟨_, rfl⟩) h hq
      have htold := told_runAll hw (fun e he => hmute e he request) hp hrests
      simp only [hremoved]
      omega

end Eviction

end RequestCache
