/-
# The course of a dispatch

A request of a kind that is cached makes the store look for one key before anything further in
is run.  If the response is found there, this is all.  Otherwise what lies further in is run
once, and only its success is stored, with one write for every key, in the order of the
identifiers.  Then, if all of this succeeded, each eviction of the kind looks for its key, in the
order in which they were added, and removes what it finds listed there and the key itself
(`CacheSetup.store_calls`).  So a request that evicts its own entry leaves nothing to be read
under its key: the evictions come after the response was stored.

Each stage of the cache has its course, as an inductive predicate with one constructor for each
way to pass it: `Lookup.Passes`, `Eviction.Runs` and, for both together, `CacheSetup.Follows`.
Whatever stages lie around them let a request get there once at most (`Crosses`).
-/
import RequestCache.Proofs.Calls
import RequestCache.Proofs.Invalidation

namespace RequestCache

open Program (replay)

variable {C : Catalogue} {W : Interface} {k : C.Kind} {α β σ : Type}
  {answer : (e : Effect W) → σ → e.Answer × σ}

/-! ## The look-up stage -/

namespace Lookup

variable {p : Plan C k} {policy : FaultPolicy} {recorder : Recorder} {request : C.Request k}
  {handler : Handler C W k} {stages : List (Stage C W k)} {s s' : σ} {ops : List (effects W).Op}
  {outcome : Outcome C k}

/-- What a look-up that begins in a state finds: what the store tells it there, read as an
entry. -/
def Finds (answer : (e : Effect W) → σ → e.Answer × σ) (p : Plan C k) (request : C.Request k)
    (s : σ) (found : Except StoreFault (Option (C.Response k))) : Prop :=
  ∃ read, (answer (.read (p.lookupKey request).text) s).1 = some read ∧
    Entry.valueOf (C.codec k) read = found

/-- The outcome of a request whose fresh response was written, or was not. -/
def outcomeOf (policy : FaultPolicy) (response : C.Response k) :
    Except CacheFault Unit → Outcome C k
  | .ok () => .ok response
  | .error fault => if policy = .strict then .error (.failed (.cache fault)) else .ok response

/-- How a request passes the look-up stage, from a state on; `next` is what lies further in. -/
inductive Passes (answer : (e : Effect W) → σ → e.Answer × σ) (p : Plan C k)
    (policy : FaultPolicy) (request : C.Request k) (next : Action W (Outcome C k)) (s : σ) :
    List (effects W).Op → Outcome C k → Prop
  /-- The response is found, and nothing further in is run. -/
  | hit {ops : List (effects W).Op} {response : C.Response k}
      (hfound : Finds answer p request s (.ok (some response)))
      (hops : Issues ops [.get (p.lookupKey request).text]) :
      Passes answer p policy request next s ops (.ok response)
  /-- The look-up fails and so does the request. -/
  | refused {ops : List (effects W).Op} {source : StoreFault}
      (hfound : Finds answer p request s (.error source)) (hpolicy : policy = .strict)
      (hops : Issues ops [.get (p.lookupKey request).text]) :
      Passes answer p policy request next s ops (.error (.failed (.cache (.store source))))
  /-- What lies further in fails, and nothing is stored. -/
  | failed {looked inner : List (effects W).Op} {fault : DispatchFault} {s₁ : σ}
      (hfound : Finds answer p request s (.ok none) ∨
        policy = .lenient ∧ ∃ source, Finds answer p request s (.error source))
      (hlooked : Issues looked [.get (p.lookupKey request).text])
      (hnext : next.Ran answer (replay answer looked s) inner (.error fault) s₁) :
      Passes answer p policy request next s (looked ++ inner) (.error fault)
  /-- What lies further in succeeds, and its response is written. -/
  | stored {looked inner missed stored told : List (effects W).Op} {response : C.Response k}
      {written : Except CacheFault Unit} {outcome : Outcome C k} {s₁ s₂ : σ}
      (hfound : Finds answer p request s (.ok none) ∨
        policy = .lenient ∧ ∃ source, Finds answer p request s (.error source))
      (hlooked : Issues looked [.get (p.lookupKey request).text])
      (hnext : next.Ran answer (replay answer looked s) inner (.ok response) s₁)
      (hmissed : Issues missed [])
      (hstored : Issues stored ((p.puts request response).map .change))
      (hstore : (p.store request response).Ran answer (replay answer missed s₁) stored written s₂)
      (htold : Issues told [])
      (houtcome : outcome = outcomeOf policy response written) :
      Passes answer p policy request next s (looked ++ (inner ++ (missed ++ stored ++ told)))
        outcome

lemma issues_afterKeep {response : C.Response k} {written : Except CacheFault Unit}
    (hwritten : Uncancelled written)
    (h : (afterKeep policy recorder request response written).Ran answer s ops outcome s') :
    Issues ops [] ∧ outcome = outcomeOf policy response written := by
  rcases written with fault | ⟨⟩
  · have hfault : fault ≠ .cancelled := fun heq => hwritten (heq ▸ rfl)
    rw [afterKeep, isFatal_of_ne_cancelled hfault, fault.toDispatch_of_ne_cancelled hfault] at h
    cases policy with
    | strict =>
      obtain ⟨rfl, rfl, -⟩ := Program.ran_done_iff.1 h
      exact ⟨issues_nil, rfl⟩
    | lenient =>
      obtain ⟨told, rest, htold, hrest, rfl⟩ := ran_log_bind h
      obtain ⟨rfl, rfl, -⟩ := Program.ran_done_iff.1 hrest
      exact ⟨htold.append issues_nil, rfl⟩
  · obtain ⟨measured, afterMeasured, hmeasured, hafter, rfl⟩ := ran_measure_bind h
    obtain ⟨logged, rest, hlogged, hrest, rfl⟩ := ran_log_bind hafter
    obtain ⟨rfl, rfl, -⟩ := Program.ran_done_iff.1 hrest
    exact ⟨hmeasured.append (hlogged.append issues_nil), rfl⟩

/-- Without a response that was found, what lies further in is run and its success is stored. -/
lemma passes_of_missed (huncut : IsUncut answer) {next : Action W (Outcome C k)}
    {looked rest : List (effects W).Op}
    (hfound : Finds answer p request s (.ok none) ∨
      policy = .lenient ∧ ∃ source, Finds answer p request s (.error source))
    (hlooked : Issues looked [.get (p.lookupKey request).text])
    (h : (next >>= populate p policy recorder request).Ran answer (replay answer looked s) rest
      outcome s') :
    Passes answer p policy request next s (looked ++ rest) outcome := by
  obtain ⟨inner, inside, s₁, stored, hnext, hpopulate, rfl⟩ := Program.ran_bind_iff.1 h
  rcases inside with fault | response
  · obtain ⟨rfl, rfl, -⟩ := Program.ran_done_iff.1 hpopulate
    rw [List.append_nil]
    exact .failed hfound hlooked hnext
  · rw [populate_ok_eq] at hpopulate
    obtain ⟨kept, written, s₂, told, hkeep, hafter, rfl⟩ := Program.ran_bind_iff.1 hpopulate
    have hwritten : Uncancelled written := ensures_keep.of_ran huncut hkeep
    obtain ⟨htold, houtcome⟩ := issues_afterKeep hwritten hafter
    obtain ⟨missed, stored, hmissed, hstore, rfl⟩ := ran_measure_bind hkeep
    exact .stored hfound hlooked hnext hmissed (Plan.issues_store huncut hstore) hstore htold
      houtcome

/-- Every request passes the look-up stage in one of these ways. -/
theorem passes_of_ran (huncut : IsUncut answer)
    (h : (around p recorder handler stages policy request).Ran answer s ops outcome s') :
    Passes answer p policy request (throughStages handler request stages) s ops outcome := by
  rw [around, throughStages_eq] at h
  obtain ⟨looked, x, s₁, rest, hfind, hrest, rfl⟩ := Program.ran_bind_iff.1 h
  obtain ⟨read, hread, rfl, hlooked⟩ := Entry.ran_find huncut hfind
  have hfound : Finds answer p request s (Entry.valueOf (C.codec k) read) := ⟨read, hread, rfl⟩
  have hs₁ : replay answer looked s = s₁ := hfind.replay_eq
  rcases hvalue : Entry.valueOf (C.codec k) read with source | _ | response <;>
    rw [hvalue] at hfound hrest
  · cases policy with
    | strict =>
      obtain ⟨rfl, rfl, -⟩ := Program.ran_done_iff.1 hrest
      rw [List.append_nil]
      exact .refused hfound rfl hlooked
    | lenient =>
      obtain ⟨told, after, htold, hafter, rfl⟩ := ran_log_bind hrest
      rw [← List.append_assoc]
      rw [← hs₁, ← replay_append] at hafter
      exact passes_of_missed huncut (.inr ⟨rfl, source, hfound⟩) (hlooked.append htold) hafter
  · rw [← hs₁] at hrest
    exact passes_of_missed huncut (.inl hfound) hlooked hrest
  · obtain ⟨rfl, rfl, -⟩ := hrest.unique (⟨rfl, rfl⟩ : Program.Ran answer _ s₁
      (hitTold recorder request response) (.ok response) _)
    have htold : Issues (W := W) (hitTold recorder request response) [] :=
      issues_cons id (issues_cons id (issues_cons id issues_nil))
    exact .hit hfound (hlooked.append htold)

end Lookup

/-! ## Evictions -/

namespace Eviction

variable {request : C.Request k} {recorder : Recorder} {evictions : List (Eviction C W k)}
  {keys : List Key} {s s' : σ} {ops : List (effects W).Op}

lemma throughStages_eq {handler : Handler C W k} {stages : List (Stage C W k)} :
    throughStages handler request (stage evictions recorder :: stages) =
      throughStages handler request stages >>= afterSuccess evictions recorder request := rfl

/-- How the entries under some keys are removed one after the other, with the faults. -/
inductive Runs (answer : (e : Effect W) → σ → e.Answer × σ) :
    List Key → σ → List (effects W).Op → List CacheFault → Prop
  /-- There is nothing left to remove. -/
  | done (s : σ) : Runs answer [] s [] []
  /-- The entry under the next key is removed, if the store lets it. -/
  | next {key : Key} {keys : List Key} {s s₁ : σ} {told removal told' rest : List (effects W).Op}
      {read : ReadOutcome} {removed : Except CacheFault Unit} {faults : List CacheFault}
      (htold : Issues told [])
      (hread : (answer (.read key.text) (replay answer told s)).1 = some read)
      (hremoval : Issues removal
        (.get key.text :: ((Entry.condemned key read).map Change.delete).map .change))
      (hremove : (Entry.remove key).Ran answer (replay answer told s) removal removed s₁)
      (htold' : Issues told' [])
      (hrest : Runs answer keys (replay answer told' s₁) rest faults) :
      Runs answer (key :: keys) s (told ++ removal ++ told' ++ rest)
        (match removed with
          | .ok () => faults
          | .error fault => fault :: faults)

/-- Evictions that each remove the entry under a key run one after the other. -/
lemma runs_of_ran (huncut : IsUncut answer)
    (hkeys : List.Forall₂ (fun e key => e.evict request = Entry.remove key) evictions keys)
    {faults : Option (List CacheFault)}
    (h : (runAll recorder request evictions).Ran answer s ops faults s') :
    ∃ gathered, faults = some gathered ∧ Runs answer keys s ops gathered := by
  induction hkeys generalizing s s' ops faults with
  | nil =>
    obtain ⟨rfl, rfl, -⟩ := Program.ran_done_iff.1 h
    exact ⟨[], rfl, .done s⟩
  | @cons e key evictions keys he hes ih =>
    obtain ⟨told, afterTold, htold, hafterTold, rfl⟩ := ran_log_bind h
    obtain ⟨removal, removed, s₁, afterRemoval, hremove, hafterRemoval, rfl⟩ :=
      Program.ran_bind_iff.1 hafterTold
    rw [he] at hremove
    obtain ⟨read, hread, hremoval⟩ := Entry.ran_remove huncut hremove
    rcases removed with fault | ⟨⟩
    · have hfault : fault ≠ .cancelled := fun heq =>
        (Entry.ensures_remove key).of_ran huncut hremove (heq ▸ rfl)
      have hlogged : (Action.log (.evictionFailed (C.name k) e.target fault) >>= fun _ =>
          runAll recorder request evictions >>= fun faults =>
            .done (faults.map (fault :: ·))).Ran answer s₁ afterRemoval faults s' := by
        cases fault with
        | cancelled => exact absurd rfl hfault
        | _ => exact hafterRemoval
      obtain ⟨told', afterLog, htold', hafterLog, rfl⟩ := ran_log_bind hlogged
      obtain ⟨rest, gathered?, s₂, last, hrest, hlast, rfl⟩ := Program.ran_bind_iff.1 hafterLog
      obtain ⟨gathered, rfl, hruns⟩ := ih hrest
      obtain ⟨rfl, rfl, -⟩ := Program.ran_done_iff.1 hlast
      refine ⟨fault :: gathered, rfl, ?_⟩
      have hall := Runs.next htold hread hremoval hremove htold' hruns
      simpa using hall
    · obtain ⟨counted, afterCounted, hcounted, hafterCounted, rfl⟩ :=
        ran_measure_bind hafterRemoval
      obtain ⟨finished, rest, hfinished, hrest, rfl⟩ := ran_measure_bind hafterCounted
      obtain ⟨gathered, rfl, hruns⟩ := ih hrest
      refine ⟨gathered, rfl, ?_⟩
      rw [← replay_append] at hruns
      have hall : Runs answer (key :: keys) s
          (told ++ removal ++ (counted ++ finished) ++ rest) gathered :=
        .next htold hread hremoval hremove (hcounted.append hfinished) hruns
      simpa using hall

end Eviction

section

variable {content : σ → String → Option String}

namespace Eviction

variable {keys : List Key} {s : σ} {ops : List (effects W).Op} {faults : List CacheFault}

lemma Runs.onlyRemoves (h : Runs answer keys s ops faults) :
    ∀ op ∈ ops, Effect.OnlyRemoves (W := W) op := by
  induction h with
  | done s => simp
  | next htold hread hremoval hremove htold' hrest ih =>
    have hdeletes := hremoval.onlyRemoves (by simp)
    intro op hop
    simp only [List.mem_append] at hop
    rcases hop with ((hop | hop) | hop) | hop
    · exact htold.onlyRemoves_of_quiet op hop
    · exact hdeletes op hop
    · exact htold'.onlyRemoves_of_quiet op hop
    · exact ih op hop

/-- In a store that does what it is asked no eviction fails. -/
lemma Runs.faults_eq_nil {clock : σ → Instant} (hstore : Reliable answer clock content)
    (h : Runs answer keys s ops faults) : faults = [] := by
  induction h with
  | done s => rfl
  | next htold hread hremoval hremove htold' hrest ih =>
    obtain rfl := hstore.ran_remove hremove
    exact ih

/-- If no eviction failed, nothing can be read under any of their keys in the end. -/
lemma Runs.unreadable (herases : Erases answer content) (huncut : IsUncut answer)
    (h : Runs answer keys s ops faults) (hfaults : faults = []) :
    ∀ key ∈ keys, Entry.readable (content (replay answer ops s) key.text) = none := by
  induction h with
  | done s => simp
  | @next key keys s s₁ told removal told' rest read removed faults htold hread hremoval hremove
      htold' hrest ih =>
    rcases removed with fault | ⟨⟩
    · cases hfaults
    · have hend : replay answer (told ++ removal ++ told' ++ rest) s =
          replay answer rest (replay answer told' s₁) := by
        rw [replay_append, replay_append, replay_append, hremove.replay_eq]
      rw [hend]
      intro other hother
      rcases List.mem_cons.1 hother with rfl | hother
      · -- it is gone once it was removed, and the later evictions put nothing
        have hgone := herases.unreadable_of_remove huncut hremove
        have hkept := herases.unreadable_replay htold'.onlyRemoves_of_quiet hgone
        exact herases.unreadable_replay hrest.onlyRemoves hkept
      · exact ih hfaults other hother

end Eviction

end

/-! ## Dispatches -/

/-- How a request passes some stages, the outermost first, that have others inside them: each one
answers it, or lets it go on and makes its outcome of the one from further in.  What happens
inside all of them is said by `inside`. -/
inductive Crosses (answer : (e : Effect W) → σ → e.Answer × σ) (request : C.Request k)
    (further : ℕ) (inside : σ → List (effects W).Op → Outcome C k → Prop) :
    List (Stage C W k) → σ → List (effects W).Op → Outcome C k → Prop
  /-- All stages are passed. -/
  | inside {s : σ} {ops : List (effects W).Op} {outcome : Outcome C k}
      (h : inside s ops outcome) : Crosses answer request further inside [] s ops outcome
  /-- A stage answers, and nothing further in is run. -/
  | answered {stage : Stage C W k} {stages : List (Stage C W k)} {s s' : σ}
      {ops : List (effects W).Op} {outcome : Outcome C k}
      (henter : (stage.enter request (stages.length + further)).Ran answer s ops
        (.answer outcome) s') :
      Crosses answer request further inside (stage :: stages) s ops outcome
  /-- A stage lets the request go on. -/
  | proceeded {stage : Stage C W k} {stages : List (Stage C W k)} {s s₁ s₂ : σ}
      {entered inner left : List (effects W).Op} {outcome outcome' : Outcome C k}
      {leave : Outcome C k → Action W (Outcome C k)}
      (henter : (stage.enter request (stages.length + further)).Ran answer s entered
        (.proceed leave) s₁)
      (hinner : Crosses answer request further inside stages s₁ inner outcome)
      (hleave : (leave outcome).Ran answer (replay answer inner s₁) left outcome' s₂) :
      Crosses answer request further inside (stage :: stages) s (entered ++ inner ++ left)
        outcome'

lemma crosses_of_ran {request : C.Request k} {handler : Handler C W k}
    {outer inner : List (Stage C W k)}
    {inside : σ → List (effects W).Op → Outcome C k → Prop}
    (hinside : ∀ s ops outcome s',
      (throughStages handler request inner).Ran answer s ops outcome s' → inside s ops outcome)
    {s s' : σ} {ops : List (effects W).Op} {outcome : Outcome C k}
    (h : (throughStages handler request (outer ++ inner)).Ran answer s ops outcome s') :
    Crosses answer request inner.length inside outer s ops outcome := by
  induction outer generalizing s s' ops outcome with
  | nil => exact .inside (hinside _ _ _ _ h)
  | cons stage outer ih =>
    rw [List.cons_append] at h
    obtain ⟨entered, verdict, s₁, rest, henter, hrest, rfl⟩ := Program.ran_bind_iff.1 h
    rw [List.length_append] at henter
    rcases verdict with answered | leave
    · obtain ⟨rfl, rfl, -⟩ := Program.ran_done_iff.1 hrest
      rw [List.append_nil]
      exact .answered henter
    · obtain ⟨passed, outcome', s₂, left, hpassed, hleave, rfl⟩ := Program.ran_bind_iff.1 hrest
      rw [← hpassed.replay_eq] at hleave
      rw [← List.append_assoc]
      exact .proceeded henter (ih hpassed) hleave

/-- A dispatch is what the stages make of the request, after it was asked whether to begin. -/
lemma Dispatcher.ran_send (hlive : IsLive answer) {d : Dispatcher C W} {handler : Handler C W k}
    {stages : List (Stage C W k)} (hroute : d.route k = { handler := some handler, stages })
    {request : C.Request k} {s s' : σ} {ops : List (effects W).Op} {outcome : Outcome C k}
    (h : (d.send k request).Ran answer s ops outcome s') :
    ∃ rest : List (effects W).Op, ops = Effect.isCancelled :: rest ∧
      (throughStages handler request stages).Ran answer (answer .isCancelled s).2 rest outcome
        s' := by
  rw [send, hroute] at h
  obtain ⟨guarded, o, s₁, last, hguarded, hlast, rfl⟩ := Program.ran_bind_iff.1 h
  obtain ⟨rest, inside, rfl, rfl, hran⟩ := ran_guarded hlive hguarded
  obtain ⟨rfl, rfl, rfl⟩ := Program.ran_done_iff.1 hlast
  exact ⟨rest, List.append_nil _, hran⟩

namespace CacheSetup

variable {S : CacheSetup C W} {request : C.Request k} {handler : Handler C W k}
  {evicting looking : Recorder} {later : List (Stage C W k)} {next : Action W (Outcome C k)}
  {keys : List Key} {s s' : σ} {ops : List (effects W).Op} {outcome : Outcome C k}

/-- The eviction removes the entry under the key, by the plan of a kind that has one. -/
def Names (S : CacheSetup C W) (request : C.Request k) (e : Eviction C W k) (key : Key) : Prop :=
  ∃ (target : C.Kind) (q : Plan C target) (identifier : C.Request k → String),
    S.plan target = some q ∧ e = .ofPlan q identifier ∧ key = q.key (identifier request)

lemma Names.evict_eq {e : Eviction C W k} {key : Key} (h : S.Names request e key) :
    e.evict request = Entry.remove key := by
  obtain ⟨target, q, identifier, -, rfl, rfl⟩ := h
  rfl

lemma Built.exists_keys (hS : S.Built fun _ _ => False) (request : C.Request k) :
    ∃ keys, List.Forall₂ (S.Names request) (S.evictions k) keys := by
  refine Scene.exists_forall₂ fun e he => ?_
  rcases hS.eviction_cases he with hfalse | ⟨target, q, identifier, hq, rfl⟩
  · exact hfalse.elim
  · exact ⟨q.key (identifier request), target, q, identifier, hq, rfl, rfl⟩

/-- How a request is answered by the look-up stage of its kind, or by what lies further in if
there is no such stage. -/
inductive Responds (answer : (e : Effect W) → σ → e.Answer × σ) (S : CacheSetup C W)
    (request : C.Request k) (next : Action W (Outcome C k)) (s : σ) :
    List (effects W).Op → Outcome C k → Prop
  | uncached {ops : List (effects W).Op} {outcome : Outcome C k} {s' : σ}
      (hplan : S.plan k = none) (hnext : next.Ran answer s ops outcome s') :
      Responds answer S request next s ops outcome
  | cached {p : Plan C k} {ops : List (effects W).Op} {outcome : Outcome C k}
      (hplan : S.plan k = some p)
      (hpasses : Lookup.Passes answer p S.policy request next s ops outcome) :
      Responds answer S request next s ops outcome

/-- How a request passes the stages of the cache whose evictions are to remove the entries under
some keys: they do if the request succeeded, and one fault is made of theirs. -/
inductive Follows (answer : (e : Effect W) → σ → e.Answer × σ) (S : CacheSetup C W)
    (request : C.Request k) (keys : List Key) (next : Action W (Outcome C k)) (s : σ) :
    List (effects W).Op → Outcome C k → Prop
  | failed {ops : List (effects W).Op} {fault : DispatchFault}
      (hresponds : Responds answer S request next s ops (.error fault)) :
      Follows answer S request keys next s ops (.error fault)
  | evicting {ops rest : List (effects W).Op} {response : C.Response k}
      {faults : List CacheFault}
      (hresponds : Responds answer S request next s ops (.ok response))
      (hruns : Eviction.Runs answer keys (replay answer ops s) rest faults) :
      Follows answer S request keys next s (ops ++ rest)
        (if faults = [] then .ok response
          else .error (.failed (.cache (.evictions (C.name k) faults))))

lemma responds_of_ran (huncut : IsUncut answer)
    (h : (throughStages handler request (S.lookupStage k looking ++ later)).Ran answer s ops
      outcome s') :
    Responds answer S request (throughStages handler request later) s ops outcome := by
  rw [lookupStage] at h
  cases hplan : S.plan k with
  | none =>
    rw [hplan] at h
    exact .uncached hplan h
  | some p =>
    rw [hplan] at h
    exact .cached hplan (Lookup.passes_of_ran huncut h)

/-- Every request passes the stages of the cache in one of these ways. -/
theorem follows_of_ran (huncut : IsUncut answer)
    (hkeys : List.Forall₂ (fun e key => e.evict request = Entry.remove key) (S.evictions k) keys)
    (h : (throughStages handler request
      (S.evictionStage k evicting ++ S.lookupStage k looking ++ later)).Ran answer s ops
        outcome s') :
    Follows answer S request keys (throughStages handler request later) s ops outcome := by
  rw [List.append_assoc, evictionStage] at h
  split_ifs at h with hempty
  · have hnone : keys = [] := by
      rw [List.isEmpty_iff.1 hempty] at hkeys
      cases hkeys
      rfl
    subst hnone
    have hresponds := responds_of_ran huncut h
    cases outcome with
    | error fault => exact .failed hresponds
    | ok response =>
      have hall := Follows.evicting hresponds (.done _)
      simpa using hall
  · rw [List.singleton_append, Eviction.throughStages_eq] at h
    obtain ⟨inner, inside, s₁, rest, hinner, hleave, rfl⟩ := Program.ran_bind_iff.1 h
    have hresponds := responds_of_ran huncut hinner
    rcases inside with fault | response
    · obtain ⟨rfl, rfl, -⟩ := Program.ran_done_iff.1 hleave
      rw [List.append_nil]
      exact .failed hresponds
    · obtain ⟨removal, faults?, s₂, last, hremoval, hlast, rfl⟩ := Program.ran_bind_iff.1 hleave
      obtain ⟨faults, rfl, hruns⟩ := Eviction.runs_of_ran huncut hkeys hremoval
      rw [← hinner.replay_eq] at hruns
      have hall := Follows.evicting hresponds hruns
      rcases faults with _ | ⟨fault, faults⟩
      · obtain ⟨rfl, rfl, -⟩ := Program.ran_done_iff.1 hlast
        simpa using hall
      · obtain ⟨rfl, rfl, -⟩ := Program.ran_done_iff.1 hlast
        simpa [CacheFault.toDispatch] using hall

/-- After a success nothing can be read under the keys of the evictions. -/
lemma Follows.unreadable {content : σ → String → Option String}
    (herases : Erases answer content) (huncut : IsUncut answer)
    (h : Follows answer S request keys next s ops outcome) {response : C.Response k}
    (hok : outcome = .ok response) :
    ∀ key ∈ keys, Entry.readable (content (replay answer ops s) key.text) = none := by
  cases h with
  | failed hresponds => cases hok
  | evicting hresponds hruns =>
    split_ifs at hok with hfaults
    rw [replay_append]
    exact hruns.unreadable herases huncut hfaults

/-- The calls to the store that a dispatch makes, if it is not cancelled.

A setup is wired into any dispatcher, whose stages for the kind at hand then lie around those of
the cache, and others may be added inside them; the store may be in any state and fail at any
call.  The evictions of a kind each have a key for a request, in the order in which they were
added.  Whenever a request gets as far as the stages of the cache, it follows their course:
looking it up is the first call, and the only one if it is found; otherwise what lies further in
is run once, and if it succeeds its response is written under each key, once, in the order of the
identifiers; if all of this succeeds the evictions follow, one after the other, each with a look
under its key and the removals that this gives.  After a success nothing can be read under the
keys of the evictions, so a request that evicts its own entry leaves none. -/
theorem store_calls {S : CacheSetup C W} (hS : S.Built fun _ _ => False)
    (hlive : IsLive answer) (request : C.Request k) :
    (∀ (D : Dispatcher C W) (serial : ℕ), ∃ evicting looking,
      (S.wire D serial).1.route k =
        { D.route k with
          stages := (D.route k).stages ++
            (S.evictionStage k evicting ++ S.lookupStage k looking) }) ∧
    (∀ (p : Plan C k) (response : C.Response k),
      ((p.puts request response).map Change.key).Nodup) ∧
    ∃ keys : List Key,
      List.Forall₂ (S.Names request) (S.evictions k) keys ∧
      ∀ (d : Dispatcher C W) (handler : Handler C W k) (outer later : List (Stage C W k))
        (evicting looking : Recorder),
        d.route k =
          { handler := some handler
            stages := outer ++ (S.evictionStage k evicting ++ S.lookupStage k looking ++ later) } →
        ∀ (s : σ) (ops : List (effects W).Op) (outcome : Outcome C k) (s' : σ),
          (d.send k request).Ran answer s ops outcome s' →
          ∃ rest : List (effects W).Op, ops = Effect.isCancelled :: rest ∧
            Crosses answer request
              (S.evictionStage k evicting ++ S.lookupStage k looking ++ later).length
              (fun s ops outcome =>
                Follows answer S request keys (throughStages handler request later) s ops outcome ∧
                ∀ content, Erases answer content → ∀ response, outcome = .ok response →
                  ∀ key ∈ keys,
                    Entry.readable (content (replay answer ops s) key.text) = none)
              outer (answer .isCancelled s).2 rest outcome := by
  refine ⟨route_wire hS.isOrdered (k := k), fun _ _ => Plan.nodup_puts, ?_⟩
  obtain ⟨keys, hkeys⟩ := hS.exists_keys request
  have hremoves := hkeys.imp fun _ _ h => h.evict_eq
  refine ⟨keys, hkeys, fun d handler outer later evicting looking hroute s ops outcome s' h => ?_⟩
  obtain ⟨rest, rfl, hran⟩ := Dispatcher.ran_send hlive hroute h
  refine ⟨rest, rfl, crosses_of_ran (fun s ops outcome s' hinner => ?_) hran⟩
  have hfollows := follows_of_ran hlive.uncut hremoves hinner
  exact ⟨hfollows, fun content herases response hok =>
    hfollows.unreadable herases hlive.uncut hok⟩

end CacheSetup

namespace Demo

/-- Greetings whose entry goes again after every request for it. -/
def fleetingSetup : CacheSetup catalogue (handlings catalogue) :=
  (greetingSetup.addEviction Kind.greeting
    (.ofPlan greetingPlan fun (number : ℕ) => toString number)).1

lemma built_fleetingSetup : CacheSetup.Built (fun _ _ => False) fleetingSetup := by
  have hstart : CacheSetup.Built (fun _ _ => False)
      ({ storeName := "memory" } : CacheSetup catalogue (handlings catalogue)) :=
    .start "memory" .strict
  have hplan : CacheSetup.Built (fun _ _ => False) greetingSetup :=
    hstart.plan (k := Kind.greeting) (p := greetingPlan) rfl
  have hevict : greetingSetup.evictAfter (C := catalogue) Kind.greeting Kind.greeting
      (fun (number : ℕ) => toString number) =
      .ok (greetingSetup.addEviction Kind.greeting
        (.ofPlan greetingPlan fun (number : ℕ) => toString number)) := rfl
  exact hplan.evictAfter hevict

/-- What answers requests where greetings are fleeting. -/
def fleeting : Dispatcher catalogue (handlings catalogue) := (fleetingSetup.wire .asksAll 0).1

/-- A fleeting greeting is answered and stored, and then it cannot be read. -/
theorem fleeting_greeting :
    ∃ s', Scene.run greetings (fleeting.send (C := catalogue) Kind.greeting (1 : ℕ)) opening =
        (.ok (greetingText 1), s') ∧
      Entry.readable (s'.text? (greetingPlan.lookupKey (1 : ℕ)).text) = none := by
  obtain ⟨hwired, -, keys, hkeys, hcourse⟩ := CacheSetup.store_calls (k := Kind.greeting)
    built_fleetingSetup (Scene.isLive_answer greetings) (1 : ℕ)
  obtain ⟨evicting, looking, hroute⟩ := hwired .asksAll 0
  obtain ⟨ops, outcome, s', hran⟩ := Program.exists_ran (Scene.answer greetings)
    (fleeting.send (C := catalogue) Kind.greeting (1 : ℕ)) opening
  have hok : outcome = .ok (greetingText 1) := (congrArg Prod.fst hran.run).symm
  obtain ⟨rest, rfl, hcross⟩ := hcourse fleeting (asking (C := catalogue) Kind.greeting)
    [] [] evicting looking (by rw [List.append_nil]; exact hroute) opening ops outcome s' hran
  have hs' : replay (I := effects (handlings catalogue)) (Scene.answer greetings) rest opening =
      s' := hran.replay_eq
  refine ⟨s', hok ▸ hran.run, ?_⟩
  cases hcross with
  | inside h =>
    -- the only key of the evictions is the one under which the greeting is looked up
    have hkey : greetingPlan.lookupKey (1 : ℕ) ∈ keys := by
      cases hkeys with
      | cons hfirst hrest =>
        obtain ⟨target, q, identifier, -, heq, rfl⟩ := hfirst
        have hremove := congrFun (congrArg Eviction.evict heq) (1 : ℕ)
        rw [show greetingPlan.lookupKey (1 : ℕ) = _ from Scene.remove_injective hremove]
        exact List.mem_cons_self
    have hgone := h.2 Scene.text? (Scene.reliable_answer greetings).erases _ hok _ hkey
    rwa [show (Scene.answer greetings .isCancelled opening).2 = opening from rfl, hs'] at hgone

end Demo

end RequestCache
