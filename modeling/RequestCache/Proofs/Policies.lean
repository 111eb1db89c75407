/-
# What the policies mean

A look-up may fail, and so may storing a fresh response: the read or any of the writes, there may
be no key to store under, the lifetime may be refused, the response may have no written form.
Under the lenient policy none of this reaches the caller: a response that is found is the answer,
and otherwise the outcome is what comes from further in, which is run once.  Under the strict
policy a failed look-up is the outcome and nothing further in is run, and a failed write is the
outcome although it was.  If nothing fails the two policies cannot be told apart
(`Lookup.policies`).  Why a fresh response is not kept, and what is reported then, can be listed
(`Lookup.Unkept`, `Lookup.keep_fails_iff`).

The surroundings are arbitrary here: whatever they answer, and however the answers depend on what
was asked before, it is only asked that nothing is cut short (`IsUncut`).  A run is described by
all that it asks for, in order, with its result and the state that it leaves (`Program.Ran`), so
"is run once" can be seen in it.
-/
import RequestCache.Proofs.Calm

namespace RequestCache

/-! ## Runs -/

namespace Program

variable {I : Interface} {α β σ : Type} {answer : (op : I.Op) → σ → I.Answer op × σ}

/-- What a program asks for when it is run, in order. -/
def asked (answer : (op : I.Op) → σ → I.Answer op × σ) : Program I α → σ → List I.Op
  | done _, _ => []
  | ask op next, s => op :: (next (answer op s).1).asked answer (answer op s).2

/-- The program, run from a state, asks for some operations and ends with a result in another
state. -/
structure Ran (answer : (op : I.Op) → σ → I.Answer op × σ) (p : Program I α) (s : σ)
    (ops : List I.Op) (a : α) (s' : σ) : Prop where
  run : p.run answer s = (a, s')
  asked : p.asked answer s = ops

lemma ran_done (a : α) (s : σ) : (done a : Program I α).Ran answer s [] a s := ⟨rfl, rfl⟩

/-- Every program ends somehow. -/
lemma exists_ran (answer : (op : I.Op) → σ → I.Answer op × σ) (p : Program I α) (s : σ) :
    ∃ ops a s', p.Ran answer s ops a s' := ⟨_, _, _, rfl, rfl⟩

lemma asked_bind (p : Program I α) (f : α → Program I β) (s : σ) :
    (p >>= f).asked answer s =
      p.asked answer s ++ (f (p.run answer s).1).asked answer (p.run answer s).2 := by
  induction p generalizing s with
  | done a => rfl
  | ask op next ih => exact congrArg (op :: ·) (ih _ _)

/-- One program after the other asks first for what the one asks for, then for what the other
does. -/
theorem Ran.bind {p : Program I α} {f : α → Program I β} {s s₁ s₂ : σ} {ops ops' : List I.Op}
    {a : α} {b : β} (hp : p.Ran answer s ops a s₁) (hf : (f a).Ran answer s₁ ops' b s₂) :
    (p >>= f).Ran answer s (ops ++ ops') b s₂ := by
  obtain ⟨hrun, hasked⟩ := hp
  constructor
  · change (p.bind f).run answer s = (b, s₂)
    rw [run_bind, hrun]
    exact hf.run
  · rw [asked_bind, hrun, hasked, hf.asked]

/-- There is only one way to run a program. -/
lemma Ran.unique {p : Program I α} {s s₁ s₂ : σ} {ops ops' : List I.Op} {a b : α}
    (h : p.Ran answer s ops a s₁) (h' : p.Ran answer s ops' b s₂) :
    ops = ops' ∧ a = b ∧ s₁ = s₂ := by
  obtain ⟨rfl, rfl⟩ := Prod.mk.inj (h.run.symm.trans h'.run)
  exact ⟨h.asked.symm.trans h'.asked, rfl, rfl⟩

end Program

/-! ## Failures of the cache -/

variable {C : Catalogue} {W : Interface} {k : C.Kind} {α β σ : Type}
  {answer : (e : Effect W) → σ → e.Answer × σ}

/-- Nothing is ever cut short. -/
def IsUncut (answer : (e : Effect W) → σ → e.Answer × σ) : Prop :=
  ∀ (e : Effect W) s, e.isCut (answer e s).1 = false

lemma exists_answer_read (huncut : IsUncut answer) (key : String) (s : σ) :
    ∃ read, (answer (.read key) s).1 = some read :=
  Option.isSome_iff_exists.1 (Option.isNone_eq_false_iff.1 (huncut (.read key) s))

lemma exists_answer_apply (huncut : IsUncut answer) (cs : List Change) (s : σ) :
    ∃ outcomes, (answer (.apply cs) s).1 = some outcomes :=
  Option.isSome_iff_exists.1 (Option.isNone_eq_false_iff.1 (huncut (.apply cs) s))

/-- As long as nothing is cut short, an action ends with what `post` says. -/
def Action.Ensures (post : α → Prop) : Action W α → Prop
  | .done a => post a
  | .ask e next => ∀ x, Effect.isCut e x = false → Ensures post (next x)

namespace Action.Ensures

variable {post : α → Prop} {p : Action W α}

lemma bind {mid : α → Prop} {post : β → Prop} {f : α → Action W β} (hp : p.Ensures mid)
    (hf : ∀ a, mid a → (f a).Ensures post) : (p >>= f).Ensures post := by
  induction p with
  | done a => exact hf a hp
  | ask e next ih => exact fun x hx => ih x (hp x hx)

lemma of_ran (hp : p.Ensures post) (huncut : IsUncut answer) {s s' : σ}
    {ops : List (effects W).Op} {a : α} (h : p.Ran answer s ops a s') : post a := by
  induction p generalizing s ops with
  | done b =>
    cases h.run
    exact hp
  | ask e next ih => exact ih _ (hp _ (huncut e s)) ⟨h.run, rfl⟩

end Action.Ensures

lemma Action.ran_apply {cs : List Change} {x : Option (List ChangeOutcome)} {s : σ}
    (h : (answer (.apply cs) s).1 = x) :
    (apply cs).Ran answer s [Effect.apply cs] x (answer (.apply cs) s).2 :=
  ⟨congrArg (·, _) h, rfl⟩

/-- The operation was not cancelled. -/
def Uncancelled (outcome : Except CacheFault α) : Prop := outcome ≠ .error .cancelled

/-- The operation fails only if the store does. -/
def FailsByStore (outcome : Except CacheFault α) : Prop :=
  ∀ e, outcome = .error e → ∃ source, e = .store source

namespace Entry

variable {c : Json.Codec α}

lemma ensures_content (key : Key) : (content (W := W) key).Ensures FailsByStore := by
  have hread : (Action.read (W := W) key.text).Ensures fun x => x.isNone = false :=
    fun x hx => hx
  refine hread.bind ?_
  rintro (_ | source | text) hx
  · cases hx
  · rintro e ⟨⟩
    exact ⟨source, rfl⟩
  · rintro e ⟨⟩

lemma ensures_find (key : Key) : (find (W := W) c key).Ensures FailsByStore := by
  refine (ensures_content key).bind ?_
  rintro (e | _ | text) hx
  · rintro e' ⟨⟩
    exact hx e rfl
  · rintro e ⟨⟩
  · dsimp only
    cases Bundle.decode? c text with
    | none =>
      rintro x - e ⟨⟩
    | some bundle =>
      rintro e ⟨⟩

lemma uncancelled_collect (operation : String) (keys : List String)
    (outcomes : List ChangeOutcome) : Uncancelled (collect operation keys outcomes) := by
  unfold collect Uncancelled
  dsimp only
  split_ifs <;> simp

lemma ensures_changeAll (operation : String) (change : String → Change) (keys : List String) :
    (changeAll (W := W) operation change keys).Ensures Uncancelled := by
  have happly : (Action.apply (W := W) (keys.map change)).Ensures fun x => x.isNone = false :=
    fun x hx => hx
  refine happly.bind ?_
  rintro (_ | outcomes) hx
  · cases hx
  · exact uncancelled_collect operation keys outcomes

lemma ensures_store (value : α) (keys : List Key) (l : Lifetime) :
    (store (W := W) c value keys l).Ensures Uncancelled := by
  unfold store
  dsimp only
  split_ifs
  · rintro ⟨⟩
  · cases Bundle.encode c ⟨value, (Key.distinct keys).map Key.text⟩ with
    | error message => rintro ⟨⟩
    | ok text => exact ensures_changeAll "set" _ _

/-- Several changes are one question, and its answer decides. -/
lemma ran_changeAll_of_answer {operation : String} {change : String → Change} {keys : List String}
    {x : Option (List ChangeOutcome)} {s : σ} (h : (answer (.apply (keys.map change)) s).1 = x) :
    (changeAll operation change keys).Ran answer s [Effect.apply (keys.map change)]
      (x.elim (.error .cancelled) (collect operation keys))
      (answer (.apply (keys.map change)) s).2 := by
  cases x with
  | none => exact (Action.ran_apply h).bind (Program.ran_done _ _)
  | some outcomes => exact (Action.ran_apply h).bind (Program.ran_done _ _)

/-- The keys whose changes were refused, each with the reason. -/
def refusals (keys : List String) (outcomes : List ChangeOutcome) : List KeyFault :=
  (keys.zip outcomes).filterMap fun
    | (key, .error source) => some ⟨key, source⟩
    | (_, .ok ()) => none

lemma mem_refusals_iff {keys : List String} {outcomes : List ChangeOutcome} {key : String}
    {source : StoreFault} :
    ⟨key, source⟩ ∈ refusals keys outcomes ↔ (key, .error source) ∈ keys.zip outcomes := by
  rw [refusals, List.mem_filterMap]
  constructor
  · rintro ⟨⟨other, fault | ⟨⟩⟩, hmem, heq⟩ <;> cases heq
    exact hmem
  · intro hmem
    exact ⟨_, hmem, rfl⟩

/-- Changes of several keys fail if one of them was refused, and all that were are reported. -/
lemma collect_eq_error_iff {operation : String} {keys : List String}
    {outcomes : List ChangeOutcome} {e : CacheFault} :
    collect operation keys outcomes = .error e ↔
      (∃ key source, (key, .error source) ∈ keys.zip outcomes) ∧
        e = .someKeys operation outcomes.length (refusals keys outcomes) := by
  have hcollect : collect operation keys outcomes =
      if (refusals keys outcomes).isEmpty then .ok ()
      else .error (.someKeys operation outcomes.length (refusals keys outcomes)) := rfl
  have hsome : (∃ key source, (key, .error source) ∈ keys.zip outcomes) ↔
      refusals keys outcomes ≠ [] := by
    constructor
    · rintro ⟨key, source, hmem⟩
      exact List.ne_nil_of_mem (mem_refusals_iff.2 hmem)
    · intro hne
      obtain ⟨⟨key, source⟩, hmem⟩ := List.exists_mem_of_ne_nil _ hne
      exact ⟨key, source, mem_refusals_iff.1 hmem⟩
  rw [hcollect, hsome]
  split_ifs with hempty
  · simp [List.isEmpty_iff.1 hempty]
  · simp [mt List.isEmpty_iff.2 hempty, eq_comm]

end Entry

/-- A response that is stored without being cancelled may not be stored, for any other reason. -/
lemma Plan.ensures_store (plan : Plan C k) (request : C.Request k) (response : C.Response k) :
    (plan.store (W := W) request response).Ensures Uncancelled := by
  unfold store
  dsimp only
  split_ifs
  · rintro ⟨⟩
  · exact Entry.ensures_store _ _ _

/-- Only under the strict policy a fault is the end, unless it comes from cancellation. -/
lemma Lookup.isFatal_of_ne_cancelled {policy : FaultPolicy} {e : CacheFault}
    (h : e ≠ .cancelled) : isFatal policy e = decide (policy = .strict) := by
  cases e with
  | cancelled => exact absurd rfl h
  | _ => rfl

lemma CacheFault.toDispatch_of_ne_cancelled {e : CacheFault} (h : e ≠ .cancelled) :
    e.toDispatch = .failed (.cache e) := by
  cases e with
  | cancelled => exact absurd rfl h
  | _ => rfl

/-! ## The parts of a dispatch -/

namespace Lookup

variable {plan : Plan C k} {policy : FaultPolicy} {recorder : Recorder} {request : C.Request k}
  {handler : Handler C W k} {stages : List (Stage C W k)} {next : Action W (Outcome C k)}
  {response : C.Response k} {outcome : Outcome C k} {e : CacheFault} {s s' : σ}
  {ops : List (effects W).Op}

/-- What is told about a look-up that failed. -/
def notice (k : C.Kind) : Except CacheFault (Option (C.Response k)) → Action W Unit
  | .ok _ => .done ()
  | .error e => Action.log (.lookupFailed (C.name k) e)

/-- What is done to keep a fresh response. -/
def keep (plan : Plan C k) (recorder : Recorder) (request : C.Request k)
    (response : C.Response k) : Action W (Except CacheFault Unit) := do
  Action.measure recorder .miss
  plan.store request response

/-- What comes after a fresh response was kept, or was not. -/
def afterKeep (policy : FaultPolicy) (recorder : Recorder) (request : C.Request k)
    (response : C.Response k) : Except CacheFault Unit → Action W (Outcome C k)
  | .ok () => do
    Action.measure recorder (.finished "set")
    Action.log (.stored (C.showResponse k response) (C.showRequest k request))
    return .ok response
  | .error e =>
    if isFatal policy e then return .error e.toDispatch
    else do
      Action.log (.populateFailed (C.name k) e)
      return .ok response

/-- What comes after a look-up; `next` is what lies further in. -/
def afterFind (plan : Plan C k) (policy : FaultPolicy) (recorder : Recorder)
    (request : C.Request k) (next : Action W (Outcome C k)) :
    Except CacheFault (Option (C.Response k)) → Action W (Outcome C k)
  | .ok (some response) => do
    Action.measure recorder .hit
    Action.measure recorder (.finished "get")
    Action.log (.hit (C.showResponse k response) (C.showRequest k request))
    return .ok response
  | .ok none => next >>= populate plan policy recorder request
  | .error e =>
    if isFatal policy e then return .error e.toDispatch
    else do
      notice k (.error e)
      next >>= populate plan policy recorder request

lemma populate_ok_eq :
    populate (W := W) plan policy recorder request (.ok response) =
      keep plan recorder request response >>= afterKeep policy recorder request response := by
  simp only [populate, keep, bind_assoc]
  refine congrArg (Action.measure recorder .miss >>= ·) (funext fun _ => ?_)
  refine congrArg (plan.store request response >>= ·) (funext fun written => ?_)
  rcases written with e | ⟨⟩ <;> rfl

lemma throughStages_eq :
    throughStages handler request (stage plan policy recorder :: stages) =
      plan.find request >>=
        afterFind plan policy recorder request (throughStages handler request stages) := by
  simp only [throughStages, stage, bind_assoc]
  refine congrArg (plan.find request >>= ·) (funext fun found => ?_)
  rcases found with e | _ | response
  · unfold afterFind
    dsimp only
    split_ifs <;> rfl
  · rfl
  · rfl

lemma ensures_keep : (keep (W := W) plan recorder request response).Ensures Uncancelled :=
  fun _ _ => plan.ensures_store request response

/-! ## Runs of the parts -/

lemma ran_populate {kept told : List (effects W).Op} {written : Except CacheFault Unit} {s'' : σ}
    (hkeep : (keep plan recorder request response).Ran answer s kept written s')
    (hafter : (afterKeep policy recorder request response written).Ran answer s' told outcome
      s'') :
    (populate plan policy recorder request (.ok response)).Ran answer s (kept ++ told) outcome
      s'' := by
  rw [populate_ok_eq]
  exact hkeep.bind hafter

/-- A response that could be kept is the outcome, under either policy. -/
lemma ran_populate_kept (h : (keep plan recorder request response).Ran answer s ops (.ok ()) s') :
    ∃ told s'', ∀ policy,
      (populate plan policy recorder request (.ok response)).Ran answer s (ops ++ told)
        (.ok response) s'' := by
  have hafter : ∃ told s'', ∀ policy,
      (afterKeep policy recorder request response (.ok ())).Ran answer s' told
        (.ok response) s'' := ⟨_, _, fun _ => ⟨rfl, rfl⟩⟩
  obtain ⟨told, s'', hafter⟩ := hafter
  exact ⟨told, s'', fun policy => ran_populate h (hafter policy)⟩

/-- Under the strict policy a response that could not be kept is a failure. -/
lemma ran_populate_strict (huncut : IsUncut answer)
    (h : (keep plan recorder request response).Ran answer s ops (.error e) s') :
    (populate plan .strict recorder request (.ok response)).Ran answer s ops
      (.error (.failed (.cache e))) s' := by
  have hne : e ≠ .cancelled := fun heq => ensures_keep.of_ran huncut h (heq ▸ rfl)
  have hafter : (afterKeep .strict recorder request response (.error e)).Ran answer s' []
      (.error (.failed (.cache e))) s' := by
    rw [afterKeep, isFatal_of_ne_cancelled hne, e.toDispatch_of_ne_cancelled hne]
    exact Program.ran_done _ s'
  rw [← List.append_nil ops]
  exact ran_populate h hafter

/-- What is told about a response that could not be kept. -/
def unkeptTold (k : C.Kind) (e : CacheFault) : List (effects W).Op :=
  [Effect.log (.populateFailed (C.name k) e)]

/-- Under the lenient policy a response that could not be kept is the outcome all the same. -/
lemma ran_populate_unkept (huncut : IsUncut answer)
    (h : (keep plan recorder request response).Ran answer s ops (.error e) s') :
    ∃ s'', (populate plan .lenient recorder request (.ok response)).Ran answer s
      (ops ++ unkeptTold k e) (.ok response) s'' := by
  have hne : e ≠ .cancelled := fun heq => ensures_keep.of_ran huncut h (heq ▸ rfl)
  have hafter : ∃ s'', (afterKeep .lenient recorder request response (.error e)).Ran answer s'
      (unkeptTold k e) (.ok response) s'' := by
    rw [afterKeep, isFatal_of_ne_cancelled hne]
    exact ⟨_, rfl, rfl⟩
  obtain ⟨s'', hafter⟩ := hafter
  exact ⟨s'', ran_populate h hafter⟩

/-- Under the lenient policy an outcome stays what it is, whether it could be kept or not. -/
lemma ran_populate_lenient (huncut : IsUncut answer) (plan : Plan C k) (recorder : Recorder)
    (request : C.Request k) (outcome : Outcome C k) (s : σ) :
    ∃ stored s', (populate plan .lenient recorder request outcome).Ran answer s stored outcome
      s' := by
  cases outcome with
  | error fault => exact ⟨[], s, Program.ran_done _ s⟩
  | ok response =>
    obtain ⟨stored, written, s₁, hkeep⟩ := Program.exists_ran answer
      (keep plan recorder request response) s
    rcases written with e | ⟨⟩
    · exact ⟨_, ran_populate_unkept huncut hkeep⟩
    · obtain ⟨told, s₂, hpopulate⟩ := ran_populate_kept hkeep
      exact ⟨_, s₂, hpopulate .lenient⟩

/-- Without a response that was found and without a failure that ends the dispatch, a look-up is
followed by what lies further in. -/
lemma ran_afterFind {found : Except CacheFault (Option (C.Response k))}
    (hmiss : ∀ response, found ≠ .ok (some response))
    (hgoes : ∀ e, found = .error e → isFatal policy e = false)
    {told inner stored : List (effects W).Op} {final : Outcome C k} {s₁ s₂ s₃ : σ}
    (hnotice : (notice k found).Ran answer s told () s₁)
    (hnext : next.Ran answer s₁ inner outcome s₂)
    (hpopulate : (populate plan policy recorder request outcome).Ran answer s₂ stored final s₃) :
    (afterFind plan policy recorder request next found).Ran answer s (told ++ inner ++ stored)
      final s₃ := by
  have hrest := hnext.bind hpopulate
  rcases found with e | _ | response
  · rw [afterFind, hgoes e rfl, List.append_assoc]
    exact hnotice.bind hrest
  · obtain ⟨rfl, -, rfl⟩ := hnotice.unique (Program.ran_done () s)
    exact hrest
  · exact absurd rfl (hmiss response)

/-! ## The policies -/

/-- A request on its way through the look-up stage to what lies further in. -/
def around (plan : Plan C k) (recorder : Recorder) (handler : Handler C W k)
    (stages : List (Stage C W k)) (policy : FaultPolicy) : Handler C W k := fun request =>
  throughStages handler request (stage plan policy recorder :: stages)

/-- What is told about a response that is found. -/
def hitTold (recorder : Recorder) (request : C.Request k) (response : C.Response k) :
    List (effects W).Op :=
  [Effect.measure recorder .hit, Effect.measure recorder (.finished "get"),
    Effect.log (.hit (C.showResponse k response) (C.showRequest k request))]

/-- Nothing of the cache fails: neither the look-up nor, if a fresh response comes from further
in, keeping it. -/
structure Flawless (answer : (e : Effect W) → σ → e.Answer × σ) (plan : Plan C k)
    (recorder : Recorder) (request : C.Request k) (next : Action W (Outcome C k))
    (found : Except CacheFault (Option (C.Response k))) (s : σ) : Prop where
  find : ∀ e, found ≠ .error e
  keep : ∀ inner response s₁, next.Ran answer s inner (.ok response) s₁ →
    ∃ stored s₂, (keep plan recorder request response).Ran answer s₁ stored (.ok ()) s₂

section

variable {s₁ : σ} {looked : List (effects W).Op}
  {found : Except CacheFault (Option (C.Response k))}

lemma ran_around {rest : List (effects W).Op}
    (hfind : (plan.find request).Ran answer s looked found s₁)
    (hafter : (afterFind plan policy recorder request (throughStages handler request stages)
      found).Ran answer s₁ rest outcome s') :
    (around plan recorder handler stages policy request).Ran answer s (looked ++ rest) outcome
      s' := by
  rw [around, throughStages_eq]
  exact hfind.bind hafter

/-- A response that is found is the answer, under either policy. -/
lemma ran_hit (recorder : Recorder) (handler : Handler C W k) (stages : List (Stage C W k))
    (hfind : (plan.find request).Ran answer s looked (.ok (some response)) s₁) :
    ∃ s', ∀ policy, (around plan recorder handler stages policy request).Ran answer s
      (looked ++ hitTold recorder request response) (.ok response) s' := by
  have hafter : ∃ s', ∀ policy, (afterFind plan policy recorder request
      (throughStages handler request stages) (.ok (some response))).Ran answer s₁
        (hitTold recorder request response) (.ok response) s' := ⟨_, fun _ => ⟨rfl, rfl⟩⟩
  obtain ⟨s', hafter⟩ := hafter
  exact ⟨s', fun policy => ran_around hfind (hafter policy)⟩

/-- Under the lenient policy a look-up that finds nothing, or fails, leaves it to what lies further
in, which is run once. -/
lemma ran_lenient (huncut : IsUncut answer)
    (hfind : (plan.find request).Ran answer s looked found s₁)
    (hmiss : ∀ response, found ≠ .ok (some response)) :
    ∃ told s₂ inner outcome s₃ stored s₄, (notice k found).Ran answer s₁ told () s₂ ∧
      (throughStages handler request stages).Ran answer s₂ inner outcome s₃ ∧
      (populate plan .lenient recorder request outcome).Ran answer s₃ stored outcome s₄ ∧
      (around plan recorder handler stages .lenient request).Ran answer s
        (looked ++ (told ++ inner ++ stored)) outcome s₄ := by
  have hgoes : ∀ e, found = .error e → isFatal .lenient e = false := by
    intro e he
    obtain ⟨source, rfl⟩ := (Entry.ensures_find _).of_ran huncut hfind e he
    rfl
  obtain ⟨told, ⟨⟩, s₂, hnotice⟩ := Program.exists_ran answer (notice k found) s₁
  obtain ⟨inner, outcome, s₃, hnext⟩ :=
    Program.exists_ran answer (throughStages handler request stages) s₂
  obtain ⟨stored, s₄, hpopulate⟩ := ran_populate_lenient huncut plan recorder request outcome s₃
  refine ⟨told, s₂, inner, outcome, s₃, stored, s₄, hnotice, hnext, hpopulate, ?_⟩
  exact ran_around hfind (ran_afterFind hmiss hgoes hnotice hnext hpopulate)

/-- Under the strict policy a look-up that fails is the end, and nothing further in is run. -/
lemma ran_strict_failed (huncut : IsUncut answer)
    (hfind : (plan.find request).Ran answer s looked (.error e) s₁) :
    ∃ source, e = .store source ∧
      (around plan recorder handler stages .strict request).Ran answer s looked
        (.error (.failed (.cache e))) s₁ := by
  obtain ⟨source, rfl⟩ := (Entry.ensures_find _).of_ran huncut hfind e rfl
  refine ⟨source, rfl, ?_⟩
  rw [← List.append_nil looked]
  exact ran_around hfind (Program.ran_done _ s₁)

/-- Under the strict policy a look-up that finds nothing leaves it to what lies further in, which
is run once; if that succeeds and the response cannot be kept, this is the outcome. -/
lemma ran_strict (huncut : IsUncut answer)
    (hfind : (plan.find request).Ran answer s looked (.ok none) s₁) :
    ∃ inner outcome s₂, (throughStages handler request stages).Ran answer s₁ inner outcome s₂ ∧
      (∀ fault, outcome = .error fault →
        (around plan recorder handler stages .strict request).Ran answer s (looked ++ inner)
          outcome s₂) ∧
      ∀ response, outcome = .ok response → ∃ stored written s₃,
        (keep plan recorder request response).Ran answer s₂ stored written s₃ ∧
        (∀ e, written = .error e →
          (around plan recorder handler stages .strict request).Ran answer s
            (looked ++ (inner ++ stored)) (.error (.failed (.cache e))) s₃) ∧
        (written = .ok () → ∃ told s₄,
          (around plan recorder handler stages .strict request).Ran answer s
            (looked ++ (inner ++ (stored ++ told))) outcome s₄) := by
  obtain ⟨inner, outcome, s₂, hnext⟩ :=
    Program.exists_ran answer (throughStages handler request stages) s₁
  refine ⟨inner, outcome, s₂, hnext, ?_, ?_⟩
  · rintro fault rfl
    rw [← List.append_nil inner]
    exact ran_around hfind (hnext.bind (Program.ran_done _ s₂))
  · rintro response rfl
    obtain ⟨stored, written, s₃, hkeep⟩ := Program.exists_ran answer
      (keep plan recorder request response) s₂
    refine ⟨stored, written, s₃, hkeep, ?_, ?_⟩
    · rintro e rfl
      exact ran_around hfind (hnext.bind (ran_populate_strict huncut hkeep))
    · rintro rfl
      obtain ⟨told, s₄, hpopulate⟩ := ran_populate_kept hkeep
      exact ⟨told, s₄, ran_around hfind (hnext.bind (hpopulate .strict))⟩

/-- If nothing of the cache fails, both policies run alike. -/
lemma exists_ran_of_flawless (hfind : (plan.find request).Ran answer s looked found s₁)
    (h : Flawless answer plan recorder request (throughStages handler request stages) found s₁) :
    ∃ all outcome s', ∀ policy,
      (around plan recorder handler stages policy request).Ran answer s all outcome s' := by
  rcases found with e | _ | response
  · exact absurd rfl (h.find e)
  · obtain ⟨inner, outcome, s₂, hnext⟩ :=
      Program.exists_ran answer (throughStages handler request stages) s₁
    have hpopulate : ∃ stored s₃, ∀ policy,
        (populate plan policy recorder request outcome).Ran answer s₂ stored outcome s₃ := by
      cases outcome with
      | error fault => exact ⟨[], s₂, fun _ => Program.ran_done _ s₂⟩
      | ok response =>
        obtain ⟨stored, s₃, hkeep⟩ := h.keep inner response s₂ hnext
        obtain ⟨told, s₄, hpopulate⟩ := ran_populate_kept hkeep
        exact ⟨_, s₄, hpopulate⟩
    obtain ⟨stored, s₃, hpopulate⟩ := hpopulate
    exact ⟨looked ++ (inner ++ stored), outcome, s₃, fun policy =>
      ran_around hfind (hnext.bind (hpopulate policy))⟩
  · obtain ⟨s', hhit⟩ := ran_hit recorder handler stages hfind
    exact ⟨_, _, s', hhit⟩

end

/-- What the policies mean, if nothing is cut short.  A response that is found is the answer.
Otherwise, under the lenient policy, the outcome is that of what lies further in, which is run
once, whatever becomes of the look-up before and of the response after.  Under the strict policy
a failed look-up is the outcome and nothing further in is run, and a response that cannot be kept
is a failure although what lies further in was run, once.  If nothing of the cache fails both
policies ask for the same in the same order, come to the same outcome and leave the same behind. -/
theorem policies (huncut : IsUncut answer) (plan : Plan C k) (recorder : Recorder)
    (request : C.Request k) (handler : Handler C W k) (stages : List (Stage C W k)) (s : σ) :
    ∃ looked found s₁, (plan.find request).Ran answer s looked found s₁ ∧
      (∀ response, found = .ok (some response) → ∃ s', ∀ policy,
        (around plan recorder handler stages policy request).Ran answer s
          (looked ++ hitTold recorder request response) (.ok response) s') ∧
      ((∀ response, found ≠ .ok (some response)) →
        ∃ told s₂ inner outcome s₃ stored s₄, (notice k found).Ran answer s₁ told () s₂ ∧
          (throughStages handler request stages).Ran answer s₂ inner outcome s₃ ∧
          (populate plan .lenient recorder request outcome).Ran answer s₃ stored outcome s₄ ∧
          (around plan recorder handler stages .lenient request).Ran answer s
            (looked ++ (told ++ inner ++ stored)) outcome s₄) ∧
      (∀ e, found = .error e → ∃ source, e = .store source ∧
        (around plan recorder handler stages .strict request).Ran answer s looked
          (.error (.failed (.cache e))) s₁) ∧
      (found = .ok none → ∃ inner outcome s₂,
        (throughStages handler request stages).Ran answer s₁ inner outcome s₂ ∧
        (∀ fault, outcome = .error fault →
          (around plan recorder handler stages .strict request).Ran answer s (looked ++ inner)
            outcome s₂) ∧
        ∀ response, outcome = .ok response → ∃ stored written s₃,
          (keep plan recorder request response).Ran answer s₂ stored written s₃ ∧
          (∀ e, written = .error e →
            (around plan recorder handler stages .strict request).Ran answer s
              (looked ++ (inner ++ stored)) (.error (.failed (.cache e))) s₃) ∧
          (written = .ok () → ∃ told s₄,
            (around plan recorder handler stages .strict request).Ran answer s
              (looked ++ (inner ++ (stored ++ told))) outcome s₄)) ∧
      (Flawless answer plan recorder request (throughStages handler request stages) found s₁ →
        ∃ all outcome s', ∀ policy,
          (around plan recorder handler stages policy request).Ran answer s all outcome s') := by
  obtain ⟨looked, found, s₁, hfind⟩ := Program.exists_ran answer (plan.find request) s
  refine ⟨looked, found, s₁, hfind, ?_, ran_lenient huncut hfind, ?_, ?_,
    exists_ran_of_flawless hfind⟩
  · rintro response rfl
    exact ran_hit recorder handler stages hfind
  · rintro e rfl
    exact ran_strict_failed huncut hfind
  · rintro rfl
    exact ran_strict huncut hfind

/-! ### When a response is not kept -/

lemma ran_keep {written : Except CacheFault Unit}
    (hstore : (plan.store request response).Ran answer (answer (.measure recorder .miss) s).2 ops
      written s') :
    (keep plan recorder request response).Ran answer s (Effect.measure recorder .miss :: ops)
      written s' := by
  have htold : (Action.measure (W := W) recorder .miss).Ran answer s
      [Effect.measure recorder .miss] () (answer (.measure recorder .miss) s).2 := ⟨rfl, rfl⟩
  exact htold.bind hstore

/-- Without a key to store it under a response is not kept. -/
lemma ran_keep_of_no_keys (hkeys : plan.entryKeys request response = []) :
    (keep plan recorder request response).Ran answer s [Effect.measure recorder .miss]
      (.error (.noKeys (C.name k))) (answer (.measure recorder .miss) s).2 := by
  refine ran_keep ?_
  rw [Plan.store_of_no_keys hkeys]
  exact Program.ran_done _ _

/-- Without a written form it is not kept either. -/
lemma ran_keep_of_not_encode (hkeys : plan.entryKeys request response ≠ []) {message : String}
    (htext : Bundle.encode (C.codec k)
      ⟨response, Key.texts (plan.entryKeys request response)⟩ = .error message) :
    (keep plan recorder request response).Ran answer s [Effect.measure recorder .miss]
      (.error (.unwritable message)) (answer (.measure recorder .miss) s).2 := by
  refine ran_keep ?_
  rw [Plan.store_of_not_encode hkeys htext]
  exact Program.ran_done _ _

/-- Otherwise its text is to be written under each of its keys, and the answers decide. -/
lemma ran_keep_of_encode (hkeys : plan.entryKeys request response ≠ []) {text : String}
    (htext : Bundle.encode (C.codec k)
      ⟨response, Key.texts (plan.entryKeys request response)⟩ = .ok text)
    {writes : List Change} (hwrites : writes =
      (Key.texts (plan.entryKeys request response)).map (.put · text plan.expiration.lifetime))
    {outcomes : List ChangeOutcome}
    (houtcomes : (answer (.apply writes) (answer (.measure recorder .miss) s).2).1 =
      some outcomes) :
    (keep plan recorder request response).Ran answer s
      [Effect.measure recorder .miss, Effect.apply writes]
      (Entry.collect "set" (Key.texts (plan.entryKeys request response)) outcomes)
      (answer (.apply writes) (answer (.measure recorder .miss) s).2).2 := by
  subst hwrites
  refine ran_keep ?_
  rw [Plan.store_of_encode hkeys htext]
  exact Entry.ran_changeAll_of_answer houtcomes

/-- Why a fresh response is not kept, with what is reported then; `s` is the state in which its text
is to be written. -/
inductive Unkept (answer : (e : Effect W) → σ → e.Answer × σ) (plan : Plan C k)
    (request : C.Request k) (response : C.Response k) (s : σ) : CacheFault → Prop
  /-- There is no key to store it under. -/
  | noKeys (hkeys : plan.entryKeys request response = []) :
      Unkept answer plan request response s (.noKeys (C.name k))
  /-- It has no written form. -/
  | unwritable {message : String} (hkeys : plan.entryKeys request response ≠ [])
      (htext : Bundle.encode (C.codec k)
        ⟨response, Key.texts (plan.entryKeys request response)⟩ = .error message) :
      Unkept answer plan request response s (.unwritable message)
  /-- The store refuses to write its text under some of the keys, be it for the key, for the
  lifetime or for any other reason.  All of these are reported. -/
  | refused {text : String} {outcomes : List ChangeOutcome}
      (hkeys : plan.entryKeys request response ≠ [])
      (htext : Bundle.encode (C.codec k)
        ⟨response, Key.texts (plan.entryKeys request response)⟩ = .ok text)
      (houtcomes : (answer (.apply ((Key.texts (plan.entryKeys request response)).map
        (.put · text plan.expiration.lifetime))) s).1 = some outcomes)
      (hrefused : ∃ key source,
        (key, .error source) ∈ (Key.texts (plan.entryKeys request response)).zip outcomes) :
      Unkept answer plan request response s (.someKeys "set" outcomes.length
        (Entry.refusals (Key.texts (plan.entryKeys request response)) outcomes))

/-- A fresh response is not kept for one of these reasons, if nothing is cut short, and for no
other. -/
theorem keep_fails_iff (huncut : IsUncut answer) {written : Except CacheFault Unit}
    (h : (keep plan recorder request response).Ran answer s ops written s') :
    written = .error e ↔
      Unkept answer plan request response (answer (.measure recorder .miss) s).2 e := by
  constructor
  · rintro rfl
    by_cases hkeys : plan.entryKeys request response = []
    · cases (h.unique (ran_keep_of_no_keys hkeys)).2.1
      exact .noKeys hkeys
    · cases htext : Bundle.encode (C.codec k)
          ⟨response, Key.texts (plan.entryKeys request response)⟩ with
      | error message =>
        cases (h.unique (ran_keep_of_not_encode hkeys htext)).2.1
        exact .unwritable hkeys htext
      | ok text =>
        obtain ⟨outcomes, houtcomes⟩ := exists_answer_apply huncut _ _
        have hcollect := (h.unique (ran_keep_of_encode hkeys htext rfl houtcomes)).2.1
        obtain ⟨hrefused, rfl⟩ := Entry.collect_eq_error_iff.1 hcollect.symm
        exact .refused hkeys htext houtcomes hrefused
  · rintro (hkeys | ⟨hkeys, htext⟩ | ⟨hkeys, htext, houtcomes, hrefused⟩)
    · exact (h.unique (ran_keep_of_no_keys hkeys)).2.1
    · exact (h.unique (ran_keep_of_not_encode hkeys htext)).2.1
    · rw [(h.unique (ran_keep_of_encode hkeys htext rfl houtcomes)).2.1]
      exact Entry.collect_eq_error_iff.2 ⟨hrefused, rfl⟩

/-- What the policies make of a fresh response that is not kept: under the strict one the request
ends with what is reported, and under the lenient one that is told to the logs and the response is
the outcome. -/
theorem ran_populate_of_unkept (huncut : IsUncut answer)
    (h : Unkept answer plan request response (answer (.measure recorder .miss) s).2 e) :
    ∃ kept s', (keep plan recorder request response).Ran answer s kept (.error e) s' ∧
      (populate plan .strict recorder request (.ok response)).Ran answer s kept
        (.error (.failed (.cache e))) s' ∧
      ∃ s'', (populate plan .lenient recorder request (.ok response)).Ran answer s
        (kept ++ unkeptTold k e) (.ok response) s'' := by
  obtain ⟨kept, written, s', hkeep⟩ :=
    Program.exists_ran answer (keep plan recorder request response) s
  obtain rfl := (keep_fails_iff huncut hkeep).2 h
  exact ⟨kept, s', hkeep, ran_populate_strict huncut hkeep, ran_populate_unkept huncut hkeep⟩

end Lookup

namespace Demo

/-- A store that refuses whatever it is asked.  It is counted how many requests are handled. -/
def refusing : (e : Effect (handlings catalogue)) → ℕ → e.Answer × ℕ
  | .isCancelled, n => (false, n)
  | .read _, n => (some (.error (.unavailable "read refused")), n)
  | .apply cs, n => (some (cs.map fun _ => .error (.unavailable "write refused")), n)
  | .log _, n => ((), n)
  | .measure _ _, n => ((), n)
  | .work ⟨k, number⟩, n => (some (greetings n k number), n + 1)

lemma isUncut_refusing : IsUncut refusing := by
  intro e n
  cases e <;> rfl

/-- The seventh greeting is asked for. -/
def seventh (policy : FaultPolicy) :
    Action (handlings catalogue) (Outcome catalogue Kind.greeting) :=
  Lookup.around greetingPlan ⟨0, Kind.greeting.name⟩ (asking (C := catalogue) Kind.greeting) []
    policy (7 : ℕ)

/-- Over a store that refuses everything, the greeting is handled once under the lenient policy,
and not at all under the strict one, where the refusal is the outcome. -/
theorem policies_refusing :
    Program.run refusing (seventh .lenient) 0 = (.ok (greetingText 7), 1) ∧
      Program.run refusing (seventh .strict) 0 =
        (.error (.failed (.cache (.store (.unavailable "read refused")))), 0) := by
  obtain ⟨looked, found, s₁, hfind, -, hlenient, hstrict, -, -⟩ :=
    Lookup.policies isUncut_refusing greetingPlan ⟨0, Kind.greeting.name⟩ (7 : ℕ)
      (asking (C := catalogue) Kind.greeting) [] 0
  cases hfind.run
  constructor
  · obtain ⟨told, s₂, inner, outcome, s₃, stored, s₄, hnotice, hnext, hpopulate, hrun⟩ :=
      hlenient nofun
    cases hnotice.run
    cases hnext.run
    cases hpopulate.run
    exact hrun.run
  · obtain ⟨source, -, hrun⟩ := hstrict _ rfl
    exact hrun.run

end Demo

end RequestCache
