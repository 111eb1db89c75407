/-
# Where responses come from

However requests are interleaved, whatever fails and whoever is cancelled, a text stands under a
key only if a request was handled with a response that the plan of its kind stores there
(`CacheSetup.Explains`).  Entries may be written in part, overwritten by others that share a key
with them, removed in part, and expire one key at a time: each of their texts is explained on its
own, so all of this is no matter.

Hence a dispatch that ends well without having been handled ends with a response that another
request was handled with, one that is stored under the identifier which the dispatch looked up
(`provenance`).  Two things are asked for: that the plans of different kinds use different keys,
and that what is read back of a response is the response or nothing.
-/
import RequestCache.Proofs.Interleaving

namespace RequestCache

variable {C : Catalogue} {W : Interface} {α β : Type} {k : C.Kind}

/-- The effect puts nothing, and it is not the work of the application. -/
def Effect.OnlyRemoves : Effect W → Prop
  | .apply cs => ∀ c ∈ cs, ∃ key, c = .delete key
  | .work _ => False
  | _ => True

/-- The action removes at most. -/
def Action.OnlyRemoves : Action W α → Prop
  | .done _ => True
  | .ask e next => Effect.OnlyRemoves e ∧ ∀ x, OnlyRemoves (next x)

namespace Law

variable {L : Law C} {i : ℕ} {h : History C}

/-! ## Entries -/

lemma upholds_of_onlyRemoves {p : Action (handlings C) α} (hp : Action.OnlyRemoves p) :
    L.Upholds i (fun _ _ => True) p h := by
  induction p generalizing h with
  | done a => trivial
  | ask e next ih =>
    refine ⟨?_, fun h' _ x _ => ih x (hp.2 x)⟩
    cases e with
    | apply cs =>
      intro c hc key text l hput
      obtain ⟨other, rfl⟩ := hp.1 c hc
      cases hput
    | _ => trivial

lemma upholds_content (key : Key) :
    L.Upholds i (fun h x => ∀ text, x = .ok (some text) → L.Allows h key.text text)
      (Entry.content key) h := by
  refine (upholds_read key.text).bind fun h' _ x hx => ?_
  rcases x with _ | source | found
  · rintro text htext
    cases htext
  · rintro text htext
    cases htext
  · rintro text htext
    have hfound : found = some text :=
      (Option.filter_eq_some_iff.1 (Except.ok.inj htext)).1
    exact hx text (by rw [hfound])

/-- What a look-up finds comes from a text that is allowed. -/
lemma upholds_find (c : Json.Codec α) (key : Key) :
    L.Upholds i
      (fun h x => ∀ a, x = .ok (some a) → ∃ text b, L.Allows h key.text text ∧
        Bundle.decode? c text = some b ∧ b.value = a)
      (Entry.find c key) h := by
  refine (upholds_content key).bind fun h' _ x hx => ?_
  rcases x with e | _ | text
  · rintro a ha
    cases ha
  · rintro a ha
    cases ha
  · dsimp only
    cases hdecode : Bundle.decode? c text with
    | none =>
      refine (upholds_log _).bind fun h'' _ _ _ => ?_
      rintro a ha
      cases ha
    | some b =>
      rintro a ha
      cases ha
      exact ⟨text, b, hx text rfl, hdecode, rfl⟩

lemma upholds_changeAll (operation : String) {change : String → Change} {keys : List String}
    (hall : ∀ key ∈ keys, L.Permits h (change key)) :
    L.Upholds i (fun _ _ => True) (Entry.changeAll operation change keys) h := by
  have hpermits : ∀ c ∈ keys.map change, L.Permits h c := by
    intro c hc
    obtain ⟨key, hkey, rfl⟩ := List.mem_map.1 hc
    exact hall key hkey
  refine (upholds_apply hpermits).bind fun h' _ x _ => ?_
  cases x <;> trivial

lemma permits_delete (key : String) : L.Permits h (.delete key) := by
  intro other text l hput
  cases hput

lemma upholds_remove (key : Key) : L.Upholds i (fun _ _ => True) (Entry.remove key) h := by
  refine (upholds_content key).bind fun h' _ x _ => ?_
  rcases x with e | _ | text
  · trivial
  · trivial
  · dsimp only
    cases Bundle.decodeKeys? text with
    | none =>
      refine (upholds_log _).bind fun h'' _ _ _ => ?_
      exact upholds_changeAll "remove" fun other _ => permits_delete other
    | some listed => exact upholds_changeAll "remove" fun other _ => permits_delete other

lemma upholds_store {c : Json.Codec α} {value : α} {keys : List Key} {l : Lifetime}
    (hall : ∀ text key, Bundle.encode c ⟨value, Key.texts keys⟩ = .ok text → key ∈ keys →
      L.Allows h key.text text) :
    L.Upholds i (fun _ _ => True) (Entry.store c value keys l) h := by
  rcases Entry.store_cases c value keys l with ⟨outcome, hstore, -⟩ | ⟨text, htext, hstore⟩
  · rw [hstore]
    trivial
  · rw [hstore]
    refine upholds_changeAll "set" fun x hx other put l' hput => ?_
    cases hput
    obtain ⟨key, hkey, rfl⟩ := Key.mem_texts.1 hx
    exact hall text key htext hkey

/-! ## Stages -/

lemma upholds_asking (request : C.Request k) :
    L.Upholds i (fun h outcome => ∀ response, outcome = .ok response →
        (i, ⟨k, request, .ok response⟩) ∈ h) (asking k request) h := by
  refine (upholds_work ⟨k, request⟩).bind fun h' _ x hx => ?_
  cases x with
  | none =>
    rintro response hresponse
    cases hresponse
  | some outcome =>
    rintro response hresponse
    cases hresponse
    exact hx _ rfl

/-- The texts that the plan makes of a response are allowed under the keys of the response. -/
def AllowsEntry (L : Law C) (h : History C) (p : Plan C k) (request : C.Request k)
    (response : C.Response k) : Prop :=
  ∀ keys text key, Bundle.encode (C.codec k) ⟨response, keys⟩ = .ok text →
    key ∈ p.entryKeys request response → L.Allows h key.text text

lemma upholds_planStore {p : Plan C k} {request : C.Request k} {response : C.Response k}
    (hentry : L.AllowsEntry h p request response) :
    L.Upholds i (fun _ _ => True) (p.store request response) h := by
  unfold Plan.store
  dsimp only
  split_ifs with hempty
  · trivial
  · exact upholds_store fun text key htext hkey => hentry _ text key htext hkey

/-- On the way out a response is not changed. -/
lemma upholds_populate {p : Plan C k} {policy : FaultPolicy} {recorder : Recorder}
    {request : C.Request k} {outcome : Outcome C k}
    (hentry : ∀ response, outcome = .ok response → L.AllowsEntry h p request response) :
    L.Upholds i (fun _ x => ∀ response, x = .ok response → outcome = .ok response)
      (Lookup.populate p policy recorder request outcome) h := by
  cases outcome with
  | error e =>
    rintro response hresponse
    cases hresponse
  | ok response =>
    refine (upholds_measure _ _).bind fun h₁ hsub _ _ => ?_
    have hentry' : L.AllowsEntry h₁ p request response := fun keys text key htext hkey =>
      L.mono hsub (hentry response rfl keys text key htext hkey)
    refine (upholds_planStore hentry').bind fun h₂ _ x _ => ?_
    rcases x with e | u
    · dsimp only
      split_ifs
      · rintro other hother
        cases hother
      · exact (upholds_log _).bind fun h₃ _ _ _ other hother => hother
    · refine (upholds_measure _ _).bind fun h₃ _ _ _ => ?_
      exact (upholds_log _).bind fun h₄ _ _ _ other hother => hother

lemma upholds_runAll {recorder : Recorder} {request : C.Request k}
    {es : List (Eviction C (handlings C) k)}
    (hes : ∀ e ∈ es, ∀ h, L.Upholds i (fun _ _ => True) (e.evict request) h) :
    L.Upholds i (fun _ _ => True) (Eviction.runAll recorder request es) h := by
  induction es generalizing h with
  | nil => trivial
  | cons e es ih =>
    have hrest : ∀ h, L.Upholds i (fun _ _ => True) (Eviction.runAll recorder request es) h :=
      fun h => ih fun e' he' => hes e' (List.mem_cons_of_mem e he')
    refine (upholds_log _).bind fun h₁ _ _ _ => ?_
    refine (hes e List.mem_cons_self h₁).bind fun h₂ _ x _ => ?_
    split
    · refine (upholds_measure _ _).bind fun h₃ _ _ _ => ?_
      exact (upholds_measure _ _).bind fun h₄ _ _ _ => hrest h₄
    · trivial
    · refine (upholds_log _).bind fun h₃ _ _ _ => ?_
      exact (hrest h₃).bind fun h₄ _ faults _ => trivial

/-- Evictions do not change a response. -/
lemma upholds_afterSuccess {recorder : Recorder} {request : C.Request k}
    {es : List (Eviction C (handlings C) k)}
    (hes : ∀ e ∈ es, ∀ h, L.Upholds i (fun _ _ => True) (e.evict request) h)
    (outcome : Outcome C k) :
    L.Upholds i (fun _ x => ∀ response, x = .ok response → outcome = .ok response)
      (Eviction.afterSuccess es recorder request outcome) h := by
  cases outcome with
  | error e =>
    rintro response hresponse
    cases hresponse
  | ok response =>
    refine (upholds_runAll hes).bind fun h' _ faults _ => ?_
    rcases faults with _ | _ | ⟨fault, faults⟩
    · rintro other hother
      cases hother
    · rintro other hother
      exact hother
    · rintro other hother
      cases fault <;> cases hother

end Law

/-! ## The law of a setup -/

lemma Key.ofParts_injective {space identifier other : String}
    (h : Key.ofParts space identifier = .ofParts space other) : identifier = other := by
  have htext : space ++ ":" ++ identifier = space ++ ":" ++ other := congrArg Key.text h
  exact (String.append_right_inj _).1 htext

/-- The plan looks something up under the key or stores something there. -/
def Plan.Uses (p : Plan C k) (key : Key) : Prop :=
  (∃ request, key = p.lookupKey request) ∨ ∃ request response, key ∈ p.entryKeys request response

namespace CacheSetup

variable (s : CacheSetup C (handlings C))

/-- No key is used by the plans of two kinds. -/
def KeepsKindsApart : Prop :=
  ∀ ⦃k k' : C.Kind⦄ ⦃p : Plan C k⦄ ⦃p' : Plan C k'⦄ ⦃key : Key⦄, s.plan k = some p →
    s.plan k' = some p' → p.Uses key → p'.Uses key → k = k'

/-- What is read back of a response of a cached kind is the response. -/
def IsHonest : Prop := ∀ ⦃k p⦄, s.plan k = some p → (C.codec k).IsHonest

/-- The text is made of a response that some request was handled with, and the key is one of
those that the response is stored under. -/
def Explains (h : History C) (key text : String) : Prop :=
  ∃ (k : C.Kind) (p : Plan C k) (j : ℕ) (request : C.Request k) (response : C.Response k)
    (keys : List String), s.plan k = some p ∧ (j, ⟨k, request, .ok response⟩) ∈ h ∧
    (∃ key' ∈ p.entryKeys request response, key'.text = key) ∧
    Bundle.encode (C.codec k) ⟨response, keys⟩ = .ok text

/-- Only what can be explained may be stored. -/
def law : Law C where
  Allows := s.Explains
  mono := by
    rintro h h' key text hsub ⟨k, p, j, request, response, keys, hp, hmem, hkey, htext⟩
    exact ⟨k, p, j, request, response, keys, hp, hsub hmem, hkey, htext⟩

/-- Some request was handled with the response, and the plan stores this under the identifier
that the request at hand is looked up under. -/
def Vouches (h : History C) (request : C.Request k) (response : C.Response k) : Prop :=
  ∃ (p : Plan C k) (j : ℕ) (other : C.Request k), s.plan k = some p ∧
    (j, ⟨k, other, .ok response⟩) ∈ h ∧ p.lookupId request ∈ p.entryIds other response

/-- A good outcome of dispatch `i` comes from its own handling or is vouched for. -/
def Accounts (i : ℕ) (k : C.Kind) (request : C.Request k) (h : History C)
    (outcome : Outcome C k) : Prop :=
  ∀ response, outcome = .ok response →
    (i, ⟨k, request, .ok response⟩) ∈ h ∨ s.Vouches h request response

variable {s} {i : ℕ} {h : History C} {request : C.Request k}

lemma Vouches.mono {h' : History C} {response : C.Response k}
    (hv : s.Vouches h request response) (hsub : h ⊆ h') : s.Vouches h' request response := by
  obtain ⟨p, j, other, hp, hmem, hid⟩ := hv
  exact ⟨p, j, other, hp, hsub hmem, hid⟩

lemma Accounts.mono (i : ℕ) (k : C.Kind) (request : C.Request k) ⦃h h' : History C⦄
    ⦃outcome : Outcome C k⦄ (hsub : h ⊆ h')
    (ha : s.Accounts i k request h outcome) : s.Accounts i k request h' outcome :=
  fun response hresponse => (ha response hresponse).imp (hsub ·) (·.mono hsub)

/-- What a look-up makes of a text that is explained is vouched for. -/
theorem vouches_of_explains (hapart : s.KeepsKindsApart) (hhonest : s.IsHonest) {p : Plan C k}
    (hp : s.plan k = some p) {text : String} {b : Bundle (C.Response k)}
    (hx : s.Explains h (p.lookupKey request).text text)
    (hdecode : Bundle.decode? (C.codec k) text = some b) : s.Vouches h request b.value := by
  obtain ⟨k', p', j, other, response, keys, hp', hmem, ⟨key, hkey, hkeyText⟩, htext⟩ := hx
  rw [Key.text_injective hkeyText] at hkey
  -- the key is used by the plan of the text and looked up by the plan at hand: one kind, one plan
  obtain rfl : k = k' := hapart hp hp' (.inl ⟨request, rfl⟩) (.inr ⟨other, response, hkey⟩)
  obtain rfl : p = p' := Option.some.inj (hp.symm.trans hp')
  -- the value that was read is the one that was written, whatever keys were written with it
  have hvalue : b.value = response := by
    rw [Bundle.decode?_encode htext] at hdecode
    obtain ⟨value, hreread, rfl⟩ := Option.map_eq_some_iff.1 hdecode
    exact hhonest hp response value hreread
  have hid : p.lookupId request ∈ p.entryIds other response := by
    rw [Plan.entryKeys, Key.distinct, List.mem_eraseDups] at hkey
    obtain ⟨identifier, hmem, heq⟩ := List.mem_map.1 hkey
    rwa [← Key.ofParts_injective heq]
  exact ⟨p, j, other, hp, by rwa [hvalue], by rwa [hvalue]⟩

/-- A response that a request was handled with may be stored. -/
lemma allowsEntry {p : Plan C k} (hp : s.plan k = some p) {response : C.Response k}
    (hmem : (i, ⟨k, request, .ok response⟩) ∈ h) : s.law.AllowsEntry h p request response :=
  fun keys _ key htext hkey => ⟨k, p, i, request, response, keys, hp, hmem, ⟨key, hkey, rfl⟩, htext⟩

/-- On the way in a request is answered with what is accounted for, or it proceeds to be
stored on the way out. -/
def Settles (s : CacheSetup C (handlings C)) (p : Plan C k) (recorder : Recorder) (i : ℕ)
    (request : C.Request k) (h : History C) : Verdict C (handlings C) k → Prop
  | .answer outcome => s.Accounts i k request h outcome
  | .proceed leave => leave = Lookup.populate p s.policy recorder request

lemma upholds_enter (hapart : s.KeepsKindsApart) (hhonest : s.IsHonest) {p : Plan C k}
    (hp : s.plan k = some p) (recorder : Recorder) :
    s.law.Upholds i (s.Settles p recorder i request)
      ((Lookup.stage p s.policy recorder).enter request 0) h := by
  refine (Law.upholds_find (C.codec k) (p.lookupKey request)).bind fun h₁ _ x hx => ?_
  rcases x with e | _ | response
  · -- a fault of the store is fatal, or the request goes on as if nothing was there
    dsimp only
    split_ifs
    · rintro response hresponse
      cases hresponse
    · exact (Law.upholds_log _).bind fun h₂ _ _ _ => rfl
  · rfl
  · obtain ⟨text, b, hallowed, hdecode, rfl⟩ := hx response rfl
    have hvouches : s.Vouches h₁ request b.value :=
      vouches_of_explains hapart hhonest hp hallowed hdecode
    refine (Law.upholds_measure _ _).bind fun h₂ hsub₂ _ _ => ?_
    refine (Law.upholds_measure _ _).bind fun h₃ hsub₃ _ _ => ?_
    refine (Law.upholds_log _).bind fun h₄ hsub₄ _ _ => ?_
    rintro response hresponse
    cases hresponse
    exact .inr (((hvouches.mono hsub₂).mono hsub₃).mono hsub₄)

/-- A request that passes the look-up stage of its kind, if there is one, comes out with a
response that is accounted for. -/
lemma upholds_lookup (hapart : s.KeepsKindsApart) (hhonest : s.IsHonest) (recorder : Recorder) :
    s.law.Upholds i (s.Accounts i k request)
      (throughStages (asking k) request (s.lookupStage k recorder)) h := by
  have hasking : ∀ h, s.law.Upholds i
      (fun h outcome => ∀ response, outcome = .ok response →
        (i, ⟨k, request, .ok response⟩) ∈ h) (asking k request) h :=
    fun h => Law.upholds_asking request
  unfold lookupStage
  cases hp : s.plan k with
  | none =>
    refine (hasking h).weaken fun h' _ outcome hown response hresponse => ?_
    exact .inl (hown response hresponse)
  | some p =>
    refine (upholds_enter hapart hhonest hp recorder).bind fun h₁ _ verdict hverdict => ?_
    cases verdict with
    | answer outcome => exact hverdict
    | proceed leave =>
      obtain rfl : leave = _ := hverdict
      refine (hasking h₁).bind fun h₂ _ outcome hown => ?_
      have hentry : ∀ response, outcome = .ok response →
          s.law.AllowsEntry h₂ p request response :=
        fun response hresponse => allowsEntry hp (hown response hresponse)
      refine (Law.upholds_populate hentry).weaken fun h₃ hsub x hx response hresponse => ?_
      exact .inl (hsub (hown response (hx response hresponse)))

/-- What an eviction stage lets through is accounted for if it was before. -/
lemma upholds_evictions {stages : List (Stage C (handlings C) k)}
    (hstages : s.law.Upholds i (s.Accounts i k request)
      (throughStages (asking k) request stages) h)
    (hes : ∀ e ∈ s.evictions k, ∀ h, s.law.Upholds i (fun _ _ => True) (e.evict request) h)
    (recorder : Recorder) :
    s.law.Upholds i (s.Accounts i k request)
      (throughStages (asking k) request (s.evictionStage k recorder ++ stages)) h := by
  unfold evictionStage
  split_ifs
  · exact hstages
  · have hbind : s.law.Upholds i (s.Accounts i k request)
        (throughStages (asking k) request stages >>=
          Eviction.afterSuccess (s.evictions k) recorder request) h := by
      refine hstages.bind fun h₁ _ outcome haccounts => ?_
      refine (Law.upholds_afterSuccess hes outcome).weaken fun h₂ hsub x hx response hresponse => ?_
      exact haccounts.mono _ _ _ hsub response (hx response hresponse)
    exact hbind

/-- Every eviction of a built setup keeps to the law if those that the application made itself
remove at most. -/
lemma upholds_evict {own : (k : C.Kind) → Eviction C (handlings C) k → Prop}
    (hs : s.Built own)
    (hown : ∀ k e, own k e → ∀ request, Action.OnlyRemoves (e.evict request))
    {e : Eviction C (handlings C) k} (he : e ∈ s.evictions k) (h : History C) :
    s.law.Upholds i (fun _ _ => True) (e.evict request) h := by
  rcases hs.eviction_cases he with heown | ⟨target, p, identifier, -, rfl⟩
  · exact Law.upholds_of_onlyRemoves (hown k e heown request)
  · exact Law.upholds_remove _

end CacheSetup

section

variable {own : (k : C.Kind) → Eviction C (handlings C) k → Prop} {S : Service C own}

/-- Every dispatch keeps to the law of the setup, and a response it ends with is accounted
for. -/
theorem Service.upholds_send (hapart : S.setup.KeepsKindsApart) (hhonest : S.setup.IsHonest)
    (hown : ∀ k e, own k e → ∀ request, Action.OnlyRemoves (e.evict request)) (i : ℕ)
    (k : C.Kind) (request : C.Request k) (h : History C) :
    S.setup.law.Upholds i (S.setup.Accounts i k request) (S.dispatcher.send k request) h := by
  obtain ⟨evicting, looking, hroute⟩ := S.exists_route k
  rw [Dispatcher.send, hroute]
  dsimp only
  cases hserved : (S.inner.route k).handler with
  | none =>
    rintro response hresponse
    cases hresponse
  | some handler =>
    obtain rfl := (S.plain k).2 handler hserved
    have hthrough : S.setup.law.Upholds i (S.setup.Accounts i k request)
        (throughStages (asking k) request
          (S.setup.evictionStage k evicting ++ S.setup.lookupStage k looking)) h :=
      CacheSetup.upholds_evictions (CacheSetup.upholds_lookup hapart hhonest looking)
        (fun e he h => CacheSetup.upholds_evict S.built hown he h) evicting
    refine (hthrough.guarded (CacheSetup.Accounts.mono i k request)).bind fun h' _ x hx => ?_
    cases x with
    | none =>
      rintro response hresponse
      cases hresponse
    | some outcome => exact hx outcome rfl

/-- The application has handled a request for dispatch `i`. -/
def Traffic.Handled (t : Traffic C) (i : ℕ) : Prop := ∃ handling, (i, handling) ∈ t.commons.handled

/-- A response that a dispatch ends with without having been handled is one that a request of
the same kind was handled with, and it is stored under the identifier that the dispatch looked
up; this holds as soon as the dispatch has ended, so the handling came before.  Hence if requests
are handled with a function of them, and responses are stored only under identifiers of requests
with that response, then every response is the one of the function. -/
theorem Traffic.Reachable.provenance (hapart : S.setup.KeepsKindsApart)
    (hhonest : S.setup.IsHonest)
    (hown : ∀ k e, own k e → ∀ request, Action.OnlyRemoves (e.evict request))
    {t : Traffic C} (ht : t.Reachable S) {i : ℕ} {task : Task C} (hi : t.tasks[i]? = some task)
    {response : C.Response task.kind} (hended : task.thread = .running (.done (.ok response))) :
    (¬t.Handled i → S.setup.Vouches t.commons.handled task.request response) ∧
    ∀ f : C.Request task.kind → C.Response task.kind,
      (∀ j request answer, (j, ⟨task.kind, request, .ok answer⟩) ∈ t.commons.handled →
        answer = f request) →
      (∀ p request other, S.setup.plan task.kind = some p →
        p.lookupId request ∈ p.entryIds other (f other) → f request = f other) →
      response = f task.request := by
  have hgoverns := Law.governs_of_reachable (S := S)
    CacheSetup.Accounts.mono
    (S.upholds_send hapart hhonest hown) ht
  have hupheld := hgoverns.upheld i task hi
  rw [hended] at hupheld
  have haccounts : (i, ⟨task.kind, task.request, .ok response⟩) ∈ t.commons.handled ∨
      S.setup.Vouches t.commons.handled task.request response := hupheld response rfl
  refine ⟨fun hnot => ?_, fun f hhandled hids => ?_⟩
  · exact haccounts.resolve_left fun hmem => hnot ⟨_, hmem⟩
  · rcases haccounts with hmem | ⟨p, j, other, hp, hmem, hid⟩
    · exact hhandled i task.request response hmem
    · have hanswer : response = f other := hhandled j other response hmem
      rw [hanswer] at hid ⊢
      exact (hids p task.request other hp hid).symm

end

namespace Demo

/-- The dispatch of a request for a greeting, as it has ended. -/
def answered (number : ℕ) (text : String) : Task catalogue where
  kind := Kind.greeting
  request := number
  cancelled := false
  thread := .running (.done (.ok text))

/-- A greeting may be asked for twice and made once. -/
lemma exists_answered_twice (number : ℕ) :
    ∃ t : Traffic catalogue, t.Reachable service ∧
      t.tasks = [answered number (greetingText number), answered number (greetingText number)] ∧
      t.commons.handled = [(0, ⟨Kind.greeting, number, .ok (greetingText number)⟩)] := by
  have hstart : Traffic.Reachable service (Traffic.start .epoch) := ⟨_, .refl⟩
  have hids : greetingPlan.lookupId number ∈ greetingPlan.entryIds number (greetingText number) :=
    List.mem_cons_self
  obtain ⟨text, htext, -⟩ := Bundle.exists_encode_of_restores
    (restores_greeting (greetingText number))
    (Key.texts (greetingPlan.entryKeys number (greetingText number)))
  have hperiod : greetingPlan.expiration.HasPeriod := by
    show 0 < (Span.ofHours 1).nanos
    decide
  -- The first request is not found.
  obtain ⟨c₁, first, hreach₁, hscene₁, hhandled₁⟩ :=
    hstart.exists_send greetings Kind.greeting number
  rw [Scene.run_send_miss greetings _ rfl rfl rfl rfl rfl hids hperiod htext] at hreach₁ hscene₁
  -- The second one is.
  obtain ⟨c₂, second, hreach₂, hscene₂, hhandled₂⟩ :=
    hreach₁.exists_send greetings Kind.greeting number
  have hlive : c₁.scene.memory.live? c₁.scene.clock (greetingPlan.lookupKey number).text =
      some ⟨text, none, some (Span.ofHours 1), .epoch⟩ := by
    rw [hscene₁, Memory.live?_eq_some_iff]
    refine ⟨?_, rfl⟩
    rw [Scene.get?_put _ hperiod.check,
      if_pos (Key.text_mem_texts.2 (Scene.lookupKey_mem_entryKeys hids))]
    rfl
  have hhit : c₁.scene.run greetings (service.dispatcher.send Kind.greeting number) =
      (.ok (greetingText number), c₁.scene.read (greetingPlan.lookupKey number)) :=
    Scene.run_send_hit greetings _ rfl rfl rfl hlive htext (restores_greeting _)
  rw [hhit] at hreach₂ hscene₂
  have honce : first = [⟨Kind.greeting, number, .ok (greetingText number)⟩] := by
    have hsame := Commons.handled_scene hhandled₁
    rw [hscene₁] at hsame
    exact (hsame.trans (List.append_nil first)).symm
  have hnone : second = [] := by
    have hsame := Commons.handled_scene hhandled₂
    rw [hscene₂] at hsame
    exact List.self_eq_append_left.1 hsame
  refine ⟨_, hreach₂, rfl, ?_⟩
  rw [hhandled₂, hnone, hhandled₁, honce]
  rfl

lemma greetingText_eq_of_mem {request other : ℕ}
    (h : greetingPlan.lookupId request ∈ greetingPlan.entryIds other (greetingText other)) :
    greetingText request = greetingText other := by
  change toString request ∈ [toString other, greetingText other] at h
  rw [List.mem_pair] at h
  rcases h with h | h
  · rw [greetingText, h, greetingText]
  · -- A number does not begin with a letter.
    have hmem : 'h' ∈ (toString request).toList := by
      rw [h, greetingText, String.toList_append]
      exact List.mem_append_left _ (by decide)
    rw [Nat.toString_eq_repr, Nat.toList_repr] at hmem
    have hdigit := Nat.isDigit_of_mem_toDigits (by decide) (by decide) hmem
    exact absurd hdigit (by decide)

lemma eq_greeting_of_plan {k : catalogue.Kind} {p : Plan catalogue k}
    (hp : service.setup.plan k = some p) : k = Kind.greeting := by
  cases k with
  | greeting => rfl
  | reset => cases hp

/-- The second of two greetings comes from the first one, and it is the greeting of its number. -/
theorem greeting_vouched :
    ∃ (t : Traffic catalogue) (answer : catalogue.Response Kind.greeting), t.Reachable service ∧
      t.tasks[1]? = some (answered 1 answer) ∧ ¬t.Handled 1 ∧
      service.setup.Vouches t.commons.handled (1 : ℕ) answer ∧
      answer = greetingText 1 := by
  obtain ⟨t, hreach, htasks, hhandled⟩ := exists_answered_twice 1
  have htask : t.tasks[1]? = some (answered 1 (greetingText 1)) := by
    rw [htasks]
    rfl
  have hnot : ¬t.Handled 1 := by
    rintro ⟨handling, hmem⟩
    rw [hhandled, List.mem_singleton] at hmem
    cases hmem
  have hapart : service.setup.KeepsKindsApart := by
    intro k k' p p' key hp hp' _ _
    rw [eq_greeting_of_plan hp, eq_greeting_of_plan hp']
  have hhonest : service.setup.IsHonest := by
    intro k p hp
    obtain rfl := eq_greeting_of_plan hp
    intro text other h
    exact Option.some.inj (h.symm.trans (restores_greeting text))
  obtain ⟨hvouches, hanswer⟩ :=
    hreach.provenance hapart hhonest (fun k e he => he.elim) htask rfl
  refine ⟨t, greetingText 1, hreach, htask, hnot, hvouches hnot, hanswer greetingText ?_ ?_⟩
  · rintro j request answer hmem
    rw [hhandled, List.mem_singleton] at hmem
    cases hmem
    rfl
  · rintro p request other hp hid
    obtain rfl : greetingPlan = p := Option.some.inj hp
    exact greetingText_eq_of_mem hid

end Demo

end RequestCache
