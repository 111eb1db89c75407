/-
# Requests one after the other

When nothing fails, nothing is cancelled and one request follows another, an action is a
function of the scene it acts on: the clock, which does not move while it acts, the store in
memory, and the requests that were handled.  Here is what each part of the cache comes to on such
a scene, from the reads and changes up to the dispatch of a request.

The laws for dispatches come in three: a request that is found is answered and only renews what
it read (`run_lookup_hit`), one that is not found is handled and then stored
(`run_lookup_miss`), and evictions run on a success, each of them a removal of the entry that
one key finds (`run_runAll`).
-/
import RequestCache.Proofs.Application
import RequestCache.Proofs.Bundle
import RequestCache.Proofs.Memory

namespace RequestCache

variable {C : Catalogue} {α β : Type}

/-- What the application makes of each request, by how many were handled before. -/
abbrev Script (C : Catalogue) := ℕ → (k : C.Kind) → C.Request k → Outcome C k

/-- What requests act on. -/
structure Scene (C : Catalogue) where
  /-- The time. -/
  clock : Instant
  /-- The store. -/
  memory : Memory
  /-- The requests that were handled, the latest first. -/
  handled : List (Handling C)

namespace Scene

/-- The scene at another instant. -/
def atTime (s : Scene C) (now : Instant) : Scene C := { s with clock := now }

/-- The scene with another store. -/
def withMemory (s : Scene C) (m : Memory) : Scene C := { s with memory := m }

@[simp] lemma handled_withMemory (s : Scene C) (m : Memory) :
    (s.withMemory m).handled = s.handled := rfl

/-- The scene after a read. -/
def read (s : Scene C) (key : Key) : Scene C :=
  s.withMemory (s.memory.read s.clock key.text).2

/-- The scene after changes. -/
def change (s : Scene C) (cs : List Change) : Scene C :=
  s.withMemory (s.memory.changes s.clock cs).2

/-- The scene after a text was written under several keys. -/
def put (s : Scene C) (keys : List String) (text : String) (l : Lifetime) : Scene C :=
  s.change (keys.map (.put · text l))

lemma get?_read (s : Scene C) (key : Key) (x : String) :
    (s.read key).memory.get? x =
      if x = key.text then (s.memory.live? s.clock key.text).map (·.touch s.clock)
      else s.memory.get? x := Memory.get?_read key.text x

lemma get?_delete (s : Scene C) (keys : List String) (x : String) :
    (s.change (keys.map .delete)).memory.get? x =
      if x ∈ keys then none else s.memory.get? x := Memory.get?_deletes keys x

lemma get?_put (s : Scene C) {l : Lifetime} (hl : l.check = .ok ()) (keys : List String)
    (text x : String) :
    (s.put keys text l).memory.get? x =
      if x ∈ keys then Held.fresh? s.clock text l else s.memory.get? x :=
  Memory.get?_puts hl text keys x

/-- The scene after a request was handled. -/
def handle (s : Scene C) (h : Handling C) : Scene C := { s with handled := h :: s.handled }

/-- The text that a key is taken to hold: one that has not ended and is not blank. -/
def content (s : Scene C) (key : Key) : Option String :=
  ((s.memory.live? s.clock key.text).map Held.value).filter fun text => !isBlank text

/-- Answers an effect at once. -/
def answer (script : Script C) : (e : Effect (handlings C)) → Scene C → e.Answer × Scene C
  | .isCancelled, s => (false, s)
  | .read key, s => (some (.ok (s.memory.read s.clock key).1), s.read ⟨key⟩)
  | .apply cs, s => (some (s.memory.changes s.clock cs).1, s.change cs)
  | .log _, s => ((), s)
  | .measure _ _, s => ((), s)
  | .work ⟨k, request⟩, s =>
    let outcome := script s.handled.length k request
    (some outcome, s.handle ⟨k, request, outcome⟩)

/-- Runs an action on a scene. -/
def run (script : Script C) (p : Action (handlings C) α) (s : Scene C) : α × Scene C :=
  Program.run (answer script) p s

section

variable (script : Script C) (s : Scene C)

@[simp] lemma run_done (a : α) : run script (.done a) s = (a, s) := rfl

@[simp] lemma run_bind (p : Action (handlings C) α) (f : α → Action (handlings C) β) :
    run script (p >>= f) s = run script (f (run script p s).1) (run script p s).2 :=
  Program.run_bind _ p f s

@[simp] lemma run_isCancelled : run script Action.isCancelled s = (false, s) := rfl

@[simp] lemma run_log (e : Event) : run script (Action.log e) s = ((), s) := rfl

@[simp] lemma run_measure (r : Recorder) (m : Measure) :
    run script (Action.measure r m) s = ((), s) := rfl

@[simp] lemma run_read (key : String) :
    run script (Action.read key) s =
      (some (.ok (s.memory.read s.clock key).1), s.read ⟨key⟩) := rfl

@[simp] lemma run_apply (cs : List Change) :
    run script (Action.apply cs) s = (some (s.memory.changes s.clock cs).1, s.change cs) := rfl

@[simp] lemma run_work (k : C.Kind) (request : C.Request k) :
    run script (Action.work (W := handlings C) ⟨k, request⟩) s =
      (some (script s.handled.length k request),
        s.handle ⟨k, request, script s.handled.length k request⟩) := rfl

/-- Nothing is cut short. -/
lemma isCut_answer (e : Effect (handlings C)) : e.isCut (answer script e s).1 = false := by
  cases e <;> rfl

@[simp] lemma run_untilCancelled (p : Action (handlings C) α) :
    run script (Action.untilCancelled p) s =
      (some (run script p s).1, (run script p s).2) := by
  induction p generalizing s with
  | done a => rfl
  | ask e next ih =>
    have hcut := isCut_answer script s e
    change run script (if e.isCut (answer script e s).1 then .done none
      else Action.untilCancelled (next (answer script e s).1)) (answer script e s).2 = _
    rw [if_neg (by simp [hcut])]
    exact ih _ _

@[simp] lemma run_guarded (p : Action (handlings C) α) :
    run script (Action.guarded p) s = (some (run script p s).1, (run script p s).2) := by
  simp [Action.guarded]

/-! ## Entries -/

lemma run_content (key : Key) :
    run script (Entry.content key) s = (.ok (s.content key), s.read key) := by
  simp [Entry.content, content, Memory.read_value]

/-- The value that a look-up under a key finds. -/
def found (s : Scene C) (c : Json.Codec α) (key : Key) : Option α :=
  (s.content key).bind fun text => (Bundle.decode? c text).map Bundle.value

lemma run_find (c : Json.Codec α) (key : Key) :
    run script (Entry.find c key) s = (.ok (s.found c key), s.read key) := by
  rw [Entry.find, run_bind, run_content, found]
  cases s.content key with
  | none => rfl
  | some text =>
    cases hdecode : Bundle.decode? c text with
    | none => simp [hdecode]
    | some bundle => simp [hdecode]

lemma content_eq_some_iff {s : Scene C} {key : Key} {text : String} :
    s.content key = some text ↔ ∃ e, s.memory.live? s.clock key.text = some e ∧ e.value = text ∧
      isBlank text = false := by
  simp only [content, Option.filter_eq_some_iff, Option.map_eq_some_iff, Bool.not_eq_true']
  constructor
  · rintro ⟨⟨e, hlive, hvalue⟩, hblank⟩
    exact ⟨e, hlive, hvalue, hblank⟩
  · rintro ⟨e, hlive, hvalue, hblank⟩
    exact ⟨⟨e, hlive, hvalue⟩, hblank⟩

lemma content_of_live {s : Scene C} {key : Key} {e : Held} {c : Json.Codec α} {b : Bundle α}
    (hlive : s.memory.live? s.clock key.text = some e)
    (htext : Bundle.encode c b = .ok e.value) : s.content key = some e.value := by
  exact content_eq_some_iff.2 ⟨e, hlive, rfl, Bundle.isBlank_encode htext⟩

lemma content_of_not_live {s : Scene C} {key : Key}
    (hlive : s.memory.live? s.clock key.text = none) : s.content key = none := by
  rw [content, hlive]
  rfl

/-- Of an entry that has not ended a look-up finds what the codec makes of its value. -/
lemma found_of_live {s : Scene C} {key : Key} {e : Held} {c : Json.Codec α} {b : Bundle α}
    (hlive : s.memory.live? s.clock key.text = some e)
    (htext : Bundle.encode c b = .ok e.value) : s.found c key = c.reread b.value := by
  rw [found, content_of_live hlive htext, Option.bind_some, Bundle.decode?_encode htext]
  cases c.reread b.value <;> rfl

lemma found_of_not_live {s : Scene C} {key : Key} {c : Json.Codec α}
    (hlive : s.memory.live? s.clock key.text = none) : s.found c key = none := by
  rw [found, content_of_not_live hlive]
  rfl

/-- The keys that go with a key when it is removed: none if nothing can be read there. -/
def doomed (s : Scene C) (key : Key) : List String :=
  match s.content key with
  | none => []
  | some text =>
    match Bundle.decodeKeys? text with
    | none => [key.text]
    | some listed => Entry.doomed key listed

/-- The scene after the removal of the entry that a key finds. -/
def remove (s : Scene C) (key : Key) : Scene C :=
  (s.read key).change ((s.doomed key).map .delete)

lemma collect_of_ok (operation : String) (keys : List String) {outcomes : List ChangeOutcome}
    (h : ∀ o ∈ outcomes, o = .ok ()) : Entry.collect operation keys outcomes = .ok () := by
  unfold Entry.collect
  refine if_pos (List.isEmpty_iff.2 (List.filterMap_eq_nil_iff.2 fun p hp => ?_))
  obtain ⟨key, outcome⟩ := p
  rw [h outcome (List.of_mem_zip hp).2]

/-- Nothing is reported only if every change succeeded. -/
lemma eq_ok_of_collect {operation : String} {keys : List String} {outcomes : List ChangeOutcome}
    (hlength : outcomes.length = keys.length)
    (h : Entry.collect operation keys outcomes = .ok ()) : ∀ o ∈ outcomes, o = .ok () := by
  unfold Entry.collect at h
  dsimp only at h
  split_ifs at h with hnone
  have hall := List.filterMap_eq_nil_iff.1 (List.isEmpty_iff.1 hnone)
  intro o ho
  obtain ⟨i, hi, rfl⟩ := List.getElem_of_mem ho
  have hmem : (keys[i], outcomes[i]) ∈ keys.zip outcomes := by
    rw [← List.getElem_zip (h := by simp; omega)]
    exact List.getElem_mem _
  have hpair := hall _ hmem
  cases hout : outcomes[i] with
  | ok u => rfl
  | error source => simp [hout] at hpair

lemma run_changeAll (operation : String) {change : String → Change} {keys : List String}
    (h : ∀ o ∈ (s.memory.changes s.clock (keys.map change)).1, o = .ok ()) :
    run script (Entry.changeAll operation change keys) s =
      (.ok (), s.change (keys.map change)) := by
  simp only [Entry.changeAll, run_bind, run_apply, Program.pure_eq_done, run_done]
  rw [collect_of_ok _ _ h]

lemma run_changeAll_delete (operation : String) (keys : List String) :
    run script (Entry.changeAll operation .delete keys) s =
      (.ok (), s.change (keys.map .delete)) := by
  apply run_changeAll
  rw [Memory.changes_deletes_outcomes]
  simp

lemma run_changeAll_put (operation : String) (keys : List String) (text : String) {l : Lifetime}
    (hl : l.check = .ok ()) :
    run script (Entry.changeAll operation (.put · text l) keys) s =
      (.ok (), s.put keys text l) := by
  apply run_changeAll
  rw [Memory.changes_puts_outcomes hl]
  simp

lemma run_remove (key : Key) : run script (Entry.remove key) s = (.ok (), s.remove key) := by
  rw [Entry.remove, run_bind, run_content, remove, doomed]
  cases s.content key with
  | none => rfl
  | some text =>
    cases hkeys : Bundle.decodeKeys? text with
    | none =>
      simp only [hkeys, run_bind, run_log, run_changeAll_delete]
    | some listed =>
      simp only [hkeys, run_changeAll_delete]

lemma run_store {c : Json.Codec α} {value : α} {keys : List Key} {l : Lifetime} {text : String}
    (hl : l.check = .ok ()) (hkeys : keys ≠ [])
    (htext : Bundle.encode c ⟨value, Key.texts keys⟩ = .ok text) :
    run script (Entry.store c value keys l) s = (.ok (), s.put (Key.texts keys) text l) := by
  rw [Entry.store_of_encode hkeys htext]
  exact run_changeAll_put script s "set" _ text hl

lemma of_run_changeAll_eq_ok {operation : String} {change : String → Change}
    {keys : List String} {s' : Scene C}
    (h : run script (Entry.changeAll operation change keys) s = (.ok (), s')) :
    ∀ o ∈ (s.memory.changes s.clock (keys.map change)).1, o = .ok () := by
  simp only [Entry.changeAll, run_bind, run_apply, Program.pure_eq_done, run_done,
    Prod.mk.injEq] at h
  refine eq_ok_of_collect ?_ h.1
  rw [Memory.length_changes, List.length_map]

/-- What a successful write means: the lifetime was accepted, the value has a text, and the text
was written under every key. -/
lemma of_run_store_eq_ok {c : Json.Codec α} {value : α} {keys : List Key} {l : Lifetime}
    {s' : Scene C} (hkeys : keys ≠ [])
    (h : run script (Entry.store c value keys l) s = (.ok (), s')) :
    l.check = .ok () ∧ ∃ text, Bundle.encode c ⟨value, Key.texts keys⟩ = .ok text ∧
      s' = s.put (Key.texts keys) text l := by
  rcases Entry.store_cases c value keys l with ⟨outcome, hstore, hempty⟩ | ⟨text, htext, hstore⟩
  · rw [hstore] at h
    exact absurd (hempty (Prod.mk.inj h).1) hkeys
  · rw [hstore] at h
    have hl : l.check = .ok () := by
      by_contra hl
      obtain ⟨fault, hfault⟩ : ∃ fault, .error fault ∈
          (s.memory.changes s.clock ((Key.texts keys).map (.put · text l))).1 :=
        Memory.exists_error_of_not_check hl text (Key.texts_ne_nil hkeys)
      cases of_run_changeAll_eq_ok script s h _ hfault
    rw [run_changeAll_put script s _ _ _ hl] at h
    exact ⟨hl, text, htext, (Prod.mk.inj h).2.symm⟩

/-! ## Plans and the look-up stage -/

variable {k : C.Kind} {p : Plan C k} {policy : FaultPolicy} {recorder : Recorder}
  {request : C.Request k}

/-- A request is looked up under one of its keys if it is stored under the identifier that it is
looked up under. -/
lemma lookupKey_mem_entryKeys {response : C.Response k}
    (h : p.lookupId request ∈ p.entryIds request response) :
    p.lookupKey request ∈ p.entryKeys request response := by
  simp only [Plan.entryKeys, Key.distinct, List.mem_eraseDups]
  exact List.mem_map_of_mem h

/-- A response is stored under all of its keys, or nothing is changed. -/
lemma run_planStore_cases (response : C.Response k) :
    (run script (p.store request response) s).2 = s ∨
      ∃ text, p.expiration.lifetime.check = .ok () ∧
        Bundle.encode (C.codec k) ⟨response, Key.texts (p.entryKeys request response)⟩ =
          .ok text ∧
        (run script (p.store request response) s).2 =
          s.put (Key.texts (p.entryKeys request response)) text p.expiration.lifetime := by
  rw [Plan.store]
  split_ifs with hkeys
  · exact .inl rfl
  rcases Entry.store_cases (C.codec k) response (p.entryKeys request response)
    p.expiration.lifetime with ⟨outcome, hstore, -⟩ | ⟨text, htext, hstore⟩
  · left
    rw [hstore]
    rfl
  · by_cases hl : p.expiration.lifetime.check = .ok ()
    · exact .inr ⟨text, hl, htext, by rw [hstore, run_changeAll_put script s _ _ _ hl]⟩
    · left
      rw [hstore]
      simp only [Entry.changeAll, run_bind, run_apply, Program.pure_eq_done, run_done]
      rw [change, Memory.changes_puts_of_not_check hl]
      rfl

/-- On the way out a response is stored under all of its keys, or nothing is changed. -/
lemma run_populate_cases (outcome : Outcome C k) :
    (run script (Lookup.populate p policy recorder request outcome) s).2 = s ∨
      ∃ response text, outcome = .ok response ∧ p.expiration.lifetime.check = .ok () ∧
        Bundle.encode (C.codec k) ⟨response, Key.texts (p.entryKeys request response)⟩ =
          .ok text ∧
        (run script (Lookup.populate p policy recorder request outcome) s).2 =
          s.put (Key.texts (p.entryKeys request response)) text p.expiration.lifetime := by
  cases outcome with
  | error e => exact .inl rfl
  | ok response =>
    have hscene : (run script (Lookup.populate p policy recorder request (.ok response)) s).2 =
        (run script (p.store request response) s).2 := by
      simp only [Lookup.populate, run_bind, run_measure]
      rcases run script (p.store request response) s with ⟨outcome, s'⟩
      cases outcome with
      | ok u => simp
      | error e =>
        dsimp only
        split_ifs <;> simp
    rw [hscene]
    rcases run_planStore_cases script s response with h | ⟨text, hl, htext, h⟩
    · exact .inl h
    · exact .inr ⟨response, text, rfl, hl, htext, h⟩

lemma run_populate_ok {response : C.Response k} {text : String}
    (hl : p.expiration.lifetime.check = .ok ()) (hkeys : p.entryKeys request response ≠ [])
    (htext : Bundle.encode (C.codec k)
      ⟨response, Key.texts (p.entryKeys request response)⟩ = .ok text) :
    run script (Lookup.populate p policy recorder request (.ok response)) s =
      (.ok response,
        s.put (Key.texts (p.entryKeys request response)) text p.expiration.lifetime) := by
  have hstore : run script (p.store request response) s =
      (.ok (), s.put (Key.texts (p.entryKeys request response)) text p.expiration.lifetime) := by
    rw [Plan.store_of_keys hkeys]
    exact run_store script s hl hkeys htext
  simp [Lookup.populate, hstore]

lemma run_asking :
    run script (asking k request) s =
      (script s.handled.length k request,
        s.handle ⟨k, request, script s.handled.length k request⟩) := rfl

/-- A request whose response is found goes no further. -/
theorem run_lookup_hit {response : C.Response k} (handler : Handler C (handlings C) k)
    (h : s.found (C.codec k) (p.lookupKey request) = some response) :
    run script (throughStages handler request [Lookup.stage p policy recorder]) s =
      (.ok response, s.read (p.lookupKey request)) := by
  have hfind : run script (p.find request) s =
      (.ok (some response), s.read (p.lookupKey request)) := by
    rw [Plan.find, run_find, h]
  simp [throughStages, Lookup.stage, hfind]

/-- A request whose response is not found is handled, and its response is stored. -/
theorem run_lookup_miss (h : s.found (C.codec k) (p.lookupKey request) = none) :
    run script (throughStages (asking k) request [Lookup.stage p policy recorder]) s =
      run script
        (Lookup.populate p policy recorder request (script s.handled.length k request))
        ((s.read (p.lookupKey request)).handle
          ⟨k, request, script s.handled.length k request⟩) := by
  have hfind : run script (p.find request) s =
      (.ok none, s.read (p.lookupKey request)) := by
    rw [Plan.find, run_find, h]
  simp [throughStages, Lookup.stage, hfind, run_asking, read]

/-! ## Evictions -/

lemma run_runAll {es : List (Eviction C (handlings C) k)} {keys : List Key}
    (h : List.Forall₂ (fun e key => e.evict request = Entry.remove key) es keys) :
    run script (Eviction.runAll recorder request es) s = (some [], keys.foldl remove s) := by
  induction h generalizing s with
  | nil => rfl
  | cons he hes ih => simp [Eviction.runAll, he, run_remove, ih]

/-- What becomes of an outcome when the entries that some keys find are removed after a
success. -/
def leave (removed : List Key) : Outcome C k × Scene C → Outcome C k × Scene C
  | (.ok response, s) => (.ok response, removed.foldl remove s)
  | (.error e, s) => (.error e, s)

/-- Evictions run after a success, one after the other, and change nothing after a failure. -/
theorem run_evictions {es : List (Eviction C (handlings C) k)} {keys : List Key}
    (h : List.Forall₂ (fun e key => e.evict request = Entry.remove key) es keys)
    (handler : Handler C (handlings C) k) (stages : List (Stage C (handlings C) k)) :
    run script (throughStages handler request (Eviction.stage es recorder :: stages)) s =
      leave keys (run script (throughStages handler request stages) s) := by
  simp only [throughStages, Eviction.stage, run_bind, Program.pure_eq_done, run_done]
  rcases run script (throughStages handler request stages) s with ⟨outcome, s⟩
  cases outcome with
  | error e => rfl
  | ok response => simp [Eviction.afterSuccess, run_runAll script s h, leave]

/-! ## Dispatches -/

variable {own : (k : C.Kind) → Eviction C (handlings C) k → Prop}

lemma run_send {S : Service C own} (hk : S.inner.isServed k = true) :
    ∃ evicting looking, run script (S.dispatcher.send k request) s =
      run script (throughStages (asking k) request
        (S.setup.evictionStage k evicting ++ S.setup.lookupStage k looking)) s := by
  obtain ⟨evicting, looking, hroute⟩ := S.exists_route k
  refine ⟨evicting, looking, ?_⟩
  rw [Dispatcher.send, hroute]
  dsimp only
  rw [S.plain.handler_eq hk]
  simp

lemma run_send_unserved {S : Service C own} (hk : S.inner.isServed k = false) :
    run script (S.dispatcher.send k request) s = (.error (.unserved (C.name k)), s) := by
  obtain ⟨evicting, looking, hroute⟩ := S.exists_route k
  have hnone : (S.inner.route k).handler = none := Option.isNone_iff_eq_none.1 (by
    simpa [Dispatcher.isServed] using hk)
  rw [Dispatcher.send, hroute, hnone]
  rfl

lemma run_send_lookup {S : Service C own} (hserved : S.inner.isServed k = true)
    (hp : S.setup.plan k = some p) (hquiet : S.setup.evictions k = []) :
    ∃ looking, run script (S.dispatcher.send k request) s =
      run script (throughStages (asking k) request
        [Lookup.stage p S.setup.policy looking]) s := by
  obtain ⟨evicting, looking, hrun⟩ := run_send script s hserved
  refine ⟨looking, ?_⟩
  rw [hrun]
  simp [CacheSetup.evictionStage, CacheSetup.lookupStage, hquiet, hp]

/-- A dispatch without evictions that finds its response renews what lies under its key. -/
lemma run_send_hit {S : Service C own} (hserved : S.inner.isServed k = true)
    (hp : S.setup.plan k = some p) (hquiet : S.setup.evictions k = []) {response : C.Response k}
    {e : Held} {keys : List String}
    (hlive : s.memory.live? s.clock (p.lookupKey request).text = some e)
    (htext : Bundle.encode (C.codec k) ⟨response, keys⟩ = .ok e.value)
    (hrestores : (C.codec k).Restores response) :
    run script (S.dispatcher.send k request) s =
      (.ok response, s.read (p.lookupKey request)) := by
  obtain ⟨looking, hrun⟩ := run_send_lookup script s hserved hp hquiet
  rw [hrun]
  exact run_lookup_hit script s _ ((found_of_live hlive htext).trans hrestores)

/-- A dispatch without evictions that does not find its response is handled, and the response is
stored. -/
lemma run_send_miss {S : Service C own} (hserved : S.inner.isServed k = true)
    (hp : S.setup.plan k = some p) (hquiet : S.setup.evictions k = []) {response : C.Response k}
    {text : String}
    (hlive : s.memory.live? s.clock (p.lookupKey request).text = none)
    (hscript : script s.handled.length k request = .ok response)
    (hids : p.lookupId request ∈ p.entryIds request response)
    (hperiod : p.expiration.HasPeriod)
    (htext : Bundle.encode (C.codec k)
      ⟨response, Key.texts (p.entryKeys request response)⟩ = .ok text) :
    run script (S.dispatcher.send k request) s =
      (.ok response, ((s.read (p.lookupKey request)).handle ⟨k, request, .ok response⟩).put
        (Key.texts (p.entryKeys request response)) text p.expiration.lifetime) := by
  obtain ⟨looking, hrun⟩ := run_send_lookup script s hserved hp hquiet
  rw [hrun, run_lookup_miss script s (found_of_not_live hlive), hscript]
  have hkeys : p.entryKeys request response ≠ [] :=
    List.ne_nil_of_mem (lookupKey_mem_entryKeys hids)
  exact run_populate_ok script _ hperiod.check hkeys htext

end

end Scene

namespace Demo

/-- What the application of the demonstration makes of requests. -/
def greetings : Script catalogue := fun _ k (number : ℕ) =>
  match k with
  | .greeting => .ok (greetingText number)
  | .reset => .ok ()

lemma restores_greeting (text : String) : (Kind.codec .greeting).Restores text := by
  have hwrite : (Kind.codec .greeting).write text = .ok (.members [("text", .text text)]) := rfl
  exact (Json.Codec.reread_of_write hwrite).trans rfl

end Demo

end RequestCache
