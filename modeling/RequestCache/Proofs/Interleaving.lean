/-
# Requests at the same time

Any number of requests are on their way at the same time, over one store.  What a dispatch does
between two of its questions nobody sees, so it is the questions that are interleaved: a read is
one step, and of several changes that are applied at once each is one (`Answers`, `Turn`).  A
read or a change may fail instead, what waits may be cut short once the dispatch is cancelled,
and between the steps of dispatches new ones are sent, the clock is set to any instant and the
store is cleared of what has ended (`Step`).

A law says which texts may stand under which keys, given what was handled so far (`Law`).  An
action upholds it if it only ever puts texts that the law allows, as long as it reads such
texts, and whatever is handled in between (`Law.Upholds`).  That is shown of an action alone,
part by part.  If all dispatches uphold the law, the store is lawful in every state that can be
reached, and each dispatch ends with what it promised (`Law.governs_of_reachable`).

A dispatch that no other one comes between may run as it does on a scene
(`Traffic.Reachable.exists_send`), so what is known of requests one after the other is known of
some interleavings.
-/
import Mathlib.Logic.Relation
import RequestCache.Proofs.Calm

namespace RequestCache

variable {C : Catalogue} {α β : Type} {k : C.Kind}

/-- The requests that were handled, the latest first, each with the number of its dispatch. -/
abbrev History (C : Catalogue) := List (ℕ × Handling C)

/-- What dispatches share. -/
structure Commons (C : Catalogue) where
  /-- The time. -/
  clock : Instant
  /-- The store. -/
  memory : Memory
  /-- The requests that were handled. -/
  handled : History C

/-- The history after dispatch `i` was given an answer. -/
def History.note (i : ℕ) (h : History C) : (e : Effect (handlings C)) → e.Answer → History C
  | .work op, some outcome => (i, ⟨op.1, op.2, outcome⟩) :: h
  | _, _ => h

/-- The answers to effects other than changes, and the store that each of them leaves. -/
inductive Answers (cancelled : Bool) (c : Commons C) :
    (e : Effect (handlings C)) → e.Answer → Memory → Prop
  | isCancelled : Answers cancelled c .isCancelled cancelled c.memory
  | log (event : Event) : Answers cancelled c (.log event) () c.memory
  | measure (recorder : Recorder) (what : Measure) :
    Answers cancelled c (.measure recorder what) () c.memory
  | read (key : String) :
    Answers cancelled c (.read key) (some (.ok (c.memory.read c.clock key).1))
      (c.memory.read c.clock key).2
  | readFails (key : String) (fault : StoreFault) :
    Answers cancelled c (.read key) (some (.error fault)) c.memory
  | readCut (key : String) (h : cancelled = true) : Answers cancelled c (.read key) none c.memory
  | work (op : (handlings C).Op) (outcome : Outcome C op.1) :
    Answers cancelled c (.work op) (some outcome) c.memory
  | workCut (op : (handlings C).Op) (h : cancelled = true) :
    Answers cancelled c (.work op) none c.memory

/-- One of several changes that are applied at once, with its outcome when it has one. -/
structure Flight where
  change : Change
  outcome : Option ChangeOutcome

/-- A change that has begun. -/
def Flight.begun (change : Change) : Flight := ⟨change, none⟩

/-- How far a dispatch has come. -/
inductive Thread (C : Catalogue) (k : C.Kind) where
  /-- This is what is left of it. -/
  | running (p : Action (handlings C) (Outcome C k))
  /-- It waits for changes and goes on with their outcomes. -/
  | changing (flights : List Flight)
    (next : Option (List ChangeOutcome) → Action (handlings C) (Outcome C k))

/-- A step of dispatch `i`.  A change that fails may have been made all the same. -/
inductive Turn (i : ℕ) (cancelled : Bool) :
    Commons C → Thread C k → Commons C → Thread C k → Prop
  /-- An effect that is no change is answered. -/
  | ask {c : Commons C} {e : Effect (handlings C)} {x : e.Answer} {m : Memory}
      {next : e.Answer → Action (handlings C) (Outcome C k)} (h : Answers cancelled c e x m) :
    Turn i cancelled c (.running (.ask e next))
      { c with memory := m, handled := c.handled.note i e x } (.running (next x))
  /-- Changes begin, all of them at once. -/
  | begin {c : Commons C} {cs : List Change}
      {next : Option (List ChangeOutcome) → Action (handlings C) (Outcome C k)} :
    Turn i cancelled c (.running (.ask (.apply cs) next)) c
      (.changing (cs.map .begun) next)
  /-- One of the changes is made. -/
  | land {c : Commons C} {flights : List Flight} {j : ℕ} {change : Change}
      {next : Option (List ChangeOutcome) → Action (handlings C) (Outcome C k)}
      (h : flights[j]? = some (.begun change)) :
    Turn i cancelled c (.changing flights next)
      { c with memory := (c.memory.change c.clock change).2 }
      (.changing (flights.set j ⟨change, some (c.memory.change c.clock change).1⟩) next)
  /-- One of the changes fails. -/
  | fail {c : Commons C} {flights : List Flight} {j : ℕ} {change : Change}
      {next : Option (List ChangeOutcome) → Action (handlings C) (Outcome C k)}
      (h : flights[j]? = some (.begun change)) (fault : StoreFault) {m : Memory}
      (hm : m = c.memory ∨ m = (c.memory.change c.clock change).2) :
    Turn i cancelled c (.changing flights next) { c with memory := m }
      (.changing (flights.set j ⟨change, some (.error fault)⟩) next)
  /-- All changes have an outcome. -/
  | finish {c : Commons C} {flights : List Flight} {outcomes : List ChangeOutcome}
      {next : Option (List ChangeOutcome) → Action (handlings C) (Outcome C k)}
      (h : flights.map Flight.outcome = outcomes.map some) :
    Turn i cancelled c (.changing flights next) c (.running (next (some outcomes)))
  /-- The dispatch was cancelled and waits no longer; what has not been made never is. -/
  | cut {c : Commons C} {flights : List Flight}
      {next : Option (List ChangeOutcome) → Action (handlings C) (Outcome C k)}
      (h : cancelled = true) :
    Turn i cancelled c (.changing flights next) c (.running (next none))

/-- A dispatch on its way. -/
structure Task (C : Catalogue) where
  kind : C.Kind
  request : C.Request kind
  /-- Was the dispatch cancelled? -/
  cancelled : Bool
  thread : Thread C kind

/-- All dispatches so far, in the order in which they were sent, and what they share. -/
structure Traffic (C : Catalogue) where
  commons : Commons C
  tasks : List (Task C)

variable {own : (k : C.Kind) → Eviction C (handlings C) k → Prop}

/-- What happens next. -/
inductive Step (S : Service C own) : Traffic C → Traffic C → Prop
  /-- A request is sent. -/
  | send {t : Traffic C} (k : C.Kind) (request : C.Request k) :
    Step S t
      { t with
        tasks := t.tasks ++
          [{ kind := k, request, cancelled := false
             thread := .running (S.dispatcher.send k request) }] }
  /-- The clock is set. -/
  | tick {t : Traffic C} (now : Instant) :
    Step S t { t with commons := { t.commons with clock := now } }
  /-- The store is cleared of what has ended. -/
  | purge {t : Traffic C} :
    Step S t { t with
      commons := { t.commons with memory := (t.commons.memory.purge t.commons.clock).2 } }
  /-- A dispatch is cancelled. -/
  | cancel {t : Traffic C} {i : ℕ} {task : Task C} (h : t.tasks[i]? = some task) :
    Step S t { t with tasks := t.tasks.set i { task with cancelled := true } }
  /-- A dispatch takes a step. -/
  | turn {t : Traffic C} {i : ℕ} {task : Task C} {c : Commons C} {thread : Thread C task.kind}
      (h : t.tasks[i]? = some task)
      (hturn : Turn i task.cancelled t.commons task.thread c thread) :
    Step S t { commons := c, tasks := t.tasks.set i { task with thread } }

/-- Nothing was sent and nothing is stored. -/
def Traffic.start (now : Instant) : Traffic C := ⟨⟨now, ∅, []⟩, []⟩

/-- The states that a service can come to when it starts with an empty store. -/
def Traffic.Reachable (S : Service C own) (t : Traffic C) : Prop :=
  ∃ now, Relation.ReflTransGen (Step S) (.start now) t

lemma History.subset_note (i : ℕ) (h : History C) (e : Effect (handlings C)) (x : e.Answer) :
    h ⊆ h.note i e x := by
  cases e with
  | work op =>
    cases x with
    | none => exact List.Subset.refl h
    | some outcome => exact List.subset_cons_self _ _
  | _ => exact List.Subset.refl h

/-- Nothing that was handled is forgotten. -/
lemma Turn.handled_subset {i : ℕ} {cancelled : Bool} {c c' : Commons C} {th th' : Thread C k}
    (h : Turn i cancelled c th c' th') : c.handled ⊆ c'.handled := by
  cases h with
  | ask h => exact History.subset_note i c.handled _ _
  | _ => exact List.Subset.refl c.handled

/-! ## Left alone -/

/-- The scene that is shared. -/
def Commons.scene (c : Commons C) : Scene C := ⟨c.clock, c.memory, c.handled.map Prod.snd⟩

lemma Commons.handled_scene {c c' : Commons C} {i : ℕ} {handled : List (Handling C)}
    (h : c'.handled = handled.map (Prod.mk i) ++ c.handled) :
    c'.scene.handled = handled ++ c.scene.handled := by
  simp [scene, h, Function.comp_def]

/-- Several steps of dispatch `i`, one after the other. -/
def Turns (i : ℕ) (cancelled : Bool) : Commons C × Thread C k → Commons C × Thread C k → Prop :=
  Relation.ReflTransGen fun a b => Turn i cancelled a.1 a.2 b.1 b.2

/-- The first change that has no outcome yet may be made. -/
lemma Turn.land_next {i : ℕ} {cancelled : Bool} {c : Commons C} (landed : List Flight)
    (change : Change) (rest : List Flight)
    (next : Option (List ChangeOutcome) → Action (handlings C) (Outcome C k)) :
    Turn i cancelled c (.changing (landed ++ .begun change :: rest) next)
      { c with memory := (c.memory.change c.clock change).2 }
      (.changing (landed ++ ⟨change, some (c.memory.change c.clock change).1⟩ :: rest) next) := by
  have hset : ∀ f : Flight,
      landed ++ f :: rest = (landed ++ .begun change :: rest).set landed.length f := by simp
  rw [hset ⟨change, some (c.memory.change c.clock change).1⟩]
  exact .land (by simp)

/-- Changes may be made in the order in which they began. -/
lemma exists_turns_changes (i : ℕ) (cs : List Change) (landed : List Flight) (c : Commons C)
    (next : Option (List ChangeOutcome) → Action (handlings C) (Outcome C k)) :
    ∃ flights : List Flight,
      flights.map Flight.outcome =
        landed.map Flight.outcome ++ (c.memory.changes c.clock cs).1.map some ∧
      Turns i false (c, .changing (landed ++ cs.map .begun) next)
        ({ c with memory := (c.memory.changes c.clock cs).2 }, .changing flights next) := by
  induction cs generalizing landed c with
  | nil =>
    refine ⟨landed, by simp [Memory.changes], ?_⟩
    rw [List.map_nil, List.append_nil]
    exact .refl
  | cons change cs ih =>
    -- the first change lands, and the others follow in the store that it leaves
    set o := c.memory.change c.clock change with ho
    obtain ⟨flights, houtcomes, hturns⟩ :=
      ih (landed ++ [⟨change, some o.1⟩]) { c with memory := o.2 }
    refine ⟨flights, ?_, .head ?_ hturns⟩
    · rw [houtcomes]
      simp [Memory.changes, ← ho]
    · rw [List.append_assoc]
      exact .land_next landed change (cs.map Flight.begun) next

/-- Every effect may be answered as on a scene. -/
lemma exists_turns_answer (script : Script C) (i : ℕ) (e : Effect (handlings C))
    (next : e.Answer → Action (handlings C) (Outcome C k)) (c : Commons C) :
    ∃ (c' : Commons C) (handled : List (Handling C)),
      Turns i false (c, .running (.ask e next))
        (c', .running (next (Scene.answer script e c.scene).1)) ∧
      c'.scene = (Scene.answer script e c.scene).2 ∧
      c'.handled = handled.map (Prod.mk i) ++ c.handled := by
  cases e with
  | isCancelled => exact ⟨c, [], .single (.ask .isCancelled), rfl, rfl⟩
  | log event => exact ⟨c, [], .single (.ask (.log event)), rfl, rfl⟩
  | measure recorder what => exact ⟨c, [], .single (.ask (.measure recorder what)), rfl, rfl⟩
  | read key => exact ⟨_, [], .single (.ask (.read key)), rfl, rfl⟩
  | work op =>
    exact ⟨_, [⟨op.1, op.2, script c.scene.handled.length op.1 op.2⟩],
      .single (.ask (.work op (script c.scene.handled.length op.1 op.2))), rfl, rfl⟩
  | apply cs =>
    obtain ⟨flights, houtcomes, hturns⟩ := exists_turns_changes i cs [] c next
    exact ⟨{ c with memory := (c.memory.changes c.clock cs).2 }, [],
      .head .begin (hturns.tail (.finish houtcomes)), rfl, rfl⟩

/-- A dispatch that is left alone and not cancelled may run as on a scene. -/
theorem exists_turns_run (script : Script C) (i : ℕ) (p : Action (handlings C) (Outcome C k))
    (c : Commons C) :
    ∃ (c' : Commons C) (handled : List (Handling C)),
      Turns i false (c, .running p) (c', .running (.done (c.scene.run script p).1)) ∧
      c'.scene = (c.scene.run script p).2 ∧
      c'.handled = handled.map (Prod.mk i) ++ c.handled := by
  induction p generalizing c with
  | done a => exact ⟨c, [], .refl, rfl, rfl⟩
  | ask e next ih =>
    -- one answer as on the scene, and the rest of the dispatch from where it leads
    obtain ⟨c₁, first, hfirst, hscene, hhandled⟩ := exists_turns_answer script i e next c
    obtain ⟨c₂, rest, hrest, hscene', hhandled'⟩ := ih (Scene.answer script e c.scene).1 c₁
    rw [hscene] at hrest hscene'
    refine ⟨c₂, rest ++ first, hfirst.trans hrest, hscene', ?_⟩
    rw [hhandled', hhandled, List.map_append, List.append_assoc]

section

variable {S : Service C own}

lemma Step.turns {t : Traffic C} {i : ℕ} {task : Task C} {c : Commons C}
    {thread : Thread C task.kind} (hi : t.tasks[i]? = some task)
    (h : Turns i task.cancelled (t.commons, task.thread) (c, thread)) :
    Relation.ReflTransGen (Step S) t
      { commons := c, tasks := t.tasks.set i { task with thread } } := by
  obtain ⟨hlength, htask⟩ := List.getElem?_eq_some_iff.1 hi
  generalize hb : (c, thread) = b at h
  induction h generalizing c thread with
  | refl =>
    cases hb
    rw [show ({ task with thread := task.thread } : Task C) = task from rfl, ← htask,
      List.set_getElem_self]
  | @tail b b' hturns hturn ih =>
    subst hb
    have hmid : (t.tasks.set i { task with thread := b.2 })[i]? =
        some { task with thread := b.2 } := List.getElem?_set_self hlength
    have hstep := Step.turn (S := S)
      (t := { commons := b.1, tasks := t.tasks.set i { task with thread := b.2 } }) hmid hturn
    rw [List.set_set] at hstep
    exact (ih rfl).tail hstep

/-- A request that is sent and left alone is answered as on a scene. -/
theorem Traffic.Reachable.exists_send {t : Traffic C} (ht : t.Reachable S) (script : Script C)
    (k : C.Kind) (request : C.Request k) :
    ∃ (c : Commons C) (handled : List (Handling C)),
      Traffic.Reachable S
        { commons := c
          tasks := t.tasks ++
            [{ kind := k, request, cancelled := false
               thread := .running (.done
                (t.commons.scene.run script (S.dispatcher.send k request)).1) }] } ∧
      c.scene = (t.commons.scene.run script (S.dispatcher.send k request)).2 ∧
      c.handled = handled.map (Prod.mk t.tasks.length) ++ t.commons.handled := by
  obtain ⟨now, hsteps⟩ := ht
  obtain ⟨c, handled, hturns, hscene, hhandled⟩ :=
    exists_turns_run script t.tasks.length (S.dispatcher.send k request) t.commons
  refine ⟨c, handled, ⟨now, ?_⟩, hscene, hhandled⟩
  have hlast := Step.turns (S := S) (t := { t with
      tasks := t.tasks ++ [{ kind := k, request, cancelled := false
                             thread := .running (S.dispatcher.send k request) }] })
    (List.getElem?_concat_length) hturns
  rw [List.set_append_right _ _ (Nat.le_refl _), Nat.sub_self, List.set_cons_zero] at hlast
  exact (hsteps.tail (.send k request)).trans hlast

end

/-! ## Laws -/

/-- Which texts may stand under which keys.  The more was handled, the more texts. -/
structure Law (C : Catalogue) where
  Allows : History C → (key text : String) → Prop
  mono : ∀ {h h' key text}, h ⊆ h' → Allows h key text → Allows h' key text

namespace Law

variable (L : Law C)

/-- All texts that are kept are allowed. -/
def Keeps (h : History C) (m : Memory) : Prop :=
  ∀ key e, m.get? key = some e → L.Allows h key e.value

/-- What a change puts is allowed. -/
def Permits (h : History C) (c : Change) : Prop :=
  ∀ key text l, c = .put key text l → L.Allows h key text

/-- What an effect puts is allowed. -/
def Admits (h : History C) : Effect (handlings C) → Prop
  | .apply cs => ∀ c ∈ cs, L.Permits h c
  | _ => True

/-- What an answer tells from the store is allowed. -/
def Fits (h : History C) : (e : Effect (handlings C)) → e.Answer → Prop
  | .read key, x => ∀ text, x = some (.ok (some text)) → L.Allows h key text
  | _, _ => True

/-- The action of dispatch `i` puts nothing but what the law allows, and ends with what `post`
says.  The history may grow before each answer. -/
def Upholds (i : ℕ) (post : History C → α → Prop) : Action (handlings C) α → History C → Prop
  | .done a, h => post h a
  | .ask e next, h => L.Admits h e ∧
    ∀ h', h ⊆ h' → ∀ x, L.Fits h' e x → Upholds i post (next x) (h'.note i e x)

/-- A dispatch that waits for changes has put only what is allowed, and will go on like that. -/
def UpheldBy (i : ℕ) (post : History C → Outcome C k → Prop) (h : History C) :
    Thread C k → Prop
  | .running p => L.Upholds i post p h
  | .changing flights next => (∀ f ∈ flights, L.Permits h f.change) ∧
    ∀ h', h ⊆ h' → ∀ x, L.Upholds i post (next x) h'

variable {L} {i : ℕ} {h h' : History C}

lemma Keeps.mono {m : Memory} (hm : L.Keeps h m) (hsub : h ⊆ h') : L.Keeps h' m :=
  fun key e he => L.mono hsub (hm key e he)

lemma Permits.mono {c : Change} (hc : L.Permits h c) (hsub : h ⊆ h') : L.Permits h' c :=
  fun key text l heq => L.mono hsub (hc key text l heq)

lemma Admits.mono {e : Effect (handlings C)} (he : L.Admits h e) (hsub : h ⊆ h') :
    L.Admits h' e := by
  cases e with
  | apply cs => exact fun c hc => (he c hc).mono hsub
  | _ => trivial

/-! ## Actions that uphold a law -/

lemma Upholds.mono {post : History C → α → Prop}
    (hpost : ∀ ⦃h h' a⦄, h ⊆ h' → post h a → post h' a) {p : Action (handlings C) α}
    (hp : L.Upholds i post p h) (hsub : h ⊆ h') : L.Upholds i post p h' := by
  cases p with
  | done a => exact hpost hsub hp
  | ask e next =>
    refine ⟨hp.1.mono hsub, fun h'' hsub' x hx => ?_⟩
    exact hp.2 h'' (List.Subset.trans hsub hsub') x hx

/-- What follows an action need only be right for the results that the action may have. -/
theorem Upholds.bind {mid : History C → α → Prop} {post : History C → β → Prop}
    {p : Action (handlings C) α} {f : α → Action (handlings C) β} (hp : L.Upholds i mid p h)
    (hf : ∀ h', h ⊆ h' → ∀ a, mid h' a → L.Upholds i post (f a) h') :
    L.Upholds i post (p >>= f) h := by
  induction p generalizing h with
  | done a => exact hf h (List.Subset.refl h) a hp
  | ask e next ih =>
    -- what follows is asked about a history that has grown twice: before the answer and by it
    refine ⟨hp.1, fun h' hsub x hx => ih x (hp.2 h' hsub x hx) fun h'' hsub' a ha => ?_⟩
    have hnote : h ⊆ h'.note i e x := List.Subset.trans hsub (History.subset_note i h' e x)
    exact hf h'' (List.Subset.trans hnote hsub') a ha

lemma Upholds.weaken {post post' : History C → α → Prop} {p : Action (handlings C) α}
    (hp : L.Upholds i post p h) (himp : ∀ h', h ⊆ h' → ∀ a, post h' a → post' h' a) :
    L.Upholds i post' p h := by
  have hbind : L.Upholds i post' (p >>= .done) h := hp.bind himp
  rwa [show p >>= Program.done = p from Program.bind_done p] at hbind

lemma upholds_isCancelled : L.Upholds i (fun _ _ => True) Action.isCancelled h :=
  ⟨trivial, fun _ _ _ _ => trivial⟩

lemma upholds_log (event : Event) : L.Upholds i (fun _ _ => True) (Action.log event) h :=
  ⟨trivial, fun _ _ _ _ => trivial⟩

lemma upholds_measure (recorder : Recorder) (what : Measure) :
    L.Upholds i (fun _ _ => True) (Action.measure recorder what) h :=
  ⟨trivial, fun _ _ _ _ => trivial⟩

lemma upholds_read (key : String) :
    L.Upholds i (fun h x => ∀ text, x = some (.ok (some text)) → L.Allows h key text)
      (Action.read key) h :=
  ⟨trivial, fun _ _ _ hx => hx⟩

lemma upholds_apply {cs : List Change} (hcs : ∀ c ∈ cs, L.Permits h c) :
    L.Upholds i (fun _ _ => True) (Action.apply cs) h :=
  ⟨hcs, fun _ _ _ _ => trivial⟩

lemma upholds_work (op : (handlings C).Op) :
    L.Upholds i (fun h x => ∀ outcome, x = some outcome → (i, ⟨op.1, op.2, outcome⟩) ∈ h)
      (Action.work op) h := by
  refine ⟨trivial, fun h' _ x _ outcome hx => ?_⟩
  cases hx
  exact List.mem_cons_self

/-- Dropping the rest of an action keeps to the law. -/
lemma Upholds.untilCancelled {post : History C → α → Prop} {p : Action (handlings C) α}
    (hp : L.Upholds i post p h) :
    L.Upholds i (fun h x => ∀ a, x = some a → post h a) (Action.untilCancelled p) h := by
  induction p generalizing h with
  | done a =>
    rintro b hb
    cases hb
    exact hp
  | ask e next ih =>
    refine ⟨hp.1, fun h' hsub x hx => ?_⟩
    dsimp only
    split_ifs with hcut
    · rintro b hb
      cases hb
    · exact ih x (hp.2 h' hsub x hx)

lemma Upholds.guarded {post : History C → α → Prop}
    (hpost : ∀ ⦃h h' a⦄, h ⊆ h' → post h a → post h' a) {p : Action (handlings C) α}
    (hp : L.Upholds i post p h) :
    L.Upholds i (fun h x => ∀ a, x = some a → post h a) (Action.guarded p) h := by
  refine upholds_isCancelled.bind fun h' hsub cancelled _ => ?_
  cases cancelled with
  | true =>
    rintro a ha
    cases ha
  | false => exact (hp.mono hpost hsub).untilCancelled

/-! ## The law in every state -/

lemma Answers.keeps {cancelled : Bool} {c : Commons C} {e : Effect (handlings C)} {x : e.Answer}
    {m : Memory} (hx : Answers cancelled c e x m) (hc : L.Keeps c.handled c.memory) :
    L.Fits c.handled e x ∧ L.Keeps c.handled m := by
  cases hx with
  | read key =>
    constructor
    · intro text htext
      have hvalue : (c.memory.read c.clock key).1 = some text :=
        Except.ok.inj (Option.some.inj htext)
      rw [Memory.read_value] at hvalue
      obtain ⟨e, hlive, rfl⟩ := Option.map_eq_some_iff.1 hvalue
      exact hc key e (Memory.live?_eq_some_iff.1 hlive).1
    · intro other e he
      obtain ⟨e', he', hvalue⟩ := Memory.exists_get?_of_get?_read he
      rw [← hvalue]
      exact hc other e' he'
  | readFails key fault =>
    refine ⟨?_, hc⟩
    rintro text htext
    cases htext
  | readCut key hcut =>
    refine ⟨?_, hc⟩
    rintro text htext
    cases htext
  | _ => exact ⟨trivial, hc⟩

/-- A change that is permitted keeps the store lawful. -/
lemma Keeps.change {m : Memory} {now : Instant} {c : Change} (hm : L.Keeps h m)
    (hc : L.Permits h c) : L.Keeps h (m.change now c).2 := by
  intro key e he
  rcases Memory.exists_get?_of_get?_change he with hbefore | ⟨l, hput⟩
  · exact hm key e hbefore
  · exact hc key e.value l hput

/-- A store that is cleared of what has ended stays lawful. -/
lemma Keeps.purge {m : Memory} (hm : L.Keeps h m) (now : Instant) : L.Keeps h (m.purge now).2 := by
  intro key e he
  rw [Memory.get?_purge] at he
  exact hm key e (Memory.live?_eq_some_iff.1 he).1

/-- An outcome does not make a change another one. -/
lemma forall_mem_set {P : Change → Prop} {flights : List Flight} {j : ℕ} {change : Change}
    {outcome : Option ChangeOutcome} (hall : ∀ f ∈ flights, P f.change) (hchange : P change) :
    ∀ f ∈ flights.set j ⟨change, outcome⟩, P f.change := by
  intro f hf
  rcases List.mem_or_eq_of_mem_set hf with hmem | rfl
  · exact hall f hmem
  · exact hchange

/-- A step of a dispatch keeps the store lawful, and the dispatch goes on upholding the law. -/
theorem UpheldBy.turn {post : History C → Outcome C k → Prop} {cancelled : Bool}
    {c c' : Commons C} {th th' : Thread C k} (hth : L.UpheldBy i post c.handled th)
    (hc : L.Keeps c.handled c.memory) (hturn : Turn i cancelled c th c' th') :
    L.Keeps c'.handled c'.memory ∧ L.UpheldBy i post c'.handled th' := by
  cases hturn with
  | ask hx =>
    obtain ⟨hfits, hm⟩ := Answers.keeps hx hc
    exact ⟨hm.mono (History.subset_note i c.handled _ _),
      hth.2 c.handled (List.Subset.refl _) _ hfits⟩
  | begin =>
    refine ⟨hc, fun f hf => ?_, fun h' hsub x => hth.2 h' hsub x trivial⟩
    obtain ⟨change, hchange, rfl⟩ := List.mem_map.1 hf
    exact hth.1 change hchange
  | land hj =>
    have hchange := hth.1 _ (List.mem_of_getElem? hj)
    exact ⟨hc.change hchange, forall_mem_set (P := L.Permits c.handled) hth.1 hchange, hth.2⟩
  | fail hj fault hm =>
    have hchange := hth.1 _ (List.mem_of_getElem? hj)
    refine ⟨?_, forall_mem_set (P := L.Permits c.handled) hth.1 hchange, hth.2⟩
    rcases hm with rfl | rfl
    · exact hc
    · exact hc.change hchange
  | finish houtcomes => exact ⟨hc, hth.2 c.handled (List.Subset.refl _) _⟩
  | cut hcut => exact ⟨hc, hth.2 c.handled (List.Subset.refl _) _⟩

lemma UpheldBy.mono {post : History C → Outcome C k → Prop}
    (hpost : ∀ ⦃h h' a⦄, h ⊆ h' → post h a → post h' a) {th : Thread C k}
    (hth : L.UpheldBy i post h th) (hsub : h ⊆ h') : L.UpheldBy i post h' th := by
  cases th with
  | running p => exact Upholds.mono hpost hth hsub
  | changing flights next =>
    exact ⟨fun f hf => (hth.1 f hf).mono hsub,
      fun h'' hsub' x => hth.2 h'' (List.Subset.trans hsub hsub') x⟩

variable (L) in
/-- The store is lawful, and all dispatches uphold the law. -/
structure Governs (post : (i : ℕ) → (k : C.Kind) → C.Request k → History C → Outcome C k → Prop)
    (t : Traffic C) : Prop where
  keeps : L.Keeps t.commons.handled t.commons.memory
  upheld : ∀ i task, t.tasks[i]? = some task →
    L.UpheldBy i (post i task.kind task.request) t.commons.handled task.thread

section

variable {post : (i : ℕ) → (k : C.Kind) → C.Request k → History C → Outcome C k → Prop}
  {own : (k : C.Kind) → Eviction C (handlings C) k → Prop} {S : Service C own}

/-- One step: if every dispatch upholds the law when it is sent, all go on doing so. -/
theorem Governs.step
    (hmono : ∀ i k request ⦃h h' a⦄, h ⊆ h' → post i k request h a → post i k request h' a)
    (hsend : ∀ i k request h, L.Upholds i (post i k request) (S.dispatcher.send k request) h)
    {t t' : Traffic C} (ht : L.Governs post t) (hstep : Step S t t') : L.Governs post t' := by
  cases hstep with
  | send k request =>
    refine ⟨ht.keeps, fun i task htask => ?_⟩
    rw [List.getElem?_append, List.getElem?_singleton] at htask
    split_ifs at htask with hi hlast
    · exact ht.upheld i task htask
    · cases htask
      exact hsend i k request _
  | tick now => exact ⟨ht.keeps, ht.upheld⟩
  | purge => exact ⟨ht.keeps.purge _, ht.upheld⟩
  | @cancel i task hi =>
    refine ⟨ht.keeps, fun j other hother => ?_⟩
    rw [List.getElem?_set] at hother
    split_ifs at hother with hj hlength
    · cases hother
      subst hj
      exact ht.upheld i task hi
    · exact ht.upheld j other hother
  | @turn i task c thread hi hturn =>
    obtain ⟨hkeeps, hthread⟩ := (ht.upheld i task hi).turn ht.keeps hturn
    refine ⟨hkeeps, fun j other hother => ?_⟩
    rw [List.getElem?_set] at hother
    split_ifs at hother with hj hlength
    · cases hother
      subst hj
      exact hthread
    · -- the other dispatches have not moved, but the history may have grown
      exact (ht.upheld j other hother).mono (hmono j _ _) hturn.handled_subset

/-- If every dispatch upholds the law, it governs every state that can be reached. -/
theorem governs_of_reachable
    (hmono : ∀ i k request ⦃h h' a⦄, h ⊆ h' → post i k request h a → post i k request h' a)
    (hsend : ∀ i k request h, L.Upholds i (post i k request) (S.dispatcher.send k request) h)
    {t : Traffic C} (ht : t.Reachable S) : L.Governs post t := by
  obtain ⟨now, hsteps⟩ := ht
  induction hsteps with
  | refl =>
    constructor
    · rintro key e he
      cases he
    · rintro i task htask
      cases htask
  | tail _ hstep ih => exact ih.step hmono hsend hstep

end

end Law

end RequestCache
