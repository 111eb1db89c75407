/-
# Operations on entries at the same time

Any number of writes, look-ups and removals of entries are on their way at the same time, over one
store.  As with dispatches it is their questions that are interleaved: a read is one step, and of
several changes that are applied at once each is one.  A read or a change may fail, a change that
fails may have been made all the same, and an operation that was cancelled may stop waiting at
any point, whatever of its changes has been made by then (`Progress`).

An operation is confined to keys of its own if it reads and changes no others, as long as what it
reads obeys a law, and puts only what the law allows (`Law.Confines`).  That is shown of each
operation alone.  If all operations are confined, the store obeys the law in every state that can
be reached, and no step of an operation is seen under a key that is not its own
(`Workload.Reachable.orderly`, `Law.ConfinesCourse.progress`).
-/
import RequestCache.Proofs.Provenance

namespace RequestCache

variable {C : Catalogue} {W : Interface} {α β : Type}

/-! ## Steps -/

/-- An operation on entries.  The values are the responses of any kind. -/
inductive Operation (C : Catalogue) where
  | store (k : C.Kind) (value : C.Response k) (keys : List Key) (lifetime : Lifetime)
  | find (k : C.Kind) (key : Key)
  | remove (key : Key)

namespace Operation

/-- What an operation ends with. -/
def Result : Operation C → Type
  | store .. => Except CacheFault Unit
  | find k _ => Except CacheFault (Option (C.Response k))
  | remove _ => Except CacheFault Unit

/-- What an operation does. -/
def action : (o : Operation C) → Action (handlings C) o.Result
  | store k value keys lifetime => Entry.store (C.codec k) value keys lifetime
  | find k key => Entry.find (C.codec k) key
  | remove key => Entry.remove key

end Operation

/-- How far an operation has come. -/
inductive Course (C : Catalogue) (α : Type) where
  /-- This is what is left of it. -/
  | running (p : Action (handlings C) α)
  /-- It waits for changes and goes on with their outcomes. -/
  | changing (flights : List Flight)
    (next : Option (List ChangeOutcome) → Action (handlings C) α)

/-- A step of an operation. -/
inductive Progress (cancelled : Bool) :
    Commons C → Course C α → Commons C → Course C α → Prop
  /-- An effect that is no change is answered. -/
  | ask {c : Commons C} {e : Effect (handlings C)} {x : e.Answer} {m : Memory}
      {next : e.Answer → Action (handlings C) α} (h : Answers cancelled c e x m) :
    Progress cancelled c (.running (.ask e next)) { c with memory := m } (.running (next x))
  /-- Changes begin, all of them at once. -/
  | begin {c : Commons C} {cs : List Change}
      {next : Option (List ChangeOutcome) → Action (handlings C) α} :
    Progress cancelled c (.running (.ask (.apply cs) next)) c (.changing (cs.map .begun) next)
  /-- One of the changes is made. -/
  | land {c : Commons C} {flights : List Flight} {j : ℕ} {change : Change}
      {next : Option (List ChangeOutcome) → Action (handlings C) α}
      (h : flights[j]? = some (.begun change)) :
    Progress cancelled c (.changing flights next)
      { c with memory := (c.memory.change c.clock change).2 }
      (.changing (flights.set j ⟨change, some (c.memory.change c.clock change).1⟩) next)
  /-- One of the changes fails. -/
  | fail {c : Commons C} {flights : List Flight} {j : ℕ} {change : Change}
      {next : Option (List ChangeOutcome) → Action (handlings C) α}
      (h : flights[j]? = some (.begun change)) (fault : StoreFault) {m : Memory}
      (hm : m = c.memory ∨ m = (c.memory.change c.clock change).2) :
    Progress cancelled c (.changing flights next) { c with memory := m }
      (.changing (flights.set j ⟨change, some (.error fault)⟩) next)
  /-- All changes have an outcome. -/
  | finish {c : Commons C} {flights : List Flight} {outcomes : List ChangeOutcome}
      {next : Option (List ChangeOutcome) → Action (handlings C) α}
      (h : flights.map Flight.outcome = outcomes.map some) :
    Progress cancelled c (.changing flights next) c (.running (next (some outcomes)))
  /-- The operation was cancelled and waits no longer; what has not been made never is. -/
  | cut {c : Commons C} {flights : List Flight}
      {next : Option (List ChangeOutcome) → Action (handlings C) α} (h : cancelled = true) :
    Progress cancelled c (.changing flights next) c (.running (next none))

/-- An operation on its way. -/
structure Job (C : Catalogue) where
  operation : Operation C
  /-- Was the operation cancelled? -/
  cancelled : Bool
  course : Course C operation.Result

/-- All operations so far, in the order in which they began, and what they share. -/
structure Workload (C : Catalogue) where
  commons : Commons C
  jobs : List (Job C)

namespace Workload

/-- What happens next, if only operations of a certain sort are begun. -/
inductive Step (may : Operation C → Prop) : Workload C → Workload C → Prop
  /-- An operation begins. -/
  | begin {t : Workload C} (o : Operation C) (h : may o) :
    Step may t { t with jobs := t.jobs ++ [⟨o, false, .running o.action⟩] }
  /-- The clock is set. -/
  | tick {t : Workload C} (now : Instant) :
    Step may t { t with commons := { t.commons with clock := now } }
  /-- The store is cleared of what has ended. -/
  | purge {t : Workload C} :
    Step may t { t with
      commons := { t.commons with memory := (t.commons.memory.purge t.commons.clock).2 } }
  /-- An operation is cancelled. -/
  | cancel {t : Workload C} {i : ℕ} {job : Job C} (h : t.jobs[i]? = some job) :
    Step may t { t with jobs := t.jobs.set i { job with cancelled := true } }
  /-- An operation takes a step. -/
  | progress {t : Workload C} {i : ℕ} {job : Job C} {c : Commons C}
      {course : Course C job.operation.Result} (h : t.jobs[i]? = some job)
      (hprogress : Progress job.cancelled t.commons job.course c course) :
    Step may t { commons := c, jobs := t.jobs.set i { job with course } }

/-- No operation has begun and nothing is stored. -/
def start (now : Instant) : Workload C := ⟨⟨now, ∅, []⟩, []⟩

/-- The states that can be reached from an empty store. -/
def Reachable (may : Operation C → Prop) (t : Workload C) : Prop :=
  ∃ now, Relation.ReflTransGen (Step may) (start now) t

end Workload

/-! ## Confined actions -/

/-- The keys that an effect reads or changes. -/
def Effect.keys : Effect W → List String
  | .read key => [key]
  | .apply cs => cs.map Change.key
  | _ => []

namespace Law

/-- The action reads and changes keys of its own only, puts nothing but what the law allows as
long as what it reads is allowed, and ends with what `post` says. -/
def Confines (L : Law C) (h : History C) (mine : String → Prop) (post : α → Prop) :
    Action (handlings C) α → Prop
  | .done a => post a
  | .ask e next => (L.Admits h e ∧ ∀ key ∈ Effect.keys e, mine key) ∧
    ∀ x, L.Fits h e x → Confines L h mine post (next x)

/-- An operation that waits for changes has begun only such as it may, and will go on like
that. -/
def ConfinesCourse (L : Law C) (h : History C) (mine : String → Prop) : Course C α → Prop
  | .running p => L.Confines h mine (fun _ => True) p
  | .changing flights next =>
    (∀ f ∈ flights, L.Permits h f.change ∧ mine f.change.key) ∧
      ∀ x, L.Confines h mine (fun _ => True) (next x)

variable {L : Law C} {h : History C} {mine : String → Prop} {post : α → Prop}

/-- What follows an action need only be right for the results that the action may have. -/
theorem Confines.bind {mid : α → Prop} {post : β → Prop} {p : Action (handlings C) α}
    {f : α → Action (handlings C) β} (hp : L.Confines h mine mid p)
    (hf : ∀ a, mid a → L.Confines h mine post (f a)) : L.Confines h mine post (p >>= f) := by
  induction p with
  | done a => exact hf a hp
  | ask e next ih => exact ⟨hp.1, fun x hx => ih x (hp.2 x hx)⟩

lemma confines_log (event : Event) :
    L.Confines h mine (fun _ => True) (Action.log event) :=
  ⟨⟨trivial, by simp [Effect.keys]⟩, fun _ _ => trivial⟩

lemma confines_isCancelled : L.Confines h mine (fun _ => True) Action.isCancelled :=
  ⟨⟨trivial, by simp [Effect.keys]⟩, fun _ _ => trivial⟩

lemma confines_measure (recorder : Recorder) (what : Measure) :
    L.Confines h mine (fun _ => True) (Action.measure recorder what) :=
  ⟨⟨trivial, by simp [Effect.keys]⟩, fun _ _ => trivial⟩

lemma confines_work (op : (handlings C).Op) :
    L.Confines h mine (fun _ => True) (Action.work op) :=
  ⟨⟨trivial, by simp [Effect.keys]⟩, fun _ _ => trivial⟩

/-- Dropping the rest of an action keeps it confined. -/
lemma Confines.untilCancelled {p : Action (handlings C) α} (hp : L.Confines h mine post p) :
    L.Confines h mine (fun _ => True) (Action.untilCancelled p) := by
  induction p with
  | done a => trivial
  | ask e next ih =>
    refine ⟨hp.1, fun x hx => ?_⟩
    dsimp only
    split_ifs
    · trivial
    · exact ih x (hp.2 x hx)

lemma Confines.guarded {p : Action (handlings C) α} (hp : L.Confines h mine post p) :
    L.Confines h mine (fun _ => True) (Action.guarded p) := by
  refine confines_isCancelled.bind ?_
  intro cancelled _
  cases cancelled with
  | true => trivial
  | false => exact hp.untilCancelled

lemma confines_content {key : Key} (hkey : mine key.text) :
    L.Confines h mine (fun x => ∀ text, x = .ok (some text) → L.Allows h key.text text)
      (Entry.content key) := by
  have hread : L.Confines h mine
      (fun x => ∀ text, x = some (.ok (some text)) → L.Allows h key.text text)
      (Action.read key.text) :=
    ⟨⟨trivial, by simpa [Effect.keys] using hkey⟩, fun _ hx => hx⟩
  refine hread.bind ?_
  intro x hx
  rcases x with _ | source | found
  · rintro text ⟨⟩
  · rintro text ⟨⟩
  · intro text htext
    have hfound : found = some text := (Option.filter_eq_some_iff.1 (Except.ok.inj htext)).1
    exact hx text (by rw [hfound])

lemma confines_changeAll (operation : String) {change : String → Change} {keys : List String}
    (hall : ∀ x ∈ keys, L.Permits h (change x) ∧ mine (change x).key) :
    L.Confines h mine (fun _ => True) (Entry.changeAll operation change keys) := by
  have happly : L.Confines h mine (fun _ => True) (Action.apply (keys.map change)) := by
    refine ⟨⟨?_, ?_⟩, fun _ _ => trivial⟩
    · intro c hc
      obtain ⟨x, hx, rfl⟩ := List.mem_map.1 hc
      exact (hall x hx).1
    · intro key hkey
      simp only [Effect.keys, List.map_map, List.mem_map] at hkey
      obtain ⟨x, hx, rfl⟩ := hkey
      exact (hall x hx).2
  refine happly.bind ?_
  intro x _
  cases x <;> trivial

lemma confines_find {c : Json.Codec α} {key : Key} (hkey : mine key.text) :
    L.Confines h mine (fun _ => True) (Entry.find c key) := by
  refine (confines_content hkey).bind ?_
  intro x _
  rcases x with e | _ | text
  · trivial
  · trivial
  · dsimp only
    cases Bundle.decode? c text with
    | none => exact (confines_log _).bind fun _ _ => trivial
    | some b => trivial

/-- A removal keeps to its own keys if all texts that its key may hold list such keys. -/
lemma confines_remove {key : Key} (hkey : mine key.text)
    (hlisted : ∀ text listed, L.Allows h key.text text → Bundle.decodeKeys? text = some listed →
      ∀ x ∈ listed, mine x) :
    L.Confines h mine (fun _ => True) (Entry.remove key) := by
  refine (confines_content hkey).bind ?_
  intro x hx
  rcases x with e | _ | text
  · trivial
  · trivial
  · dsimp only
    cases hdecode : Bundle.decodeKeys? text with
    | none =>
      refine (confines_log _).bind fun _ _ => confines_changeAll "remove" ?_
      intro other hother
      rw [List.mem_singleton.1 hother]
      exact ⟨permits_delete key.text, hkey⟩
    | some listed =>
      refine confines_changeAll "remove" ?_
      intro other hother
      refine ⟨permits_delete other, ?_⟩
      unfold Entry.doomed at hother
      split_ifs at hother
      · exact hlisted text listed (hx text rfl) hdecode other hother
      · rcases List.mem_append.1 hother with hmem | hmem
        · exact hlisted text listed (hx text rfl) hdecode other hmem
        · rw [List.mem_singleton.1 hmem]
          exact hkey

lemma confines_store {c : Json.Codec α} {value : α} {keys : List Key} {l : Lifetime}
    (hall : ∀ text, Bundle.encode c ⟨value, Key.texts keys⟩ = .ok text →
      ∀ x ∈ Key.texts keys, L.Allows h x text ∧ mine x) :
    L.Confines h mine (fun _ => True) (Entry.store c value keys l) := by
  rcases Entry.store_cases c value keys l with ⟨outcome, hstore, -⟩ | ⟨text, htext, hstore⟩
  · rw [hstore]
    trivial
  · rw [hstore]
    refine confines_changeAll "set" ?_
    intro x hx
    refine ⟨?_, (hall text htext x hx).2⟩
    rintro _ _ _ ⟨⟩
    exact (hall text htext x hx).1

/-! ## The law in every state -/

/-- An answer leaves the keys alone that it was not asked about. -/
lemma get?_of_answers {cancelled : Bool} {c : Commons C} {e : Effect (handlings C)} {x : e.Answer}
    {m : Memory} (hx : Answers cancelled c e x m) {other : String} (h : other ∉ Effect.keys e) :
    m.get? other = c.memory.get? other := by
  cases hx with
  | read key =>
    have hne : other ≠ key := by simpa [Effect.keys] using h
    rw [Memory.get?_read, if_neg hne]
  | _ => rfl

/-- A step of a confined operation keeps the store lawful and leaves the keys of others alone, and
the operation goes on being confined. -/
theorem ConfinesCourse.progress {cancelled : Bool} {c c' : Commons C} {course course' : Course C α}
    (hcourse : L.ConfinesCourse c.handled mine course) (hc : L.Keeps c.handled c.memory)
    (hprogress : Progress cancelled c course c' course') :
    c'.handled = c.handled ∧ L.Keeps c'.handled c'.memory ∧
      L.ConfinesCourse c'.handled mine course' ∧
      ∀ x, ¬ mine x → c'.memory.get? x = c.memory.get? x := by
  cases hprogress with
  | ask hx =>
    obtain ⟨hfits, hm⟩ := Answers.keeps hx hc
    refine ⟨rfl, hm, hcourse.2 _ hfits, ?_⟩
    intro x hmine
    exact get?_of_answers hx fun hkey => hmine (hcourse.1.2 x hkey)
  | begin =>
    -- what a change was admitted for is kept until it lands, whatever happens in between
    refine ⟨rfl, hc, ⟨?_, fun x => hcourse.2 x trivial⟩, fun _ _ => rfl⟩
    intro f hf
    obtain ⟨change, hchange, rfl⟩ := List.mem_map.1 hf
    exact ⟨hcourse.1.1 change hchange, hcourse.1.2 _ (List.mem_map_of_mem hchange)⟩
  | land hj =>
    have hchange := hcourse.1 _ (List.mem_of_getElem? hj)
    refine ⟨rfl, hc.change hchange.1, ⟨?_, hcourse.2⟩, ?_⟩
    · exact forall_mem_set (P := fun c' => L.Permits c.handled c' ∧ mine c'.key) hcourse.1 hchange
    · intro x hmine
      exact Memory.get?_change_of_ne fun heq => hmine (heq ▸ hchange.2)
  | fail hj fault hm =>
    have hchange := hcourse.1 _ (List.mem_of_getElem? hj)
    refine ⟨rfl, ?_, ⟨?_, hcourse.2⟩, ?_⟩
    · rcases hm with rfl | rfl
      · exact hc
      · exact hc.change hchange.1
    · exact forall_mem_set (P := fun c' => L.Permits c.handled c' ∧ mine c'.key) hcourse.1 hchange
    · intro x hmine
      rcases hm with rfl | rfl
      · rfl
      · exact Memory.get?_change_of_ne fun heq => hmine (heq ▸ hchange.2)
  | finish houtcomes => exact ⟨rfl, hc, hcourse.2 _, fun _ _ => rfl⟩
  | cut hcut => exact ⟨rfl, hc, hcourse.2 _, fun _ _ => rfl⟩

end Law

namespace Workload

variable {L : Law C} {mine : Operation C → String → Prop} {may : Operation C → Prop}
  {t t' : Workload C}

/-- Nothing is handled, the store is lawful, and each operation is confined to its keys. -/
structure Orderly (L : Law C) (mine : Operation C → String → Prop) (t : Workload C) : Prop where
  handled : t.commons.handled = []
  keeps : L.Keeps [] t.commons.memory
  confined : ∀ job ∈ t.jobs, L.ConfinesCourse [] (mine job.operation) job.course

/-- One step: if every operation is confined when it begins, all stay so. -/
lemma Orderly.step (ht : t.Orderly L mine)
    (hbegin : ∀ o, may o → L.Confines [] (mine o) (fun _ => True) o.action)
    (hstep : Step may t t') : t'.Orderly L mine := by
  cases hstep with
  | begin o ho =>
    refine ⟨ht.handled, ht.keeps, ?_⟩
    intro job hjob
    rcases List.mem_append.1 hjob with hmem | hlast
    · exact ht.confined job hmem
    · rw [List.mem_singleton.1 hlast]
      exact hbegin o ho
  | tick now => exact ⟨ht.handled, ht.keeps, ht.confined⟩
  | purge => exact ⟨ht.handled, ht.keeps.purge _, ht.confined⟩
  | @cancel i job hi =>
    refine ⟨ht.handled, ht.keeps, ?_⟩
    intro other hother
    rcases List.mem_or_eq_of_mem_set hother with hmem | rfl
    · exact ht.confined other hmem
    · exact ht.confined job (List.mem_of_getElem? hi)
  | @progress i job c course hi hprogress =>
    have hcourse := ht.confined job (List.mem_of_getElem? hi)
    have hkeeps := ht.keeps
    rw [← ht.handled] at hcourse hkeeps
    obtain ⟨hhandled, hkeeps', hcourse', -⟩ := hcourse.progress hkeeps hprogress
    rw [hhandled, ht.handled] at hkeeps' hcourse'
    refine ⟨hhandled.trans ht.handled, hkeeps', ?_⟩
    -- the other operations have not moved, and nothing was handled
    intro other hother
    rcases List.mem_or_eq_of_mem_set hother with hmem | rfl
    · exact ht.confined other hmem
    · exact hcourse'

/-- If every operation is confined when it begins, the store is lawful in every state that can
be reached, and all operations are still confined. -/
theorem Reachable.orderly (ht : t.Reachable may)
    (hbegin : ∀ o, may o → L.Confines [] (mine o) (fun _ => True) o.action) :
    t.Orderly L mine := by
  obtain ⟨now, hsteps⟩ := ht
  induction hsteps with
  | refl =>
    refine ⟨rfl, ?_, ?_⟩
    · rintro key e he
      cases he
    · rintro job hjob
      cases hjob
  | tail _ hstep ih => exact ih.step hbegin hstep

/-- A step of an operation is not seen under a key that is not its own. -/
lemma Orderly.get?_progress (ht : t.Orderly L mine) {job : Job C} (hjob : job ∈ t.jobs)
    {c : Commons C} {course : Course C job.operation.Result}
    (hprogress : Progress job.cancelled t.commons job.course c course) {x : String}
    (hx : ¬ mine job.operation x) : c.memory.get? x = t.commons.memory.get? x := by
  have hcourse := ht.confined job hjob
  have hkeeps := ht.keeps
  rw [← ht.handled] at hcourse hkeeps
  exact (hcourse.progress hkeeps hprogress).2.2.2 x hx

end Workload

end RequestCache
