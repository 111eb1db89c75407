/-
# When a cached request is handled again

One and the same request is sent at instants that never go back, and nothing else happens.  The
rule for when it is handled (`Expiration.IsDue`) speaks of these instants alone; that the cache
keeps to it (`handlesAt_iff_isDue`) rests on one invariant between two visits (`Holds`): under
the key of the request lies what its latest handling wrote, renewed by the latest visit.  An
entry whose deadline was over when it was written is not there at all, and the rule says that
the request is due again at once.
-/
import RequestCache.Proofs.Calm

namespace RequestCache

/-- Is a request that is sent at the instants `t`, and handled at the visits of `handles`, to be
handled at visit `i`? -/
def Expiration.IsDue (x : Expiration) (t : ℕ → Instant) (handles : ℕ → Prop) (i : ℕ) : Prop :=
  i = 0 ∨
    match x with
    | .never => False
    | .at end_ => end_ ≤ t i
    | .afterWrite d => ∃ j < i, handles j ∧ (∀ m, j < m → m < i → ¬ handles m) ∧
        ∃ end_, (t j).add? d = some end_ ∧ end_ ≤ t i
    | .sliding d => (t (i - 1)).nanos + d.nanos ≤ (t i).nanos

/-- Is what was written at one instant and last read at another one over at `now`? -/
def Expiration.EndsBy (written lastRead now : Instant) : Expiration → Prop
  | .never => False
  | .at end_ => end_ ≤ now
  | .afterWrite d => ∃ end_, written.add? d = some end_ ∧ end_ ≤ now
  | .sliding d => d.nanos ≤ now.elapsedSince lastRead

namespace Held

/-- Between two visits: what a handling at `written` wrote, renewed by a read at `lastRead`. -/
def kept? (written lastRead : Instant) (text : String) (l : Lifetime) : Option Held :=
  (fresh? written text l).map (·.touch lastRead)

lemma touch_touch (e : Held) (now later : Instant) :
    (e.touch now).touch later = e.touch later := by
  unfold touch
  cases hw : e.window <;> simp [hw]

lemma fresh?_eq_kept? (now : Instant) (text : String) (l : Lifetime) :
    fresh? now text l = kept? now now text l := by
  unfold kept? fresh?
  split
  · rfl
  · simp only [Option.map_some, touch]
    split <;> rfl

lemma value_of_kept? {written lastRead : Instant} {text : String} {l : Lifetime} {e : Held}
    (h : kept? written lastRead text l = some e) : e.value = text := by
  obtain ⟨e', he', rfl⟩ := Option.map_eq_some_iff.1 h
  simpa using value_of_fresh? he'

/-- The entry between two visits is gone or has ended. -/
def IsOver (e : Option Held) (now : Instant) : Prop := ∀ held ∈ e, held.hasEnded now = true

lemma isOver_kept?_iff {x : Expiration} (hx : x.HasPeriod) {written lastRead now : Instant}
    (text : String) (hwritten : written ≤ now) :
    IsOver (kept? written lastRead text x.lifetime) now ↔ x.EndsBy written lastRead now := by
  cases x with
  | never =>
    simp [IsOver, Expiration.EndsBy, kept?, fresh?, Expiration.lifetime, Lifetime.deadline, touch,
      hasEnded]
  | «at» end_ =>
    by_cases hgone : end_ ≤ written
    · have hover : end_ ≤ now := Int.le_trans hgone hwritten
      simp [IsOver, Expiration.EndsBy, kept?, fresh?, Expiration.lifetime, Lifetime.deadline,
        hgone, hover]
    · simp [IsOver, Expiration.EndsBy, kept?, fresh?, Expiration.lifetime, Lifetime.deadline,
        hgone, touch, hasEnded]
  | afterWrite d =>
    cases hadd : written.add? d with
    | none =>
      simp [IsOver, Expiration.EndsBy, kept?, fresh?, Expiration.lifetime, Lifetime.deadline, hadd,
        touch, hasEnded]
    | some end_ =>
      have hlater : ¬ end_ ≤ written := by
        have hnanos := Instant.nanos_of_add? hadd
        have hpos : 0 < d.nanos := hx
        rw [Instant.le_iff]
        omega
      simp [IsOver, Expiration.EndsBy, kept?, fresh?, Expiration.lifetime, Lifetime.deadline, hadd,
        hlater, touch, hasEnded]
  | sliding d =>
    simp [IsOver, Expiration.EndsBy, kept?, fresh?, Expiration.lifetime, Lifetime.deadline, touch,
      hasEnded]

end Held

variable {C : Catalogue} {own : (k : C.Kind) → Eviction C (handlings C) k → Prop}

/-- One and the same request, sent to a service again and again. -/
structure Visits (C : Catalogue) (own : (k : C.Kind) → Eviction C (handlings C) k → Prop) where
  /-- What the request is sent to. -/
  service : Service C own
  /-- The kind of the request. -/
  kind : C.Kind
  /-- The request. -/
  request : C.Request kind
  /-- What the application makes of requests. -/
  script : Script C
  /-- The instants of the visits. -/
  times : ℕ → Instant

namespace Visits

/-- The scene before each visit; in the beginning the store is empty. -/
def scene (V : Visits C own) : ℕ → Scene C
  | 0 => ⟨V.times 0, ∅, []⟩
  | i + 1 =>
    (Scene.run V.script (V.service.dispatcher.send V.kind V.request)
      ((V.scene i).atTime (V.times i))).2

/-- The outcome of each visit. -/
def outcome (V : Visits C own) (i : ℕ) : Outcome C V.kind :=
  (Scene.run V.script (V.service.dispatcher.send V.kind V.request)
    ((V.scene i).atTime (V.times i))).1

/-- The request is handled at a visit. -/
def HandlesAt (V : Visits C own) (i : ℕ) : Prop :=
  (V.scene i).handled.length < (V.scene (i + 1)).handled.length

/-- Visit `i` is answered with the response of the latest handling. -/
def AnswersLatest (V : Visits C own) (response : ℕ → C.Response V.kind) (i : ℕ) : Prop :=
  ∃ n rest, (V.scene (i + 1)).handled = ⟨V.kind, V.request, .ok (response n)⟩ :: rest ∧
    rest.length = n ∧ V.outcome i = .ok (response n)

/-- The request is cached by a plan, nothing else touches the store, and every handling makes a
response that can be stored, under the identifier that the request is looked up under among
others, and comes back from there. -/
structure Regular (V : Visits C own) (p : Plan C V.kind) (response : ℕ → C.Response V.kind) :
    Prop where
  served : V.service.inner.isServed V.kind = true
  planned : V.service.setup.plan V.kind = some p
  alone : V.service.setup.evictions V.kind = []
  period : p.expiration.HasPeriod
  forward : ∀ i, V.times i ≤ V.times (i + 1)
  succeeds : ∀ n, V.script n V.kind V.request = .ok (response n)
  listed : ∀ n, p.lookupId V.request ∈ p.entryIds V.request (response n)
  restores : ∀ n, (C.codec V.kind).Restores (response n)

/-- What holds before visit `i`, when the latest visit that handled the request was visit `j` and
wrote a text: its response was the latest one, and the text lies under the key of the request,
renewed by the visit before. -/
structure Holds (V : Visits C own) (p : Plan C V.kind) (response : ℕ → C.Response V.kind)
    (i j : ℕ) : Prop where
  before : j < i
  handles : V.HandlesAt j
  latest : ∀ m, j < m → m < i → ¬ V.HandlesAt m
  stored : ∃ n rest text, (V.scene i).handled = ⟨V.kind, V.request, .ok (response n)⟩ :: rest ∧
    rest.length = n ∧
    Bundle.encode (C.codec V.kind)
      ⟨response n, Key.texts (p.entryKeys V.request (response n))⟩ = .ok text ∧
    (V.scene i).memory.get? (p.lookupKey V.request).text =
      Held.kept? (V.times j) (V.times (i - 1)) text p.expiration.lifetime

section

variable {V : Visits C own} {p : Plan C V.kind} {response : ℕ → C.Response V.kind} {i j : ℕ}

lemma scene_succ (V : Visits C own) (i : ℕ) :
    V.scene (i + 1) = (Scene.run V.script (V.service.dispatcher.send V.kind V.request)
      ((V.scene i).atTime (V.times i))).2 := rfl

lemma Regular.times_le (h : V.Regular p response) {i j : ℕ} (hij : j ≤ i) :
    V.times j ≤ V.times i := by
  induction hij with
  | refl => exact Int.le_refl _
  | step _ ih => exact Int.le_trans ih (h.forward _)

/-- A visit that finds nothing handles the request, and its entry is the latest one. -/
lemma Regular.holds_of_miss (h : V.Regular p response)
    (hlive : (V.scene i).memory.live? (V.times i) (p.lookupKey V.request).text = none) :
    V.HandlesAt i ∧ V.Holds p response (i + 1) i ∧ V.AnswersLatest response i := by
  obtain ⟨text, htext, -⟩ := Bundle.exists_encode_of_restores
    (h.restores (V.scene i).handled.length)
    (Key.texts (p.entryKeys V.request (response (V.scene i).handled.length)))
  have hrun := Scene.run_send_miss V.script ((V.scene i).atTime (V.times i)) h.served h.planned
    h.alone hlive (h.succeeds _) (h.listed _) h.period htext
  have hscene := congrArg Prod.snd hrun
  rw [← V.scene_succ] at hscene
  have hhandled : (V.scene (i + 1)).handled =
      ⟨V.kind, V.request, .ok (response (V.scene i).handled.length)⟩ :: (V.scene i).handled := by
    rw [hscene]
    rfl
  have hhandles : V.HandlesAt i := by
    rw [HandlesAt, hhandled]
    simp
  refine ⟨hhandles, ⟨Nat.lt_succ_self i, hhandles, ?_, ?_⟩,
    ⟨_, _, hhandled, rfl, congrArg Prod.fst hrun⟩⟩
  · intro m him hmi
    omega
  · refine ⟨_, _, text, hhandled, rfl, htext, ?_⟩
    have hmem : (p.lookupKey V.request).text ∈
        Key.texts (p.entryKeys V.request (response (V.scene i).handled.length)) :=
      Key.mem_texts.2 ⟨_, Scene.lookupKey_mem_entryKeys (h.listed _), rfl⟩
    rw [hscene, Nat.add_sub_cancel, ← Held.fresh?_eq_kept?]
    exact (Scene.get?_put _ h.period.check _ _ _).trans (if_pos hmem)

/-- A visit that finds the entry of the latest handling does not handle the request, and renews
the entry. -/
lemma Holds.holds_of_hit (hj : V.Holds p response i j) (h : V.Regular p response) {e : Held}
    (hlive : (V.scene i).memory.live? (V.times i) (p.lookupKey V.request).text = some e) :
    ¬ V.HandlesAt i ∧ V.Holds p response (i + 1) j ∧ V.AnswersLatest response i := by
  obtain ⟨n, rest, text, hhandled, hlength, htext, hentry⟩ := hj.stored
  obtain ⟨hget, hended⟩ := Memory.live?_eq_some_iff.1 hlive
  have hvalue : e.value = text := Held.value_of_kept? (hentry ▸ hget)
  have hrun := Scene.run_send_hit V.script ((V.scene i).atTime (V.times i)) h.served h.planned
    h.alone hlive (hvalue.symm ▸ htext) (h.restores n)
  have hscene := congrArg Prod.snd hrun
  rw [← V.scene_succ] at hscene
  have hsame : (V.scene (i + 1)).handled = (V.scene i).handled := by
    rw [hscene]
    rfl
  have hhandles : ¬ V.HandlesAt i := by
    rw [HandlesAt, hsame]
    exact Nat.lt_irrefl _
  refine ⟨hhandles, ⟨Nat.lt_succ_of_lt hj.before, hj.handles, ?_, ?_⟩, n, rest,
    hsame.trans hhandled, hlength, congrArg Prod.fst hrun⟩
  · intro m hjm hmi
    rcases Nat.lt_succ_iff_lt_or_eq.1 hmi with hlt | rfl
    · exact hj.latest m hjm hlt
    · exact hhandles
  · refine ⟨n, rest, text, hsame.trans hhandled, hlength, htext, ?_⟩
    have hread : (V.scene (i + 1)).memory.get? (p.lookupKey V.request).text =
        ((V.scene i).memory.get? (p.lookupKey V.request).text).map (·.touch (V.times i)) := by
      rw [hscene]
      refine (Scene.get?_read _ _ _).trans ?_
      rw [if_pos rfl, hget]
      exact congrArg (Option.map _) hlive
    rw [hread, hentry, Nat.add_sub_cancel, Held.kept?, Held.kept?, Option.map_map]
    congr 1
    funext held
    exact held.touch_touch _ _

lemma live?_eq_none_iff_isOver {m : Memory} {now : Instant} {key : String} :
    m.live? now key = none ↔ Held.IsOver (m.get? key) now := by
  simp [Memory.live?, Held.IsOver, Option.filter_eq_none_iff]

/-- Before every visit but the first the entry of the latest handling is what is stored. -/
lemma Regular.exists_holds (h : V.Regular p response) (i : ℕ) :
    ∃ j, V.Holds p response (i + 1) j := by
  induction i with
  | zero => exact ⟨0, (h.holds_of_miss (i := 0) rfl).2.1⟩
  | succ i ih =>
    obtain ⟨j, hj⟩ := ih
    cases hlive : (V.scene (i + 1)).memory.live? (V.times (i + 1))
        (p.lookupKey V.request).text with
    | none => exact ⟨i + 1, (h.holds_of_miss hlive).2.1⟩
    | some e => exact ⟨j, (hj.holds_of_hit h hlive).2.1⟩

/-- After a handling the rule looks at what that handling wrote. -/
lemma Holds.isDue_iff (hj : V.Holds p response (i + 1) j) (h : V.Regular p response) :
    p.expiration.IsDue V.times V.HandlesAt (i + 1) ↔
      Held.IsOver ((V.scene (i + 1)).memory.get? (p.lookupKey V.request).text)
        (V.times (i + 1)) := by
  obtain ⟨n, rest, text, -, -, -, hentry⟩ := hj.stored
  rw [hentry, Nat.add_sub_cancel, Held.isOver_kept?_iff h.period text (h.times_le hj.before.le)]
  unfold Expiration.IsDue Expiration.EndsBy
  cases p.expiration with
  | never => simp
  | «at» end_ => simp
  | afterWrite d =>
    simp only [Nat.succ_ne_zero, false_or]
    constructor
    · rintro ⟨m, hmi, hm, hlatest, hend⟩
      -- the latest handling is the one that the rule speaks of
      have hmj : m = j := by
        rcases Nat.lt_trichotomy m j with hlt | heq | hgt
        · exact absurd hj.handles (hlatest j hlt hj.before)
        · exact heq
        · exact absurd hm (hj.latest m hgt hmi)
      exact hmj ▸ hend
    · intro hend
      exact ⟨j, hj.before, hj.handles, hj.latest, hend⟩
  | sliding d =>
    have hforward := h.forward i
    rw [Instant.le_iff] at hforward
    simp only [Nat.succ_ne_zero, false_or, Nat.add_sub_cancel, Instant.elapsedSince]
    omega

/-- A request that is sent again and again is handled exactly when its expiration says so, and
every visit is answered with the response of the latest handling. -/
theorem handlesAt_iff_isDue (h : V.Regular p response) (i : ℕ) :
    (V.HandlesAt i ↔ p.expiration.IsDue V.times V.HandlesAt i) ∧ V.AnswersLatest response i := by
  cases i with
  | zero =>
    obtain ⟨hhandles, -, hanswer⟩ := h.holds_of_miss (i := 0) rfl
    exact ⟨iff_of_true hhandles (.inl rfl), hanswer⟩
  | succ i =>
    obtain ⟨j, hj⟩ := h.exists_holds i
    rw [hj.isDue_iff h, ← live?_eq_none_iff_isOver]
    cases hlive : (V.scene (i + 1)).memory.live? (V.times (i + 1))
        (p.lookupKey V.request).text with
    | none =>
      obtain ⟨hhandles, -, hanswer⟩ := h.holds_of_miss hlive
      exact ⟨iff_of_true hhandles rfl, hanswer⟩
    | some e =>
      obtain ⟨hhandles, -, hanswer⟩ := hj.holds_of_hit h hlive
      exact ⟨iff_of_false hhandles (by simp), hanswer⟩

end

end Visits

namespace Demo

/-- The greeting of a number, asked for twice at the epoch and from then on an hour later. -/
def hourly : Visits catalogue fun _ _ => False where
  service := service
  kind := Kind.greeting
  request := (1 : ℕ)
  script := greetings
  times i := if i < 2 then .epoch else ⟨3600 * 1000000000, by decide⟩

lemma regular_hourly : hourly.Regular greetingPlan fun _ => greetingText 1 where
  served := rfl
  planned := rfl
  alone := rfl
  period := by
    show 0 < (Span.ofHours 1).nanos
    decide
  forward i := by
    simp only [hourly]
    split_ifs <;> first | decide | omega
  succeeds _ := rfl
  listed _ := by decide
  restores _ := restores_greeting _

/-- The greeting is made again after an hour in which nobody asked for it. -/
theorem hourly_handlesAt_two :
    hourly.HandlesAt 2 ∧ hourly.AnswersLatest (fun _ => greetingText 1) 2 := by
  obtain ⟨hhandles, hanswer⟩ := Visits.handlesAt_iff_isDue regular_hourly 2
  refine ⟨hhandles.2 (.inr ?_), hanswer⟩
  change (Instant.epoch.nanos + (Span.ofHours 1).nanos : ℤ) ≤ 3600 * 1000000000
  decide

end Demo

end RequestCache
