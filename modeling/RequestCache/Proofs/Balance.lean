/-
# What the metrics say about the dispatches

Dispatches are on their way at the same time; each question of each of them is answered at some
point, in any way: calls to the store may fail, handlers may, and whatever waits may be cut short.
What a recorder is told goes into the ledger as it is told (`Books`).

A dispatch comes through the stages outside the one whose recorder is looked at, or it does not
(`Dispatch.Comes`).  What becomes of it from there on is what is counted:

* the look-up stage finds the response in the cache, or the response comes from further in, and
  then it is stored or it is not; the numbers of these dispatches are what its recorder counts
  (`Lookup.told_stage`),
* the eviction stage runs its evictions one after the other if the response comes from further in,
  and its recorder counts those that remove (`Eviction.told_stage`).

So the metrics can be read as numbers of dispatches at any moment at which each dispatch has told
what there was to tell (`Books.Reachable.balance`).
-/
import RequestCache.Cache.Setup
import RequestCache.Ledger
import RequestCache.Proofs.Milestones
import RequestCache.Proofs.Passage

namespace RequestCache

variable {C : Catalogue} {W : Interface} {k : C.Kind} {w : Recorder → Measure → Bool}

/-! ## What can be read in the ledger -/

/-- A number that is kept for a recorder. -/
inductive Gauge where
  | hits
  | misses
  | evictions
  /-- How often an operation came to its end. -/
  | finished (operation : String)

namespace Gauge

/-- Does a recorder that is told something change the number of recorder `r`?  Counts go by the
number of the recorder, and durations by its name. -/
def watches (r : Recorder) : Gauge → Recorder → Measure → Bool
  | hits, r', .hit => r'.serial = r.serial
  | misses, r', .miss => r'.serial = r.serial
  | evictions, r', .eviction _ => r'.serial = r.serial
  | finished operation, r', .finished operation' =>
    (⟨operation', r'.request⟩ : Histogram) = ⟨operation, r.request⟩
  | _, _, _ => false

/-- The number that the ledger keeps for a recorder. -/
def reading (r : Recorder) (l : Ledger) : Gauge → ℕ
  | hits => (l.countsOf r).hits
  | misses => (l.countsOf r).misses
  | evictions => (l.countsOf r).evictions
  | finished operation => l.durations.countP fun d => d.1 = ⟨operation, r.request⟩

end Gauge

/-- The numbers that a look-up stage changes. -/
def Lookup.gauges : List Gauge := [.hits, .misses, .finished "get", .finished "set"]

/-- The numbers that an eviction stage changes. -/
def Eviction.gauges : List Gauge := [.evictions, .finished "invalidate"]

section

variable {κ α : Type} [DecidableEq κ]

lemma lookup_cons_eq_ite (key : κ) (p : κ × α) (ps : List (κ × α)) :
    (p :: ps).lookup key = if key = p.1 then some p.2 else ps.lookup key := by
  obtain ⟨key', a⟩ := p
  by_cases h : key = key'
  · subst h
    simp
  · rw [List.lookup_cons, beq_false_of_ne h, if_neg h]

lemma lookup_alterPair (key key' : κ) (start : α) (f : α → α) (ps : List (κ × α)) :
    (alterPair key start f ps).lookup key' =
      if key' = key then some (f ((ps.lookup key).getD start)) else ps.lookup key' := by
  induction ps with
  | nil => exact lookup_cons_eq_ite key' (key, f start) []
  | cons p ps ih =>
    obtain ⟨first, a⟩ := p
    by_cases hfirst : first = key
    · subst hfirst
      rw [alterPair, if_pos rfl, lookup_cons_eq_ite, lookup_cons_eq_ite, lookup_cons_eq_ite,
        if_pos rfl]
      by_cases h : key' = first <;> simp [h]
    · rw [alterPair, if_neg hfirst, lookup_cons_eq_ite, ih, lookup_cons_eq_ite, lookup_cons_eq_ite,
        if_neg (Ne.symm hfirst)]
      by_cases h : key' = first
      · subst h
        simp [hfirst]
      · simp [h]

end

/-- The counter of the ledger that a request of a name moves by what is told. -/
def Measure.counter? (request : String) : Measure → Option Counter
  | hit => some (.hits request)
  | miss => some (.misses request)
  | eviction target => some (.evictions request target)
  | finished _ => none

lemma Counts.add_zero (c : Counts) (what : Measure) : c.add what 0 = c := by
  cases what <;> rfl

namespace Ledger

/-- What a counter of the ledger shows. -/
def counterOf (l : Ledger) (c : Counter) : ℕ := (l.counters.lookup c).getD 0

lemma countsOf_record (l : Ledger) (r r' : Recorder) (what : Measure) (times : ℕ) (elapsed : Span) :
    (l.record r' what times elapsed).countsOf r =
      if r'.serial = r.serial then (l.countsOf r).add what times else l.countsOf r := by
  by_cases htimes : times = 0
  · subst htimes
    rw [Counts.add_zero, ite_self]
    rfl
  have hcounts : (l.record r' what times elapsed).counts =
      alterPair r'.serial {} (·.add what times) l.counts := by
    rw [record, if_neg htimes]
    cases what <;> rfl
  rw [countsOf, hcounts, lookup_alterPair]
  by_cases h : r'.serial = r.serial
  · rw [if_pos h, if_pos h.symm, h]
    rfl
  · rw [if_neg h, if_neg (Ne.symm h)]
    rfl

lemma counterOf_record (l : Ledger) (c : Counter) (r : Recorder) (what : Measure) (times : ℕ)
    (elapsed : Span) :
    (l.record r what times elapsed).counterOf c =
      l.counterOf c + if what.counter? r.request = some c then times else 0 := by
  by_cases htimes : times = 0
  · subst htimes
    rw [ite_self]
    rfl
  have hcounters : (l.record r what times elapsed).counters =
      (what.counter? r.request).elim l.counters fun c => alterPair c 0 (· + times) l.counters := by
    rw [record, if_neg htimes]
    cases what <;> rfl
  rw [counterOf, hcounters]
  cases what.counter? r.request with
  | none => rfl
  | some c' =>
    rw [Option.elim_some, lookup_alterPair]
    by_cases h : c = c'
    · subst h
      simp [counterOf]
    · simp [counterOf, h, Ne.symm h]

end Ledger

/-- What is told moves the numbers that it is about, by one. -/
theorem Gauge.reading_record (g : Gauge) (l : Ledger) (r r' : Recorder) (what : Measure)
    (elapsed : Span) :
    g.reading r (l.record r' what 1 elapsed) =
      g.reading r l + tally (g.watches r) r' what := by
  have hcounts := l.countsOf_record r r' what 1 elapsed
  cases g with
  | finished operation =>
    cases what <;> simp [reading, tally, watches, Ledger.record]
  | _ =>
    rw [reading, reading, hcounts]
    by_cases h : r'.serial = r.serial <;> cases what <;> simp [h, tally, watches, Counts.add]

/-! ## Dispatches on their way -/

/-- A dispatch: what was sent, and what has been asked and answered since. -/
structure Dispatch (C : Catalogue) (W : Interface) where
  kind : C.Kind
  request : C.Request kind
  exchanges : List (Exchange W)

/-- The ledger after something was asked for. -/
def Ledger.after (l : Ledger) (elapsed : Span) : Effect W → Ledger
  | .measure recorder what => l.record recorder what 1 elapsed
  | _ => l

/-- All dispatches so far, and what was counted. -/
structure Books (C : Catalogue) (W : Interface) where
  dispatches : List (Dispatch C W)
  ledger : Ledger

namespace Books

/-- What happens next. -/
inductive Step (D : Dispatcher C W) : Books C W → Books C W → Prop
  /-- A request is sent. -/
  | send {b : Books C W} (k : C.Kind) (request : C.Request k) :
    Step D b { b with dispatches := b.dispatches ++ [⟨k, request, []⟩] }
  /-- A question of a dispatch is answered, in whatever way. -/
  | answer {before after : List (Dispatch C W)} {l : Ledger} {k : C.Kind} {request : C.Request k}
      {t : List (Exchange W)} {e : Effect W} {next : e.Answer → Action W (Outcome C k)}
      (h : (D.send k request).Along t (.ask (I := effects W) e next) []) (x : e.Answer)
      (elapsed : Span) :
    Step D ⟨before ++ ⟨k, request, t⟩ :: after, l⟩
      ⟨before ++ ⟨k, request, t ++ [⟨e, x⟩]⟩ :: after, l.after elapsed e⟩

/-- What can come about from the beginning on. -/
def Reachable (D : Dispatcher C W) (b : Books C W) : Prop :=
  Relation.ReflTransGen (Step D) ⟨[], {}⟩ b

/-- Every dispatch has ended or waits, and it has told what there was to tell. -/
def AtRest (D : Dispatcher C W) (b : Books C W) : Prop :=
  ∀ d ∈ b.dispatches, ∃ q, (D.send d.kind d.request).Along d.exchanges q [] ∧ Action.Rests q

variable {D : Dispatcher C W} {b b' : Books C W} {g : Gauge} {r : Recorder}

/-- The ledger holds what the dispatches have told. -/
def Balances (g : Gauge) (r : Recorder) (b : Books C W) : Prop :=
  g.reading r b.ledger = (b.dispatches.map fun d => told (g.watches r) d.exchanges).sum

lemma Balances.step (h : b.Balances g r) (hstep : Step D b b') : b'.Balances g r := by
  cases hstep with
  | send k request =>
    rw [Balances, List.map_append, List.sum_append]
    exact h
  | @answer before after l k request t e next _ x elapsed =>
    have hledger : g.reading r (l.after elapsed e) =
        g.reading r l + if Effect.tells (g.watches r) e then 1 else 0 := by
      cases e with
      | measure r' what => exact g.reading_record l r r' what elapsed
      | _ => rfl
    have hlast : told (g.watches r) (t ++ [⟨e, x⟩]) =
        told (g.watches r) t + if Effect.tells (g.watches r) e then 1 else 0 := by
      rw [told_append, told_cons]
      exact congrArg _ (Nat.zero_add _)
    rw [Balances] at h ⊢
    dsimp only at h ⊢
    rw [hledger, h]
    simp only [List.map_append, List.map_cons, List.sum_append, List.sum_cons, hlast]
    omega

/-- A dispatch may go on in every way that its program allows. -/
lemma Reachable.goesOn (before : List (Dispatch C W)) {after : List (Dispatch C W)} {l : Ledger}
    {request : C.Request k} {t t' : List (Exchange W)} {q : Action W (Outcome C k)}
    (h : Reachable D ⟨before ++ ⟨k, request, t⟩ :: after, l⟩)
    (hq : (D.send k request).Along (t ++ t') q []) :
    Reachable D ⟨before ++ ⟨k, request, t ++ t'⟩ :: after,
      t'.foldl (fun l x => l.after .zero x.1) l⟩ := by
  induction t' generalizing t l with
  | nil =>
    rw [List.append_nil]
    exact h
  | cons x t' ih =>
    obtain ⟨next, hnext⟩ := hq.exists_ask
    rw [List.append_cons t] at hq ⊢
    exact ih (h.tail (.answer hnext x.2 .zero)) hq

/-- At any time the ledger holds what the dispatches have told. -/
theorem Reachable.balances (h : Reachable D b) (g : Gauge) (r : Recorder) : b.Balances g r := by
  induction h with
  | refl => cases g <;> rfl
  | tail _ hstep ih => exact ih.step hstep

end Books

/-! ## Dispatches that come to a stage -/

/-- A dispatch has come through the stages outside a stage, with so many others further in, and from
there to a milestone, all before anything was cut short. -/
def Dispatch.Comes (D : Dispatcher C W) (outer : List (Stage C W k)) (further : ℕ)
    (m : Milestone C W k) (d : Dispatch C W) : Prop :=
  ∃ handler request t s, (D.route k).handler = some handler ∧
    d = ⟨k, request, ⟨.isCancelled, false⟩ :: t⟩ ∧
    (enterAll request further outer).Ends (Action.uncut t) true s ∧ m handler request s

namespace Dispatch.Comes

variable {D : Dispatcher C W} {outer : List (Stage C W k)} {further : ℕ} {m m' : Milestone C W k}
  {d : Dispatch C W}

/-- What a dispatch has come to is decided by the exchanges from the stage on. -/
lemma iff_of_ends {handler : Handler C W k} {request : C.Request k} {t s : List (Exchange W)}
    (hhandler : (D.route k).handler = some handler)
    (hends : (enterAll request further outer).Ends (Action.uncut t) true s) :
    (⟨k, request, ⟨.isCancelled, false⟩ :: t⟩ : Dispatch C W).Comes D outer further m ↔
      m handler request s := by
  refine ⟨?_, fun hm => ⟨handler, request, t, s, hhandler, rfl, hends, hm⟩⟩
  rintro ⟨handler', request', t', s', hhandler', heq, hends', hm⟩
  cases heq
  cases hhandler.symm.trans hhandler'
  obtain ⟨-, rfl⟩ := hends.unique hends'
  exact hm

/-- A dispatch has come to its milestones on one and the same way. -/
lemma and (h : d.Comes D outer further m) (h' : d.Comes D outer further m') :
    d.Comes D outer further fun handler request t =>
      m handler request t ∧ m' handler request t := by
  obtain ⟨handler, request, t, s, hhandler, rfl, hends, hm⟩ := h
  exact (iff_of_ends hhandler hends).2 ⟨hm, (iff_of_ends hhandler hends).1 h'⟩

lemma mono (h : d.Comes D outer further m)
    (hm : ∀ handler request t, m handler request t → m' handler request t) :
    d.Comes D outer further m' := by
  obtain ⟨handler, request, t, s, hhandler, hd, hends, hreached⟩ := h
  exact ⟨handler, request, t, s, hhandler, hd, hends, hm _ _ _ hreached⟩

end Dispatch.Comes

/-- Of all that a dispatcher runs only one stage tells something that is watched. -/
structure TellsAlone (D : Dispatcher C W) (w : Recorder → Measure → Bool)
    (outer : List (Stage C W k)) (stage : Stage C W k) (inner : List (Stage C W k)) : Prop where
  stages : (D.route k).stages = outer ++ stage :: inner
  outer : ∀ s ∈ outer, s.IsMute w
  inner : ∀ s ∈ inner, s.IsMute w
  handlers : ∀ j handler, (D.route j).handler = some handler →
    ∀ request, (handler request).IsMute w fun _ => True
  others : ∀ j, j ≠ k → ∀ s ∈ (D.route j).stages, s.IsMute w

section

variable {D : Dispatcher C W} {outer inner : List (Stage C W k)} {stage : Stage C W k}

/-- A dispatch of a kind without a handler asks for nothing, and any other one asks first whether
it is cancelled. -/
lemma along_send_cases {k : C.Kind} {request : C.Request k} {t : List (Exchange W)}
    {q : Action W (Outcome C k)} (h : (D.send k request).Along t q []) (hq : q.Rests) :
    (told w t = 0 ∧ ∀ handler, (D.route k).handler = some handler → ∀ t',
      t ≠ ⟨.isCancelled, false⟩ :: t') ∨
    ∃ handler t' p, (D.route k).handler = some handler ∧ t = ⟨.isCancelled, false⟩ :: t' ∧
      (throughStages handler request (D.route k).stages).Along (Action.uncut t') p [] ∧
      Action.Rests p ∧ told w t = told w (Action.uncut t') := by
  cases hhandler : (D.route k).handler with
  | none =>
    rw [Dispatcher.send_of_handler_eq_none hhandler] at h
    obtain ⟨-, rfl⟩ := Program.along_done_iff.1 h
    exact .inl ⟨rfl, nofun⟩
  | some handler =>
    obtain ⟨next, hsend, htrue, hfalse⟩ := Dispatcher.exists_send_eq hhandler request
    rw [hsend] at h
    cases h with
    | waiting => exact .inl ⟨rfl, nofun⟩
    | @answered _ _ x t _ _ h =>
      have htold : told w ((⟨.isCancelled, x⟩ : Exchange W) :: t) = told w t :=
        told_cons_of_not_tells rfl
      cases hx : x with
      | true =>
        subst hx
        rw [htrue] at h
        obtain ⟨-, rfl⟩ := Program.along_done_iff.1 h
        refine .inl ⟨htold, fun _ _ t' heq => ?_⟩
        cases heq
      | false =>
        subst hx
        rw [hfalse] at h
        obtain ⟨p, hp, hrests⟩ := Action.exists_along_of_bind_done (fun _ => ⟨_, rfl⟩) h hq
        obtain ⟨p', hp', hrests', huncut⟩ := Action.exists_along_of_untilCancelled hp hrests
        exact .inr ⟨handler, t, p', rfl, rfl, hp', hrests', htold.trans huncut⟩

open scoped Classical in
/-- What a dispatch tells is counted from the stage on that tells it. -/
theorem TellsAlone.told_eq (h : TellsAlone D w outer stage inner) (ms : List (Milestone C W k))
    (hstage : ∀ handler request t q t', (handler request).IsMute w (fun _ => True) →
      (throughStages handler request (stage :: inner)).Along t q t' → Action.Rests q →
      told w t = told w t' + ms.countP fun m => m handler request t)
    {d : Dispatch C W} {q : Action W (Outcome C d.kind)}
    (hd : (D.send d.kind d.request).Along d.exchanges q []) (hq : q.Rests) :
    told w d.exchanges = ms.countP fun m => d.Comes D outer (inner.length + 1) m := by
  have hnone (hnot : ∀ m, ¬ d.Comes D outer (inner.length + 1) m) :
      (ms.countP fun m => d.Comes D outer (inner.length + 1) m) = 0 :=
    List.countP_eq_zero.2 fun m _ => by simpa using hnot m
  obtain ⟨j, request, t⟩ := d
  dsimp only at hd ⊢
  rcases along_send_cases (w := w) hd hq with
    ⟨htold, hnot⟩ | ⟨handler, t, p, hhandler, rfl, hp, hrests, htold⟩
  · rw [htold, hnone]
    rintro m ⟨handler, request', t', s, hhandler, heq, -⟩
    cases heq
    exact hnot handler hhandler t' rfl
  · have hmute := h.handlers j handler hhandler request
    rw [htold]
    by_cases hj : j = k
    · subst hj
      rw [h.stages] at hp
      rcases along_throughStages_append h.outer hp hrests with
        ⟨hnot, hsame⟩ | ⟨s, p', s', hends, hp', hrests', hin, hout⟩
      · rw [hsame, hnone]
        · rfl
        · rintro m ⟨handler', request', t', s, -, heq, hends, -⟩
          cases heq
          exact hnot s hends
      · rw [hin, hstage handler request s p' s' hmute hp' hrests', hout]
        refine (Nat.zero_add _).trans (List.countP_congr fun m _ => ?_)
        simp only [decide_eq_true_eq]
        exact (Dispatch.Comes.iff_of_ends hhandler hends).symm
    · rw [(isMute_throughStages hmute (h.others j hj)).along hp |>.1, hnone]
      · rfl
      · rintro m ⟨handler', request', t', s, -, heq, -⟩
        exact hj (congrArg Dispatch.kind heq)

end

/-! ## The balance -/

namespace Books

variable {D : Dispatcher C W} {b : Books C W} {a k : C.Kind}
  {plan : Plan C a} {policy : FaultPolicy} {looking : Recorder} {outer inner : List (Stage C W a)}
  {evictions : List (Eviction C W k)} {evicting : Recorder} {around within : List (Stage C W k)}

open scoped Classical in
lemma sum_map_eq_countP {α : Type} {f : α → ℕ} {m : α → Prop} {as : List α}
    (h : ∀ a ∈ as, f a = if m a then 1 else 0) : (as.map f).sum = as.countP fun a => m a := by
  induction as with
  | nil => rfl
  | cons a as ih =>
    rw [List.map_cons, List.sum_cons, List.countP_cons, h a List.mem_cons_self,
      ih fun a' h' => h a' (List.mem_cons_of_mem _ h'), Nat.add_comm]
    simp only [decide_eq_true_eq]

open scoped Classical in
/-- What each dispatch tells of the look-up. -/
lemma told_lookup (hrest : b.AtRest D)
    (hlooks : ∀ g ∈ Lookup.gauges,
      TellsAlone D (g.watches looking) outer (Lookup.stage plan policy looking) inner)
    {d : Dispatch C W} (hd : d ∈ b.dispatches) :
    (told (Gauge.hits.watches looking) d.exchanges =
      if d.Comes D outer (inner.length + 1) (Lookup.Served plan policy looking inner)
      then 1 else 0) ∧
    (told (Gauge.misses.watches looking) d.exchanges =
      if d.Comes D outer (inner.length + 1) (Lookup.Fetched plan policy inner) then 1 else 0) ∧
    (told ((Gauge.finished "get").watches looking) d.exchanges =
      if d.Comes D outer (inner.length + 1) (Lookup.Served plan policy looking inner)
      then 1 else 0) ∧
    told ((Gauge.finished "set").watches looking) d.exchanges =
      if d.Comes D outer (inner.length + 1) (Lookup.Stored plan policy looking inner)
      then 1 else 0 := by
  obtain ⟨q, hq, hrests⟩ := hrest d hd
  have hone (g : Gauge) (hg : g ∈ Lookup.gauges) (m : Milestone C W a)
      (hm : ∀ handler request t,
        Lookup.watched plan policy looking inner (g.watches looking) handler request t =
          if m handler request t then 1 else 0) :
      told (g.watches looking) d.exchanges =
        if d.Comes D outer (inner.length + 1) m then 1 else 0 := by
    have halone := hlooks g hg
    rw [halone.told_eq [m] ?_ hq hrests, List.countP_singleton]
    · simp only [decide_eq_true_eq]
    · intro handler request t q t' hmute h hq
      rw [List.countP_singleton, Lookup.told_stage hmute halone.inner h hq, hm]
      simp only [decide_eq_true_eq]
  refine ⟨hone _ (by simp [Lookup.gauges]) _ fun _ _ _ => ?_,
    hone _ (by simp [Lookup.gauges]) _ fun _ _ _ => ?_,
    hone _ (by simp [Lookup.gauges]) _ fun _ _ _ => ?_,
    hone _ (by simp [Lookup.gauges]) _ fun _ _ _ => ?_⟩ <;>
  simp [Lookup.watched, tally, Gauge.watches]

open scoped Classical in
/-- What each dispatch tells of the evictions. -/
lemma told_evictions (hrest : b.AtRest D) {g : Gauge} (hg : g ∈ Eviction.gauges)
    (hevicts : TellsAlone D (g.watches evicting) around (Eviction.stage evictions evicting) within)
    (hmute : ∀ e ∈ evictions, ∀ request,
      (e.evict request).IsMute (g.watches evicting) fun _ => True)
    {d : Dispatch C W} (hd : d ∈ b.dispatches) :
    told (g.watches evicting) d.exchanges = (List.range evictions.length).countP fun i =>
      d.Comes D around (within.length + 1) (Eviction.Removed evicting evictions within i) := by
  obtain ⟨q, hq, hrests⟩ := hrest d hd
  have hw (target : String) : tally (g.watches evicting) evicting (.eviction target) +
      tally (g.watches evicting) evicting (.finished "invalidate") = 1 := by
    rcases List.mem_pair.1 hg with rfl | rfl <;> simp [tally, Gauge.watches]
  rw [hevicts.told_eq ((List.range evictions.length).map fun i =>
    Eviction.Removed evicting evictions within i) ?_ hq hrests, List.countP_map]
  · rfl
  · intro handler request t q t' hhandler h hq
    rw [List.countP_map]
    exact Eviction.told_stage hw hmute hhandler hevicts.inner h hq

open scoped Classical in
/-- However dispatches go and however they overlap, once each of them has told what there was to
tell the metrics are numbers of dispatches.

* The hits are the dispatches that the look-up stage has answered from the cache, and the misses
  are those for which what lies further in has returned a response.
* No dispatch counts twice, and one that has no response from further in, and that the stage has
  not answered with a response, counts for nothing.
* The evictions are those that have removed what they are for, all dispatches taken together.
* The durations of "get", "set" and "invalidate" are as many as the hits, the responses that were
  stored, and the evictions.

Counts do not overflow here. -/
theorem Reachable.balance (h : Reachable D b) (hrest : b.AtRest D)
    (hlooks : ∀ g ∈ Lookup.gauges,
      TellsAlone D (g.watches looking) outer (Lookup.stage plan policy looking) inner)
    (hevicts : ∀ g ∈ Eviction.gauges,
      TellsAlone D (g.watches evicting) around (Eviction.stage evictions evicting) within)
    (hmute : ∀ g ∈ Eviction.gauges, ∀ e ∈ evictions, ∀ request,
      (e.evict request).IsMute (g.watches evicting) fun _ => True) :
    (b.ledger.countsOf looking).hits = (b.dispatches.countP fun d =>
      d.Comes D outer (inner.length + 1) (Lookup.Served plan policy looking inner)) ∧
    (b.ledger.countsOf looking).misses = (b.dispatches.countP fun d =>
      d.Comes D outer (inner.length + 1) (Lookup.Fetched plan policy inner)) ∧
    (∀ d ∈ b.dispatches,
      told (Gauge.hits.watches looking) d.exchanges +
        told (Gauge.misses.watches looking) d.exchanges ≤ 1 ∧
      (¬ d.Comes D outer (inner.length + 1) (Lookup.Fetched plan policy inner) →
        ¬ d.Comes D outer (inner.length + 1) (Lookup.Answered plan policy looking inner) →
        told (Gauge.hits.watches looking) d.exchanges +
          told (Gauge.misses.watches looking) d.exchanges = 0)) ∧
    (b.ledger.countsOf evicting).evictions = (b.dispatches.map fun d =>
      (List.range evictions.length).countP fun i => d.Comes D around (within.length + 1)
        (Eviction.Removed evicting evictions within i)).sum ∧
    (b.ledger.durations.countP fun x => x.1 = ⟨"get", looking.request⟩) =
      (b.ledger.countsOf looking).hits ∧
    (b.ledger.durations.countP fun x => x.1 = ⟨"set", looking.request⟩) =
      (b.dispatches.countP fun d =>
        d.Comes D outer (inner.length + 1) (Lookup.Stored plan policy looking inner)) ∧
    (b.ledger.durations.countP fun x => x.1 = ⟨"invalidate", evicting.request⟩) =
      (b.ledger.countsOf evicting).evictions := by
  have hlooked := fun d (hd : d ∈ b.dispatches) => told_lookup hrest hlooks hd
  have hhits := (h.balances .hits looking).trans (sum_map_eq_countP fun d hd => (hlooked d hd).1)
  have hmisses := (h.balances .misses looking).trans
    (sum_map_eq_countP fun d hd => (hlooked d hd).2.1)
  have hgets := (h.balances (.finished "get") looking).trans
    (sum_map_eq_countP fun d hd => (hlooked d hd).2.2.1)
  have hsets := (h.balances (.finished "set") looking).trans
    (sum_map_eq_countP fun d hd => (hlooked d hd).2.2.2)
  have hevicted (g : Gauge) (hg : g ∈ Eviction.gauges) := (h.balances g evicting).trans
    (congrArg List.sum (List.map_congr_left fun d hd =>
      told_evictions hrest hg (hevicts g hg) (hmute g hg) hd))
  have hremoved := hevicted .evictions (by simp [Eviction.gauges])
  have hinvalidated := hevicted (.finished "invalidate") (by simp [Eviction.gauges])
  refine ⟨hhits, hmisses, fun d hd => ?_, hremoved, hgets.trans hhits.symm, hsets,
    hinvalidated.trans hremoved.symm⟩
  obtain ⟨hhit, hmiss, -⟩ := hlooked d hd
  rw [hhit, hmiss]
  constructor
  · have hnot : ¬ (d.Comes D outer (inner.length + 1) (Lookup.Served plan policy looking inner) ∧
        d.Comes D outer (inner.length + 1) (Lookup.Fetched plan policy inner)) := by
      rintro ⟨hserved, hfetched⟩
      obtain ⟨handler, request, t, s, -, -, -, hs, hf⟩ := hserved.and hfetched
      exact hs.not_fetched hf
    split_ifs with hserved hfetched hfetched
    · exact absurd ⟨hserved, hfetched⟩ hnot
    all_goals decide
  · intro hfetched hanswered
    rw [if_neg hfetched, if_neg fun hserved => hanswered (hserved.mono fun _ _ _ => (·.answered))]

end Books

/-- A dispatch ends as its way through the stages does if no answer is cut short. -/
lemma Dispatcher.ends_send {D : Dispatcher C W} {handler : Handler C W k} {request : C.Request k}
    {t : List (Exchange W)} {outcome : Outcome C k} (hhandler : (D.route k).handler = some handler)
    (h : (throughStages handler request (D.route k).stages).Ends t outcome [])
    (huncut : ∀ x ∈ t, Effect.isCut x.1 x.2 = false) :
    (D.send k request).Ends (⟨.isCancelled, false⟩ :: t) outcome [] := by
  obtain ⟨next, hsend, -, hfalse⟩ := exists_send_eq hhandler request
  rw [hsend]
  refine .answered ?_
  rw [hfalse]
  exact Program.ends_bind_iff.2 ⟨_, [], Action.ends_untilCancelled h huncut, .ended _ []⟩

/-- The value of a text is found under the key that holds it. -/
lemma Entry.ends_find {α : Type} {c : Json.Codec α} (key : Key) {text : String} {bundle : Bundle α}
    (hblank : isBlank text = false) (hdecode : Bundle.decode? c text = some bundle)
    (t : List (Exchange W)) :
    (find (W := W) c key).Ends (⟨.read key.text, some (.ok (some text))⟩ :: t)
      (.ok (some bundle.value)) t := by
  have hcontent : (content (W := W) key).Ends (⟨.read key.text, some (.ok (some text))⟩ :: t)
      (.ok (some text)) t := by
    have hfilter : (some text).filter (fun s => !isBlank s) = some text :=
      Option.filter_some_pos (by simp [hblank])
    exact .answered (Program.ends_done_iff.2 ⟨congrArg Except.ok hfilter.symm, rfl⟩)
  refine Program.ends_bind_iff.2 ⟨_, t, hcontent, ?_⟩
  dsimp only
  rw [hdecode]
  exact .ended _ t

namespace Demo

/-- What is told about greetings. -/
def greetingRecorder : Recorder := ⟨1, Kind.greeting.name⟩

/-- What is told about resets. -/
def resetRecorder : Recorder := ⟨0, Kind.reset.name⟩

/-- The evictions of resets. -/
def resetEvictions : List (Eviction catalogue counting Kind.reset) :=
  [.ofPlan (C := catalogue) greetingPlan fun (number : ℕ) => toString number]

/-- A dispatcher that looks greetings up and removes them after resets. -/
def metered : Dispatcher catalogue counting :=
  Dispatcher.empty.enrolAll
    [.handler Kind.greeting greet, .handler Kind.reset reset,
      .stage Kind.greeting (Lookup.stage greetingPlan .strict greetingRecorder),
      .stage Kind.reset (Eviction.stage resetEvictions resetRecorder)]

/-- The greeting is made and stored. -/
lemma greeting_fetched : ∃ changes event,
    (metered.send Kind.greeting (1 : ℕ)).Ends
      [⟨.isCancelled, false⟩, ⟨.read "demo.GetGreeting:1", some (.ok none)⟩,
        ⟨.work (), some ()⟩, ⟨.measure greetingRecorder .miss, ()⟩,
        ⟨.apply changes, some [.ok (), .ok ()]⟩,
        ⟨.measure greetingRecorder (.finished "set"), ()⟩, ⟨.log event, ()⟩]
      (.ok (greetingText 1)) [] :=
  ⟨_, _, .answered (.answered (.answered (.answered (.answered (.answered (.answered
    (.ended _ _)))))))⟩

/-- The greeting is found. -/
lemma greeting_served {text : String} {keys : List String}
    (htext : Bundle.encode (Kind.codec .greeting) ⟨greetingText 1, keys⟩ = .ok text) :
    ∃ event, (metered.send Kind.greeting (1 : ℕ)).Ends
      [⟨.isCancelled, false⟩, ⟨.read "demo.GetGreeting:1", some (.ok (some text))⟩,
        ⟨.measure greetingRecorder .hit, ()⟩,
        ⟨.measure greetingRecorder (.finished "get"), ()⟩, ⟨.log event, ()⟩]
      (.ok (greetingText 1)) [] := by
  have hdecode : Bundle.decode? (Kind.codec .greeting) text = some ⟨greetingText 1, keys⟩ := by
    rw [Bundle.decode?_encode htext, restores_greeting]
    rfl
  have hfind := Entry.ends_find (W := counting) (greetingPlan.lookupKey (1 : ℕ))
    (Bundle.isBlank_encode htext) hdecode
  refine ⟨.hit (Kind.showResponse .greeting (greetingText 1)) (Kind.showRequest .greeting 1),
    Dispatcher.ends_send (D := metered) (k := Kind.greeting) rfl ?_ ?_⟩
  · refine (congrArg (Program.Ends · _ _ _) Lookup.throughStages_eq).mpr ?_
    exact Program.ends_bind_iff.2 ⟨_, _, hfind _, .answered (.answered (.answered (.ended _ _)))⟩
  · simp [Effect.isCut]

/-- The entry of the greeting is removed. -/
lemma reset_removed : ∃ event, (metered.send Kind.reset (1 : ℕ)).Ends
    [⟨.isCancelled, false⟩, ⟨.log event, ()⟩, ⟨.read "demo.GetGreeting:1", some (.ok none)⟩,
      ⟨.measure resetRecorder (.eviction "demo.GetGreeting"), ()⟩,
      ⟨.measure resetRecorder (.finished "invalidate"), ()⟩] (.ok ()) [] :=
  ⟨_, .answered (.answered (.answered (.answered (.answered (.ended _ _)))))⟩

lemma isMute_handler (w : Recorder → Measure → Bool) (j : Kind)
    (handler : Handler catalogue counting j) (h : (metered.route j).handler = some handler)
    (request : ℕ) : (handler request).IsMute w fun _ => True := by
  cases j with
  | greeting =>
    cases h
    exact ⟨rfl, fun _ => trivial⟩
  | reset =>
    cases h
    trivial

lemma isMute_resetEvictions (w : Recorder → Measure → Bool) :
    ∀ e ∈ resetEvictions, ∀ request : ℕ, (e.evict request).IsMute w fun _ => True := by
  intro e he request
  rw [List.mem_singleton.1 he]
  exact Entry.isMute_remove _

/-- Only greetings are looked up. -/
lemma tellsAlone_greeting {g : Gauge} (hg : g ∈ Lookup.gauges) :
    TellsAlone (C := catalogue) (k := Kind.greeting) metered (g.watches greetingRecorder) []
      (Lookup.stage greetingPlan .strict greetingRecorder) [] where
  stages := rfl
  outer := by simp
  inner := by simp
  handlers := isMute_handler _
  others j hj s hs := by
    cases j with
    | greeting => exact absurd rfl hj
    | reset =>
      rw [List.mem_singleton.1 hs]
      refine Eviction.isMute_stage (fun target => ?_) ?_ (isMute_resetEvictions _) <;>
      · simp only [Lookup.gauges, List.mem_cons, List.not_mem_nil, or_false] at hg
        rcases hg with rfl | rfl | rfl | rfl <;> simp [Gauge.watches]

/-- Only resets evict. -/
lemma tellsAlone_reset {g : Gauge} (hg : g ∈ Eviction.gauges) :
    TellsAlone (C := catalogue) (k := Kind.reset) metered (g.watches resetRecorder) []
      (Eviction.stage resetEvictions resetRecorder) [] where
  stages := rfl
  outer := by simp
  inner := by simp
  handlers := isMute_handler _
  others j hj s hs := by
    cases j with
    | reset => exact absurd rfl hj
    | greeting =>
      rw [List.mem_singleton.1 hs]
      refine Lookup.isMute_stage fun what hwhat => ?_
      simp only [List.mem_cons, List.not_mem_nil, or_false] at hwhat
      rcases List.mem_pair.1 hg with rfl | rfl <;>
        rcases hwhat with rfl | rfl | rfl | rfl <;> simp [Gauge.watches]

open scoped Classical in
/-- One greeting is made, one is found, and a reset removes the entry. -/
theorem metered_dispatches : ∃ b : Books catalogue counting,
    b.Reachable metered ∧ b.AtRest metered ∧ b.dispatches.length = 3 ∧
    (b.dispatches.countP fun d => d.Comes (k := Kind.greeting) metered [] 1
      (Lookup.Served greetingPlan .strict greetingRecorder [])) = 1 ∧
    (b.dispatches.countP fun d => d.Comes (k := Kind.greeting) metered [] 1
      (Lookup.Fetched greetingPlan .strict [])) = 1 ∧
    (b.dispatches.map fun d => (List.range 1).countP fun i => d.Comes (k := Kind.reset) metered [] 1
      (Eviction.Removed resetRecorder resetEvictions [] i)).sum = 1 := by
  obtain ⟨changes, stored, hfetched⟩ := greeting_fetched
  obtain ⟨text, htext, -⟩ := Bundle.exists_encode_of_restores (restores_greeting (greetingText 1))
    ["demo.GetGreeting:1"]
  obtain ⟨found, hserved⟩ := greeting_served htext
  obtain ⟨evicted, hremoved⟩ := reset_removed
  -- all three are sent before the first one is answered
  have hsent : Books.Reachable metered ⟨[⟨Kind.greeting, (1 : ℕ), []⟩,
      ⟨Kind.greeting, (1 : ℕ), []⟩, ⟨Kind.reset, (1 : ℕ), []⟩], {}⟩ :=
    ((Relation.ReflTransGen.refl.tail (.send (C := catalogue) Kind.greeting (1 : ℕ))).tail
      (.send (C := catalogue) Kind.greeting (1 : ℕ))).tail
      (.send (C := catalogue) Kind.reset (1 : ℕ))
  have hfirst := Books.Reachable.goesOn [] hsent hfetched
  have hsecond := Books.Reachable.goesOn [_] hfirst hserved
  have hthird := Books.Reachable.goesOn [_, _] hsecond hremoved
  have hrest (l : Ledger) : Books.AtRest metered ⟨[⟨Kind.greeting, (1 : ℕ), _⟩,
      ⟨Kind.greeting, (1 : ℕ), _⟩, ⟨Kind.reset, (1 : ℕ), _⟩], l⟩ :=
    List.forall_mem_cons.2 ⟨⟨_, hfetched, trivial⟩, List.forall_mem_cons.2 ⟨⟨_, hserved, trivial⟩,
      List.forall_mem_cons.2 ⟨⟨_, hremoved, trivial⟩, List.forall_mem_nil _⟩⟩⟩
  obtain ⟨hhits, hmisses, -, hevictions, -⟩ := hthird.balance (hrest _)
    (fun g hg => tellsAlone_greeting hg) (fun g hg => tellsAlone_reset hg)
    fun g _ => isMute_resetEvictions _
  exact ⟨_, hthird, hrest _, rfl, hhits.symm, hmisses.symm, hevictions.symm⟩

end Demo

end RequestCache
