/-
# Kinds that share no key

The errands of one kind are not noticed by another kind, if the two have no key in common.  Every
entry under a key of the other kind stays as it is, with its deadline, its window and its last
use, whatever fails and whoever is cancelled.  And whatever the other kind does later it might
have done had those errands not been: each run of both is followed step by step by a run of the
other kind alone, with the same results, and the other way round
(`Errands.Reachable.not_noticed`).

What is compared are two runs, at states with the same clock, the same errands of the kind and
the same entries under its keys (`Errands.Alike`).  A step of the kind reads and changes no other
keys, so it can be taken in both (`Law.ConfinesCourse.mimic`).
-/
import RequestCache.Proofs.Errands
import RequestCache.Proofs.Expiry

namespace RequestCache

variable {C : Catalogue} {α : Type} {k : C.Kind}

/-! ## Stores that agree on some keys -/

namespace Memory

variable {m m' : Memory} {now : Instant}

lemma read_congr {key : String} (h : m'.get? key = m.get? key) :
    (m'.read now key).1 = (m.read now key).1 := by
  rw [read_value, read_value, live?_congr h]

lemma get?_read_congr {key other : String} (hkey : m'.get? key = m.get? key)
    (h : m'.get? other = m.get? other) :
    (m'.read now key).2.get? other = (m.read now key).2.get? other := by
  rw [get?_read, get?_read, live?_congr hkey, h]

/-- The outcome of a change does not depend on the store. -/
lemma change_outcome (m m' : Memory) (now : Instant) (c : Change) :
    (m'.change now c).1 = (m.change now c).1 := by
  cases c with
  | put key text l =>
    change (m'.write now key text l).1 = (m.write now key text l).1
    unfold write
    cases l.check with
    | error fault => rfl
    | ok u =>
      dsimp only
      split <;> rfl
  | delete key => rfl

/-- What a change leaves under a key depends on what was there alone. -/
lemma get?_change_congr {key : String} (h : m'.get? key = m.get? key) (c : Change) :
    (m'.change now c).2.get? key = (m.change now c).2.get? key := by
  cases c with
  | put other text l =>
    change (m'.write now other text l).2.get? key = (m.write now other text l).2.get? key
    by_cases hl : l.check = .ok ()
    · rw [get?_write hl, get?_write hl, h]
    · have hrefused : ∀ m : Memory, ∃ fault, m.write now other text l = (.error fault, m) :=
        fun _ => write_of_not_check hl other text
      obtain ⟨fault, hm⟩ := hrefused m
      obtain ⟨fault', hm'⟩ := hrefused m'
      rw [hm, hm', h]
  | delete other =>
    change (m'.erase other).get? key = (m.erase other).get? key
    rw [Table.get?_erase, Table.get?_erase, h]

end Memory

/-- The two share the same clock, and the same entries under some keys. -/
structure Commons.Agrees (mine : String → Prop) (c d : Commons C) : Prop where
  clock : d.clock = c.clock
  get? : ∀ x, mine x → d.memory.get? x = c.memory.get? x

namespace Commons.Agrees

variable {mine : String → Prop} {c d : Commons C}

/-- An effect on own keys is answered alike. -/
lemma answers (hcd : c.Agrees mine d) {cancelled : Bool} {e : Effect (handlings C)} {x : e.Answer}
    {m : Memory} (hkeys : ∀ key ∈ Effect.keys e, mine key) (h : Answers cancelled c e x m) :
    ∃ m', Answers cancelled d e x m' ∧ ∀ other, mine other → m'.get? other = m.get? other := by
  cases h with
  | isCancelled => exact ⟨d.memory, .isCancelled, hcd.get?⟩
  | log event => exact ⟨d.memory, .log event, hcd.get?⟩
  | measure recorder what => exact ⟨d.memory, .measure recorder what, hcd.get?⟩
  | read key =>
    have hkey : d.memory.get? key = c.memory.get? key :=
      hcd.get? key (hkeys key (by simp [Effect.keys]))
    have hanswer : Answers cancelled d (.read key) (some (.ok (d.memory.read d.clock key).1))
        (d.memory.read d.clock key).2 := .read key
    rw [hcd.clock, Memory.read_congr hkey] at hanswer
    refine ⟨_, hanswer, ?_⟩
    intro other hother
    exact Memory.get?_read_congr hkey (hcd.get? other hother)
  | readFails key fault => exact ⟨d.memory, .readFails key fault, hcd.get?⟩
  | readCut key hcut => exact ⟨d.memory, .readCut key hcut, hcd.get?⟩
  | work op outcome => exact ⟨d.memory, .work op outcome, hcd.get?⟩
  | workCut op hcut => exact ⟨d.memory, .workCut op hcut, hcd.get?⟩

end Commons.Agrees

lemma Progress.clock {cancelled : Bool} {c c' : Commons C} {course course' : Course C α}
    (h : Progress cancelled c course c' course') : c'.clock = c.clock := by
  cases h <;> rfl

namespace Law

variable {L : Law C} {h : History C} {mine : String → Prop} {cancelled : Bool}
  {c c' d : Commons C} {course course' : Course C α}

/-- A step of a confined operation can be taken wherever the clock and its own keys are the
same, with the same result for them. -/
theorem ConfinesCourse.mimic (hcourse : L.ConfinesCourse h mine course) (hcd : c.Agrees mine d)
    (hprogress : Progress cancelled c course c' course') :
    ∃ d', Progress cancelled d course d' course' ∧ c'.Agrees mine d' := by
  cases hprogress with
  | ask hx =>
    obtain ⟨m', hanswers, hagree⟩ := hcd.answers hcourse.1.2 hx
    exact ⟨_, .ask hanswers, hcd.clock, hagree⟩
  | begin => exact ⟨d, .begin, hcd⟩
  | @land flights j change next hj =>
    have hland : Progress cancelled d (.changing flights next) _ _ := .land hj
    rw [hcd.clock, Memory.change_outcome c.memory d.memory] at hland
    exact ⟨_, hland, rfl, fun x hx => Memory.get?_change_congr (hcd.get? x hx) change⟩
  | @fail flights j change next hj fault m hm =>
    rcases hm with rfl | rfl
    · exact ⟨_, .fail hj fault (.inl rfl), hcd.clock, hcd.get?⟩
    · refine ⟨_, .fail hj fault (.inr rfl), hcd.clock, ?_⟩
      intro x hx
      rw [hcd.clock]
      exact Memory.get?_change_congr (hcd.get? x hx) change
  | finish houtcomes => exact ⟨d, .finish houtcomes, hcd⟩
  | cut hcut => exact ⟨d, .cut hcut, hcd⟩

end Law

/-! ## Two runs -/

namespace Errands

variable {s : CacheSetup C (handlings C)} {all may : C.Kind → Prop} {t t' u : Errands C}
  {b : C.Kind}

/-- The two have the same clock, the same errands of a kind with the same results, and the same
entries under the keys of the kind. -/
structure Alike (s : CacheSetup C (handlings C)) (b : C.Kind) (t u : Errands C) : Prop where
  commons : t.commons.Agrees (s.Owns b) u.commons
  trips : u.trips b = t.trips b

namespace Alike

lemma refl (s : CacheSetup C (handlings C)) (b : C.Kind) (t : Errands C) : t.Alike s b t :=
  ⟨⟨rfl, fun _ _ => rfl⟩, rfl⟩

lemma symm (h : t.Alike s b u) : u.Alike s b t :=
  ⟨⟨h.commons.clock.symm, fun x hx => (h.commons.get? x hx).symm⟩, h.trips.symm⟩

lemma trans {v : Errands C} (h : t.Alike s b u) (h' : u.Alike s b v) : t.Alike s b v :=
  ⟨⟨h'.commons.clock.trans h.commons.clock,
    fun x hx => (h'.commons.get? x hx).trans (h.commons.get? x hx)⟩, h'.trips.trans h.trips⟩

lemma atTime (h : t.Alike s b u) (now : Instant) : (t.atTime now).Alike s b (u.atTime now) :=
  ⟨⟨rfl, h.commons.get?⟩, h.trips⟩

/-- The same errands of the kind in both. -/
lemma withTrips (h : t.Alike s b u) (trips : List (Trip C b)) :
    (t.withTrips b trips).Alike s b (u.withTrips b trips) :=
  ⟨h.commons, by rw [trips_withTrips_same, trips_withTrips_same]⟩

/-- Other errands of another kind in one of them. -/
lemma withTrips_other (h : t.Alike s b u) (trips : List (Trip C k)) (hne : b ≠ k) :
    t.Alike s b (u.withTrips k trips) :=
  ⟨h.commons, (trips_withTrips_other u trips hne).trans h.trips⟩

end Alike

/-- A step of an errand of another kind changes no entry under a key of this one. -/
lemma Orderly.alike_of_progress (ht : t.Orderly s all) (hdisjoint : s.Disjoint all) (hk : all k)
    (hb : all b) (hne : b ≠ k) {trip : Trip C k} (htrip : trip ∈ t.trips k) {c : Commons C}
    {course : Course C trip.errand.Result}
    (hprogress : Progress trip.cancelled t.commons trip.course c course) :
    t.Alike s b (t.withCommons c) := by
  refine ⟨⟨hprogress.clock, ?_⟩, rfl⟩
  intro x hx
  refine (ht.progress htrip hprogress).2.2.2 x ?_
  intro hx'
  exact hne (hdisjoint hb hk hx hx')

section

variable (hdisjoint : s.Disjoint all) (hb : all b)

include hdisjoint hb

/-- A step of other kinds might as well have been a mere passing of time. -/
lemma Step.aside (h : Step s may t t') (ht : t.Orderly s all) (hsub : ∀ k, may k → all k)
    (hnot : ∀ k, may k → b ≠ k) : (t.atTime t'.commons.clock).Alike s b t' := by
  have halike : (∃ now, t' = t.atTime now) ∨ t.Alike s b t' := by
    cases h with
    | begin hk hp e => exact .inr ((Alike.refl s b t).withTrips_other _ (hnot _ hk))
    | tick hle => exact .inl ⟨_, rfl⟩
    | cancel hk hi => exact .inr ((Alike.refl s b t).withTrips_other _ (hnot _ hk))
    | progress hk hi hprogress =>
      have hcommons := ht.alike_of_progress hdisjoint (hsub _ hk) hb (hnot _ hk)
        (List.mem_of_getElem? hi) hprogress
      exact .inr (hcommons.withTrips_other _ (hnot _ hk))
  rcases halike with ⟨now, rfl⟩ | halike
  · exact .refl s b _
  · exact ⟨⟨rfl, halike.commons.get?⟩, halike.trips⟩

/-- A run of other kinds might as well have been a mere passing of time. -/
theorem Reaches.aside (h : Reaches s may t t') (ht : t.Orderly s all) (hsub : ∀ k, may k → all k)
    (hnot : ∀ k, may k → b ≠ k) : (t.atTime t'.commons.clock).Alike s b t' := by
  induction h with
  | refl => exact .refl s b t
  | @tail m t' hsteps hstep ih =>
    have hbefore := (Reaches.mono hsteps hsub).orderly hdisjoint ht
    have hnext := hstep.aside hdisjoint hb hbefore hsub hnot
    exact (ih.atTime t'.commons.clock).trans hnext

/-- A step of any kind is followed by a step of this kind, or needs none if it is one of another
kind. -/
theorem Alike.follow (htu : t.Alike s b u) (ht : t.Orderly s all) (hstep : Step s all t t') :
    ∃ u', Reaches s (· = b) u u' ∧ t'.Alike s b u' := by
  cases hstep with
  | @begin k p hk hp e =>
    by_cases hne : b = k
    · subst hne
      have hbegin : Step s (· = b) u _ := .begin (by rfl) hp e
      refine ⟨_, hbegin.reaches, ?_⟩
      rw [htu.trips]
      exact htu.withTrips _
    · exact ⟨u, .refl, (htu.symm.withTrips_other _ hne).symm⟩
  | @tick now hle =>
    rw [← htu.commons.clock] at hle
    exact ⟨_, Step.reaches (.tick hle), htu.atTime now⟩
  | @cancel k i trip hk hi =>
    by_cases hne : b = k
    · subst hne
      refine ⟨_, Step.reaches (.cancel rfl (htu.trips.symm ▸ hi)), ?_⟩
      rw [htu.trips]
      exact htu.withTrips _
    · exact ⟨u, .refl, (htu.symm.withTrips_other _ hne).symm⟩
  | @progress k i trip c course hk hi hprogress =>
    have htrip : trip ∈ t.trips k := List.mem_of_getElem? hi
    by_cases hne : b = k
    · subst hne
      obtain ⟨d, hmimic, hagrees⟩ := (ht.confined b trip htrip).mimic htu.commons hprogress
      have hcommons : (t.withCommons c).Alike s b (u.withCommons d) := ⟨hagrees, htu.trips⟩
      refine ⟨_, Step.reaches (.progress rfl (htu.trips.symm ▸ hi) hmimic), ?_⟩
      rw [htu.trips]
      exact hcommons.withTrips _
    · have hcommons := ht.alike_of_progress hdisjoint hk hb hne htrip hprogress
      exact ⟨u, .refl, (hcommons.withTrips_other _ hne).symm.trans htu⟩

/-- Every run of several kinds is followed by a run of one of them alone. -/
theorem Reaches.follow (h : Reaches s all t t') (ht : t.Orderly s all) (htu : t.Alike s b u) :
    ∃ u', Reaches s (· = b) u u' ∧ t'.Alike s b u' := by
  induction h with
  | refl => exact ⟨u, .refl, htu⟩
  | tail hsteps hstep ih =>
    obtain ⟨v, hv, halike⟩ := ih
    have hbefore := Reaches.orderly hsteps hdisjoint ht
    obtain ⟨u', hu', halike'⟩ := halike.follow hdisjoint hb hbefore hstep
    exact ⟨u', hv.trans hu', halike'⟩

end

/-- Errands of two kinds without a common key are at work.  A run of errands of the first kind
leaves every entry under a key of the second as it is.  Whatever happens then, the errands of the
second kind might have come to the same results, and the entries under their keys be the same, had
no errand of the first kind been at work since.  And whatever might have happened if only time had
passed in place of the run may happen after it. -/
theorem Reachable.not_noticed {a b : C.Kind} {p : Plan C a} {q : Plan C b}
    (hp : s.plan a = some p) (hq : s.plan b = some q)
    (hapart : ∀ identifier identifier', p.key identifier ≠ q.key identifier')
    (ht : t.Reachable s fun k => k = a ∨ k = b) (h : Reaches s (· = a) t t') :
    (∀ identifier, t'.commons.memory.get? (q.key identifier).text =
        t.commons.memory.get? (q.key identifier).text) ∧
      (∀ v, Reaches s (fun k => k = a ∨ k = b) t' v →
        ∃ u, Reaches s (· = b) t u ∧ u.Alike s b v) ∧
      ∀ u, Reaches s (· = b) (t.atTime t'.commons.clock) u →
        ∃ v, Reaches s (· = b) t' v ∧ u.Alike s b v := by
  have hdisjoint := CacheSetup.disjoint_pair hp hq hapart
  have hne : b ≠ a := by
    rintro rfl
    cases hp.symm.trans hq
    exact hapart "" "" rfl
  have hb : b = a ∨ b = b := .inr rfl
  have hleft : ∀ k, k = a → k = a ∨ k = b := fun _ hk => .inl hk
  have hright : ∀ k, k = b → k = a ∨ k = b := fun _ hk => .inr hk
  have horderly := ht.orderly hdisjoint
  have haside : (t.atTime t'.commons.clock).Alike s b t' := by
    refine h.aside hdisjoint hb horderly hleft ?_
    rintro k rfl
    exact hne
  refine ⟨?_, ?_, ?_⟩
  · intro identifier
    exact haside.commons.get? _ (CacheSetup.owns_key hq identifier)
  · intro v hv
    obtain ⟨u, hu, halike⟩ :=
      Reaches.follow hdisjoint hb ((h.mono hleft).trans hv) horderly (.refl s b t)
    exact ⟨u, hu, halike.symm⟩
  · intro u hu
    exact Reaches.follow hdisjoint hb (hu.mono hright) (horderly.atTime _) haside

end Errands

namespace Demo

/-- A greeting and a reset never have the same key. -/
lemma greeting_ne_reset (identifier identifier' : String) :
    greetingPlan.key identifier ≠ resetPlan.key identifier' := by
  intro h
  have hne : Kind.greeting.name ≠ Kind.reset.name := by decide
  have hextends := (Key.exists_ofParts_eq_iff hne).1 ⟨identifier, identifier', h⟩
  revert hextends
  decide

/-- What is written for a reset. -/
def resetText : String :=
  (Bundle.members .null ["pipecache_demo::ResetGreeting:1"]).render

/-- What is written for a greeting. -/
def numberedText : String :=
  (Bundle.members (.members [("text", .text "hello")])
    ["demo.GetGreeting:1", "demo.GetGreeting:hello"]).render

/-- The changes that store a response. -/
lemma exists_storing_eq {k : catalogue.Kind} (p : Plan catalogue k) {request : catalogue.Request k}
    {response : catalogue.Response k} {keys : List Key} {text : String}
    (hkeys : p.entryKeys request response = keys) (hne : keys ≠ [])
    (htext : Bundle.encode (catalogue.codec k) ⟨response, Key.texts keys⟩ = .ok text) :
    ∃ next, (Errand.store request response).action bothSetup p =
      .ask (I := effects (handlings catalogue))
        (.apply ((Key.texts keys).map (.put · text p.expiration.lifetime))) next := by
  change ∃ next, p.store request response = _
  subst hkeys
  rw [Plan.store_of_encode hne htext]
  exact ⟨_, rfl⟩

/-- A step of the only errand of a kind. -/
lemma progress_only {k : catalogue.Kind} {t : Errands catalogue} {trip : Trip catalogue k}
    {c : Commons catalogue} {course : Course catalogue trip.errand.Result}
    (htrips : t.trips k = [trip])
    (hprogress : Progress trip.cancelled t.commons trip.course c course) :
    Errands.Step bothSetup (· = k) t ((t.withCommons c).withTrips k [{ trip with course }]) := by
  have hfirst : (t.trips k)[0]? = some trip := by
    rw [htrips]
    rfl
  have hstep : Errands.Step bothSetup (· = k) t _ := .progress (by rfl) hfirst hprogress
  rwa [htrips] at hstep

/-- The only errand of a kind is cancelled. -/
lemma cancel_only {k : catalogue.Kind} {t : Errands catalogue} {trip : Trip catalogue k}
    (htrips : t.trips k = [trip]) :
    Errands.Step bothSetup (· = k) t (t.withTrips k [{ trip with cancelled := true }]) := by
  have hfirst : (t.trips k)[0]? = some trip := by
    rw [htrips]
    rfl
  have hstep : Errands.Step bothSetup (· = k) t _ := .cancel (by rfl) hfirst
  rwa [htrips] at hstep

/-- The first errand of a kind may make the first of its changes and be cancelled then. -/
lemma exists_first_change {k : catalogue.Kind} {p : Plan catalogue k} {e : Errand catalogue k}
    {change : Change} {changes : List Change} {t : Errands catalogue} (htrips : t.trips k = [])
    (hp : bothSetup.plan k = some p)
    (haction : ∃ next, e.action bothSetup p =
      .ask (I := effects (handlings catalogue)) (.apply (change :: changes)) next) :
    ∃ t' : Errands catalogue, t.Reaches bothSetup (· = k) t' ∧
      t'.commons.memory = (t.commons.memory.change t.commons.clock change).2 := by
  obtain ⟨next, haction⟩ := haction
  have hasked : Errands.Step bothSetup (· = k) t _ := .begin (by rfl) hp e
  rw [htrips, haction, List.nil_append] at hasked
  have hbegun := hasked.reaches.tail (progress_only (Errands.trips_withTrips_same ..) .begin)
  have hmade := hbegun.tail
    (progress_only (Errands.trips_withTrips_same ..) (.land (j := 0) rfl))
  have hcancelled := hmade.tail (cancel_only (Errands.trips_withTrips_same ..))
  have hcut := hcancelled.tail (progress_only (Errands.trips_withTrips_same ..) (.cut rfl))
  exact ⟨_, hcut, rfl⟩

/-- A greeting is half written when its errand is cancelled.  What is stored for a reset stays as
it was written. -/
theorem reset_not_noticed :
    ∃ t t' : Errands catalogue,
      t.Reachable bothSetup (fun k => k = Kind.greeting ∨ k = Kind.reset) ∧
      t.Reaches bothSetup (· = Kind.greeting) t' ∧
      (t'.commons.memory.get? "demo.GetGreeting:1").map Held.value = some numberedText ∧
      t'.commons.memory.get? "demo.GetGreeting:hello" = none ∧
      t'.commons.memory.get? "pipecache_demo::ResetGreeting:1" =
        some ⟨resetText, none, none, .epoch⟩ := by
  have hreset : resetPlan.entryKeys (1 : ℕ) () = [⟨"pipecache_demo::ResetGreeting:1"⟩] := by decide
  have hgreeting : greetingPlan.entryKeys (1 : ℕ) "hello" =
      [⟨"demo.GetGreeting:1"⟩, ⟨"demo.GetGreeting:hello"⟩] := by decide
  have hresetText : Bundle.encode (catalogue.codec Kind.reset)
      ⟨(), Key.texts [⟨"pipecache_demo::ResetGreeting:1"⟩]⟩ = .ok resetText :=
    Bundle.encode_eq_ok_iff.2 ⟨_, rfl, rfl⟩
  have hgreetingText : Bundle.encode (catalogue.codec Kind.greeting)
      ⟨"hello", Key.texts [⟨"demo.GetGreeting:1"⟩, ⟨"demo.GetGreeting:hello"⟩]⟩ =
        .ok numberedText :=
    Bundle.encode_eq_ok_iff.2 ⟨_, rfl, rfl⟩
  obtain ⟨t, ht, hmemory⟩ := exists_first_change (t := .start .epoch) rfl rfl
    (exists_storing_eq resetPlan hreset (List.cons_ne_nil _ _) hresetText)
  have hnone : t.trips Kind.greeting = [] := ht.trips_eq (by rintro ⟨⟩)
  obtain ⟨t', ht', hmemory'⟩ := exists_first_change hnone rfl
    (exists_storing_eq greetingPlan hgreeting (List.cons_ne_nil _ _) hgreetingText)
  have hreachable : t.Reachable bothSetup fun k => k = Kind.greeting ∨ k = Kind.reset :=
    ⟨.epoch, ht.mono fun _ => .inr⟩
  obtain ⟨hkept, -⟩ := hreachable.not_noticed rfl rfl greeting_ne_reset ht'
  refine ⟨t, t', hreachable, ht', ?_, ?_, ?_⟩
  · rw [hmemory', hmemory]
    rfl
  · rw [hmemory', hmemory]
    rfl
  · have hkey : (resetPlan.key "1").text = "pipecache_demo::ResetGreeting:1" := by decide
    rw [← hkey, hkept "1", hmemory]
    rfl

end Demo

end RequestCache
