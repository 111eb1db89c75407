/-
# When a request makes an entry go away

A request was handled and its response stored, and from then on it was only ever answered from the
cache, however often it was sent and however the clock moved (`CachedSince`).  Another request
has evictions.  After it was answered the first one's entry is gone from all of its keys, or it
is still there and answers the first request as before; which of the two is decided by the keys
that the evictions name (`evicts_iff`).

Naming a key of the entry is not enough.  Of a sliding expiration the keys that nobody reads end
on their own, and an eviction that names such a key finds nothing there.
-/
import RequestCache.Proofs.Cascade

namespace RequestCache

variable {C : Catalogue} {script : Script C} {S : Service C fun _ _ => False} {k : C.Kind}
  {p : Plan C k} {request : C.Request k} {s : Scene C}

/-- One of the evictions of a request removes the entry that is found under the key. -/
def Service.Evicts (S : Service C fun _ _ => False) (request : C.Request k) (key : Key) : Prop :=
  ∃ (target : C.Kind) (q : Plan C target) (identifier : C.Request k → String),
    S.setup.plan target = some q ∧ .ofPlan q identifier ∈ S.setup.evictions k ∧
      q.key (identifier request) = key

namespace Scene

/-! ## Dispatches with evictions -/

lemma exists_forall₂ {α β : Type} {R : α → β → Prop} {as : List α} (h : ∀ a ∈ as, ∃ b, R a b) :
    ∃ bs, List.Forall₂ R as bs := by
  induction as with
  | nil => exact ⟨[], .nil⟩
  | cons a as ih =>
    obtain ⟨b, hb⟩ := h a (by simp)
    obtain ⟨bs, hbs⟩ := ih fun a' ha' => h a' (by simp [ha'])
    exact ⟨b :: bs, .cons hb hbs⟩

/-- Every eviction of a request removes the entry that some key finds. -/
lemma exists_removed (S : Service C fun _ _ => False) (k : C.Kind) (request : C.Request k) :
    ∃ removed, List.Forall₂ (fun e key => e.evict request = Entry.remove key)
      (S.setup.evictions k) removed := by
  refine exists_forall₂ fun e he => ?_
  rcases S.built.eviction_cases he with hfalse | ⟨target, q, identifier, -, rfl⟩
  · exact hfalse.elim
  · exact ⟨q.key (identifier request), rfl⟩

/-- A removal begins with the read of its key. -/
lemma remove_injective {W : Interface} {key key' : Key}
    (h : (Entry.remove key : Action W _) = Entry.remove key') : key = key' := by
  injection h with hread
  injection hread with htext
  exact Key.text_injective htext

variable {removed : List Key}

lemma mem_removed_iff
    (hremoved : List.Forall₂ (fun e key => e.evict request = Entry.remove key)
      (S.setup.evictions k) removed) (key : Key) :
    key ∈ removed ↔ S.Evicts request key := by
  constructor
  · intro hkey
    obtain ⟨e, he, hremove⟩ : ∃ e ∈ S.setup.evictions k, e.evict request = Entry.remove key := by
      obtain ⟨i, hi, rfl⟩ := List.getElem_of_mem hkey
      have hlength := hremoved.length_eq
      exact ⟨(S.setup.evictions k)[i], List.getElem_mem _, hremoved.get (by omega) hi⟩
    rcases S.built.eviction_cases he with hfalse | ⟨target, q, identifier, hq, rfl⟩
    · exact hfalse.elim
    · exact ⟨target, q, identifier, hq, he, remove_injective hremove⟩
  · rintro ⟨target, q, identifier, hq, he, rfl⟩
    obtain ⟨i, hi, hget⟩ := List.getElem_of_mem he
    have hlength := hremoved.length_eq
    have hremove := hremoved.get hi (by omega)
    simp only [List.get_eq_getElem, hget] at hremove
    rw [show q.key (identifier request) = _ from remove_injective hremove]
    exact List.getElem_mem _

lemma run_send_leave (hserved : S.inner.isServed k = true)
    (hremoved : List.Forall₂ (fun e key => e.evict request = Entry.remove key)
      (S.setup.evictions k) removed) :
    ∃ looking, run script (S.dispatcher.send k request) s =
      leave removed (run script
        (throughStages (asking k) request (S.setup.lookupStage k looking)) s) := by
  obtain ⟨evicting, looking, hrun⟩ := run_send script s hserved
  refine ⟨looking, ?_⟩
  rw [hrun, CacheSetup.evictionStage]
  split_ifs with hempty
  · rw [List.isEmpty_iff.1 hempty] at hremoved
    cases hremoved
    rw [List.nil_append]
    rcases run script _ s with ⟨outcome, s'⟩
    cases outcome <;> rfl
  · exact run_evictions script s hremoved _ _

lemma run_send_found (hserved : S.inner.isServed k = true) (hp : S.setup.plan k = some p)
    (hremoved : List.Forall₂ (fun e key => e.evict request = Entry.remove key)
      (S.setup.evictions k) removed) {response : C.Response k}
    (hfound : s.found (C.codec k) (p.lookupKey request) = some response) :
    run script (S.dispatcher.send k request) s =
      (.ok response, removed.foldl remove (s.read (p.lookupKey request))) := by
  obtain ⟨looking, hrun⟩ := run_send_leave hserved hremoved
  rw [hrun]
  simp only [CacheSetup.lookupStage, hp]
  rw [run_lookup_hit script s _ hfound, leave]

lemma run_send_not_found (hserved : S.inner.isServed k = true) (hp : S.setup.plan k = some p)
    (hremoved : List.Forall₂ (fun e key => e.evict request = Entry.remove key)
      (S.setup.evictions k) removed)
    (hfound : s.found (C.codec k) (p.lookupKey request) = none) :
    ∃ looking, run script (S.dispatcher.send k request) s =
      leave removed (run script
        (Lookup.populate p S.setup.policy looking request (script s.handled.length k request))
        ((s.read (p.lookupKey request)).handle
          ⟨k, request, script s.handled.length k request⟩)) := by
  obtain ⟨looking, hrun⟩ := run_send_leave hserved hremoved
  refine ⟨looking, ?_⟩
  rw [hrun]
  simp only [CacheSetup.lookupStage, hp]
  rw [run_lookup_miss script s hfound]

lemma handled_leave (removed : List Key) (x : Outcome C k × Scene C) :
    (leave removed x).2.handled = x.2.handled := by
  obtain ⟨outcome, s⟩ := x
  cases outcome with
  | error e => rfl
  | ok response => exact handled_foldl_remove removed

lemma handled_populate {policy : FaultPolicy} {recorder : Recorder} (outcome : Outcome C k) :
    (run script (Lookup.populate p policy recorder request outcome) s).2.handled = s.handled := by
  have hcases : (run script (Lookup.populate p policy recorder request outcome) s).2 = s ∨ _ :=
    run_populate_cases script s outcome
  rcases hcases with h | ⟨response, text, -, -, -, h⟩
  · rw [h]
  · rw [h]
    rfl

lemma handled_send_of_not_found (hserved : S.inner.isServed k = true)
    (hp : S.setup.plan k = some p)
    (hfound : s.found (C.codec k) (p.lookupKey request) = none) :
    (run script (S.dispatcher.send k request) s).2.handled =
      ⟨k, request, script s.handled.length k request⟩ :: s.handled := by
  obtain ⟨removed, hremoved⟩ := exists_removed S k request
  obtain ⟨looking, hrun⟩ := run_send_not_found hserved hp hremoved hfound
  rw [hrun, handled_leave, handled_populate]
  rfl

/-- A cached request is handled exactly when its response is not found. -/
theorem handled_send_eq_iff (hserved : S.inner.isServed k = true)
    (hp : S.setup.plan k = some p) :
    (run script (S.dispatcher.send k request) s).2.handled = s.handled ↔
      (s.found (C.codec k) (p.lookupKey request)).isSome = true := by
  obtain ⟨removed, hremoved⟩ := exists_removed S k request
  cases hfound : s.found (C.codec k) (p.lookupKey request) with
  | none =>
    rw [handled_send_of_not_found hserved hp hfound]
    simp
  | some response =>
    rw [run_send_found hserved hp hremoved hfound, handled_foldl_remove]
    simp [read]

/-! ## Writing an entry -/

variable {keys : List String} {text : String} {named : Key → Prop}

/-- A fresh entry is whole if no older one lists a key of it. -/
lemma whole_put {l : Lifetime} (hl : l.check = .ok ()) (h : s.memory.Apart keys named) :
    (s.put keys text l).memory.Whole keys text named where
  inside x hx e he := by
    rw [get?_put s hl, if_pos hx] at he
    exact Held.value_of_fresh? he
  apart key hnamed hkey e he := by
    rw [get?_put s hl, if_neg hkey] at he
    exact h key hnamed hkey e he

/-- An entry under other keys leaves a whole one whole. -/
lemma whole_put_other {α : Type} {l : Lifetime} (hl : l.check = .ok ())
    (h : s.memory.Whole keys text named) {c : Json.Codec α} {value : α} {others : List String}
    {other : String} (hother : Bundle.encode c ⟨value, others⟩ = .ok other)
    (hothers : ∀ x ∈ others, x ∉ keys) :
    (s.put others other l).memory.Whole keys text named where
  inside x hx e he := by
    rw [get?_put s hl, if_neg fun hmem => hothers x hmem hx] at he
    exact h.inside x hx e he
  apart key hnamed hkey e he listed hlisted := by
    rw [get?_put s hl] at he
    split_ifs at he
    · rw [Held.value_of_fresh? he, Bundle.decodeKeys?_encode hother] at hlisted
      cases hlisted
      exact hothers
    · exact h.apart key hnamed hkey e he listed hlisted

lemma contains_put_other {l : Lifetime} (hl : l.check = .ok ()) {others : List String}
    {other : String} {x : String} (hx : x ∉ others) (now : Instant) :
    (s.put others other l).memory.contains now x = s.memory.contains now x := by
  refine Memory.contains_congr ?_
  rw [get?_put s hl, if_neg hx]

/-- An entry that was just written is kept. -/
lemma kept_put (hl : p.expiration.lifetime.check = .ok ()) (h : s.memory.Apart keys named)
    (hlookup : (p.lookupKey request).text ∈ keys) :
    Kept p request keys text named s.clock (s.put keys text p.expiration.lifetime) where
  since := Int.le_refl _
  whole := whole_put hl h
  owned e he := by
    rw [get?_put s hl, if_pos hlookup, Held.fresh?] at he
    split_ifs at he
    cases he
    exact ⟨rfl, rfl⟩
  siblings _ x hx _ now _ := by
    rw [Memory.contains, get?_put s hl, if_pos hx]

/-! ## A request that is only answered from the cache -/

/-- From a scene on, a request was sent any number of times and never handled, and the clock was
moved forward. -/
inductive ServedSince (script : Script C) (S : Service C fun _ _ => False)
    (request : C.Request k) (start : Scene C) : Scene C → Prop
  | start : ServedSince script S request start start
  /-- The clock is moved. -/
  | wait {s : Scene C} {now : Instant} (h : ServedSince script S request start s)
      (hnow : s.clock ≤ now) : ServedSince script S request start (s.atTime now)
  /-- The request is sent once more. -/
  | again {s : Scene C} (h : ServedSince script S request start s)
      (hsame : (run script (S.dispatcher.send k request) s).2.handled = s.handled) :
      ServedSince script S request start (run script (S.dispatcher.send k request) s).2

/-- A request was handled and its response stored, under the identifier that the request is
looked up under among others; from then on it was only answered from the cache, and it would be
answered from there now. -/
structure CachedSince (script : Script C) (S : Service C fun _ _ => False) (p : Plan C k)
    (request : C.Request k) (response : C.Response k) (start now : Scene C) : Prop where
  served : S.inner.isServed k = true
  planned : S.setup.plan k = some p
  period : p.expiration.HasPeriod
  listed : p.lookupId request ∈ p.entryIds request response
  written : ∃ text, (C.codec k).render response = .ok text
  handled : (run script (S.dispatcher.send k request) start).2.handled =
    ⟨k, request, .ok response⟩ :: start.handled
  since : ServedSince script S request (run script (S.dispatcher.send k request) start).2 now
  still : (run script (S.dispatcher.send k request) now).2.handled = now.handled

section

variable {response : C.Response k} {start now : Scene C}

lemma exists_encode_of_render {α : Type} {c : Json.Codec α} {value : α}
    (h : ∃ text, c.render value = .ok text) (keys : List String) :
    ∃ text, Bundle.encode c ⟨value, keys⟩ = .ok text := by
  obtain ⟨text, htext⟩ := h
  cases hwrite : c.write value with
  | error message => simp [Json.Codec.render, hwrite, Except.map] at htext
  | ok v => exact ⟨_, Bundle.encode_eq_ok_iff.2 ⟨v, hwrite, rfl⟩⟩

lemma apart_read {s : Scene C} (h : s.memory.Apart keys named) (key : Key) :
    (s.read key).memory.Apart keys named := by
  intro other hnamed hother e he listed hlisted
  obtain ⟨e', he', hvalue⟩ := Memory.exists_get?_of_get?_read he
  exact h other hnamed hother e' he' listed (hvalue ▸ hlisted)

/-- The dispatch that handles the request leaves its entry to be kept. -/
lemma CachedSince.kept_start (h : CachedSince script S p request response start now)
    (hapart : start.memory.Apart (Key.texts (p.entryKeys request response)) named)
    (hnamed : ∀ key, S.Evicts request key → named key) {text : String}
    (htext : Bundle.encode (C.codec k)
      ⟨response, Key.texts (p.entryKeys request response)⟩ = .ok text) :
    Kept p request (Key.texts (p.entryKeys request response)) text named start.clock
      (run script (S.dispatcher.send k request) start).2 := by
  obtain ⟨removed, hremoved⟩ := exists_removed S k request
  have hlookup : (p.lookupKey request).text ∈ Key.texts (p.entryKeys request response) :=
    Key.mem_texts.2 ⟨_, lookupKey_mem_entryKeys h.listed, rfl⟩
  have hfound : start.found (C.codec k) (p.lookupKey request) = none := by
    by_contra hne
    have hsame : (run script (S.dispatcher.send k request) start).2.handled = start.handled :=
      (handled_send_eq_iff h.served h.planned).2 (Option.isSome_iff_ne_none.2 hne)
    rw [h.handled] at hsame
    exact List.cons_ne_self _ _ hsame
  obtain ⟨looking, hrun⟩ := run_send_not_found h.served h.planned hremoved hfound
  have hscript : script start.handled.length k request = .ok response := by
    have hhandled := h.handled
    rw [hrun, handled_leave, handled_populate] at hhandled
    injection hhandled with hhead
    injection hhead
  rw [hscript, run_populate_ok script _ h.period.check
    (List.ne_nil_of_mem (lookupKey_mem_entryKeys h.listed)) htext] at hrun
  rw [hrun]
  have hkept : Kept p request (Key.texts (p.entryKeys request response)) text named start.clock
      (((start.read (p.lookupKey request)).handle ⟨k, request, .ok response⟩).put
        (Key.texts (p.entryKeys request response)) text p.expiration.lifetime) :=
    kept_put (s := (start.read (p.lookupKey request)).handle ⟨k, request, .ok response⟩)
      h.period.check (apart_read hapart _) hlookup
  exact hkept.removals htext hlookup fun key hkey =>
    hnamed key ((mem_removed_iff hremoved key).1 hkey)

/-- An entry stays kept for as long as its request is only answered from the cache. -/
lemma ServedSince.kept {start now : Scene C} (h : ServedSince script S request start now)
    (hserved : S.inner.isServed k = true) (hp : S.setup.plan k = some p) {keys : List String}
    {text : String} (htext : Bundle.encode (C.codec k) ⟨response, keys⟩ = .ok text)
    (hlookup : (p.lookupKey request).text ∈ keys)
    (hnamed : ∀ key, S.Evicts request key → named key) {written : Instant}
    (hstart : Kept p request keys text named written start) :
    Kept p request keys text named written now := by
  induction h with
  | start => exact hstart
  | wait _ hnow ih => exact ih.atTime hnow
  | again _ hsame ih =>
    obtain ⟨removed, hremoved⟩ := exists_removed S k request
    obtain ⟨found, hfound⟩ := Option.isSome_iff_exists.1
      ((handled_send_eq_iff hserved hp).1 hsame)
    rw [run_send_found hserved hp hremoved hfound]
    exact ih.read.removals htext hlookup fun key hkey =>
      hnamed key ((mem_removed_iff hremoved key).1 hkey)

/-- Under a key of a whole entry is found what the codec makes of its value, while the key can be
read. -/
lemma found_of_whole {keys : List String} {text : String}
    (h : s.memory.Whole keys text named) {response : C.Response k}
    (htext : Bundle.encode (C.codec k) ⟨response, keys⟩ = .ok text) {key : Key} (hkey : key.text ∈ keys) :
    s.found (C.codec k) key =
      if s.memory.contains s.clock key.text = true then (C.codec k).reread response else none := by
  split_ifs with hcontains
  · obtain ⟨e, hget, hended⟩ := Memory.contains_eq_true_iff.1 hcontains
    have hvalue := h.inside key.text hkey e hget
    exact found_of_live (Memory.live?_eq_some_iff.2 ⟨hget, hended⟩) (hvalue ▸ htext)
  · exact found_of_not_live (Memory.live?_eq_none_iff.2 (by simpa using hcontains))

/-! ## The other request -/

variable {other : C.Kind} {command : C.Request other}

/-- Before its evictions a request whose own response shares no key with a whole entry leaves the
entry as it is. -/
lemma run_lookup_other (script : Script C) {keys : List String} {text : String}
    (h : s.memory.Whole keys text named)
    (hapart : ∀ q, S.setup.plan other = some q → ∀ response,
      ∀ x ∈ Key.texts (q.entryKeys command response), x ∉ keys) (looking : Recorder) :
    let s' := (run script (throughStages (asking other) command
      (S.setup.lookupStage other looking)) s).2
    s'.clock = s.clock ∧ s'.memory.Whole keys text named ∧
      ∀ x ∈ keys, s'.memory.contains s.clock x = s.memory.contains s.clock x := by
  cases hq : S.setup.plan other with
  | none =>
    simp only [CacheSetup.lookupStage, hq, throughStages, run_asking]
    exact ⟨rfl, h, fun _ _ => rfl⟩
  | some q =>
    simp only [CacheSetup.lookupStage, hq]
    have hread := whole_read h (q.lookupKey command)
    cases hfound : s.found (C.codec other) (q.lookupKey command) with
    | some response =>
      rw [run_lookup_hit script s _ hfound]
      exact ⟨rfl, hread, fun x _ => contains_read _ x⟩
    | none =>
      rw [run_lookup_miss script s hfound]
      rcases run_populate_cases script _ (script s.handled.length other command) with
        hsame | ⟨response, own, -, hl, hown, hput⟩
      · rw [hsame]
        exact ⟨rfl, hread, fun x _ => contains_read _ x⟩
      · rw [hput]
        have hothers := hapart q hq response
        refine ⟨rfl, whole_put_other hl hread hown hothers, fun x hx => ?_⟩
        rw [contains_put_other hl fun hmem => hothers x hmem hx]
        exact contains_read _ x

/-- A request that was answered came to its evictions with a whole entry that it has nothing to do
with as it was. -/
lemma exists_before_evictions {keys : List String} {text : String}
    (h : s.memory.Whole keys text named)
    (hapart : ∀ q, S.setup.plan other = some q → ∀ response,
      ∀ x ∈ Key.texts (q.entryKeys command response), x ∉ keys) {removed : List Key}
    (hremoved : List.Forall₂ (fun e key => e.evict command = Entry.remove key)
      (S.setup.evictions other) removed) {answer : C.Response other} {after : Scene C}
    (hsend : run script (S.dispatcher.send other command) s = (.ok answer, after)) :
    ∃ before : Scene C, before.clock = s.clock ∧ before.memory.Whole keys text named ∧
      (∀ x ∈ keys, before.memory.contains s.clock x = s.memory.contains s.clock x) ∧
      after = removed.foldl remove before := by
  have hserved : S.inner.isServed other = true := by
    by_contra hnot
    rw [run_send_unserved script s (by simpa using hnot)] at hsend
    cases hsend
  obtain ⟨looking, hrun⟩ := run_send_leave hserved hremoved
  rw [hsend] at hrun
  have hbefore := run_lookup_other script h hapart looking
  rcases hinner : run script (throughStages (asking other) command
    (S.setup.lookupStage other looking)) s with ⟨outcome, before⟩
  rw [hinner] at hrun hbefore
  cases outcome with
  | error e => cases hrun
  | ok inner =>
    obtain ⟨-, rfl⟩ := Prod.mk.inj hrun
    exact ⟨before, hbefore.1, hbefore.2.1, hbefore.2.2, rfl⟩

/-- A request has an eviction that names a key of another request's entry, and the key is the one
that the other request is looked up under, or it can not have ended since the entry was written:
the expiration is not sliding, or the time since then is shorter than its window. -/
def Reaches (S : Service C fun _ _ => False) (p : Plan C k) (request : C.Request k)
    (response : C.Response k) (command : C.Request other) (written now : Instant) : Prop :=
  ∃ key, S.Evicts command key ∧ key ∈ p.entryKeys request response ∧
    (key = p.lookupKey request ∨
      ∀ w, p.expiration = .sliding w → now.elapsedSince written < w.nanos)

/-- While a request would be answered from the cache, the removals of another one find its entry
exactly when they reach it. -/
lemma finds_iff_reaches {written : Instant} {text : String}
    (hkept : Kept p request (Key.texts (p.entryKeys request response)) text named written s)
    (hlookup : s.memory.contains s.clock (p.lookupKey request).text = true)
    {removed : List Key}
    (hremoved : List.Forall₂ (fun e key => e.evict command = Entry.remove key)
      (S.setup.evictions other) removed) :
    s.Finds (Key.texts (p.entryKeys request response)) removed ↔
      Reaches S p request response command written s.clock := by
  constructor
  · rintro ⟨key, hkey, hin, hcontains⟩
    refine ⟨key, (mem_removed_iff hremoved key).1 hkey, Key.text_mem_texts.1 hin, ?_⟩
    exact ((hkept.contains_iff hlookup hin).1 hcontains).imp_left Key.text_injective
  · rintro ⟨key, hevicts, hin, hlive⟩
    have hin' := Key.text_mem_texts.2 hin
    refine ⟨key, (mem_removed_iff hremoved key).2 hevicts, hin', ?_⟩
    exact (hkept.contains_iff hlookup hin').2 (hlive.imp_left (congrArg Key.text))

/-- A request that would be answered from the cache is no longer answered from there after another
one with evictions was answered, and its entry is gone from all of its keys, exactly when one of
these evictions reaches the entry.  Otherwise the entry stays where it can be read.  What
evictions name beside the keys of the entry may be entries as well, as long as these do not share
a key with it. -/
theorem evicts_iff (h : CachedSince script S p request response start now)
    (hothers : start.memory.Apart (Key.texts (p.entryKeys request response)) fun key =>
      S.Evicts request key ∨ S.Evicts command key)
    (hapart : ∀ q, S.setup.plan other = some q → ∀ answer, ∀ key ∈ q.entryKeys command answer,
      key ∉ p.entryKeys request response)
    {answer : C.Response other} {after : Scene C}
    (hsend : run script (S.dispatcher.send other command) now = (.ok answer, after)) :
    ((∀ key ∈ p.entryKeys request response,
        after.memory.contains after.clock key.text = false) ↔
      Reaches S p request response command start.clock now.clock) ∧
    ((run script (S.dispatcher.send k request) after).2.handled ≠ after.handled ↔
      Reaches S p request response command start.clock now.clock) := by
  obtain ⟨text, htext⟩ := exists_encode_of_render h.written
    (Key.texts (p.entryKeys request response))
  have hlookup : (p.lookupKey request).text ∈ Key.texts (p.entryKeys request response) :=
    Key.text_mem_texts.2 (lookupKey_mem_entryKeys h.listed)
  have hkept := h.since.kept h.served h.planned htext hlookup (fun _ => .inl)
    (h.kept_start hothers (fun _ => .inl) htext)
  -- the request would be answered from the cache, so its key can be read and its value comes back
  have hfound := (handled_send_eq_iff h.served h.planned).1 h.still
  rw [found_of_whole hkept.whole htext hlookup] at hfound
  have hreadable : now.memory.contains now.clock (p.lookupKey request).text = true := by
    by_contra hnot
    rw [if_neg hnot] at hfound
    cases hfound
  rw [if_pos hreadable] at hfound
  -- the other request reaches its evictions with the entry as it was
  obtain ⟨removed, hremoved⟩ := exists_removed S other command
  have hanswers : ∀ q, S.setup.plan other = some q → ∀ answer,
      ∀ x ∈ Key.texts (q.entryKeys command answer),
        x ∉ Key.texts (p.entryKeys request response) := by
    intro q hq answer x hx hmem
    obtain ⟨key, hkey, rfl⟩ := Key.mem_texts.1 hx
    exact hapart q hq answer key hkey (Key.text_mem_texts.1 hmem)
  obtain ⟨before, hclock, hwhole, hsame, rfl⟩ :=
    exists_before_evictions hkept.whole hanswers hremoved hsend
  have hfinds : before.Finds (Key.texts (p.entryKeys request response)) removed ↔
      Reaches S p request response command start.clock now.clock := by
    rw [← finds_iff_reaches hkept hreadable hremoved]
    refine exists_congr fun key => and_congr_right fun _ => and_congr_right fun hin => ?_
    rw [hclock, hsame _ hin]
  have hleft : ∀ x ∈ Key.texts (p.entryKeys request response),
      (removed.foldl remove before).memory.contains now.clock x = true ↔
        ¬ Reaches S p request response command start.clock now.clock ∧
          now.memory.contains now.clock x = true := by
    intro x hx
    rw [← hfinds, ← hsame x hx, ← hclock]
    exact contains_foldl_remove hwhole htext
      (fun key hkey => .inr ((mem_removed_iff hremoved key).1 hkey)) hx
  have hafter : (removed.foldl remove before).clock = now.clock :=
    (clock_foldl_remove removed).trans hclock
  constructor
  · rw [hafter]
    constructor
    · intro hgone
      by_contra hnot
      have hlookup' := hgone _ (lookupKey_mem_entryKeys h.listed)
      rw [(hleft _ hlookup).2 ⟨hnot, hreadable⟩] at hlookup'
      cases hlookup'
    · intro hreaches key hkey
      by_contra hcontains
      rw [Bool.not_eq_false] at hcontains
      exact ((hleft _ (Key.text_mem_texts.2 hkey)).1 hcontains).1 hreaches
  · have hfoundAfter := found_of_whole (whole_foldl_remove hwhole removed) htext hlookup
    rw [Ne, handled_send_eq_iff h.served h.planned, hfoundAfter, hafter]
    by_cases hreaches : Reaches S p request response command start.clock now.clock
    · have hgone := mt (hleft _ hlookup).1 (fun hboth => hboth.1 hreaches)
      simp [hreaches, hgone]
    · simp [hreaches, (hleft _ hlookup).2 ⟨hreaches, hreadable⟩, hfound]

end

end Scene

namespace Demo

/-- The beginning of the demonstration. -/
def opening : Scene catalogue := ⟨.epoch, ∅, []⟩

/-- The scene after a request for the greeting of number one. -/
def asked (s : Scene catalogue) : Scene catalogue :=
  (Scene.run greetings (service.dispatcher.send (C := catalogue) Kind.greeting (1 : ℕ)) s).2

/-- A number of minutes after the epoch. -/
def minutesPast (n : ℕ) (h : n < 1000) : Instant :=
  ⟨n * 60 * 1000000000, by omega⟩

/-- The greeting was asked for at the epoch and forty minutes later, and forty more have passed. -/
def quiet : Scene catalogue :=
  ((asked ((asked opening).atTime (minutesPast 40 (by decide))))).atTime
    (minutesPast 80 (by decide))

lemma cachedSince_opening {now : Scene catalogue}
    (hsince : Scene.ServedSince (C := catalogue) (k := Kind.greeting) greetings service (1 : ℕ)
      (asked opening) now)
    (hfound : (now.found (Kind.codec .greeting) (greetingPlan.lookupKey (1 : ℕ))).isSome = true) :
    Scene.CachedSince greetings service greetingPlan (1 : ℕ) (greetingText 1) opening now where
  served := rfl
  planned := rfl
  period := by
    show 0 < (Span.ofHours 1).nanos
    decide
  listed := by decide
  written := ⟨_, rfl⟩
  handled := Scene.handled_send_of_not_found rfl rfl rfl
  since := hsince
  still := (Scene.handled_send_eq_iff rfl rfl).2 hfound

/-- The request that resets number one. -/
def resetOne : catalogue.Request Kind.reset := (1 : ℕ)

lemma evicts_resetOne : service.Evicts resetOne (greetingPlan.key (greetingText 1)) :=
  ⟨Kind.greeting, greetingPlan, greetingText, rfl, .head _, rfl⟩

/-- The dispatch of the request that resets number one. -/
def resetting (s : Scene catalogue) : Outcome catalogue Kind.reset × Scene catalogue :=
  Scene.run greetings (service.dispatcher.send Kind.reset resetOne) s

lemma resetting_eq {s : Scene catalogue} (h : (resetting s).1.isOk = true) :
    ∃ answer, resetting s = (.ok answer, (resetting s).2) := by
  rcases hsend : resetting s with ⟨outcome, after⟩
  rw [hsend] at h
  cases outcome with
  | error e => cases h
  | ok answer => exact ⟨answer, rfl⟩

/-- Resetting right after a greeting was made takes the greeting from all of its keys, and it is
made again. -/
theorem resetting_at_once :
    (∀ key ∈ greetingPlan.entryKeys (1 : ℕ) (greetingText 1),
      (resetting (asked opening)).2.memory.contains (resetting (asked opening)).2.clock
        key.text = false) ∧
    (asked (resetting (asked opening)).2).handled ≠ (resetting (asked opening)).2.handled := by
  obtain ⟨answer, hsend⟩ := resetting_eq (s := asked opening) (by decide +kernel)
  have hcached := cachedSince_opening .start (by decide +kernel)
  have hreaches : Scene.Reaches service greetingPlan (1 : ℕ) (greetingText 1) resetOne
      opening.clock (asked opening).clock := by
    refine ⟨_, evicts_resetOne, by decide, .inr ?_⟩
    rintro w hw
    cases hw
    decide +kernel
  have hothers : opening.memory.Apart (Key.texts (greetingPlan.entryKeys (1 : ℕ) (greetingText 1)))
      fun key => service.Evicts (k := Kind.greeting) (1 : ℕ) key ∨ service.Evicts resetOne key := by
    intro key _ _ e he
    cases he
  obtain ⟨hgone, hagain⟩ := Scene.evicts_iff hcached hothers (fun q hq => by cases hq) hsend
  exact ⟨hgone.2 hreaches, hagain.2 hreaches⟩

/-- Resetting after eighty minutes, half way through which the greeting was asked for once more,
reports success, though it names a key of the greeting, and the greeting stays: it is still served
from the cache. -/
theorem resetting_in_vain :
    Scene.CachedSince greetings service greetingPlan (1 : ℕ) (greetingText 1) opening quiet ∧
      service.Evicts resetOne (greetingPlan.key (greetingText 1)) ∧
      greetingPlan.key (greetingText 1) ∈ greetingPlan.entryKeys (1 : ℕ) (greetingText 1) ∧
      (resetting quiet).1.isOk = true ∧
      (resetting quiet).2.memory.contains (resetting quiet).2.clock
        (greetingPlan.lookupKey (1 : ℕ)).text = true ∧
      (asked (resetting quiet).2).handled = (resetting quiet).2.handled := by
  have hhit : ((asked opening).atTime (minutesPast 40 (by decide))).found (Kind.codec .greeting)
      (greetingPlan.lookupKey (1 : ℕ)) ≠ none := by
    exact Option.isSome_iff_ne_none.1 (by decide +kernel)
  refine ⟨cachedSince_opening ?_ (by decide +kernel), evicts_resetOne, by decide, by decide +kernel,
    by decide +kernel, (Scene.handled_send_eq_iff rfl rfl).2 (by decide +kernel)⟩
  refine .wait (.again (.wait .start ?_) ?_) ?_
  · decide +kernel
  · exact (Scene.handled_send_eq_iff rfl rfl).2 (Option.isSome_iff_ne_none.2 hhit)
  · decide +kernel

end Demo

end RequestCache
