/-
# What spoils an entry heals

Any text may lie in the store under the keys of an entry: a blank one, one that was cut off, one
that holds something else.  A look-up takes it for what it holds if it is a bundle of the kind,
and for nothing otherwise; it never fails on it.  So, over a store whose calls succeed, the
look-up stage answers with what lies under the key, or makes the outcome of what is further in its
own, and then a success lies under all keys of the request afterwards (`CacheSetup.store_heals`).
The next request is a hit (`CacheSetup.next_is_hit`), unless something outside the look-up stage has
removed the entry in between, which the evictions of the kind itself may do
(`Demo.fleeting_forgets`).

A blank text needs no care: it is never the text of a bundle (`Bundle.decode?_of_isBlank`).
-/
import RequestCache.Proofs.Uncached

namespace RequestCache

open Program (replay)

variable {C : Catalogue} {W : Interface} {k : C.Kind} {α σ : Type}
  {answer : (e : Effect W) → σ → e.Answer × σ}

/-! ## Blank texts -/

namespace Json

lemma isBlankChar_of_isDigit {c : Char} (h : c.isDigit = true) : isBlankChar c = false := by
  simp only [Char.isDigit, Bool.and_eq_true, decide_eq_true_eq, UInt32.le_iff_toNat_le] at h
  have hlow : 48 ≤ c.toNat := h.1
  have hhigh : c.toNat ≤ 57 := h.2
  simp only [isBlankChar, Bool.or_eq_false_iff, Bool.and_eq_false_iff, decide_eq_false_iff_not,
    beq_eq_false_iff_ne]
  omega

/-- No token begins with white space. -/
lemma Lexer.start_of_isBlankChar {c : Char} (h : isBlankChar c = true) :
    start [] c = none ∨ start [] c = some ⟨.free, []⟩ := by
  by_cases hspace : isSpace c = true
  · exact .inr (if_pos hspace)
  · have hnumber : ¬ (c.isDigit || c == '-') = true := by
      rw [Bool.or_eq_true_iff, beq_iff_eq]
      rintro (hdigit | rfl)
      · rw [isBlankChar_of_isDigit hdigit] at h
        cases h
      · exact absurd h (by decide)
    unfold start
    rw [if_neg hspace, if_neg hnumber]
    split
    case h_11 => exact .inl rfl
    all_goals exact absurd h (by decide)

lemma Lexer.readOn_of_isBlankChar {cs : List Char} (h : ∀ c ∈ cs, isBlankChar c = true) :
    readOn ⟨.free, []⟩ cs = none ∨ readOn ⟨.free, []⟩ cs = some [] := by
  induction cs with
  | nil => exact .inr rfl
  | cons c cs ih =>
    rw [readOn_cons]
    change (start [] c).bind _ = none ∨ (start [] c).bind _ = some []
    rcases start_of_isBlankChar (h c List.mem_cons_self) with hstart | hstart <;> rw [hstart]
    · exact .inl rfl
    · exact ih fun c' hc' => h c' (List.mem_cons_of_mem c hc')

lemma Tree.parse?_of_isBlank {text : String} (h : isBlank text = true) : parse? text = none := by
  have hread := Lexer.readOn_of_isBlankChar (List.all_eq_true.1 h)
  change ((Lexer.readOn ⟨.free, []⟩ text.toList).map List.reverse).bind ofTokens? = none
  rcases hread with hread | hread <;> rw [hread] <;> rfl

end Json

lemma Bundle.decode?_of_isBlank {c : Json.Codec α} {text : String} (h : isBlank text = true) :
    decode? c text = none := by
  rw [decode?, Json.Codec.parse?, Json.Tree.parse?_of_isBlank h]
  rfl

/-- A look-up gives what the text under its key holds. -/
lemma Entry.valueOf_ok (c : Json.Codec α) (text : Option String) :
    valueOf c (.ok text) = .ok ((text.bind (Bundle.decode? c)).map Bundle.value) := by
  cases text with
  | none => rfl
  | some text =>
    cases hblank : isBlank text with
    | false => simp [valueOf, readable, Except.map, Option.filter, hblank]
    | true =>
      simp [valueOf, readable, Except.map, Option.filter, hblank, Bundle.decode?_of_isBlank hblank]

/-! ## Storing a response -/

namespace Plan

variable {p : Plan C k} {request : C.Request k} {response : C.Response k}
  {clock : σ → Instant} {content : σ → String → Option String}

/-- The bundle that lies under the key of a request. -/
def held (p : Plan C k) (content : σ → String → Option String) (request : C.Request k) (s : σ) :
    Option (Bundle (C.Response k)) :=
  (content s (p.lookupKey request).text).bind (Bundle.decode? (C.codec k))

/-- The response can be cached at an instant: it is stored under the identifier that it is looked
up under as well, it comes back from its text, and the end of its entry is still to come. -/
structure Caches (p : Plan C k) (request : C.Request k) (response : C.Response k)
    (now : Instant) : Prop where
  listed : p.lookupId request ∈ p.entryIds request response
  restores : (C.codec k).Restores response
  ahead : ∀ end_, p.expiration = .at end_ → now < end_

/-- Whatever an action answers that begins at an instant can be cached. -/
def CachesFrom (answer : (e : Effect W) → σ → e.Answer × σ) (clock : σ → Instant) (p : Plan C k)
    (request : C.Request k) (next : Action W (Outcome C k)) (now : Instant) : Prop :=
  ∀ s ops response s', clock s = now → next.Ran answer s ops (.ok response) s' →
    p.Caches request response (clock s')

lemma Caches.deadline_ahead {now : Instant} (h : p.Caches request response now)
    (hperiod : p.expiration.HasPeriod) : ∀ d ∈ p.expiration.lifetime.deadline now, now < d := by
  intro d hd
  cases hexpiration : p.expiration with
  | never =>
    rw [hexpiration] at hd
    cases hd
  | «at» end_ =>
    rw [hexpiration] at hd
    cases hd
    exact h.ahead d hexpiration
  | afterWrite period =>
    rw [hexpiration] at hd hperiod
    have hsum : d.nanos = now.nanos + period.nanos := Instant.nanos_of_add? hd
    have hpos : 0 < period.nanos := hperiod
    rw [Instant.lt_iff]
    omega
  | sliding period =>
    rw [hexpiration] at hd
    cases hd

/-- What can be cached lies under all its keys once it was stored, in place of what was there. -/
lemma Caches.ran_store {s s' : σ} {ops : List (effects W).Op} {written : Except CacheFault Unit}
    (hstore : Reliable answer clock content) (h : p.Caches request response (clock s))
    (hperiod : p.expiration.HasPeriod)
    (hran : (p.store request response).Ran answer s ops written s') :
    written = .ok () ∧ ∃ text,
      Bundle.encode (C.codec k) ⟨response, Key.texts (p.entryKeys request response)⟩ = .ok text ∧
      Bundle.decode? (C.codec k) text =
        some ⟨response, Key.texts (p.entryKeys request response)⟩ ∧
      ∀ key ∈ p.entryKeys request response, content s' key.text = some text := by
  have hkeys : p.entryKeys request response ≠ [] :=
    List.ne_nil_of_mem (Scene.lookupKey_mem_entryKeys h.listed)
  obtain ⟨text, hencode, hdecode⟩ :=
    Bundle.exists_encode_of_restores h.restores (Key.texts (p.entryKeys request response))
  rw [store_of_encode hkeys hencode] at hran
  obtain ⟨outcomes, houtcomes, rfl, -, rfl⟩ := Entry.ran_changeAll hstore.live.uncut hran
  obtain ⟨hput, hcontent⟩ := hstore.put (Key.texts (p.entryKeys request response)) text
    p.expiration.lifetime s hperiod.check (h.deadline_ahead hperiod)
  obtain rfl := Option.some.inj (hput.symm.trans houtcomes)
  refine ⟨Scene.collect_of_ok _ _ (by simp), text, hencode, hdecode, fun key hkey => ?_⟩
  exact (hcontent key.text).trans (if_pos (Key.text_mem_texts.2 hkey))

end Plan

/-! ## The look-up stage -/

namespace Lookup

variable {p : Plan C k} {policy : FaultPolicy} {request : C.Request k}
  {next : Action W (Outcome C k)} {clock : σ → Instant} {content : σ → String → Option String}
  {s : σ} {ops : List (effects W).Op} {outcome : Outcome C k}

/-- How a request passes a look-up stage that is not led astray by what lies in the store; `next`
is what is further in. -/
structure Heals (answer : (e : Effect W) → σ → e.Answer × σ)
    (content : σ → String → Option String) (p : Plan C k) (request : C.Request k)
    (next : Action W (Outcome C k)) (s : σ) (ops : List (effects W).Op)
    (outcome : Outcome C k) : Prop where
  /-- If there is a bundle under its key the request is answered with the value, and nothing
  further in is run. -/
  hit : ∀ b, p.held content request s = some b →
    outcome = .ok b.value ∧ ∀ op ∈ ops, ¬ Effect.IsWork (W := W) op
  /-- If there is none, what is further in is run once and its outcome is that of the request.
  A fault is not stored; a response lies under all keys in the end, and is what a look-up finds. -/
  miss : p.held content request s = none →
    ∃ (looked inner stored : List (effects W).Op) (s₁ : σ),
      ops = looked ++ (inner ++ stored) ∧
      (∀ op ∈ looked ++ stored, ¬ Effect.IsWork (W := W) op) ∧
      next.Ran answer (replay answer looked s) inner outcome s₁ ∧
      (∀ fault, outcome = .error fault → stored = []) ∧
      ∀ response, outcome = .ok response → ∃ text,
        Bundle.encode (C.codec k) ⟨response, Key.texts (p.entryKeys request response)⟩ =
          .ok text ∧
        (∀ key ∈ p.entryKeys request response,
          content (replay answer ops s) key.text = some text) ∧
        p.held content request (replay answer ops s) =
          some ⟨response, Key.texts (p.entryKeys request response)⟩

lemma Finds.eq {found : Except StoreFault (Option (C.Response k))}
    (hstore : Reliable answer clock content) (h : Finds answer p request s found) :
    found = .ok ((p.held content request s).map Bundle.value) := by
  obtain ⟨read, hread, rfl⟩ := h
  obtain rfl := Option.some.inj ((hstore.read _ s).symm.trans hread)
  exact Entry.valueOf_ok (C.codec k) _

/-- Where a look-up did not find a response, there is none. -/
lemma held_eq_none (hstore : Reliable answer clock content)
    (h : Finds answer p request s (.ok none) ∨
      policy = .lenient ∧ ∃ source, Finds answer p request s (.error source)) :
    p.held content request s = none := by
  rcases h with hfound | ⟨-, source, hfound⟩
  · exact Option.map_eq_none_iff.1 (Except.ok.inj (hfound.eq hstore)).symm
  · cases hfound.eq hstore

/-- A request whose response lies under its key goes no further. -/
lemma Passes.of_held (hstore : Reliable answer clock content) {b : Bundle (C.Response k)}
    (hheld : p.held content request s = some b)
    (h : Passes answer p policy request next s ops outcome) :
    outcome = .ok b.value ∧ Issues ops [.get (p.lookupKey request).text] := by
  cases h with
  | @hit _ response hfound hops =>
    have hvalue := Except.ok.inj (hfound.eq hstore)
    rw [hheld] at hvalue
    exact ⟨congrArg Except.ok (Option.some.inj hvalue), hops⟩
  | refused hfound hpolicy hops => cases hfound.eq hstore
  | failed hfound hlooked hnext =>
    rw [held_eq_none hstore hfound] at hheld
    cases hheld
  | stored hfound hlooked hnext hmissed hstored hran htold houtcome =>
    rw [held_eq_none hstore hfound] at hheld
    cases hheld

theorem Passes.heals (hstore : Reliable answer clock content)
    (hperiod : p.expiration.HasPeriod)
    (hcaches : p.CachesFrom answer clock request next (clock s))
    (h : Passes answer p policy request next s ops outcome) :
    Heals answer content p request next s ops outcome where
  hit b hheld := ⟨(h.of_held hstore hheld).1, (h.of_held hstore hheld).2.idle⟩
  miss hnone := by
    cases h with
    | hit hfound hops =>
      have hvalue := Except.ok.inj (hfound.eq hstore)
      rw [hnone] at hvalue
      cases hvalue
    | refused hfound hpolicy hops => cases hfound.eq hstore
    | @failed looked inner fault s₁ hfound hlooked hnext =>
      refine ⟨looked, inner, [], s₁, by rw [List.append_nil], ?_, hnext, fun _ _ => rfl, ?_⟩
      · rw [List.append_nil]
        exact hlooked.idle
      · rintro response ⟨⟩
    | @stored looked inner missed stored told response written _ s₁ s₂ hfound hlooked hnext hmissed
        hstored hran htold houtcome =>
      have hbegun := hstore.replay_quiet hlooked (by simp) s
      have hcached := hcaches _ _ _ _ hbegun.2 hnext
      rw [← (hstore.replay_quiet hmissed (by simp) s₁).2] at hcached
      obtain ⟨rfl, text, hencode, hdecode, hfresh⟩ := hcached.ran_store hstore hperiod hran
      have hend : content (replay answer (looked ++ (inner ++ (missed ++ stored ++ told))) s) =
          content s₂ := by
        rw [replay_append, replay_append, hnext.replay_eq, replay_append, replay_append,
          hran.replay_eq]
        exact (hstore.replay_quiet htold (by simp) s₂).1
      subst houtcome
      refine ⟨looked, inner, missed ++ stored ++ told, s₁, rfl, ?_, hnext, ?_, ?_⟩
      · exact (hlooked.append ((hmissed.append hstored).append htold)).idle
      · rintro fault ⟨⟩
      · rintro other ⟨⟩
        have hlookup := Scene.lookupKey_mem_entryKeys hcached.listed
        refine ⟨text, hencode, fun key hkey => ?_, ?_⟩
        · rw [hend]
          exact hfresh key hkey
        · rw [Plan.held, hend, hfresh _ hlookup]
          exact hdecode

/-- The response that a request was answered with lies under its key afterwards, whether it was
there before or has come from further in. -/
lemma Passes.exists_held (hstore : Reliable answer clock content)
    (hperiod : p.expiration.HasPeriod)
    (hcaches : p.CachesFrom answer clock request next (clock s)) {response : C.Response k}
    (h : Passes answer p policy request next s ops (.ok response)) :
    ∃ b, p.held content request (replay answer ops s) = some b ∧ b.value = response := by
  cases hheld : p.held content request s with
  | some b =>
    obtain ⟨houtcome, hops⟩ := h.of_held hstore hheld
    refine ⟨b, ?_, (Except.ok.inj houtcome).symm⟩
    rw [Plan.held, (hstore.replay_quiet hops (by simp) s).1]
    exact hheld
  | none =>
    obtain ⟨-, -, -, -, -, -, -, -, hfresh⟩ := (h.heals hstore hperiod hcaches).miss hheld
    obtain ⟨-, -, -, hafter⟩ := hfresh response rfl
    exact ⟨_, hafter, rfl⟩

end Lookup

/-! ## Dispatches -/

namespace CacheSetup

variable {S : CacheSetup C W} {p : Plan C k} {request : C.Request k} {handler : Handler C W k}
  {later : List (Stage C W k)} {evicting looking : Recorder} {clock : σ → Instant}
  {content : σ → String → Option String} {s s' : σ} {ops : List (effects W).Op}
  {outcome : Outcome C k}

lemma Responds.passes {next : Action W (Outcome C k)} (hplan : S.plan k = some p)
    (h : Responds answer S request next s ops outcome) :
    Lookup.Passes answer p S.policy request next s ops outcome := by
  cases h with
  | uncached hnone hnext =>
    rw [hplan] at hnone
    cases hnone
  | cached hsome hpasses =>
    obtain rfl := Option.some.inj (hplan.symm.trans hsome)
    exact hpasses

/-- The evictions that lie around the look-up stage leave the outcome as it is. -/
lemma exists_passes (hS : S.Built fun _ _ => False) (hstore : Reliable answer clock content)
    (hplan : S.plan k = some p) {d : Dispatcher C W}
    (hroute : d.route k =
      { handler := some handler
        stages := S.evictionStage k evicting ++ S.lookupStage k looking ++ later })
    (h : (d.send k request).Ran answer s ops outcome s') :
    ∃ passed removals : List (effects W).Op, ops = Effect.isCancelled :: (passed ++ removals) ∧
      Lookup.Passes answer p S.policy request (throughStages handler request later)
        (answer .isCancelled s).2 passed outcome ∧
      (∀ op ∈ removals, Effect.OnlyRemoves (W := W) op) ∧
      (S.evictions k = [] → removals = []) ∧
      s' = replay answer removals (replay answer passed (answer .isCancelled s).2) := by
  obtain ⟨rest, rfl, hran⟩ := Dispatcher.ran_send hstore.live hroute h
  obtain ⟨keys, hkeys⟩ := hS.exists_keys request
  have hend := hran.replay_eq
  cases follows_of_ran hstore.live.uncut (hkeys.imp fun _ _ h => h.evict_eq) hran with
  | failed hresponds =>
    exact ⟨rest, [], by rw [List.append_nil], hresponds.passes hplan, by simp, fun _ => rfl,
      hend.symm⟩
  | evicting hresponds hruns =>
    obtain rfl := hruns.faults_eq_nil hstore
    rw [replay_append] at hend
    refine ⟨_, _, rfl, hresponds.passes hplan, hruns.onlyRemoves, ?_, hend.symm⟩
    intro hempty
    rw [hempty] at hkeys
    cases hkeys
    cases hruns
    rfl

lemma cachesFrom_begun (hstore : Reliable answer clock content) {next : Action W (Outcome C k)}
    (h : p.CachesFrom answer clock request next (clock s)) :
    p.CachesFrom answer clock request next (clock (answer .isCancelled s).2) := by
  rwa [(hstore.quiet .isCancelled s (by simp [Effect.calls]) id).2]

/-- Whatever lies in the store, under the keys of a request or elsewhere, no look-up fails on it,
and what is no bundle of the kind is replaced.

The store may be in any state, as long as its calls succeed, and a fault of it may be treated
either way.  What is further in answers with what can be cached.  A request that gets as far as the
look-up stage is answered with the bundle under its key; if there is none, its outcome is that of
what is further in, which is run once, and a response then lies under all its keys, so that the
next request to come finds it.  What lies outside the look-up stage may do anything; but evictions
change nothing about the outcome, however spoiled the entries are that they are to remove, and they
leave what they do not remove. -/
theorem store_heals (hplan : S.plan k = some p) (hperiod : p.expiration.HasPeriod)
    (hstore : Reliable answer clock content) (request : C.Request k) (d : Dispatcher C W)
    (handler : Handler C W k) (later : List (Stage C W k)) (looking : Recorder) {s s' : σ}
    {ops : List (effects W).Op} {outcome : Outcome C k}
    (h : (d.send k request).Ran answer s ops outcome s') :
    (∀ outer : List (Stage C W k),
      d.route k =
        { handler := some handler, stages := outer ++ (S.lookupStage k looking ++ later) } →
      ∃ rest : List (effects W).Op, ops = Effect.isCancelled :: rest ∧
        Crosses answer request (S.lookupStage k looking ++ later).length
          (fun s ops outcome =>
            p.CachesFrom answer clock request (throughStages handler request later) (clock s) →
            Lookup.Heals answer content p request (throughStages handler request later) s ops
              outcome)
          outer (answer .isCancelled s).2 rest outcome) ∧
    ∀ evicting : Recorder, S.Built (fun _ _ => False) →
      d.route k =
        { handler := some handler
          stages := S.evictionStage k evicting ++ S.lookupStage k looking ++ later } →
      p.CachesFrom answer clock request (throughStages handler request later) (clock s) →
      ∃ passed removals : List (effects W).Op,
        ops = Effect.isCancelled :: (passed ++ removals) ∧
        Lookup.Heals answer content p request (throughStages handler request later)
          (answer .isCancelled s).2 passed outcome ∧
        (∀ op ∈ removals, ¬ Effect.IsWork (W := W) op) ∧
        (S.evictions k = [] → removals = []) ∧
        ∀ key, (∀ op ∈ removals, .change (.delete key) ∉ Effect.calls (W := W) op) →
          content s' key = content (replay answer passed (answer .isCancelled s).2) key := by
  constructor
  · intro outer hroute
    obtain ⟨rest, rfl, hran⟩ := Dispatcher.ran_send hstore.live hroute h
    refine ⟨rest, rfl, crosses_of_ran (fun s ops outcome s' hinner hcaches => ?_) hran⟩
    exact ((responds_of_ran hstore.live.uncut hinner).passes hplan).heals hstore hperiod hcaches
  · intro evicting hS hroute hcaches
    obtain ⟨passed, removals, rfl, hpasses, hremoves, hempty, rfl⟩ :=
      exists_passes hS hstore hplan hroute h
    refine ⟨passed, removals, rfl, hpasses.heals hstore hperiod (cachesFrom_begun hstore hcaches),
      fun op hop => (hremoves op hop).not_isWork, hempty, fun key hkey => ?_⟩
    exact hstore.replay_onlyRemoves hremoves hkey _

/-! ### The next request -/

section

variable {d : Dispatcher C W} (hplan : S.plan k = some p) (hstore : Reliable answer clock content)
  (hS : S.Built fun _ _ => False)
  (hroute : d.route k =
    { handler := some handler
      stages := S.evictionStage k evicting ++ S.lookupStage k looking ++ later })
include hplan hstore hS hroute

/-- The response that a request was answered with lies under its key afterwards, unless its own
evictions have removed it from there. -/
theorem exists_held_of_answered (hperiod : p.expiration.HasPeriod)
    (hcaches : p.CachesFrom answer clock request (throughStages handler request later) (clock s))
    {response : C.Response k} (h : (d.send k request).Ran answer s ops (.ok response) s') :
    ∃ passed removals : List (effects W).Op, ops = Effect.isCancelled :: (passed ++ removals) ∧
      (∀ op ∈ removals, Effect.OnlyRemoves (W := W) op) ∧
      (S.evictions k = [] → removals = []) ∧
      ((∀ op ∈ removals,
          .change (.delete (p.lookupKey request).text) ∉ Effect.calls (W := W) op) →
        ∃ b, p.held content request s' = some b ∧ b.value = response) := by
  obtain ⟨passed, removals, rfl, hpasses, hremoves, hempty, rfl⟩ :=
    exists_passes hS hstore hplan hroute h
  refine ⟨passed, removals, rfl, hremoves, hempty, fun hkept => ?_⟩
  obtain ⟨b, hheld, hvalue⟩ :=
    hpasses.exists_held hstore hperiod (cachesFrom_begun hstore hcaches)
  refine ⟨b, ?_, hvalue⟩
  rw [Plan.held, hstore.replay_onlyRemoves hremoves hkept]
  exact hheld

/-- A request whose response lies under its key is answered with it, and the application does not
work for it.  What the kind evicts is evicted all the same. -/
theorem send_of_held {b : Bundle (C.Response k)} (hheld : p.held content request s = some b)
    (h : (d.send k request).Ran answer s ops outcome s') :
    outcome = .ok b.value ∧ ∀ op ∈ ops, ¬ Effect.IsWork (W := W) op := by
  obtain ⟨passed, removals, rfl, hpasses, hremoves, -, -⟩ :=
    exists_passes hS hstore hplan hroute h
  have hbegun : p.held content request (answer .isCancelled s).2 = some b := by
    rw [Plan.held, (hstore.quiet .isCancelled s (by simp [Effect.calls]) id).1]
    exact hheld
  obtain ⟨houtcome, hpassed⟩ := hpasses.of_held hstore hbegun
  refine ⟨houtcome, fun op hop => ?_⟩
  rcases List.mem_cons.1 hop with rfl | hop
  · exact id
  · exact (List.mem_append.1 hop).elim (hpassed.idle op) fun hop => (hremoves op hop).not_isWork

/-- If a kind has no evictions of its own, the next request to come is a hit: it is answered with
what the one before was answered with, and the application does not work for it.  Anything may
happen between the two, as long as the text under their key stays. -/
theorem next_is_hit (hperiod : p.expiration.HasPeriod) (hempty : S.evictions k = [])
    (hcaches : p.CachesFrom answer clock request (throughStages handler request later) (clock s))
    {response : C.Response k} (h : (d.send k request).Ran answer s ops (.ok response) s')
    {t t' : σ} {again : List (effects W).Op}
    (hkept : content t (p.lookupKey request).text = content s' (p.lookupKey request).text)
    (hagain : (d.send k request).Ran answer t again outcome t') :
    outcome = .ok response ∧ ∀ op ∈ again, ¬ Effect.IsWork (W := W) op := by
  obtain ⟨passed, removals, -, -, hnone, hlies⟩ :=
    exists_held_of_answered hplan hstore hS hroute hperiod hcaches h
  obtain rfl := hnone hempty
  obtain ⟨b, hheld, rfl⟩ := hlies (by simp)
  have hlater : p.held content request t = some b := by
    rw [Plan.held, hkept]
    exact hheld
  exact send_of_held hplan hstore hS hroute hlater hagain

end

end CacheSetup

namespace Demo

lemma hasPeriod_greeting : greetingPlan.expiration.HasPeriod := by
  show 0 < (Span.ofHours 1).nanos
  decide

lemma caches_greeting (number : ℕ) (now : Instant) :
    greetingPlan.Caches number (greetingText number) now where
  listed := List.mem_cons_self
  restores := restores_greeting _
  ahead := by rintro end_ ⟨⟩

lemma outcome_of_asking {s t : Scene catalogue} {ops : List (effects (handlings catalogue)).Op}
    {outcome : Outcome catalogue Kind.greeting}
    (h : (throughStages (asking (C := catalogue) Kind.greeting) (1 : ℕ) []).Ran
      (Scene.answer greetings) s ops outcome t) : outcome = .ok (greetingText 1) :=
  (congrArg Prod.fst h.run).symm

lemma cachesFrom_greeting (now : Instant) :
    greetingPlan.CachesFrom (Scene.answer greetings) Scene.clock (1 : ℕ)
      (throughStages (asking (C := catalogue) Kind.greeting) (1 : ℕ) []) now := by
  intro s ops response t _ h
  obtain rfl := Except.ok.inj (outcome_of_asking h)
  exact caches_greeting 1 _

/-- A greeting is made although a text that is no entry lies under its keys, and then it lies
there instead. -/
theorem greeting_spoiled :
    ∃ s', Scene.run greetings (service.dispatcher.send (C := catalogue) Kind.greeting (1 : ℕ))
          spoiled = (.ok (greetingText 1), s') ∧
      greetingPlan.held Scene.text? (1 : ℕ) s' =
        some ⟨greetingText 1, Key.texts (greetingPlan.entryKeys (1 : ℕ) (greetingText 1))⟩ := by
  obtain ⟨ops, outcome, s', hran⟩ := Program.exists_ran (Scene.answer greetings)
    (service.dispatcher.send (C := catalogue) Kind.greeting (1 : ℕ)) spoiled
  obtain ⟨evicting, looking, hroute⟩ := CacheSetup.exists_route_bare (k := Kind.greeting)
    built_setup.isOrdered (D := .asksAll) rfl 0
  obtain ⟨-, hall⟩ := CacheSetup.store_heals (S := setup) rfl hasPeriod_greeting
    (Scene.reliable_answer greetings) (1 : ℕ) service.dispatcher
    (asking (C := catalogue) Kind.greeting) [] looking hran
  obtain ⟨passed, removals, -, hheals, -, hempty, hkept⟩ := hall evicting built_setup hroute
    (cachesFrom_greeting _)
  obtain rfl := hempty rfl
  have hspoiled : greetingPlan.held Scene.text? (1 : ℕ) spoiled = none :=
    Option.isNone_iff_eq_none.1 (by decide +kernel)
  obtain ⟨looked, inner, stored, s₁, -, -, hnext, -, hfresh⟩ := hheals.miss hspoiled
  have hok := outcome_of_asking hnext
  obtain ⟨text, -, -, hheld⟩ := hfresh _ hok
  have hsame : s'.text? (greetingPlan.lookupKey (1 : ℕ)).text = _ := hkept _ (by simp)
  refine ⟨s', hok ▸ hran.run, ?_⟩
  exact (congrArg (Option.bind · (Bundle.decode? (Kind.codec .greeting))) hsame).trans hheld

/-- A greeting that was given is found by the next request, and not made again, whatever lay in the
store before. -/
theorem greeting_again {s s' : Scene catalogue} {greeting : String}
    (h : Scene.run greetings (service.dispatcher.send (C := catalogue) Kind.greeting (1 : ℕ)) s =
      (.ok greeting, s')) :
    ∃ s'', Scene.run greetings (service.dispatcher.send (C := catalogue) Kind.greeting (1 : ℕ)) s' =
      (.ok greeting, s'') ∧ s''.handled = s'.handled := by
  obtain ⟨evicting, looking, hroute⟩ := CacheSetup.exists_route_bare (k := Kind.greeting)
    built_setup.isOrdered (D := .asksAll) rfl 0
  obtain ⟨again, outcome, s'', hagain⟩ := Program.exists_ran (Scene.answer greetings)
    (service.dispatcher.send (C := catalogue) Kind.greeting (1 : ℕ)) s'
  obtain ⟨rfl, hidle⟩ := CacheSetup.next_is_hit (S := setup) rfl
    (Scene.reliable_answer greetings) built_setup hroute hasPeriod_greeting rfl
    (cachesFrom_greeting _) ⟨h, rfl⟩ rfl hagain
  refine ⟨s'', hagain.run, ?_⟩
  rw [← hagain.replay_eq]
  exact Scene.handled_replay_of_idle hidle s'

/-- A fleeting greeting is made and stored, and then its own eviction takes it away: the next
request makes it once more. -/
theorem fleeting_forgets :
    fleetingSetup.plan Kind.greeting = some greetingPlan ∧
    greetingPlan.expiration.HasPeriod ∧
    greetingPlan.Caches (1 : ℕ) (greetingText 1) spoiled.clock ∧
    ∃ s', Scene.run greetings (fleeting.send (C := catalogue) Kind.greeting (1 : ℕ)) spoiled =
        (.ok (greetingText 1), s') ∧
      s'.handled.length = spoiled.handled.length + 1 ∧
      (∀ key ∈ greetingPlan.entryKeys (1 : ℕ) (greetingText 1), s'.text? key.text = none) ∧
      (Scene.run greetings (fleeting.send (C := catalogue) Kind.greeting (1 : ℕ))
        s').2.handled.length = s'.handled.length + 1 := by
  refine ⟨rfl, hasPeriod_greeting, caches_greeting 1 _, _, rfl, rfl, ?_, ?_⟩
  · decide +kernel
  · decide +kernel

end Demo

end RequestCache
