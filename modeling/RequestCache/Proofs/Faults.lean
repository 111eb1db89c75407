/-
# Faults made of other faults

Two kinds of fault are made of others: an operation on several keys fails with a fault for each key
that failed, and a request whose evictions fail with a fault for each of these.  The second may hold
faults of its own kind again, so faults are trees (`CacheFault.HasLeaf`).  Whether a second try is
worth it is a question to the leaves (`CacheFault.isTemporary_iff`), and the answer means something
only if there are leaves.

No operation makes a fault out of nothing (`CacheFault.IsSound`).  What an operation is answered
with does not matter to this, so it is a property of programs, whoever answers
(`Program.Always`).  The evictions of a request may fail in any way; the fault that is made of
theirs is as sound as they are (`Eviction.failsSoundly_stage`).
-/
import RequestCache.Proofs.Rounds

namespace RequestCache

variable {C : Catalogue} {W : Interface} {k : C.Kind} {α β : Type}

/-! ## Trees of faults -/

namespace CacheFault

/-- The fault is not made of other ones. -/
def IsSingle : CacheFault → Prop
  | .someKeys _ _ _ => False
  | .evictions _ _ => False
  | _ => True

/-- A fault comes down to another one, which is not made of others any more. -/
inductive HasLeaf : CacheFault → CacheFault → Prop
  /-- The fault itself is not made of others. -/
  | single {e : CacheFault} (h : e.IsSingle) : HasLeaf e e
  /-- The store failed for one of several keys. -/
  | key {operation : String} {total : ℕ} {faults : List KeyFault} {f : KeyFault} (hf : f ∈ faults) :
    HasLeaf (.someKeys operation total faults) (.store f.source)
  /-- The fault of one of the evictions comes down to it. -/
  | eviction {request : String} {faults : List CacheFault} {e leaf : CacheFault} (he : e ∈ faults)
      (h : HasLeaf e leaf) : HasLeaf (.evictions request faults) leaf

/-- Wherever in it a fault is made of others there are some of them, not more of them than the keys
they are about, and no cancelled one among those of evictions. -/
inductive IsSound : CacheFault → Prop
  | single {e : CacheFault} (h : e.IsSingle) : IsSound e
  | someKeys {operation : String} {total : ℕ} {faults : List KeyFault} (hpos : 1 ≤ faults.length)
      (hle : faults.length ≤ total) : IsSound (.someKeys operation total faults)
  | evictions {request : String} {faults : List CacheFault} (hne : faults ≠ [])
      (hcancelled : .cancelled ∉ faults) (h : ∀ e ∈ faults, IsSound e) :
    IsSound (.evictions request faults)

/-- The store failed, and might not fail again. -/
def Passes (e : CacheFault) : Prop := ∃ source, e = .store source ∧ source.isTemporary = true

variable {e leaf : CacheFault}

lemma hasLeaf_iff_of_isSingle (h : e.IsSingle) : e.HasLeaf leaf ↔ leaf = e := by
  constructor
  · rintro (h | hf | he)
    · rfl
    · exact h.elim
    · exact h.elim
  · rintro rfl
    exact .single h

lemma hasLeaf_someKeys_iff {operation : String} {total : ℕ} {faults : List KeyFault} :
    (someKeys operation total faults).HasLeaf leaf ↔ ∃ f ∈ faults, leaf = .store f.source := by
  constructor
  · rintro (h | hf)
    · exact h.elim
    · exact ⟨_, hf, rfl⟩
  · rintro ⟨f, hf, rfl⟩
    exact .key hf

lemma hasLeaf_evictions_iff {request : String} {faults : List CacheFault} :
    (evictions request faults).HasLeaf leaf ↔ ∃ e ∈ faults, e.HasLeaf leaf := by
  constructor
  · rintro (h | - | ⟨he, h⟩)
    · exact h.elim
    · exact ⟨_, he, h⟩
  · rintro ⟨e, he, h⟩
    exact .eviction he h

/-- A fault that is not made of others is worth a second try if it is a store's that might pass. -/
lemma isTemporary_iff_passes (h : e.IsSingle) : e.isTemporary = true ↔ e.Passes := by
  cases e with
  | store source =>
    refine ⟨fun hpasses => ⟨source, rfl, hpasses⟩, ?_⟩
    rintro ⟨_, ⟨⟩, hpasses⟩
    exact hpasses
  | someKeys _ _ _ => exact h.elim
  | evictions _ _ => exact h.elim
  | _ => simp [isTemporary, Passes]

lemma isTemporary_iff_of_isSingle (h : e.IsSingle) :
    e.isTemporary = true ↔ ∀ leaf, e.HasLeaf leaf → leaf.Passes := by
  simp only [hasLeaf_iff_of_isSingle h, forall_eq, isTemporary_iff_passes h]

mutual

/-- An operation is worth a second try if all that its fault comes down to are faults of the store
that might pass. -/
theorem isTemporary_iff : (e : CacheFault) →
    (e.isTemporary = true ↔ ∀ leaf, e.HasLeaf leaf → leaf.Passes)
  | .someKeys operation total faults => by
    simp only [isTemporary, List.all_eq_true, hasLeaf_someKeys_iff]
    constructor
    · rintro h leaf ⟨f, hf, rfl⟩
      exact ⟨f.source, rfl, h f hf⟩
    · intro h f hf
      obtain ⟨_, ⟨⟩, hpasses⟩ := h _ ⟨f, hf, rfl⟩
      exact hpasses
  | .evictions request faults => by
    simp only [isTemporary, allTemporary_iff faults, hasLeaf_evictions_iff]
    constructor
    · rintro h leaf ⟨e, he, hleaf⟩
      exact h e he leaf hleaf
    · intro h e he leaf hleaf
      exact h leaf ⟨e, he, hleaf⟩
  | .store _ => isTemporary_iff_of_isSingle trivial
  | .unwritable _ => isTemporary_iff_of_isSingle trivial
  | .noKeys _ => isTemporary_iff_of_isSingle trivial
  | .plannedTwice _ => isTemporary_iff_of_isSingle trivial
  | .targetNotCached _ _ => isTemporary_iff_of_isSingle trivial
  | .setup _ => isTemporary_iff_of_isSingle trivial
  | .cancelled => isTemporary_iff_of_isSingle trivial

/-- Several operations are worth a second try if each of them is. -/
theorem allTemporary_iff : (es : List CacheFault) →
    (allTemporary es = true ↔ ∀ e ∈ es, ∀ leaf, e.HasLeaf leaf → leaf.Passes)
  | [] => by simp [allTemporary]
  | e :: es => by
    rw [allTemporary, Bool.and_eq_true, List.forall_mem_cons, isTemporary_iff e,
      allTemporary_iff es]

end

/-- A sound fault comes down to something. -/
theorem IsSound.exists_hasLeaf (h : e.IsSound) : ∃ leaf, e.HasLeaf leaf := by
  induction h with
  | single h => exact ⟨_, .single h⟩
  | someKeys hpos =>
    obtain ⟨f, hf⟩ := List.exists_mem_of_length_pos hpos
    exact ⟨_, .key hf⟩
  | evictions hne _ _ ih =>
    obtain ⟨e, he⟩ := List.exists_mem_of_ne_nil _ hne
    obtain ⟨leaf, hleaf⟩ := ih e he
    exact ⟨leaf, .eviction he hleaf⟩

lemma toDispatch_eq_cancelled_iff : e.toDispatch = .cancelled ↔ e = .cancelled := by
  cases e <;> simp [toDispatch]

lemma cacheFault?_toDispatch (h : e ≠ .cancelled) : e.toDispatch.cacheFault? = some e := by
  cases e with
  | cancelled => exact absurd rfl h
  | _ => rfl

end CacheFault

/-! ## Whoever answers -/

namespace Program

variable {I : Interface} {p : Program I α}

/-- The result is as `post` says, whatever the answers are. -/
def Always (post : α → Prop) : Program I α → Prop
  | .done a => post a
  | .ask _ next => ∀ x, Always post (next x)

variable {post : α → Prop}

lemma always_iff : p.Always post ↔ ∀ t a, p.Ends t a [] → post a := by
  induction p with
  | done a =>
    constructor
    · intro h t b hends
      obtain ⟨rfl, -⟩ := ends_done_iff.1 hends
      exact h
    · exact fun h => h [] a (.ended a [])
  | ask op next ih =>
    constructor
    · intro h t a hends
      obtain ⟨x, rest, rfl, hrest⟩ := ends_ask_iff.1 hends
      exact (ih x).1 (h x) rest a hrest
    · exact fun h x => (ih x).2 fun t a hends => h _ a (.answered hends)

lemma Always.bind {post' : β → Prop} {f : α → Program I β} (hp : p.Always post)
    (hf : ∀ a, post a → (f a).Always post') : (p >>= f).Always post' := by
  induction p with
  | done a => exact hf a hp
  | ask op next ih => exact fun x => ih x (hp x)

end Program

/-- If an operation fails, its fault is sound. -/
def FailsSoundly : Except CacheFault α → Prop
  | .ok _ => True
  | .error e => e.IsSound

/-- If a dispatch fails for a fault of the cache, this is sound. -/
def Outcome.FailsSoundly : Outcome C k → Prop
  | .ok _ => True
  | .error fault => ∀ e, fault.cacheFault? = some e → e.IsSound

/-! ## Operations on entries -/

namespace Entry

/-- There is a fault for each key that failed, and for nothing else. -/
lemma failsSoundly_collect (operation : String) (keys : List String)
    (outcomes : List ChangeOutcome) : FailsSoundly (collect operation keys outcomes) := by
  unfold collect
  dsimp only
  split_ifs with hnone
  · trivial
  · refine .someKeys ?_ ?_
    · exact List.length_pos_iff.2 fun h => hnone (List.isEmpty_iff.2 h)
    · exact (List.length_filterMap_le _ _).trans (by simp)

lemma always_content (key : Key) : (content (W := W) key).Always FailsSoundly := by
  intro x
  rcases x with _ | source | text
  · exact .single trivial
  · exact .single trivial
  · trivial

lemma always_find (c : Json.Codec α) (key : Key) : (find (W := W) c key).Always FailsSoundly := by
  refine (always_content key).bind ?_
  rintro (e | _ | text) h
  · exact h
  · trivial
  · dsimp only
    cases Bundle.decode? c text with
    | none => exact fun _ => trivial
    | some bundle => trivial

lemma always_changeAll (operation : String) (change : String → Change) (keys : List String) :
    (changeAll (W := W) operation change keys).Always FailsSoundly := by
  intro x
  rcases x with _ | outcomes
  · exact .single trivial
  · exact failsSoundly_collect operation keys outcomes

lemma always_store (c : Json.Codec α) (value : α) (keys : List Key) (l : Lifetime) :
    (store (W := W) c value keys l).Always FailsSoundly := by
  unfold store
  dsimp only
  split_ifs
  · trivial
  · cases Bundle.encode c ⟨value, (Key.distinct keys).map Key.text⟩ with
    | error message => exact .single trivial
    | ok text => exact always_changeAll "set" _ _

lemma always_remove (key : Key) : (remove (W := W) key).Always FailsSoundly := by
  refine (always_content key).bind ?_
  rintro (e | _ | text) h
  · exact h
  · trivial
  · dsimp only
    cases Bundle.decodeKeys? text with
    | none => exact fun _ => always_changeAll "remove" _ _
    | some listed => exact always_changeAll "remove" _ _

end Entry

lemma Plan.always_store (plan : Plan C k) (request : C.Request k) (response : C.Response k) :
    (plan.store (W := W) request response).Always FailsSoundly := by
  unfold store
  dsimp only
  split_ifs
  · exact .single trivial
  · exact Entry.always_store _ _ _ _

/-! ## The stage of the evictions -/

namespace Eviction

variable {recorder : Recorder} {request : C.Request k} {evictions : List (Eviction C W k)}
  {handler : Handler C W k} {stages : List (Stage C W k)} {below : Action W (Outcome C k)}

/-- One of the evictions can end with this fault. -/
def CanFail (evictions : List (Eviction C W k)) (request : C.Request k) (e : CacheFault) : Prop :=
  ∃ eviction ∈ evictions, ∃ t, (eviction.evict request).Ends t (.error e) []

/-- Why a request fails that comes through the stage of its evictions. -/
inductive Blames (evictions : List (Eviction C W k)) (request : C.Request k)
    (below : Action W (Outcome C k)) : DispatchFault → Prop
  /-- What lies further in has failed, and this is reported as it is. -/
  | below {t : List (Exchange W)} {fault : DispatchFault} (h : below.Ends t (.error fault) []) :
    Blames evictions request below fault
  /-- An eviction was cancelled. -/
  | cut (h : CanFail evictions request .cancelled) : Blames evictions request below .cancelled
  /-- Some evictions have failed, and none was cancelled. -/
  | gathered {faults : List CacheFault} (hne : faults ≠ []) (hcancelled : .cancelled ∉ faults)
      (h : ∀ e ∈ faults, CanFail evictions request e) :
    Blames evictions request below (.failed (.cache (.evictions (C.name k) faults)))

lemma Turn.outcome_eq_of_fault? {turn : Turn C W k} {e : CacheFault} (h : turn.fault? = some e) :
    turn.outcome = .error e := by
  obtain ⟨eviction, inside, outcome⟩ := turn
  rcases outcome with e' | ⟨⟩
  · cases h
    rfl
  · cases h

lemma IsRound.canFail {turns : List (Turn C W k)} (h : IsRound request evictions turns)
    {turn : Turn C W k} (hturn : turn ∈ turns) {e : CacheFault} (he : turn.outcome = .error e) :
    CanFail evictions request e := by
  have hrun := h.run turn hturn
  rw [Turn.IsRun, he] at hrun
  exact ⟨turn.eviction, h.inOrder.subset (List.mem_map_of_mem hturn), _, hrun⟩

/-- The faults of a round that was not cut short, as the request reports them. -/
lemma IsRound.blames {turns : List (Turn C W k)} (h : IsRound request evictions turns)
    {response : C.Response k} {x : Option (List CacheFault)} (hx : Gathers turns x)
    {fault : DispatchFault} (hfault : outcomeOf response x = .error fault) :
    Blames evictions request below fault := by
  rcases hx with ⟨⟨turn, hturn, hcut⟩, rfl⟩ | ⟨hnone, rfl⟩
  · cases hfault
    exact .cut (h.canFail hturn hcut)
  · -- the turns that have failed are those whose faults were gathered
    have hfaults : ∀ e ∈ turns.filterMap Turn.fault?, ∃ turn ∈ turns, turn.outcome = .error e := by
      intro e he
      obtain ⟨turn, hturn, hturn'⟩ := List.mem_filterMap.1 he
      exact ⟨turn, hturn, Turn.outcome_eq_of_fault? hturn'⟩
    have hcancelled : .cancelled ∉ turns.filterMap Turn.fault? := by
      intro hmem
      obtain ⟨turn, hturn, hcut⟩ := hfaults _ hmem
      exact hnone turn hturn hcut
    have hall : ∀ e ∈ turns.filterMap Turn.fault?, CanFail evictions request e := by
      intro e he
      obtain ⟨turn, hturn, hturn'⟩ := hfaults e he
      exact h.canFail hturn hturn'
    cases hgathered : turns.filterMap Turn.fault? with
    | nil =>
      rw [hgathered] at hfault
      cases hfault
    | cons e es =>
      rw [hgathered] at hfault hcancelled hall
      cases hfault
      exact .gathered (List.cons_ne_nil e es) hcancelled hall

/-- After what lies further in has succeeded, a round of evictions decides on the outcome. -/
lemma ends_stage {before : List (Exchange W)} {response : C.Response k}
    {turns : List (Turn C W k)} {x : Option (List CacheFault)}
    (hbelow : (throughStages handler request stages).Ends before (.ok response) [])
    (hround : IsRound request evictions turns) (hx : Gathers turns x) :
    (throughStages handler request (stage evictions recorder :: stages)).Ends
      (before ++ turns.flatMap (Turn.exchanges recorder)) (outcomeOf response x) [] := by
  rw [throughStages_eq]
  refine Program.ends_bind_iff_append.2 ⟨.ok response, before, _, rfl, hbelow, ?_⟩
  rw [afterSuccess_ok_eq]
  exact Program.ends_bind_iff_append.2 ⟨x, _, [], (List.append_nil _).symm,
    ends_runAll_iff.2 ⟨turns, hround, rfl, hx⟩, .ended _ _⟩

/-- There is no other reason to fail. -/
theorem blames_of_ends {t : List (Exchange W)} {fault : DispatchFault}
    (h : (throughStages handler request (stage evictions recorder :: stages)).Ends t
      (.error fault) []) :
    Blames evictions request (throughStages handler request stages) fault := by
  rw [throughStages_eq] at h
  obtain ⟨outcome, _, rest, -, hbelow, hrest⟩ := Program.ends_bind_iff_append.1 h
  rcases outcome with fault' | response
  · obtain ⟨heq, -⟩ := Program.ends_done_iff.1 hrest
    cases heq
    exact .below hbelow
  · rw [afterSuccess_ok_eq] at hrest
    obtain ⟨x, _, last, -, hround, hlast⟩ := Program.ends_bind_iff_append.1 hrest
    obtain ⟨heq, -⟩ := Program.ends_done_iff.1 hlast
    obtain ⟨turns, hturns, -, hx⟩ := ends_runAll_iff.1 hround
    exact hturns.blames hx heq.symm

lemma always_ofPlan {target : C.Kind} (plan : Plan C target) (identifier : C.Request k → String) :
    ((ofPlan (W := W) plan identifier).evict request).Always FailsSoundly :=
  Entry.always_remove _

/-- A fault that an eviction can end with is sound if the evictions fail soundly. -/
lemma CanFail.isSound {e : CacheFault} (h : CanFail evictions request e)
    (hevictions : ∀ eviction ∈ evictions, (eviction.evict request).Always FailsSoundly) :
    e.IsSound := by
  obtain ⟨eviction, hmem, t, hends⟩ := h
  exact Program.always_iff.1 (hevictions eviction hmem) t _ hends

/-- The stage fails as soundly as its evictions and what lies further in. -/
theorem failsSoundly_stage
    (hevictions : ∀ eviction ∈ evictions, (eviction.evict request).Always FailsSoundly)
    (hbelow : (throughStages handler request stages).Always Outcome.FailsSoundly) :
    (throughStages handler request (stage evictions recorder :: stages)).Always
      Outcome.FailsSoundly := by
  refine Program.always_iff.2 fun t outcome hends => ?_
  rcases outcome with fault | response
  · rcases blames_of_ends hends with h | h | ⟨hne, hcancelled, h⟩
    · exact Program.always_iff.1 hbelow _ _ h
    · rintro e ⟨⟩
    · rintro e ⟨⟩
      exact .evictions hne hcancelled fun e he => (h e he).isSound hevictions
  · trivial

end Eviction

/-- The faults that are made of others mean something, and they keep it.

* Whatever the store answers, looking an entry up, storing it and removing it fail soundly, by its
  keys and by its plan: a fault of several keys holds one of them at least, and not more than there
  were keys.
* A request that fails at the stage of its evictions fails for what lies further in, or because an
  eviction was cancelled, or with the faults of its evictions: at least one, none of them cancelled,
  each as the eviction made it.  So the stage fails as soundly as its evictions do, and those of the
  cache do.
* A fault is worth a second try if and only if all that it comes down to are faults of the store
  that might pass; and a sound one comes down to something.
* As the fault of a dispatch a cancelled fault is cancelled, and no other one is; every other one is
  found there again. -/
theorem faults_made_soundly :
    (∀ c : Json.Codec α,
      (∀ key, (Entry.find (W := W) c key).Always FailsSoundly) ∧
      ∀ value keys l, (Entry.store (W := W) c value keys l).Always FailsSoundly) ∧
    (∀ key, (Entry.remove (W := W) key).Always FailsSoundly) ∧
    (∀ plan : Plan C k,
      (∀ request, (plan.find (W := W) request).Always FailsSoundly) ∧
      (∀ request response, (plan.store (W := W) request response).Always FailsSoundly) ∧
      ∀ identifier, (plan.remove (W := W) identifier).Always FailsSoundly) ∧
    (∀ (evictions : List (Eviction C W k)) (recorder : Recorder) (handler : Handler C W k)
        (stages : List (Stage C W k)) (request : C.Request k),
      (∀ t fault, (throughStages handler request
          (Eviction.stage evictions recorder :: stages)).Ends t (.error fault) [] →
        Eviction.Blames evictions request (throughStages handler request stages) fault) ∧
      ((∀ eviction ∈ evictions, (eviction.evict request).Always FailsSoundly) →
        (throughStages handler request stages).Always Outcome.FailsSoundly →
        (throughStages handler request (Eviction.stage evictions recorder :: stages)).Always
          Outcome.FailsSoundly)) ∧
    (∀ (target : C.Kind) (plan : Plan C target) (identifier : C.Request k → String)
        (request : C.Request k),
      ((Eviction.ofPlan (W := W) plan identifier).evict request).Always FailsSoundly) ∧
    ∀ e : CacheFault,
      (e.isTemporary = true ↔ ∀ leaf, e.HasLeaf leaf → leaf.Passes) ∧
      (e.IsSound → ∃ leaf, e.HasLeaf leaf) ∧
      (e.toDispatch = .cancelled ↔ e = .cancelled) ∧
      (e ≠ .cancelled → e.toDispatch.cacheFault? = some e) := by
  refine ⟨fun c => ⟨Entry.always_find c, Entry.always_store c⟩, Entry.always_remove,
    fun plan => ⟨fun request => ?_, plan.always_store, fun identifier => ?_⟩,
    fun evictions recorder handler stages request => ?_, fun target plan identifier request => ?_,
    fun e => ?_⟩
  · exact Entry.always_find _ _
  · exact Entry.always_remove _
  · exact ⟨fun t fault => Eviction.blames_of_ends, Eviction.failsSoundly_stage⟩
  · exact Eviction.always_ofPlan plan identifier
  · exact ⟨e.isTemporary_iff, CacheFault.IsSound.exists_hasLeaf,
      CacheFault.toDispatch_eq_cancelled_iff, CacheFault.cacheFault?_toDispatch⟩

namespace Demo

/-- The removal of a greeting of which the store holds nothing but a brace, and which it does not
let go. -/
def brokenGreeting : List (Exchange counting) :=
  [⟨.read "demo.GetGreeting:0", some (.ok (some "\x7b"))⟩,
    ⟨.log (.undecodableRemoved "demo.GetGreeting:0"), ()⟩,
    ⟨.apply [.delete "demo.GetGreeting:0"], some [.error (.unavailable "down")]⟩]

/-- Why it does not go. -/
def brokenFault : CacheFault :=
  .someKeys "remove" 1 [⟨"demo.GetGreeting:0", .unavailable "down"⟩]

/-- Evictions that were made elsewhere have failed. -/
def elsewhere : CacheFault := .evictions "elsewhere" [.store (.unavailable "down")]

/-- The turn of the eviction of the greeting. -/
def brokenTurn : Eviction.Turn catalogue counting Kind.reset :=
  ⟨.ofPlan (C := catalogue) (k := Kind.reset) greetingPlan fun (number : ℕ) => toString number,
    brokenGreeting, .error brokenFault⟩

lemma isRun_brokenTurn : brokenTurn.IsRun (0 : ℕ) := by
  have hbroken : Bundle.decodeKeys? "\x7b" = none := by decide +kernel
  have hkept : (some "\x7b").filter (fun s => !isBlank s) = some "\x7b" := by decide +kernel
  have hkey : greetingPlan.key (toString 0) = ⟨"demo.GetGreeting:0"⟩ := by decide
  change (Entry.remove (greetingPlan.key (toString 0))).Ends brokenGreeting (.error brokenFault) []
  rw [hkey]
  refine Program.ends_bind_iff_append.2 ⟨.ok (some "\x7b"), [_], _, rfl, .answered ?_, ?_⟩
  · exact Program.ends_done_iff.2 ⟨congrArg _ hkept.symm, rfl⟩
  · dsimp only
    rw [hbroken]
    exact .answered (.answered (.ended _ _))

/-- The turns of three evictions: the first one fails at the store, and the last one fails with
faults of evictions. -/
def brokenTurns : List (Eviction.Turn catalogue counting Kind.reset) :=
  [brokenTurn, turnOf "a" (.ok ()), turnOf "b" (.error elsewhere)]

lemma ends_brokenTurns :
    (throughStages reset (0 : ℕ)
      [Eviction.stage (brokenTurns.map Eviction.Turn.eviction) resetRecorder]).Ends
      (brokenTurns.flatMap (Eviction.Turn.exchanges resetRecorder))
      (.error (.failed (.cache (.evictions Kind.reset.name [brokenFault, elsewhere])))) [] := by
  have hround : Eviction.IsRound (0 : ℕ) (brokenTurns.map Eviction.Turn.eviction) brokenTurns := by
    refine ⟨List.prefix_rfl, ?_, ?_, fun hne => absurd rfl hne⟩
    · simp [brokenTurns, isRun_brokenTurn, isRun_turnOf]
    · simp [brokenTurns, Eviction.Turn.IsCut, brokenTurn, turnOf, brokenFault]
  have hgathers : Eviction.Gathers brokenTurns (some [brokenFault, elsewhere]) := by
    refine .inr ⟨?_, rfl⟩
    simp [brokenTurns, Eviction.Turn.IsCut, brokenTurn, turnOf, brokenFault, elsewhere]
  have hbelow : (throughStages reset (0 : ℕ) []).Ends [] (.ok ()) [] := .ended _ _
  exact Eviction.ends_stage hbelow hround hgathers

/-- The request is answered and its evictions fail.  Their fault is sound, for all that they can
fail with is, and all that it comes down to might pass. -/
theorem broken_evictions : ∃ t e,
    (throughStages reset (0 : ℕ)
      [Eviction.stage (brokenTurns.map Eviction.Turn.eviction) resetRecorder]).Ends t
      (.error (.failed (.cache e))) [] ∧
    e.IsSound ∧ (∃ leaf, e.HasLeaf leaf) ∧ (∀ leaf, e.HasLeaf leaf → leaf.Passes) ∧
    e.toDispatch.cacheFault? = some e := by
  obtain ⟨-, -, -, hstage, hplan, htree⟩ :=
    faults_made_soundly (C := catalogue) (W := counting) (k := Kind.reset) (α := Unit)
  have helsewhere : elsewhere.IsSound :=
    .evictions (by simp) (by simp) (List.forall_mem_singleton.2 (.single trivial))
  have hevictions : ∀ eviction ∈ brokenTurns.map Eviction.Turn.eviction,
      (eviction.evict (0 : ℕ)).Always FailsSoundly := by
    simp only [brokenTurns, List.map_cons, List.map_nil, List.forall_mem_cons]
    exact ⟨hplan _ _ _ _, trivial, helsewhere, nofun⟩
  have hsound := (hstage (brokenTurns.map Eviction.Turn.eviction) resetRecorder reset [] (0 : ℕ)).2
    hevictions trivial
  have he := Program.always_iff.1 hsound _ _ ends_brokenTurns _ rfl
  exact ⟨_, _, ends_brokenTurns, he, (htree _).2.1 he, (htree _).1.1 rfl, (htree _).2.2.2 nofun⟩

end Demo

end RequestCache
