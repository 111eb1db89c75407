/-
# What a setup puts into a dispatcher

A setup that was built one plan and one eviction at a time (`Built`) lists each kind that is
cached, and each kind that evicts, exactly once (`Built.isOrdered`).  So wiring it gives every
kind at most one stage of each sort, the one that evicts around the one that looks up, inside
the stages that were there before (`route_wire`); that is all that is ever used of `wire`.

The evictions of a built setup are removals under a plan of the setup, apart from those that the
application made itself (`Built.eviction_cases`).
-/
import Mathlib.Data.List.Nodup
import RequestCache.Cache.Setup

namespace RequestCache

variable {C : Catalogue} {W : Interface}

namespace Dispatcher

@[simp] lemma route_addStage_same (d : Dispatcher C W) (k : C.Kind) (stage : Stage C W k) :
    (d.addStage k stage).route k =
      { d.route k with stages := (d.route k).stages ++ [stage] } := by
  simp [addStage, alter]

lemma route_addStage_other (d : Dispatcher C W) {k j : C.Kind} (stage : Stage C W k)
    (h : j ≠ k) : (d.addStage k stage).route j = d.route j := by
  simp [addStage, alter, Family.set_other _ _ h]

/-- The step of a loop over kinds adds stages to the kind at hand and to no other one. -/
structure AddsStages (f : Dispatcher C W → C.Kind × ℕ → Dispatcher C W)
    (added : (k : C.Kind) → ℕ → List (Stage C W k)) : Prop where
  same : ∀ d k i, (f d (k, i)).route k =
    { d.route k with stages := (d.route k).stages ++ added k i }
  other : ∀ d k i j, j ≠ k → (f d (k, i)).route j = d.route j

section

variable {f : Dispatcher C W → C.Kind × ℕ → Dispatcher C W}
  {added : (k : C.Kind) → ℕ → List (Stage C W k)}

lemma AddsStages.route_foldl_of_notMem (hf : AddsStages f added) {k : C.Kind}
    {ks : List C.Kind} (hk : k ∉ ks) (d : Dispatcher C W) (i : ℕ) :
    ((ks.zipIdx i).foldl f d).route k = d.route k := by
  induction ks generalizing d i with
  | nil => rfl
  | cons j ks ih =>
    rw [List.mem_cons, not_or] at hk
    rw [List.zipIdx_cons, List.foldl_cons, ih hk.2, hf.other d j i k hk.1]

/-- A loop over different kinds adds to each of them what its one step for it adds. -/
lemma AddsStages.route_foldl_of_mem (hf : AddsStages f added) {k : C.Kind} {ks : List C.Kind}
    (hnodup : ks.Nodup) (hk : k ∈ ks) (d : Dispatcher C W) (i : ℕ) :
    ∃ serial, ((ks.zipIdx i).foldl f d).route k =
      { d.route k with stages := (d.route k).stages ++ added k serial } := by
  induction ks generalizing d i with
  | nil => cases hk
  | cons j ks ih =>
    rw [List.nodup_cons] at hnodup
    rw [List.zipIdx_cons, List.foldl_cons]
    by_cases hj : k = j
    · subst hj
      rw [hf.route_foldl_of_notMem hnodup.1, hf.same]
      exact ⟨i, rfl⟩
    · have hmem : k ∈ ks := (List.mem_cons.1 hk).resolve_left hj
      obtain ⟨serial, hroute⟩ := ih hnodup.2 hmem (f d (j, i)) (i + 1)
      rw [hf.other d j i k hj] at hroute
      exact ⟨serial, hroute⟩

end

end Dispatcher

namespace CacheSetup

/-- Each kind that has a plan, and each kind that has evictions, is listed once. -/
structure IsOrdered (s : CacheSetup C W) : Prop where
  cached_nodup : s.cached.Nodup
  mem_cached : ∀ k, k ∈ s.cached ↔ (s.plan k).isSome = true
  evicting_nodup : s.evicting.Nodup
  mem_evicting : ∀ k, k ∈ s.evicting ↔ s.evictions k ≠ []

/-- The eviction stage of a kind, if it has one. -/
def evictionStage (s : CacheSetup C W) (k : C.Kind) (recorder : Recorder) :
    List (Stage C W k) :=
  if (s.evictions k).isEmpty then [] else [Eviction.stage (s.evictions k) recorder]

/-- The look-up stage of a kind, if it has one. -/
def lookupStage (s : CacheSetup C W) (k : C.Kind) (recorder : Recorder) : List (Stage C W k) :=
  match s.plan k with
  | none => []
  | some p => [Lookup.stage p s.policy recorder]

lemma addsStages_wireEvictions (s : CacheSetup C W) :
    Dispatcher.AddsStages (fun d e => s.wireEvictions d e.1 e.2)
      fun k serial => s.evictionStage k ⟨serial, C.name k⟩ where
  same d k i := by
    simp only [wireEvictions, evictionStage]
    split_ifs <;> simp
  other d k i j hj := by
    simp only [wireEvictions]
    split_ifs
    · rfl
    · exact d.route_addStage_other _ hj

lemma addsStages_wireLookup (s : CacheSetup C W) :
    Dispatcher.AddsStages (fun d e => s.wireLookup d e.1 e.2)
      fun k serial => s.lookupStage k ⟨serial, C.name k⟩ where
  same d k i := by
    simp only [wireLookup, lookupStage]
    cases s.plan k <;> simp
  other d k i j hj := by
    simp only [wireLookup]
    cases s.plan k with
    | none => rfl
    | some p => exact d.route_addStage_other _ hj

/-- Wiring adds to each kind the stages it is to have, with some recorders. -/
theorem route_wire {s : CacheSetup C W} (hs : s.IsOrdered) (d : Dispatcher C W) (serial : ℕ)
    (k : C.Kind) :
    ∃ evicting looking, (s.wire d serial).1.route k =
      { d.route k with
        stages := (d.route k).stages ++
          (s.evictionStage k evicting ++ s.lookupStage k looking) } := by
  have hevict : ∃ evicting,
      ((s.evicting.zipIdx serial).foldl (fun d e => s.wireEvictions d e.1 e.2) d).route k =
        { d.route k with stages := (d.route k).stages ++ s.evictionStage k evicting } := by
    by_cases hk : k ∈ s.evicting
    · obtain ⟨i, hi⟩ :=
        s.addsStages_wireEvictions.route_foldl_of_mem hs.evicting_nodup hk d serial
      exact ⟨_, hi⟩
    · refine ⟨⟨serial, C.name k⟩, ?_⟩
      have hnone : s.evictions k = [] := by
        by_contra hne
        exact hk ((hs.mem_evicting k).2 hne)
      rw [s.addsStages_wireEvictions.route_foldl_of_notMem hk]
      simp [evictionStage, hnone]
  have hlook : ∀ d : Dispatcher C W, ∃ looking,
      ((s.cached.zipIdx (serial + s.evicting.length)).foldl
        (fun d e => s.wireLookup d e.1 e.2) d).route k =
        { d.route k with stages := (d.route k).stages ++ s.lookupStage k looking } := by
    intro d
    by_cases hk : k ∈ s.cached
    · obtain ⟨i, hi⟩ := s.addsStages_wireLookup.route_foldl_of_mem hs.cached_nodup hk d
        (serial + s.evicting.length)
      exact ⟨_, hi⟩
    · refine ⟨⟨serial, C.name k⟩, ?_⟩
      have hnone : s.plan k = none := by
        by_contra hne
        exact hk ((hs.mem_cached k).2 (Option.isSome_iff_ne_none.2 hne))
      rw [s.addsStages_wireLookup.route_foldl_of_notMem hk]
      simp [lookupStage, hnone]
  obtain ⟨evicting, hevicting⟩ := hevict
  obtain ⟨looking, hlooking⟩ := hlook _
  refine ⟨evicting, looking, ?_⟩
  rw [wire]
  dsimp only
  rw [hlooking, hevicting, List.append_assoc]

/-- The setups that are built step by step; what may be among the evictions that the application
makes itself is said by `own`. -/
inductive Built (own : (k : C.Kind) → Eviction C W k → Prop) : CacheSetup C W → Prop
  /-- Nothing is cached and nothing is evicted. -/
  | start (storeName : String) (policy : FaultPolicy) : Built own { storeName, policy }
  /-- A plan is added. -/
  | plan {s s' : CacheSetup C W} {k : C.Kind} {p : Plan C k} {events : List Event}
      (hs : Built own s) (h : s.addPlan k p = .ok (s', events)) : Built own s'
  /-- An eviction of the application's own making is added. -/
  | own {s : CacheSetup C W} {k : C.Kind} {e : Eviction C W k} (hs : Built own s) (h : own k e) :
      Built own (s.addEviction k e).1
  /-- A removal of entries of a cached kind is added. -/
  | evictAfter {s s' : CacheSetup C W} {k target : C.Kind} {identifier : C.Request k → String}
      {events : List Event} (hs : Built own s)
      (h : s.evictAfter k target identifier = .ok (s', events)) : Built own s'

section

variable {own : (k : C.Kind) → Eviction C W k → Prop} {s : CacheSetup C W}

lemma addPlan_eq_ok_iff {k : C.Kind} {p : Plan C k} {s' : CacheSetup C W} {events : List Event} :
    s.addPlan k p = .ok (s', events) ↔
      s.plan k = none ∧
        s' = { s with
          plan := Family.set (F := fun k => Option (Plan C k)) s.plan k (some p)
          cached := s.cached ++ [k] } ∧
        events = [.planAdded (C.name k) p.expiration] := by
  unfold addPlan
  cases s.plan k with
  | none => simp [eq_comm]
  | some q => simp

lemma evictAfter_eq_ok_iff {k target : C.Kind} {identifier : C.Request k → String}
    {s' : CacheSetup C W} {events : List Event} :
    s.evictAfter k target identifier = .ok (s', events) ↔
      ∃ p, s.plan target = some p ∧
        (s', events) = s.addEviction k (.ofPlan p identifier) := by
  unfold evictAfter
  cases s.plan target with
  | none => simp
  | some p => simp [eq_comm]

lemma IsOrdered.addEviction (hs : s.IsOrdered) (k : C.Kind) (e : Eviction C W k) :
    (s.addEviction k e).1.IsOrdered where
  cached_nodup := hs.cached_nodup
  mem_cached := hs.mem_cached
  evicting_nodup := by
    change (if (s.evictions k).isEmpty then s.evicting ++ [k] else s.evicting).Nodup
    split_ifs with hempty
    · have hk : k ∉ s.evicting := fun hmem =>
        (hs.mem_evicting k).1 hmem (List.isEmpty_iff.1 hempty)
      exact List.nodup_append.2 ⟨hs.evicting_nodup, List.nodup_singleton k,
        fun a ha b hb => by rw [List.mem_singleton.1 hb]; rintro rfl; exact hk ha⟩
    · exact hs.evicting_nodup
  mem_evicting j := by
    change j ∈ (if (s.evictions k).isEmpty then s.evicting ++ [k] else s.evicting) ↔
      Family.set (F := fun k => List (Eviction C W k)) s.evictions k
        (s.evictions k ++ [e]) j ≠ []
    by_cases hj : j = k
    · subst hj
      rw [Family.set_same]
      split_ifs with hempty
      · simp
      · simp [(hs.mem_evicting j).2 (by simpa using hempty)]
    · rw [Family.set_other _ _ hj, ← hs.mem_evicting j]
      split_ifs <;> simp [hj]

lemma IsOrdered.addPlan (hs : s.IsOrdered) {k : C.Kind} {p : Plan C k} {s' : CacheSetup C W}
    {events : List Event} (h : s.addPlan k p = .ok (s', events)) : s'.IsOrdered := by
  obtain ⟨hnone, rfl, -⟩ := addPlan_eq_ok_iff.1 h
  have hk : k ∉ s.cached := by
    intro hmem
    simpa [hnone] using (hs.mem_cached k).1 hmem
  refine ⟨?_, fun j => ?_, hs.evicting_nodup, hs.mem_evicting⟩
  · exact List.nodup_append.2 ⟨hs.cached_nodup, List.nodup_singleton k,
      fun a ha b hb => by rw [List.mem_singleton.1 hb]; rintro rfl; exact hk ha⟩
  · dsimp only
    by_cases hj : j = k
    · subst hj
      simp
    · rw [Family.set_other _ _ hj, ← hs.mem_cached j]
      simp [hj]

theorem Built.isOrdered (hs : Built own s) : s.IsOrdered := by
  induction hs with
  | start storeName policy =>
    exact ⟨List.nodup_nil, fun k => by simp, List.nodup_nil, fun k => by simp⟩
  | plan hs h ih => exact ih.addPlan h
  | own hs h ih => exact ih.addEviction _ _
  | evictAfter hs h ih =>
    obtain ⟨p, -, heq⟩ := evictAfter_eq_ok_iff.1 h
    obtain ⟨rfl, -⟩ := Prod.mk.inj heq
    exact ih.addEviction _ _

lemma mem_evictions_addEviction {k j : C.Kind} {e : Eviction C W k} {e' : Eviction C W j}
    (h : e' ∈ (s.addEviction k e).1.evictions j) :
    e' ∈ s.evictions j ∨ ∃ hj : j = k, hj ▸ e' = e := by
  change e' ∈ Family.set (F := fun k => List (Eviction C W k)) s.evictions k
    (s.evictions k ++ [e]) j at h
  by_cases hj : j = k
  · subst hj
    rw [Family.set_same, List.mem_append, List.mem_singleton] at h
    rcases h with h | rfl
    · exact .inl h
    · exact .inr ⟨rfl, rfl⟩
  · rw [Family.set_other _ _ hj] at h
    exact .inl h

/-- Every eviction of a built setup is of the application's own making or removes entries of a
kind by the plan of the kind. -/
theorem Built.eviction_cases (hs : Built own s) {k : C.Kind} {e : Eviction C W k}
    (he : e ∈ s.evictions k) :
    own k e ∨ ∃ (target : C.Kind) (p : Plan C target) (identifier : C.Request k → String),
      s.plan target = some p ∧ e = .ofPlan p identifier := by
  induction hs generalizing k with
  | start storeName policy => cases he
  | @plan _ _ planned _ _ hs h ih =>
    obtain ⟨hnone, rfl, -⟩ := addPlan_eq_ok_iff.1 h
    rcases ih he with hown | ⟨target, p, identifier, hp, rfl⟩
    · exact .inl hown
    · refine .inr ⟨target, p, identifier, ?_, rfl⟩
      have htarget : target ≠ planned := by
        rintro rfl
        rw [hnone] at hp
        cases hp
      rw [← hp]
      exact Family.set_other _ _ htarget
  | own hs h ih =>
    rcases mem_evictions_addEviction he with he | ⟨rfl, rfl⟩
    · exact ih he
    · exact .inl h
  | evictAfter hs h ih =>
    obtain ⟨p, hp, heq⟩ := evictAfter_eq_ok_iff.1 h
    obtain ⟨rfl, -⟩ := Prod.mk.inj heq
    rcases mem_evictions_addEviction he with he | ⟨rfl, rfl⟩
    · exact ih he
    · exact .inr ⟨_, p, _, hp, rfl⟩

end

end CacheSetup

end RequestCache
