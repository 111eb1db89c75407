/-
# What a setup holds after any calls

A setup is made by calls, one after the other (`Registration`): kinds are given plans, evictions
are added, and it is decided what to do when the cache fails.  A call that is refused changes
nothing.  So everything in a setup can be read off the calls that made it: the plan of a kind is
the one of the first call that gave it one, and its evictions are those of the accepted calls,
in order.

What one call does is said once for each table (`plan_next`, `evictions_next`, `policy_next`,
`IsOrdered.next`); what many do follows by induction on the calls from the last one back, because
whether a call is refused depends on those before it.
-/
import Mathlib.Data.List.Induction
import RequestCache.Demo
import RequestCache.Proofs.Wiring

namespace RequestCache

variable {C : Catalogue} {W : Interface}

/-- A call that sets up a cache. -/
inductive Registration (C : Catalogue) (W : Interface) where
  /-- A kind is cached by a plan. -/
  | plan (k : C.Kind) (p : Plan C k)
  /-- An entry of `target` goes after every request of kind `k`. -/
  | evictAfter (k target : C.Kind) (identifier : C.Request k → String)
  /-- An eviction of the application's own making runs after every request of kind `k`. -/
  | evict (k : C.Kind) (e : Eviction C W k)
  /-- It is decided what to do when the cache fails. -/
  | onFault (policy : FaultPolicy)

namespace Registration

variable {plans plans' : (k : C.Kind) → Option (Plan C k)} {k : C.Kind} {r : Registration C W}

/-- The kind whose requests a call is about, if it is about those of one kind. -/
def subject? : Registration C W → Option C.Kind
  | plan k _ => some k
  | evictAfter k _ _ => some k
  | evict k _ => some k
  | onFault _ => none

/-- The plan that a call is to give to a kind. -/
def plan? (k : C.Kind) : Registration C W → Option (Plan C k)
  | plan j p => if h : j = k then some (h ▸ p) else none
  | _ => none

/-- The eviction that a call is to add to a kind, where the kinds have certain plans. -/
def eviction? (plans : (k : C.Kind) → Option (Plan C k)) (k : C.Kind) :
    Registration C W → Option (Eviction C W k)
  | evictAfter j target identifier =>
    if h : j = k then (plans target).map fun p => .ofPlan p (h ▸ identifier) else none
  | evict j e => if h : j = k then some (h ▸ e) else none
  | _ => none

/-- The policy that a call chooses. -/
def policy? : Registration C W → Option FaultPolicy
  | onFault policy => some policy
  | _ => none

/-- Those of some calls that are about the requests of a certain kind, or of no kind. -/
def concerning (k? : Option C.Kind) (rs : List (Registration C W)) :
    List (Registration C W) :=
  rs.filter fun r => r.subject? = k?

/-- If the call is to evict entries of a kind, the kind has a plan. -/
def IsAimed (plans : (k : C.Kind) → Option (Plan C k)) (r : Registration C W) : Prop :=
  ∀ k target identifier, r = .evictAfter k target identifier → (plans target).isSome = true

@[simp] lemma plan?_eq_some_iff {p : Plan C k} : r.plan? k = some p ↔ r = .plan k p := by
  cases r with
  | plan j q =>
    by_cases h : j = k
    · subst h
      simp [plan?]
    · simp [plan?, h]
  | _ => simp [plan?]

/-- Only the calls about a kind add evictions to it. -/
lemma eviction?_of_subject?_ne (h : r.subject? ≠ some k) : r.eviction? plans k = none := by
  cases r <;> simp_all [subject?, eviction?]

/-- Only the calls that are about no kind choose a policy. -/
lemma policy?_of_subject?_ne (h : r.subject? ≠ none) : r.policy? = none := by
  cases r <;> simp_all [subject?, policy?]

lemma filterMap_eviction?_concerning (rs : List (Registration C W)) :
    (concerning (some k) rs).filterMap (eviction? plans k) = rs.filterMap (eviction? plans k) := by
  rw [concerning, List.filterMap_filter]
  refine List.filterMap_congr fun r _ => ?_
  by_cases h : r.subject? = some k
  · simp [h]
  · simp [h, eviction?_of_subject?_ne h]

lemma filterMap_policy?_concerning (rs : List (Registration C W)) :
    (concerning none rs).filterMap policy? = rs.filterMap policy? := by
  rw [concerning, List.filterMap_filter]
  refine List.filterMap_congr fun r _ => ?_
  by_cases h : r.subject? = none
  · simp [h]
  · simp [h, policy?_of_subject?_ne h]

/-- A plan more, for a kind that has none, is nothing to a call whose target has one. -/
lemma IsAimed.mono (h : r.IsAimed plans)
    (hmore : ∀ j p, plans j = some p → plans' j = some p) : r.IsAimed plans' := by
  intro k target identifier hr
  obtain ⟨p, hp⟩ := Option.isSome_iff_exists.1 (h k target identifier hr)
  rw [hmore target p hp]
  rfl

lemma IsAimed.eviction?_eq (h : r.IsAimed plans)
    (hmore : ∀ j p, plans j = some p → plans' j = some p) :
    r.eviction? plans' k = r.eviction? plans k := by
  cases r with
  | evictAfter j target identifier =>
    obtain ⟨p, hp⟩ := Option.isSome_iff_exists.1 (h j target identifier rfl)
    simp only [eviction?, hmore target p hp, hp]
  | _ => rfl

end Registration

namespace CacheSetup

/-- What a call gives: the new setup, or the reason why it is refused. -/
def register (s : CacheSetup C W) :
    Registration C W → Except CacheFault (CacheSetup C W × List Event)
  | .plan k p => s.addPlan k p
  | .evictAfter k target identifier => s.evictAfter k target identifier
  | .evict k e => .ok (s.addEviction k e)
  | .onFault policy => .ok ({ s with policy }, [])

/-- The setup after one call. -/
def next (s : CacheSetup C W) (r : Registration C W) : CacheSetup C W :=
  match s.register r with
  | .ok (s', _) => s'
  | .error _ => s

/-- The call, if it is accepted. -/
def taken (s : CacheSetup C W) (r : Registration C W) : Option (Registration C W) :=
  match s.register r with
  | .ok _ => some r
  | .error _ => none

/-- The setup after some calls. -/
def after (s : CacheSetup C W) (rs : List (Registration C W)) : CacheSetup C W := rs.foldl next s

/-- Those calls of a list that are accepted when all are made, one after the other. -/
def accepted (s : CacheSetup C W) : List (Registration C W) → List (Registration C W)
  | [] => []
  | r :: rs => (s.taken r).toList ++ (s.next r).accepted rs

lemma after_append (s : CacheSetup C W) (rs : List (Registration C W)) (r : Registration C W) :
    s.after (rs ++ [r]) = (s.after rs).next r := by
  simp [after]

lemma accepted_append (s : CacheSetup C W) (rs : List (Registration C W))
    (r : Registration C W) :
    s.accepted (rs ++ [r]) = s.accepted rs ++ ((s.after rs).taken r).toList := by
  induction rs generalizing s with
  | nil => simp [accepted, after]
  | cons r' rs ih =>
    rw [List.cons_append, accepted, ih, accepted, List.append_assoc]
    rfl

section

variable {s : CacheSetup C W} {k : C.Kind} {r : Registration C W}

/-! ## One call -/

lemma register_plan_eq_error_iff {p : Plan C k} {fault : CacheFault} :
    s.register (.plan k p) = .error fault ↔
      (s.plan k).isSome = true ∧ fault = .plannedTwice (C.name k) := by
  rw [register, addPlan]
  split_ifs with h <;> simp [h, eq_comm]

lemma register_evictAfter_eq_error_iff {target : C.Kind} {identifier : C.Request k → String}
    {fault : CacheFault} :
    s.register (.evictAfter k target identifier) = .error fault ↔
      s.plan target = none ∧ fault = .targetNotCached (C.name k) (C.name target) := by
  rw [register, evictAfter]
  cases s.plan target <;> simp [eq_comm]

/-- A call gives a plan to a kind that has none. -/
lemma plan_next : (s.next r).plan k = (s.plan k).or (r.plan? k) := by
  cases r with
  | plan j p =>
    by_cases hj : k = j
    · subst hj
      cases h : s.plan k <;> simp [next, register, addPlan, h, Registration.plan?]
    · have hset : (s.next (.plan j p)).plan k = s.plan k := by
        rw [next, register, addPlan]
        split_ifs
        · rfl
        · exact Family.set_other _ _ hj
      simp [hset, Registration.plan?, Ne.symm hj]
  | evictAfter j target identifier =>
    have hplan : (s.next (.evictAfter j target identifier)).plan k = s.plan k := by
      rw [next, register, evictAfter]
      cases s.plan target <;> rfl
    simp [hplan, Registration.plan?]
  | evict j e => simp [next, register, addEviction, Registration.plan?]
  | onFault policy => simp [next, register, Registration.plan?]

lemma evictions_addEviction {j : C.Kind} {e : Eviction C W j} :
    (s.addEviction j e).1.evictions k =
      s.evictions k ++ (if h : j = k then [h ▸ e] else []) := by
  change Family.set (F := fun k => List (Eviction C W k)) s.evictions j
    (s.evictions j ++ [e]) k = _
  by_cases hj : k = j
  · subst hj
    simp
  · rw [Family.set_other _ _ hj, dif_neg (Ne.symm hj), List.append_nil]

/-- A call adds its eviction if it is accepted. -/
lemma evictions_next :
    (s.next r).evictions k =
      s.evictions k ++ ((s.taken r).toList.filterMap (Registration.eviction? s.plan k)) := by
  cases r with
  | plan j p =>
    rw [next, taken, register, addPlan]
    split_ifs <;> simp [Registration.eviction?]
  | evictAfter j target identifier =>
    rw [next, taken, register, evictAfter]
    cases h : s.plan target with
    | none => simp
    | some p =>
      simp only [evictions_addEviction, Option.toList_some, List.filterMap_cons,
        List.filterMap_nil, Registration.eviction?, h, Option.map_some]
      by_cases hj : j = k
      · subst hj
        simp
      · simp [hj]
  | evict j e =>
    rw [next, taken, register]
    simp only [evictions_addEviction, Option.toList_some, List.filterMap_cons,
      List.filterMap_nil, Registration.eviction?]
    by_cases hj : j = k
    · subst hj
      simp
    · simp [hj]
  | onFault policy => simp [next, taken, register, Registration.eviction?]

lemma policy_next : (s.next r).policy = r.policy?.getD s.policy := by
  cases r with
  | plan j p =>
    rw [next, register, addPlan]
    split_ifs <;> rfl
  | evictAfter j target identifier =>
    rw [next, register, evictAfter]
    cases s.plan target <;> rfl
  | evict j e => rfl
  | onFault policy => rfl

lemma policy?_taken : (s.taken r).toList.filterMap Registration.policy? = r.policy?.toList := by
  cases r with
  | plan j p =>
    rw [taken, register, addPlan]
    split_ifs <;> rfl
  | evictAfter j target identifier =>
    rw [taken, register, evictAfter]
    cases s.plan target <;> rfl
  | evict j e => rfl
  | onFault policy => rfl

lemma plan_mem_taken_iff {p : Plan C k} :
    .plan k p ∈ (s.taken r).toList ↔ s.plan k = none ∧ r = .plan k p := by
  rw [Option.mem_toList, taken]
  constructor
  · intro h
    split at h
    · next s' events hok =>
      obtain rfl : r = .plan k p := by simpa using h
      exact ⟨(addPlan_eq_ok_iff.1 hok).1, rfl⟩
    · cases h
  · rintro ⟨hnone, rfl⟩
    simp [register, addPlan, hnone]

lemma IsOrdered.next (hs : s.IsOrdered) (r : Registration C W) : (s.next r).IsOrdered := by
  unfold CacheSetup.next
  split
  · next s' events h =>
    cases r with
    | plan j p => exact hs.addPlan h
    | evictAfter j target identifier =>
      obtain ⟨p, -, heq⟩ := evictAfter_eq_ok_iff.1 h
      obtain ⟨rfl, -⟩ := Prod.mk.inj heq
      exact hs.addEviction j _
    | evict j e =>
      obtain ⟨rfl, -⟩ := Prod.mk.inj (Except.ok.inj h)
      exact hs.addEviction j e
    | onFault policy =>
      obtain ⟨rfl, -⟩ := Prod.mk.inj (Except.ok.inj h)
      exact ⟨hs.cached_nodup, hs.mem_cached, hs.evicting_nodup, hs.mem_evicting⟩
  · exact hs

/-- A taken call that is to evict entries of a kind finds it planned. -/
lemma isAimed_of_mem_taken {r' : Registration C W} (h : r' ∈ (s.taken r).toList) :
    r'.IsAimed s.plan := by
  rintro j target identifier rfl
  rw [taken] at h
  split at h
  · next s' events hok =>
    obtain rfl : Registration.evictAfter j target identifier = r := by simpa using h
    obtain ⟨p, hp, -⟩ := evictAfter_eq_ok_iff.1 hok
    rw [hp]
    rfl
  · simp at h

end

/-! ## Many calls -/

section

variable {storeName : String} {policy : FaultPolicy} {k : C.Kind}

/-- The plan of a kind is that of the first call that was to give it one. -/
lemma plan_after (rs : List (Registration C W)) :
    (after { storeName, policy } rs).plan k = rs.findSome? (Registration.plan? k) := by
  induction rs using List.reverseRecOn with
  | nil => rfl
  | append_singleton rs r ih =>
    rw [after_append, plan_next, ih, List.findSome?_append]
    simp

lemma isSome_plan_after_iff (rs : List (Registration C W)) :
    ((after { storeName, policy } rs).plan k).isSome = true ↔ ∃ p, .plan k p ∈ rs := by
  rw [plan_after, List.findSome?_isSome_iff]
  constructor
  · rintro ⟨r, hr, hsome⟩
    obtain ⟨p, hp⟩ := Option.isSome_iff_exists.1 hsome
    exact ⟨p, Registration.plan?_eq_some_iff.1 hp ▸ hr⟩
  · rintro ⟨p, hp⟩
    exact ⟨_, hp, by simp [Registration.plan?]⟩

lemma plan_after_mono {rs : List (Registration C W)} {r : Registration C W} {p : Plan C k}
    (h : (after { storeName, policy } rs).plan k = some p) :
    ((after { storeName, policy } rs).next r).plan k = some p := by
  rw [plan_next, h]
  rfl

/-- Accepted calls have their targets planned, then and later. -/
lemma isAimed_of_mem_accepted (rs : List (Registration C W)) {r : Registration C W}
    (h : r ∈ accepted { storeName, policy } rs) :
    r.IsAimed (after { storeName, policy } rs).plan := by
  induction rs using List.reverseRecOn with
  | nil => cases h
  | append_singleton rs r' ih =>
    rw [accepted_append, List.mem_append] at h
    have haimed : r.IsAimed (after { storeName, policy } rs).plan := by
      rcases h with h | h
      · exact ih h
      · exact isAimed_of_mem_taken h
    rw [after_append]
    exact haimed.mono fun j p => plan_after_mono

/-- The evictions of a kind are those of the accepted calls, in the order of the calls. -/
lemma evictions_after (rs : List (Registration C W)) :
    (after { storeName, policy } rs).evictions k =
      (accepted { storeName, policy } rs).filterMap
        (Registration.eviction? (after { storeName, policy } rs).plan k) := by
  induction rs using List.reverseRecOn with
  | nil => rfl
  | append_singleton rs r ih =>
    -- the calls that were accepted before add the same evictions under the plans of now
    have hsame : ∀ r' ∈ accepted { storeName, policy } (rs ++ [r]),
        r'.eviction? ((after { storeName, policy } rs).next r).plan k =
          r'.eviction? (after { storeName, policy } rs).plan k := by
      intro r' hr'
      rw [accepted_append, List.mem_append] at hr'
      have haimed : r'.IsAimed (after { storeName, policy } rs).plan := by
        rcases hr' with hr' | hr'
        · exact isAimed_of_mem_accepted rs hr'
        · exact isAimed_of_mem_taken hr'
      exact haimed.eviction?_eq fun j p => plan_after_mono
    rw [after_append, evictions_next, ih, List.filterMap_congr hsame, accepted_append,
      List.filterMap_append]

/-- The policy is the one that was chosen last. -/
lemma policy_after (rs : List (Registration C W)) :
    (after { storeName, policy } rs).policy =
      (rs.filterMap Registration.policy?).getLastD policy := by
  induction rs using List.reverseRecOn with
  | nil => rfl
  | append_singleton rs r ih =>
    rw [after_append, policy_next, ih, List.filterMap_append]
    cases h : r.policy? <;> simp [h]

lemma policy?_accepted (s : CacheSetup C W) (rs : List (Registration C W)) :
    (s.accepted rs).filterMap Registration.policy? = rs.filterMap Registration.policy? := by
  induction rs generalizing s with
  | nil => rfl
  | cons r rs ih =>
    rw [accepted, List.filterMap_append, ih, policy?_taken]
    cases h : r.policy? <;> simp [h]

lemma isOrdered_after (rs : List (Registration C W)) :
    (after (C := C) (W := W) { storeName, policy } rs).IsOrdered := by
  induction rs using List.reverseRecOn with
  | nil =>
    exact ⟨List.nodup_nil, fun k => by simp [after], List.nodup_nil, fun k => by simp [after]⟩
  | append_singleton rs r ih =>
    rw [after_append]
    exact ih.next r

/-- A kind has just the plan that was accepted for it. -/
lemma plan_after_eq_some_iff (rs : List (Registration C W)) {p : Plan C k} :
    (after { storeName, policy } rs).plan k = some p ↔
      .plan k p ∈ accepted { storeName, policy } rs := by
  induction rs using List.reverseRecOn with
  | nil => simp [after, accepted]
  | append_singleton rs r ih =>
    rw [after_append, plan_next, accepted_append, List.mem_append, ← ih, plan_mem_taken_iff,
      Option.or_eq_some_iff, Registration.plan?_eq_some_iff, and_comm]

/-- What becomes of a kind depends on the calls about it, on the plans of all kinds and on the
policy, and not on how the calls are mixed. -/
lemma after_eq_of_perm {rs rs' : List (Registration C W)}
    (hperm : (accepted { storeName, policy } rs).Perm (accepted { storeName, policy } rs'))
    (hkind : Registration.concerning (some k) (accepted { storeName, policy } rs) =
      Registration.concerning (some k) (accepted { storeName, policy } rs'))
    (hnone : Registration.concerning none (accepted { storeName, policy } rs) =
      Registration.concerning none (accepted { storeName, policy } rs')) :
    (after { storeName, policy } rs).plan k = (after { storeName, policy } rs').plan k ∧
      (after { storeName, policy } rs).evictions k =
        (after { storeName, policy } rs').evictions k ∧
      (after { storeName, policy } rs).policy = (after { storeName, policy } rs').policy := by
  have hplan : (after { storeName, policy } rs).plan = (after { storeName, policy } rs').plan := by
    funext j
    refine Option.ext fun p => ?_
    rw [plan_after_eq_some_iff, plan_after_eq_some_iff, hperm.mem_iff]
  refine ⟨congrFun hplan k, ?_, ?_⟩
  · rw [evictions_after, evictions_after, ← Registration.filterMap_eviction?_concerning, hkind,
      hplan, Registration.filterMap_eviction?_concerning]
  · rw [policy_after, policy_after, ← policy?_accepted { storeName, policy } rs,
      ← policy?_accepted { storeName, policy } rs', ← Registration.filterMap_policy?_concerning,
      hnone, Registration.filterMap_policy?_concerning]

/-- The tables of a setup agree with the calls that made it and with one another, after any
calls, accepted or refused.

A kind is cached once a plan was given to it, by the first such plan; a later one is refused.
An eviction of entries of a kind is refused as long as that kind has no plan.  A refused call
changes nothing, and the evictions of a kind are those of the accepted calls about it, in order.
Wiring the setup into any dispatcher adds to the stages of each kind one that runs all its
evictions, if it has any, and inside of it one that looks requests up, if it is cached, under
the policy chosen last; nothing else changes.  And nothing of this depends on how the accepted
calls about a kind are mixed with those about other kinds. -/
theorem tables_in_step (storeName : String) (policy : FaultPolicy)
    (rs : List (Registration C W)) :
    let start : CacheSetup C W := { storeName, policy }
    let s := start.after rs
    (∀ k, (s.plan k).isSome = true ↔ ∃ p, .plan k p ∈ rs) ∧
    (∀ k, s.plan k = rs.findSome? (Registration.plan? k)) ∧
    (∀ k p fault, s.register (.plan k p) = .error fault ↔
      (∃ q, .plan k q ∈ rs) ∧ fault = .plannedTwice (C.name k)) ∧
    (∀ k target identifier fault,
      s.register (.evictAfter k target identifier) = .error fault ↔
        (¬ ∃ p, .plan target p ∈ rs) ∧ fault = .targetNotCached (C.name k) (C.name target)) ∧
    (∀ k e, ∃ made, s.register (.evict k e) = .ok made) ∧
    (∀ r fault, s.register r = .error fault → start.after (rs ++ [r]) = s) ∧
    (∀ k, s.evictions k =
      (start.accepted rs).filterMap (Registration.eviction? s.plan k)) ∧
    (∀ r ∈ start.accepted rs, r.IsAimed s.plan) ∧
    s.policy = (rs.filterMap Registration.policy?).getLastD policy ∧
    s.IsOrdered ∧
    (∀ (D : Dispatcher C W) (serial : ℕ) (k : C.Kind), ∃ evicting looking,
      (s.wire D serial).1.route k =
        { D.route k with
          stages := (D.route k).stages ++
            (s.evictionStage k evicting ++ s.lookupStage k looking) }) ∧
    (∀ (rs' : List (Registration C W)) (k : C.Kind),
      (start.accepted rs).Perm (start.accepted rs') →
      Registration.concerning (some k) (start.accepted rs) =
        Registration.concerning (some k) (start.accepted rs') →
      Registration.concerning none (start.accepted rs) =
        Registration.concerning none (start.accepted rs') →
      s.plan k = (start.after rs').plan k ∧
      s.evictions k = (start.after rs').evictions k ∧
      ∀ recorder, s.evictionStage k recorder = (start.after rs').evictionStage k recorder ∧
        s.lookupStage k recorder = (start.after rs').lookupStage k recorder) := by
  intro start s
  refine ⟨fun k => isSome_plan_after_iff rs, fun k => plan_after rs, fun k p fault => ?plan,
    fun k target identifier fault => ?evictAfter, fun k e => ⟨_, rfl⟩, fun r fault h => ?refused,
    fun k => evictions_after rs, fun r hr => isAimed_of_mem_accepted rs hr, policy_after rs,
    isOrdered_after rs, route_wire (isOrdered_after rs), fun rs' k hperm hkind hnone => ?mixed⟩
  case plan => rw [register_plan_eq_error_iff, isSome_plan_after_iff]
  case evictAfter =>
    rw [register_evictAfter_eq_error_iff, ← isSome_plan_after_iff, Option.not_isSome_iff_eq_none]
  case refused =>
    rw [after_append, CacheSetup.next, h]
  case mixed =>
    obtain ⟨hplan, hevictions, hpolicy⟩ := after_eq_of_perm hperm hkind hnone
    refine ⟨hplan, hevictions, fun recorder => ⟨?_, ?_⟩⟩
    · rw [evictionStage, evictionStage, hevictions]
    · rw [lookupStage, lookupStage, hplan, hpolicy]

end

end CacheSetup

namespace Demo

/-- The calls of the demonstration, the policy decided first. -/
def calls : List (Registration catalogue counting) :=
  [.onFault .lenient, .plan (C := catalogue) Kind.greeting greetingPlan,
    .evictAfter (C := catalogue) Kind.reset Kind.greeting fun (number : Nat) => toString number]

/-- The same calls with the policy decided last, the eviction tried too early and the greetings
planned once more. -/
def muddledCalls : List (Registration catalogue counting) :=
  [.evictAfter (C := catalogue) Kind.reset Kind.greeting fun (number : Nat) => toString number,
    .plan (C := catalogue) Kind.greeting greetingPlan,
    .plan (C := catalogue) Kind.greeting ⟨fun _ => "", none, .never⟩,
    .evictAfter (C := catalogue) Kind.reset Kind.greeting fun (number : Nat) => toString number,
    .onFault .lenient]

/-- Both ways the demonstration evicts the same after a reset. -/
theorem evictions_muddledCalls :
    (CacheSetup.after { storeName := "memory" } calls).evictions Kind.reset =
      (CacheSetup.after { storeName := "memory" } muddledCalls).evictions Kind.reset := by
  obtain ⟨-, -, -, -, -, -, -, -, -, -, -, hmixed⟩ :=
    CacheSetup.tables_in_step (C := catalogue) (W := counting) "memory" .strict calls
  refine (hmixed muddledCalls Kind.reset ?_ rfl rfl).2.1
  -- the policy moves from the front of the accepted calls to their end
  exact (List.Perm.swap _ _ _).trans ((List.Perm.swap _ _ _).cons _)

end Demo

end RequestCache
