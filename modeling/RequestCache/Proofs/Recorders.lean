/-
# Recorders and their copies

A recorder counts together with its copies, and with nobody else: two recorders that were made
separately have counts of their own, even if they have the same name.  The ledger counts by name
and cannot tell them apart.  So its counters are sums over the recorders of a name that were made
separately (`Rehearsal.LedgerBench.counts_agree`).

Which recorder is a copy of which one follows from the steps that make and copy them, and so does
what each of them was told with its copies (`Rehearsal.Roster`).  Every step keeps the counts and
the ledger in agreement with that (`Rehearsal.Roster.Fits.step`).
-/
import Mathlib.Algebra.BigOperators.Finprod
import RequestCache.Proofs.Rounds
import RequestCache.Rehearsal.LedgerScript

namespace RequestCache

/-! ## The counts of a name -/

lemma Ledger.finite_support_evictionsOf (l : Ledger) (name : String) :
    (Function.support (l.evictionsOf name)).Finite := by
  have hinj : Function.Injective (Counter.evictions name) := fun target target' h => by
    cases h
    rfl
  refine ((l.counters.map Prod.fst).finite_toSet.preimage hinj.injOn).subset fun target hne => ?_
  by_contra hnot
  have hnone : l.counters.lookup (.evictions name target) = none := by
    refine List.lookup_eq_none_iff.2 fun c hc => bne_iff_ne.2 ?_
    rintro heq
    exact hnot (List.mem_map.2 ⟨c, hc, heq.symm⟩)
  exact hne (by rw [evictionsOf, counterOf, hnone, Option.getD_none])

/-- A count that a recorder keeps. -/
inductive Dial where
  | hits
  | misses
  | evictions

namespace Dial

/-- What it shows, among the counts of a recorder. -/
def of (c : Counts) : Dial → ℕ
  | hits => c.hits
  | misses => c.misses
  | evictions => c.evictions

/-- Is it moved by what is told? -/
def isMovedBy : Dial → Measure → Bool
  | hits, .hit => true
  | misses, .miss => true
  | evictions, .eviction _ => true
  | _, _ => false

/-- What the ledger shows for a name, and for evictions of whatever target. -/
noncomputable def total (l : Ledger) (name : String) : Dial → ℕ
  | hits => l.counterOf (.hits name)
  | misses => l.counterOf (.misses name)
  | evictions => ∑ᶠ target, l.evictionsOf name target

variable {l : Ledger} {r : Recorder} {what : Measure} {times : ℕ} {elapsed : Span} {name : String}

lemma of_add (g : Dial) (c : Counts) (what : Measure) (times : ℕ) :
    g.of (c.add what times) = g.of c + if g.isMovedBy what then times else 0 := by
  cases g <;> cases what <;> rfl

/-- Evictions move the sum over all targets. -/
lemma finsum_evictionsOf_record :
    ∑ᶠ target, (l.record r what times elapsed).evictionsOf name target =
      ∑ᶠ target, l.evictionsOf name target +
        if r.request = name ∧ evictions.isMovedBy what then times else 0 := by
  let moved (target : String) : ℕ :=
    if what.counter? r.request = some (.evictions name target) then times else 0
  have hone : {target | what.counter? r.request = some (.evictions name target)}.Subsingleton := by
    intro target h target' h'
    cases h.symm.trans h'
    rfl
  have hfinite : (Function.support moved).Finite :=
    hone.finite.subset fun target hne => by_contra fun hnot => hne (if_neg hnot)
  have hmoved : ∑ᶠ target, moved target =
      if r.request = name ∧ evictions.isMovedBy what then times else 0 := by
    cases what with
    | eviction target =>
      by_cases hname : r.request = name
      · rw [finsum_eq_single moved target fun target' hne => if_neg ?_]
        · simp [moved, Measure.counter?, hname, isMovedBy]
        · simpa [Measure.counter?] using fun _ => hne.symm
      · simp [moved, Measure.counter?, hname]
    | _ => simp [moved, Measure.counter?, isMovedBy]
  rw [← hmoved, ← finsum_add_distrib (l.finite_support_evictionsOf name) hfinite]
  exact finsum_congr fun target => l.counterOf_record (.evictions name target) r what times elapsed

/-- What is told to a recorder moves the count of its name, as it moves its own. -/
lemma total_record (g : Dial) :
    g.total (l.record r what times elapsed) name =
      g.total l name + if r.request = name ∧ g.isMovedBy what then times else 0 := by
  cases g with
  | hits =>
    refine (l.counterOf_record (.hits name) r what times elapsed).trans (congrArg _ ?_)
    cases what <;> simp [Measure.counter?, isMovedBy]
  | misses =>
    refine (l.counterOf_record (.misses name) r what times elapsed).trans (congrArg _ ?_)
    cases what <;> simp [Measure.counter?, isMovedBy]
  | evictions => exact finsum_evictionsOf_record

end Dial

namespace Rehearsal

/-! ## Who is a copy of whom -/

/-- What follows from the steps alone. -/
structure Roster where
  /-- For each place, the place at which its recorder was made; a copy has that of its original. -/
  origins : List ℕ := []
  /-- The places at which recorders were made, with their names. -/
  made : List (ℕ × String) := []
  /-- What was told, and how often, to the recorder that was made at a place or to one of its
  copies. -/
  told : List (ℕ × Measure × ℕ) := []

namespace Roster

/-- Takes down a step. -/
def step (q : Roster) : LedgerStep → Roster
  | .record on what times _ =>
    match q.origins[on]? with
    | some origin => { q with told := q.told ++ [(origin, what, times)] }
    | none => q
  | .copy on =>
    match q.origins[on]? with
    | some origin => { q with origins := q.origins ++ [origin] }
    | none => q
  | .make request =>
    { q with
      origins := q.origins ++ [q.origins.length]
      made := q.made ++ [(q.origins.length, request)] }
  | .describe => q

/-- What was told to the recorder that was made at a place, and to its copies, counted. -/
def countsAt (q : Roster) (origin : ℕ) : Counts :=
  (q.told.filter (·.1 = origin)).foldl (fun c e => c.add e.2.1 e.2.2) {}

/-- The recorders of a name that were made separately, by their places. -/
def named (q : Roster) (name : String) : List ℕ :=
  (q.made.filter fun p => p.2 = name).map Prod.fst

/-- The counts and the ledger agree with what was taken down. -/
structure Fits (q : Roster) (b : LedgerBench) : Prop where
  origins : b.recorders.map Recorder.serial = q.origins
  known : ∀ r ∈ b.recorders, (r.serial, r.request) ∈ q.made
  atOrigin : ∀ p ∈ q.made, b.recorders[p.1]? = some ⟨p.1, p.2⟩
  distinct : (q.made.map Prod.fst).Nodup
  told : ∀ e ∈ q.told, e.1 < q.origins.length
  counts : ∀ r, b.ledger.countsOf r = q.countsAt r.serial
  total : ∀ (g : Dial) name,
    g.total b.ledger name = ((q.named name).map fun origin => g.of (q.countsAt origin)).sum

variable {q : Roster} {b : LedgerBench} {on : ℕ} {r : Recorder}

lemma countsAt_told (q : Roster) (origin origin' : ℕ) (what : Measure) (times : ℕ) :
    countsAt { q with told := q.told ++ [(origin', what, times)] } origin =
      if origin' = origin then (q.countsAt origin).add what times else q.countsAt origin := by
  rw [countsAt, List.filter_append, List.foldl_append]
  by_cases h : origin' = origin
  · rw [if_pos h, List.filter_cons_of_pos (by simpa using h)]
    rfl
  · rw [if_neg h, List.filter_cons_of_neg (by simpa using h)]
    rfl

/-- Nothing was told to a recorder that has not been made yet. -/
lemma countsAt_of_forall_ne {origin : ℕ} (h : ∀ e ∈ q.told, e.1 ≠ origin) :
    q.countsAt origin = {} := by
  rw [countsAt, List.filter_eq_nil_iff.2 fun e he => by simpa using h e he]
  rfl

namespace Fits

lemma length_eq (h : q.Fits b) : b.recorders.length = q.origins.length := by
  rw [← h.origins, List.length_map]

lemma origin?_eq (h : q.Fits b) (place : ℕ) :
    q.origins[place]? = (b.recorders[place]?).map Recorder.serial := by
  rw [← h.origins, List.getElem?_map]

lemma place_lt (h : q.Fits b) {p : ℕ × String} (hp : p ∈ q.made) : p.1 < b.recorders.length :=
  (List.getElem?_eq_some_iff.1 (h.atOrigin p hp)).1

lemma mem_named_iff (h : q.Fits b) (hr : r ∈ b.recorders) {name : String} :
    r.serial ∈ q.named name ↔ r.request = name := by
  have hmade := h.known r hr
  constructor
  · intro hmem
    obtain ⟨p, hp, hserial⟩ := List.mem_map.1 hmem
    obtain ⟨hp, hname⟩ := List.mem_filter.1 hp
    -- only one recorder was made at the place
    have hget := h.atOrigin p hp
    rw [hserial] at hget
    obtain ⟨-, hrequest⟩ := Recorder.mk.inj (Option.some.inj (hget.symm.trans (h.atOrigin _ hmade)))
    exact hrequest.symm.trans (of_decide_eq_true hname)
  · intro hname
    exact List.mem_map.2 ⟨_, List.mem_filter.2 ⟨hmade, by simpa using hname⟩, rfl⟩

/-- A recorder is among those of its name, once. -/
lemma sum_named (h : q.Fits b) (hr : r ∈ b.recorders) (name : String) (n : ℕ) :
    ((q.named name).map fun origin => if r.serial = origin then n else 0).sum =
      if r.request = name then n else 0 := by
  have hnodup : (q.named name).Nodup := (List.filter_sublist.map Prod.fst).nodup h.distinct
  rw [List.sum_map_eq_nsmul_single r.serial _ fun origin hne _ => if_neg hne.symm, hnodup.count,
    if_congr (h.mem_named_iff hr) rfl rfl, if_pos rfl, ite_smul, one_smul, zero_smul]

lemma record (h : q.Fits b) (hr : b.recorders[on]? = some r) (what : Measure) (times : ℕ)
    (elapsed : Span) :
    Fits { q with told := q.told ++ [(r.serial, what, times)] }
      { b with ledger := b.ledger.record r what times elapsed } where
  origins := h.origins
  known := h.known
  atOrigin := h.atOrigin
  distinct := h.distinct
  told e he := by
    rcases List.mem_append.1 he with he | he
    · exact h.told e he
    · obtain rfl := List.mem_singleton.1 he
      rw [← h.length_eq]
      exact h.place_lt (h.known r (List.mem_of_getElem? hr))
  counts r' := by
    rw [Ledger.countsOf_record, countsAt_told, h.counts]
  total g name := by
    have hmoved : ∀ origin, g.of (countsAt { q with told := q.told ++ [(r.serial, what, times)] }
        origin) = g.of (q.countsAt origin) +
          if r.serial = origin then if g.isMovedBy what then times else 0 else 0 := by
      intro origin
      rw [countsAt_told]
      by_cases hserial : r.serial = origin
      · rw [if_pos hserial, if_pos hserial, Dial.of_add]
      · rw [if_neg hserial, if_neg hserial, Nat.add_zero]
    rw [Dial.total_record, h.total, ite_and, ← h.sum_named (List.mem_of_getElem? hr),
      ← List.sum_map_add]
    exact congrArg List.sum (List.map_congr_left fun origin _ => (hmoved origin).symm)

lemma copy (h : q.Fits b) (hr : b.recorders[on]? = some r) :
    Fits { q with origins := q.origins ++ [r.serial] }
      { b with recorders := b.recorders ++ [r] } where
  origins := by rw [List.map_append, h.origins]; rfl
  known r' hr' := by
    rcases List.mem_append.1 hr' with hr' | hr'
    · exact h.known r' hr'
    · obtain rfl := List.mem_singleton.1 hr'
      exact h.known _ (List.mem_of_getElem? hr)
  atOrigin p hp := (List.getElem?_append_left (h.place_lt hp)).trans (h.atOrigin p hp)
  distinct := h.distinct
  told e he := by
    rw [List.length_append]
    exact Nat.lt_add_right _ (h.told e he)
  counts := h.counts
  total := h.total

lemma make (h : q.Fits b) (request : String) :
    Fits { q with
        origins := q.origins ++ [q.origins.length]
        made := q.made ++ [(q.origins.length, request)] }
      { b with recorders := b.recorders ++ [⟨b.recorders.length, request⟩] } where
  origins := by
    rw [List.map_append, h.origins, ← h.length_eq]
    rfl
  known r hr := by
    rcases List.mem_append.1 hr with hr | hr
    · exact List.mem_append_left _ (h.known r hr)
    · obtain rfl := List.mem_singleton.1 hr
      rw [h.length_eq]
      exact List.mem_append_right _ List.mem_cons_self
  atOrigin p hp := by
    rcases List.mem_append.1 hp with hp | hp
    · exact (List.getElem?_append_left (h.place_lt hp)).trans (h.atOrigin p hp)
    · obtain rfl := List.mem_singleton.1 hp
      rw [← h.length_eq]
      exact List.getElem?_concat_length
  distinct := by
    rw [List.map_append, List.nodup_append]
    refine ⟨h.distinct, List.nodup_singleton _, fun place hplace place' hplace' => ?_⟩
    obtain ⟨p, hp, rfl⟩ := List.mem_map.1 hplace
    obtain rfl := List.mem_singleton.1 hplace'
    rw [← h.length_eq]
    exact Nat.ne_of_lt (h.place_lt hp)
  told e he := by
    rw [List.length_append]
    exact Nat.lt_add_right _ (h.told e he)
  counts := h.counts
  total g name := by
    -- the new recorder was told nothing
    have hnew : ([q.origins.length].map fun origin => g.of (q.countsAt origin)).sum = 0 := by
      rw [List.map_singleton, List.sum_singleton,
        countsAt_of_forall_ne fun e he => Nat.ne_of_lt (h.told e he)]
      cases g <;> rfl
    refine (h.total g name).trans ?_
    rw [named, named, List.filter_append, List.map_append, List.map_append, List.sum_append]
    refine (Nat.add_zero _).symm.trans (congrArg₂ (· + ·) rfl ?_)
    by_cases hname : request = name
    · rw [List.filter_cons_of_pos (by simpa using hname)]
      exact hnew.symm
    · rw [List.filter_cons_of_neg (by simpa using hname)]
      rfl

/-- Every step keeps the counts and the ledger in agreement. -/
theorem step (h : q.Fits b) (s : LedgerStep) : (q.step s).Fits (b.step s) := by
  cases s with
  | record on what times elapsed =>
    rw [Roster.step, LedgerBench.step, h.origin?_eq]
    cases hr : b.recorders[on]? with
    | none => exact h
    | some r => exact h.record hr what times elapsed
  | copy on =>
    rw [Roster.step, LedgerBench.step, h.origin?_eq]
    cases hr : b.recorders[on]? with
    | none => exact h
    | some r => exact h.copy hr
  | make request => exact h.make request
  | describe =>
    exact ⟨h.origins, h.known, h.atOrigin, h.distinct, h.told, h.counts, fun g name =>
      (by cases g <;> rfl : g.total b.ledger.describe name = g.total b.ledger name).trans
        (h.total g name)⟩

end Fits

end Roster

/-! ## Counts after any steps -/

namespace LedgerBench

/-- The counts that the recorder at a place shows. -/
def shown (b : LedgerBench) (place : ℕ) : Counts := ((b.counts.map Prod.snd)[place]?).getD {}

/-- The recorders after steps; there were none before. -/
def after (steps : List LedgerStep) : LedgerBench := steps.foldl step { recorders := [] }

lemma shown_eq (b : LedgerBench) (place : ℕ) :
    b.shown place = ((b.recorders[place]?).map b.ledger.countsOf).getD {} := by
  rw [shown, counts, List.map_map, List.getElem?_map]
  rfl

end LedgerBench

/-- What follows from the steps, one after the other. -/
def Roster.of (steps : List LedgerStep) : Roster := steps.foldl step {}

namespace Roster

variable {q : Roster} {b : LedgerBench} {steps : List LedgerStep}

lemma Fits.foldl (h : q.Fits b) (steps : List LedgerStep) :
    (steps.foldl Roster.step q).Fits (steps.foldl LedgerBench.step b) := by
  induction steps generalizing q b with
  | nil => exact h
  | cons s steps ih => exact ih (h.step s)

lemma fits_of (steps : List LedgerStep) : (of steps).Fits (.after steps) := by
  refine Fits.foldl ?_ steps
  refine ⟨rfl, nofun, nofun, List.nodup_nil, nofun, fun r => rfl, fun g name => ?_⟩
  cases g with
  | evictions => exact finsum_eq_zero_of_forall_eq_zero fun target => rfl
  | _ => rfl

/-- A recorder shows what was told to it and to its copies. -/
lemma Fits.shown (h : q.Fits b) (place : ℕ) :
    b.shown place = ((q.origins[place]?).map q.countsAt).getD {} := by
  rw [h.origin?_eq, LedgerBench.shown_eq]
  cases b.recorders[place]? with
  | none => rfl
  | some r => exact h.counts r

/-- A recorder that was made separately shows what was told to it and to its copies. -/
lemma Fits.shown_of_made (h : q.Fits b) {p : ℕ × String} (hp : p ∈ q.made) :
    b.shown p.1 = q.countsAt p.1 := by
  rw [h.shown, h.origin?_eq, h.atOrigin p hp]
  rfl

/-- The count of a name is the sum of what is shown. -/
lemma Fits.total_eq_sum_shown (h : q.Fits b) (g : Dial) (name : String) :
    g.total b.ledger name = ((q.named name).map fun place => g.of (b.shown place)).sum := by
  rw [h.total]
  refine congrArg List.sum (List.map_congr_left fun place hplace => ?_)
  obtain ⟨p, hp, rfl⟩ := List.mem_map.1 hplace
  rw [h.shown_of_made (List.mem_filter.1 hp).1]

end Roster

open Roster in
/-- Recorders are made, copied and told things, in any order and as often as one likes, and any of
them may have the same name.  Counts do not overflow here.

* A recorder shows what was told to the one that it comes from, and to all copies of that.  So it
  shows what its copies show.
* What one is told is not seen by another one that was made separately.
* The hits of a name in the ledger are the hits of the recorders of the name that were made
  separately, and so are the misses; and so are the evictions, if one sums up all targets. -/
theorem LedgerBench.counts_agree (steps : List LedgerStep) :
    (∀ place, (after steps).shown place =
      (((of steps).origins[place]?).map (of steps).countsAt).getD {}) ∧
    (∀ place other, (of steps).origins[place]? = (of steps).origins[other]? →
      (after steps).shown place = (after steps).shown other) ∧
    (∀ place other, (of steps).origins[place]? ≠ (of steps).origins[other]? →
      ∀ what times elapsed, (after (steps ++ [.record place what times elapsed])).shown other =
        (after steps).shown other) ∧
    ∀ name,
      (after steps).ledger.counterOf (.hits name) =
        (((of steps).named name).map fun place => ((after steps).shown place).hits).sum ∧
      (after steps).ledger.counterOf (.misses name) =
        (((of steps).named name).map fun place => ((after steps).shown place).misses).sum ∧
      ∑ᶠ target, (after steps).ledger.evictionsOf name target =
        (((of steps).named name).map fun place => ((after steps).shown place).evictions).sum := by
  have hfits : (of steps).Fits (after steps) := fits_of steps
  refine ⟨hfits.shown, fun place other hsame => ?_, fun place other hne what times elapsed => ?_,
    fun name => ⟨hfits.total_eq_sum_shown .hits name, hfits.total_eq_sum_shown .misses name,
      hfits.total_eq_sum_shown .evictions name⟩⟩
  · rw [hfits.shown, hfits.shown, hsame]
  · have hlast : of (steps ++ [.record place what times elapsed]) =
        (of steps).step (.record place what times elapsed) := List.foldl_concat ..
    rw [(fits_of _).shown, hfits.shown, hlast, Roster.step]
    cases horigin : (of steps).origins[place]? with
    | none => rfl
    | some origin =>
      dsimp only
      cases hother : (of steps).origins[other]? with
      | none => rfl
      | some origin' =>
        rw [Option.map_some, Option.map_some, countsAt_told, if_neg]
        rintro rfl
        exact hne (horigin.trans hother.symm)

end Rehearsal

namespace Demo

open Rehearsal

/-- Two recorders of the same name, and a copy of the first one that is told more than it. -/
def namesakes : List LedgerStep :=
  [.make "app::Query", .copy 0, .make "app::Query", .record 1 .hit 2 .zero, .record 0 .hit 1 .zero,
    .record 2 .hit 5 .zero, .record 1 (.eviction "app::Count") 3 .zero,
    .record 2 (.eviction "app::Other") 1 .zero]

/-- The copy shows what its original shows, and the other recorder has counts of its own; the ledger
has eight hits and four evictions in all. -/
theorem namesakes_counted :
    (LedgerBench.after namesakes).shown 0 = ⟨3, 0, 3⟩ ∧
      (LedgerBench.after namesakes).shown 1 = (LedgerBench.after namesakes).shown 0 ∧
      (LedgerBench.after namesakes).shown 2 = ⟨5, 0, 1⟩ ∧
      (LedgerBench.after namesakes).ledger.counterOf (.hits "app::Query") = 8 ∧
      ∑ᶠ target, (LedgerBench.after namesakes).ledger.evictionsOf "app::Query" target = 4 := by
  obtain ⟨-, hcopies, -, hledger⟩ := LedgerBench.counts_agree namesakes
  obtain ⟨hhits, -, hevictions⟩ := hledger "app::Query"
  refine ⟨by decide, hcopies 1 0 (by decide), by decide, hhits.trans ?_, hevictions.trans ?_⟩
  · decide
  · decide

end Demo

end RequestCache
