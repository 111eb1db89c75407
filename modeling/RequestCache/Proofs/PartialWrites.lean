/-
# Writes some of which fail

An entry is written under all of its keys at once, and each write takes its own time.  Some of
them may fail: the store refuses the key, or it refuses the lifetime, and then all of them.  The
writes do not wait for one another, and none is made undone.  So what is left under a key depends
on the write of that key alone, and on whether it was made (`Falters.leaves`).

The outcomes come in the order in which the writes are made, and they are put back into the order
of the keys before they are reported (`Timeline.inOrder_eq`).  Any order in which the keys may be
written comes about if the writes take the right times (`Entry.exists_delays`).

Cancelled at an instant, an operation leaves what was written until then
(`Falters.storing_outcome`).
-/
import RequestCache.Proofs.Cancellation
import RequestCache.Proofs.Overlap
import RequestCache.Rehearsal.World

namespace RequestCache

variable {W : Interface} {α β σ : Type} {answer : (what : Moment W) → σ → what.Answer × σ}

/-! ## Why a write fails -/

/-- The fault of every write with a lifetime that is refused. -/
def Lifetime.fault? (l : Lifetime) : Option StoreFault :=
  match l.check with
  | .error fault => some fault
  | .ok () => none

/-- The fault of the write of a key: the store refuses the key, or else the lifetime. -/
def writeFault? (refuses : String → Option StoreFault) (l : Lifetime) (x : String) :
    Option StoreFault := (refuses x).or l.fault?

/-- What a change is answered with if it has a fault, or none. -/
def ChangeOutcome.ofFault? : Option StoreFault → ChangeOutcome
  | some fault => .error fault
  | none => .ok ()

namespace Entry

/-- The faults of some keys, in the order of the keys. -/
def keyFaults (fault? : String → Option StoreFault) (xs : List String) : List KeyFault :=
  xs.filterMap fun x => (fault? x).map (KeyFault.mk x)

variable {fault? : String → Option StoreFault} {xs : List String}

lemma keyFaults_eq_nil_iff : keyFaults fault? xs = [] ↔ ∀ x ∈ xs, fault? x = none := by
  simp [keyFaults, List.filterMap_eq_nil_iff]

/-- The keys that are reported are those that have a fault. -/
lemma map_key_keyFaults :
    (keyFaults fault? xs).map KeyFault.key = xs.filter fun x => (fault? x).isSome := by
  rw [keyFaults, List.map_filterMap]
  induction xs with
  | nil => rfl
  | cons x xs ih =>
    rw [List.filterMap_cons, ih]
    cases hx : fault? x <;> simp [hx]

lemma filterMap_zip_eq {g : String × ChangeOutcome → Option KeyFault}
    (herror : ∀ x source, g (x, .error source) = some ⟨x, source⟩) (hok : ∀ x, g (x, .ok ()) = none)
    (fault? : String → Option StoreFault) (xs : List String) :
    (xs.zip (xs.map fun x => ChangeOutcome.ofFault? (fault? x))).filterMap g =
      keyFaults fault? xs := by
  induction xs with
  | nil => rfl
  | cons x xs ih =>
    rw [List.map_cons, List.zip_cons_cons, keyFaults, List.filterMap_cons, List.filterMap_cons, ih]
    cases fault? x with
    | none => simp [ChangeOutcome.ofFault?, hok, keyFaults]
    | some source => simp [ChangeOutcome.ofFault?, herror, keyFaults]

/-- What an operation on several keys ends with, given their faults. -/
def report (operation : String) (fault? : String → Option StoreFault) (xs : List String) :
    Except CacheFault Unit :=
  if (keyFaults fault? xs).isEmpty then .ok ()
  else .error (.someKeys operation xs.length (keyFaults fault? xs))

lemma report_of_none (operation : String) (h : ∀ x ∈ xs, fault? x = none) :
    report operation fault? xs = .ok () :=
  if_pos (List.isEmpty_iff.2 (keyFaults_eq_nil_iff.2 h))

lemma report_of_some (operation : String) (h : ∃ x ∈ xs, fault? x ≠ none) :
    report operation fault? xs =
      .error (.someKeys operation xs.length (keyFaults fault? xs)) := by
  refine if_neg fun hempty => ?_
  obtain ⟨x, hx, hfault⟩ := h
  exact hfault (keyFaults_eq_nil_iff.1 (List.isEmpty_iff.1 hempty) x hx)

/-- The outcomes of several keys are reported by their faults. -/
lemma collect_eq (operation : String) (fault? : String → Option StoreFault) (xs : List String) :
    collect operation xs (xs.map fun x => ChangeOutcome.ofFault? (fault? x)) =
      report operation fault? xs := by
  rw [collect, filterMap_zip_eq (fun _ _ => rfl) (fun _ => rfl), List.length_map]
  rfl

end Entry

/-! ## Changes of which each takes its own time -/

/-- The change that is made at a moment, or fails. -/
def Moment.change? : Moment W → Option Change
  | .change c => some c
  | _ => none

namespace Timeline

variable {T : Timeline W α} {h : List (ℕ × Moment W)} {changes : List Change} {s : σ} {now : ℕ}

/-- What happens along a time line comes in the order of its instants. -/
lemma InOrder.pairwise_history (hT : T.InOrder now)
    (answer : (what : Moment W) → σ → what.Answer × σ) (s : σ) :
    (T.history answer s).Pairwise fun m n => m.1 ≤ n.1 := by
  induction T generalizing now s with
  | ended t a => exact .nil
  | moment t what next ih =>
    refine List.pairwise_cons.2 ⟨fun n hn => ?_, ih _ (hT.2 _) _⟩
    exact (((hT.2 _).mem_history answer _).2 n hn).1

/-- What has happened until an instant. -/
lemma mem_takeWhile_iff (hh : h.Pairwise fun m n => m.1 ≤ n.1) {t : ℕ} {m : ℕ × Moment W} :
    m ∈ h.takeWhile (·.1 ≤ t) ↔ m ∈ h ∧ m.1 ≤ t := by
  induction h with
  | nil => simp
  | cons n h ih =>
    obtain ⟨hfirst, hh⟩ := List.pairwise_cons.1 hh
    by_cases hn : n.1 ≤ t
    · rw [List.takeWhile_cons_of_pos (by simpa using hn), List.mem_cons, List.mem_cons, ih hh]
      constructor
      · rintro (rfl | hm)
        · exact ⟨.inl rfl, hn⟩
        · exact ⟨.inr hm.1, hm.2⟩
      · rintro ⟨rfl | hm, hle⟩
        · exact .inl rfl
        · exact .inr ⟨hm, hle⟩
    · -- nothing that comes later happens before
      rw [List.takeWhile_cons_of_neg (by simpa using hn)]
      refine iff_of_false List.not_mem_nil ?_
      rintro ⟨hm, hle⟩
      rcases List.mem_cons.1 hm with rfl | hm
      · exact hn hle
      · exact hn (Nat.le_trans (hfirst m hm) hle)

/-- What no moment changes is the same after all moments. -/
lemma replay_of_steady {f : σ → β} (hf : ∀ what s, f (answer what s).2 = f s)
    (h : List (ℕ × Moment W)) (s : σ) : f (replay answer h s) = f s := by
  induction h generalizing s with
  | nil => rfl
  | cons m h ih => exact (ih _).trans (hf m.2 s)

/-- What every moment keeps true is true after all moments. -/
lemma replay_of_fits {fits : σ → Prop} (hfits : ∀ what s, fits s → fits (answer what s).2)
    (hs : fits s) (h : List (ℕ × Moment W)) : fits (replay answer h s) := by
  induction h generalizing s with
  | nil => exact hs
  | cons m h ih => exact ih (hfits m.2 s hs)

/-- What happens when changes begin. -/
def beginnings (now : ℕ) (changes : List Change) : List (ℕ × Moment W) :=
  changes.map fun c => (now, .beginChange c)

/-- What happens when changes are made. -/
def landings (fs : List Flight) : List (ℕ × Moment W) :=
  fs.map fun f => (f.due, .change f.change)

section

variable {g : ℕ × Moment W → Option β}

lemma filterMap_beginnings (f : Change → β) (hg : ∀ c, g (now, .beginChange c) = some (f c)) :
    (beginnings now changes).filterMap g = changes.map f := by
  rw [beginnings, List.filterMap_map, ← List.filterMap_eq_map]
  exact List.filterMap_congr fun c _ => hg c

lemma filterMap_beginnings_eq_nil (hg : ∀ c, g (now, .beginChange c) = none) :
    (beginnings now changes).filterMap g = [] := by
  refine List.filterMap_eq_nil_iff.2 fun m hm => ?_
  obtain ⟨c, -, rfl⟩ := List.mem_map.1 hm
  exact hg c

lemma filterMap_landings {fs : List Flight} (f : Flight → β)
    (hg : ∀ f', g (f'.due, .change f'.change) = some (f f')) :
    (landings fs).filterMap g = fs.map f := by
  rw [landings, List.filterMap_map, ← List.filterMap_eq_map]
  exact List.filterMap_congr fun f' _ => hg f'

lemma filterMap_landings_eq_nil {fs : List Flight} (hg : ∀ t c, g (t, .change c) = none) :
    (landings fs).filterMap g = [] := by
  refine List.filterMap_eq_nil_iff.2 fun m hm => ?_
  obtain ⟨f, -, rfl⟩ := List.mem_map.1 hm
  exact hg _ _

end

/-- The instant at which the last of some changes is made, if they begin at `now`. -/
def lastDue (now : ℕ) (fs : List Flight) : ℕ := fs.foldl (fun _ f => f.due) now

lemma history_begin :
    (begin now changes T).history answer s =
      beginnings now changes ++ T.history answer (replay answer (beginnings now changes) s) := by
  induction changes generalizing s with
  | nil => rfl
  | cons c changes ih => exact congrArg ((now, .beginChange c) :: ·) ih

lemma run_begin :
    (begin now changes T).run answer s =
      T.run answer (replay answer (beginnings now changes) s) := by
  induction changes generalizing s with
  | nil => rfl
  | cons c changes ih => exact ih

lemma lt_lastDue_iff {fs : List Flight} (hsorted : fs.Pairwise fun f g => f.due ≤ g.due)
    {t : ℕ} (hnow : now ≤ t) : t < lastDue now fs ↔ ∃ f ∈ fs, t < f.due := by
  induction fs generalizing now with
  | nil => simpa [lastDue] using hnow
  | cons f fs ih =>
    obtain ⟨hfirst, hsorted⟩ := List.pairwise_cons.1 hsorted
    change t < lastDue f.due fs ↔ _
    rcases Nat.lt_or_ge t f.due with hlate | hdue
    · refine iff_of_true ?_ ⟨f, List.mem_cons_self, hlate⟩
      -- what is made last is made no earlier than this one
      rcases fs.eq_nil_or_concat' with rfl | ⟨gs, g, rfl⟩
      · exact hlate
      · rw [lastDue, List.foldl_concat]
        exact Nat.lt_of_lt_of_le hlate (hfirst g (by simp))
    · rw [ih hsorted hdue]
      simp [Nat.not_lt.2 hdue]

/-- The outcomes of changes come back into the order of the changes, in whatever order the changes
were made. -/
theorem inOrder_eq (changes : List Change) (outcome : Change → ChangeOutcome)
    {landed : List (ℕ × ChangeOutcome)}
    (hlanded : landed.Perm (changes.zipIdx.map fun c => (c.2, outcome c.1))) :
    inOrder landed = changes.map outcome := by
  have hplaces :
      (changes.zipIdx.map fun c => (c.2, outcome c.1)).Pairwise fun a b => a.1 < b.1 := by
    have hrange : (changes.zipIdx.map Prod.snd).Pairwise (· < ·) := by
      rw [List.zipIdx_map_snd]
      exact List.pairwise_lt_range'
    exact List.pairwise_map.2 (List.pairwise_map.1 hrange)
  have hsorted : (landed.mergeSort fun a b => a.1 ≤ b.1).Pairwise fun a b => a.1 ≤ b.1 := by
    have hmerge := @List.pairwise_mergeSort (ℕ × ChangeOutcome) (fun a b => a.1 ≤ b.1)
      (by simpa using fun a b c : ℕ => Nat.le_trans) (by simpa using Nat.le_total) landed
    simpa using hmerge
  have hperm := (List.mergeSort_perm landed fun a b => a.1 ≤ b.1).trans hlanded
  have heq : (landed.mergeSort fun a b => a.1 ≤ b.1) =
      changes.zipIdx.map fun c => (c.2, outcome c.1) := by
    refine hperm.eq_of_pairwise ?_ hsorted (hplaces.imp Nat.le_of_lt)
    -- no two changes have the same place
    intro a b ha hb hab hba
    obtain ⟨⟨c, i⟩, hc, rfl⟩ := List.mem_map.1 (hperm.mem_iff.1 ha)
    obtain ⟨⟨c', j⟩, hc', rfl⟩ := List.mem_map.1 hb
    obtain rfl : i = j := Nat.le_antisymm hab hba
    rw [List.mem_zipIdx_iff_getElem?] at hc hc'
    cases hc.symm.trans hc'
    rfl
  rw [inOrder, heq, List.map_map]
  exact List.ext_getElem (by simp) fun i _ _ => by simp

lemma flights_perm (d : Delays W) (now : ℕ) (changes : List Change) :
    (flights d now changes).Perm
      (changes.zipIdx.map fun c => ⟨c.2, now + d.change c.1, c.1⟩) := List.mergeSort_perm _ _

lemma mem_flights {d : Delays W} {f : Flight} (hf : f ∈ flights d now changes) :
    f.change ∈ changes ∧ f.due = now + d.change f.change := by
  obtain ⟨⟨c, i⟩, hc, rfl⟩ := List.mem_map.1 ((flights_perm d now changes).mem_iff.1 hf)
  exact ⟨List.fst_mem_of_mem_zipIdx hc, rfl⟩

lemma exists_mem_flights (d : Delays W) (now : ℕ) {c : Change} (hc : c ∈ changes) :
    ∃ f ∈ flights d now changes, f.change = c := by
  obtain ⟨i, hi⟩ := List.mem_iff_getElem?.1 hc
  exact ⟨⟨i, now + d.change c, c⟩, (flights_perm d now changes).mem_iff.2
    (List.mem_map.2 ⟨(c, i), List.mem_zipIdx_iff_getElem?.2 hi, rfl⟩), rfl⟩

lemma map_change_flights_perm (d : Delays W) (now : ℕ) (changes : List Change) :
    ((flights d now changes).map Flight.change).Perm changes := by
  have hperm := (flights_perm d now changes).map Flight.change
  have hfst : changes.zipIdx.map (Flight.change ∘ fun c => ⟨c.2, now + d.change c.1, c.1⟩) =
      changes := List.zipIdx_map_fst 0 changes
  rwa [List.map_map, hfst] at hperm

/-- Changes whose outcomes are known beforehand, made without cancellation. -/
lemma run_land_live (resume : Token → ℕ → Option (List ChangeOutcome) → Timeline W α)
    (g : Option (List ChangeOutcome) → α) (outcome : Change → ChangeOutcome) (fits : σ → Prop)
    (now : ℕ) (hresume : ∀ now outcomes, resume .live now outcomes = ended now (g outcomes))
    (hfits : ∀ what s, fits s → fits (answer what s).2) {fs : List Flight}
    (houtcome : ∀ f ∈ fs, ∀ s, fits s → (answer (.change f.change) s).1 = outcome f.change)
    (hs : fits s) (landed : List (ℕ × ChangeOutcome)) :
    (land .live resume now landed fs).run answer s =
        ((lastDue now fs, g (some (inOrder
          ((fs.map fun f => (f.place, outcome f.change)).reverse ++ landed)))),
        replay answer (landings fs) s) ∧
      (land .live resume now landed fs).history answer s = landings fs := by
  induction fs generalizing now landed s with
  | nil =>
    rw [land, hresume]
    exact ⟨rfl, rfl⟩
  | cons f fs ih =>
    have hfirst := houtcome f List.mem_cons_self s hs
    have hrest := ih f.due (fun f' hf' => houtcome f' (List.mem_cons_of_mem _ hf'))
      (hfits (.change f.change) s hs) ((f.place, (answer (.change f.change) s).1) :: landed)
    constructor
    · refine hrest.1.trans ?_
      rw [hfirst, List.map_cons, List.reverse_cons, List.append_assoc]
      rfl
    · exact congrArg ((f.due, Moment.change f.change) :: ·) hrest.2

end Timeline

/-! ## Stores that falter -/

/-- A store in memory that refuses the writes of some keys, each for a reason of its own, and does
nothing then.  It goes on refusing them.  Its clock may show anything at any time. -/
structure Falters (answer : (what : Moment W) → σ → what.Answer × σ) (memory : σ → Memory)
    (clock : σ → Instant) (refuses : σ → String → Option StoreFault) : Prop where
  begun : ∀ c s, memory (answer (.beginChange c) s).2 = memory s
  refused : ∀ key text l fault s, refuses s key = some fault →
    (answer (.change (.put key text l)) s).1 = .error fault ∧
    memory (answer (.change (.put key text l)) s).2 = memory s
  made : ∀ key text l s, refuses s key = none →
    (answer (.change (.put key text l)) s).1 = ((memory s).write (clock s) key text l).1 ∧
    memory (answer (.change (.put key text l)) s).2 = ((memory s).write (clock s) key text l).2
  steady : ∀ what s, refuses (answer what s).2 = refuses s

/-- Nothing happens but that one text is written under keys. -/
def OnlyWrites (text : String) (l : Lifetime) (h : List (ℕ × Moment W)) : Prop :=
  ∀ m ∈ h, (∃ c, m.2 = .beginChange c) ∨ ∃ x, m.2 = .change (.put x text l)

namespace Falters

variable {memory : σ → Memory} {clock : σ → Instant} {refuses : σ → String → Option StoreFault}
  {s : σ} {text x : String} {l : Lifetime} {h : List (ℕ × Moment W)}

/-- A write that has no fault leaves the fresh entry, and one that has leaves what was there. -/
lemma write (hstore : Falters answer memory clock refuses) (s : σ) (x text : String)
    (l : Lifetime) :
    (answer (.change (.put x text l)) s).1 =
      ChangeOutcome.ofFault? (writeFault? (refuses s) l x) ∧
    ∀ y, (memory (answer (.change (.put x text l)) s).2).get? y =
      if y = x ∧ writeFault? (refuses s) l x = none then Held.fresh? (clock s) text l
      else (memory s).get? y := by
  cases hx : refuses s x with
  | some fault =>
    obtain ⟨houtcome, hmemory⟩ := hstore.refused x text l fault s hx
    rw [houtcome, hmemory, writeFault?, hx]
    exact ⟨rfl, fun y => (if_neg fun hy => Option.some_ne_none fault hy.2).symm⟩
  | none =>
    obtain ⟨houtcome, hmemory⟩ := hstore.made x text l s hx
    rw [houtcome, hmemory, writeFault?, hx, Option.none_or, Lifetime.fault?]
    cases hl : l.check with
    | error fault =>
      rw [Memory.write, hl]
      exact ⟨rfl, fun y => (if_neg fun hy => Option.some_ne_none fault hy.2).symm⟩
    | ok u =>
      refine ⟨Memory.write_of_check hl x text, fun y => ?_⟩
      rw [Memory.get?_write hl]
      simp

lemma refuses_replay (hstore : Falters answer memory clock refuses) (h : List (ℕ × Moment W))
    (s : σ) : refuses (Timeline.replay answer h s) = refuses s :=
  Timeline.replay_of_steady hstore.steady h s

/-- A key that is not written keeps what it holds. -/
lemma get?_replay_of_unwritten (hstore : Falters answer memory clock refuses)
    (hh : OnlyWrites text l h)
    (hx : writeFault? (refuses s) l x = none → ∀ t, (t, .change (.put x text l)) ∉ h) :
    (memory (Timeline.replay answer h s)).get? x = (memory s).get? x := by
  induction h generalizing s with
  | nil => rfl
  | cons m h ih =>
    obtain ⟨t, what⟩ := m
    have hrest : (memory (Timeline.replay answer h (answer what s).2)).get? x =
        (memory (answer what s).2).get? x := by
      refine ih (fun m hm => hh m (List.mem_cons_of_mem _ hm)) ?_
      rw [hstore.steady what s]
      exact fun hok t' hmem => hx hok t' (List.mem_cons_of_mem _ hmem)
    refine hrest.trans ?_
    obtain ⟨c, rfl⟩ | ⟨y, rfl⟩ := hh _ List.mem_cons_self
    · rw [hstore.begun c s]
    · rw [(hstore.write s y text l).2, if_neg]
      rintro ⟨rfl, hok⟩
      exact hx hok t List.mem_cons_self

/-- A key that is written once and without a fault holds the fresh entry. -/
lemma exists_get?_replay_eq (hstore : Falters answer memory clock refuses)
    (hh : OnlyWrites text l h) (honce : (h.filterMap fun m => m.2.change?).Nodup) {t : ℕ}
    (hx : writeFault? (refuses s) l x = none) (hmem : (t, .change (.put x text l)) ∈ h) :
    ∃ before after, h = before ++ (t, .change (.put x text l)) :: after ∧
      (memory (Timeline.replay answer h s)).get? x =
        Held.fresh? (clock (Timeline.replay answer before s)) text l := by
  obtain ⟨before, after, rfl⟩ := List.append_of_mem hmem
  refine ⟨before, after, rfl, ?_⟩
  have hafter : OnlyWrites text l after := fun m hm =>
    hh m (List.mem_append_right _ (List.mem_cons_of_mem _ hm))
  have hlast : ∀ t', (t', Moment.change (.put x text l)) ∉ after := by
    intro t' hmem'
    rw [List.filterMap_append, List.filterMap_cons] at honce
    have hnot := (List.nodup_cons.1 (List.nodup_append.1 honce).2.1).1
    exact hnot (List.mem_filterMap.2 ⟨_, hmem', rfl⟩)
  have hreplay : Timeline.replay answer (before ++ (t, .change (.put x text l)) :: after) s =
      Timeline.replay answer after
        (answer (.change (.put x text l)) (Timeline.replay answer before s)).2 :=
    List.foldl_append
  rw [hreplay, hstore.get?_replay_of_unwritten hafter fun _ => hlast, (hstore.write _ _ _ _).2,
    if_pos ⟨rfl, by rw [hstore.refuses_replay]; exact hx⟩]

end Falters

/-- Along a time line a text is written under some keys, under each at an instant of its own, and
the other keys keep what they hold. -/
def Leaves (answer : (what : Moment W) → σ → what.Answer × σ) (memory : σ → Memory)
    (clock : σ → Instant) (T : Timeline W α) (s : σ) (text : String) (l : Lifetime)
    (due : String → ℕ) (made : String → Prop) : Prop :=
  ∀ x, (made x → ∃ before after,
      T.history answer s = before ++ (due x, .change (.put x text l)) :: after ∧
      (memory (T.run answer s).2).get? x =
        Held.fresh? (clock (Timeline.replay answer before s)) text l) ∧
    (¬ made x → (memory (T.run answer s).2).get? x = (memory s).get? x)

/-- What is left under a key depends on the write of that key alone, and on whether it was made. -/
theorem Falters.leaves {memory : σ → Memory} {clock : σ → Instant}
    {refuses : σ → String → Option StoreFault} (hstore : Falters answer memory clock refuses)
    (due : String → ℕ) {T : Timeline W α} {s : σ} {text : String} {l : Lifetime}
    (hwrites : OnlyWrites text l (T.history answer s))
    (honce : ((T.history answer s).filterMap fun m => m.2.change?).Nodup)
    (hdue : ∀ x t, (t, .change (.put x text l)) ∈ T.history answer s → t = due x) :
    Leaves answer memory clock T s text l due fun x =>
      writeFault? (refuses s) l x = none ∧
        (due x, .change (.put x text l)) ∈ T.history answer s := by
  intro x
  rw [Timeline.run_snd]
  refine ⟨fun ⟨hok, hmem⟩ => hstore.exists_get?_replay_eq hwrites honce hok hmem, fun hnot => ?_⟩
  refine hstore.get?_replay_of_unwritten hwrites fun hok t hmem => hnot ⟨hok, ?_⟩
  rwa [← hdue x t hmem]

/-! ## The writes of an entry -/

namespace Entry

open Timeline

variable {c : Json.Codec α} {value : α} {keys : List Key} {l : Lifetime} {text x : String}
  {xs : List String} {d : Delays W} {now t : ℕ} {s : σ}

/-- A value is written under keys, beginning at an instant. -/
def storing (d : Delays W) (now : ℕ) (c : Json.Codec α) (value : α) (keys : List Key)
    (l : Lifetime) (token : Token) : Timeline W (Except CacheFault Unit) :=
  play d token now (store c value keys l)

/-- The instant at which a key is written. -/
def due (d : Delays W) (now : ℕ) (text : String) (l : Lifetime) (x : String) : ℕ :=
  now + d.change (.put x text l)

/-- The writes of a text under some keys. -/
def puts (text : String) (l : Lifetime) (xs : List String) : List Change :=
  xs.map fun x => .put x text l

/-- What happens when nobody cancels. -/
def whole (d : Delays W) (now : ℕ) (cs : List Change) : List (ℕ × Moment W) :=
  beginnings now cs ++ landings (flights d now cs)

lemma play_changeAll_cancelledAt (hnow : now ≤ t) (operation : String) (change : String → Change)
    (xs : List String) :
    play d (.cancelledAt t) now (changeAll operation change xs) =
      (play d .live now (changeAll operation change xs)).cutAt t (.error .cancelled) := by
  rw [changeAll_eq]
  change begin now _ _ = (begin now _ _).cutAt t _
  rw [begin_cutAt hnow]
  refine congrArg (begin now _) (land_cancelledAt ?_ rfl hnow [] _)
  exact fun now outcomes h => (cutAt_ended h _).symm

/-- Unless it is cancelled beforehand, an entry is written key by key, even if there is no key. -/
lemma storing_eq (htext : Bundle.encode c ⟨value, Key.texts keys⟩ = .ok text) {token : Token}
    (htoken : token.isCancelled = false) :
    storing d now c value keys l token =
      play d token now (changeAll "set" (.put · text l) (Key.texts keys)) := by
  by_cases hkeys : keys = []
  · subst hkeys
    have hnothing : flights d now [] = [] := by simp [flights]
    have hall : play d token now (changeAll "set" (.put · text l) (Key.texts [])) =
        begin now [] (land token (fun token now outcomes =>
          play d token now (conclude "set" [] outcomes)) now [] (flights d now [])) := by
      rw [changeAll_eq]
      exact if_neg (by rw [htoken]; exact Bool.false_ne_true)
    rw [hall, hnothing]
    rfl
  · rw [storing, store_of_encode hkeys htext]

lemma storing_cancelledAt (htext : Bundle.encode c ⟨value, Key.texts keys⟩ = .ok text)
    (hnow : now ≤ t) :
    storing d now c value keys l (.cancelledAt t) =
      (storing d now c value keys l .live).cutAt t (.error .cancelled) := by
  rw [storing_eq htext rfl, storing_eq htext rfl, play_changeAll_cancelledAt hnow]

/-- Cancelled beforehand, nothing of it happens. -/
lemma storing_cancelled (hkeys : keys ≠ [])
    (htext : Bundle.encode c ⟨value, Key.texts keys⟩ = .ok text) :
    storing d now c value keys l .cancelled = .ended now (.error .cancelled) := by
  rw [storing, store_of_encode hkeys htext]
  rfl

lemma onlyWrites_whole (d : Delays W) (now : ℕ) (text : String) (l : Lifetime)
    (xs : List String) : OnlyWrites text l (whole d now (puts text l xs)) := by
  intro m hm
  rcases List.mem_append.1 hm with hm | hm
  · obtain ⟨c, -, rfl⟩ := List.mem_map.1 hm
    exact .inl ⟨c, rfl⟩
  · obtain ⟨f, hf, rfl⟩ := List.mem_map.1 hm
    obtain ⟨x, -, hx⟩ := List.mem_map.1 (mem_flights hf).1
    exact .inr ⟨x, by rw [← hx]⟩

lemma filterMap_change?_whole (d : Delays W) (now : ℕ) (cs : List Change) :
    (whole d now cs).filterMap (fun m => m.2.change?) =
      (flights d now cs).map Timeline.Flight.change := by
  rw [whole, List.filterMap_append, filterMap_beginnings_eq_nil fun _ => rfl, List.nil_append]
  exact filterMap_landings Timeline.Flight.change fun _ => rfl

lemma nodup_change?_whole (d : Delays W) (now : ℕ) (text : String) (l : Lifetime)
    (hxs : xs.Nodup) : ((whole d now (puts text l xs)).filterMap fun m => m.2.change?).Nodup := by
  rw [filterMap_change?_whole, (map_change_flights_perm d now _).nodup_iff]
  refine hxs.map fun x y hxy => ?_
  cases hxy
  rfl

/-- Each key is written at an instant of its own. -/
lemma mem_whole_iff :
    (t, .change (.put x text l)) ∈ whole d now (puts text l xs) ↔
      x ∈ xs ∧ t = due d now text l x := by
  constructor
  · intro hm
    rcases List.mem_append.1 hm with hm | hm
    · obtain ⟨c, -, heq⟩ := List.mem_map.1 hm
      cases heq
    · obtain ⟨f, hf, heq⟩ := List.mem_map.1 hm
      obtain ⟨hchange, hdue⟩ := mem_flights hf
      obtain ⟨rfl, hput⟩ : f.due = t ∧ f.change = .put x text l := by simpa using heq
      rw [hput] at hchange hdue
      obtain ⟨y, hy, hyx⟩ := List.mem_map.1 hchange
      cases hyx
      exact ⟨hy, hdue⟩
  · rintro ⟨hx, rfl⟩
    obtain ⟨f, hf, hchange⟩ := exists_mem_flights d now
      (List.mem_map_of_mem (f := fun x => Change.put x text l) hx)
    refine List.mem_append_right _ (List.mem_map.2 ⟨f, hf, ?_⟩)
    rw [(mem_flights hf).2, hchange]
    rfl

/-- An instant is before the end exactly if a key is still to be written then. -/
lemma lt_lastDue_puts_iff (hnow : now ≤ t) :
    t < lastDue now (flights d now (puts text l xs)) ↔ ∃ x ∈ xs, t < due d now text l x := by
  rw [lt_lastDue_iff (flights_inOrder d now _).1 hnow]
  constructor
  · rintro ⟨f, hf, hlate⟩
    obtain ⟨hchange, hdue⟩ := mem_flights hf
    obtain ⟨x, hx, hput⟩ := List.mem_map.1 hchange
    rw [hdue, ← hput] at hlate
    exact ⟨x, hx, hlate⟩
  · rintro ⟨x, hx, hlate⟩
    obtain ⟨f, hf, hchange⟩ := exists_mem_flights d now
      (List.mem_map_of_mem (f := fun x => Change.put x text l) hx)
    refine ⟨f, hf, ?_⟩
    rw [(mem_flights hf).2, hchange]
    exact hlate

/-- Changes of several keys whose faults are known beforehand, made without cancellation. -/
lemma run_changeAll_live (operation : String) (change : String → Change)
    (fault? : String → Option StoreFault) (fits : σ → Prop)
    (hfits : ∀ what s, fits s → fits (answer what s).2) (hkey : ∀ x, (change x).key = x)
    (houtcome : ∀ x ∈ xs, ∀ s, fits s →
      (answer (.change (change x)) s).1 = ChangeOutcome.ofFault? (fault? x))
    (hs : fits s) (d : Delays W) (now : ℕ) :
    ((play d .live now (changeAll operation change xs)).run answer s).1 =
      (lastDue now (flights d now (xs.map change)), report operation fault? xs) ∧
    (play d .live now (changeAll operation change xs)).history answer s =
      whole d now (xs.map change) := by
  have houtcomes : ∀ f ∈ flights d now (xs.map change), ∀ s, fits s →
      (answer (.change f.change) s).1 = ChangeOutcome.ofFault? (fault? f.change.key) := by
    intro f hf s' hs'
    obtain ⟨x, hx, hchange⟩ := List.mem_map.1 (mem_flights hf).1
    rw [← hchange, houtcome x hx s' hs', hkey]
  have hline : play d .live now (changeAll operation change xs) =
      begin now (xs.map change) (land .live (fun token now outcomes =>
        play d token now (conclude operation xs outcomes)) now []
          (flights d now (xs.map change))) := by
    rw [changeAll_eq]
    rfl
  have hland := run_land_live
    (fun token now outcomes => play d token now (conclude operation xs outcomes))
    (fun outcomes => outcomes.elim (.error .cancelled) (collect operation xs))
    (fun c => ChangeOutcome.ofFault? (fault? c.key)) fits now
    (by rintro now (_ | outcomes) <;> rfl) hfits houtcomes
    (replay_of_fits hfits hs (beginnings now (xs.map change))) []
  have hlanded : inOrder (((flights d now (xs.map change)).map fun f =>
      (f.place, ChangeOutcome.ofFault? (fault? f.change.key))).reverse ++ []) =
      xs.map fun x => ChangeOutcome.ofFault? (fault? x) := by
    rw [List.append_nil, inOrder_eq (xs.map change) fun c =>
      ChangeOutcome.ofFault? (fault? c.key), List.map_map]
    · exact List.map_congr_left fun x _ => by rw [Function.comp_apply, hkey]
    · refine (List.reverse_perm _).trans ?_
      have hperm := (flights_perm d now (xs.map change)).map fun f =>
        (f.place, ChangeOutcome.ofFault? (fault? f.change.key))
      rwa [List.map_map] at hperm
  rw [hline, run_begin, history_begin, hland.1, hland.2, hlanded]
  exact ⟨congrArg (Prod.mk _) (collect_eq operation _ _), rfl⟩

/-- Keys can be written in any order, if the writes take the right times. -/
theorem exists_delays (now : ℕ) (text : String) (l : Lifetime) {order : List String}
    (horder : order.Perm xs) (hxs : xs.Nodup) :
    ∃ d : Delays W, (whole d now (puts text l xs)).filterMap (fun m => m.2.change?) =
      puts text l order := by
  -- each write takes as long as its place says
  let d : Delays W := ⟨fun _ => 0, fun c => order.idxOf c.key, fun _ => 0⟩
  have hnodup : order.Nodup := horder.nodup_iff.2 hxs
  have hflights : ((flights d now (puts text l xs)).map Timeline.Flight.change).Pairwise
      fun c c' => order.idxOf c.key ≤ order.idxOf c'.key := by
    refine List.pairwise_map.2 ((flights_inOrder d now _).1.imp_of_mem fun hf hg hle => ?_)
    rw [(mem_flights hf).2, (mem_flights hg).2] at hle
    exact Nat.le_of_add_le_add_left hle
  have hplaces : (puts text l order).Pairwise
      fun c c' => order.idxOf c.key ≤ order.idxOf c'.key := by
    refine List.pairwise_map.2 (List.pairwise_iff_getElem.2 fun i j hi hj hij => ?_)
    change order.idxOf order[i] ≤ order.idxOf order[j]
    rw [hnodup.idxOf_getElem i hi, hnodup.idxOf_getElem j hj]
    exact Nat.le_of_lt hij
  have hperm := (map_change_flights_perm d now (puts text l xs)).trans (horder.map _).symm
  refine ⟨d, (filterMap_change?_whole d now _).trans
    (hperm.eq_of_pairwise ?_ hflights hplaces)⟩
  intro c c' hc hc' hle hle'
  obtain ⟨x, hx, rfl⟩ := List.mem_map.1 (hperm.mem_iff.1 hc)
  obtain ⟨y, -, rfl⟩ := List.mem_map.1 hc'
  obtain rfl : x = y := (List.idxOf_inj hx).1 (Nat.le_antisymm hle hle')
  rfl

end Entry

namespace Falters

open Timeline Entry

variable {memory : σ → Memory} {clock : σ → Instant} {refuses : σ → String → Option StoreFault}
  {c : Json.Codec α} {value : α} {keys : List Key} {l : Lifetime} {text : String}

/-- An entry is stored, and nobody cancels. -/
lemma run_storing_live (hstore : Falters answer memory clock refuses)
    (htext : Bundle.encode c ⟨value, Key.texts keys⟩ = .ok text) (d : Delays W) (now : ℕ)
    (s : σ) :
    ((storing d now c value keys l .live).run answer s).1 =
      (lastDue now (flights d now (puts text l (Key.texts keys))),
        report "set" (writeFault? (refuses s) l) (Key.texts keys)) ∧
    (storing d now c value keys l .live).history answer s =
      whole d now (puts text l (Key.texts keys)) := by
  rw [storing_eq htext rfl]
  refine run_changeAll_live "set" _ _ (fun s' => refuses s' = refuses s)
    (fun what s' hs' => (hstore.steady what s').trans hs') (fun _ => rfl) ?_ rfl d now
  intro x _ s' hs'
  rw [(hstore.write s' x text l).1, hs']

/-- What is left of an entry, given what has happened of its writes. -/
lemma leaves_storing (hstore : Falters answer memory clock refuses)
    (written : String → Prop) {T : Timeline W (Except CacheFault Unit)} {d : Delays W} {now : ℕ}
    {s : σ} (hsub : (T.history answer s).Sublist (whole d now (puts text l (Key.texts keys))))
    (hwritten : ∀ x, (due d now text l x, .change (.put x text l)) ∈ T.history answer s ↔
      x ∈ Key.texts keys ∧ written x) :
    Leaves answer memory clock T s text l (due d now text l) fun x =>
      x ∈ Key.texts keys ∧ writeFault? (refuses s) l x = none ∧ written x := by
  have hleaves := hstore.leaves (due d now text l)
    (fun m hm => onlyWrites_whole d now text l (Key.texts keys) m (hsub.subset hm))
    ((nodup_change?_whole d now text l (Key.nodup_texts keys)).sublist (hsub.filterMap _))
    (fun x t hm => (mem_whole_iff.1 (hsub.subset hm)).2)
  intro x
  have hx := hleaves x
  dsimp only at hx
  rwa [hwritten x, and_left_comm] at hx

/-- An entry is stored in a store that may refuse any of its keys, each write in its own time.

* If no write has a fault the operation succeeds.  Otherwise it fails, and reports each key that has
  a fault, in the order of the keys.
* Each key whose write has no fault holds the text, with the lifetime counted from the instant that
  the clock shows when it is written; all others keep what they hold.
* Cancelled at an instant, while a write is still to come, the operation ends at that instant, and
  exactly the writes have been made that were to be made until then.  If none is to come it ends as
  if nobody had cancelled.  Cancelled beforehand, nothing is done.
* There are times that the writes may take for any order in which they are made. -/
theorem storing_outcome (hstore : Falters answer memory clock refuses)
    (htext : Bundle.encode c ⟨value, Key.texts keys⟩ = .ok text) (d : Delays W) (now : ℕ)
    (s : σ) :
    ((∀ x ∈ Key.texts keys, writeFault? (refuses s) l x = none) →
      ((storing d now c value keys l .live).run answer s).1.2 = .ok ()) ∧
    ((∃ x ∈ Key.texts keys, writeFault? (refuses s) l x ≠ none) →
      ((storing d now c value keys l .live).run answer s).1.2 =
        .error (.someKeys "set" (Key.texts keys).length
          (keyFaults (writeFault? (refuses s) l) (Key.texts keys))) ∧
      (keyFaults (writeFault? (refuses s) l) (Key.texts keys)).map KeyFault.key =
        (Key.texts keys).filter fun x => (writeFault? (refuses s) l x).isSome) ∧
    Leaves answer memory clock (storing d now c value keys l .live) s text l (due d now text l)
      (fun x => x ∈ Key.texts keys ∧ writeFault? (refuses s) l x = none) ∧
    (∀ t, now ≤ t →
      ((∀ x ∈ Key.texts keys, due d now text l x ≤ t) →
        (storing d now c value keys l (.cancelledAt t)).run answer s =
          (storing d now c value keys l .live).run answer s) ∧
      ((∃ x ∈ Key.texts keys, t < due d now text l x) →
        ((storing d now c value keys l (.cancelledAt t)).run answer s).1 =
          (t, .error .cancelled) ∧
        Leaves answer memory clock (storing d now c value keys l (.cancelledAt t)) s text l
          (due d now text l) fun x => x ∈ Key.texts keys ∧ writeFault? (refuses s) l x = none ∧
            due d now text l x ≤ t)) ∧
    (keys ≠ [] → storing d now c value keys l .cancelled = .ended now (.error .cancelled)) ∧
    ∀ order, order.Perm (Key.texts keys) → ∃ d' : Delays W,
      ((storing d' now c value keys l .live).history answer s).filterMap (fun m => m.2.change?) =
        puts text l order := by
  obtain ⟨hend, hhistory⟩ := hstore.run_storing_live (l := l) htext d now s
  have horder : (storing d now c value keys l .live).InOrder now := play_inOrder d .live now _
  refine ⟨fun hnone => ?_, fun hsome => ⟨?_, map_key_keyFaults⟩, ?_, fun t hnow => ⟨?_, ?_⟩,
    fun hkeys => storing_cancelled hkeys htext, fun order hperm => ?_⟩
  · rw [hend, report_of_none "set" hnone]
  · rw [hend, report_of_some "set" hsome]
  · have hleaves := hstore.leaves_storing (fun _ => True)
      (T := storing d now c value keys l .live) (by rw [hhistory])
      (fun x => by rw [hhistory, mem_whole_iff]; simp)
    simpa only [and_true] using hleaves
  · intro hdue
    rw [storing_cancelledAt htext hnow]
    refine run_cutAt_of_le horder ?_
    rw [hend]
    refine Nat.not_lt.1 fun hlt => ?_
    obtain ⟨x, hx, hlate⟩ := (lt_lastDue_puts_iff hnow).1 hlt
    exact Nat.not_le.2 hlate (hdue x hx)
  · intro hlate
    have hcut : (storing d now c value keys l (.cancelledAt t)).history answer s =
        (whole d now (puts text l (Key.texts keys))).takeWhile (·.1 ≤ t) := by
      rw [storing_cancelledAt htext hnow, history_cutAt, hhistory]
    have hsorted := horder.pairwise_history answer s
    rw [hhistory] at hsorted
    constructor
    · rw [storing_cancelledAt htext hnow]
      refine run_cutAt_of_lt ?_
      rw [hend]
      exact (lt_lastDue_puts_iff hnow).2 hlate
    · refine hstore.leaves_storing _ (by rw [hcut]; exact List.takeWhile_sublist _) fun x => ?_
      rw [hcut, mem_takeWhile_iff hsorted, mem_whole_iff]
      simp
  · obtain ⟨d', hd'⟩ := exists_delays (W := W) now text l hperm (Key.nodup_texts keys)
    exact ⟨d', by rw [(hstore.run_storing_live htext d' now s).2, hd']⟩

end Falters

namespace Rehearsal.World

/-- Why the store of a rehearsal refuses the write of a key. -/
def refuses (w : World) (key : String) : Option StoreFault :=
  if w.probe.faults.writes.contains key then
    some (w.probe.fault ("write to " ++ key ++ " refused"))
  else none

/-- Nothing that happens moves the clock or changes which calls fail. -/
lemma answer_steady (what : Moment tasks) (w : World) :
    (World.answer what w).2.probe.faults = w.probe.faults ∧
      (World.answer what w).2.probe.clock = w.probe.clock := by
  cases what with
  | read key =>
    simp only [World.answer, Probe.read]
    split_ifs <;> exact ⟨rfl, rfl⟩
  | change c =>
    cases c <;>
    · simp only [World.answer, Probe.change]
      split_ifs <;> exact ⟨rfl, rfl⟩
  | work task => cases task <;> exact ⟨rfl, rfl⟩
  | _ => exact ⟨rfl, rfl⟩

/-- The store of a rehearsal is one that may refuse keys. -/
theorem falters_answer :
    Falters World.answer (fun w => w.probe.memory) (fun w => w.probe.clock) refuses where
  begun _ _ := rfl
  refused key text l fault w h := by
    unfold refuses at h
    split_ifs at h with hkey
    cases h
    have hchange : w.probe.change (.put key text l) =
        (.error (w.probe.fault ("write to " ++ key ++ " refused")), w.probe) := if_pos hkey
    exact ⟨congrArg Prod.fst hchange, congrArg (fun r => r.2.memory) hchange⟩
  made key text l w h := by
    unfold refuses at h
    split_ifs at h with hkey
    have hchange : w.probe.change (.put key text l) =
        ((w.probe.memory.write w.probe.clock key text l).1,
          { w.probe with memory := (w.probe.memory.write w.probe.clock key text l).2 }) :=
      if_neg hkey
    exact ⟨congrArg Prod.fst hchange, congrArg (fun r => r.2.memory) hchange⟩
  steady what w := by
    funext key
    simp only [refuses, Probe.fault, (answer_steady what w).1]

end Rehearsal.World

namespace Demo

/-- The second key is refused, and the first one takes the longest. -/
def hesitant : Rehearsal.World where
  probe :=
    { clock := .epoch
      faults := { writes := ["two"] }
      pace := { set := 5, keys := [("one", 3)] } }

/-- Three keys, the first one twice. -/
def threeKeys : List Key := [⟨"one"⟩, ⟨"two"⟩, ⟨"three"⟩, ⟨"one"⟩]

/-- What is written for a greeting under three keys. -/
def threeText (greeting : String) : String :=
  (Bundle.members (.text greeting) (Key.texts threeKeys)).render

/-- A greeting is written under three keys. -/
def writeThree (token : Token) : Timeline Rehearsal.tasks (Except CacheFault Unit) :=
  Entry.storing hesitant.delays 0 .text "hello" threeKeys {} token

/-- The refusal of the second key is reported, and the other two are written.  Cancelled at the
instant six, after the third key was written and before the first one would be, the operation
leaves the third key alone. -/
theorem hesitant_writes :
    ((writeThree .live).run Rehearsal.World.answer hesitant).1.2 =
        .error (.someKeys "set" 3 [⟨"two", .unavailable "write to two refused"⟩]) ∧
      (∀ x ∈ ["one", "three"],
        ((writeThree .live).run Rehearsal.World.answer hesitant).2.probe.memory.get? x =
          some ⟨threeText "hello", none, none, .epoch⟩) ∧
      ((writeThree (.cancelledAt 6)).run Rehearsal.World.answer hesitant).1 =
        (6, .error .cancelled) ∧
      ((writeThree (.cancelledAt 6)).run Rehearsal.World.answer hesitant).2.probe.memory.get?
        "three" = some ⟨threeText "hello", none, none, .epoch⟩ ∧
      ((writeThree (.cancelledAt 6)).run Rehearsal.World.answer hesitant).2.probe.memory.get?
        "one" = none := by
  have htext : Bundle.encode .text ⟨"hello", Key.texts threeKeys⟩ = .ok (threeText "hello") :=
    Bundle.encode_eq_ok_iff.2 ⟨_, rfl, rfl⟩
  have htexts : Key.texts threeKeys = ["one", "two", "three"] := by decide
  have hok : ∀ x ∈ ["one", "three"], writeFault? hesitant.refuses {} x = none := by decide
  obtain ⟨-, hfails, hleaves, hcut, -⟩ :=
    Rehearsal.World.falters_answer.storing_outcome (l := {}) htext hesitant.delays 0 hesitant
  -- the clock stands still
  have hfresh : ∀ before, Held.fresh? (Timeline.replay Rehearsal.World.answer before
      hesitant).probe.clock (threeText "hello") {} =
        some ⟨threeText "hello", none, none, .epoch⟩ := by
    intro before
    rw [Timeline.replay_of_steady (f := fun w : Rehearsal.World => w.probe.clock)
      (fun what w => (Rehearsal.World.answer_steady what w).2)]
    rfl
  rw [htexts] at hfails hleaves hcut
  obtain ⟨hend, hleft⟩ := (hcut 6 (by decide)).2 ⟨"one", by decide, by decide⟩
  refine ⟨(hfails ⟨"two", by decide, by decide⟩).1, ?_, hend, ?_, ?_⟩
  · intro x hx
    have hmem : x ∈ ["one", "two", "three"] := by
      rcases List.mem_pair.1 hx with rfl | rfl <;> decide
    obtain ⟨before, after, -, hget⟩ := (hleaves x).1 ⟨hmem, hok x hx⟩
    exact hget.trans (hfresh before)
  · obtain ⟨before, after, -, hget⟩ := (hleft "three").1 ⟨by decide, hok _ (by decide), by decide⟩
    exact hget.trans (hfresh before)
  · refine (hleft "one").2 ?_
    rintro ⟨-, -, hdue⟩
    exact absurd hdue (by decide)

end Demo

end RequestCache
