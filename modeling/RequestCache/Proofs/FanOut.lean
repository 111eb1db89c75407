/-
# Changes that begin together

An entry is written under all of its keys at once and removed from all of them at once: no change
waits for another one to begin, and the operation ends when the slowest of them has ended, whether
they succeed or not (`Entry.changes_allAtOnce`).

Two changes may be equal, for a text may list a key twice, and still take different times.  So the
actions are played here with times that depend on the place of a change among those that begin
together (`Timeline.paced`).  Where equal changes take the same time it comes to the same
(`Timeline.paced_ofDelays`).
-/
import Mathlib.Data.Finset.Lattice.Fold
import Mathlib.Order.Lattice.Nat
import RequestCache.Proofs.PartialRemovals

namespace RequestCache

variable {W : Interface} {α : Type} {σ : Type} {answer : (what : Moment W) → σ → what.Answer × σ}

/-! ## Each change in its own time -/

/-- How long each thing takes, in milliseconds. -/
structure Durations (W : Interface) where
  /-- A read of a key. -/
  read : String → ℕ
  /-- Of several changes that begin together, the one at a place. -/
  change : List Change → ℕ → ℕ
  /-- The work of the application. -/
  work : W.Op → ℕ

/-- Equal changes take the same time. -/
def Durations.ofDelays (d : Delays W) : Durations W where
  read := d.read
  change cs i := (cs[i]?).elim 0 d.change
  work := d.work

namespace Timeline

/-- The changes in the order in which they take effect, if the one at each place takes a time of
its own. -/
def flightsAt (delay : ℕ → ℕ) (now : ℕ) (cs : List Change) : List Flight :=
  (cs.zipIdx.map fun (c, i) => Flight.mk i (now + delay i) c).mergeSort fun f g => f.due ≤ g.due

/-- Plays an action from an instant on; nobody cancels it. -/
def paced (D : Durations W) : (now : ℕ) → Action W α → Timeline W α
  | now, .done a => .ended now a
  | now, .ask .isCancelled next => paced D now (next false)
  | now, .ask (.log e) next => .moment now (.log e) fun _ => paced D now (next ())
  | now, .ask (.measure r m) next => .moment now (.measure r m) fun _ => paced D now (next ())
  | now, .ask (.read key) next =>
    .moment now (.beginRead key) fun _ => .moment (now + D.read key) (.read key) fun outcome =>
      paced D (now + D.read key) (next (some outcome))
  | now, .ask (.apply cs) next =>
    begin now cs (land .live (fun _ now outcomes => paced D now (next outcomes)) now []
      (flightsAt (D.change cs) now cs))
  | now, .ask (.work op) next =>
    .moment (now + D.work op) (.work op) fun x => paced D (now + D.work op) (next (some x))

lemma flightsAt_ofDelays (d : Delays W) (now : ℕ) (cs : List Change) :
    flightsAt ((Durations.ofDelays d).change cs) now cs = flights d now cs := by
  have hsame : ∀ c ∈ cs.zipIdx, Flight.mk c.2 (now + (Durations.ofDelays d).change cs c.2) c.1 =
      Flight.mk c.2 (now + d.change c.1) c.1 := by
    intro c hc
    have hget : cs[c.2]? = some c.1 := List.mem_zipIdx_iff_getElem?.1 hc
    change Flight.mk c.2 (now + (cs[c.2]?).elim 0 d.change) c.1 = _
    rw [hget, Option.elim_some]
  rw [flightsAt, flights, List.map_congr_left hsame]

/-- If equal changes take the same time, an action is played as it was. -/
theorem paced_ofDelays (d : Delays W) (now : ℕ) (p : Action W α) :
    paced (.ofDelays d) now p = play d .live now p := by
  induction p generalizing now with
  | done a => rfl
  | ask e next ih =>
    cases e with
    | isCancelled => exact ih _ now
    | log e => exact congrArg (moment now (.log e)) (funext fun _ => ih _ now)
    | measure r m => exact congrArg (moment now (.measure r m)) (funext fun _ => ih _ now)
    | read key =>
      refine congrArg (moment now (.beginRead key)) (funext fun _ => ?_)
      exact congrArg (moment _ (.read key)) (funext fun outcome => ih _ _)
    | apply cs =>
      refine congrArg (begin now cs) ?_
      rw [flightsAt_ofDelays]
      refine (land_live_andThen (fun now outcomes => ?_) now [] _).trans (andThen_ended _)
      exact (ih (some outcomes) now).trans (andThen_ended _).symm
    | work op => exact congrArg (moment _ (.work op)) (funext fun x => ih _ _)

/-! ## The end of the last one -/

variable {cs : List Change} {delay : ℕ → ℕ} {start now finish : ℕ} {h : List (ℕ × Moment W)}

lemma flightsAt_perm (delay : ℕ → ℕ) (now : ℕ) (cs : List Change) :
    (flightsAt delay now cs).Perm (cs.zipIdx.map fun (c, i) => ⟨i, now + delay i, c⟩) :=
  List.mergeSort_perm _ _

lemma exists_mem_flightsAt_iff {p : ℕ → Prop} :
    (∃ f ∈ flightsAt delay now cs, p f.due) ↔ ∃ i < cs.length, p (now + delay i) := by
  simp only [(flightsAt_perm delay now cs).mem_iff, List.mem_map, Prod.exists,
    List.mem_zipIdx_iff_getElem?]
  constructor
  · rintro ⟨f, ⟨c, i, hget, rfl⟩, hp⟩
    exact ⟨i, (List.getElem?_eq_some_iff.1 hget).1, hp⟩
  · rintro ⟨i, hi, hp⟩
    exact ⟨_, ⟨cs[i], i, List.getElem?_eq_getElem hi, rfl⟩, hp⟩

lemma le_lastDue {fs : List Flight} (hfs : ∀ f ∈ fs, now ≤ f.due) : now ≤ lastDue now fs := by
  rcases fs.eq_nil_or_concat' with rfl | ⟨gs, g, rfl⟩
  · exact Nat.le_refl now
  · rw [lastDue, List.foldl_concat]
    exact hfs g (by simp)

/-- The last of several changes ends as late as the slowest one. -/
lemma lastDue_flightsAt (delay : ℕ → ℕ) (now : ℕ) (cs : List Change) :
    lastDue now (flightsAt delay now cs) = now + (Finset.range cs.length).sup delay := by
  have hsorted : (flightsAt delay now cs).Pairwise fun f g => f.due ≤ g.due :=
    pairwise_due_mergeSort _
  have hlt : ∀ t, now ≤ t → (t < lastDue now (flightsAt delay now cs) ↔
      t < now + (Finset.range cs.length).sup delay) := by
    intro t ht
    obtain ⟨k, rfl⟩ := Nat.exists_eq_add_of_le ht
    rw [lt_lastDue_iff hsorted ht, exists_mem_flightsAt_iff, Nat.add_lt_add_iff_left,
      Finset.lt_sup_iff]
    simp
  have hstart : now ≤ lastDue now (flightsAt delay now cs) := le_lastDue fun f hf => by
    obtain ⟨c, -, rfl⟩ := List.mem_map.1 ((flightsAt_perm delay now cs).mem_iff.1 hf)
    exact Nat.le_add_right _ _
  refine Nat.le_antisymm (Nat.not_lt.1 fun hlate => ?_) (Nat.not_lt.1 fun hearly => ?_)
  · exact Nat.lt_irrefl _ ((hlt _ (Nat.le_add_right _ _)).1 hlate)
  · exact Nat.lt_irrefl _ ((hlt _ hstart).2 hearly)

/-- Whatever the changes are answered with, all of them end, and then it goes on. -/
lemma exists_run_land (answer : (what : Moment W) → σ → what.Answer × σ)
    (resume : Token → ℕ → Option (List ChangeOutcome) → Timeline W α) (now : ℕ)
    (landed : List (ℕ × ChangeOutcome)) (fs : List Flight) (s : σ) :
    ∃ outcomes s',
      (land .live resume now landed fs).run answer s =
        (resume .live (lastDue now fs) (some outcomes)).run answer s' ∧
      (land .live resume now landed fs).history answer s =
        landings fs ++ (resume .live (lastDue now fs) (some outcomes)).history answer s' := by
  induction fs generalizing now landed s with
  | nil => exact ⟨_, s, rfl, rfl⟩
  | cons f fs ih =>
    obtain ⟨outcomes, s', hrun, hhistory⟩ := ih f.due
      ((f.place, (answer (.change f.change) s).1) :: landed) (answer (.change f.change) s).2
    exact ⟨outcomes, s', hrun, congrArg ((f.due, Moment.change f.change) :: ·) hhistory⟩

/-! ## All at once -/

/-- The changes `cs` begin together at `start`, and each takes the time that its place tells.

* They are the only calls to the store that begin, and they begin in order.
* All of them have begun before one that takes any time ends.
* Each ends when its time is over, whether it has failed or not.
* All is over when the last one has ended. -/
structure AllAtOnce (cs : List Change) (delay : ℕ → ℕ) (start : ℕ) (h : List (ℕ × Moment W))
    (finish : ℕ) : Prop where
  begun : h.filterMap (fun m => m.2.call?.map (Prod.mk m.1)) =
    cs.map fun c => (start, StoreCall.change c)
  begunFirst : ∀ before t c after, h = before ++ (t, .change c) :: after → start < t →
    before.filterMap (fun m => m.2.call?) = cs.map .change
  ended : (h.filterMap fun m => m.2.change?.map (Prod.mk m.1)).Perm
    (cs.zipIdx.map fun (c, i) => (start + delay i, c))
  finish_eq : finish = start + (Finset.range cs.length).sup delay

/-- Changes that begin one after the other at one instant, and then end one after the other as they
are due, are all under way at once. -/
lemma allAtOnce_flightsAt (cs : List Change) (delay : ℕ → ℕ) (start : ℕ) :
    AllAtOnce (W := W) cs delay start (beginnings start cs ++ landings (flightsAt delay start cs))
      (lastDue start (flightsAt delay start cs)) where
  begun := by
    rw [List.filterMap_append, filterMap_landings_eq_nil fun _ _ => rfl, List.append_nil]
    exact filterMap_beginnings (fun c => (start, StoreCall.change c)) fun _ => rfl
  begunFirst before t c after hsplit _ := by
    have hbegun : (beginnings (W := W) start cs).filterMap (fun m => m.2.call?) = cs.map .change :=
      filterMap_beginnings StoreCall.change fun _ => rfl
    rcases List.append_eq_append_iff.1 hsplit with ⟨ended, rfl, hended⟩ | ⟨rest, hrest, hsplit⟩
    · -- what has ended before are some of those that have landed
      have hnone : (landings (W := W) (flightsAt delay start cs)).filterMap (fun m => m.2.call?) =
          [] := filterMap_landings_eq_nil fun _ _ => rfl
      rw [hended, List.filterMap_append] at hnone
      rw [List.filterMap_append, hbegun, (List.append_eq_nil_iff.1 hnone).1, List.append_nil]
    · cases rest with
      | nil =>
        rw [List.append_nil] at hrest
        rw [← hrest, hbegun]
      | cons m rest =>
        -- a change does not end where one begins
        cases hsplit
        have hmem : (t, Moment.change c) ∈ beginnings (W := W) start cs := by simp [hrest]
        obtain ⟨c', -, heq⟩ := List.mem_map.1 hmem
        cases heq
  ended := by
    have hlanded : (landings (W := W) (flightsAt delay start cs)).filterMap
          (fun m => m.2.change?.map (Prod.mk m.1)) =
        (flightsAt delay start cs).map fun f => (f.due, f.change) :=
      filterMap_landings (fun f => (f.due, f.change)) fun _ => rfl
    rw [List.filterMap_append, filterMap_beginnings_eq_nil fun _ => rfl, hlanded, List.nil_append]
    have hperm := (flightsAt_perm delay start cs).map fun f => (f.due, f.change)
    rwa [List.map_map] at hperm
  finish_eq := lastDue_flightsAt delay start cs

/-- Nothing begins together with nothing, and takes no time. -/
lemma allAtOnce_nil (delay : ℕ → ℕ) (start : ℕ) :
    AllAtOnce (W := W) [] delay start [] start where
  begun := rfl
  begunFirst before t c after hsplit := by simp at hsplit
  ended := .nil
  finish_eq := rfl

lemma AllAtOnce.log {event : Event} (hall : AllAtOnce cs delay start h finish) :
    AllAtOnce cs delay start ((start, .log event) :: h) finish where
  begun := hall.begun
  begunFirst before t c after hsplit hlate := by
    cases before with
    | nil => cases hsplit
    | cons m before =>
      cases hsplit
      exact hall.begunFirst before t c after rfl hlate
  ended := hall.ended
  finish_eq := hall.finish_eq

end Timeline

/-! ## Writes and removals -/

namespace Key

/-- A filter keeps the order of those that it does not drop. -/
lemma idxOf_lt_of_filter {p : Key → Bool} {keys : List Key} {a b : Key} (ha : p a = true)
    (hb : p b = true) (h : (keys.filter p).idxOf a < (keys.filter p).idxOf b) :
    keys.idxOf a < keys.idxOf b := by
  induction keys with
  | nil => cases h
  | cons k keys ih =>
    by_cases hkb : k = b
    · subst hkb
      rw [List.filter_cons_of_pos hb, List.idxOf_cons_self] at h
      cases h
    by_cases hka : k = a
    · subst hka
      rw [List.idxOf_cons_self, List.idxOf_cons_ne _ hkb]
      exact Nat.succ_pos _
    rw [List.idxOf_cons_ne _ hka, List.idxOf_cons_ne _ hkb]
    refine Nat.succ_lt_succ (ih ?_)
    by_cases hk : p k = true
    · rw [List.filter_cons_of_pos hk, List.idxOf_cons_ne _ hka, List.idxOf_cons_ne _ hkb] at h
      exact Nat.lt_of_succ_lt_succ h
    · rwa [List.filter_cons_of_neg hk] at h

/-- The distinct keys of a list stand in the order in which they first appear. -/
lemma pairwise_distinct (keys : List Key) :
    (distinct keys).Pairwise fun a b => keys.idxOf a < keys.idxOf b := by
  -- what follows the first key are the distinct ones among the others
  induction hn : keys.length using Nat.strong_induction_on generalizing keys with
  | h n ih =>
    cases keys with
    | nil => exact .nil
    | cons k keys =>
      have hlength : (keys.filter fun k' => !k' == k).length < n := by
        rw [← hn]
        exact Nat.lt_succ_of_le (List.length_filter_le _ _)
      have hne : ∀ {a}, a ∈ distinct (keys.filter fun k' => !k' == k) → (!a == k) = true :=
        fun ha => (List.mem_filter.1 (List.mem_eraseDups.1 ha)).2
      have hk : ∀ {a}, (!a == k) = true → k ≠ a := by
        rintro a ha rfl
        simp at ha
      rw [distinct, List.eraseDups_cons, ← distinct]
      refine List.pairwise_cons.2 ⟨fun a ha => ?_, (ih _ hlength _ rfl).imp_of_mem ?_⟩
      · rw [List.idxOf_cons_self, List.idxOf_cons_ne _ (hk (hne ha))]
        exact Nat.succ_pos _
      · intro a b ha hb hlt
        rw [List.idxOf_cons_ne _ (hk (hne ha)), List.idxOf_cons_ne _ (hk (hne hb))]
        exact Nat.succ_lt_succ (idxOf_lt_of_filter (hne ha) (hne hb) hlt)

end Key

namespace Entry

open Timeline

variable {D : Durations W} {now : ℕ}

/-- Changes of several keys are all under way at once, whatever they are answered with. -/
lemma allAtOnce_changeAll (D : Durations W) (now : ℕ) (operation : String)
    (change : String → Change) (xs : List String) (s : σ) :
    AllAtOnce (xs.map change) (D.change (xs.map change)) now
      ((paced D now (changeAll operation change xs)).history answer s)
      ((paced D now (changeAll operation change xs)).run answer s).1.1 := by
  have hline : paced D now (changeAll operation change xs) =
      begin now (xs.map change) (land .live (fun _ now outcomes =>
        paced D now (conclude operation xs outcomes)) now []
          (flightsAt (D.change (xs.map change)) now (xs.map change))) := by
    rw [changeAll_eq]
    rfl
  obtain ⟨outcomes, s', hrun, hhistory⟩ := exists_run_land answer
    (fun _ now outcomes => paced D now (conclude operation xs outcomes)) now []
    (flightsAt (D.change (xs.map change)) now (xs.map change))
    (replay answer (beginnings now (xs.map change)) s)
  have hended : (paced D (lastDue now (flightsAt (D.change (xs.map change)) now (xs.map change)))
      (conclude (W := W) operation xs (some outcomes))) = .ended _ _ := rfl
  rw [hline, run_begin, history_begin, hrun, hhistory, hended]
  simpa [history, run] using allAtOnce_flightsAt (W := W) (xs.map change) _ now

/-- The writes of a value under keys, each key once.  A value without a written form is not
written. -/
def writes (c : Json.Codec α) (value : α) (keys : List Key) (l : Lifetime) : List Change :=
  match Bundle.encode c ⟨value, Key.texts keys⟩ with
  | .error _ => []
  | .ok text => (Key.distinct keys).map fun key => .put key.text text l

/-- What a read of a key that begins in a state is told. -/
def told (answer : (what : Moment W) → σ → what.Answer × σ) (key : Key) (s : σ) : ReadOutcome :=
  (answer (.read key.text) (answer (.beginRead key.text) s).2).1

/-- The deletions of a removal that was told a text under its key, or something else. -/
def deletions (key : Key) : ReadOutcome → List Change
  | .error _ => []
  | .ok found => (readable found).elim [] fun text => (doomedBy key text).map .delete

lemma allAtOnce_store (D : Durations W) (now : ℕ) (c : Json.Codec α) (value : α) (keys : List Key)
    (l : Lifetime) (s : σ) :
    AllAtOnce (writes c value keys l) (D.change (writes c value keys l)) now
      ((paced D now (store c value keys l)).history answer s)
      ((paced D now (store c value keys l)).run answer s).1.1 := by
  rcases store_cases (W := W) c value keys l with ⟨outcome, hstore, hkeys⟩ | ⟨text, htext, hstore⟩
  · have hnone : writes c value keys l = [] := by
      unfold writes
      cases htext : Bundle.encode c ⟨value, Key.texts keys⟩ with
      | error message => rfl
      | ok text =>
        by_cases hempty : keys = []
        · subst hempty
          rfl
        · rw [store_of_encode hempty htext, changeAll_eq] at hstore
          cases hstore
    rw [hnone, hstore]
    exact allAtOnce_nil _ now
  · have hwrites : writes c value keys l = (Key.texts keys).map (.put · text l) := by
      rw [writes, htext, Key.texts, List.map_map]
      rfl
    rw [hwrites, hstore]
    exact allAtOnce_changeAll D now "set" (.put · text l) (Key.texts keys) s

lemma allAtOnce_removeContent (D : Durations W) (now : ℕ) (key : Key) (found : Option String)
    (s : σ) :
    AllAtOnce (deletions key (.ok found)) (D.change (deletions key (.ok found))) now
      ((paced D now (removeContent key (readable found))).history answer s)
      ((paced D now (removeContent key (readable found))).run answer s).1.1 := by
  cases hread : readable found with
  | none =>
    rw [deletions, hread]
    exact allAtOnce_nil _ now
  | some text =>
    rw [deletions, hread, Option.elim_some]
    cases hlisted : Bundle.decodeKeys? text with
    | some listed =>
      simp only [removeContent, doomedBy, hlisted, Option.getD_some]
      exact allAtOnce_changeAll D now "remove" .delete (doomed key listed) s
    | none =>
      have hkeys : doomed key [] = [key.text] := by simp [doomed]
      simp only [removeContent, doomedBy, hlisted, Option.getD_none, hkeys]
      exact (allAtOnce_changeAll D now "remove" .delete [key.text] _).log

/-- After the text under the key was read, the keys that go are all deleted at once. -/
lemma exists_allAtOnce_remove (D : Durations W) (now : ℕ) (key : Key) (s : σ) :
    ∃ rest, (paced D now (remove key)).history answer s =
        (now, .beginRead key.text) :: (now + D.read key.text, .read key.text) :: rest ∧
      AllAtOnce (deletions key (told answer key s)) (D.change (deletions key (told answer key s)))
        (now + D.read key.text) rest ((paced D now (remove key)).run answer s).1.1 := by
  obtain ⟨next, hremove, hfound, hfault⟩ := exists_remove_eq (W := W) key
  let s' := (answer (.read key.text) (answer (.beginRead key.text) s).2).2
  let T := paced D (now + D.read key.text) (next (some (told answer key s)))
  have hhistory : (paced D now (remove key)).history answer s =
      (now, .beginRead key.text) :: (now + D.read key.text, .read key.text) ::
        T.history answer s' := by
    rw [hremove]
    rfl
  have hrun : (paced D now (remove key)).run answer s = T.run answer s' := by
    rw [hremove]
    rfl
  refine ⟨_, hhistory, ?_⟩
  rw [hrun]
  simp only [T]
  rcases told answer key s with source | found
  · rw [hfault]
    exact allAtOnce_nil _ _
  · rw [hfound]
    exact allAtOnce_removeContent D _ key found s'

/-- Changes of several keys, each of which takes a time of its own, with a store that may answer
anything, and refuse what it likes.

* A value is written under the distinct keys of a list, in the order in which they first appear, all
  at once.  So the writes take as long as the slowest one.
* Before an entry is removed, the text under its key is read.  Then the keys that it lists and the
  key itself are deleted, in the order of the list, all at once.  So this takes as long as the read
  and the slowest deletion.
* Where equal changes take the same time, these are the time lines of before. -/
theorem changes_allAtOnce (answer : (what : Moment W) → σ → what.Answer × σ) (D : Durations W)
    (now : ℕ) (s : σ) :
    (∀ (c : Json.Codec α) (value : α) (keys : List Key) (l : Lifetime),
      AllAtOnce (writes c value keys l) (D.change (writes c value keys l)) now
        ((paced D now (store c value keys l)).history answer s)
        ((paced D now (store c value keys l)).run answer s).1.1 ∧
      (∀ key, key ∈ Key.distinct keys ↔ key ∈ keys) ∧
      (Key.distinct keys).Pairwise fun a b => keys.idxOf a < keys.idxOf b) ∧
    (∀ key : Key, ∃ rest, (paced D now (remove key)).history answer s =
        (now, .beginRead key.text) :: (now + D.read key.text, .read key.text) :: rest ∧
      AllAtOnce (deletions key (told answer key s)) (D.change (deletions key (told answer key s)))
        (now + D.read key.text) rest ((paced D now (remove key)).run answer s).1.1) ∧
    ∀ (d : Delays W) (p : Action W (Except CacheFault Unit)),
      paced (.ofDelays d) now p = play d .live now p := by
  refine ⟨fun c value keys l => ⟨allAtOnce_store D now c value keys l s, fun key => ?_,
    Key.pairwise_distinct keys⟩, fun key => exists_allAtOnce_remove D now key s,
    fun d p => paced_ofDelays d now p⟩
  exact List.mem_eraseDups

end Entry

namespace Demo

/-- A read takes four milliseconds; of five changes that begin together each takes its own time. -/
def uneven : Durations Rehearsal.tasks where
  read _ := 4
  change _ i := [5, 0, 9, 3, 5].getD i 0
  work _ := 0

/-- The first key is removed; its text lists the second one twice, and the store refuses that.  The
removal ends nine milliseconds after the read, with the slowest deletion, which is refused. -/
theorem foreign_removed_at_once :
    ((Timeline.paced uneven 0 (Entry.remove ⟨"one"⟩)).run Rehearsal.World.answer
      (grudging ["two"])).1.1 = 13 := by
  obtain ⟨-, hremove, -⟩ := Entry.changes_allAtOnce (α := String) Rehearsal.World.answer uneven 0
    (grudging ["two"])
  obtain ⟨rest, -, hall⟩ := hremove ⟨"one"⟩
  have hdeletions : Entry.deletions ⟨"one"⟩
      (Entry.told Rehearsal.World.answer ⟨"one"⟩ (grudging ["two"])) =
        ["two", "ghost", "two", "three", "one"].map .delete := by decide +kernel
  rw [hall.finish_eq, hdeletions]
  decide

end Demo

end RequestCache
