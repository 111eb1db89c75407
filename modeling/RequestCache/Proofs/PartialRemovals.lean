/-
# Removals some of which fail

An entry is removed through one of its keys: the text under the key is read, and the keys that it
lists are deleted, the key itself among them.  The text need not be one that the cache has written.
It may list a key more than once, or keys under which there is nothing, or no keys at all; a blank
text counts as none.

The store may refuse any of the keys.  The deletions do not wait for one another, so what is left
under a key depends on whether it was to be deleted and whether the store refused
(`Balks.get?_replay`).  The main statement tells which calls a removal makes, what it leaves under
every key, and what it reports (`Balks.removing_outcome`).
-/
import RequestCache.Proofs.Calls
import RequestCache.Proofs.PartialWrites

namespace RequestCache

variable {W : Interface} {α β σ : Type} {answer : (what : Moment W) → σ → what.Answer × σ}

/-! ## Calls along a time line -/

/-- The call to the store that begins at a moment. -/
def Moment.call? : Moment W → Option StoreCall
  | .beginRead key => some (.get key)
  | .beginChange c => some (.change c)
  | _ => none

/-- Nothing is read or changed at the moment, and the application does not work. -/
def Moment.IsIdle : Moment W → Prop
  | .read _ | .change _ | .work _ => False
  | _ => True

/-- The calls to the store along a time line, in the order in which they begin. -/
def Timeline.calls (answer : (what : Moment W) → σ → what.Answer × σ) (T : Timeline W α)
    (s : σ) : List StoreCall :=
  (T.history answer s).filterMap fun m => m.2.call?

namespace Entry

open Timeline

lemma filterMap_call?_whole (d : Delays W) (now : ℕ) (cs : List Change) :
    (whole d now cs).filterMap (fun m => m.2.call?) = cs.map .change := by
  rw [whole, List.filterMap_append, filterMap_landings_eq_nil fun _ _ => rfl, List.append_nil]
  exact filterMap_beginnings StoreCall.change fun _ => rfl

lemma delete_mem_change?_whole_iff {d : Delays W} {now : ℕ} {xs : List String} {x : String} :
    .delete x ∈ (whole d now (xs.map .delete)).filterMap (fun m => m.2.change?) ↔ x ∈ xs := by
  rw [filterMap_change?_whole, (map_change_flights_perm d now _).mem_iff, List.mem_map]
  simp

end Entry

/-! ## Stores that balk -/

/-- Why a store refuses to read a key, or to delete it. -/
structure Refusals where
  /-- To read it. -/
  read : String → Option StoreFault
  /-- To delete it. -/
  delete : String → Option StoreFault

/-- A store in memory that refuses to read or to delete some keys, each for a reason of its own,
and does nothing then.  It goes on refusing them.  Its clock may show anything at any time. -/
structure Balks (answer : (what : Moment W) → σ → what.Answer × σ) (memory : σ → Memory)
    (clock : σ → Instant) (refuses : σ → Refusals) : Prop where
  idle : ∀ what s, what.IsIdle → memory (answer what s).2 = memory s
  unread : ∀ key fault s, (refuses s).read key = some fault →
    (answer (.read key) s).1 = .error fault ∧ memory (answer (.read key) s).2 = memory s
  read : ∀ key s, (refuses s).read key = none →
    (answer (.read key) s).1 = .ok ((memory s).read (clock s) key).1 ∧
    memory (answer (.read key) s).2 = ((memory s).read (clock s) key).2
  undeleted : ∀ key fault s, (refuses s).delete key = some fault →
    (answer (.change (.delete key)) s).1 = .error fault ∧
    memory (answer (.change (.delete key)) s).2 = memory s
  deleted : ∀ key s, (refuses s).delete key = none →
    (answer (.change (.delete key)) s).1 = .ok () ∧
    memory (answer (.change (.delete key)) s).2 = (memory s).erase key
  steady : ∀ what s, refuses (answer what s).2 = refuses s

/-- Nothing is read or written, but keys may be deleted. -/
def OnlyDeletes (h : List (ℕ × Moment W)) : Prop :=
  ∀ m ∈ h, m.2.IsIdle ∨ ∃ x, m.2 = .change (.delete x)

lemma Entry.onlyDeletes_whole (d : Delays W) (now : ℕ) (xs : List String) :
    OnlyDeletes (whole d now (xs.map .delete)) := by
  intro m hm
  rcases List.mem_append.1 hm with hm | hm
  · obtain ⟨c, -, rfl⟩ := List.mem_map.1 hm
    exact .inl trivial
  · obtain ⟨f, hf, rfl⟩ := List.mem_map.1 hm
    obtain ⟨x, -, hx⟩ := List.mem_map.1 (Timeline.mem_flights hf).1
    exact .inr ⟨x, by rw [← hx]⟩

namespace Balks

variable {memory : σ → Memory} {clock : σ → Instant} {refuses : σ → Refusals} {s : σ}
  {h : List (ℕ × Moment W)} {x : String}

/-- A deletion that is not refused leaves nothing under its key, and nothing else changes. -/
lemma delete (hstore : Balks answer memory clock refuses) (x : String) (s : σ) :
    (answer (.change (.delete x)) s).1 = ChangeOutcome.ofFault? ((refuses s).delete x) ∧
    ∀ y, (memory (answer (.change (.delete x)) s).2).get? y =
      if y = x ∧ (refuses s).delete x = none then none else (memory s).get? y := by
  cases hx : (refuses s).delete x with
  | some fault =>
    obtain ⟨houtcome, hmemory⟩ := hstore.undeleted x fault s hx
    rw [houtcome, hmemory]
    exact ⟨rfl, fun y => (if_neg fun hy => Option.some_ne_none fault hy.2).symm⟩
  | none =>
    obtain ⟨houtcome, hmemory⟩ := hstore.deleted x s hx
    rw [houtcome, hmemory]
    exact ⟨rfl, fun y => by rw [Table.get?_erase]; simp⟩

lemma refuses_replay (hstore : Balks answer memory clock refuses) (h : List (ℕ × Moment W))
    (s : σ) : refuses (Timeline.replay answer h s) = refuses s :=
  Timeline.replay_of_steady hstore.steady h s

/-- What is left under a key after deletions. -/
theorem get?_replay (hstore : Balks answer memory clock refuses) (hh : OnlyDeletes h) (x : String)
    (s : σ) :
    (memory (Timeline.replay answer h s)).get? x =
      if .delete x ∈ h.filterMap (fun m => m.2.change?) ∧ (refuses s).delete x = none then none
      else (memory s).get? x := by
  induction h generalizing s with
  | nil => rfl
  | cons m h ih =>
    obtain ⟨t, what⟩ := m
    have hrest := ih (fun m hm => hh m (List.mem_cons_of_mem _ hm)) (answer what s).2
    rw [hstore.steady] at hrest
    refine hrest.trans ?_
    rcases hh _ List.mem_cons_self with hidle | ⟨y, hy⟩
    · have hnone : what.change? = none := by cases what <;> first | rfl | exact hidle.elim
      have hcons : ((t, what) :: h).filterMap (fun m => m.2.change?) =
          h.filterMap fun m => m.2.change? := List.filterMap_cons_none hnone
      rw [hstore.idle what s hidle, hcons]
    · obtain rfl : what = .change (.delete y) := hy
      have hmem : .delete x ∈ ((t, Moment.change (.delete y)) :: h).filterMap
          (fun m => m.2.change?) ↔ x = y ∨ .delete x ∈ h.filterMap fun m => m.2.change? := by
        refine List.mem_cons.trans (or_congr ?_ Iff.rfl)
        rw [Change.delete.injEq]
      rw [(hstore.delete y s).2]
      by_cases hxy : x = y ∧ (refuses s).delete y = none
      · rw [if_pos hxy, ite_self, if_pos ⟨hmem.2 (.inl hxy.1), hxy.1 ▸ hxy.2⟩]
      · rw [if_neg hxy]
        refine if_congr ?_ rfl rfl
        rw [hmem, or_and_right, or_iff_right]
        exact fun hx => hxy ⟨hx.1, hx.1 ▸ hx.2⟩

end Balks

/-! ## The removal of an entry -/

namespace Entry

open Timeline

variable {d : Delays W} {now : ℕ} {key : Key} {text : String}

/-- The entry under a key is removed, beginning at an instant. -/
def removing (d : Delays W) (now : ℕ) (key : Key) : Timeline W (Except CacheFault Unit) :=
  play d .live now (remove key)

/-- The value under a key is looked up, beginning at an instant. -/
def finding (d : Delays W) (now : ℕ) (c : Json.Codec α) (key : Key) :
    Timeline W (Except CacheFault (Option α)) :=
  play d .live now (find c key)

/-- The keys that go with a text: those that it lists, if it lists any, and the key under which it
was found. -/
def doomedBy (key : Key) (text : String) : List String :=
  doomed key ((Bundle.decodeKeys? text).getD [])

/-- What happens when keys are deleted, after the logs were told or not. -/
def Sweeps (key : Key) (xs : List String) (d : Delays W) (now : ℕ)
    (h : List (ℕ × Moment W)) : Prop :=
  ∃ told, (told = [] ∨ told = [(now, .log (.undecodableRemoved key.text))]) ∧
    h = told ++ whole d now (xs.map .delete)

lemma Sweeps.calls {xs : List String} {h : List (ℕ × Moment W)} (hh : Sweeps key xs d now h) :
    h.filterMap (fun m => m.2.call?) = xs.map fun x => .change (.delete x) := by
  obtain ⟨told, htold, rfl⟩ := hh
  have hnone : told.filterMap (fun m => m.2.call?) = [] := by
    rcases htold with rfl | rfl <;> rfl
  rw [List.filterMap_append, hnone, filterMap_call?_whole, List.map_map]
  rfl

lemma Sweeps.onlyDeletes {xs : List String} {h : List (ℕ × Moment W)}
    (hh : Sweeps key xs d now h) : OnlyDeletes h := by
  obtain ⟨told, htold, rfl⟩ := hh
  intro m hm
  rcases List.mem_append.1 hm with hm | hm
  · rcases htold with rfl | rfl
    · cases hm
    · obtain rfl := List.mem_singleton.1 hm
      exact .inl trivial
  · exact onlyDeletes_whole d now xs m hm

lemma Sweeps.delete_mem_iff {xs : List String} {h : List (ℕ × Moment W)}
    (hh : Sweeps key xs d now h) {x : String} :
    .delete x ∈ h.filterMap (fun m => m.2.change?) ↔ x ∈ xs := by
  obtain ⟨told, htold, rfl⟩ := hh
  have hnone : told.filterMap (fun m => m.2.change?) = [] := by
    rcases htold with rfl | rfl <;> rfl
  rw [List.filterMap_append, hnone, List.nil_append, delete_mem_change?_whole_iff]

end Entry

namespace Balks

open Timeline Entry

variable {memory : σ → Memory} {clock : σ → Instant} {refuses : σ → Refusals} {key : Key}
  {text : String} {s : σ}

/-- Keys are deleted, and nobody cancels. -/
lemma run_changeAll_delete (hstore : Balks answer memory clock refuses) (xs : List String)
    (d : Delays W) (now : ℕ) (s : σ) :
    ((play d .live now (changeAll "remove" .delete xs)).run answer s).1.2 =
      report "remove" (refuses s).delete xs ∧
    (play d .live now (changeAll "remove" .delete xs)).history answer s =
      whole d now (xs.map .delete) := by
  have houtcome : ∀ x ∈ xs, ∀ s', refuses s' = refuses s →
      (answer (.change (.delete x)) s').1 = ChangeOutcome.ofFault? ((refuses s).delete x) := by
    intro x _ s' hs'
    rw [(hstore.delete x s').1, hs']
  obtain ⟨hend, hhistory⟩ := run_changeAll_live "remove" .delete (refuses s).delete
    (fun s' => refuses s' = refuses s) (fun what s' hs' => (hstore.steady what s').trans hs')
    (fun _ => rfl) houtcome rfl d now
  exact ⟨congrArg Prod.snd hend, hhistory⟩

/-- What a removal does with the text that it has found. -/
lemma run_removeContent (hstore : Balks answer memory clock refuses) (key : Key) (text : String)
    (d : Delays W) (now : ℕ) (s : σ) :
    ((play d .live now (removeContent key (some text))).run answer s).1.2 =
      report "remove" (refuses s).delete (doomedBy key text) ∧
    Sweeps key (doomedBy key text) d now
      ((play d .live now (removeContent key (some text))).history answer s) := by
  cases hlisted : Bundle.decodeKeys? text with
  | some listed =>
    obtain ⟨hend, hhistory⟩ := hstore.run_changeAll_delete (doomed key listed) d now s
    simp only [removeContent, doomedBy, hlisted, Option.getD_some]
    exact ⟨hend, [], .inl rfl, hhistory⟩
  | none =>
    have hkeys : doomed key [] = [key.text] := by simp [doomed]
    obtain ⟨hend, hhistory⟩ := hstore.run_changeAll_delete [key.text] d now
      (answer (.log (.undecodableRemoved key.text)) s).2
    rw [hstore.steady] at hend
    simp only [removeContent, doomedBy, hlisted, Option.getD_none, hkeys]
    exact ⟨hend, _, .inr rfl, congrArg (_ :: ·) hhistory⟩

/-- The entry that is found under a key, if there is one that has not ended when it is read. -/
def found? (answer : (what : Moment W) → σ → what.Answer × σ) (memory : σ → Memory)
    (clock : σ → Instant) (key : Key) (s : σ) : Option Held :=
  (memory s).live? (clock (answer (.beginRead key.text) s).2) key.text

/-- What is left under a key when the entry under `key` was read: that entry as the read leaves it,
and the others as they are. -/
def kept (answer : (what : Moment W) → σ → what.Answer × σ) (memory : σ → Memory)
    (clock : σ → Instant) (key : Key) (s : σ) (x : String) : Option Held :=
  if x = key.text then
    (found? answer memory clock key s).map (·.touch (clock (answer (.beginRead key.text) s).2))
  else (memory s).get? x

/-- What happens when the text under a key is read. -/
def looks (d : Delays W) (now : ℕ) (key : Key) : List (ℕ × Moment W) :=
  [(now, .beginRead key.text), (now + d.read key.text, .read key.text)]

/-- The text under a key is read. -/
lemma run_content (hstore : Balks answer memory clock refuses) (d : Delays W) (now : ℕ)
    (key : Key) (s : σ) :
    (play d .live now (content key)).history answer s = looks d now key ∧
    (∀ fault, (refuses s).read key.text = some fault →
      ((play d .live now (content key)).run answer s).1.2 = .error (.store fault) ∧
      memory ((play d .live now (content key)).run answer s).2 = memory s) ∧
    ((refuses s).read key.text = none →
      ((play d .live now (content key)).run answer s).1.2 =
        .ok (readable ((found? answer memory clock key s).map Held.value)) ∧
      ∀ x, (memory ((play d .live now (content key)).run answer s).2).get? x =
        kept answer memory clock key s x) := by
  have hidle := hstore.idle (.beginRead key.text) s trivial
  have hrefuses := hstore.steady (.beginRead key.text) s
  -- the result depends on the outcome of the read
  have hline : play d .live now (content (W := W) key) =
      .moment now (.beginRead key.text) fun _ =>
        .moment (now + d.read key.text) (.read key.text) fun outcome =>
          .ended (now + d.read key.text)
            (match (outcome : ReadOutcome) with
            | .error source => .error (.store source)
            | .ok text => .ok (readable text)) := by
    refine congrArg (Timeline.moment now (.beginRead key.text)) (funext fun _ => ?_)
    refine congrArg (Timeline.moment _ (.read key.text)) (funext fun outcome => ?_)
    cases outcome <;> rfl
  rw [hline]
  refine ⟨rfl, fun fault hfault => ?_, fun hnone => ?_⟩
  · obtain ⟨houtcome, hmemory⟩ := hstore.unread key.text fault (answer (.beginRead key.text) s).2
      (by rw [hrefuses, hfault])
    simp only [Timeline.run]
    rw [houtcome, hmemory, hidle]
    exact ⟨rfl, rfl⟩
  · obtain ⟨houtcome, hmemory⟩ := hstore.read key.text (answer (.beginRead key.text) s).2
      (by rw [hrefuses, hnone])
    simp only [Timeline.run]
    rw [houtcome, hmemory, hidle, Memory.read_value]
    exact ⟨rfl, fun x => Memory.get?_read key.text x⟩

/-- A removal reads the text under its key and goes on with what it is told. -/
lemma removing_eq (d : Delays W) (now : ℕ) (key : Key) :
    removing d now key = (play d .live now (content key)).andThen fun now outcome =>
      match outcome with
      | .error e => .ended now (.error e)
      | .ok text => play d .live now (removeContent key text) := by
  refine (play_bind d now (content key) _).trans (congrArg _ ?_)
  funext now outcome
  rcases outcome with e | _ | text
  · rfl
  · rfl
  · cases hlisted : Bundle.decodeKeys? text <;> simp [removeContent, hlisted]

/-- A look-up reads the text under its key; a blank one holds nothing. -/
lemma finding_eq (d : Delays W) (now : ℕ) (c : Json.Codec α) (key : Key) :
    ∃ next, finding d now c key = (play d .live now (content key)).andThen next ∧
      ∀ now, next now (.ok none) = .ended now (.ok none) :=
  ⟨_, play_bind d now (content key) _, fun _ => rfl⟩

/-- The store refuses to read the key. -/
lemma run_removing_of_unread (hstore : Balks answer memory clock refuses) (d : Delays W)
    (now : ℕ) {fault : StoreFault} (hfault : (refuses s).read key.text = some fault) :
    ((removing d now key).run answer s).1.2 = .error (.store fault) ∧
    (removing d now key).history answer s = looks d now key ∧
    memory ((removing d now key).run answer s).2 = memory s := by
  obtain ⟨hhistory, hunread, -⟩ := hstore.run_content d now key s
  obtain ⟨hend, hmemory⟩ := hunread fault hfault
  rw [removing_eq, run_andThen, history_andThen, hhistory, hend]
  exact ⟨rfl, List.append_nil _, hmemory⟩

/-- There is nothing to read. -/
lemma run_removing_of_none (hstore : Balks answer memory clock refuses) (d : Delays W)
    (now : ℕ) (hread : (refuses s).read key.text = none)
    (hnone : readable ((found? answer memory clock key s).map Held.value) = none) :
    ((removing d now key).run answer s).1.2 = .ok () ∧
    (removing d now key).history answer s = looks d now key ∧
    ∀ x, (memory ((removing d now key).run answer s).2).get? x =
      kept answer memory clock key s x := by
  obtain ⟨hhistory, -, hcontent⟩ := hstore.run_content d now key s
  obtain ⟨hend, hmemory⟩ := hcontent hread
  rw [hnone] at hend
  rw [removing_eq, run_andThen, history_andThen, hhistory, hend]
  exact ⟨rfl, List.append_nil _, hmemory⟩

/-- A text is found, and the keys that go with it are deleted. -/
lemma run_removing_of_some (hstore : Balks answer memory clock refuses) (d : Delays W)
    (now : ℕ) (hread : (refuses s).read key.text = none)
    (htext : readable ((found? answer memory clock key s).map Held.value) = some text) :
    ((removing d now key).run answer s).1.2 =
      report "remove" (refuses s).delete (doomedBy key text) ∧
    (∃ now' h, Sweeps key (doomedBy key text) d now' h ∧
      (removing d now key).history answer s = looks d now key ++ h) ∧
    ∀ x, (memory ((removing d now key).run answer s).2).get? x =
      if x ∈ doomedBy key text ∧ (refuses s).delete x = none then none
      else kept answer memory clock key s x := by
  obtain ⟨hhistory, -, hcontent⟩ := hstore.run_content d now key s
  obtain ⟨hend, hmemory⟩ := hcontent hread
  have hrefuses : refuses ((play d .live now (content key)).run answer s).2 = refuses s := by
    rw [run_snd, hstore.refuses_replay]
  obtain ⟨hdone, hsweeps⟩ := hstore.run_removeContent key text d
    ((play d .live now (content key)).run answer s).1.1
    ((play d .live now (content key)).run answer s).2
  rw [hrefuses] at hdone
  rw [htext] at hend
  rw [removing_eq, run_andThen, history_andThen, hhistory, hend]
  refine ⟨hdone, ⟨_, _, hsweeps, rfl⟩, fun x => ?_⟩
  rw [run_snd, hstore.get?_replay hsweeps.onlyDeletes, hrefuses, hmemory]
  exact if_congr (and_congr_left fun _ => hsweeps.delete_mem_iff) rfl rfl

/-- A look-up under a key finds nothing if nothing but blank text is kept there. -/
lemma run_finding_of_isBlank (hstore : Balks answer memory clock refuses) (d : Delays W)
    (now : ℕ) (c : Json.Codec α) (hread : (refuses s).read key.text = none)
    (hblank : ∀ e, (memory s).get? key.text = some e → isBlank e.value = true) :
    ((finding d now c key).run answer s).1.2 = .ok none := by
  obtain ⟨next, hline, hnext⟩ := finding_eq (W := W) d now c key
  obtain ⟨-, -, hcontent⟩ := hstore.run_content d now key s
  have hnone : readable ((found? answer memory clock key s).map Held.value) = none := by
    refine Option.filter_eq_none_iff.2 fun text htext => ?_
    obtain ⟨e, he, rfl⟩ := Option.map_eq_some_iff.1 htext
    simp [hblank e (Memory.live?_eq_some_iff.1 he).1]
  have hend := (hcontent hread).1
  rw [hnone] at hend
  rw [hline, run_andThen, hend, hnext]
  rfl

/-- After a removal that succeeded nothing but blank text is kept under its key. -/
lemma isBlank_of_removing (hstore : Balks answer memory clock refuses) {d : Delays W} {now : ℕ}
    (hok : ((removing d now key).run answer s).1.2 = .ok ()) {e : Held}
    (he : (memory ((removing d now key).run answer s).2).get? key.text = some e) :
    isBlank e.value = true := by
  cases hread : (refuses s).read key.text with
  | some fault =>
    rw [(hstore.run_removing_of_unread d now hread).1] at hok
    cases hok
  | none =>
    cases hfound : readable ((found? answer memory clock key s).map Held.value) with
    | none =>
      rw [(hstore.run_removing_of_none d now hread hfound).2.2, kept, if_pos rfl] at he
      obtain ⟨e', he', rfl⟩ := Option.map_eq_some_iff.1 he
      have hvalue := Option.filter_eq_none_iff.1 hfound e'.value
        (Option.map_eq_some_iff.2 ⟨e', he', rfl⟩)
      simpa using hvalue
    | some text =>
      obtain ⟨hend, -, hmemory⟩ := hstore.run_removing_of_some d now hread hfound
      by_cases hsome : ∃ x ∈ doomedBy key text, (refuses s).delete x ≠ none
      · rw [hend, report_of_some "remove" hsome] at hok
        cases hok
      · -- the key is one of those that were deleted
        have hkey : key.text ∈ doomedBy key text := text_mem_doomed key _
        have hmade : (refuses s).delete key.text = none :=
          not_not.1 fun hrefused => hsome ⟨_, hkey, hrefused⟩
        rw [hmemory, if_pos ⟨hkey, hmade⟩] at he
        cases he

/-- The entry under a key is removed in a store that may refuse any key.  The text under the key may
be any.

* If the store refuses to read the key, the removal fails with that fault, and nothing changes.
* If there is no text, or a blank one, nothing is deleted, and the removal succeeds.
* Otherwise each key that goes with the text is deleted, in the order of the list, and as often as
  it stands there.  The removal succeeds if no deletion is refused.  If not it fails, and reports
  each deletion that was refused, in order, and how many deletions there were in all.  A key whose
  deletion was not refused holds nothing then.  Every other key holds what it held; if the key
  itself is among these, its entry has been read.
* After a removal that succeeded a look-up under the key finds nothing, whatever it looks for. -/
theorem removing_outcome (hstore : Balks answer memory clock refuses) (d : Delays W) (now : ℕ)
    (key : Key) (s : σ) :
    (∀ fault, (refuses s).read key.text = some fault →
      ((removing d now key).run answer s).1.2 = .error (.store fault) ∧
      (removing d now key).calls answer s = [.get key.text] ∧
      memory ((removing d now key).run answer s).2 = memory s) ∧
    ((refuses s).read key.text = none →
      readable ((found? answer memory clock key s).map Held.value) = none →
      ((removing d now key).run answer s).1.2 = .ok () ∧
      (removing d now key).calls answer s = [.get key.text] ∧
      ∀ x, (memory ((removing d now key).run answer s).2).get? x =
        kept answer memory clock key s x) ∧
    ((refuses s).read key.text = none →
      ∀ text, readable ((found? answer memory clock key s).map Held.value) = some text →
      (removing d now key).calls answer s =
        .get key.text :: (doomedBy key text).map (fun x => .change (.delete x)) ∧
      ((∀ x ∈ doomedBy key text, (refuses s).delete x = none) →
        ((removing d now key).run answer s).1.2 = .ok ()) ∧
      ((∃ x ∈ doomedBy key text, (refuses s).delete x ≠ none) →
        ((removing d now key).run answer s).1.2 = .error (.someKeys "remove"
          (doomedBy key text).length (keyFaults (refuses s).delete (doomedBy key text))) ∧
        (keyFaults (refuses s).delete (doomedBy key text)).map KeyFault.key =
          (doomedBy key text).filter fun x => ((refuses s).delete x).isSome) ∧
      (∀ x ∈ doomedBy key text, (refuses s).delete x = none →
        (memory ((removing d now key).run answer s).2).get? x = none) ∧
      ∀ x, (x ∈ doomedBy key text → (refuses s).delete x ≠ none) →
        (memory ((removing d now key).run answer s).2).get? x =
          kept answer memory clock key s x) ∧
    (((removing d now key).run answer s).1.2 = .ok () →
      ∀ (c : Json.Codec β) (d' : Delays W) (now' : ℕ) (s' : σ),
        memory s' = memory ((removing d now key).run answer s).2 →
        (refuses s').read key.text = none →
        ((finding d' now' c key).run answer s').1.2 = .ok none) := by
  refine ⟨fun fault hfault => ?_, fun hread hnone => ?_, fun hread text htext => ?_, ?_⟩
  · obtain ⟨hend, hhistory, hmemory⟩ := hstore.run_removing_of_unread d now hfault
    refine ⟨hend, ?_, hmemory⟩
    rw [Timeline.calls, hhistory]
    rfl
  · obtain ⟨hend, hhistory, hmemory⟩ := hstore.run_removing_of_none d now hread hnone
    refine ⟨hend, ?_, hmemory⟩
    rw [Timeline.calls, hhistory]
    rfl
  · obtain ⟨hend, ⟨now', h, hsweeps, hhistory⟩, hmemory⟩ :=
      hstore.run_removing_of_some d now hread htext
    refine ⟨?_, fun hnone => ?_, fun hsome => ⟨?_, map_key_keyFaults⟩, fun x hx hok => ?_,
      fun x hx => ?_⟩
    · rw [Timeline.calls, hhistory, List.filterMap_append, hsweeps.calls]
      rfl
    · rw [hend, report_of_none "remove" hnone]
    · rw [hend, report_of_some "remove" hsome]
    · rw [hmemory, if_pos ⟨hx, hok⟩]
    · rw [hmemory, if_neg fun hx' => hx hx'.1 hx'.2]
  · intro hok c d' now' s' hmemory hread
    refine hstore.run_finding_of_isBlank d' now' c hread fun e he => ?_
    rw [hmemory] at he
    exact hstore.isBlank_of_removing hok he

end Balks

namespace Rehearsal.World

/-- Why the store of a rehearsal refuses to read or to delete a key. -/
def refusals (w : World) : Refusals where
  read _ := if w.probe.faults.reads then some (w.probe.fault "read refused") else none
  delete key :=
    if w.probe.faults.removes || w.probe.faults.removeKeys.contains key then
      some (w.probe.fault ("remove of " ++ key ++ " refused"))
    else none

/-- The store of a rehearsal is one that may refuse to read and to delete. -/
theorem balks_answer :
    Balks World.answer (fun w => w.probe.memory) (fun w => w.probe.clock) refusals where
  idle what w hidle := by
    cases what with
    | read key => exact hidle.elim
    | change c => exact hidle.elim
    | work task => exact hidle.elim
    | _ => rfl
  unread key fault w h := by
    simp only [refusals] at h
    split_ifs at h with hreads
    cases h
    have hread : w.probe.read key = (.error (w.probe.fault "read refused"), w.probe) :=
      if_pos hreads
    exact ⟨congrArg Prod.fst hread, congrArg (fun r => r.2.memory) hread⟩
  read key w h := by
    simp only [refusals] at h
    split_ifs at h with hreads
    have hread : w.probe.read key = (.ok (w.probe.memory.read w.probe.clock key).1,
        { w.probe with memory := (w.probe.memory.read w.probe.clock key).2 }) :=
      if_neg hreads
    exact ⟨congrArg Prod.fst hread, congrArg (fun r => r.2.memory) hread⟩
  undeleted key fault w h := by
    simp only [refusals] at h
    split_ifs at h with hkey
    cases h
    have hchange : w.probe.change (.delete key) =
        (.error (w.probe.fault ("remove of " ++ key ++ " refused")), w.probe) := if_pos hkey
    exact ⟨congrArg Prod.fst hchange, congrArg (fun r => r.2.memory) hchange⟩
  deleted key w h := by
    simp only [refusals] at h
    split_ifs at h with hkey
    have hchange : w.probe.change (.delete key) =
        (.ok (), { w.probe with memory := w.probe.memory.erase key }) := if_neg hkey
    exact ⟨congrArg Prod.fst hchange, congrArg (fun r => r.2.memory) hchange⟩
  steady what w := by simp only [refusals, Probe.fault, (answer_steady what w).1]

end Rehearsal.World

namespace Demo

/-- A text that the cache never writes: it has no value, it lists one key twice and another one
that does not exist, and not the key under which it is kept. -/
def foreignText : String := "\x7b\"keys\":[\"two\",\"ghost\",\"two\",\"three\"]\x7d"

/-- The text is kept under the first of three keys; some keys cannot be removed. -/
def grudging (refused : List String) : Rehearsal.World where
  probe :=
    { memory := ((∅ : Memory).insert "three" ⟨"3", none, none, .epoch⟩).insert "two"
        ⟨"2", none, none, .epoch⟩ |>.insert "one" ⟨foreignText, none, none, .epoch⟩
      clock := .epoch
      faults := { removeKeys := refused }
      pace := { remove := 5, keys := [("three", 3)] } }

/-- The entry under the first key is removed. -/
def removeOne (refused : List String) : Timeline Rehearsal.tasks (Except CacheFault Unit) :=
  Entry.removing (grudging refused).delays 0 ⟨"one"⟩

/-- The second key is refused twice, and stays; the first one and the third one go.  If none is
refused the first key can no longer be looked up. -/
theorem foreign_removed :
    ((removeOne ["two"]).run Rehearsal.World.answer (grudging ["two"])).1.2 =
        .error (.someKeys "remove" 5 [⟨"two", .unavailable "remove of two refused"⟩,
          ⟨"two", .unavailable "remove of two refused"⟩]) ∧
      (∀ x ∈ ["one", "three"],
        ((removeOne ["two"]).run Rehearsal.World.answer (grudging ["two"])).2.probe.memory.get? x =
          none) ∧
      ((removeOne ["two"]).run Rehearsal.World.answer (grudging ["two"])).2.probe.memory.get?
        "two" = some ⟨"2", none, none, .epoch⟩ ∧
      ((removeOne []).run Rehearsal.World.answer (grudging [])).1.2 = .ok () ∧
      ((Entry.finding (grudging []).delays 0 Json.Codec.text ⟨"one"⟩).run Rehearsal.World.answer
        ((removeOne []).run Rehearsal.World.answer (grudging [])).2).1.2 = .ok none := by
  have hfound : ∀ refused, Entry.readable ((Balks.found? Rehearsal.World.answer
      (fun w => w.probe.memory) (fun w => w.probe.clock) ⟨"one"⟩ (grudging refused)).map
        Held.value) = some foreignText := by
    have hreadable : Entry.readable (some foreignText) = some foreignText := by decide +kernel
    exact fun refused => hreadable
  have hdoomed : Entry.doomedBy ⟨"one"⟩ foreignText = ["two", "ghost", "two", "three", "one"] := by
    decide +kernel
  have hrefused : ∀ x ∈ ["one", "three"],
      (Rehearsal.World.refusals (grudging ["two"])).delete x = none := by decide
  obtain ⟨-, -, hsome, -⟩ := Rehearsal.World.balks_answer.removing_outcome (β := String)
    (grudging ["two"]).delays 0 ⟨"one"⟩ (grudging ["two"])
  obtain ⟨-, -, hfails, hgone, hstays⟩ := hsome rfl foreignText (hfound _)
  obtain ⟨-, -, hsome', hfind⟩ := Rehearsal.World.balks_answer.removing_outcome (β := String)
    (grudging []).delays 0 ⟨"one"⟩ (grudging [])
  obtain ⟨-, hok, -⟩ := hsome' rfl foreignText (hfound _)
  rw [hdoomed] at hfails hgone hstays hok
  have hend := hok (by decide)
  refine ⟨(hfails ⟨"two", by decide, by decide⟩).1, fun x hx => ?_, ?_, hend, ?_⟩
  · have hmem : x ∈ ["two", "ghost", "two", "three", "one"] := by
      rcases List.mem_pair.1 hx with rfl | rfl <;> decide
    exact hgone x hmem (hrefused x hx)
  · exact hstays "two" fun _ => by decide
  · refine hfind hend _ _ _ _ rfl ?_
    rw [Timeline.run_snd, Rehearsal.World.balks_answer.refuses_replay]
    rfl

end Demo

end RequestCache
