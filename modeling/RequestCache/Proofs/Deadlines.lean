/-
# Deadlines in fields

The remote store writes the deadline of an entry into a field of its hash, in milliseconds, and
minus one if there is none.  A read compares the field with its clock, so an entry is not served
past its deadline whatever time to live the server knows, and the time to live that a read sets
reaches neither beyond the deadline nor beyond the window (`Host.reads_of_written`).

But the last millisecond before the epoch is minus one too.  A deadline in it is read as none: the
entry is served past it, and its time to live is the whole window again with every read.
-/
import RequestCache.Proofs.Rounding

namespace RequestCache

namespace Remote

variable {σ : Type} {answer : (r : Request) → σ → r.Answer × σ} {key value : String}

/-! ## What a read does with the fields -/

lemma sent_tell {α : Type} (c : Command) (f : Except StoreFault Unit → α) (s : σ) :
    sent answer (tell c >>= fun x => .done (f x)) s = [[c]] := by
  refine congrArg ([c] :: ·) ?_
  change List.flatMap Request.batch (Program.asked (I := wire) answer _ _) = []
  cases (answer (.send c) s).1 <;> rfl

lemma sent_settle (deadline window : Option Int) (now : Int) (s : σ) :
    sent answer (settle key deadline window value now) s =
      (renewal? key deadline window now).toList.map ([·]) := by
  unfold settle
  cases renewal? key deadline window now with
  | none => rfl
  | some c => exact sent_tell c _ s

/-- A time to live that is set anew reaches neither beyond the deadline nor beyond the window. -/
lemma le_of_expire_mem_renewal? {other : String} {deadline window : Option Int} {now ttl : Int}
    (h : .expire other ttl ∈ renewal? key deadline window now) :
    other = key ∧ (∀ d ∈ deadline, now + ttl ≤ d) ∧ ∀ w ∈ window, ttl ≤ w := by
  unfold renewal? at h
  split_ifs at h
  · cases h
  · cases window with
    | none => cases h
    | some w =>
      cases deadline with
      | none =>
        cases h
        refine ⟨rfl, nofun, fun w' hw' => ?_⟩
        cases hw'
        exact Int.le_refl _
      | some d =>
        cases h
        refine ⟨rfl, fun d' hd' => ?_, fun w' hw' => ?_⟩
        · cases hd'
          omega
        · cases hw'
          exact Int.min_le_right _ _

section Entry

variable {e : Held}

/-- The deadline that a read sees of an entry: one that is written like none is taken for none. -/
def seenDeadline (e : Held) : Option Int := unlessAbsent e.deadlineMillis

/-- The command with which a read of the entry ends, if it sends another one. -/
def lastCommand? (key : String) (e : Held) (now : Instant) : Option Command :=
  renewal? key (seenDeadline e) e.windowMillis now.millis

lemma lastCommand?_of_unseen (h : seenDeadline e = none) (key : String) (now : Instant) :
    lastCommand? key e now = e.windowMillis.map (Command.expire key ·) := by
  rw [lastCommand?, h]
  cases e.windowMillis <;> rfl

lemma renews_of_mem_lastCommand? (hwindow : ∀ w ∈ e.windowMillis, 0 < w) {now : Instant} :
    ∀ c ∈ lastCommand? key e now, Renews key c :=
  renews_of_mem_renewal? fun w hw => ⟨hwindow w hw, (e.windowMillis_fits w hw).2⟩

/-- The windows of a write that is timely in milliseconds are not empty. -/
lemma windowMillis_pos {l : Lifetime} {written : Instant} (h : l.IsTimelyInMillis written) :
    ∀ w ∈ (Held.ofWrite written value l).windowMillis, 0 < w :=
  fun w hw => ((bounds_of_timeToLive ((timeToLive_pos_iff _).2 h)).2 w hw).1

end Entry

namespace Host

variable {H : Host} {e : Held}

/-- A read of a hash that has the fields of an entry looks, and sends one command more at most. -/
lemma sent_read_of_fields {now : Instant} {s : H.State} {h : Hash}
    (hfound : H.found s now key = some h) (hfields : h.field? = e.hash.field?) :
    sent (H.answer now) (read key) s = [look key] :: (lastCommand? key e now).toList.map ([·]) := by
  obtain ⟨next, hread, hnext⟩ := exists_read_eq key
  have hreply := H.answer_send now s (look key) (look_isProper key)
  have hwindow : unlessAbsent e.windowMillis = e.windowMillis :=
    unlessAbsent_eq fun w hw => (e.windowMillis_fits w hw).1
  rw [hread]
  change [look key] :: sent (H.answer now) (next (H.answer now (.send (look key)) s).1) _ = _
  rw [hreply, hnext, entryOf_look hfound hfields]
  change [look key] :: sent (H.answer now) (settle key _ _ _ (H.answer now .now _).1.millis) _ = _
  rw [H.answer_now, sent_settle, unlessAbsent_getD, unlessAbsent_getD, hwindow]
  rfl

/-- Nothing is read where there is nothing. -/
lemma entryOf_look_of_none {hs : Hashes} (h : hs key = none) :
    entryOf ((look key).reply hs) = .ok (none, none, none) := by
  simp only [look, Command.reply, List.map_cons, List.map_nil, h]
  rfl

/-- A read that finds nothing only looks. -/
lemma sent_read_of_none {now : Instant} {s : H.State} (h : H.found s now key = none) :
    sent (H.answer now) (read key) s = [[look key]] := by
  obtain ⟨next, hread, hnext⟩ := exists_read_eq key
  have hreply := H.answer_send now s (look key) (look_isProper key)
  rw [hread]
  change [look key] :: sent (H.answer now) (next (H.answer now (.send (look key)) s).1) _ = _
  rw [hreply, hnext, entryOf_look_of_none h]
  rfl

end Host

/-! ## Reads one after the other -/

/-- A read at an instant, as it is seen from outside. -/
structure Observation where
  instant : Instant
  /-- What could be found under the key before. -/
  met : Option Hash
  sent : List (List Command)
  outcome : Except StoreFault (Option String)
  /-- What can be found under the key afterwards. -/
  left : Option Hash

/-- From the deadline on nothing is told, and what is found is deleted.  The times to live that are
set reach neither beyond the deadline nor beyond the window. -/
structure Observation.KeepsTo (key : String) (d : Instant) (window : Option Span)
    (o : Observation) : Prop where
  ended : d ≤ o.instant → o.outcome = .ok none ∧ o.left = none ∧
    (o.met.isSome → o.sent = [[look key], [.delete key]])
  capped : ∀ batch ∈ o.sent, ∀ other ttl, .expire other ttl ∈ batch →
    other = key ∧ o.instant.millis + ttl ≤ d.millis ∧ ∀ w ∈ window, ttl ≤ windowMillis w

namespace Host

variable (H : Host) (key : String)

/-- One read. -/
def observe (now : Instant) (s : H.State) : Observation × H.State :=
  let (outcome, s') := H.run now (read key) s
  (⟨now, H.found s now key, sent (H.answer now) (read key) s, outcome, H.found s' now key⟩, s')

/-- Reads at instants, one after the other. -/
def observations : List Instant → H.State → List Observation
  | [], _ => []
  | now :: times, s => (H.observe key now s).1 :: observations times (H.observe key now s).2

/-- Under the key there is nothing but the fields of an entry, the window of which is not empty. -/
def HasFields (e : Held) (now : Instant) (s : H.State) : Prop :=
  ∀ h ∈ H.found s now key, h.field? = e.hash.field? ∧ ∀ w ∈ e.windowMillis, 0 < w

variable {H key} {e : Held} {now later : Instant} {s : H.State}

lemma exists_observe_of_none (hmet : H.found s now key = none) :
    ∃ s', H.found s' now = H.found s now ∧
      H.observe key now s = (⟨now, none, [[look key]], .ok none, none⟩, s') := by
  obtain ⟨s', hfound, hrun⟩ := H.run_read_of_none hmet
  refine ⟨s', hfound, ?_⟩
  rw [observe, hrun, sent_read_of_none hmet, hmet]
  dsimp only
  rw [hfound, hmet]

lemma exists_observe_of_some {h : Hash} (hmet : H.found s now key = some h)
    (hfields : h.field? = e.hash.field?) (hwindow : ∀ w ∈ e.windowMillis, 0 < w) :
    ∃ s', H.found s' now = (lastCommand? key e now).elim (H.found s now)
        (fun c => c.effect now.millis (H.found s now)) ∧
      H.observe key now s = (⟨now, some h, [look key] :: (lastCommand? key e now).toList.map ([·]),
        .ok (if (seenDeadline e).any (· ≤ now.millis) then none else some e.value),
        H.found s' now key⟩, s') := by
  obtain ⟨s', hfound, hrun⟩ := H.run_read_of_fields hmet hfields fun c hc =>
    (renews_of_mem_lastCommand? hwindow c hc).isProper
  refine ⟨s', hfound, ?_⟩
  rw [observe, hrun, sent_read_of_fields hmet hfields, hmet]
  rfl

lemma HasFields.mono (h : H.HasFields key e now s) (hle : now ≤ later) :
    H.HasFields key e later s := by
  intro hash hhash
  rw [H.found_later s now later hle key] at hhash
  exact h hash (Option.filter_eq_some_iff.1 hhash).1

/-- A read leaves the fields as they are, if it leaves any. -/
lemma HasFields.observe (h : H.HasFields key e now s) :
    H.HasFields key e now (H.observe key now s).2 := by
  intro hash' hhash'
  cases hmet : H.found s now key with
  | none =>
    obtain ⟨s', hfound, hobserve⟩ := exists_observe_of_none hmet
    rw [hobserve, hfound, hmet] at hhash'
    cases hhash'
  | some hash =>
    obtain ⟨hfields, hwindow⟩ := h hash hmet
    obtain ⟨s', hfound, hobserve⟩ := exists_observe_of_some hmet hfields hwindow
    rw [hobserve, hfound] at hhash'
    cases hlast : lastCommand? key e now with
    | none =>
      rw [hlast, Option.elim_none] at hhash'
      exact h hash' hhash'
    | some c =>
      rw [hlast, Option.elim_some] at hhash'
      have hrenews : Renews key c := renews_of_mem_lastCommand? hwindow c hlast
      cases hrenews with
      | delete =>
        rw [Command.effect, Function.update_self] at hhash'
        cases hhash'
      | expire =>
        -- only the time to live of the hash is another one
        rw [Command.effect, Function.update_self, hmet] at hhash'
        cases hhash'
        exact ⟨hfields, hwindow⟩

/-- A read that sees the deadline keeps to it. -/
lemma HasFields.keepsTo {d : Instant} (h : H.HasFields key e now s)
    (hseen : seenDeadline e = some d.millis) : (H.observe key now s).1.KeepsTo key d e.window := by
  cases hmet : H.found s now key with
  | none =>
    obtain ⟨s', -, hobserve⟩ := exists_observe_of_none hmet
    rw [hobserve]
    refine ⟨fun _ => ⟨rfl, rfl, nofun⟩, fun batch hbatch other ttl httl => ?_⟩
    obtain rfl := List.mem_singleton.1 hbatch
    cases List.mem_singleton.1 httl
  | some hash =>
    obtain ⟨hfields, hwindow⟩ := h hash hmet
    obtain ⟨s', hfound, hobserve⟩ := exists_observe_of_some hmet hfields hwindow
    rw [hobserve]
    refine ⟨fun (hle : d ≤ now) => ?_, fun batch hbatch other ttl httl => ?_⟩
    · have hover : (seenDeadline e).any (· ≤ now.millis) = true := by
        rw [hseen, Option.any_some, decide_eq_true_eq]
        exact Instant.millis_mono hle
      have hlast : lastCommand? key e now = some (.delete key) := if_pos hover
      rw [hlast] at hfound ⊢
      rw [if_pos hover, hfound, Option.elim_some, Command.effect, Function.update_self]
      exact ⟨rfl, rfl, fun _ => rfl⟩
    · rcases List.mem_cons.1 hbatch with rfl | hbatch
      · cases List.mem_singleton.1 httl
      obtain ⟨c, hc, rfl⟩ := List.mem_map.1 hbatch
      have hc' := Option.mem_toList.1 hc
      rw [← List.mem_singleton.1 httl] at hc'
      obtain ⟨hkey, hdeadline, hle⟩ := le_of_expire_mem_renewal? hc'
      exact ⟨hkey, hdeadline _ hseen, fun w hw => hle _ (Option.mem_map_of_mem _ hw)⟩

/-- All reads keep to the deadline if the first one finds the fields of the entry. -/
lemma HasFields.observations_keepTo {d : Instant} {times : List Instant}
    (h : H.HasFields key e now s) (hseen : seenDeadline e = some d.millis)
    (htimes : (now :: times).Pairwise (· ≤ ·)) :
    ∀ o ∈ H.observations key times s, o.KeepsTo key d e.window := by
  -- each read finds the fields that the one before has left, or nothing
  induction times generalizing now s with
  | nil =>
    intro o ho
    cases ho
  | cons next times ih =>
    obtain ⟨hle, hrest⟩ := List.pairwise_cons.1 htimes
    have hnext := h.mono (hle next List.mem_cons_self)
    intro o ho
    rcases List.mem_cons.1 ho with rfl | ho
    · exact hnext.keepsTo hseen
    · exact ih hnext.observe hrest o ho

variable {l : Lifetime} {written d : Instant} {value : String}

lemma seenDeadline_ofWrite (value : String) (hd : d ∈ l.deadline written) :
    seenDeadline (Held.ofWrite written value l) =
      if d.millis = absent then none else some d.millis := by
  have hmillis : (Held.ofWrite written value l).deadlineMillis = some d.millis :=
    congrArg (Option.map Instant.millis) hd
  rw [seenDeadline, hmillis, unlessAbsent, Option.filter_some]
  by_cases habsent : d.millis = absent <;> simp [habsent]

/-- A write leaves the hash of its entry if it is timely in milliseconds, and none otherwise. -/
lemma run_write_of_timely (s : H.State) (written : Instant) (key value : String)
    (hl : l.check = .ok ()) :
    ∃ s', H.found s' written = Function.update (H.found s written) key
        (if l.IsTimelyInMillis written then some (Held.ofWrite written value l).hash else none) ∧
      H.run written (write key value l) s = (.ok (), s') := by
  obtain ⟨s', hfound, hrun⟩ := H.run_write_of_check written s key value hl
  exact ⟨s', by rw [hfound, ite_late_eq], hrun⟩

/-- What a write leaves under the key, if anything, are the fields of its entry. -/
lemma hasFields_write (hl : l.check = .ok ()) (key value : String) (s : H.State) :
    H.HasFields key (Held.ofWrite written value l) written
      (H.run written (write key value l) s).2 := by
  obtain ⟨s', hfound, hrun⟩ := H.run_write_of_timely s written key value hl
  intro hash hhash
  rw [hrun, hfound, Function.update_self] at hhash
  split_ifs at hhash with htimely
  · cases hhash
    exact ⟨rfl, windowMillis_pos htimely⟩
  · cases hhash

/-- A value is written with a deadline, and then the key is read.

* Unless the deadline is in the last millisecond before the epoch, all reads after the write keep to
  it, whatever state the server was in, and whether the write was kept or came too late.
* So does a read at any instant that finds the fields of a kept write, whatever came in between.
* A deadline in the last millisecond before the epoch is not seen: a read that finds the fields
  tells the value at any instant, and gives it the whole window to live again. -/
theorem reads_of_written (H : Host) (hl : l.check = .ok ()) (hd : d ∈ l.deadline written)
    (key value : String) :
    (d.millis ≠ absent → ∀ s times, (written :: times).Pairwise (· ≤ ·) →
      ∀ o ∈ H.observations key times (H.run written (write key value l) s).2,
        o.KeepsTo key d l.sliding) ∧
    (l.IsTimelyInMillis written → ∀ now s h, H.found s now key = some h →
      h.field? = (Held.ofWrite written value l).hash.field? →
        (d.millis ≠ absent → (H.observe key now s).1.KeepsTo key d l.sliding) ∧
        (d.millis = absent → (H.observe key now s).1.outcome = .ok (some value) ∧
          (H.observe key now s).1.sent = [look key] ::
            l.sliding.toList.map fun w => [.expire key (windowMillis w)])) := by
  have hseen := seenDeadline_ofWrite value hd
  refine ⟨fun hne s times htimes => ?_, fun htimely now s h hmet hfields => ⟨fun hne => ?_,
    fun habsent => ?_⟩⟩
  · rw [if_neg hne] at hseen
    exact (hasFields_write hl key value s).observations_keepTo hseen htimes
  · rw [if_neg hne] at hseen
    refine HasFields.keepsTo (fun hash hhash => ?_) hseen
    cases hmet.symm.trans hhash
    exact ⟨hfields, windowMillis_pos htimely⟩
  · rw [if_pos habsent] at hseen
    obtain ⟨s', -, hobserve⟩ := exists_observe_of_some hmet hfields (windowMillis_pos htimely)
    rw [hobserve, lastCommand?_of_unseen hseen, hseen]
    refine ⟨rfl, congrArg ([look key] :: ·) ?_⟩
    change ((l.sliding.map windowMillis).map (Command.expire key ·)).toList.map ([·]) = _
    cases l.sliding <;> rfl

end Host

end Remote

namespace Demo

open Remote

/-- The entry is read in its first hour, shortly before its deadline and after it. -/
theorem seventyMinutes_keepsTo :
    seventyMinutes.check = .ok () ∧ seventyMinutes.deadline (minute 0) = some (minute 70) ∧
      [minute 0, minute 30, minute 65, minute 80].Pairwise (· ≤ ·) ∧
      ∀ o ∈ Server.host.observations "first" [minute 30, minute 65, minute 80]
          (Server.host.run (minute 0) (write "first" "one" seventyMinutes) Server.fresh).2,
        o.KeepsTo "first" (minute 70) (some hour) := by
  have hdeadline : minute 70 ∈ seventyMinutes.deadline (minute 0) := rfl
  obtain ⟨hreads, -⟩ := Server.host.reads_of_written rfl hdeadline "first" "one"
  exact ⟨rfl, rfl, by decide, hreads (by decide) Server.fresh _ (by decide)⟩

/-- Two seconds before the epoch. -/
def eve : Instant := ⟨-2000000000, by decide⟩

/-- A millisecond before the epoch. -/
def lastMilli : Instant := ⟨-1000000, by decide⟩

/-- An entry with a window of an hour that ends a millisecond before the epoch. -/
def untilLastMilli : Lifetime := { absolute := some lastMilli, sliding := some hour }

/-- The first read, two seconds before the deadline, gives it an hour to live, and the second one
is told the value after the deadline. -/
theorem untilLastMilli_outlived :
    untilLastMilli.check = .ok () ∧ untilLastMilli.deadline eve = some lastMilli ∧
      untilLastMilli.IsTimelyInMillis eve ∧ eve ≤ minute 0 ∧ lastMilli ≤ minute 0 ∧
      ∃ first second : Observation,
        Server.host.observations "first" [eve, minute 0]
            (Server.host.run eve (write "first" "one" untilLastMilli) Server.fresh).2 =
          [first, second] ∧
        first.sent = [[look "first"], [.expire "first" 3600000]] ∧
        second.instant = minute 0 ∧ second.outcome = .ok (some "one") ∧
        ¬ first.KeepsTo "first" lastMilli (some hour) ∧
        ¬ second.KeepsTo "first" lastMilli (some hour) := by
  have hwindow : ∀ w ∈ (Held.ofWrite eve "one" untilLastMilli).windowMillis, 0 < w :=
    windowMillis_pos (by decide)
  obtain ⟨s, hfound, hrun⟩ :=
    Server.host.run_write_of_timely (l := untilLastMilli) Server.fresh eve "first" "one" rfl
  have hmet := congrFun hfound "first"
  rw [if_pos (by decide), Function.update_self] at hmet
  obtain ⟨s₁, hfound₁, hobserve₁⟩ := Host.exists_observe_of_some hmet rfl hwindow
  -- the hash is there still at the epoch, for it was given an hour
  have hmet₁ : Server.host.found s₁ (minute 0) "first" =
      some { (Held.ofWrite eve "one" untilLastMilli).hash with expiry := some 3598000 } := by
    rw [Server.host.found_later s₁ eve (minute 0) (by decide), hfound₁, lastCommand?_of_unseen rfl]
    change Option.filter _ (Function.update (Server.host.found s eve) "first" _ "first") = _
    rw [Function.update_self, hmet]
    rfl
  obtain ⟨s₂, -, hobserve₂⟩ :=
    Host.exists_observe_of_some (e := Held.ofWrite eve "one" untilLastMilli) hmet₁ rfl hwindow
  refine ⟨rfl, rfl, by decide, by decide, by decide, (Server.host.observe "first" eve s).1,
    (Server.host.observe "first" (minute 0) s₁).1, ?_, ?_⟩
  · rw [hrun, Host.observations, Host.observations, Host.observations, hobserve₁]
  rw [hobserve₁, hobserve₂, lastCommand?_of_unseen rfl, lastCommand?_of_unseen rfl]
  refine ⟨rfl, rfl, rfl, fun hfirst => ?_, fun hsecond => ?_⟩
  · have hcapped : eve.millis + 3600000 ≤ lastMilli.millis :=
      (hfirst.capped [.expire "first" 3600000] (.tail _ (.head _)) _ _ (.head _)).2.1
    exact absurd hcapped (by decide)
  · cases (hsecond.ended (by decide : lastMilli ≤ minute 0)).1

end Demo

end RequestCache
