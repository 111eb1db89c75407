/-
# Lifetimes rounded down

The store in memory counts nanoseconds.  The remote store rounds its deadline, its window and the
time down to whole milliseconds, and a write whose time to live is no whole millisecond is taken
for one that comes too late.  So there are writes that the one store keeps and the other one does
not: those whose deadline comes later in the millisecond in which they are made, and those whose
window is shorter than a millisecond (`Remote.write_rounded`).
-/
import RequestCache.Proofs.Crossing
import RequestCache.Proofs.Policies

namespace RequestCache

/-! ## When a write is kept -/

namespace Lifetime

/-- An entry that is written at the instant has its deadline still to come, if it has one. -/
def IsTimely (l : Lifetime) (now : Instant) : Prop := ∀ d ∈ l.deadline now, now < d

/-- The deadline is still to come when all is counted in milliseconds, and the window is a
millisecond or more. -/
def IsTimelyInMillis (l : Lifetime) (now : Instant) : Prop :=
  (∀ d ∈ l.deadline now, now.millis < d.millis) ∧ ∀ w ∈ l.sliding, nanosPerMilli ≤ w.nanos

instance (l : Lifetime) (now : Instant) : Decidable (l.IsTimely now) :=
  inferInstanceAs (Decidable (∀ d ∈ l.deadline now, now < d))

instance (l : Lifetime) (now : Instant) : Decidable (l.IsTimelyInMillis now) :=
  inferInstanceAs (Decidable (_ ∧ ∀ w ∈ l.sliding, nanosPerMilli ≤ w.nanos))

end Lifetime

lemma Instant.millis_mono {s t : Instant} (h : s ≤ t) : s.millis ≤ t.millis :=
  Int.ediv_le_ediv (by decide) h

lemma Instant.lt_of_millis_lt {s t : Instant} (h : s.millis < t.millis) : s < t := by
  refine Int.not_le.1 fun hle => ?_
  exact Int.not_le.2 h (Instant.millis_mono hle)

namespace Lifetime

variable {l : Lifetime} {now : Instant}

lemma IsTimelyInMillis.isTimely (h : l.IsTimelyInMillis now) : l.IsTimely now :=
  fun d hd => Instant.lt_of_millis_lt (h.1 d hd)

/-- What is lost by rounding down. -/
lemma isTimelyInMillis_iff (h : l.IsTimely now) :
    l.IsTimelyInMillis now ↔
      (∀ d ∈ l.deadline now, d.millis ≠ now.millis) ∧ ∀ w ∈ l.sliding, nanosPerMilli ≤ w.nanos := by
  refine and_congr_left fun _ => forall₂_congr fun d hd => ?_
  have hle : now.millis ≤ d.millis := Instant.millis_mono (Int.le_of_lt (h d hd))
  omega

end Lifetime

lemma Memory.get?_write_iff (m : Memory) (now : Instant) {l : Lifetime} (hl : l.check = .ok ())
    (key value : String) :
    ((m.write now key value l).2.get? key = some (Held.ofWrite now value l) ↔ l.IsTimely now) ∧
      (¬ l.IsTimely now → (m.write now key value l).2.get? key = none) := by
  rw [get?_write hl, if_pos rfl]
  have hlate : (l.deadline now).any (fun d => d ≤ now) = true ↔ ¬ l.IsTimely now := by
    rw [Option.any_eq_true, Lifetime.IsTimely]
    push Not
    refine exists_congr fun d => and_congr_right fun _ => ?_
    rw [decide_eq_true_eq]
    exact Int.not_lt.symm
  by_cases htimely : l.IsTimely now
  · have hnot := mt hlate.1 (not_not.2 htimely)
    rw [Held.fresh?, if_neg hnot]
    exact ⟨iff_of_true rfl htimely, fun h => absurd htimely h⟩
  · rw [Held.fresh?, if_pos (hlate.2 htimely)]
    exact ⟨iff_of_false (Option.some_ne_none _).symm htimely, fun _ => rfl⟩

namespace Remote

variable {σ : Type} {answer : (r : Request) → σ → r.Answer × σ} {l : Lifetime} {now : Instant}
  {key value : String}

/-- What a program sends when it is run, batch by batch. -/
def sent {α : Type} (answer : (r : Request) → σ → r.Answer × σ) (p : Client α) (s : σ) :
    List (List Command) :=
  (Program.asked (I := wire) answer p s).flatMap Request.batch

lemma windowMillis_pos_iff (w : Span) : 0 < windowMillis w ↔ nanosPerMilli ≤ w.nanos := by
  unfold windowMillis Span.millis nanosPerMilli maxSigned64
  omega

/-- The time to live of a write is not over exactly if the write is timely in milliseconds. -/
lemma timeToLive_pos_iff (value : String) :
    (∀ ttl ∈ (Held.ofWrite now value l).timeToLive, 0 < ttl) ↔ l.IsTimelyInMillis now := by
  constructor
  · intro htimely
    obtain ⟨hdeadline, hwindow⟩ := bounds_of_timeToLive htimely
    refine ⟨fun d hd => (hdeadline _ (Option.mem_map_of_mem _ hd)).1, fun w hw => ?_⟩
    exact (windowMillis_pos_iff w).1 (hwindow _ (Option.mem_map_of_mem _ hw)).1
  · rintro ⟨hdeadline, hwindow⟩
    refine timeToLive_pos (fun millis hmillis => ?_) fun millis hmillis => ?_
    · obtain ⟨d, hd, rfl⟩ := Option.mem_map.1 hmillis
      exact hdeadline d hd
    · obtain ⟨w, hw, rfl⟩ := Option.mem_map.1 hmillis
      exact (windowMillis_pos_iff w).2 (hwindow w hw)

/-- A write is skipped exactly if it is not timely in milliseconds. -/
lemma ite_late_eq {α : Type} (value : String) (late timely : α) :
    (if (Held.ofWrite now value l).timeToLive.any (· ≤ 0) then late else timely) =
      if l.IsTimelyInMillis now then timely else late := by
  have hlate : (Held.ofWrite now value l).timeToLive.any (· ≤ 0) = true ↔
      ¬ l.IsTimelyInMillis now := by
    rw [← timeToLive_pos_iff value, Option.any_eq_true]
    push Not
    exact exists_congr fun ttl => and_congr_right fun _ => by rw [decide_eq_true_eq]
  rw [if_congr hlate rfl rfl, ite_not]

lemma sent_put (e : Held) (s : σ) : sent answer (put key e) s = [Host.writeCommands key e] := by
  refine congrArg (Host.writeCommands key e :: ·) ?_
  change List.flatMap Request.batch (Program.asked (I := wire) answer _ _) = []
  cases (answer (.transact (Host.writeCommands key e)) s).1 <;> rfl

lemma sent_skip (s : σ) : sent answer (skip key) s = [[.delete key]] := by
  refine congrArg ([Command.delete key] :: ·) ?_
  change List.flatMap Request.batch (Program.asked (I := wire) answer _ _) = []
  cases (answer (.send (.delete key)) s).1 <;> rfl

/-- A write sends one batch of commands, whatever it is answered. -/
lemma sent_write (key value : String) (hl : l.check = .ok ())
    (hnow : ∀ s, (answer .now s).1 = now) (s : σ) :
    sent answer (write key value l) s =
      if l.IsTimelyInMillis now then [Host.writeCommands key (Held.ofWrite now value l)]
      else [[.delete key]] := by
  have hsent : sent answer (write key value l) s =
      sent answer (if (Held.ofWrite now value l).timeToLive.any (· ≤ 0) then skip key
        else put key (Held.ofWrite now value l)) (answer .now s).2 := by
    rw [write_eq key value hl, ← hnow s]
    rfl
  rw [hsent, ite_late_eq]
  split_ifs
  · exact sent_put _ _
  · exact sent_skip _

/-- Both stores are to write the same value with the same lifetime at the same instant.

* The store in memory keeps it exactly if its deadline is still to come, and otherwise it holds
  nothing under the key.
* The remote store sends it exactly if it is timely in milliseconds, and otherwise it deletes the
  key and sends nothing else.
* They decide alike, unless the deadline is still to come but in the millisecond of the write, or
  the window is shorter than a millisecond; and then it is the remote store that drops the write. -/
theorem write_rounded (hl : l.check = .ok ()) (hnow : ∀ s, (answer .now s).1 = now) (m : Memory)
    (key value : String) (s : σ) :
    ((m.write now key value l).2.get? key = some (Held.ofWrite now value l) ↔ l.IsTimely now) ∧
    (¬ l.IsTimely now → (m.write now key value l).2.get? key = none) ∧
    (sent answer (write key value l) s = [Host.writeCommands key (Held.ofWrite now value l)] ↔
      l.IsTimelyInMillis now) ∧
    (¬ l.IsTimelyInMillis now → sent answer (write key value l) s = [[.delete key]]) ∧
    (l.IsTimelyInMillis now → l.IsTimely now) ∧
    (((m.write now key value l).2.get? key = some (Held.ofWrite now value l) ↔
        sent answer (write key value l) s = [Host.writeCommands key (Held.ofWrite now value l)]) ↔
      (l.IsTimely now → (∀ d ∈ l.deadline now, d.millis ≠ now.millis) ∧
        ∀ w ∈ l.sliding, nanosPerMilli ≤ w.nanos)) := by
  obtain ⟨hkept, hdropped⟩ := m.get?_write_iff now hl key value
  have hsent := sent_write key value hl hnow s
  have hwritten : sent answer (write key value l) s =
      [Host.writeCommands key (Held.ofWrite now value l)] ↔ l.IsTimelyInMillis now := by
    rw [hsent]
    split_ifs with htimely
    · exact iff_of_true rfl htimely
    · refine iff_of_false (fun heq => ?_) htimely
      cases heq
  refine ⟨hkept, hdropped, hwritten, fun htimely => by rw [hsent, if_neg htimely],
    Lifetime.IsTimelyInMillis.isTimely, ?_⟩
  rw [hkept, hwritten]
  constructor
  · intro hsame htimely
    exact (Lifetime.isTimelyInMillis_iff htimely).1 (hsame.1 htimely)
  · intro hrounded
    exact ⟨fun htimely => (Lifetime.isTimelyInMillis_iff htimely).2 (hrounded htimely),
      Lifetime.IsTimelyInMillis.isTimely⟩

end Remote

namespace Demo

open Remote

/-- An entry with a window of an hour that ends after seventy minutes. -/
def seventyMinutes : Lifetime := { absolute := some (minute 70), sliding := some hour }

/-- Both stores keep it. -/
theorem seventyMinutes_kept :
    ((∅ : Memory).write (minute 0) "first" "one" seventyMinutes).2.get? "first" =
        some (Held.ofWrite (minute 0) "one" seventyMinutes) ∧
      sent (Server.host.answer (minute 0)) (write "first" "one" seventyMinutes) Server.fresh =
        [Host.writeCommands "first" (Held.ofWrite (minute 0) "one" seventyMinutes)] := by
  have hnow : ∀ s, (Server.host.answer (minute 0) .now s).1 = minute 0 := fun _ => rfl
  obtain ⟨hkept, -, hsent, -⟩ :=
    write_rounded (l := seventyMinutes) rfl hnow ∅ "first" "one" Server.fresh
  exact ⟨hkept.2 (by decide), hsent.2 (by decide)⟩

/-- An entry that ends as soon as it has not been read for a nanosecond. -/
def ephemeral : Lifetime := { sliding := some ⟨1, by decide⟩ }

/-- It is accepted and has no deadline, so the store in memory keeps it; the remote store sends
nothing but a deletion. -/
theorem ephemeral_dropped :
    ephemeral.check = .ok () ∧ ephemeral.deadline (minute 0) = none ∧
      ((∅ : Memory).write (minute 0) "first" "one" ephemeral).2.get? "first" =
        some (Held.ofWrite (minute 0) "one" ephemeral) ∧
      sent (Server.host.answer (minute 0)) (write "first" "one" ephemeral) Server.fresh =
        [[.delete "first"]] ∧
      ¬ sent (Server.host.answer (minute 0)) (write "first" "one" ephemeral) Server.fresh =
        [Host.writeCommands "first" (Held.ofWrite (minute 0) "one" ephemeral)] := by
  have hsent : sent (Server.host.answer (minute 0)) (write "first" "one" ephemeral) Server.fresh =
      [[.delete "first"]] :=
    (sent_write "first" "one" rfl (fun _ => rfl) Server.fresh).trans (if_neg (by decide))
  refine ⟨rfl, rfl, rfl, hsent, fun hwritten => ?_⟩
  cases hsent.symm.trans hwritten

end Demo

end RequestCache
