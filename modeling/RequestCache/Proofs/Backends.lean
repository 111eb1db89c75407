/-
# Both stores answer alike

The store in memory keeps the deadline, the window and the last use of an entry, and compares
when it is read.  The remote store leaves it to its server to drop an entry, and tells the server
a time to live, anew at every write and at every read that renews a window.  As long as all times
are whole milliseconds after the epoch nobody can tell which of the two it is that answers.

What connects them (`Agrees`) is that under each key the server has the hash of the entry that
lives in memory (`Held.hash`), and that its time to live is over exactly when the entry has ended
(`Held.isGone_hash`).  Everything else keeps this up: time that passes, and each call.
-/
import RequestCache.Proofs.Expiry
import RequestCache.Proofs.Host
import RequestCache.Proofs.Json.Numeral
import RequestCache.Rehearsal.RemoteScript

namespace RequestCache

/-! ## Whole milliseconds -/

/-- The instant is a whole number of milliseconds. -/
def Instant.IsWhole (t : Instant) : Prop := (nanosPerMilli : Int) ∣ t.nanos

/-- The span is a whole number of milliseconds. -/
def Span.IsWhole (d : Span) : Prop := nanosPerMilli ∣ d.nanos

instance (t : Instant) : Decidable t.IsWhole := inferInstanceAs (Decidable (_ ∣ _))

instance (d : Span) : Decidable d.IsWhole := inferInstanceAs (Decidable (_ ∣ _))

lemma Instant.IsWhole.nanos_eq {t : Instant} (h : t.IsWhole) : t.nanos = 1000000 * t.millis :=
  (Int.mul_ediv_cancel' h).symm

lemma Span.IsWhole.nanos_eq {d : Span} (h : d.IsWhole) : d.nanos = 1000000 * d.millis :=
  (Nat.mul_div_cancel' h).symm

/-- All parts of the lifetime are whole milliseconds. -/
structure Lifetime.IsWhole (l : Lifetime) : Prop where
  absolute : ∀ t ∈ l.absolute, t.IsWhole
  relative : ∀ d ∈ l.relative, d.IsWhole
  sliding : ∀ d ∈ l.sliding, d.IsWhole

lemma Lifetime.IsWhole.deadline {l : Lifetime} (hl : l.IsWhole) {now : Instant}
    (hnow : now.IsWhole) : ∀ d ∈ l.deadline now, d.IsWhole := by
  intro d hd
  cases hrelative : l.relative with
  | none =>
    rw [Lifetime.deadline, hrelative] at hd
    exact hl.absolute d hd
  | some span =>
    rw [Lifetime.deadline, hrelative] at hd
    rw [Instant.IsWhole, Instant.nanos_of_add? hd]
    exact Int.dvd_add hnow (Int.natCast_dvd_natCast.2 (hl.relative span hrelative))

lemma Lifetime.sliding_pos {l : Lifetime} (hl : l.check = .ok ()) :
    ∀ w ∈ l.sliding, 0 < w.nanos := by
  intro w hw
  have hne := (Lifetime.check_eq_ok_iff.1 hl).2
  refine Nat.pos_of_ne_zero fun hzero => ?_
  obtain ⟨nanos, hbounded⟩ := w
  cases hzero
  exact hne hw

namespace Remote

/-! ## The fields of a hash -/

lemma foldl_digits {cs : List Char} (h : ∀ c ∈ cs, c.isDigit = true) (start : Nat) :
    cs.foldl (fun (n : Int) c => 10 * n + (c.toNat - '0'.toNat)) start =
      (Nat.ofDigitChars 10 cs start : Int) := by
  induction cs generalizing start with
  | nil => rfl
  | cons c cs ih =>
    have hdigit : '0'.toNat ≤ c.toNat := by
      have hc := h c (by simp)
      simp only [Char.isDigit, Bool.and_eq_true, decide_eq_true_eq] at hc
      exact hc.1
    have hstart : (10 * start + (c.toNat - '0'.toNat) : Int) =
        ((10 * start + (c.toNat - '0'.toNat) : Nat) : Int) := by omega
    rw [List.foldl_cons, hstart, ih fun c' hc' => h c' (by simp [hc'])]
    rfl

/-- A number is read back from its field. -/
lemma fieldInt?_toString {n : Int} (hlow : -0x8000000000000000 ≤ n)
    (hhigh : n < 0x8000000000000000) : fieldInt? (toString n) = some n := by
  have hdigits : ∀ k, (Nat.toDigits 10 k).isEmpty = false ∧
      (Nat.toDigits 10 k).all Char.isDigit := by
    intro k
    have hwhole := Json.isWhole_toDigits k
    exact ⟨List.isEmpty_eq_false_iff.2 hwhole.ne_nil, List.all_eq_true.2 hwhole.digits⟩
  have hvalue : ∀ k : Nat,
      (Nat.toDigits 10 k).foldl (fun (n : Int) c => 10 * n + (c.toNat - '0'.toNat)) 0 = k := by
    intro k
    have hfold := foldl_digits (Json.isWhole_toDigits k).digits 0
    rw [Nat.ofDigitChars_ten_toDigits] at hfold
    exact hfold
  rcases Int.lt_or_le n 0 with hneg | hpos
  · obtain ⟨hne, hall⟩ := hdigits (-n).toNat
    simp only [fieldInt?, Json.toList_toString_of_neg hneg, hne, hall, hvalue]
    rw [Int.toNat_of_nonneg (by omega)]
    simp [hlow, hhigh]
  -- a number that is not negative begins with a digit, so no sign is taken off
  · obtain ⟨hne, hall⟩ := hdigits n.toNat
    have htext := Json.toList_toString_of_nonneg hpos
    have hread := hvalue n.toNat
    rw [Int.toNat_of_nonneg hpos] at hread
    cases hds : Nat.toDigits 10 n.toNat with
    | nil => simp [hds] at hne
    | cons c cs =>
      have hc : c.isDigit = true := (Json.isWhole_toDigits n.toNat).digits c (by simp [hds])
      have hminus : c ≠ '-' := fun h => absurd (h ▸ hc) (by decide)
      have hplus : c ≠ '+' := fun h => absurd (h ▸ hc) (by decide)
      rw [hds] at htext hread hall
      rw [fieldInt?, htext]
      simp only [List.foldl_cons, Int.mul_zero, Int.zero_add] at hread
      change cs.foldl (fun (n : Int) c => 10 * n + (c.toNat - 48)) (c.toNat - 48) = n at hread
      simp only [List.all_cons, Bool.and_eq_true] at hall
      simp [hminus, hplus, hall, hread, hlow, hhigh]

/-- A window is cut off only if it does not fit a signed word. -/
lemma windowMillis_cases (w : Span) :
    windowMillis w = w.millis ∧ w.millis ≤ maxSigned64 ∨
      windowMillis w = maxSigned64 ∧ maxSigned64 < w.millis := by
  unfold windowMillis
  omega

/-- The time to live is not over if the deadline is still to come and the window is not empty. -/
lemma timeToLive_pos {now : Int} {deadline window : Option Int}
    (hdeadline : ∀ d ∈ deadline, now < d) (hwindow : ∀ w ∈ window, 0 < w) :
    ∀ ttl ∈ timeToLive now deadline window, 0 < ttl := by
  intro ttl httl
  cases deadline with
  | none => exact hwindow ttl (by cases window <;> exact httl)
  | some d =>
    have hcoming := hdeadline d rfl
    cases window with
    | none =>
      cases httl
      omega
    | some w =>
      have hpos := hwindow w rfl
      cases httl
      omega

/-- The fields of an entry. -/
def entryFields (deadline window : Option Int) (value : String) : List (String × String) :=
  [(deadlineField, toString (deadline.getD absent)), (windowField, toString (window.getD absent)),
    (valueField, value)]

/-! ## What a read does -/

/-- The command that looks at a hash. -/
def look (key : String) : Command := .readFields key [deadlineField, windowField, valueField]

lemma look_isProper (key : String) : (look key).IsProper := List.cons_ne_nil _ _

/-- What a read commands when it has seen a deadline and a window. -/
def renewal? (key : String) (deadline window : Option Int) (now : Int) : Option Command :=
  if deadline.any (· ≤ now) then some (.delete key)
  else
    match window, timeToLive now deadline window with
    | some _, some ttl => some (.expire key ttl)
    | _, _ => none

/-- A command that deletes a hash or gives it some time to live. -/
inductive Renews (key : String) : Command → Prop
  | delete : Renews key (.delete key)
  | expire {ttl : Int} (hpos : 0 < ttl) (hfits : ttl ≤ maxSigned64) : Renews key (.expire key ttl)

lemma Renews.isProper {key : String} {c : Command} (h : Renews key c) : c.IsProper := by
  cases h with
  | delete => trivial
  | expire hpos hfits => exact ⟨hpos, hfits⟩

/-- With a proper window a read only sends what a server has no reason to refuse. -/
lemma renews_of_mem_renewal? {key : String} {deadline window : Option Int} {now : Int}
    (hwindow : ∀ w ∈ window, 0 < w ∧ w ≤ maxSigned64) :
    ∀ c ∈ renewal? key deadline window now, Renews key c := by
  intro c hc
  unfold renewal? at hc
  split_ifs at hc with hover
  · cases hc
    exact .delete
  · cases window with
    | none => cases hc
    | some w =>
      obtain ⟨hpos, hfits⟩ := hwindow w rfl
      cases deadline with
      | none =>
        cases hc
        exact .expire hpos hfits
      | some d =>
        have hcoming : now < d := by simpa using hover
        cases hc
        exact .expire (by omega) (by omega)

/-- How a read goes on when it has seen a deadline, a window and a value, and has been told the
time. -/
def settle (key : String) (deadline window : Option Int) (value : String) (now : Int) :
    Client (Except StoreFault (Option String)) :=
  match renewal? key deadline window now with
  | none => .done (.ok (some value))
  | some c => tell c >>= fun x =>
      .done (x.map fun _ => if deadline.any (· ≤ now) then none else some value)

/-- A read looks first, and what it has seen decides on how it goes on. -/
lemma exists_read_eq (key : String) :
    ∃ next, read key = .ask (I := wire) (.send (look key)) next ∧
      ∀ reply, next (.ok reply) =
        match entryOf reply with
        | .error e => .done (.error (.remote e))
        | .ok (_, _, none) => .done (.ok none)
        | .ok (deadline, window, some value) => .ask (I := wire) .now fun t : Instant =>
            settle key (unlessAbsent deadline) (unlessAbsent window) value t.millis := by
  refine ⟨_, rfl, fun reply => ?_⟩
  simp only [Program.bind, Except.bind]
  rcases entryOf reply with e | ⟨deadline, window, _ | value⟩
  · rfl
  · rfl
  refine congrArg (Program.ask (I := wire) .now) (funext fun (t : Instant) => ?_)
  generalize unlessAbsent deadline = deadline
  generalize unlessAbsent window = window
  change (if deadline.any (· ≤ t.millis) then _ else _) = _
  unfold settle renewal?
  split_ifs with hover
  · rfl
  · cases window with
    | none => rfl
    | some w =>
      cases httl : timeToLive t.millis deadline (some w) with
      | none => rfl
      | some ttl => rfl

end Remote

/-! ## The hash of an entry -/

namespace Held

open Remote (Hash)

/-- All times of the entry are whole milliseconds, its window is not empty, and it was used after
the epoch. -/
structure IsWhole (e : Held) : Prop where
  deadline : ∀ d ∈ e.deadline, d.IsWhole
  window : ∀ w ∈ e.window, w.IsWhole ∧ 0 < w.nanos
  lastAccess : e.lastAccess.IsWhole
  start : Instant.epoch ≤ e.lastAccess

/-- The deadline in milliseconds. -/
def deadlineMillis (e : Held) : Option Int := e.deadline.map Instant.millis

/-- The window in milliseconds, as far as a signed word reaches. -/
def windowMillis (e : Held) : Option Int := e.window.map Remote.windowMillis

/-- Every instant is a word of milliseconds. -/
lemma deadlineMillis_fits (e : Held) :
    ∀ d ∈ e.deadlineMillis, -0x8000000000000000 ≤ d ∧ d ≤ maxSigned64 := by
  intro millis hmillis
  obtain ⟨d, -, rfl⟩ := Option.mem_map.1 hmillis
  have hrange := d.inRange
  unfold Instant.millis nanosPerMilli maxSigned64
  omega

lemma windowMillis_fits (e : Held) : ∀ w ∈ e.windowMillis, 0 ≤ w ∧ w ≤ maxSigned64 := by
  intro millis hmillis
  obtain ⟨w, -, rfl⟩ := Option.mem_map.1 hmillis
  unfold Remote.windowMillis maxSigned64
  omega

/-- The time to live that the server was told when the entry was last used. -/
def timeToLive (e : Held) : Option Int :=
  Remote.timeToLive e.lastAccess.millis e.deadlineMillis e.windowMillis

/-- A time to live is a word, even if the clock shows an instant before the epoch. -/
lemma timeToLive_le (e : Held) : ∀ ttl ∈ e.timeToLive, ttl ≤ maxSigned64 := by
  intro ttl httl
  unfold timeToLive Remote.timeToLive at httl
  cases hd : e.deadlineMillis with
  | none =>
    cases hw : e.windowMillis with
    | none => simp [hd, hw] at httl
    | some w =>
      have hfits := (e.windowMillis_fits w hw).2
      simp only [hd, hw, Option.mem_def, Option.some.injEq] at httl
      omega
  | some d =>
    -- the calendar is shorter than all words taken together
    have hfits : d - e.lastAccess.millis ≤ maxSigned64 := by
      obtain ⟨deadline, -, rfl⟩ := Option.mem_map.1 hd
      have hend := deadline.inRange.2
      have hstart := e.lastAccess.inRange.1
      unfold Instant.millis nanosPerMilli maxSigned64
      omega
    cases hw : e.windowMillis with
    | none =>
      simp only [hd, hw, Option.mem_def, Option.some.injEq] at httl
      omega
    | some w =>
      simp only [hd, hw, Option.mem_def, Option.some.injEq] at httl
      omega

/-- The hash that a server keeps for the entry. -/
def hash (e : Held) : Hash where
  field? name := (Remote.entryFields e.deadlineMillis e.windowMillis e.value).lookup name
  expiry := e.timeToLive.map (e.lastAccess.millis + ·)

variable {e : Held} {now : Instant}

/-- The time to live is over once the deadline or the end of the window is reached. -/
lemma isGone_hash_eq_or (e : Held) (millis : Int) :
    e.hash.isGone millis = (e.deadlineMillis.any (fun d => d ≤ millis) ||
      e.windowMillis.any fun w => e.lastAccess.millis + w ≤ millis) := by
  unfold Hash.isGone hash timeToLive Remote.timeToLive
  cases e.deadlineMillis with
  | none =>
    cases e.windowMillis with
    | none => rfl
    | some w => rfl
  | some d =>
    cases e.windowMillis with
    | none => simp
    | some w =>
      rw [Bool.eq_iff_iff]
      simp only [Option.map_some, Option.any_some, Bool.or_eq_true, decide_eq_true_eq]
      omega

/-- The time to live is over exactly when the entry has ended.  A window that does not fit a
word reaches beyond the calendar, cut off or not. -/
theorem isGone_hash (he : e.IsWhole) (hnow : now.IsWhole) (hstart : Instant.epoch ≤ now) :
    e.hash.isGone now.millis = e.hasEnded now := by
  have hlast : e.lastAccess.nanos = 1000000 * e.lastAccess.millis := he.lastAccess.nanos_eq
  have hnanos : now.nanos = 1000000 * now.millis := hnow.nanos_eq
  have hend := now.inRange.2
  have hfirst : 0 ≤ e.lastAccess.nanos := he.start
  have hpast : 0 ≤ now.nanos := hstart
  have hdeadline : e.deadlineMillis.any (fun d => d ≤ now.millis) =
      e.deadline.any fun d => d ≤ now := by
    unfold deadlineMillis
    cases hd : e.deadline with
    | none => rfl
    | some d =>
      have hwhole := (he.deadline d hd).nanos_eq
      rw [Bool.eq_iff_iff]
      simp only [Option.map_some, Option.any_some, decide_eq_true_eq, Instant.le_iff]
      omega
  have hwindow : e.windowMillis.any (fun w => e.lastAccess.millis + w ≤ now.millis) =
      e.window.any fun w => w.nanos ≤ now.elapsedSince e.lastAccess := by
    unfold windowMillis Instant.elapsedSince
    cases hw : e.window with
    | none => rfl
    | some w =>
      have hwhole := (he.window w hw).1.nanos_eq
      have hpos := (he.window w hw).2
      rw [Bool.eq_iff_iff]
      simp only [Option.map_some, Option.any_some, decide_eq_true_eq]
      rcases Remote.windowMillis_cases w with ⟨hmillis, -⟩ | ⟨hmillis, hlong⟩
      · rw [hmillis]
        omega
      · -- a window like this outlasts the calendar, so neither side is ever true
        rw [hmillis]
        unfold maxSigned64 at hlong ⊢
        omega
  rw [isGone_hash_eq_or, hdeadline, hwindow, hasEnded]

/-- The numbers of an entry that lives can be told from one that is not there, and fit a word. -/
lemma IsWhole.bounds (he : e.IsWhole) (hnow : now.IsWhole) (hstart : Instant.epoch ≤ now)
    (hlives : e.hasEnded now = false) :
    (∀ d ∈ e.deadlineMillis, now.millis < d ∧ d ≤ maxSigned64) ∧
      ∀ w ∈ e.windowMillis, 0 < w ∧ w ≤ maxSigned64 := by
  have hnanos : now.nanos = 1000000 * now.millis := hnow.nanos_eq
  have hpast : 0 ≤ now.nanos := hstart
  simp only [hasEnded, Bool.or_eq_false_iff, Option.any_eq_false] at hlives
  unfold maxSigned64
  constructor
  · intro millis hmillis
    obtain ⟨d, hd, rfl⟩ := Option.mem_map.1 hmillis
    have hwhole := (he.deadline d hd).nanos_eq
    have hcoming := hlives.1 d hd
    have hend := d.inRange.2
    rw [decide_eq_false_iff_not, Instant.le_iff] at hcoming
    omega
  · intro millis hmillis
    obtain ⟨w, hw, rfl⟩ := Option.mem_map.1 hmillis
    have hwhole := (he.window w hw).1.nanos_eq
    have hpos := (he.window w hw).2
    rcases Remote.windowMillis_cases w with ⟨hcut, hfits⟩ | ⟨hcut, -⟩
    · rw [hcut]
      unfold maxSigned64 at hfits
      omega
    · rw [hcut]
      decide

lemma IsWhole.touch (he : e.IsWhole) (hnow : now.IsWhole) (hstart : Instant.epoch ≤ now) :
    (e.touch now).IsWhole := by
  unfold Held.touch
  split
  · exact ⟨he.deadline, he.window, hnow, hstart⟩
  · exact he

/-- A read sets the time to live anew. -/
lemma hash_touch (hw : e.windowMillis.isSome) :
    (e.touch now).hash = { e.hash with
      expiry := (Remote.timeToLive now.millis e.deadlineMillis e.windowMillis).map
        (now.millis + ·) } := by
  have hwindow : e.window.isSome := by simpa [windowMillis] using hw
  rw [Held.touch, if_pos hwindow]
  rfl

lemma hash_touch_of_none (hw : e.windowMillis = none) : (e.touch now).hash = e.hash := by
  have hwindow : e.window = none := by simpa [windowMillis] using hw
  simp [Held.touch, hwindow]

/-- The entry that a write makes, if it does not come too late. -/
def ofWrite (now : Instant) (value : String) (l : Lifetime) : Held :=
  ⟨value, l.deadline now, l.sliding, now⟩

variable {l : Lifetime} {value : String}

lemma isWhole_ofWrite (hl : l.check = .ok ()) (hwhole : l.IsWhole) (hnow : now.IsWhole)
    (hstart : Instant.epoch ≤ now) : (ofWrite now value l).IsWhole where
  deadline := hwhole.deadline hnow
  window w hw := ⟨hwhole.sliding w hw, Lifetime.sliding_pos hl w hw⟩
  lastAccess := hnow
  start := hstart

/-- A write comes too late when its entry has ended already. -/
lemma fresh?_eq_ofWrite (hl : l.check = .ok ()) :
    fresh? now value l =
      if (ofWrite now value l).hasEnded now then none else some (ofWrite now value l) := by
  have hwindow : l.sliding.any (fun w => w.nanos ≤ now.elapsedSince now) = false := by
    rw [Option.any_eq_false]
    intro w hw
    have hpos := Lifetime.sliding_pos hl w hw
    rw [decide_eq_false_iff_not, Instant.elapsedSince]
    omega
  rw [fresh?, hasEnded, ofWrite, hwindow, Bool.or_false]

lemma eq_ofWrite_of_fresh? (hl : l.check = .ok ()) (h : fresh? now value l = some e) :
    e = ofWrite now value l ∧ e.hasEnded now = false := by
  rw [fresh?_eq_ofWrite hl] at h
  cases hended : (ofWrite now value l).hasEnded now with
  | true => simp [hended] at h
  | false =>
    have heq : ofWrite now value l = e := by simpa [hended] using h
    rw [← heq]
    exact ⟨rfl, hended⟩

end Held

namespace Remote.Host

/-- Runs a program of the client at an instant. -/
def run {α : Type} (H : Host) (now : Instant) (p : Client α) (s : H.State) : α × H.State :=
  Program.run (I := wire) (H.answer now) p s

variable {H : Host} {now : Instant} {s : H.State}

/-! ## What the client's programs do -/

lemma run_now (H : Host) (now : Instant) (s : H.State) :
    ∃ s', H.found s' now = H.found s now ∧
      ∀ {α : Type} (f : Instant → Client α),
        H.run now (Remote.now >>= f) s = H.run now (f now) s' := by
  refine ⟨(H.answer now .now s).2, H.found_now now s, ?_⟩
  intro α f
  change H.run now (f (H.answer now .now s).1) _ = _
  rw [H.answer_now]

lemma run_log (H : Host) (now : Instant) (s : H.State) (event : Event) :
    ∃ s', H.found s' now = H.found s now ∧
      ∀ {α : Type} (f : Unit → Client α), H.run now (log event >>= f) s = H.run now (f ()) s' :=
  ⟨(H.answer now (.log event) s).2, H.found_log now event s, fun _ => rfl⟩

lemma run_send (now : Instant) (s : H.State) {c : Command} (hc : c.IsProper) :
    ∃ s', H.found s' now = c.effect now.millis (H.found s now) ∧
      ∀ {α : Type} (f : Except RemoteFault (List (Option String)) → Client α),
        H.run now (send c >>= f) s = H.run now (f (.ok (c.reply (H.found s now)))) s' := by
  refine ⟨(H.answer now (.send c) s).2, H.found_send now s c hc, ?_⟩
  intro α f
  change H.run now (f (H.answer now (.send c) s).1) _ = _
  rw [H.answer_send now s c hc]

lemma run_transact (now : Instant) (s : H.State) {cs : List Command} (hcs : ∀ c ∈ cs, c.IsProper) :
    ∃ s', H.found s' now = cs.foldl (fun hs c => c.effect now.millis hs) (H.found s now) ∧
      ∀ {α : Type} (f : Except RemoteFault Unit → Client α),
        H.run now (transact cs >>= f) s = H.run now (f (.ok ())) s' := by
  refine ⟨(H.answer now (.transact cs) s).2, H.found_transact now s cs hcs, ?_⟩
  intro α f
  change H.run now (f (H.answer now (.transact cs) s).1) _ = _
  rw [H.answer_transact now s cs hcs]

lemma run_tell (now : Instant) (s : H.State) {c : Command} (hc : c.IsProper) :
    ∃ s', H.found s' now = c.effect now.millis (H.found s now) ∧
      ∀ {α : Type} (f : Except StoreFault Unit → Client α),
        H.run now (tell c >>= f) s = H.run now (f (.ok ())) s' := by
  obtain ⟨s', hfound, hrun⟩ := H.run_send now s hc
  refine ⟨s', hfound, ?_⟩
  intro α f
  rw [tell, bind_assoc, hrun]
  rfl

lemma run_remove (now : Instant) (s : H.State) (key : String) :
    ∃ s', H.found s' now = Function.update (H.found s now) key none ∧
      H.run now (remove key) s = (.ok (), s') := by
  obtain ⟨s', hfound, hrun⟩ := H.run_tell now s (c := .delete key) trivial
  refine ⟨s', hfound, ?_⟩
  rw [remove, ← bind_pure (tell _), hrun]
  rfl

lemma unlessAbsent_getD (n : Option Int) :
    unlessAbsent (some (n.getD absent)) = unlessAbsent n := by
  cases n <;> rfl

lemma unlessAbsent_eq {n : Option Int} (h : ∀ k ∈ n, 0 ≤ k) : unlessAbsent n = n := by
  cases n with
  | none => rfl
  | some k =>
    have hpos := h k rfl
    have hne : k ≠ absent := by
      unfold absent
      omega
    simp [unlessAbsent, Option.filter, hne]

/-- A number that fits a word, or what stands for none, is read back. -/
lemma fieldOf_getD {n : Option Int} (h : ∀ k ∈ n, -0x8000000000000000 ≤ k ∧ k ≤ maxSigned64) :
    fieldOf (some (toString (n.getD absent))) = .ok (some (n.getD absent)) := by
  have hrange : -0x8000000000000000 ≤ n.getD absent ∧ n.getD absent < 0x8000000000000000 := by
    cases n with
    | none => decide
    | some k =>
      have hk := h k rfl
      unfold maxSigned64 at hk
      simp only [Option.getD_some]
      omega
  simp only [fieldOf, fieldInt?_toString hrange.1 hrange.2]

/-- What a server answers about the fields of an entry is read as it was written. -/
lemma entryOf_look {e : Held} {hs : Hashes} {key : String} {h : Hash} (hfound : hs key = some h)
    (hfields : h.field? = e.hash.field?) :
    entryOf ((look key).reply hs) =
      .ok (some (e.deadlineMillis.getD absent), some (e.windowMillis.getD absent),
        some e.value) := by
  have hreply : (look key).reply hs =
      [some (toString (e.deadlineMillis.getD absent)), some (toString (e.windowMillis.getD absent)),
        some e.value] := by
    simp only [look, Command.reply, List.map_cons, List.map_nil, hfound, Option.bind_some, hfields]
    rfl
  have hwindow : ∀ w ∈ e.windowMillis, -0x8000000000000000 ≤ w ∧ w ≤ maxSigned64 := by
    intro w hw
    have hfits := e.windowMillis_fits w hw
    omega
  rw [hreply, entryOf, fieldOf_getD e.deadlineMillis_fits, fieldOf_getD hwindow]
  rfl

/-- A read finds nothing if there is nothing, and changes nothing. -/
lemma run_read_of_none {key : String} (h : H.found s now key = none) :
    ∃ s', H.found s' now = H.found s now ∧ H.run now (read key) s = (.ok none, s') := by
  obtain ⟨s', hfound, hrun⟩ := H.run_send now s (look_isProper key)
  refine ⟨s', hfound, ?_⟩
  rw [read, ← look, hrun]
  simp only [look, Command.reply, h]
  rfl

/-- A read that has seen a deadline and a window goes on with one command, if with any. -/
lemma run_settle {key : String} {deadline window : Option Int} (now : Instant) (s : H.State)
    (value : String)
    (hproper : ∀ c ∈ renewal? key deadline window now.millis, c.IsProper) :
    ∃ s', H.found s' now = (renewal? key deadline window now.millis).elim (H.found s now)
        (fun c => c.effect now.millis (H.found s now)) ∧
      H.run now (settle key deadline window value now.millis) s =
        (.ok (if deadline.any (· ≤ now.millis) then none else some value), s') := by
  unfold settle
  cases hlast : renewal? key deadline window now.millis with
  | none =>
    have hcoming : deadline.any (· ≤ now.millis) ≠ true := by
      intro hover
      have hdelete : renewal? key deadline window now.millis = some (.delete key) := if_pos hover
      cases hlast.symm.trans hdelete
    exact ⟨s, rfl, by rw [if_neg hcoming]; rfl⟩
  | some c =>
    obtain ⟨s', hfound, hrun⟩ := H.run_tell now s (hproper c hlast)
    exact ⟨s', hfound, hrun _⟩

/-- A read of a hash that has the fields of an entry.  A deadline that is written like none is taken
for none. -/
lemma run_read_of_fields {key : String} {e : Held} {h : Hash} (hfound : H.found s now key = some h)
    (hfields : h.field? = e.hash.field?)
    (hproper : ∀ c ∈ renewal? key (unlessAbsent e.deadlineMillis) e.windowMillis now.millis,
      c.IsProper) :
    ∃ s', H.found s' now = (renewal? key (unlessAbsent e.deadlineMillis) e.windowMillis
          now.millis).elim (H.found s now) (fun c => c.effect now.millis (H.found s now)) ∧
      H.run now (read key) s =
        (.ok (if (unlessAbsent e.deadlineMillis).any (· ≤ now.millis) then none
          else some e.value), s') := by
  obtain ⟨next, hread, hnext⟩ := exists_read_eq key
  obtain ⟨s₁, hfound₁, hrun₁⟩ := H.run_send now s (look_isProper key)
  obtain ⟨s₂, hfound₂, hrun₂⟩ := H.run_now now s₁
  obtain ⟨s₃, hfound₃, hrun₃⟩ := H.run_settle now s₂ e.value hproper
  refine ⟨s₃, ?_, ?_⟩
  · rw [hfound₃, hfound₂, hfound₁]
    rfl
  · have hwindow : unlessAbsent e.windowMillis = e.windowMillis :=
      unlessAbsent_eq fun w hw => (e.windowMillis_fits w hw).1
    refine (congrArg (H.run now · s) hread).trans ((hrun₁ next).trans ?_)
    rw [hnext, entryOf_look hfound hfields]
    refine (hrun₂ fun t => settle key _ _ e.value t.millis).trans ?_
    rw [unlessAbsent_getD, unlessAbsent_getD, hwindow]
    exact hrun₃

/-- A read tells the value of an entry that lives, and renews it. -/
lemma run_read_of_some {key : String} {e : Held} (h : H.found s now key = some e.hash)
    (he : e.IsWhole) (hnow : now.IsWhole) (hstart : Instant.epoch ≤ now)
    (hlives : e.hasEnded now = false) :
    ∃ s', H.found s' now = Function.update (H.found s now) key (some (e.touch now).hash) ∧
      H.run now (read key) s = (.ok (some e.value), s') := by
  obtain ⟨hdeadline, hwindow⟩ := he.bounds hnow hstart hlives
  have hpast : 0 ≤ now.millis := Int.ediv_nonneg hstart (by decide)
  have hseen : unlessAbsent e.deadlineMillis = e.deadlineMillis := unlessAbsent_eq fun d hd => by
    have hcoming := (hdeadline d hd).1
    omega
  have hcoming : e.deadlineMillis.any (· ≤ now.millis) = false := by
    rw [Option.any_eq_false]
    intro d hd
    have hlater := (hdeadline d hd).1
    rw [decide_eq_false_iff_not]
    omega
  obtain ⟨s', hfound, hrun⟩ := H.run_read_of_fields h rfl fun c hc =>
    (renews_of_mem_renewal? hwindow c hc).isProper
  refine ⟨s', ?_, ?_⟩
  · rw [hfound, hseen]
    unfold renewal?
    rw [hcoming]
    cases hw : e.windowMillis with
    | none =>
      -- without a window a read changes nothing
      rw [e.hash_touch_of_none hw, ← h, Function.update_eq_self]
      rfl
    | some w =>
      obtain ⟨ttl, httl⟩ : ∃ ttl, timeToLive now.millis e.deadlineMillis (some w) = some ttl := by
        cases e.deadlineMillis <;> exact ⟨_, rfl⟩
      have htouch : (e.touch now).hash = _ := e.hash_touch (by rw [hw]; rfl)
      rw [htouch, hw, httl]
      change (Command.expire key ttl).effect now.millis (H.found s now) = _
      rw [Command.effect, h]
      rfl
  · rw [hrun, hseen, hcoming]
    rfl

/-- The commands of a write. -/
def writeCommands (key : String) (e : Held) : List Command :=
  [.delete key, .writeFields key (entryFields e.deadlineMillis e.windowMillis e.value)] ++
    e.timeToLive.toList.map fun millis => Command.expire key millis

/-- The commands of a write leave the hash of its entry, whatever was there. -/
lemma foldl_writeCommands (hs : Hashes) (key : String) (e : Held) :
    (writeCommands key e).foldl (fun hs c => c.effect e.lastAccess.millis hs) hs =
      Function.update hs key (some e.hash) := by
  have hfields : ((none : Option Hash).getD Hash.blank).put
      (entryFields e.deadlineMillis e.windowMillis e.value) = ⟨e.hash.field?, none⟩ := by
    simp [Hash.put, Hash.blank, Held.hash]
  unfold writeCommands
  cases httl : e.timeToLive with
  | none =>
    have hhash : e.hash = ⟨e.hash.field?, none⟩ := by simp [Held.hash, httl]
    rw [hhash]
    simp only [Option.toList_none, List.map_nil, List.append_nil, List.foldl_cons, List.foldl_nil,
      Command.effect, Function.update_self, hfields, Function.update_idem]
  | some ttl =>
    have hhash : e.hash = ⟨e.hash.field?, some (e.lastAccess.millis + ttl)⟩ := by
      simp [Held.hash, httl]
    rw [hhash]
    simp only [Option.toList_some, List.map_cons, List.map_nil, List.cons_append, List.nil_append,
      List.foldl_cons, List.foldl_nil, Command.effect, Function.update_self, hfields,
      Function.update_idem, Option.map_some]

lemma isProper_of_mem_writeCommands {key : String} {e : Held}
    (httl : ∀ ttl ∈ e.timeToLive, 0 < ttl ∧ ttl ≤ maxSigned64) :
    ∀ c ∈ writeCommands key e, c.IsProper := by
  intro c hc
  simp only [writeCommands, List.cons_append, List.nil_append, List.mem_cons, List.mem_map,
    Option.mem_toList] at hc
  rcases hc with rfl | rfl | ⟨ttl, hmem, rfl⟩
  · trivial
  · have hnames : [deadlineField, windowField, valueField].Nodup := by decide
    exact ⟨List.cons_ne_nil _ _, hnames⟩
  · exact httl ttl hmem

end Remote.Host

namespace Remote

/-! ## What a write does -/

/-- A write that has been told the time. -/
def put (key : String) (e : Held) : Client (Except StoreFault Unit) :=
  .ask (I := wire) (.transact (Host.writeCommands key e)) fun
    | .error fault => .done (.error (.remote fault))
    | .ok () => .ask (I := wire) (.log (.remoteWritten key e.timeToLive)) fun _ => .done (.ok ())

/-- A write that has been told the time and comes too late. -/
def skip (key : String) : Client (Except StoreFault Unit) :=
  .ask (I := wire) (.send (.delete key)) fun
    | .error fault => .done (.error (.remote fault))
    | .ok _ => .ask (I := wire) (.log (.remoteWriteSkipped key)) fun _ => .done (.ok ())

/-- A write asks for the time first, and is skipped if its time to live is over. -/
lemma write_eq (key value : String) {l : Lifetime} (hl : l.check = .ok ()) :
    write key value l = .ask (I := wire) .now fun now : Instant =>
      if (Held.ofWrite now value l).timeToLive.any (· ≤ 0) then skip key
      else put key (Held.ofWrite now value l) := by
  rw [write, hl]
  refine congrArg (Program.ask (I := wire) .now) (funext fun (now : Instant) => ?_)
  change (if (Held.ofWrite now value l).timeToLive.any (· ≤ 0) then _ else _) = _
  split_ifs
  · refine congrArg (Program.ask (I := wire) _) (funext fun reply => ?_)
    cases reply <;> rfl
  · refine congrArg (Program.ask (I := wire) _) (funext fun reply => ?_)
    cases reply <;> rfl

end Remote

namespace Remote.Host

variable {H : Host} {now : Instant} {s : H.State}

/-- A write with a lifetime that is refused sends nothing. -/
lemma run_write_of_error {key value : String} {l : Lifetime} {fault : StoreFault}
    (hl : l.check = .error fault) : H.run now (write key value l) s = (.error fault, s) := by
  rw [write, hl]
  rfl

/-- A write leaves the hash of its entry, or none if the time to live is over. -/
lemma run_write_of_check (now : Instant) (s : H.State) (key value : String) {l : Lifetime}
    (hl : l.check = .ok ()) :
    ∃ s', H.found s' now = Function.update (H.found s now) key
        (if (Held.ofWrite now value l).timeToLive.any (· ≤ 0) then none
          else some (Held.ofWrite now value l).hash) ∧
      H.run now (write key value l) s = (.ok (), s') := by
  obtain ⟨s₁, hfound₁, hrun₁⟩ := H.run_now now s
  have hrun : H.run now (write key value l) s =
      H.run now (if (Held.ofWrite now value l).timeToLive.any (· ≤ 0) then skip key
        else put key (Held.ofWrite now value l)) s₁ := by
    rw [write_eq key value hl]
    exact hrun₁ fun now => if (Held.ofWrite now value l).timeToLive.any (· ≤ 0) then skip key
      else put key (Held.ofWrite now value l)
  rw [hrun]
  split_ifs with hlate
  · obtain ⟨s₂, hfound₂, hrun₂⟩ := H.run_send now s₁ (c := .delete key) trivial
    obtain ⟨s₃, hfound₃, hrun₃⟩ := H.run_log now s₂ (.remoteWriteSkipped key)
    refine ⟨s₃, ?_, (hrun₂ _).trans (hrun₃ _)⟩
    rw [hfound₃, hfound₂, hfound₁]
    rfl
  · have hproper : ∀ c ∈ writeCommands key (Held.ofWrite now value l), c.IsProper := by
      refine isProper_of_mem_writeCommands fun ttl httl => ⟨?_, Held.timeToLive_le _ ttl httl⟩
      have hcoming : ¬ ttl ≤ 0 := fun hover =>
        hlate ((Option.any_eq_true _ _).2 ⟨ttl, httl, decide_eq_true hover⟩)
      omega
    obtain ⟨s₂, hfound₂, hrun₂⟩ := H.run_transact now s₁ hproper
    obtain ⟨s₃, hfound₃, hrun₃⟩ :=
      H.run_log now s₂ (.remoteWritten key (Held.ofWrite now value l).timeToLive)
    refine ⟨s₃, ?_, (hrun₂ _).trans (hrun₃ _)⟩
    rw [hfound₃, hfound₂, hfound₁]
    exact foldl_writeCommands _ key (Held.ofWrite now value l)

/-- A write leaves the hash of the fresh entry, or none if the write comes too late. -/
lemma run_write (s : H.State) (key value : String) {l : Lifetime} (hl : l.check = .ok ())
    (hwhole : l.IsWhole) (hnow : now.IsWhole) (hstart : Instant.epoch ≤ now) :
    ∃ s', H.found s' now =
        Function.update (H.found s now) key ((Held.fresh? now value l).map Held.hash) ∧
      H.run now (write key value l) s = (.ok (), s') := by
  have he : (Held.ofWrite now value l).IsWhole := Held.isWhole_ofWrite hl hwhole hnow hstart
  -- the client asks whether the time to live is over, and that is whether the entry has ended
  have hlate : (Held.ofWrite now value l).timeToLive.any (· ≤ 0) =
      (Held.ofWrite now value l).hasEnded now := by
    rw [← Held.isGone_hash he hnow hstart, Hash.isGone, Held.hash]
    cases (Held.ofWrite now value l).timeToLive with
    | none => rfl
    | some ttl =>
      have hsum : now.millis + ttl ≤ now.millis ↔ ttl ≤ 0 := by omega
      exact (decide_eq_decide.2 hsum).symm
  obtain ⟨s', hfound, hrun⟩ := H.run_write_of_check now s key value hl
  refine ⟨s', ?_, hrun⟩
  rw [hfound, hlate, Held.fresh?_eq_ofWrite hl]
  cases (Held.ofWrite now value l).hasEnded now <;> rfl

end Remote.Host

namespace Memory

variable {m : Memory} {now : Instant} {key : String}

lemma live?_write {value : String} {l : Lifetime} (hl : l.check = .ok ()) :
    (m.write now key value l).2.live? now =
      Function.update (m.live? now) key (Held.fresh? now value l) := by
  refine live?_eq_update ?_ ?_ ?_
  · rw [get?_write hl, if_pos rfl]
  · intro e he
    exact (Held.eq_ofWrite_of_fresh? hl he).2
  · intro other hother
    rw [get?_write hl, if_neg hother]

end Memory

/-! ## Calls -/

/-- A call of a store. -/
inductive Call where
  | read (key : String)
  | change (c : Change)

/-- What a call is answered with. -/
inductive Reply where
  | read (outcome : ReadOutcome)
  | change (outcome : ChangeOutcome)

/-- The lifetime of a call, if it writes, is whole milliseconds. -/
def Call.IsWhole : Call → Prop
  | read _ => True
  | change (.put _ _ l) => l.IsWhole
  | change (.delete _) => True

/-- The store in memory takes a call. -/
def Memory.serve (now : Instant) : Call → Memory → Reply × Memory
  | .read key, m => (.read (.ok (m.read now key).1), (m.read now key).2)
  | .change c, m => (.change (m.change now c).1, (m.change now c).2)

/-- The remote store takes a call. -/
def Remote.Host.serve (H : Host) (now : Instant) : Call → H.State → Reply × H.State
  | .read key, s => (.read (H.run now (Remote.read key) s).1, (H.run now (Remote.read key) s).2)
  | .change c, s =>
    (.change (H.run now (Rehearsal.changeCall c) s).1, (H.run now (Rehearsal.changeCall c) s).2)

/-- The answers of a store to calls at instants, one after the other. -/
def replies {σ : Type} (serve : Instant → Call → σ → Reply × σ) :
    List (Instant × Call) → σ → List Reply
  | [], _ => []
  | (now, c) :: calls, s => (serve now c s).1 :: replies serve calls (serve now c s).2

namespace Remote.Host

/-- The server keeps the hashes of what lives in memory. -/
structure Agrees (H : Host) (now : Instant) (s : H.State) (m : Memory) : Prop where
  found : ∀ key, H.found s now key = (m.live? now key).map Held.hash
  isWhole : ∀ key e, m.live? now key = some e → e.IsWhole

variable {H : Host} {now later : Instant} {s s' : H.State} {m m' : Memory}

/-- As time passes hashes go as entries end. -/
lemma Agrees.mono (h : H.Agrees now s m) (hle : now ≤ later) (hwhole : later.IsWhole)
    (hstart : Instant.epoch ≤ later) : H.Agrees later s m := by
  constructor
  · intro key
    rw [H.found_later s now later hle key, h.found key, ← Memory.filter_live? hle]
    cases hlive : m.live? now key with
    | none => rfl
    | some e =>
      have hgone := Held.isGone_hash (h.isWhole key e hlive) hwhole hstart
      cases hended : e.hasEnded later <;> simp [Option.filter, hgone, hended]
  · intro key e hlive
    rw [← Memory.filter_live? hle, Option.filter_eq_some_iff] at hlive
    exact h.isWhole key e hlive.1

/-- Both sides change what is under one key in the same way. -/
lemma Agrees.update (h : H.Agrees now s m) (key : String) (e? : Option Held)
    (hhost : H.found s' now = Function.update (H.found s now) key (e?.map Held.hash))
    (hmemory : m'.live? now = Function.update (m.live? now) key e?)
    (hwhole : ∀ e ∈ e?, e.IsWhole) : H.Agrees now s' m' := by
  constructor
  · intro other
    rw [hhost, hmemory]
    by_cases hkey : other = key
    · subst hkey
      rw [Function.update_self, Function.update_self]
    · rw [Function.update_of_ne hkey, Function.update_of_ne hkey]
      exact h.found other
  · intro other e he
    rw [hmemory] at he
    by_cases hkey : other = key
    · subst hkey
      rw [Function.update_self] at he
      exact hwhole e he
    · rw [Function.update_of_ne hkey] at he
      exact h.isWhole other e he

/-- Both stores read alike. -/
lemma Agrees.serve_read (h : H.Agrees now s m) (hnow : now.IsWhole)
    (hstart : Instant.epoch ≤ now) (key : String) :
    (H.serve now (.read key) s).1 = (Memory.serve now (.read key) m).1 ∧
      H.Agrees now (H.serve now (.read key) s).2 (Memory.serve now (.read key) m).2 := by
  have hfound := h.found key
  have hvalue : (m.read now key).1 = _ := Memory.read_value key
  have hlive : (m.read now key).2.live? now = _ := Memory.live?_read
  simp only [Host.serve, Memory.serve, hvalue]
  cases hkey : m.live? now key with
  | none =>
    rw [hkey] at hfound hlive
    obtain ⟨s₁, hsame, hrun⟩ := H.run_read_of_none hfound
    rw [hrun]
    refine ⟨rfl, h.update key none ?_ hlive (by simp)⟩
    rw [hsame, ← hfound, Function.update_eq_self]
  | some e =>
    rw [hkey] at hfound hlive
    have he := h.isWhole key e hkey
    have hlives := (Memory.live?_eq_some_iff.1 hkey).2
    obtain ⟨s₁, htouched, hrun⟩ := H.run_read_of_some hfound he hnow hstart hlives
    rw [hrun]
    refine ⟨rfl, h.update key (some (e.touch now)) htouched hlive ?_⟩
    rintro _ ⟨⟩
    exact he.touch hnow hstart

/-- Both stores write alike, or refuse alike to write. -/
lemma Agrees.serve_put (h : H.Agrees now s m) (hnow : now.IsWhole)
    (hstart : Instant.epoch ≤ now) (key value : String) {l : Lifetime} (hwhole : l.IsWhole) :
    (H.serve now (.change (.put key value l)) s).1 =
        (Memory.serve now (.change (.put key value l)) m).1 ∧
      H.Agrees now (H.serve now (.change (.put key value l)) s).2
        (Memory.serve now (.change (.put key value l)) m).2 := by
  cases hl : l.check with
  | error fault =>
    have hhost : H.serve now (.change (.put key value l)) s = (.change (.error fault), s) := by
      simp only [Host.serve, Rehearsal.changeCall, H.run_write_of_error hl]
    have hmemory : Memory.serve now (.change (.put key value l)) m =
        (.change (.error fault), m) := by
      simp only [Memory.serve, Memory.change, Memory.write, hl]
    rw [hhost, hmemory]
    exact ⟨rfl, h⟩
  | ok u =>
    obtain ⟨s₁, hwritten, hrun⟩ := H.run_write s key value hl hwhole hnow hstart
    have hhost : H.serve now (.change (.put key value l)) s = (.change (.ok ()), s₁) := by
      simp only [Host.serve, Rehearsal.changeCall, hrun]
    have hmemory : (Memory.serve now (.change (.put key value l)) m).1 = .change (.ok ()) :=
      congrArg Reply.change (Memory.write_of_check hl key value)
    rw [hhost, hmemory]
    refine ⟨rfl, h.update key (Held.fresh? now value l) hwritten (Memory.live?_write hl) ?_⟩
    intro e he
    rw [(Held.eq_ofWrite_of_fresh? hl he).1]
    exact Held.isWhole_ofWrite hl hwhole hnow hstart

/-- Both stores remove alike. -/
lemma Agrees.serve_delete (h : H.Agrees now s m) (key : String) :
    (H.serve now (.change (.delete key)) s).1 =
        (Memory.serve now (.change (.delete key)) m).1 ∧
      H.Agrees now (H.serve now (.change (.delete key)) s).2
        (Memory.serve now (.change (.delete key)) m).2 := by
  obtain ⟨s₁, hremoved, hrun⟩ := H.run_remove now s key
  have hhost : H.serve now (.change (.delete key)) s = (.change (.ok ()), s₁) := by
    simp only [Host.serve, Rehearsal.changeCall, hrun]
  rw [hhost]
  exact ⟨rfl, h.update key none hremoved Memory.live?_erase (by simp)⟩

/-- Both stores answer a call alike, and agree after it. -/
theorem Agrees.serve (h : H.Agrees now s m) (hnow : now.IsWhole) (hstart : Instant.epoch ≤ now)
    {c : Call} (hc : c.IsWhole) :
    (H.serve now c s).1 = (Memory.serve now c m).1 ∧
      H.Agrees now (H.serve now c s).2 (Memory.serve now c m).2 := by
  match c with
  | .read key => exact h.serve_read hnow hstart key
  | .change (.put key value l) => exact h.serve_put hnow hstart key value hc
  | .change (.delete key) => exact h.serve_delete key

/-- Stores that agree answer all calls to come alike. -/
theorem Agrees.replies (h : H.Agrees now s m) {calls : List (Instant × Call)}
    (hordered : (now :: calls.map Prod.fst).Pairwise (· ≤ ·))
    (hwhole : ∀ c ∈ calls, c.1.IsWhole ∧ Instant.epoch ≤ c.1 ∧ c.2.IsWhole) :
    replies H.serve calls s = replies Memory.serve calls m := by
  induction calls generalizing now s m with
  | nil => rfl
  | cons p calls ih =>
    obtain ⟨time, c⟩ := p
    obtain ⟨htime, hstart, hc⟩ := hwhole (time, c) (by simp)
    rw [List.map_cons, List.pairwise_cons] at hordered
    have hlater := h.mono (hordered.1 time (by simp)) htime hstart
    obtain ⟨hreply, hagrees⟩ := hlater.serve htime hstart hc
    rw [RequestCache.replies, RequestCache.replies, hreply,
      ih hagrees hordered.2 fun c hc => hwhole c (by simp [hc])]

/-- The remote store and the store in memory answer all calls alike, value, absence or refusal,
if all times are whole milliseconds and the clock does not go back and starts after the epoch. -/
theorem replies_eq {calls : List (Instant × Call)}
    (hempty : ∀ key, H.found s Instant.epoch key = none)
    (hordered : (calls.map Prod.fst).Pairwise (· ≤ ·))
    (hwhole : ∀ c ∈ calls, c.1.IsWhole ∧ Instant.epoch ≤ c.1 ∧ c.2.IsWhole) :
    RequestCache.replies H.serve calls s = RequestCache.replies Memory.serve calls ∅ := by
  have hagrees : H.Agrees Instant.epoch s ∅ := by
    constructor
    · intro key
      exact hempty key
    · intro key e he
      cases he
  refine hagrees.replies (List.pairwise_cons.2 ⟨?_, hordered⟩) hwhole
  intro time htime
  obtain ⟨c, hc, rfl⟩ := List.mem_map.1 htime
  exact (hwhole c hc).2.1

end Remote.Host

namespace Demo

/-- A value with a window of an hour that ends after seventy minutes is written, a write without
a lifetime is refused, and the value is read until and after its end. -/
def session : List (Instant × Call) :=
  [(minute 0, .change (.put "first" "one"
      { absolute := some (minute 70), sliding := some hour })),
    (minute 0, .change (.put "second" "two" { sliding := some Span.zero })),
    (minute 40, .read "first"), (minute 69, .read "first"), (minute 69, .read "second"),
    (minute 70, .read "first"), (minute 71, .change (.delete "first"))]

/-- The remote store with the server answers as the store in memory does. -/
theorem replies_session :
    replies Remote.Server.host.serve session Remote.Server.fresh =
      [.change (.ok ()), .change (.error (.rejected "sliding expiration must be positive")),
        .read (.ok (some "one")), .read (.ok (some "one")), .read (.ok none), .read (.ok none),
        .change (.ok ())] := by
  have hempty : ∀ key, Remote.Server.host.found Remote.Server.fresh Instant.epoch key = none :=
    fun _ => rfl
  have hordered : (session.map Prod.fst).Pairwise (· ≤ ·) := by decide
  have hwhole : ∀ c ∈ session, c.1.IsWhole ∧ Instant.epoch ≤ c.1 ∧ c.2.IsWhole := by
    intro c hc
    simp only [session, List.mem_cons, List.not_mem_nil, or_false] at hc
    rcases hc with rfl | rfl | rfl | rfl | rfl | rfl | rfl
    · refine ⟨by decide, by decide, ?_, by simp, ?_⟩
      · rintro _ ⟨⟩
        decide
      · rintro _ ⟨⟩
        decide
    · refine ⟨by decide, by decide, by simp, by simp, ?_⟩
      rintro _ ⟨⟩
      decide
    all_goals exact ⟨by decide, by decide, trivial⟩
  rw [Remote.Host.replies_eq hempty hordered hwhole]
  rfl

end Demo

end RequestCache
