/-
# A read across a write, on the remote store

A read on the remote store is two commands: it looks at the hash, and then it deletes the hash or
renews its time to live, as what it has seen demands.  A write is one transaction, and it may run
between the two.  Then the second command hits a hash that it does not know: it deletes the new
value, or it gives it the time to live of the old one.

In every other order the write stands as it was made: its fields, and the time to live that its
own lifetime demands.  So a write is damaged exactly if the second command of the read comes after
it while the first came before, and is not by chance what the new hash has anyway
(`Crossing.Reaches.stands_iff`).

The two clients share one server and one clock, and each request is one step.  Up to the first
request of the write time passes as it likes; after it the clock stands still, because how long
the hash has left is compared with what the lifetime demands.
-/
import RequestCache.Proofs.Backends

namespace RequestCache.Remote

/-! ## Two clients of one server -/

/-- Who sends. -/
inductive Party where
  | reader
  | writer

/-- The commands that are sent with a request, if there are any. -/
def Request.batch : Request → List (List Command)
  | send c => [[c]]
  | transact cs => [cs]
  | now => []
  | log _ => []

/-- The commands that a program sends next. -/
def batches {α : Type} : Client α → List (List Command)
  | .done _ => []
  | .ask r _ => Request.batch r

/-- Answers the next request of a program. -/
def Host.step {α : Type} (H : Host) (now : Instant) : Client α → H.State → Client α × H.State
  | .done a, s => (.done a, s)
  | .ask r next, s => (next (H.answer now r s).1, (H.answer now r s).2)

/-- A read and a write on their way to one server. -/
structure Crossing (H : Host) where
  clock : Instant
  server : H.State
  reading : Client (Except StoreFault (Option String))
  writing : Client (Except StoreFault Unit)
  /-- What the server was sent, the latest first. -/
  sent : List (Party × List Command)

namespace Crossing

variable {H : Host}

/-- The next request of the read is answered. -/
def read (t : Crossing H) : Crossing H :=
  { t with
    server := (H.step t.clock t.reading t.server).2
    reading := (H.step t.clock t.reading t.server).1
    sent := (batches t.reading).map (Party.reader, ·) ++ t.sent }

/-- The next request of the write is answered. -/
def write (t : Crossing H) : Crossing H :=
  { t with
    server := (H.step t.clock t.writing t.server).2
    writing := (H.step t.clock t.writing t.server).1
    sent := (batches t.writing).map (Party.writer, ·) ++ t.sent }

/-- One of the parties that may takes a step, or time passes. -/
inductive Step (may : Party → Prop) : Crossing H → Crossing H → Prop
  | read {t : Crossing H} (h : may .reader) : Step may t t.read
  | write {t : Crossing H} (h : may .writer) : Step may t t.write
  | tick {t : Crossing H} {later : Instant} (h : t.clock ≤ later) :
    Step may t { t with clock := later }

/-- The states that come after others. -/
def Reaches (may : Party → Prop) : Crossing H → Crossing H → Prop :=
  Relation.ReflTransGen (Step may)

/-- Neither has begun. -/
def start (now : Instant) (s : H.State) (key value : String) (l : Lifetime) : Crossing H :=
  ⟨now, s, Remote.read key, Remote.write key value l, []⟩

/-- What can be found under a key. -/
def found (t : Crossing H) (key : String) : Option Hash := H.found t.server t.clock key

/-- The read has looked, then came the write, and then the read has sent another command. -/
def CrossedBy (t : Crossing H) (c : Command) : Prop :=
  ∃ look written, t.sent = [(.reader, [c]), (.writer, written), (.reader, look)]

end Crossing

/-! ## The commands of a read -/

/-- A window that the hash has is not empty. -/
def Hash.IsSound (h : Hash) : Prop :=
  ∀ text ∈ h.field? windowField, ∀ w, fieldInt? text = some w → w ≠ absent → 0 < w

/-- A program that sends one command more at most, one of some kind if it is told no other time
than these. -/
inductive Trailing {α : Type} (times : Instant → Prop) (kind : Command → Prop) : Client α → Prop
  | done (a : α) : Trailing times kind (.done a)
  | now {next : Instant → Client α} (h : ∀ t, times t → Trailing times kind (next t)) :
    Trailing times kind (.ask (I := wire) .now next)
  | last {c : Command} {next : Except RemoteFault (List (Option String)) → Client α}
      (hc : kind c) (h : ∀ reply, ∃ a, next reply = .done a) :
    Trailing times kind (.ask (I := wire) (.send c) next)

/-- What is told last may be anything of the kind. -/
lemma Trailing.tell {α : Type} {times : Instant → Prop} {kind : Command → Prop} {c : Command}
    (hc : kind c) (f : Except StoreFault Unit → α) :
    Trailing times kind (Remote.tell c >>= fun x => pure (f x)) := by
  refine .last hc fun reply => ?_
  cases reply with
  | ok _ => exact ⟨_, rfl⟩
  | error _ => exact ⟨_, rfl⟩

/-- A read that has seen a hash sends the command that this demands, if it sends another one. -/
lemma Trailing.settle {key : String} {times : Instant → Prop} {kind : Command → Prop}
    {deadline window : Option Int} {t : Instant}
    (hkind : ∀ c ∈ renewal? key deadline window t.millis, kind c) (value : String) :
    Trailing times kind (Remote.settle key deadline window value t.millis) := by
  unfold Remote.settle
  cases hlast : renewal? key deadline window t.millis with
  | none => exact .done _
  | some c => exact .tell (hkind c hlast) _

/-- A read looks first, and what it has seen decides on what it commands. -/
lemma exists_read_trailing (key : String) :
    ∃ next, read key = .ask (I := wire) (.send (look key)) next ∧
      ∀ (times : Instant → Prop) (kind : Command → Prop) reply,
        (∀ deadline window value, entryOf reply = .ok (deadline, window, some value) →
          ∀ t, times t → ∀ c ∈ renewal? key (unlessAbsent deadline) (unlessAbsent window) t.millis,
            kind c) →
        Trailing times kind (next (.ok reply)) := by
  obtain ⟨next, hread, hnext⟩ := exists_read_eq key
  refine ⟨next, hread, fun times kind reply hkind => ?_⟩
  rw [hnext]
  rcases hentry : entryOf reply with e | ⟨deadline, window, _ | value⟩
  · exact .done _
  · exact .done _
  · exact .now fun t ht => .settle (hkind deadline window value hentry t ht) value

lemma le_of_fieldInt? {text : String} {n : Int} (h : fieldInt? text = some n) :
    n ≤ maxSigned64 := by
  unfold fieldInt? at h
  split at h
  simp only [Option.ite_none_left_eq_some, Option.ite_none_right_eq_some, Option.some.injEq] at h
  obtain ⟨-, ⟨-, hhigh⟩, rfl⟩ := h
  unfold maxSigned64
  omega

lemma exists_of_fieldOf {field? : Option String} {n : Int} (h : fieldOf field? = .ok (some n)) :
    ∃ text ∈ field?, fieldInt? text = some n := by
  cases field? with
  | none => cases h
  | some text =>
    refine ⟨text, rfl, ?_⟩
    unfold fieldOf at h
    dsimp only at h
    cases hn : fieldInt? text with
    | none =>
      rw [hn] at h
      cases h
    | some n =>
      rw [hn] at h
      cases h
      rfl

lemma fieldOf_of_entryOf {first second third : Option String} {deadline window : Option Int}
    {value : Option String} (h : entryOf [first, second, third] = .ok (deadline, window, value)) :
    fieldOf second = .ok window := by
  rw [entryOf] at h
  cases hfirst : fieldOf first with
  | error e =>
    rw [hfirst] at h
    cases h
  | ok d =>
    cases hsecond : fieldOf second with
    | error e =>
      rw [hfirst, hsecond] at h
      cases h
    | ok w =>
      rw [hfirst, hsecond] at h
      cases h
      rfl

/-- The window that a read sees, if what it finds is sound, is no empty one. -/
lemma window_of_entryOf {key : String} {hs : Hashes} (hsound : ∀ h ∈ hs key, h.IsSound)
    {deadline window : Option Int} {value : Option String}
    (hentry : entryOf ((look key).reply hs) = .ok (deadline, window, value)) :
    ∀ w ∈ unlessAbsent window, 0 < w ∧ w ≤ maxSigned64 := by
  have hfield : fieldOf ((hs key).bind (·.field? windowField)) = .ok window :=
    fieldOf_of_entryOf hentry
  intro w hw
  obtain ⟨rfl, hne⟩ := Option.filter_eq_some_iff.1 hw
  obtain ⟨text, htext, hint⟩ := exists_of_fieldOf hfield
  obtain ⟨h, hfound, htext⟩ := Option.bind_eq_some_iff.1 htext
  exact ⟨hsound h hfound text htext w hint (by simpa using hne), le_of_fieldInt? hint⟩

/-! ## The commands of a write -/

/-- A write asks for the time first, and is not skipped if its time to live is not over. -/
lemma exists_write_eq (key value : String) {l : Lifetime} (hl : l.check = .ok ()) :
    ∃ next, write key value l = .ask (I := wire) .now next ∧
      ∀ now, (∀ ttl ∈ (Held.ofWrite now value l).timeToLive, 0 < ttl) →
        next now = put key (Held.ofWrite now value l) := by
  refine ⟨_, write_eq key value hl, fun now htimely => if_neg fun hlate => ?_⟩
  obtain ⟨ttl, httl, hover⟩ := (Option.any_eq_true _ _).1 hlate
  exact Int.not_lt.2 (of_decide_eq_true hover) (htimely ttl httl)

section Written

variable {e : Held} {key : String}

/-- An entry with time to live has numbers that are told from none, and that fit a word. -/
lemma bounds_of_timeToLive (htimely : ∀ ttl ∈ e.timeToLive, 0 < ttl) :
    (∀ d ∈ e.deadlineMillis, e.lastAccess.millis < d ∧ d ≤ maxSigned64) ∧
      ∀ w ∈ e.windowMillis, 0 < w ∧ w ≤ maxSigned64 := by
  unfold Held.timeToLive timeToLive at htimely
  constructor
  · intro d hd
    refine ⟨?_, (e.deadlineMillis_fits d hd).2⟩
    rw [Option.mem_def.1 hd] at htimely
    cases hw : e.windowMillis with
    | none =>
      have hpos := htimely (d - e.lastAccess.millis) (by rw [hw]; rfl)
      omega
    | some w =>
      have hpos := htimely (min (d - e.lastAccess.millis) w) (by rw [hw]; rfl)
      omega
  · intro w hw
    refine ⟨?_, (e.windowMillis_fits w hw).2⟩
    rw [Option.mem_def.1 hw] at htimely
    cases hd : e.deadlineMillis with
    | none => exact htimely w (by rw [hd]; rfl)
    | some d =>
      have hpos := htimely (min (d - e.lastAccess.millis) w) (by rw [hd]; rfl)
      omega

/-- The entry has the time to live that the command sets. -/
def Repeats (key : String) (e : Held) (c : Command) : Prop :=
  ∃ ttl ∈ e.timeToLive, c = .expire key ttl

/-- A read that sees the new entry gives it the time to live that it has, if anything. -/
lemma repeats_of_mem_renewal? (htimely : ∀ ttl ∈ e.timeToLive, 0 < ttl) :
    ∀ c ∈ renewal? key e.deadlineMillis e.windowMillis e.lastAccess.millis, Repeats key e c := by
  intro c hc
  obtain ⟨hdeadline, -⟩ := bounds_of_timeToLive htimely
  have hcoming : e.deadlineMillis.any (· ≤ e.lastAccess.millis) = false := by
    rw [Option.any_eq_false]
    intro d hd
    have hlt := (hdeadline d hd).1
    rw [decide_eq_false_iff_not]
    omega
  have hsame : timeToLive e.lastAccess.millis e.deadlineMillis e.windowMillis = e.timeToLive := rfl
  unfold renewal? at hc
  rw [hcoming, if_neg Bool.false_ne_true, hsame] at hc
  cases hw : e.windowMillis with
  | none => simp [hw] at hc
  | some w =>
    cases httl : e.timeToLive with
    | none => simp [hw, httl] at hc
    | some ttl =>
      refine ⟨ttl, httl, ?_⟩
      simpa [hw, httl, eq_comm] using hc

lemma repeats_iff {ttl : Int} :
    Repeats key e (.expire key ttl) ↔
      { e.hash with expiry := some (e.lastAccess.millis + ttl) } = e.hash := by
  constructor
  · rintro ⟨ttl', httl, hc⟩
    cases hc
    simp [Held.hash, Option.mem_def.1 httl]
  · intro h
    have hexpiry : some (e.lastAccess.millis + ttl) = e.timeToLive.map (e.lastAccess.millis + ·) :=
      congrArg Hash.expiry h
    obtain ⟨ttl', httl, heq⟩ := Option.map_eq_some_iff.1 hexpiry.symm
    obtain rfl : ttl' = ttl := by omega
    exact ⟨ttl', httl, rfl⟩

lemma not_repeats_delete : ¬ Repeats key e (.delete key) := by
  rintro ⟨ttl, -, hc⟩
  cases hc

/-- The time to live that the entry has changes nothing. -/
lemma Repeats.effect {c : Command} (h : Repeats key e c) {hs : Hashes}
    (hfound : hs key = some e.hash) : c.effect e.lastAccess.millis hs key = some e.hash := by
  obtain ⟨ttl, httl, rfl⟩ := id h
  rw [Command.effect, Function.update_self, hfound]
  exact congrArg some (repeats_iff.1 h)

lemma Repeats.renews {c : Command} (h : Repeats key e c)
    (htimely : ∀ ttl ∈ e.timeToLive, 0 < ttl) : Renews key c := by
  obtain ⟨ttl, httl, rfl⟩ := h
  exact .expire (htimely ttl httl) (e.timeToLive_le ttl httl)

/-- What a write leaves is sound. -/
lemma isSound_hash (htimely : ∀ ttl ∈ e.timeToLive, 0 < ttl) : e.hash.IsSound := by
  obtain ⟨-, hwindow⟩ := bounds_of_timeToLive htimely
  intro text htext w hw hne
  have htext' : toString (e.windowMillis.getD absent) = text := Option.some.inj htext
  subst htext'
  cases hwm : e.windowMillis with
  | none =>
    rw [hwm, Option.getD_none, fieldInt?_toString (by decide) (by decide)] at hw
    exact absurd (Option.some.inj hw).symm hne
  | some w' =>
    obtain ⟨hpos, hfits⟩ := hwindow w' hwm
    unfold maxSigned64 at hfits
    rw [hwm, Option.getD_some, fieldInt?_toString (by omega) (by omega)] at hw
    cases hw
    exact hpos

end Written

/-! ## Steps -/

/-- The first step of a read looks. -/
lemma step_read (H : Host) (now : Instant) (s : H.State) (key : String) :
    batches (read key) = [[look key]] ∧
      H.found (H.step now (read key) s).2 now = H.found s now ∧
      ∀ (times : Instant → Prop) (kind : Command → Prop),
        (∀ deadline window value,
          entryOf ((look key).reply (H.found s now)) = .ok (deadline, window, some value) →
          ∀ t, times t → ∀ c ∈ renewal? key (unlessAbsent deadline) (unlessAbsent window) t.millis,
            kind c) →
        Trailing times kind (H.step now (read key) s).1 := by
  obtain ⟨next, hread, hnext⟩ := exists_read_trailing key
  rw [hread]
  refine ⟨rfl, H.found_send now s (look key) (look_isProper key), fun times kind hkind => ?_⟩
  change Trailing times kind (next (H.answer now (.send (look key)) s).1)
  rw [H.answer_send now s (look key) (look_isProper key)]
  exact hnext times kind _ hkind

/-- A program with one command left sends it, or it sends nothing. -/
lemma Trailing.step {H : Host} {α : Type} {times : Instant → Prop} {kind : Command → Prop}
    {p : Client α} (h : Trailing times kind p) (now : Instant) (s : H.State) (hnow : times now)
    (hproper : ∀ c, kind c → c.IsProper) :
    batches p = [] ∧ Trailing times kind (H.step now p s).1 ∧
        H.found (H.step now p s).2 now = H.found s now ∨
      ∃ c, kind c ∧ batches p = [[c]] ∧ (∃ a, (H.step now p s).1 = .done a) ∧
        H.found (H.step now p s).2 now = c.effect now.millis (H.found s now) := by
  cases h with
  | done a => exact .inl ⟨rfl, .done a, rfl⟩
  | @now next h =>
    refine .inl ⟨rfl, ?_, H.found_now now s⟩
    change Trailing times kind (next (H.answer now .now s).1)
    rw [H.answer_now]
    exact h now hnow
  | @last c next hc h => exact .inr ⟨c, hc, rfl, h _, H.found_send now s c (hproper c hc)⟩

namespace Crossing

variable {H : Host} {key value : String} {l : Lifetime} {e : Held} {t t' : Crossing H}

/-- How far the read has come while nothing was written: it has not looked yet, it has looked, or
it has sent another command. -/
inductive Ahead (key : String) : Client (Except StoreFault (Option String)) →
    List (Party × List Command) → Option Hash → Prop
  | waiting {hash? : Option Hash} (hsound : ∀ h ∈ hash?, h.IsSound) :
    Ahead key (Remote.read key) [] hash?
  | looked {p : Client (Except StoreFault (Option String))} {look : List Command}
      {hash? : Option Hash} (h : Trailing (fun _ => True) (Renews key) p) :
    Ahead key p [(.reader, look)] hash?
  | finished {a : Except StoreFault (Option String)} {c look : List Command} {hash? : Option Hash} :
    Ahead key (.done a) [(.reader, c), (.reader, look)] hash?

/-- How far the read has come after an entry was written: it has not looked yet, it has looked at
the entry, it had looked before, it is over, or it has sent another command after the write while
it had looked before. -/
inductive Behind (key : String) (e : Held) : Client (Except StoreFault (Option String)) →
    List (Party × List Command) → Option Hash → Prop
  | waiting {written : List Command} :
    Behind key e (Remote.read key) [(.writer, written)] (some e.hash)
  | looked {p : Client (Except StoreFault (Option String))} {look written : List Command}
      (h : Trailing (· = e.lastAccess) (Repeats key e) p) :
    Behind key e p [(.reader, look), (.writer, written)] (some e.hash)
  | crossing {p : Client (Except StoreFault (Option String))} {look written : List Command}
      (h : Trailing (fun _ => True) (Renews key) p) :
    Behind key e p [(.writer, written), (.reader, look)] (some e.hash)
  | finished {a : Except StoreFault (Option String)} {sent : List (Party × List Command)}
      (h : ∀ c look written, sent ≠ [(.reader, c), (.writer, written), (.reader, look)]) :
    Behind key e (.done a) sent (some e.hash)
  | crossed {a : Except StoreFault (Option String)} {c : Command} {look written : List Command}
      {hs : Hashes} (hc : Renews key c) (hfound : hs key = some e.hash) :
    Behind key e (.done a) [(.reader, [c]), (.writer, written), (.reader, look)]
      (c.effect e.lastAccess.millis hs key)

/-- A hash that goes leaves the read where it is. -/
lemma Ahead.mono {p : Client (Except StoreFault (Option String))}
    {sent : List (Party × List Command)} {hash? hash?' : Option Hash}
    (h : Ahead key p sent hash?) (hsub : ∀ x ∈ hash?', x ∈ hash?) : Ahead key p sent hash?' := by
  cases h with
  | waiting hsound => exact .waiting fun x hx => hsound x (hsub x hx)
  | looked h => exact .looked h
  | finished => exact .finished

section Reading

variable {now : Instant} {s : H.State} {p : Client (Except StoreFault (Option String))}
  {sent : List (Party × List Command)}

/-- A step of the read before the write. -/
lemma Ahead.step (h : Ahead key p sent (H.found s now key)) :
    Ahead key (H.step now p s).1 ((batches p).map (Party.reader, ·) ++ sent)
      (H.found (H.step now p s).2 now key) := by
  cases h with
  | waiting hsound =>
    obtain ⟨hbatch, -, hnext⟩ := step_read H now s key
    rw [hbatch]
    refine .looked (hnext _ _ ?_)
    intro deadline window value hentry t _
    exact renews_of_mem_renewal? (window_of_entryOf hsound hentry)
  | looked h =>
    rcases h.step now s trivial fun _ hc => hc.isProper with
      ⟨hbatch, hnext, -⟩ | ⟨c, -, hbatch, ⟨a, ha⟩, -⟩
    · rw [hbatch]
      exact .looked hnext
    · rw [hbatch, ha]
      exact .finished
  | finished => exact .finished

/-- A step of the read after the write, at the time of the write. -/
lemma Behind.step (h : Behind key e p sent (H.found s now key)) (hnow : now = e.lastAccess)
    (hepoch : Instant.epoch ≤ now) (htimely : ∀ ttl ∈ e.timeToLive, 0 < ttl) :
    Behind key e (H.step now p s).1 ((batches p).map (Party.reader, ·) ++ sent)
      (H.found (H.step now p s).2 now key) := by
  subst hnow
  generalize hfound : H.found s e.lastAccess key = hash? at h
  cases h with
  | waiting =>
    -- the read finds the new entry, and can only set the time to live that it has
    obtain ⟨hbatch, hsame, hnext⟩ := step_read H e.lastAccess s key
    obtain ⟨hdeadline, -⟩ := bounds_of_timeToLive htimely
    have hpast : 0 ≤ e.lastAccess.millis := Int.ediv_nonneg hepoch (by decide)
    have hdeadline' : ∀ d ∈ e.deadlineMillis, 0 ≤ d := fun d hd =>
      Int.le_of_lt (Int.lt_of_le_of_lt hpast (hdeadline d hd).1)
    rw [hbatch, hsame, hfound]
    refine .looked (hnext _ _ ?_)
    rintro deadline window value hentry t rfl
    rw [Host.entryOf_look hfound rfl] at hentry
    cases hentry
    rw [Host.unlessAbsent_getD, Host.unlessAbsent_getD, Host.unlessAbsent_eq hdeadline',
      Host.unlessAbsent_eq fun w hw => (e.windowMillis_fits w hw).1]
    exact repeats_of_mem_renewal? htimely
  | looked h =>
    rcases h.step e.lastAccess s rfl
        fun _ hc => (hc.renews htimely).isProper with
      ⟨hbatch, hnext, hsame⟩ | ⟨c, hc, hbatch, ⟨a, ha⟩, heffect⟩
    · rw [hbatch, hsame, hfound]
      exact .looked hnext
    · rw [hbatch, ha, heffect, hc.effect hfound]
      exact .finished (by simp)
  | crossing h =>
    rcases h.step e.lastAccess s trivial fun _ hc => hc.isProper with
      ⟨hbatch, hnext, hsame⟩ | ⟨c, hc, hbatch, ⟨a, ha⟩, heffect⟩
    · rw [hbatch, hsame, hfound]
      exact .crossing hnext
    · rw [hbatch, ha, heffect]
      exact .crossed hc hfound
  | finished h =>
    change Behind key e (.done _) sent (H.found s e.lastAccess key)
    rw [hfound]
    exact .finished h
  | crossed hc hhash =>
    change Behind key e (.done _) _ (H.found s e.lastAccess key)
    rw [hfound]
    exact .crossed hc hhash

/-- An entry is written. -/
lemma Ahead.behind {hash? : Option Hash} (h : Ahead key p sent hash?) (e : Held)
    (written : List Command) : Behind key e p ((.writer, written) :: sent) (some e.hash) := by
  cases h with
  | waiting _ => exact .waiting
  | looked h => exact .crossing h
  | finished => exact .finished (by simp)

end Reading

/-- How far the two have come since the clock stands still. -/
inductive Stage (key value : String) (l : Lifetime) (e : Held) (t : Crossing H) : Prop
  | waiting (hwriting : t.writing = Remote.write key value l)
      (h : Ahead key t.reading t.sent (t.found key))
  | told (hwriting : t.writing = put key e) (h : Ahead key t.reading t.sent (t.found key))
  | written (hwriting : ∃ event, t.writing = .ask (I := wire) (.log event) fun _ => .done (.ok ()))
      (h : Behind key e t.reading t.sent (t.found key))
  | finished (hwriting : t.writing = .done (.ok ()))
      (h : Behind key e t.reading t.sent (t.found key))

section Stages

variable (hclock : t.clock = e.lastAccess) (hepoch : Instant.epoch ≤ t.clock)
  (htimely : ∀ ttl ∈ e.timeToLive, 0 < ttl)

include hclock hepoch htimely

lemma Stage.read (h : Stage key value l e t) : Stage key value l e t.read := by
  cases h with
  | waiting hwriting h => exact .waiting hwriting h.step
  | told hwriting h => exact .told hwriting h.step
  | written hwriting h => exact .written hwriting (h.step hclock hepoch htimely)
  | finished hwriting h => exact .finished hwriting (h.step hclock hepoch htimely)

lemma Stage.write (h : Stage key value l e t) (hl : l.check = .ok ())
    (he : Held.ofWrite e.lastAccess value l = e) : Stage key value l e t.write := by
  obtain ⟨clock, server, reading, writing, sent⟩ := t
  dsimp only at hclock hepoch
  subst hclock
  cases h with
  | waiting hwriting h =>
    obtain ⟨next, hwrite, hnext⟩ := exists_write_eq key value hl
    cases hwriting.trans hwrite
    refine .told ?_ ?_
    · change next (H.answer e.lastAccess .now server).1 = put key e
      rw [H.answer_now, hnext _ (he ▸ htimely), he]
    · change Ahead key reading sent (H.found (H.answer e.lastAccess .now server).2
        e.lastAccess key)
      rw [H.found_now]
      exact h
  | told hwriting h =>
    cases hwriting
    have hproper : ∀ c ∈ Host.writeCommands key e, c.IsProper :=
      Host.isProper_of_mem_writeCommands fun ttl httl =>
        ⟨htimely ttl httl, e.timeToLive_le ttl httl⟩
    have hfound : H.found (H.answer e.lastAccess (.transact (Host.writeCommands key e)) server).2
        e.lastAccess key = some e.hash := by
      rw [H.found_transact _ _ _ hproper, Host.foldl_writeCommands, Function.update_self]
    refine .written ⟨.remoteWritten key e.timeToLive, ?_⟩ ?_
    · change (match (H.answer e.lastAccess (.transact (Host.writeCommands key e)) server).1 with
        | .error fault => _
        | .ok () => _) = _
      rw [H.answer_transact _ _ _ hproper]
    · change Behind key e reading ((.writer, Host.writeCommands key e) :: sent)
        (H.found (H.answer e.lastAccess (.transact (Host.writeCommands key e)) server).2
          e.lastAccess key)
      rw [hfound]
      exact h.behind e _
  | written hwriting h =>
    obtain ⟨event, rfl⟩ := hwriting
    refine .finished rfl ?_
    change Behind key e reading sent (H.found (H.answer e.lastAccess (.log event) server).2
      e.lastAccess key)
    rw [H.found_log]
    exact h
  | finished hwriting h =>
    cases hwriting
    exact .finished rfl h

end Stages

/-- Before the write has begun the clock may move. -/
lemma Reaches.ahead (hsound : ∀ h ∈ t.found key, h.IsSound) (hreading : t.reading = Remote.read key)
    (hsent : t.sent = []) (h : Reaches (· = .reader) t t') :
    t'.writing = t.writing ∧ Ahead key t'.reading t'.sent (t'.found key) := by
  induction h with
  | refl =>
    rw [hreading, hsent]
    exact ⟨rfl, .waiting hsound⟩
  | tail _ hstep ih =>
    obtain ⟨hwriting, hahead⟩ := ih
    cases hstep with
    | read _ => exact ⟨hwriting, hahead.step⟩
    | write hmay => cases hmay
    | tick hle =>
      refine ⟨hwriting, hahead.mono fun hash hhash => ?_⟩
      rw [found, H.found_later _ _ _ hle key] at hhash
      exact (Option.filter_eq_some_iff.1 hhash).1

/-- From then on the two go through their stages as long as the clock stands still. -/
lemma Reaches.stage (hclock : t.clock = e.lastAccess) (hepoch : Instant.epoch ≤ t.clock)
    (htimely : ∀ ttl ∈ e.timeToLive, 0 < ttl) (hl : l.check = .ok ())
    (he : Held.ofWrite e.lastAccess value l = e) (hstart : Stage key value l e t)
    (h : Reaches (fun _ => True) t t') :
    t.clock ≤ t'.clock ∧ (t'.clock = t.clock → Stage key value l e t') := by
  induction h with
  | refl => exact ⟨Int.le_refl _, fun _ => hstart⟩
  | @tail u u' _ hstep ih =>
    obtain ⟨hle, hstage⟩ := ih
    cases hstep with
    | read _ =>
      refine ⟨hle, fun hsame => ?_⟩
      have hu : u.clock = t.clock := hsame
      exact (hstage hu).read (hu.trans hclock) (hu ▸ hepoch) htimely
    | write _ =>
      refine ⟨hle, fun hsame => ?_⟩
      have hu : u.clock = t.clock := hsame
      exact (hstage hu).write (hu.trans hclock) (hu ▸ hepoch) htimely hl he
    | @tick later hlater =>
      refine ⟨Int.le_trans hle hlater, fun hsame => ?_⟩
      have hlater' : later = t.clock := hsame
      have hu : u.clock = later := Instant.le_antisymm hlater (hlater' ▸ hle)
      have hstill : { u with clock := later } = u := by rw [← hu]
      rw [hstill]
      exact hstage (hu.trans hlater')

/-- What is found in the end, when both have succeeded: the entry that was written, unless the
read has sent a command after it that was meant for what was there before. -/
lemma Behind.found_eq {a : Except StoreFault (Option String)} {sent : List (Party × List Command)}
    {hash? : Option Hash} (h : Behind key e (.done a) sent hash?) :
    (∀ c look written, sent ≠ [(.reader, c), (.writer, written), (.reader, look)]) ∧
        hash? = some e.hash ∨
      ∃ c look written, sent = [(.reader, [c]), (.writer, written), (.reader, look)] ∧
        (c = .delete key ∧ hash? = none ∨ ∃ ttl, c = .expire key ttl ∧
          hash? = some { e.hash with expiry := some (e.lastAccess.millis + ttl) }) := by
  generalize hp : (Program.done a : Client (Except StoreFault (Option String))) = p at h
  cases h with
  | waiting =>
    obtain ⟨next, hread, -⟩ := exists_read_eq key
    cases hp.trans hread
  | looked _ => exact .inl ⟨by simp, rfl⟩
  | crossing _ => exact .inl ⟨by simp, rfl⟩
  | finished h => exact .inl ⟨h, rfl⟩
  | @crossed _ c look written hs hc hfound =>
    refine .inr ⟨c, look, written, rfl, ?_⟩
    cases hc with
    | delete => exact .inl ⟨rfl, Function.update_self ..⟩
    | @expire ttl _ _ =>
      refine .inr ⟨ttl, rfl, ?_⟩
      rw [Command.effect, Function.update_self, hfound]
      rfl

/-- A read and a write of one key have both succeeded, and no time has passed since the write
began.  The key holds what was written, with the time to live that the lifetime demands, exactly
if no command of the read came after the write while its look had come before, other than one
that sets that very time to live.  Such a command deletes the new entry or gives it another time
to live, and its fields stay. -/
theorem Reaches.stands_iff {now : Instant} {s : H.State} {result : Option String}
    (hl : l.check = .ok ()) (hsound : ∀ h ∈ H.found s now key, h.IsSound)
    (hbefore : Reaches (· = .reader) (start now s key value l) t)
    (hepoch : Instant.epoch ≤ t.clock)
    (htimely : ∀ ttl ∈ (Held.ofWrite t.clock value l).timeToLive, 0 < ttl)
    (hafter : Reaches (fun _ => True) t t') (hclock : t'.clock = t.clock)
    (hread : t'.reading = .done (.ok result)) (hwrite : t'.writing = .done (.ok ())) :
    (t'.found key = some (Held.ofWrite t.clock value l).hash ↔
        ∀ c, t'.CrossedBy c → Repeats key (Held.ofWrite t.clock value l) c) ∧
      ∀ c, t'.CrossedBy c →
        c = .delete key ∧ t'.found key = none ∨
          ∃ ttl, c = .expire key ttl ∧ t'.found key = some
            { (Held.ofWrite t.clock value l).hash with expiry := some (t.clock.millis + ttl) } := by
  obtain ⟨hwriting, hahead⟩ := hbefore.ahead (t := start now s key value l) hsound rfl rfl
  obtain ⟨-, hstage⟩ := hafter.stage rfl hepoch htimely hl rfl (.waiting hwriting hahead)
  have hbehind : Behind key (Held.ofWrite t.clock value l) t'.reading t'.sent (t'.found key) := by
    cases hstage hclock with
    | waiting hwaits _ =>
      obtain ⟨next, hasks, -⟩ := exists_write_eq key value hl
      cases hwrite.symm.trans (hwaits.trans hasks)
    | told htold _ => cases hwrite.symm.trans htold
    | written hwritten _ =>
      obtain ⟨event, hlogs⟩ := hwritten
      cases hwrite.symm.trans hlogs
    | finished _ h => exact h
  rw [hread] at hbehind
  rcases hbehind.found_eq with ⟨hnone, hfound⟩ | ⟨c, look, written, hsent, hfound⟩
  · -- nothing was sent after the write, or it came after the look as well
    have hnot : ∀ c, ¬ t'.CrossedBy c := by
      rintro c ⟨look, written, hsent⟩
      exact hnone [c] look written hsent
    exact ⟨iff_of_true hfound fun c hc => absurd hc (hnot c), fun c hc => absurd hc (hnot c)⟩
  · have hcrossed : t'.CrossedBy c := ⟨look, written, hsent⟩
    have honly : ∀ c', t'.CrossedBy c' → c' = c := by
      rintro c' ⟨look', written', hsent'⟩
      cases hsent.symm.trans hsent'
      rfl
    constructor
    · rcases hfound with ⟨rfl, hgone⟩ | ⟨ttl, rfl, hrenewed⟩
      · rw [hgone]
        exact iff_of_false (by simp) fun h => not_repeats_delete (h _ hcrossed)
      · rw [hrenewed, Option.some.injEq]
        refine repeats_iff.symm.trans ⟨fun h c' hc' => honly c' hc' ▸ h, fun h => h _ hcrossed⟩
    · intro c' hc'
      rw [honly c' hc']
      exact hfound

end Crossing

end RequestCache.Remote

namespace RequestCache.Demo

open Remote

/-- An entry was written with a lifetime.  It is going to be read, and a value without a lifetime
is going to be written in its place. -/
def outset (l : Lifetime) : Crossing Server.host :=
  .start (minute 0) (Server.host.run (minute 0) (write "key" "old" l) Server.fresh).2 "key" "new" {}

/-- The read has looked, and some time has passed. -/
def looked (l : Lifetime) (later : Instant) : Crossing Server.host :=
  { (outset l).read with clock := later }

/-- The write has run from its beginning to its end, and then the read has gone on. -/
def crossed (l : Lifetime) (later : Instant) : Crossing Server.host :=
  (looked l later).write.write.write.read.read

lemma reaches_looked (l : Lifetime) (later : Instant) (h : minute 0 ≤ later)
    (may : Party → Prop) (hmay : may .reader) : (outset l).Reaches may (looked l later) :=
  .head (.read hmay) (.single (.tick h))

lemma reaches_crossed (l : Lifetime) (later : Instant) :
    (looked l later).Reaches (fun _ => True) (crossed l later) :=
  .head (.write trivial) (.head (.write trivial) (.head (.write trivial)
    (.head (.read trivial) (.single (.read trivial)))))

/-- The entry that was there could be read for an hour at a time, and now the new one, which has
no lifetime, ends after an hour. -/
theorem stands_renewed :
    (crossed { sliding := some hour } (minute 40)).found "key" =
      some { (Held.ofWrite (minute 40) "new" {}).hash with
        expiry := some ((minute 40).millis + 3600000) } := by
  have hfound : (outset { sliding := some hour }).found "key" =
      some (Held.ofWrite (minute 0) "old" { sliding := some hour }).hash := rfl
  have hsound : ∀ h ∈ (outset { sliding := some hour }).found "key", h.IsSound := by
    intro h hh
    cases hfound.symm.trans hh
    refine isSound_hash ?_
    rintro _ ⟨⟩
    decide
  have hread : (crossed { sliding := some hour } (minute 40)).reading =
      .done (.ok (some "old")) := rfl
  obtain ⟨-, hleft⟩ := Crossing.Reaches.stands_iff (l := {}) rfl hsound
    (reaches_looked { sliding := some hour } (minute 40) (by decide) _ rfl) (by decide)
    (by rintro _ ⟨⟩) (reaches_crossed _ _) rfl hread rfl
  have hcrossed : (crossed { sliding := some hour } (minute 40)).CrossedBy
    (.expire "key" 3600000) := ⟨_, _, rfl⟩
  rcases hleft _ hcrossed with ⟨hdelete, -⟩ | ⟨ttl, hexpire, hrenewed⟩
  · cases hdelete
  · cases hexpire
    exact hrenewed

/-- Half an hour. -/
def halfHour : Span := ⟨1800 * nanosPerSecond, by decide⟩

/-- The entry that was there ended after half an hour.  The read has looked at it before, and
deletes the new one after that: both have succeeded, and nothing is found. -/
theorem written_in_vain :
    (outset { relative := some halfHour }).Reaches (fun _ => True)
        (crossed { relative := some halfHour } (minute 30)) ∧
      (looked { relative := some halfHour } (minute 30)).writing = write "key" "new" {} ∧
      (crossed { relative := some halfHour } (minute 30)).clock = minute 30 ∧
      (crossed { relative := some halfHour } (minute 30)).reading = .done (.ok none) ∧
      (crossed { relative := some halfHour } (minute 30)).writing = .done (.ok ()) ∧
      ¬ (crossed { relative := some halfHour } (minute 30)).found "key" =
        some (Held.ofWrite (minute 30) "new" {}).hash := by
  have hreaches := (reaches_looked { relative := some halfHour } (minute 30) (by decide)
    (fun _ => True) trivial).trans (reaches_crossed _ _)
  have hgone : (crossed { relative := some halfHour } (minute 30)).found "key" = none := rfl
  refine ⟨hreaches, rfl, rfl, rfl, rfl, ?_⟩
  rw [hgone]
  simp

end RequestCache.Demo
