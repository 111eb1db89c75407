/-
# Times to live in words

A client of the remote store reckons in signed words of 64 bits, and a difference that no word
holds would come out as some other number.  Here the client stops instead (`Remote.writeInWords`,
`Remote.readInWords`), and it never does: the calendar is so short that the milliseconds between
any two of its instants fit a word, and a window that does not fit is cut off.

So the times to live that the server is told are whole milliseconds from one to the greatest word,
with every write and with every read of what was written, whatever instant the clock shows
(`Remote.reckons_in_words`).
-/
import RequestCache.Proofs.Deadlines

namespace RequestCache

namespace Remote

/-! ## A client that stops where a number does not fit -/

/-- The number, if a signed word of 64 bits holds it. -/
def word? (n : Int) : Option Int :=
  if -0x8000000000000000 ≤ n ∧ n ≤ maxSigned64 then some n else none

/-- The milliseconds of a window, or the greatest word if no word holds them. -/
def windowWord (d : Span) : Int := (word? d.millis).getD maxSigned64

/-- The time to live, unless a difference does not fit a word. -/
def timeToLiveInWords? (now : Int) (deadline window : Option Int) : Option (Option Int) := do
  let remaining ← deadline.mapM fun d => word? (d - now)
  return match remaining, window with
    | some r, some w => some (min r w)
    | some r, none => some r
    | none, some w => some w
    | none, none => none

/-- A write that stops where a number does not fit a word. -/
def writeInWords (key value : String) (l : Lifetime) :
    Client (Option (Except StoreFault Unit)) := do
  match l.check with
  | .error e => return some (.error e)
  | .ok () =>
    let now ← now
    let some start := word? now.millis | return none
    let some deadline := (l.deadline now).mapM fun d => word? d.millis | return none
    let window := l.sliding.map windowWord
    let some ttl := timeToLiveInWords? start deadline window | return none
    if ttl.any (· ≤ 0) then
      match ← tell (.delete key) with
      | .error e => return some (.error e)
      | .ok () =>
        log (.remoteWriteSkipped key)
        return some (.ok ())
    let commands := [.delete key, .writeFields key (entryFields deadline window value)] ++
      ttl.toList.map fun millis => Command.expire key millis
    match ← transact commands with
    | .error e => return some (.error (.remote e))
    | .ok () =>
      log (.remoteWritten key ttl)
      return some (.ok ())

/-- A read that stops where a number does not fit a word. -/
def readInWords (key : String) : Client (Option (Except StoreFault (Option String))) := do
  match (← send (look key)).bind entryOf with
  | .error e => return some (.error (.remote e))
  | .ok (_, _, none) => return some (.ok none)
  | .ok (deadline, window, some value) =>
    let some now := word? (← now).millis | return none
    let deadline := unlessAbsent deadline
    let window := unlessAbsent window
    if deadline.any (· ≤ now) then
      return some ((← tell (.delete key)).map fun _ => none)
    if window.isNone then return some (.ok (some value))
    let some ttl := timeToLiveInWords? now deadline window | return none
    match ttl with
    | some ttl => return some ((← tell (.expire key ttl)).map fun _ => some value)
    | none => return some (.ok (some value))

/-! ## The calendar is short -/

/-- The number is one of the milliseconds of the calendar. -/
def InCalendar (n : Int) : Prop := -8334601228800000 ≤ n ∧ n ≤ 8210266876799999

lemma inCalendar_millis (t : Instant) : InCalendar t.millis := by
  have hrange := t.inRange
  unfold InCalendar Instant.millis nanosPerMilli
  omega

lemma inCalendar_absent : InCalendar absent := ⟨by decide, by decide⟩

lemma inCalendar_deadline (e : Held) : InCalendar (e.deadlineMillis.getD absent) := by
  rw [Held.deadlineMillis]
  cases e.deadline with
  | none => exact inCalendar_absent
  | some d => exact inCalendar_millis d

lemma word?_of_inCalendar {n : Int} (h : InCalendar n) : word? n = some n := by
  unfold InCalendar at h
  refine if_pos ⟨by omega, ?_⟩
  unfold maxSigned64
  omega

/-- Both ends of the calendar are less than a word apart. -/
lemma word?_sub {m n : Int} (hm : InCalendar m) (hn : InCalendar n) :
    word? (m - n) = some (m - n) := by
  unfold InCalendar at hm hn
  refine if_pos ⟨by omega, ?_⟩
  unfold maxSigned64
  omega

lemma windowWord_eq (d : Span) : windowWord d = windowMillis d := by
  unfold windowWord word?
  rcases windowMillis_cases d with ⟨hmillis, hfits⟩ | ⟨hmillis, hlong⟩
  · rw [if_pos ⟨by omega, by omega⟩, Option.getD_some, hmillis]
  · rw [if_neg (by omega), Option.getD_none, hmillis]

variable {now : Int} {deadline window : Option Int}

/-- No difference is too large for a deadline in the calendar. -/
lemma timeToLiveInWords?_eq (hnow : InCalendar now) (hdeadline : ∀ d ∈ deadline, InCalendar d)
    (window : Option Int) :
    timeToLiveInWords? now deadline window = some (timeToLive now deadline window) := by
  unfold timeToLiveInWords?
  cases deadline with
  | none => cases window <;> rfl
  | some d =>
    have hfits : word? (d - now) = some (d - now) := word?_sub (hdeadline d rfl) hnow
    have hmap : (some d).mapM (fun d => word? (d - now)) = some (some (d - now)) := by
      change (word? (d - now)).map some = _
      rw [hfits]
      rfl
    rw [hmap]
    cases window <;> rfl

/-- There is a time to live if there is a deadline or a window. -/
lemma isSome_timeToLive :
    (timeToLive now deadline window).isSome ↔ deadline.isSome ∨ window.isSome := by
  cases deadline <;> cases window <;> simp [timeToLive]

/-! ## The client never stops -/

/-- A write reckons with words alone. -/
lemma writeInWords_eq (key value : String) (l : Lifetime) :
    writeInWords key value l = some <$> write key value l := by
  unfold writeInWords write
  cases l.check with
  | error e => rfl
  | ok _ =>
    refine congrArg (Program.ask (I := wire) .now) (funext fun (now : Instant) => ?_)
    have hdeadline : (l.deadline now).mapM (fun d => word? d.millis) =
        some ((l.deadline now).map Instant.millis) := by
      cases l.deadline now with
      | none => rfl
      | some d =>
        change (word? d.millis).map some = _
        rw [word?_of_inCalendar (inCalendar_millis d)]
        rfl
    have hwindow : l.sliding.map windowWord = l.sliding.map windowMillis :=
      Option.map_congr fun d _ => windowWord_eq d
    have hdeadlines : ∀ d ∈ (l.deadline now).map Instant.millis, InCalendar d := by
      intro n hn
      obtain ⟨d, -, rfl⟩ := Option.mem_map.1 hn
      exact inCalendar_millis d
    have httl := timeToLiveInWords?_eq (inCalendar_millis now) hdeadlines
      (l.sliding.map windowMillis)
    simp only [Program.bind, word?_of_inCalendar (inCalendar_millis now), hdeadline, hwindow, httl]
    split_ifs
    · refine congrArg (Program.ask (I := wire) _) (funext fun reply => ?_)
      cases reply <;> rfl
    · refine congrArg (Program.ask (I := wire) _) (funext fun reply => ?_)
      cases reply <;> rfl

lemma map_tell {α β : Type} (g : α → β) (c : Command) (f : Except StoreFault Unit → α) :
    g <$> (tell c >>= fun x => .done (f x)) = tell c >>= fun x => .done (g (f x)) :=
  map_bind g (tell c) _

/-- A read goes on as it would with integers when it has seen a deadline in the calendar. -/
lemma exists_readInWords_eq (key : String) :
    ∃ next next', read key = .ask (I := wire) (.send (look key)) next ∧
      readInWords key = .ask (I := wire) (.send (look key)) next' ∧
      ∀ reply, (∀ d window value?, entryOf reply = .ok (some d, window, value?) → InCalendar d) →
        next' (.ok reply) = some <$> next (.ok reply) := by
  obtain ⟨next, hread, hnext⟩ := exists_read_eq key
  refine ⟨next, _, hread, rfl, fun reply hreply => ?_⟩
  rw [hnext]
  simp only [Program.bind, Except.bind]
  rcases hentry : entryOf reply with e | ⟨deadline, window, _ | value⟩
  · rfl
  · rfl
  refine congrArg (Program.ask (I := wire) .now) (funext fun (t : Instant) => ?_)
  have hdeadline : ∀ d ∈ unlessAbsent deadline, InCalendar d := by
    intro d hd
    obtain rfl := (Option.filter_eq_some_iff.1 hd).1
    exact hreply d window _ hentry
  generalize unlessAbsent deadline = deadline at hdeadline
  generalize unlessAbsent window = window
  simp only [Program.bind, word?_of_inCalendar (inCalendar_millis t),
    timeToLiveInWords?_eq (inCalendar_millis t) hdeadline]
  unfold settle renewal?
  split_ifs with hover hnone
  · exact (map_tell some (.delete key) fun x => x.map fun _ => none).symm
  · obtain rfl := Option.isNone_iff_eq_none.1 hnone
    rfl
  · cases window with
    | none => exact absurd rfl hnone
    | some w =>
      cases timeToLive t.millis deadline (some w) with
      | none => rfl
      | some ttl => exact (map_tell some (.expire key ttl) fun x => x.map fun _ => some value).symm

/-! ## What the server is told -/

/-- Every time to live that is set is one of the key, and a positive word. -/
def SetsWords (key : String) (batches : List (List Command)) : Prop :=
  ∀ batch ∈ batches, ∀ other (ttl : Int), .expire other ttl ∈ batch →
    other = key ∧ 1 ≤ ttl ∧ ttl ≤ maxSigned64

section Entry

variable {key other : String} {e : Held}

lemma expire_mem_writeCommands_iff {ttl : Int} :
    .expire other ttl ∈ Host.writeCommands key e ↔ other = key ∧ ttl ∈ e.timeToLive := by
  simp [Host.writeCommands, and_comm, eq_comm]

lemma writeFields_mem_writeCommands_iff {fields : List (String × String)} :
    .writeFields other fields ∈ Host.writeCommands key e ↔
      other = key ∧ fields = entryFields e.deadlineMillis e.windowMillis e.value := by
  simp [Host.writeCommands]

/-- A time to live is set if the entry has a deadline or a window. -/
lemma exists_expire_mem_iff :
    (∃ ttl, .expire key ttl ∈ Host.writeCommands key e) ↔ e.deadline.isSome ∨ e.window.isSome := by
  have hsome : (∃ ttl, ttl ∈ e.timeToLive) ↔ e.timeToLive.isSome := Option.isSome_iff_exists.symm
  simp only [expire_mem_writeCommands_iff, true_and]
  rw [hsome, Held.timeToLive, isSome_timeToLive, Held.deadlineMillis, Held.windowMillis,
    Option.isSome_map, Option.isSome_map]

lemma setsWords_singleton {c : Command} (hc : ∀ other ttl, c ≠ .expire other ttl) :
    SetsWords key [[c]] := by
  intro batch hbatch other ttl httl
  obtain rfl := List.mem_singleton.1 hbatch
  exact absurd (List.mem_singleton.1 httl).symm (hc other ttl)

lemma setsWords_writeCommands (htimely : ∀ ttl ∈ e.timeToLive, 0 < ttl) :
    SetsWords key [Host.writeCommands key e] := by
  intro batch hbatch other ttl httl
  obtain rfl := List.mem_singleton.1 hbatch
  obtain ⟨hother, httl⟩ := expire_mem_writeCommands_iff.1 httl
  exact ⟨hother, htimely ttl httl, e.timeToLive_le ttl httl⟩

lemma setsWords_read (hwindow : ∀ w ∈ e.windowMillis, 0 < w) (now : Instant) :
    SetsWords key ([look key] :: (lastCommand? key e now).toList.map ([·])) := by
  intro batch hbatch other ttl httl
  rcases List.mem_cons.1 hbatch with rfl | hbatch
  · cases List.mem_singleton.1 httl
  obtain ⟨c, hc, rfl⟩ := List.mem_map.1 hbatch
  obtain rfl := List.mem_singleton.1 httl
  have hrenews := renews_of_mem_lastCommand? hwindow _ (Option.mem_toList.1 hc)
  cases hrenews with
  | expire hpos hfits => exact ⟨rfl, hpos, hfits⟩

end Entry

namespace Host

variable {H : Host} {key : String} {e : Held} {now : Instant} {s : H.State}

/-- A read of the fields of an entry reckons with words alone. -/
lemma run_readInWords (H : Host) (now : Instant) (s : H.State) (key : String) (e : Held)
    (hfields : ∀ h ∈ H.found s now key, h.field? = e.hash.field?) :
    H.run now (readInWords key) s = Prod.map some id (H.run now (read key) s) := by
  obtain ⟨next, next', hread, hwords, hnext⟩ := exists_readInWords_eq key
  have hreply : (H.answer now (.send (look key)) s).1 = .ok ((look key).reply (H.found s now)) :=
    H.answer_send now s (look key) (look_isProper key)
  have hmap : ∀ (p : Client (Except StoreFault (Option String))) t,
      H.run now (some <$> p) t = Prod.map some id (H.run now p t) := by
    intro p t
    exact Program.run_bind (H.answer now) p _ t
  rw [hread, hwords]
  change H.run now (next' (H.answer now (.send (look key)) s).1) _ =
    Prod.map some id (H.run now (next (H.answer now (.send (look key)) s).1) _)
  rw [hreply, hnext, hmap]
  intro d window value? hentry
  cases hfound : H.found s now key with
  | none =>
    rw [entryOf_look_of_none hfound] at hentry
    cases hentry
  | some h =>
    rw [entryOf_look hfound (hfields h hfound)] at hentry
    cases hentry
    exact inCalendar_deadline e

/-- A read of the fields of an entry understands them, and sets no time to live but a word. -/
lemma read_setsWords (hwindow : ∀ w ∈ e.windowMillis, 0 < w)
    (hfields : ∀ h ∈ H.found s now key, h.field? = e.hash.field?) :
    (∃ found, (H.run now (read key) s).1 = .ok found) ∧
      SetsWords key (sent (H.answer now) (read key) s) := by
  cases hmet : H.found s now key with
  | none =>
    obtain ⟨s', -, hrun⟩ := H.run_read_of_none hmet
    rw [hrun, sent_read_of_none hmet]
    exact ⟨⟨none, rfl⟩, setsWords_singleton nofun⟩
  | some h =>
    obtain ⟨s', -, hrun⟩ := H.run_read_of_fields hmet (hfields h hmet) fun c hc =>
      (renews_of_mem_lastCommand? hwindow c hc).isProper
    rw [hrun, sent_read_of_fields hmet (hfields h hmet)]
    exact ⟨⟨_, rfl⟩, setsWords_read hwindow now⟩

end Host

variable {σ : Type} {answer : (r : Request) → σ → r.Answer × σ} {l : Lifetime} {written : Instant}

/-- The batch writes fields of the key's hash. -/
def WritesFields (key : String) (batch : List Command) : Prop :=
  ∃ fields, .writeFields key fields ∈ batch

/-- A value is written with a lifetime that is accepted, whatever the server answers, and then the
key is read, wherever the clock stands.

* The write reckons with words alone.  It sends a single batch, and that either writes the fields or
  only deletes the key.
* Fields are written with a time to live if there is a deadline or a window, and with none if there
  is neither.
* A read that finds these fields, or nothing, reckons with words alone, and understands what it has
  found.
* Every time to live that is set, by the write or by the read, is that of the key, and a word of one
  millisecond or more. -/
theorem reckons_in_words (hl : l.check = .ok ()) (hclock : ∀ s, (answer .now s).1 = written)
    (key value : String) (s : σ) :
    writeInWords key value l = some <$> write key value l ∧
    (∀ batch ∈ sent answer (write key value l) s, WritesFields key batch →
      ((∃ ttl, .expire key ttl ∈ batch) ↔ (l.deadline written).isSome ∨ l.sliding.isSome)) ∧
    SetsWords key (sent answer (write key value l) s) ∧
    ((∀ batch ∈ sent answer (write key value l) s, ¬ WritesFields key batch) →
      sent answer (write key value l) s = [[.delete key]]) ∧
    ∀ batch ∈ sent answer (write key value l) s, ∀ fields, .writeFields key fields ∈ batch →
      ∀ (H : Host) now t,
        (∀ h ∈ H.found t now key, h.field? = fun name => fields.lookup name) →
        H.run now (readInWords key) t = Prod.map some id (H.run now (read key) t) ∧
        (∃ found, (H.run now (read key) t).1 = .ok found) ∧
        SetsWords key (sent (H.answer now) (read key) t) := by
  rw [sent_write key value hl hclock s]
  refine ⟨writeInWords_eq key value l, ?_⟩
  split_ifs with htimely
  · have hfields : Command.writeFields key _ ∈
        Host.writeCommands key (Held.ofWrite written value l) :=
      writeFields_mem_writeCommands_iff.2 ⟨rfl, rfl⟩
    have hsets : SetsWords key [Host.writeCommands key (Held.ofWrite written value l)] :=
      setsWords_writeCommands ((timeToLive_pos_iff value).2 htimely)
    refine ⟨fun batch hbatch _ => ?_, hsets,
      fun hnone => absurd ⟨_, hfields⟩ (hnone _ List.mem_cons_self), ?_⟩
    · obtain rfl := List.mem_singleton.1 hbatch
      exact exists_expire_mem_iff
    · intro batch hbatch fields hmem H now t hfound
      obtain rfl := List.mem_singleton.1 hbatch
      obtain ⟨-, rfl⟩ := writeFields_mem_writeCommands_iff.1 hmem
      exact ⟨H.run_readInWords now t key _ hfound,
        Host.read_setsWords (windowMillis_pos htimely) hfound⟩
  · have hnone : ∀ batch ∈ [[Command.delete key]], ¬ WritesFields key batch := by
      rintro batch hbatch ⟨fields, hmem⟩
      obtain rfl := List.mem_singleton.1 hbatch
      cases List.mem_singleton.1 hmem
    refine ⟨fun batch hbatch hwrites => absurd hwrites (hnone batch hbatch),
      setsWords_singleton nofun, fun _ => rfl, fun batch hbatch fields hmem => ?_⟩
    exact absurd ⟨fields, hmem⟩ (hnone batch hbatch)

end Remote

namespace Demo

open Remote

/-- The first instant of the calendar. -/
def firstInstant : Instant := ⟨-8334601228800 * 1000000000, by decide⟩

/-- The last instant of the calendar. -/
def lastInstant : Instant := ⟨8210266876799 * 1000000000 + 999999999, by decide⟩

/-- The longest span. -/
def longest : Span := ⟨0x10000000000000000 * nanosPerSecond - 1, by decide⟩

/-- An entry with the longest window that ends with the calendar. -/
def untilTheEnd : Lifetime := { absolute := some lastInstant, sliding := some longest }

/-- The server after the entry was written at the epoch. -/
def laidDown : Server.host.State :=
  (Server.host.run .epoch (write "first" "one" untilTheEnd) Server.fresh).2

/-- The window is cut off, and so is the time to live by the deadline.  A clock that is set back to
the beginning of the calendar gives it all of the calendar to live. -/
theorem untilTheEnd_reckoned :
    untilTheEnd.check = .ok () ∧ firstInstant < Instant.epoch ∧
      writeInWords "first" "one" untilTheEnd = some <$> write "first" "one" untilTheEnd ∧
      sent (Server.host.answer .epoch) (write "first" "one" untilTheEnd) Server.fresh =
        [[.delete "first", .writeFields "first"
            (entryFields (some 8210266876799999) (some maxSigned64) "one"),
          .expire "first" 8210266876799999]] ∧
      Server.host.run firstInstant (readInWords "first") laidDown =
        Prod.map some id (Server.host.run firstInstant (read "first") laidDown) ∧
      sent (Server.host.answer firstInstant) (read "first") laidDown =
        [[look "first"], [.expire "first" 16544868105599999]] ∧
      SetsWords "first" (sent (Server.host.answer firstInstant) (read "first") laidDown) := by
  have hclock : ∀ s, (Server.host.answer .epoch .now s).1 = Instant.epoch := fun _ => rfl
  have hsent := (sent_write "first" "one" (l := untilTheEnd) rfl hclock Server.fresh).trans
    (if_pos (by decide))
  have hfound : Server.host.found laidDown firstInstant "first" =
      some ⟨fun name => (entryFields (some 8210266876799999) (some maxSigned64) "one").lookup name,
        some 8210266876799999⟩ := rfl
  obtain ⟨hwords, -, -, -, hread⟩ :=
    reckons_in_words (l := untilTheEnd) rfl hclock "first" "one" Server.fresh
  rw [hsent] at hread
  obtain ⟨hrun, -, hsets⟩ := hread _ List.mem_cons_self _ (.tail _ (.head _)) Server.host
    firstInstant laidDown fun h hh => by
      cases hfound.symm.trans hh
      rfl
  refine ⟨rfl, by decide, hwords, hsent, hrun, ?_, hsets⟩
  exact Host.sent_read_of_fields (e := Held.ofWrite .epoch "one" untilTheEnd) hfound rfl

end Demo

end RequestCache
