/-
# Cancellation

A dispatch that is cancelled at an instant is the dispatch that nobody cancels, cut at that
instant: what would come later does not happen, and the outcome is that it was cancelled, unless
the dispatch had ended by then (`Dispatcher.play_send_cancelledAt`).  It does not matter where the
dispatch waits at that instant, nor what the policy makes of failures, since a wait that is cut
short is no failure: it ends the dispatch at once, and so the stages have nothing to say.

What happened until then is a beginning of what would have happened.  The look-up and the handler
come first, so a dispatch that is cancelled before its handler returns has changed nothing
(`CacheSetup.cancelled_dispatch`).
-/
import RequestCache.Proofs.Policies
import RequestCache.Proofs.Timeline
import RequestCache.Proofs.Wiring

namespace RequestCache

variable {C : Catalogue} {W : Interface} {α β σ : Type} {k : C.Kind}

namespace Timeline

/-! ## A time line cut at an instant -/

/-- The time line cut at an instant: what comes later does not happen, and the result is `late`. -/
def cutAt (t : ℕ) (late : α) : Timeline W α → Timeline W α
  | ended now a => if now ≤ t then ended now a else ended t late
  | moment now what next =>
    if now ≤ t then moment now what fun x => (next x).cutAt t late else ended t late

variable {answer : (what : Moment W) → σ → what.Answer × σ} {T : Timeline W α} {t now : ℕ}
  {late : α} {s : σ}

lemma cutAt_ended (h : now ≤ t) (a : α) :
    (ended now a : Timeline W α).cutAt t late = ended now a := if_pos h

lemma cutAt_ended_late (h : t < now) (a : α) :
    (ended now a : Timeline W α).cutAt t late = ended t late := if_neg (Nat.not_le.2 h)

lemma cutAt_moment (h : now ≤ t) (what : Moment W) (next : what.Answer → Timeline W α) :
    (moment now what next).cutAt t late = moment now what fun x => (next x).cutAt t late :=
  if_pos h

lemma cutAt_moment_late (h : t < now) (what : Moment W) (next : what.Answer → Timeline W α) :
    (moment now what next).cutAt t late = ended t late := if_neg (Nat.not_le.2 h)

/-- What happens is what would have happened until then. -/
theorem history_cutAt :
    (T.cutAt t late).history answer s = (T.history answer s).takeWhile (·.1 ≤ t) := by
  induction T generalizing s with
  | ended now a =>
    rcases Nat.lt_or_ge t now with h | h
    · rw [cutAt_ended_late h]
      rfl
    · rw [cutAt_ended h]
      rfl
  | moment now what next ih =>
    rcases Nat.lt_or_ge t now with h | h
    · rw [cutAt_moment_late h]
      simp [history, Nat.not_le.2 h]
    · rw [cutAt_moment h, history, history, List.takeWhile_cons_of_pos (by simpa using h), ih]

/-- A time line that has ended by then is not changed. -/
theorem run_cutAt_of_le (hT : T.InOrder now) (h : (T.run answer s).1.1 ≤ t) :
    (T.cutAt t late).run answer s = T.run answer s := by
  induction T generalizing now s with
  | ended end_ a =>
    have hend : end_ ≤ t := h
    rw [cutAt_ended hend]
  | moment first what next ih =>
    have hend : first ≤ (((next (answer what s).1)).run answer (answer what s).2).1.1 :=
      ((hT.2 _).mem_history answer _).1
    rw [cutAt_moment (Nat.le_trans hend h)]
    exact ih _ (hT.2 _) h

/-- Any other one ends at that instant. -/
theorem run_cutAt_of_lt (h : t < (T.run answer s).1.1) :
    ((T.cutAt t late).run answer s).1 = (t, late) := by
  induction T generalizing s with
  | ended end_ a =>
    have hend : t < end_ := h
    rw [cutAt_ended_late hend]
    rfl
  | moment first what next ih =>
    rcases Nat.lt_or_ge t first with hlate | hfirst
    · rw [cutAt_moment_late hlate]
      rfl
    · rw [cutAt_moment hfirst]
      exact ih _ h

lemma begin_cutAt (h : now ≤ t) (changes : List Change) :
    (begin now changes T).cutAt t late = begin now changes (T.cutAt t late) := by
  induction changes with
  | nil => rfl
  | cons c changes ih =>
    change (moment now (.beginChange c) fun _ => begin now changes T).cutAt t late = _
    rw [cutAt_moment h, ih]
    rfl

/-! ## Waits that are cut short -/

lemma cut?_of_le {due : ℕ} (h : due ≤ t) : Token.cut? (.cancelledAt t) now due = none :=
  if_neg fun hcut => Nat.not_lt.2 h hcut.2

lemma cut?_of_lt {due : ℕ} (hnow : now ≤ t) (h : t < due) :
    Token.cut? (.cancelledAt t) now due = some t := by
  rw [Token.cut?, if_pos ⟨Nat.lt_of_le_of_lt hnow h, h⟩, Nat.max_eq_right hnow]

/-- Changes of which some would be made later are cut short, and the others are made. -/
lemma land_cancelledAt
    {resume resume' : Token → ℕ → Option (List ChangeOutcome) → Timeline W α}
    (hresume : ∀ now outcomes, now ≤ t → resume (.cancelledAt t) now (some outcomes) =
      (resume' .live now (some outcomes)).cutAt t late)
    (hcut : resume .cancelled t none = ended t late) (hnow : now ≤ t)
    (landed : List (ℕ × ChangeOutcome)) (fs : List Flight) :
    land (.cancelledAt t) resume now landed fs =
      (land .live resume' now landed fs).cutAt t late := by
  induction fs generalizing now landed with
  | nil => exact hresume now _ hnow
  | cons f fs ih =>
    change _ = (moment f.due (.change f.change) fun outcome =>
      land .live resume' f.due ((f.place, outcome) :: landed) fs).cutAt t late
    rw [land]
    rcases Nat.lt_or_ge t f.due with h | h
    · rw [cut?_of_lt hnow h, cutAt_moment_late h]
      exact hcut
    · rw [cut?_of_le h, cutAt_moment h]
      exact congrArg (moment f.due (.change f.change)) (funext fun _ => ih h _)

/-- An action that is dropped when it is cancelled at an instant is the action that nobody
cancels, cut at that instant. -/
theorem play_cancelledAt (d : Delays W) (hnow : now ≤ t) (p : Action W α) (g : Option α → β) :
    play d (.cancelledAt t) now (p.untilCancelled >>= fun o => .done (g o)) =
      (play d .live now (p >>= fun a => .done (g (some a)))).cutAt t (g none) := by
  induction p generalizing now with
  | done a => exact (cutAt_ended hnow _).symm
  | ask e next ih =>
    have hlive : (Token.cancelledAt t).isCancelled ≠ true := Bool.false_ne_true
    change play d (.cancelledAt t) now (.ask (I := effects W) e fun x =>
      (if Effect.isCut e x then .done none else Action.untilCancelled (next x)) >>= fun o =>
        .done (g o)) = _
    -- whatever ends by then is the same on both sides, and at the first wait that does not end by
    -- then both sides end
    cases e with
    | isCancelled => exact ih false hnow
    | log e =>
      refine Eq.trans ?_ (cutAt_moment hnow _ _).symm
      exact congrArg (moment now (.log e)) (funext fun _ => ih () hnow)
    | measure r m =>
      refine Eq.trans ?_ (cutAt_moment hnow _ _).symm
      exact congrArg (moment now (.measure r m)) (funext fun _ => ih () hnow)
    | read key =>
      refine Eq.trans ?_ (cutAt_moment hnow _ _).symm
      rw [play, if_neg hlive]
      refine congrArg (moment now (.beginRead key)) (funext fun _ => ?_)
      rcases Nat.lt_or_ge t (now + d.read key) with h | h
      · rw [cut?_of_lt hnow h]
        exact (cutAt_moment_late h _ _).symm
      · rw [cut?_of_le h]
        refine Eq.trans ?_ (cutAt_moment h _ _).symm
        exact congrArg (moment _ (.read key)) (funext fun outcome => ih (some outcome) h)
    | apply changes =>
      rw [play, if_neg hlive]
      change _ = (begin now changes _).cutAt t (g none)
      rw [begin_cutAt hnow]
      refine congrArg (begin now changes) (land_cancelledAt ?_ rfl hnow [] _)
      exact fun now outcomes h => ih (some outcomes) h
    | work op =>
      rw [play, if_neg hlive]
      rcases Nat.lt_or_ge t (now + d.work op) with h | h
      · rw [cut?_of_lt hnow h]
        exact (cutAt_moment_late h _ _).symm
      · rw [cut?_of_le h]
        refine Eq.trans ?_ (cutAt_moment h _ _).symm
        exact congrArg (moment _ (.work op)) (funext fun x => ih (some x) h)

end Timeline

/-! ## Dispatches -/

namespace Dispatcher

/-- The outcome of a dispatch that may have been dropped. -/
def orCancelled : Option (Outcome C k) → Outcome C k
  | some outcome => outcome
  | none => .error .cancelled

variable {D : Dispatcher C W} {handler : Handler C W k}

lemma send_eq (hk : (D.route k).handler = some handler) (request : C.Request k) :
    D.send k request =
      Action.guarded (throughStages handler request (D.route k).stages) >>= fun o =>
        .done (orCancelled o) := by
  rw [send, hk]
  refine congrArg (Action.guarded _ >>= ·) (funext fun o => ?_)
  cases o <;> rfl

/-- A dispatch that nobody cancels is its way through the stages. -/
theorem play_send_live (hk : (D.route k).handler = some handler) (d : Delays W) (now : ℕ)
    (request : C.Request k) :
    Timeline.play d .live now (D.send k request) =
      Timeline.play d .live now (throughStages handler request (D.route k).stages) := by
  have hguarded : Timeline.play d .live now
      (Action.guarded (throughStages handler request (D.route k).stages)) =
        Timeline.play d .live now
          (Action.untilCancelled (throughStages handler request (D.route k).stages)) := rfl
  rw [send_eq hk, Timeline.play_bind, hguarded, Timeline.play_untilCancelled,
    Timeline.andThen_andThen]
  exact Timeline.andThen_ended _

/-- A dispatch that is cancelled at an instant is the dispatch that nobody cancels, cut at that
instant. -/
theorem play_send_cancelledAt (hk : (D.route k).handler = some handler) (d : Delays W)
    {now t : ℕ} (hnow : now ≤ t) (request : C.Request k) :
    Timeline.play d (.cancelledAt t) now (D.send k request) =
      (Timeline.play d .live now (D.send k request)).cutAt t (.error .cancelled) := by
  have hcut := Timeline.play_cancelledAt d hnow
    (throughStages handler request (D.route k).stages) orCancelled
  have hlive : (throughStages handler request (D.route k).stages >>= fun outcome =>
      Program.done (orCancelled (some outcome))) =
        throughStages handler request (D.route k).stages := Program.bind_done _
  rw [hlive] at hcut
  rw [play_send_live hk, send_eq hk]
  exact hcut

/-- A dispatch that was cancelled before it was sent does nothing. -/
theorem play_send_cancelled (hk : (D.route k).handler = some handler) (d : Delays W) (now : ℕ)
    (request : C.Request k) :
    Timeline.play d .cancelled now (D.send k request) = .ended now (.error .cancelled) := by
  rw [send_eq hk]
  rfl

end Dispatcher

/-! ## Until the handler returns -/

namespace Entry

lemma isQuiet_content (key : Key) : (content (W := W) key).IsQuiet := by
  have hread : (Action.read (W := W) key.text).IsQuiet := ⟨nofun, fun _ => trivial⟩
  refine hread.bind ?_
  rintro (_ | source | text) <;> trivial

lemma isQuiet_find (c : Json.Codec α) (key : Key) : (find (W := W) c key).IsQuiet := by
  refine (isQuiet_content key).bind ?_
  rintro (e | _ | text)
  · trivial
  · trivial
  · dsimp only
    cases Bundle.decode? c text with
    | none => exact ⟨nofun, fun _ => trivial⟩
    | some bundle => trivial

end Entry

namespace Lookup

/-- A dispatch that is looked up, until its handler has returned.  If the handler is not run it
ends with what the look-up came to. -/
def reachAfter (policy : FaultPolicy) (handled : Action W (Outcome C k)) :
    Except CacheFault (Option (C.Response k)) →
      Action W (Except CacheFault (Option (C.Response k)) ⊕ Outcome C k)
  | .ok (some response) => return .inl (.ok (some response))
  | .ok none => do return .inr (← handled)
  | .error e =>
    if isFatal policy e then return .inl (.error e)
    else do
      notice k (.error e)
      return .inr (← handled)

/-- What comes after the handler has returned, or after a look-up that came without it. -/
def leave (plan : Plan C k) (policy : FaultPolicy) (recorder : Recorder) (request : C.Request k)
    (handled : Action W (Outcome C k)) :
    Except CacheFault (Option (C.Response k)) ⊕ Outcome C k → Action W (Outcome C k)
  | .inl found => afterFind plan policy recorder request handled found
  | .inr outcome => populate plan policy recorder request outcome

lemma afterFind_eq (plan : Plan C k) (policy : FaultPolicy) (recorder : Recorder)
    (request : C.Request k) (handled : Action W (Outcome C k))
    (found : Except CacheFault (Option (C.Response k))) :
    afterFind plan policy recorder request handled found =
      reachAfter policy handled found >>= leave plan policy recorder request handled := by
  rcases found with e | _ | response
  · unfold reachAfter afterFind
    dsimp only
    split_ifs with hfatal
    · simp [leave, afterFind, hfatal]
    · simp [leave]
  · simp [reachAfter, afterFind, leave]
  · rfl

lemma isQuiet_reachAfter (policy : FaultPolicy) {handled : Action W (Outcome C k)}
    (h : handled.IsQuiet) (found : Except CacheFault (Option (C.Response k))) :
    (reachAfter policy handled found).IsQuiet := by
  rcases found with e | _ | response
  · unfold reachAfter
    dsimp only
    split_ifs
    · trivial
    · exact ⟨nofun, fun _ => h.bind fun _ => trivial⟩
  · exact h.bind fun _ => trivial
  · trivial

end Lookup

namespace CacheSetup

variable {S : CacheSetup C W} {D : Dispatcher C W} {handler : Handler C W k}

/-- A dispatch until its handler has returned.  If the handler is not run it ends with what the
look-up came to. -/
def reach (S : CacheSetup C W) (k : C.Kind) (handler : Handler C W k) (request : C.Request k) :
    Action W (Except CacheFault (Option (C.Response k)) ⊕ Outcome C k) :=
  match S.plan k with
  | none => do return .inr (← handler request)
  | some p => p.find request >>= Lookup.reachAfter S.policy (handler request)

/-- The stages of a setup do nothing before they have reached the handler and come back, apart
from looking the request up. -/
lemma exists_throughStages_eq (S : CacheSetup C W) (handler : Handler C W k)
    (request : C.Request k) (evicting looking : Recorder) :
    ∃ rest, throughStages handler request
      (S.evictionStage k evicting ++ S.lookupStage k looking) =
        S.reach k handler request >>= rest := by
  have hlookup : ∃ rest, throughStages handler request (S.lookupStage k looking) =
      S.reach k handler request >>= rest := by
    unfold reach lookupStage
    cases S.plan k with
    | none =>
      refine ⟨fun | .inl _ => .done (.error .cancelled) | .inr outcome => .done outcome, ?_⟩
      dsimp only
      rw [bind_assoc]
      exact (bind_pure (handler request)).symm
    | some p =>
      refine ⟨Lookup.leave p S.policy looking request (handler request), ?_⟩
      dsimp only
      rw [Lookup.throughStages_eq, bind_assoc]
      refine congrArg (p.find request >>= ·) (funext fun found => ?_)
      exact Lookup.afterFind_eq p S.policy looking request (handler request) found
  obtain ⟨rest, hrest⟩ := hlookup
  -- the eviction stage begins with all of this, and adds to what comes after
  unfold evictionStage
  split_ifs
  · exact ⟨rest, hrest⟩
  · refine ⟨fun reached =>
      rest reached >>= Eviction.afterSuccess (S.evictions k) evicting request, ?_⟩
    rw [← bind_assoc, ← hrest]
    rfl

lemma isQuiet_reach (S : CacheSetup C W) {request : C.Request k}
    (h : (handler request).IsQuiet) : (S.reach k handler request).IsQuiet := by
  unfold reach
  cases S.plan k with
  | none => exact h.bind fun _ => trivial
  | some p =>
    exact (Entry.isQuiet_find _ _).bind fun found => Lookup.isQuiet_reachAfter S.policy h found

/-- A dispatch of a request over a setup, beginning at an instant. -/
def dispatch (S : CacheSetup C W) (D : Dispatcher C W) (serial : ℕ) (d : Delays W) (now : ℕ)
    (k : C.Kind) (request : C.Request k) (token : Token) : Timeline W (Outcome C k) :=
  Timeline.play d token now ((S.wire D serial).1.send k request)

variable {own : (k : C.Kind) → Eviction C W k → Prop}
  {answer : (what : Moment W) → σ → what.Answer × σ} {s : σ}

lemma handler_wire (hS : S.Built own) (serial : ℕ) (k : C.Kind) :
    ((S.wire D serial).1.route k).handler = (D.route k).handler := by
  obtain ⟨evicting, looking, hroute⟩ := route_wire hS.isOrdered D serial k
  rw [hroute]

/-- Over a dispatcher without stages of its own, a dispatch begins with all that comes before its
handler returns. -/
lemma exists_dispatch_live_eq (hS : S.Built own) (hk : (D.route k).handler = some handler)
    (hstages : (D.route k).stages = []) (serial : ℕ) (d : Delays W) (now : ℕ)
    (request : C.Request k) :
    ∃ rest : _ → Action W (Outcome C k), S.dispatch D serial d now k request .live =
      (Timeline.play d .live now (S.reach k handler request)).andThen fun now reached =>
        Timeline.play d .live now (rest reached) := by
  obtain ⟨evicting, looking, hroute⟩ := route_wire hS.isOrdered D serial k
  obtain ⟨rest, hrest⟩ := S.exists_throughStages_eq handler request evicting looking
  refine ⟨rest, ?_⟩
  have hwired : ((S.wire D serial).1.route k).handler = some handler := by rw [hroute, hk]
  rw [dispatch, Dispatcher.play_send_live hwired, hroute, hstages, List.nil_append, hrest]
  exact Timeline.play_bind d now _ rest

/-- The handler returns before the dispatch ends, or when it ends. -/
lemma reach_le_end (hS : S.Built own) (hk : (D.route k).handler = some handler)
    (hstages : (D.route k).stages = []) (serial : ℕ) (d : Delays W) (now : ℕ)
    (request : C.Request k) (answer : (what : Moment W) → σ → what.Answer × σ) (s : σ) :
    ((Timeline.play d .live now (S.reach k handler request)).run answer s).1.1 ≤
      ((S.dispatch D serial d now k request .live).run answer s).1.1 := by
  obtain ⟨rest, hrest⟩ := exists_dispatch_live_eq hS hk hstages serial d now request
  rw [hrest, Timeline.run_andThen]
  exact ((Timeline.play_inOrder d .live _ (rest _)).mem_history answer _).1

/-- What happens before an instant at which the handler has not returned yet is part of what
happens until it returns. -/
lemma history_before_handler (hS : S.Built own) (hk : (D.route k).handler = some handler)
    (hstages : (D.route k).stages = []) (serial : ℕ) (d : Delays W) {now t : ℕ}
    {request : C.Request k}
    (ht : t < ((Timeline.play d .live now (S.reach k handler request)).run answer s).1.1) :
    ((S.dispatch D serial d now k request .live).history answer s).takeWhile (·.1 ≤ t) =
      ((Timeline.play d .live now (S.reach k handler request)).history answer s).takeWhile
        (·.1 ≤ t) := by
  obtain ⟨rest, hrest⟩ := exists_dispatch_live_eq hS hk hstages serial d now request
  rw [hrest, Timeline.history_andThen, List.takeWhile_append]
  split_ifs with hall
  · -- all of that has happened by then, and what comes after it comes too late
    rw [(List.takeWhile_prefix _).eq_of_length hall]
    refine (List.append_right_eq_self).2 (List.eq_nil_iff_forall_not_mem.2 fun m hm => ?_)
    obtain ⟨-, hlater⟩ := (Timeline.play_inOrder d .live _ (rest _)).mem_history answer _
    have hfirst := (hlater m ((List.takeWhile_prefix _).subset hm)).1
    have hby : m.1 ≤ t := by simpa using List.mem_takeWhile_imp hm
    omega
  · rfl

/-- What cancellation does to a dispatch over a setup, whatever its stages, its handler, its
policy and its delays are.  Cancelled before it is sent, it does nothing.  Cancelled at an
instant, exactly that happens which would have happened until then; if it has ended by then it
ends as it would have, and otherwise it ends at that instant, was cancelled, and leaves the state
as it is then.  If its handler has not returned by then, what happens is part of the look-up and
of the handler, and there is no change among it unless the handler makes changes itself. -/
theorem cancelled_dispatch (hS : S.Built own) (hk : (D.route k).handler = some handler)
    (serial : ℕ) (d : Delays W) (now : ℕ) (request : C.Request k)
    (answer : (what : Moment W) → σ → what.Answer × σ) (s : σ) :
    (S.dispatch D serial d now k request .cancelled).run answer s =
        ((now, .error .cancelled), s) ∧
      (S.dispatch D serial d now k request .cancelled).history answer s = [] ∧
      ∀ t, now ≤ t →
        (S.dispatch D serial d now k request (.cancelledAt t)).history answer s =
          ((S.dispatch D serial d now k request .live).history answer s).takeWhile (·.1 ≤ t) ∧
        (((S.dispatch D serial d now k request .live).run answer s).1.1 ≤ t →
          (S.dispatch D serial d now k request (.cancelledAt t)).run answer s =
            (S.dispatch D serial d now k request .live).run answer s) ∧
        (t < ((S.dispatch D serial d now k request .live).run answer s).1.1 →
          (S.dispatch D serial d now k request (.cancelledAt t)).run answer s =
            ((t, .error .cancelled),
              Timeline.replay answer (((S.dispatch D serial d now k request .live).history answer
                s).takeWhile (·.1 ≤ t)) s)) ∧
        ((D.route k).stages = [] →
          t < ((Timeline.play d .live now (S.reach k handler request)).run answer s).1.1 →
          (S.dispatch D serial d now k request (.cancelledAt t)).history answer s =
            ((Timeline.play d .live now (S.reach k handler request)).history answer s).takeWhile
              (·.1 ≤ t) ∧
          ((handler request).IsQuiet →
            ∀ m ∈ (S.dispatch D serial d now k request (.cancelledAt t)).history answer s,
              ¬ m.2.IsChange)) := by
  have hwired : ((S.wire D serial).1.route k).handler = some handler :=
    (handler_wire hS serial k).trans hk
  have hbefore : S.dispatch D serial d now k request .cancelled =
      .ended now (.error .cancelled) :=
    Dispatcher.play_send_cancelled hwired d now request
  refine ⟨by rw [hbefore]; rfl, by rw [hbefore]; rfl, ?_⟩
  intro t hnow
  have hcut : S.dispatch D serial d now k request (.cancelledAt t) =
      (S.dispatch D serial d now k request .live).cutAt t (.error .cancelled) :=
    Dispatcher.play_send_cancelledAt hwired d hnow request
  have hhistory : (S.dispatch D serial d now k request (.cancelledAt t)).history answer s =
      ((S.dispatch D serial d now k request .live).history answer s).takeWhile (·.1 ≤ t) := by
    rw [hcut, Timeline.history_cutAt]
  refine ⟨hhistory, ?_, ?_, ?_⟩
  · intro hended
    rw [hcut]
    exact Timeline.run_cutAt_of_le (Timeline.play_inOrder d .live now _) hended
  · intro hlate
    refine Prod.ext ?_ ?_
    · rw [hcut]
      exact Timeline.run_cutAt_of_lt hlate
    · rw [Timeline.run_snd, hhistory]
  · intro hstages ht
    have hpart := hhistory.trans (history_before_handler hS hk hstages serial d ht)
    refine ⟨hpart, fun hquiet m hm => ?_⟩
    rw [hpart] at hm
    have hreach := Timeline.play_isQuiet d .live now (S.isQuiet_reach hquiet)
    exact hreach.mem_history answer s m ((List.takeWhile_prefix _).subset hm)

end CacheSetup

namespace Demo

/-- Reads take five milliseconds, changes three, and the handling of a request takes ten. -/
def pace : Delays (handlings catalogue) where
  read _ := 5
  change _ := 3
  work _ := 10

/-- A store in which nothing is found.  It is counted how many changes are made. -/
def counted : (what : Moment (handlings catalogue)) → ℕ → what.Answer × ℕ
  | .beginRead _, n => ((), n)
  | .beginChange _, n => ((), n)
  | .read _, n => (.ok none, n)
  | .change _, n => (.ok (), n + 1)
  | .log _, n => ((), n)
  | .measure _ _, n => ((), n)
  | .work ⟨k, number⟩, n => (greetings n k number, n)

/-- The seventh greeting is asked for, beginning at the instant zero. -/
def askSeventh (token : Token) :
    Timeline (handlings catalogue) (Outcome catalogue Kind.greeting) :=
  setup.dispatch .asksAll 0 pace 0 Kind.greeting (7 : ℕ) token

/-- The greeting is looked up until the instant five and would be handled until the instant
fifteen.  Cancelled at the instant twelve, its dispatch ends there without a change. -/
theorem cancelled_greeting :
    (askSeventh .cancelled).run counted 0 = ((0, .error .cancelled), 0) ∧
      (askSeventh (.cancelledAt 12)).run counted 0 = ((12, .error .cancelled), 0) ∧
      (askSeventh (.cancelledAt 12)).history counted 0 =
        [(0, .beginRead "demo.GetGreeting:7"), (5, .read "demo.GetGreeting:7")] ∧
      ∀ m ∈ (askSeventh (.cancelledAt 12)).history counted 0, ¬ m.2.IsChange := by
  have hreach : 12 < ((Timeline.play pace .live 0 (setup.reach Kind.greeting
      (asking (C := catalogue) Kind.greeting) (7 : ℕ))).run counted 0).1.1 := by
    have hfifteen : ((Timeline.play pace .live 0 (setup.reach Kind.greeting
      (asking (C := catalogue) Kind.greeting) (7 : ℕ))).run counted 0).1.1 = 15 := rfl
    omega
  have hend := CacheSetup.reach_le_end built_setup (D := .asksAll) (k := Kind.greeting) rfl rfl 0
    pace 0 (7 : ℕ) counted 0
  have hquiet : (asking (C := catalogue) Kind.greeting (7 : ℕ)).IsQuiet := by
    refine ⟨nofun, ?_⟩
    rintro (_ | outcome) <;> trivial
  obtain ⟨hbefore, -, hat⟩ := CacheSetup.cancelled_dispatch built_setup (D := .asksAll)
    (k := Kind.greeting) rfl 0 pace 0 (7 : ℕ) counted 0
  obtain ⟨hcut, -, hlate, hearly⟩ := hat 12 (by decide)
  obtain ⟨hpart, hnone⟩ := hearly rfl hreach
  have hhistory : (askSeventh (.cancelledAt 12)).history counted 0 =
      [(0, .beginRead "demo.GetGreeting:7"), (5, .read "demo.GetGreeting:7")] := hpart.trans rfl
  have hstate : Timeline.replay counted ((askSeventh (.cancelledAt 12)).history counted 0) 0 =
      0 := by
    rw [hhistory]
    rfl
  rw [askSeventh, hcut] at hstate
  refine ⟨hbefore, (hlate (Nat.lt_of_lt_of_le hreach hend)).trans (Prod.ext rfl hstate), hhistory,
    hnone hquiet⟩

end Demo

end RequestCache
