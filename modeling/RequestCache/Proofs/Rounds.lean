/-
# Rounds of evictions

After a request was answered its evictions run, one after the other.  What an eviction does is its
own affair: it may ask for anything, and it ends in any way, whatever the reason.  Each eviction
that runs has a turn (`Eviction.Turn`): it is announced, it does what it does, and then its success
is counted or its failure is logged.

A round consists of the turns of the evictions, in their order, up to the first one that is
cancelled, or of all of them (`Eviction.IsRound`).  A request passes the stage of its evictions
along such a round and no other way, and the outcome and the counts are those of the round
(`Eviction.stage_round`).
-/
import RequestCache.Proofs.Balance

namespace RequestCache

variable {C : Catalogue} {W : Interface} {k : C.Kind} {w : Recorder → Measure → Bool}

/-! ## What comes to be counted -/

namespace Ledger

/-- The ledger becomes another one along some exchanges, whatever time the operations take. -/
inductive Becomes : Ledger → List (Exchange W) → Ledger → Prop
  | same (l : Ledger) : Becomes l [] l
  | next {l l' : Ledger} {x : Exchange W} {t : List (Exchange W)} (elapsed : Span)
      (h : Becomes (l.after elapsed x.1) t l') : Becomes l (x :: t) l'

/-- How many entries of a target were removed by requests of a name. -/
def evictionsOf (l : Ledger) (request target : String) : ℕ :=
  l.counterOf (.evictions request target)

/-- Is a recorder told that an entry of the target was removed by a request of the name? -/
def watches (request target : String) : Recorder → Measure → Bool
  | r, .eviction target' => r.request = request ∧ target' = target
  | _, _ => false

lemma evictionsOf_record (l : Ledger) (request target : String) (r : Recorder) (what : Measure)
    (elapsed : Span) :
    (l.record r what 1 elapsed).evictionsOf request target =
      l.evictionsOf request target + tally (watches request target) r what := by
  have htally : tally (watches request target) r what =
      if what.counter? r.request = some (.evictions request target) then 1 else 0 := by
    cases what <;> simp [tally, watches, Measure.counter?]
  rw [htally]
  exact l.counterOf_record (.evictions request target) r what 1 elapsed

/-- A number that every measure moves by what it counts for moves by what was told. -/
lemma Becomes.eq_add_told {f : Ledger → ℕ} {l l' : Ledger} {t : List (Exchange W)}
    (hf : ∀ l r what elapsed, f (l.record r what 1 elapsed) = f l + tally w r what)
    (h : l.Becomes t l') : f l' = f l + told w t := by
  induction h with
  | same l => rfl
  | @next l l' x t elapsed h ih =>
    obtain ⟨e, answered⟩ := x
    rw [ih, told_cons, ← Nat.add_assoc, Nat.add_right_comm]
    refine congrArg (· + told w t) ?_
    cases e with
    | measure r what => exact hf l r what elapsed
    | _ => rfl

end Ledger

/-! ## Turns -/

namespace Eviction

/-- The turn of an eviction: what it asks for and how that is answered, and how it ends. -/
structure Turn (C : Catalogue) (W : Interface) (k : C.Kind) where
  eviction : Eviction C W k
  inside : List (Exchange W)
  outcome : Except CacheFault Unit

namespace Turn

/-- What is told about an eviction that has ended: its success is counted, and its failure is
logged. -/
def report (recorder : Recorder) (turn : Turn C W k) : List (Exchange W) :=
  match turn.outcome with
  | .ok () =>
    [⟨.measure recorder (.eviction turn.eviction.target), ()⟩,
      ⟨.measure recorder (.finished "invalidate"), ()⟩]
  | .error .cancelled => []
  | .error e => [⟨.log (.evictionFailed (C.name k) turn.eviction.target e), ()⟩]

/-- All that happens in a turn. -/
def exchanges (recorder : Recorder) (turn : Turn C W k) : List (Exchange W) :=
  ⟨.log (.evicting (C.name k) turn.eviction.target), ()⟩ :: (turn.inside ++ turn.report recorder)

/-- The eviction can take this turn. -/
def IsRun (request : C.Request k) (turn : Turn C W k) : Prop :=
  (turn.eviction.evict request).Ends turn.inside turn.outcome []

/-- The eviction was cancelled. -/
def IsCut (turn : Turn C W k) : Prop := turn.outcome = .error .cancelled

/-- The fault with which the eviction ended. -/
def fault? (turn : Turn C W k) : Option CacheFault :=
  match turn.outcome with
  | .ok () => none
  | .error e => some e

/-- The faults that a single turn adds to those of a round; none if the round is cut short. -/
def faults? (turn : Turn C W k) : Option (List CacheFault) :=
  match turn.outcome with
  | .ok () => some []
  | .error .cancelled => none
  | .error e => some [e]

end Turn

variable {recorder : Recorder} {request : C.Request k} {eviction : Eviction C W k}
  {evictions : List (Eviction C W k)} {turn : Turn C W k} {turns : List (Turn C W k)}
  {t : List (Exchange W)}

lemma Turn.faults?_of_isCut (h : turn.IsCut) : turn.faults? = none := by
  rw [Turn.faults?, h]

lemma Turn.faults?_of_not_isCut (h : ¬ turn.IsCut) :
    turn.faults? = some turn.fault?.toList := by
  obtain ⟨eviction, inside, outcome⟩ := turn
  rcases outcome with e | ⟨⟩
  · cases e <;> first | rfl | exact absurd rfl h
  · rfl

/-- What is done after an eviction has ended. -/
def afterwards (recorder : Recorder) (eviction : Eviction C W k) :
    Except CacheFault Unit → Action W (Option (List CacheFault))
  | .ok () => do
    Action.measure recorder (.eviction eviction.target)
    Action.measure recorder (.finished "invalidate")
    return some []
  | .error .cancelled => return none
  | .error e => do
    Action.log (.evictionFailed (C.name k) eviction.target e)
    return some [e]

lemma runAll_singleton_eq : runAll recorder request [eviction] =
    Action.log (.evicting (C.name k) eviction.target) >>= fun _ =>
      eviction.evict request >>= afterwards recorder eviction := by
  refine congrArg (Action.log _ >>= ·) (funext fun _ => ?_)
  refine congrArg (eviction.evict request >>= ·) (funext fun outcome => ?_)
  rcases outcome with e | ⟨⟩
  · cases e <;> rfl
  · rfl

lemma ends_afterwards_iff (turn : Turn C W k) {x : Option (List CacheFault)} :
    (afterwards recorder turn.eviction turn.outcome).Ends t x [] ↔
      t = turn.report recorder ∧ x = turn.faults? := by
  obtain ⟨eviction, inside, outcome⟩ := turn
  rcases outcome with e | ⟨⟩
  · have hlogged : ∀ e' : CacheFault,
        (Action.log (W := W) (.evictionFailed (C.name k) eviction.target e') >>=
          fun _ => .done (some [e'])).Ends t x [] ↔
        t = [⟨.log (.evictionFailed (C.name k) eviction.target e'), ()⟩] ∧ x = some [e'] := by
      intro e'
      rw [Action.ends_log_bind_iff]
      constructor
      · rintro ⟨s, rfl, hs⟩
        obtain ⟨rfl, rfl⟩ := Program.ends_done_iff.1 hs
        exact ⟨rfl, rfl⟩
      · rintro ⟨rfl, rfl⟩
        exact ⟨[], rfl, .ended _ _⟩
    cases e with
    | cancelled =>
      refine Program.ends_done_iff.trans ⟨?_, ?_⟩
      · rintro ⟨rfl, rfl⟩
        exact ⟨rfl, rfl⟩
      · rintro ⟨rfl, rfl⟩
        exact ⟨rfl, rfl⟩
    | _ => exact hlogged _
  · refine Action.ends_measure_bind_iff.trans ⟨?_, ?_⟩
    · rintro ⟨s, rfl, hs⟩
      obtain ⟨s, rfl, hdone⟩ := Action.ends_measure_bind_iff.1 hs
      obtain ⟨rfl, rfl⟩ := Program.ends_done_iff.1 hdone
      exact ⟨rfl, rfl⟩
    · rintro ⟨rfl, rfl⟩
      exact ⟨_, rfl, Action.ends_measure_bind_iff.2 ⟨[], rfl, .ended _ _⟩⟩

/-- A single eviction is run. -/
lemma ends_runAll_singleton_iff {x : Option (List CacheFault)} :
    (runAll recorder request [eviction]).Ends t x [] ↔
      ∃ turn : Turn C W k, turn.eviction = eviction ∧ turn.IsRun request ∧
        t = turn.exchanges recorder ∧ x = turn.faults? := by
  rw [runAll_singleton_eq]
  refine Action.ends_log_bind_iff.trans ⟨?_, ?_⟩
  · rintro ⟨rest, rfl, hrest⟩
    obtain ⟨outcome, inside, last, rfl, hinside, hlast⟩ := Program.ends_bind_iff_append.1 hrest
    obtain ⟨rfl, rfl⟩ := (ends_afterwards_iff ⟨eviction, inside, outcome⟩).1 hlast
    exact ⟨⟨eviction, inside, outcome⟩, rfl, hinside, rfl, rfl⟩
  · rintro ⟨turn, rfl, hrun, rfl, rfl⟩
    exact ⟨_, rfl, Program.ends_bind_iff_append.2
      ⟨_, _, _, rfl, hrun, (ends_afterwards_iff _).2 ⟨rfl, rfl⟩⟩⟩

/-- The turns of evictions that are run in their order, up to the first one that is cancelled, or to
the last one. -/
structure IsRound (request : C.Request k) (evictions : List (Eviction C W k))
    (turns : List (Turn C W k)) : Prop where
  inOrder : turns.map Turn.eviction <+: evictions
  run : ∀ turn ∈ turns, turn.IsRun request
  uncut : ∀ turn ∈ turns.dropLast, ¬ turn.IsCut
  complete : turns.map Turn.eviction ≠ evictions → ∃ turn ∈ turns.getLast?, turn.IsCut

lemma isRound_nil_iff : IsRound request [] turns ↔ turns = [] := by
  constructor
  · intro h
    simpa using h.inOrder
  · rintro rfl
    exact ⟨List.nil_prefix, nofun, nofun, fun h => absurd rfl h⟩

/-- After the first turn the round goes on, unless it is cut short. -/
lemma isRound_cons_iff :
    IsRound request (eviction :: evictions) turns ↔
      ∃ turn rest, turns = turn :: rest ∧ turn.eviction = eviction ∧ turn.IsRun request ∧
        (turn.IsCut ∧ rest = [] ∨ ¬ turn.IsCut ∧ IsRound request evictions rest) := by
  constructor
  · intro h
    cases turns with
    | nil =>
      obtain ⟨turn, hturn, -⟩ := h.complete (by simp)
      cases hturn
    | cons turn rest =>
      obtain ⟨rfl, hrest⟩ := List.cons_prefix_cons.1 h.inOrder
      refine ⟨turn, rest, rfl, rfl, h.run turn List.mem_cons_self, ?_⟩
      by_cases hcut : turn.IsCut
      · refine .inl ⟨hcut, ?_⟩
        -- a turn that is not the last one is not cut short
        cases rest with
        | nil => rfl
        | cons next rest => exact absurd hcut (h.uncut turn (by simp))
      · refine .inr ⟨hcut, hrest, fun turn' hturn' => h.run turn' (List.mem_cons_of_mem _ hturn'),
          fun turn' hturn' => ?_, fun hne => ?_⟩
        · refine h.uncut turn' ?_
          cases rest with
          | nil => cases hturn'
          | cons next rest => exact List.mem_cons_of_mem _ hturn'
        · obtain ⟨last, hlast, hcut'⟩ := h.complete fun heq => hne (List.cons.inj heq).2
          cases rest with
          | nil =>
            cases hlast
            exact absurd hcut' hcut
          | cons next rest => exact ⟨last, by simpa using hlast, hcut'⟩
  · rintro ⟨turn, rest, rfl, rfl, hrun, ⟨hcut, rfl⟩ | ⟨hcut, hrest⟩⟩
    · exact ⟨List.cons_prefix_cons.2 ⟨rfl, List.nil_prefix⟩, by simpa using hrun, nofun,
        fun _ => ⟨turn, rfl, hcut⟩⟩
    · refine ⟨List.cons_prefix_cons.2 ⟨rfl, hrest.inOrder⟩, ?_, ?_, fun hne => ?_⟩
      · exact List.forall_mem_cons.2 ⟨hrun, hrest.run⟩
      · intro turn' hturn'
        cases rest with
        | nil => cases hturn'
        | cons next rest =>
          rcases List.mem_cons.1 hturn' with rfl | hturn'
          · exact hcut
          · exact hrest.uncut turn' hturn'
      · obtain ⟨last, hlast, hcut'⟩ := hrest.complete fun heq => hne (congrArg _ heq)
        cases rest with
        | nil => cases hlast
        | cons next rest => exact ⟨last, by simpa using hlast, hcut'⟩

/-- What comes of the turns of a round: nothing if one of them was cut short, and otherwise their
faults, in order. -/
def Gathers (turns : List (Turn C W k)) (x : Option (List CacheFault)) : Prop :=
  (∃ turn ∈ turns, turn.IsCut) ∧ x = none ∨
    (∀ turn ∈ turns, ¬ turn.IsCut) ∧ x = some (turns.filterMap Turn.fault?)

lemma gathers_nil_iff {x : Option (List CacheFault)} :
    Gathers ([] : List (Turn C W k)) x ↔ x = some [] := by
  simp [Gathers]

lemma gathers_cons_iff (hcut : ¬ turn.IsCut) {x : Option (List CacheFault)} :
    Gathers (turn :: turns) x ↔
      ∃ y, Gathers turns y ∧ x = y.map (turn.fault?.toList ++ ·) := by
  have hfaults : (turn :: turns).filterMap Turn.fault? =
      turn.fault?.toList ++ turns.filterMap Turn.fault? := by
    cases hfault : turn.fault? <;> simp [hfault]
  simp only [Gathers, hfaults, List.exists_mem_cons_iff, List.forall_mem_cons, hcut, false_or,
    not_false_eq_true, true_and]
  constructor
  · rintro (⟨hsome, rfl⟩ | ⟨hnone, rfl⟩)
    · exact ⟨none, .inl ⟨hsome, rfl⟩, rfl⟩
    · exact ⟨_, .inr ⟨hnone, rfl⟩, rfl⟩
  · rintro ⟨y, ⟨hsome, rfl⟩ | ⟨hnone, rfl⟩, rfl⟩
    · exact .inl ⟨hsome, rfl⟩
    · exact .inr ⟨hnone, rfl⟩

/-- Evictions are run one after the other along the turns of a round. -/
theorem ends_runAll_iff {x : Option (List CacheFault)} :
    (runAll recorder request evictions).Ends t x [] ↔
      ∃ turns, IsRound request evictions turns ∧ t = turns.flatMap (Turn.exchanges recorder) ∧
        Gathers turns x := by
  induction evictions generalizing t x with
  | nil =>
    refine Program.ends_done_iff.trans ⟨?_, ?_⟩
    · rintro ⟨rfl, rfl⟩
      exact ⟨[], isRound_nil_iff.2 rfl, rfl, gathers_nil_iff.2 rfl⟩
    · rintro ⟨turns, hround, rfl, hx⟩
      obtain rfl := isRound_nil_iff.1 hround
      exact ⟨gathers_nil_iff.1 hx, rfl⟩
  | cons eviction evictions ih =>
    rw [runAll_cons, Program.ends_bind_iff_append]
    constructor
    · rintro ⟨first, own, rest, rfl, hown, hrest⟩
      obtain ⟨turn, rfl, hrun, rfl, rfl⟩ := ends_runAll_singleton_iff.1 hown
      by_cases hcut : turn.IsCut
      · rw [Turn.faults?_of_isCut hcut] at hrest
        obtain ⟨rfl, rfl⟩ := Program.ends_done_iff.1 hrest
        exact ⟨[turn], isRound_cons_iff.2 ⟨turn, [], rfl, rfl, hrun, .inl ⟨hcut, rfl⟩⟩, by simp,
          .inl ⟨⟨turn, List.mem_cons_self, hcut⟩, rfl⟩⟩
      · rw [Turn.faults?_of_not_isCut hcut] at hrest
        obtain ⟨y, others, last, rfl, hothers, hlast⟩ := Program.ends_bind_iff_append.1 hrest
        obtain ⟨rfl, rfl⟩ := Program.ends_done_iff.1 hlast
        obtain ⟨turns, hround, rfl, hy⟩ := ih.1 hothers
        exact ⟨turn :: turns, isRound_cons_iff.2 ⟨turn, turns, rfl, rfl, hrun, .inr ⟨hcut, hround⟩⟩,
          by simp, (gathers_cons_iff hcut).2 ⟨y, hy, rfl⟩⟩
    · rintro ⟨turns, hround, rfl, hx⟩
      obtain ⟨turn, rest, rfl, rfl, hrun, ⟨hcut, rfl⟩ | ⟨hcut, hrest⟩⟩ := isRound_cons_iff.1 hround
      · obtain rfl : x = none := by
          rcases hx with ⟨-, rfl⟩ | ⟨hnone, -⟩
          · rfl
          · exact absurd hcut (hnone turn List.mem_cons_self)
        refine ⟨turn.faults?, turn.exchanges recorder, [], by simp,
          ends_runAll_singleton_iff.2 ⟨turn, rfl, hrun, rfl, rfl⟩, ?_⟩
        rw [Turn.faults?_of_isCut hcut]
        exact .ended _ _
      · obtain ⟨y, hy, rfl⟩ := (gathers_cons_iff hcut).1 hx
        refine ⟨turn.faults?, turn.exchanges recorder, rest.flatMap (Turn.exchanges recorder), rfl,
          ends_runAll_singleton_iff.2 ⟨turn, rfl, hrun, rfl, rfl⟩, ?_⟩
        rw [Turn.faults?_of_not_isCut hcut]
        exact Program.ends_bind_iff_append.2 ⟨y, _, [], by simp, ih.2 ⟨rest, hrest, rfl, hy⟩,
          .ended _ _⟩

/-! ## The stage of the evictions -/

variable {handler : Handler C W k} {stages : List (Stage C W k)} {outcome : Outcome C k}

/-- What a request that was answered ends with after a round of evictions. -/
structure Concludes (response : C.Response k) (turns : List (Turn C W k)) (outcome : Outcome C k) :
    Prop where
  cancelled : (∃ turn ∈ turns, turn.outcome = .error .cancelled) → outcome = .error .cancelled
  succeeded : (∀ turn ∈ turns, turn.outcome = .ok ()) → outcome = .ok response
  failed : (∀ turn ∈ turns, turn.outcome ≠ .error .cancelled) →
    (∃ turn ∈ turns, turn.outcome ≠ .ok ()) → outcome =
      .error (.failed (.cache (.evictions (C.name k) (turns.filterMap Turn.fault?))))

lemma Turn.fault?_eq_none_iff : turn.fault? = none ↔ turn.outcome = .ok () := by
  rw [Turn.fault?]
  rcases turn.outcome with e | ⟨⟩ <;> simp

lemma filterMap_fault?_eq_nil_iff :
    turns.filterMap Turn.fault? = [] ↔ ∀ turn ∈ turns, turn.outcome = .ok () :=
  List.filterMap_eq_nil_iff.trans
    (forall₂_congr fun _ _ => Turn.fault?_eq_none_iff)

lemma exists_gathers (turns : List (Turn C W k)) : ∃ x, Gathers turns x := by
  by_cases hcut : ∃ turn ∈ turns, turn.IsCut
  · exact ⟨none, .inl ⟨hcut, rfl⟩⟩
  · exact ⟨_, .inr ⟨fun turn hturn hturn' => hcut ⟨turn, hturn, hturn'⟩, rfl⟩⟩

/-- The outcome of a request whose evictions have gathered their faults. -/
def outcomeOf (response : C.Response k) : Option (List CacheFault) → Outcome C k
  | none => .error .cancelled
  | some [] => .ok response
  | some faults => .error (CacheFault.evictions (C.name k) faults).toDispatch

lemma afterSuccess_ok_eq (response : C.Response k) :
    afterSuccess evictions recorder request (.ok response) =
      runAll recorder request evictions >>= fun x => .done (outcomeOf response x) := by
  refine congrArg (runAll recorder request evictions >>= ·) (funext fun x => ?_)
  rcases x with _ | _ | ⟨fault, faults⟩ <;> rfl

lemma concludes_iff_of_gathers {response : C.Response k} {x : Option (List CacheFault)}
    (hx : Gathers turns x) :
    Concludes response turns outcome ↔ outcome = outcomeOf response x := by
  rcases hx with ⟨hcut, rfl⟩ | ⟨hnone, rfl⟩
  · refine ⟨fun h => h.cancelled hcut, ?_⟩
    rintro rfl
    obtain ⟨turn, hturn, hcut⟩ := hcut
    refine ⟨fun _ => rfl, fun hall => ?_, fun hnot _ => absurd hcut (hnot turn hturn)⟩
    cases hcut.symm.trans (hall turn hturn)
  · by_cases hall : ∀ turn ∈ turns, turn.outcome = .ok ()
    · rw [filterMap_fault?_eq_nil_iff.2 hall]
      refine ⟨fun h => h.succeeded hall, ?_⟩
      rintro rfl
      refine ⟨fun ⟨turn, hturn, hcut⟩ => absurd hcut (hnone turn hturn), fun _ => rfl, ?_⟩
      rintro - ⟨turn, hturn, hne⟩
      exact absurd (hall turn hturn) hne
    · have hfaults : turns.filterMap Turn.fault? ≠ [] := fun h =>
        hall (filterMap_fault?_eq_nil_iff.1 h)
      have houtcome : outcomeOf response (some (turns.filterMap Turn.fault?)) =
          .error (.failed (.cache (.evictions (C.name k) (turns.filterMap Turn.fault?)))) := by
        cases hgathered : turns.filterMap Turn.fault? with
        | nil => exact absurd hgathered hfaults
        | cons fault faults => rfl
      rw [houtcome]
      refine ⟨fun h => h.failed hnone (by simpa using hall), ?_⟩
      rintro rfl
      exact ⟨fun ⟨turn, hturn, hcut⟩ => absurd hcut (hnone turn hturn), fun h => absurd h hall,
        fun _ _ => rfl⟩

/-- What is told along the turns of a round: what the evictions tell on their own, and the successes
among them. -/
lemma told_exchanges (hw : w recorder (.finished "invalidate") = false) :
    told w (turns.flatMap (Turn.exchanges recorder)) = told w (turns.flatMap Turn.inside) +
      turns.countP fun turn =>
        turn.outcome.isOk && w recorder (.eviction turn.eviction.target) := by
  have hreport : ∀ turn : Turn C W k, told w (turn.report recorder) =
      if turn.outcome.isOk && w recorder (.eviction turn.eviction.target) then 1 else 0 := by
    rintro ⟨eviction, inside, outcome⟩
    rcases outcome with e | ⟨⟩
    · cases e <;> rfl
    · cases htarget : w recorder (.eviction eviction.target) <;>
        simp [Turn.report, told, Effect.tells, hw, htarget, Except.isOk, Except.toBool]
  induction turns with
  | nil => rfl
  | cons turn turns ih =>
    rw [List.flatMap_cons, List.flatMap_cons, told_append, told_append, ih, Turn.exchanges,
      told_cons_of_not_tells rfl, told_append, hreport, List.countP_cons]
    omega

/-- A number that every measure moves by what it counts for moves along a round by what is told
besides, and by the successes of the evictions. -/
lemma eq_add_told_of_becomes {f : Ledger → ℕ} {l l' : Ledger}
    {before : List (Exchange W)}
    (h : l.Becomes (before ++ turns.flatMap (Turn.exchanges recorder)) l')
    (hf : ∀ l r what elapsed, f (l.record r what 1 elapsed) = f l + tally w r what)
    (hw : w recorder (.finished "invalidate") = false) :
    f l' = f l + told w (before ++ turns.flatMap Turn.inside) +
      turns.countP fun turn =>
        turn.outcome.isOk && w recorder (.eviction turn.eviction.target) := by
  rw [h.eq_add_told hf, told_append, told_append, told_exchanges hw, Nat.add_assoc, Nat.add_assoc]

/-- A request passes the stage of its evictions.

* If what lies further in fails, this is the outcome, and nothing else happens.  If it succeeds, the
  evictions run one after the other in a round: up to the first one that is cancelled, or all of
  them.
* If one was cancelled so is the request.  If all succeeded the response is not changed.  Otherwise
  the request fails with all their faults, in order.
* The ledger counts one removal of a target for every eviction of that target that succeeded, and
  nothing else, apart from what others tell the recorder meanwhile.

Counts do not overflow here. -/
theorem stage_round :
    ((throughStages handler request (stage evictions recorder :: stages)).Ends t outcome [] ↔
      (∃ fault, (throughStages handler request stages).Ends t (.error fault) [] ∧
        outcome = .error fault) ∨
      ∃ response before turns,
        (throughStages handler request stages).Ends before (.ok response) [] ∧
        IsRound request evictions turns ∧
        t = before ++ turns.flatMap (Turn.exchanges recorder) ∧
        Concludes response turns outcome) ∧
    ∀ (before : List (Exchange W)) (turns : List (Turn C W k)) (l l' : Ledger),
      l.Becomes (before ++ turns.flatMap (Turn.exchanges recorder)) l' →
      (∀ target, l'.evictionsOf recorder.request target = l.evictionsOf recorder.request target +
        told (Ledger.watches recorder.request target) (before ++ turns.flatMap Turn.inside) +
        turns.countP fun turn => turn.outcome.isOk && turn.eviction.target = target) ∧
      (l'.countsOf recorder).evictions = (l.countsOf recorder).evictions +
        told (Gauge.evictions.watches recorder) (before ++ turns.flatMap Turn.inside) +
        turns.countP fun turn => turn.outcome.isOk := by
  constructor
  · rw [throughStages_eq, Program.ends_bind_iff_append]
    constructor
    · rintro ⟨fault | response, before, rest, rfl, hbefore, hrest⟩
      · obtain ⟨rfl, rfl⟩ := Program.ends_done_iff.1 hrest
        exact .inl ⟨fault, by simpa using hbefore, rfl⟩
      · rw [afterSuccess_ok_eq] at hrest
        obtain ⟨x, round, last, rfl, hround, hlast⟩ := Program.ends_bind_iff_append.1 hrest
        obtain ⟨rfl, rfl⟩ := Program.ends_done_iff.1 hlast
        obtain ⟨turns, hturns, rfl, hx⟩ := ends_runAll_iff.1 hround
        exact .inr ⟨response, before, turns, hbefore, hturns, by simp,
          (concludes_iff_of_gathers hx).2 rfl⟩
    · rintro (⟨fault, hfault, rfl⟩ | ⟨response, before, turns, hbefore, hturns, rfl, houtcome⟩)
      · exact ⟨.error fault, t, [], by simp, hfault, .ended _ _⟩
      · obtain ⟨x, hx⟩ := exists_gathers turns
        obtain rfl := (concludes_iff_of_gathers hx).1 houtcome
        refine ⟨.ok response, before, _, rfl, hbefore, ?_⟩
        rw [afterSuccess_ok_eq]
        exact Program.ends_bind_iff_append.2 ⟨x, _, [], by simp,
          ends_runAll_iff.2 ⟨turns, hturns, rfl, hx⟩, .ended _ _⟩
  · intro before turns l l' hledger
    refine ⟨fun target => ?_, ?_⟩
    · have hcount := eq_add_told_of_becomes
        (f := fun l => l.evictionsOf recorder.request target) hledger
        (fun l r what elapsed => l.evictionsOf_record recorder.request target r what elapsed) rfl
      simpa [Ledger.watches] using hcount
    · have hcount := eq_add_told_of_becomes
        (f := fun l => (l.countsOf recorder).evictions) hledger
        (fun l r what elapsed => Gauge.evictions.reading_record l recorder r what elapsed) rfl
      simpa [Gauge.watches] using hcount

end Eviction

namespace Demo

/-- An eviction that asks for nothing and ends in a given way. -/
def fated (target : String) (outcome : Except CacheFault Unit) :
    Eviction catalogue counting Kind.reset where
  target := target
  evict _ := .done outcome

/-- The turn that it takes. -/
def turnOf (target : String) (outcome : Except CacheFault Unit) :
    Eviction.Turn catalogue counting Kind.reset :=
  ⟨fated target outcome, [], outcome⟩

lemma isRun_turnOf (target : String) (outcome : Except CacheFault Unit) :
    (turnOf target outcome).IsRun (0 : ℕ) := .ended _ _

/-- The third of four evictions is cancelled: so is the request, the fault of the second one is
forgotten, and the fourth one does not run.  Without the third one all would have run, and the fault
is reported. -/
theorem reset_rounds :
    (∃ t, (throughStages reset (0 : ℕ) [Eviction.stage [fated "a" (.ok ()),
        fated "b" (.error (.unwritable "b")), fated "c" (.error .cancelled), fated "d" (.ok ())]
        resetRecorder]).Ends t (.error .cancelled) [] ∧
      t = [turnOf "a" (.ok ()), turnOf "b" (.error (.unwritable "b")),
        turnOf "c" (.error .cancelled)].flatMap (Eviction.Turn.exchanges resetRecorder)) ∧
    ∃ t, (throughStages reset (0 : ℕ) [Eviction.stage [fated "a" (.ok ()),
        fated "b" (.error (.unwritable "b")), fated "d" (.ok ())] resetRecorder]).Ends t
        (.error (.failed (.cache (.evictions Kind.reset.name [.unwritable "b"])))) [] := by
  refine ⟨⟨_, Eviction.stage_round.1.2 (.inr ⟨(), [], [turnOf "a" (.ok ()),
    turnOf "b" (.error (.unwritable "b")), turnOf "c" (.error .cancelled)], .ended _ _, ?_, rfl,
    ?_⟩), rfl⟩, _, Eviction.stage_round.1.2 (.inr ⟨(), [], [turnOf "a" (.ok ()),
    turnOf "b" (.error (.unwritable "b")), turnOf "d" (.ok ())], .ended _ _, ?_, rfl, ?_⟩)⟩
  · refine ⟨⟨[fated "d" (.ok ())], rfl⟩, ?_, ?_, fun _ => ⟨_, rfl, rfl⟩⟩
    · simp [isRun_turnOf]
    · simp [Eviction.Turn.IsCut, turnOf]
  · refine ⟨fun _ => rfl, fun hall => ?_, fun hnone => ?_⟩
    · cases hall (turnOf "c" (.error .cancelled)) (by simp)
    · exact absurd rfl (hnone (turnOf "c" (.error .cancelled)) (by simp))
  · refine ⟨⟨[], rfl⟩, ?_, ?_, fun hne => absurd rfl hne⟩
    · simp [isRun_turnOf]
    · simp [Eviction.Turn.IsCut, turnOf]
  · refine ⟨?_, fun hall => ?_, fun _ _ => rfl⟩
    · simp [turnOf]
    · cases hall (turnOf "b" (.error (.unwritable "b"))) (by simp)

end Demo

end RequestCache
