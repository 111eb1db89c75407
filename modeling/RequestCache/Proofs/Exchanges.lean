/-
# Programs on their way

While a program is on its way some of its questions have been answered.  What was asked and what
was answered, in order, says how far it has come (`Program.Along`), whoever answered and whatever
else happened in between; answers that come after its end are left over.  So one program after the
other can be followed along one list of exchanges, each from where the one before has ended
(`Program.along_bind_iff`).

What is counted on the way is told to recorders.  A program that tells nothing of what is watched
adds nothing to the count (`Action.IsMute.along`).  Between two waits a program may tell several
things; it rests when it has told what there was to tell (`Action.Rests`).

An action that may be dropped is followed up to the first answer that was cut short
(`Action.exists_along_of_untilCancelled`).
-/
import Mathlib.Tactic.Common
import Mathlib.Tactic.Lemma
import RequestCache.Effect

namespace RequestCache

/-! ## How far a program has come -/

namespace Program

variable {I : Interface} {α β : Type}

/-- An operation with its answer. -/
abbrev Exchange (I : Interface) := (op : I.Op) × I.Answer op

/-- Along some exchanges a program comes to another one, which is what is left of it; if it ends
before, the exchanges that come after are left over. -/
inductive Along : Program I α → List (Exchange I) → Program I α → List (Exchange I) → Prop
  /-- It has ended. -/
  | ended (a : α) (t : List (Exchange I)) : Along (done a) t (done a) t
  /-- It waits for an answer. -/
  | waiting (op : I.Op) (next : I.Answer op → Program I α) :
    Along (ask op next) [] (ask op next) []
  /-- It goes on with an answer. -/
  | answered {op : I.Op} {next : I.Answer op → Program I α} {x : I.Answer op}
      {t t' : List (Exchange I)} {q : Program I α} (h : Along (next x) t q t') :
    Along (ask op next) (⟨op, x⟩ :: t) q t'

/-- The program ends along the exchanges, with a result and with what is left over. -/
abbrev Ends (p : Program I α) (t : List (Exchange I)) (a : α) (t' : List (Exchange I)) : Prop :=
  p.Along t (done a) t'

variable {p q r : Program I α} {f : α → Program I β} {t t' s : List (Exchange I)} {a b : α}

/-- The exchanges say how far a program has come. -/
theorem Along.unique (h : p.Along t q t') (h' : p.Along t r s) : q = r ∧ t' = s := by
  induction h with
  | ended a t =>
    cases h'
    exact ⟨rfl, rfl⟩
  | waiting op next =>
    cases h'
    exact ⟨rfl, rfl⟩
  | answered h ih =>
    cases h' with
    | answered h' => exact ih h'

lemma along_done_iff : (done a).Along t q t' ↔ q = done a ∧ t' = t := by
  constructor
  · rintro ⟨⟩
    exact ⟨rfl, rfl⟩
  · rintro ⟨rfl, rfl⟩
    exact .ended a t'

lemma ends_done_iff : (done a).Ends t b t' ↔ b = a ∧ t' = t := by
  rw [Ends, along_done_iff]
  exact and_congr_left' ⟨fun h => Program.done.inj h, congrArg done⟩

lemma ends_ask_iff {op : I.Op} {next : I.Answer op → Program I α} :
    (ask op next).Ends t a s ↔ ∃ x rest, t = ⟨op, x⟩ :: rest ∧ (next x).Ends rest a s := by
  constructor
  · intro h
    cases h with
    | answered h => exact ⟨_, _, rfl, h⟩
  · rintro ⟨x, rest, rfl, h⟩
    exact .answered h

/-- One program after the other. -/
theorem along_bind_iff {q : Program I β} :
    (p >>= f).Along t q t' ↔
      (∃ p', p.Along t p' [] ∧ (∀ a, p' ≠ done a) ∧ q = p' >>= f ∧ t' = []) ∨
      ∃ a s, p.Ends t a s ∧ (f a).Along s q t' := by
  constructor
  · intro h
    induction p generalizing t with
    | done a => exact .inr ⟨a, t, .ended a t, h⟩
    | ask op next ih =>
      cases h with
      | waiting => exact .inl ⟨_, .waiting op next, nofun, rfl, rfl⟩
      | answered h =>
        rcases ih _ h with ⟨p', hp', hne, rfl, rfl⟩ | ⟨a, s, ha, hs⟩
        · exact .inl ⟨p', .answered hp', hne, rfl, rfl⟩
        · exact .inr ⟨a, s, .answered ha, hs⟩
  · rintro (⟨p', hp', hne, rfl, rfl⟩ | ⟨a, s, ha, hs⟩)
    · induction p generalizing t with
      | done a =>
        cases hp'
        exact absurd rfl (hne a)
      | ask op next ih =>
        cases hp' with
        | waiting => exact .waiting op _
        | answered hp' => exact .answered (ih _ hp')
    · induction p generalizing t with
      | done b =>
        cases ha
        exact hs
      | ask op next ih =>
        cases ha with
        | answered ha => exact .answered (ih _ ha)

lemma ends_bind_iff {b : β} :
    (p >>= f).Ends t b t' ↔ ∃ a s, p.Ends t a s ∧ (f a).Ends s b t' := by
  rw [Ends, along_bind_iff]
  refine or_iff_right ?_
  rintro ⟨p', -, hne, heq, -⟩
  cases p' with
  | done a => exact hne a rfl
  | ask op next => cases heq

/-- The exchanges that are left over do not matter. -/
lemma ends_iff_exists_append : p.Ends t a s ↔ ∃ own, t = own ++ s ∧ p.Ends own a [] := by
  induction p generalizing t with
  | done b =>
    rw [ends_done_iff]
    constructor
    · rintro ⟨rfl, rfl⟩
      exact ⟨[], rfl, .ended _ _⟩
    · rintro ⟨own, rfl, hown⟩
      obtain ⟨rfl, rfl⟩ := ends_done_iff.1 hown
      exact ⟨rfl, rfl⟩
  | ask op next ih =>
    constructor
    · intro h
      cases h with
      | @answered _ _ x _ _ _ h =>
        obtain ⟨own, rfl, hown⟩ := (ih x).1 h
        exact ⟨⟨op, x⟩ :: own, rfl, .answered hown⟩
    · rintro ⟨own, rfl, hown⟩
      cases hown with
      | answered hown => exact .answered ((ih _).2 ⟨_, rfl, hown⟩)

/-- One program after the other, each along its own exchanges. -/
lemma ends_bind_iff_append {b : β} :
    (p >>= f).Ends t b [] ↔
      ∃ a own rest, t = own ++ rest ∧ p.Ends own a [] ∧ (f a).Ends rest b [] := by
  rw [ends_bind_iff]
  constructor
  · rintro ⟨a, rest, ha, hb⟩
    obtain ⟨own, rfl, hown⟩ := ends_iff_exists_append.1 ha
    exact ⟨a, own, rest, rfl, hown, hb⟩
  · rintro ⟨a, own, rest, rfl, ha, hb⟩
    exact ⟨a, rest, ends_iff_exists_append.2 ⟨own, rfl, ha⟩, hb⟩

/-- Whoever was answered was waiting. -/
lemma Along.exists_ask {x : Exchange I} (h : p.Along (t ++ x :: s) q []) :
    ∃ next : I.Answer x.1 → Program I α, p.Along t (ask x.1 next) [] := by
  induction t generalizing p with
  | nil =>
    cases h with
    | answered h => exact ⟨_, .waiting _ _⟩
  | cons y t ih =>
    cases h with
    | answered h =>
      obtain ⟨next, hnext⟩ := ih h
      exact ⟨next, .answered hnext⟩

/-- A program that has not ended has not ended. -/
lemma Along.not_ends (h : p.Along t q t') (hq : ∀ a, q ≠ done a) : ¬ p.Ends t a s :=
  fun hends => hq a (h.unique hends).1

end Program

/-! ## What is told on the way -/

variable {W : Interface} {α β : Type}

/-- A question of an action with its answer. -/
abbrev Exchange (W : Interface) := Program.Exchange (effects W)

/-- Does an effect tell a recorder of what is watched? -/
def Effect.tells (w : Recorder → Measure → Bool) : Effect W → Bool
  | .measure recorder what => w recorder what
  | _ => false

/-- How often something that is watched was told. -/
def told (w : Recorder → Measure → Bool) (t : List (Exchange W)) : ℕ :=
  t.countP fun x => Effect.tells w x.1

variable {w : Recorder → Measure → Bool} {x : Exchange W} {t t' : List (Exchange W)}

lemma told_cons : told w (x :: t) = told w t + if Effect.tells w x.1 then 1 else 0 :=
  List.countP_cons

/-- What is added to the count when a recorder is told something. -/
def tally (w : Recorder → Measure → Bool) (recorder : Recorder) (what : Measure) : ℕ :=
  if w recorder what then 1 else 0

lemma told_append : told w (t ++ t') = told w t + told w t' := List.countP_append

lemma told_cons_of_not_tells (h : Effect.tells w x.1 = false) : told w (x :: t) = told w t := by
  rw [told_cons, h]
  rfl

namespace Action

/-- The action has told what there was to tell, and it has ended or it waits. -/
def Rests : Action W α → Prop
  | .ask (.log _) _ => False
  | .ask (.measure _ _) _ => False
  | _ => True

lemma Rests.of_bind {p : Action W α} {f : α → Action W β} (h : Rests (p >>= f))
    (hp : ∀ a, p ≠ .done a) : p.Rests := by
  cases p with
  | done a => exact absurd rfl (hp a)
  | ask e next => cases e <;> exact h

/-- One action after the other: the first one is on its way, or it has ended. -/
lemma along_bind_cases {p : Action W α} {f : α → Action W β} {q : Action W β}
    (h : (p >>= f).Along t q t') (hq : q.Rests) :
    (∃ p' : Action W α, p.Along t p' [] ∧ p'.Rests ∧ (∀ a, p' ≠ .done a) ∧ (∀ b, q ≠ .done b) ∧
      t' = []) ∨
    ∃ a s, p.Ends t a s ∧ (f a).Along s q t' := by
  rcases Program.along_bind_iff.1 h with ⟨p', hp', hne, rfl, rfl⟩ | hrest
  · refine .inl ⟨p', hp', hq.of_bind hne, hne, fun b hb => ?_, rfl⟩
    cases p' with
    | done a => exact hne a rfl
    | ask e next => cases hb
  · exact .inr hrest

lemma ends_log_bind_iff {event : Event} {next : Unit → Action W α} {a : α} :
    (Action.log event >>= next).Ends t a t' ↔
      ∃ s, t = ⟨.log event, ()⟩ :: s ∧ (next ()).Ends s a t' :=
  Program.ends_ask_iff.trans
    ⟨fun ⟨_, s, ht, hs⟩ => ⟨s, ht, hs⟩, fun ⟨s, ht, hs⟩ => ⟨(), s, ht, hs⟩⟩

lemma ends_measure_bind_iff {recorder : Recorder} {what : Measure} {next : Unit → Action W α}
    {a : α} : (Action.measure recorder what >>= next).Ends t a t' ↔
      ∃ s, t = ⟨.measure recorder what, ()⟩ :: s ∧ (next ()).Ends s a t' :=
  Program.ends_ask_iff.trans
    ⟨fun ⟨_, s, ht, hs⟩ => ⟨s, ht, hs⟩, fun ⟨s, ht, hs⟩ => ⟨(), s, ht, hs⟩⟩

/-- If nothing is asked for after an action, all exchanges are its own. -/
lemma exists_along_of_bind_done {p : Action W α} {f : α → Action W β} {q : Action W β}
    (hf : ∀ a, ∃ b, f a = .done b) (h : (p >>= f).Along t q t') (hq : q.Rests) :
    ∃ p' : Action W α, p.Along t p' t' ∧ p'.Rests := by
  rcases along_bind_cases h hq with ⟨p', hp', hrests, -, -, rfl⟩ | ⟨a, s, ha, hs⟩
  · exact ⟨p', hp', hrests⟩
  · obtain ⟨b, hb⟩ := hf a
    rw [hb] at hs
    obtain ⟨-, rfl⟩ := Program.along_done_iff.1 hs
    exact ⟨_, ha, trivial⟩

/-- What is measured next has been measured. -/
lemma exists_of_along_measure {recorder : Recorder} {what : Measure} {next : Unit → Action W α}
    {q : Action W α} (h : (Action.measure recorder what >>= next).Along t q t') (hq : q.Rests) :
    ∃ s, (Action.measure recorder what).Ends t () s ∧ (next ()).Along s q t' ∧
      told w t = told w s + tally w recorder what := by
  cases h with
  | waiting => exact hq.elim
  | answered h => exact ⟨_, .answered (.ended () _), h, told_cons⟩

/-- What is logged next has been logged. -/
lemma exists_of_along_log {event : Event} {next : Unit → Action W α} {q : Action W α}
    (h : (Action.log event >>= next).Along t q t') (hq : q.Rests) :
    ∃ s, (Action.log event).Ends t () s ∧ (next ()).Along s q t' ∧ told w t = told w s := by
  cases h with
  | waiting => exact hq.elim
  | answered h => exact ⟨_, .answered (.ended () _), h, told_cons_of_not_tells rfl⟩

/-- Nothing that is watched is told, whatever the answers are, and the result is as `post` says. -/
def IsMute (w : Recorder → Measure → Bool) (post : α → Prop) : Action W α → Prop
  | .done a => post a
  | .ask e next => e.tells w = false ∧ ∀ x, IsMute w post (next x)

namespace IsMute

variable {post : α → Prop} {p q : Action W α}

lemma bind {post' : β → Prop} {f : α → Action W β} (hp : p.IsMute w post)
    (hf : ∀ a, post a → (f a).IsMute w post') : (p >>= f).IsMute w post' := by
  induction p with
  | done a => exact hf a hp
  | ask e next ih => exact ⟨hp.1, fun x => ih x (hp.2 x)⟩

/-- A mute action adds nothing to what is told. -/
theorem along (hp : p.IsMute w post) (h : p.Along t q t') :
    told w t = told w t' ∧ q.IsMute w post := by
  induction h with
  | ended a t => exact ⟨rfl, hp⟩
  | waiting op next => exact ⟨rfl, hp⟩
  | answered h ih =>
    obtain ⟨htold, hq⟩ := ih (hp.2 _)
    exact ⟨(told_cons_of_not_tells hp.1).trans htold, hq⟩

end IsMute

/-! ## Actions that may be dropped -/

/-- The exchanges before the first one that was cut short. -/
def uncut (t : List (Exchange W)) : List (Exchange W) := t.takeWhile fun x => !Effect.isCut x.1 x.2

/-- An action that may be dropped has come as far as the answers that were not cut short take
it. -/
theorem exists_along_of_untilCancelled {p : Action W α} {q : Action W (Option α)}
    (h : p.untilCancelled.Along t q []) (hq : q.Rests) :
    ∃ p' : Action W α, p.Along (uncut t) p' [] ∧ p'.Rests ∧ told w t = told w (uncut t) := by
  induction p generalizing t with
  | done a =>
    obtain ⟨rfl, rfl⟩ := Program.along_done_iff.1 h
    exact ⟨.done a, .ended a [], trivial, rfl⟩
  | ask e next ih =>
    rw [untilCancelled] at h
    cases h with
    | waiting =>
      refine ⟨.ask (I := effects W) e next, .waiting e next, ?_, rfl⟩
      cases e <;> exact hq
    | @answered _ _ x t _ _ h =>
      beta_reduce at h
      split_ifs at h with hcut
      · -- the answer that was cut short is the last one, and it told nothing
        obtain ⟨-, rfl⟩ := Program.along_done_iff.1 h
        have hnone : uncut [(⟨e, x⟩ : Exchange W)] = [] := by simp [uncut, hcut]
        rw [hnone]
        refine ⟨.ask (I := effects W) e next, .waiting e next, ?_, ?_⟩
        · cases e <;> trivial
        · refine told_cons_of_not_tells ?_
          cases e <;> first | rfl | cases hcut
      · obtain ⟨p', hp', hrests, htold⟩ := ih x h
        have hsome : uncut ((⟨e, x⟩ : Exchange W) :: t) = ⟨e, x⟩ :: uncut t :=
          List.takeWhile_cons_of_pos (by simpa using hcut)
        rw [hsome]
        refine ⟨p', .answered hp', hrests, ?_⟩
        rw [told_cons, told_cons, htold]

/-- An action that may be dropped ends as usual if no answer is cut short. -/
lemma ends_untilCancelled {p : Action W α} {a : α} (h : p.Ends t a [])
    (huncut : ∀ x ∈ t, Effect.isCut x.1 x.2 = false) : p.untilCancelled.Ends t (some a) [] := by
  induction p generalizing t with
  | done b =>
    obtain ⟨rfl, rfl⟩ := Program.ends_done_iff.1 h
    exact .ended _ _
  | ask e next ih =>
    cases h with
    | @answered _ _ x t _ _ h =>
      refine .answered ?_
      rw [if_neg (by simpa using huncut _ List.mem_cons_self)]
      exact ih x h fun y hy => huncut y (List.mem_cons_of_mem _ hy)

end Action

end RequestCache
