/-
# The laws of time lines

What happens along a time line is a list of moments with their instants, given what the moments
are answered with (`Timeline.history`); the state that is left depends on them alone
(`run_snd`).  Instants never go back (`play_inOrder`), so what happened until an instant is a
beginning of what happens.

When nobody cancels, one action after the other makes one time line after the other
(`play_bind`).
-/
import Mathlib.Tactic.Common
import Mathlib.Tactic.Lemma
import RequestCache.Timeline

namespace RequestCache

variable {W : Interface} {α β σ : Type}

/-- A wait is cut short at its beginning or later. -/
lemma Token.le_of_cut? {token : Token} {now due instant : ℕ}
    (h : token.cut? now due = some instant) : now ≤ instant := by
  unfold Token.cut? at h
  split at h
  · split_ifs at h
    cases h
    exact Nat.le_max_left _ _
  · cases h

/-- Is a change begun or made at the moment? -/
def Moment.IsChange : Moment W → Prop
  | .beginChange _ => True
  | .change _ => True
  | _ => False

/-- The action makes no changes. -/
def Action.IsQuiet : Action W α → Prop
  | .done _ => True
  | .ask e next => (∀ changes, e ≠ .apply changes) ∧ ∀ x, IsQuiet (next x)

lemma Action.IsQuiet.bind {p : Action W α} {f : α → Action W β} (hp : p.IsQuiet)
    (hf : ∀ a, (f a).IsQuiet) : (p >>= f).IsQuiet := by
  induction p with
  | done a => exact hf a
  | ask e next ih => exact ⟨hp.1, fun x => ih x (hp.2 x)⟩

namespace Timeline

/-! ## What happens along a time line -/

/-- What happens along a time line, with the instants, the earliest first. -/
def history (answer : (what : Moment W) → σ → what.Answer × σ) :
    Timeline W α → σ → List (ℕ × Moment W)
  | ended _ _, _ => []
  | moment t what next, s =>
    (t, what) :: (next (answer what s).1).history answer (answer what s).2

/-- The state after moments. -/
def replay (answer : (what : Moment W) → σ → what.Answer × σ) (h : List (ℕ × Moment W))
    (s : σ) : σ := h.foldl (fun s m => (answer m.2 s).2) s

/-- One time line after the other; the second one is told when the first one ends and with what
result. -/
def andThen : Timeline W α → (ℕ → α → Timeline W β) → Timeline W β
  | ended t a, f => f t a
  | moment t what next, f => moment t what fun x => (next x).andThen f

section

variable {answer : (what : Moment W) → σ → what.Answer × σ}

/-- The state that a time line leaves is the one after what happens along it. -/
theorem run_snd (T : Timeline W α) (s : σ) :
    (T.run answer s).2 = replay answer (T.history answer s) s := by
  induction T generalizing s with
  | ended t a => rfl
  | moment t what next ih => exact ih _ _

lemma run_andThen (T : Timeline W α) (f : ℕ → α → Timeline W β) (s : σ) :
    (T.andThen f).run answer s =
      (f (T.run answer s).1.1 (T.run answer s).1.2).run answer (T.run answer s).2 := by
  induction T generalizing s with
  | ended t a => rfl
  | moment t what next ih => exact ih _ _

lemma history_andThen (T : Timeline W α) (f : ℕ → α → Timeline W β) (s : σ) :
    (T.andThen f).history answer s = T.history answer s ++
      (f (T.run answer s).1.1 (T.run answer s).1.2).history answer (T.run answer s).2 := by
  induction T generalizing s with
  | ended t a => rfl
  | moment t what next ih => exact congrArg ((t, what) :: ·) (ih _ _)

end

/-! ## Instants never go back -/

/-- The instants of the time line never go back, and none of them is before `now`. -/
def InOrder (now : ℕ) : Timeline W α → Prop
  | ended t _ => now ≤ t
  | moment t _ next => now ≤ t ∧ ∀ x, (next x).InOrder t

lemma InOrder.mono {T : Timeline W α} {now earlier : ℕ} (h : T.InOrder now)
    (hle : earlier ≤ now) : T.InOrder earlier := by
  cases T with
  | ended t a => exact Nat.le_trans hle h
  | moment t what next => exact ⟨Nat.le_trans hle h.1, h.2⟩

/-- All that happens lies between the beginning and the end. -/
theorem InOrder.mem_history {T : Timeline W α} {now : ℕ} (h : T.InOrder now)
    (answer : (what : Moment W) → σ → what.Answer × σ) (s : σ) :
    now ≤ (T.run answer s).1.1 ∧
      ∀ m ∈ T.history answer s, now ≤ m.1 ∧ m.1 ≤ (T.run answer s).1.1 := by
  induction T generalizing now s with
  | ended t a =>
    refine ⟨h, ?_⟩
    rintro m ⟨⟩
  | moment t what next ih =>
    obtain ⟨hend, hall⟩ := ih _ (h.2 _) (answer what s).2
    refine ⟨Nat.le_trans h.1 hend, ?_⟩
    intro m hm
    rcases List.mem_cons.1 hm with rfl | hm
    · exact ⟨h.1, hend⟩
    · exact ⟨Nat.le_trans h.1 (hall m hm).1, (hall m hm).2⟩

lemma InOrder.begin {T : Timeline W α} {now : ℕ} (h : T.InOrder now) (changes : List Change) :
    (begin now changes T).InOrder now := by
  induction changes with
  | nil => exact h
  | cons c changes ih => exact ⟨Nat.le_refl now, fun _ => ih⟩

lemma pairwise_due_mergeSort (fs : List Flight) :
    (fs.mergeSort fun f g => f.due ≤ g.due).Pairwise fun f g => f.due ≤ g.due := by
  have hsorted := @List.pairwise_mergeSort Flight (fun f g => f.due ≤ g.due)
    (by simpa using fun a b c : Flight => Nat.le_trans)
    (by simpa using fun a b : Flight => Nat.le_total a.due b.due) fs
  simpa using hsorted

/-- Changes that began at an instant take effect in order, none of them before. -/
lemma flights_inOrder (d : Delays W) (now : ℕ) (changes : List Change) :
    (flights d now changes).Pairwise (fun f g => f.due ≤ g.due) ∧
      ∀ f ∈ flights d now changes, now ≤ f.due := by
  constructor
  · exact pairwise_due_mergeSort _
  · intro f hf
    have hmem := (List.mergeSort_perm _ _).mem_iff.1 hf
    obtain ⟨⟨c, i⟩, -, rfl⟩ := List.mem_map.1 hmem
    exact Nat.le_add_right _ _

lemma land_inOrder {resume : Token → ℕ → Option (List ChangeOutcome) → Timeline W α}
    (hresume : ∀ token now outcomes, (resume token now outcomes).InOrder now) (token : Token)
    {now : ℕ} {landed : List (ℕ × ChangeOutcome)} {fs : List Flight}
    (hsorted : fs.Pairwise fun f g => f.due ≤ g.due) (hfs : ∀ f ∈ fs, now ≤ f.due) :
    (land token resume now landed fs).InOrder now := by
  induction fs generalizing now landed with
  | nil => exact hresume token now _
  | cons f fs ih =>
    obtain ⟨hfirst, hsorted⟩ := List.pairwise_cons.1 hsorted
    rw [land]
    cases hcut : token.cut? now f.due with
    | some instant => exact (hresume .cancelled instant none).mono (Token.le_of_cut? hcut)
    | none => exact ⟨hfs f List.mem_cons_self, fun _ => ih hsorted hfirst⟩

/-- An action goes on from the instant at which it begins. -/
theorem play_inOrder (d : Delays W) (token : Token) (now : ℕ) (p : Action W α) :
    (play d token now p).InOrder now := by
  induction p generalizing token now with
  | done a => exact Nat.le_refl now
  | ask e next ih =>
    cases e with
    | isCancelled => exact ih _ token now
    | log e => exact ⟨Nat.le_refl now, fun _ => ih _ token now⟩
    | measure r m => exact ⟨Nat.le_refl now, fun _ => ih _ token now⟩
    | read key =>
      rw [play]
      split_ifs
      · exact ih _ token now
      · refine ⟨Nat.le_refl now, fun _ => ?_⟩
        cases hcut : token.cut? now (now + d.read key) with
        | some instant => exact (ih _ _ instant).mono (Token.le_of_cut? hcut)
        | none => exact ⟨Nat.le_add_right _ _, fun _ => ih _ token _⟩
    | apply changes =>
      rw [play]
      split_ifs
      · exact ih _ token now
      · obtain ⟨hsorted, hfs⟩ := flights_inOrder d now changes
        exact (land_inOrder (fun token now outcomes => ih outcomes token now) token hsorted
          hfs).begin changes
    | work op =>
      rw [play]
      split_ifs
      · exact ih _ token now
      · cases hcut : token.cut? now (now + d.work op) with
        | some instant => exact (ih _ _ instant).mono (Token.le_of_cut? hcut)
        | none => exact ⟨Nat.le_add_right _ _, fun _ => ih _ token _⟩

/-! ## One action after the other -/

lemma begin_andThen (now : ℕ) (changes : List Change) (T : Timeline W α)
    (f : ℕ → α → Timeline W β) :
    (begin now changes T).andThen f = begin now changes (T.andThen f) := by
  induction changes with
  | nil => rfl
  | cons c changes ih => exact congrArg (moment now (.beginChange c)) (funext fun _ => ih)

lemma andThen_ended (T : Timeline W α) : T.andThen ended = T := by
  induction T with
  | ended t a => rfl
  | moment t what next ih => exact congrArg (moment t what) (funext ih)

lemma andThen_andThen {γ : Type} (T : Timeline W α) (f : ℕ → α → Timeline W β)
    (g : ℕ → β → Timeline W γ) :
    (T.andThen f).andThen g = T.andThen fun t a => (f t a).andThen g := by
  induction T with
  | ended t a => rfl
  | moment t what next ih => exact congrArg (moment t what) (funext ih)

/-- Nobody cuts the changes short, so it only matters how it goes on after the last one. -/
lemma land_live_andThen {resume : Token → ℕ → Option (List ChangeOutcome) → Timeline W α}
    {resume' : Token → ℕ → Option (List ChangeOutcome) → Timeline W β}
    {f : ℕ → α → Timeline W β}
    (hresume : ∀ now outcomes, resume' .live now (some outcomes) =
      (resume .live now (some outcomes)).andThen f)
    (now : ℕ) (landed : List (ℕ × ChangeOutcome)) (fs : List Flight) :
    land .live resume' now landed fs = (land .live resume now landed fs).andThen f := by
  induction fs generalizing now landed with
  | nil => exact hresume now _
  | cons g fs ih =>
    exact congrArg (moment g.due (.change g.change)) (funext fun _ => ih _ _)

/-- When nobody cancels, one action after the other makes one time line after the other. -/
theorem play_bind (d : Delays W) (now : ℕ) (p : Action W α) (f : α → Action W β) :
    play d .live now (p >>= f) =
      (play d .live now p).andThen fun now a => play d .live now (f a) := by
  induction p generalizing now with
  | done a => rfl
  | ask e next ih =>
    change play d .live now (.ask (I := effects W) e fun x => next x >>= f) = _
    cases e with
    | isCancelled => exact ih _ now
    | log e => exact congrArg (moment now (.log e)) (funext fun _ => ih _ now)
    | measure r m => exact congrArg (moment now (.measure r m)) (funext fun _ => ih _ now)
    | read key =>
      refine congrArg (moment now (.beginRead key)) (funext fun _ => ?_)
      exact congrArg (moment _ (.read key)) (funext fun outcome => ih _ _)
    | apply changes =>
      change begin now changes _ = (begin now changes _).andThen _
      rw [begin_andThen]
      exact congrArg (begin now changes)
        (land_live_andThen (fun now outcomes => ih (some outcomes) now) now [] _)
    | work op => exact congrArg (moment _ (.work op)) (funext fun x => ih _ _)

/-- When nobody cancels, an action that would be dropped is not. -/
lemma play_untilCancelled (d : Delays W) (now : ℕ) (p : Action W α) :
    play d .live now p.untilCancelled =
      (play d .live now p).andThen fun now a => ended now (some a) := by
  induction p generalizing now with
  | done a => rfl
  | ask e next ih =>
    change play d .live now (.ask (I := effects W) e fun x =>
      if Effect.isCut e x then .done none else Action.untilCancelled (next x)) = _
    cases e with
    | isCancelled => exact ih _ now
    | log e => exact congrArg (moment now (.log e)) (funext fun _ => ih _ now)
    | measure r m => exact congrArg (moment now (.measure r m)) (funext fun _ => ih _ now)
    | read key =>
      refine congrArg (moment now (.beginRead key)) (funext fun _ => ?_)
      exact congrArg (moment _ (.read key)) (funext fun outcome => ih (some outcome) _)
    | apply changes =>
      change begin now changes _ = (begin now changes _).andThen _
      rw [begin_andThen]
      exact congrArg (begin now changes)
        (land_live_andThen (fun now outcomes => ih (some outcomes) now) now [] _)
    | work op => exact congrArg (moment _ (.work op)) (funext fun x => ih (some x) _)

/-! ## Time lines without changes -/

/-- No change is begun or made along the time line. -/
def IsQuiet : Timeline W α → Prop
  | ended _ _ => True
  | moment _ what next => ¬ what.IsChange ∧ ∀ x, (next x).IsQuiet

lemma IsQuiet.mem_history {T : Timeline W α} (h : T.IsQuiet)
    (answer : (what : Moment W) → σ → what.Answer × σ) (s : σ) :
    ∀ m ∈ T.history answer s, ¬ m.2.IsChange := by
  induction T generalizing s with
  | ended t a => rintro m ⟨⟩
  | moment t what next ih =>
    intro m hm
    rcases List.mem_cons.1 hm with rfl | hm
    · exact h.1
    · exact ih _ (h.2 _) _ m hm

/-- An action that makes no changes has a time line without changes. -/
theorem play_isQuiet (d : Delays W) (token : Token) (now : ℕ) {p : Action W α}
    (hp : p.IsQuiet) : (play d token now p).IsQuiet := by
  induction p generalizing token now with
  | done a => trivial
  | ask e next ih =>
    have hnext : ∀ x token now, (play d token now (next x)).IsQuiet := fun x token now =>
      ih x token now (hp.2 x)
    cases e with
    | isCancelled => exact hnext _ token now
    | log e => exact ⟨id, fun _ => hnext _ token now⟩
    | measure r m => exact ⟨id, fun _ => hnext _ token now⟩
    | read key =>
      rw [play]
      split_ifs
      · exact hnext _ token now
      · refine ⟨id, fun _ => ?_⟩
        cases token.cut? now (now + d.read key) with
        | some instant => exact hnext _ _ instant
        | none => exact ⟨id, fun _ => hnext _ token _⟩
    | apply changes => exact absurd rfl (hp.1 changes)
    | work op =>
      rw [play]
      split_ifs
      · exact hnext _ token now
      · cases token.cut? now (now + d.work op) with
        | some instant => exact hnext _ _ instant
        | none => exact ⟨id, fun _ => hnext _ token _⟩

end Timeline

end RequestCache
