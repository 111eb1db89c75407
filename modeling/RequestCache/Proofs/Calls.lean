/-
# Calls to the store

A run is described by all that it asks for (`Program.Ran`).  Where the operations of a part are
known, this says which calls to the store are among them, and that the application does not work
in that part (`Issues`): a look-up is one call, a removal is one call and then the removals that
its answer leads to, and to store a response is one write for each of its keys.

The surroundings are arbitrary, as long as nothing is cancelled (`IsLive`): the store may fail at
any call, and it may be shared.  In a store in which removals take effect (`Erases`), a removal
that succeeded leaves nothing to be read under its key.  In one whose calls succeed (`Reliable`), no
removal fails, whatever it finds.  The store in memory is both (`Scene.reliable_answer`).
-/
import RequestCache.Proofs.Backends
import RequestCache.Proofs.Expiry
import RequestCache.Proofs.Groups
import RequestCache.Proofs.Policies
import RequestCache.Proofs.Provenance
import RequestCache.Proofs.RoundTrip

namespace RequestCache

/-! ## Taking runs apart -/

namespace Program

variable {I : Interface} {α β σ : Type} {answer : (op : I.Op) → σ → I.Answer op × σ}
  {s s' : σ} {ops : List I.Op}

/-- The state that operations leave when they are asked for one after the other. -/
def replay (answer : (op : I.Op) → σ → I.Answer op × σ) (ops : List I.Op) (s : σ) : σ :=
  ops.foldl (fun s op => (answer op s).2) s

lemma ran_done_iff {a b : α} :
    (done a : Program I α).Ran answer s ops b s' ↔ ops = [] ∧ b = a ∧ s' = s := by
  constructor
  · intro h
    obtain ⟨rfl, rfl, rfl⟩ := h.unique (ran_done a s)
    exact ⟨rfl, rfl, rfl⟩
  · rintro ⟨rfl, rfl, rfl⟩
    exact ran_done b s'

lemma ran_ask_iff {op : I.Op} {next : I.Answer op → Program I α} {a : α} :
    (ask op next).Ran answer s ops a s' ↔
      ∃ rest, ops = op :: rest ∧
        (next (answer op s).1).Ran answer (answer op s).2 rest a s' := by
  constructor
  · intro h
    exact ⟨_, h.asked.symm, h.run, rfl⟩
  · rintro ⟨rest, rfl, h⟩
    exact ⟨h.run, congrArg (op :: ·) h.asked⟩

lemma ran_bind_iff {p : Program I α} {f : α → Program I β} {b : β} :
    (p >>= f).Ran answer s ops b s' ↔
      ∃ first a s₁ rest, p.Ran answer s first a s₁ ∧ (f a).Ran answer s₁ rest b s' ∧
        ops = first ++ rest := by
  constructor
  · intro h
    obtain ⟨first, a, s₁, hp⟩ := exists_ran answer p s
    obtain ⟨rest, b', s₂, hf⟩ := exists_ran answer (f a) s₁
    obtain ⟨rfl, rfl, rfl⟩ := h.unique (hp.bind hf)
    exact ⟨first, a, s₁, rest, hp, hf, rfl⟩
  · rintro ⟨first, a, s₁, rest, hp, hf, rfl⟩
    exact hp.bind hf

/-- What a program asks for leads from where it begins to where it ends. -/
lemma Ran.replay_eq {p : Program I α} {a : α} (h : p.Ran answer s ops a s') :
    replay answer ops s = s' := by
  induction p generalizing s ops with
  | done b =>
    obtain ⟨rfl, -, rfl⟩ := ran_done_iff.1 h
    rfl
  | ask op next ih =>
    obtain ⟨rest, rfl, hnext⟩ := ran_ask_iff.1 h
    change replay answer rest (answer op s).2 = s'
    exact ih _ hnext

end Program

open Program (replay)

variable {C : Catalogue} {W : Interface} {k : C.Kind} {α β σ : Type}
  {answer : (e : Effect W) → σ → e.Answer × σ}

lemma replay_append (ops ops' : List (effects W).Op) (s : σ) :
    replay answer (ops ++ ops') s = replay answer ops' (replay answer ops s) :=
  List.foldl_append

/-! ## What is asked of the store -/

/-- A call to the store. -/
inductive StoreCall where
  /-- It is to tell the text under a key. -/
  | get (key : String)
  /-- It is to make a change. -/
  | change (c : Change)

/-- The calls to the store that an effect is made of. -/
def Effect.calls : Effect W → List StoreCall
  | .read key => [.get key]
  | .apply cs => cs.map .change
  | _ => []

/-- The effect is the work of the application. -/
def Effect.IsWork : Effect W → Prop
  | .work _ => True
  | _ => False

/-- Some effects make just these calls to the store, in this order, and the application does not
work. -/
structure Issues (es : List (Effect W)) (calls : List StoreCall) : Prop where
  calls_eq : es.flatMap Effect.calls = calls
  idle : ∀ e ∈ es, ¬ e.IsWork

lemma issues_nil : Issues (W := W) [] [] := ⟨rfl, by simp⟩

lemma issues_cons {e : Effect W} (he : ¬ e.IsWork) {es : List (Effect W)}
    {calls : List StoreCall} (h : Issues es calls) : Issues (e :: es) (e.calls ++ calls) where
  calls_eq := by rw [List.flatMap_cons, h.calls_eq]
  idle e' he' := by
    rcases List.mem_cons.1 he' with rfl | he'
    · exact he
    · exact h.idle e' he'

lemma Issues.append {es es' : List (Effect W)} {calls calls' : List StoreCall}
    (h : Issues es calls) (h' : Issues es' calls') : Issues (es ++ es') (calls ++ calls') where
  calls_eq := by rw [List.flatMap_append, h.calls_eq, h'.calls_eq]
  idle e he := (List.mem_append.1 he).elim (h.idle e) (h'.idle e)

section

variable {s s' : σ} {ops : List (effects W).Op} {a : α} {f : Unit → Action W α}

lemma ran_log_bind {event : Event} (h : (Action.log event >>= f).Ran answer s ops a s') :
    ∃ told rest : List (effects W).Op, Issues told [] ∧
      (f ()).Ran answer (replay answer told s) rest a s' ∧ ops = told ++ rest := by
  obtain ⟨rest, rfl, hrest⟩ := Program.ran_ask_iff.1 h
  exact ⟨[Effect.log event], rest, issues_cons id issues_nil, hrest, rfl⟩

lemma ran_measure_bind {recorder : Recorder} {what : Measure}
    (h : (Action.measure recorder what >>= f).Ran answer s ops a s') :
    ∃ told rest : List (effects W).Op, Issues told [] ∧
      (f ()).Ran answer (replay answer told s) rest a s' ∧ ops = told ++ rest := by
  obtain ⟨rest, rfl, hrest⟩ := Program.ran_ask_iff.1 h
  exact ⟨[Effect.measure recorder what], rest, issues_cons id issues_nil, hrest, rfl⟩

end

/-- The caller never cancels: nothing is cut short, and whoever asks is told so. -/
structure IsLive (answer : (e : Effect W) → σ → e.Answer × σ) : Prop where
  uncut : IsUncut answer
  live : ∀ s, (answer .isCancelled s).1 = false

section

variable {p : Action W α} {s s' : σ} {ops : List (effects W).Op}

lemma ran_untilCancelled (huncut : IsUncut answer) {o : Option α}
    (h : p.untilCancelled.Ran answer s ops o s') : ∃ a, o = some a ∧ p.Ran answer s ops a s' := by
  induction p generalizing s ops with
  | done a =>
    obtain ⟨rfl, rfl, rfl⟩ := Program.ran_done_iff.1 h
    exact ⟨a, rfl, Program.ran_done a _⟩
  | ask e next ih =>
    obtain ⟨rest, rfl, hnext⟩ := Program.ran_ask_iff.1 h
    rw [huncut e s] at hnext
    obtain ⟨a, rfl, hran⟩ := ih _ hnext
    exact ⟨a, rfl, Program.ran_ask_iff.2 ⟨rest, rfl, hran⟩⟩

/-- A guarded action is the action, after it was asked whether to begin. -/
lemma ran_guarded (hlive : IsLive answer) {o : Option α}
    (h : p.guarded.Ran answer s ops o s') :
    ∃ (rest : List (effects W).Op) (a : α), ops = Effect.isCancelled :: rest ∧ o = some a ∧
      p.Ran answer (answer .isCancelled s).2 rest a s' := by
  obtain ⟨rest, rfl, hrest⟩ := Program.ran_ask_iff.1 h
  have hbegun : p.untilCancelled.Ran answer (answer .isCancelled s).2 rest o s' := by
    simpa [Program.bind, hlive.live s] using hrest
  obtain ⟨a, rfl, hran⟩ := ran_untilCancelled hlive.uncut hbegun
  exact ⟨rest, a, rfl, rfl, hran⟩

end

/-! ## Entries -/

namespace Entry

variable {c : Json.Codec α} {key : Key} {s s' : σ} {ops : List (effects W).Op}

/-- A blank text is as good as none. -/
def readable (text : Option String) : Option String := text.filter fun s => !isBlank s

/-- The value that a look-up takes from the answer to its read. -/
def valueOf (c : Json.Codec α) (read : ReadOutcome) : Except StoreFault (Option α) :=
  read.map fun text =>
    (readable text).bind fun text => (Bundle.decode? c text).map Bundle.value

/-- The keys that a removal takes from the answer to its read. -/
def condemned (key : Key) : ReadOutcome → List String
  | .error _ => []
  | .ok text =>
    match readable text with
    | none => []
    | some text =>
      match Bundle.decodeKeys? text with
      | none => [key.text]
      | some listed => doomed key listed

lemma ran_content (huncut : IsUncut answer) {x : Except CacheFault (Option String)}
    (h : (content key).Ran answer s ops x s') :
    ∃ read, (answer (.read key.text) s).1 = some read ∧ ops = [Effect.read key.text] ∧
      s' = (answer (.read key.text) s).2 ∧
      ((∃ source, read = .error source ∧ x = .error (.store source)) ∨
        ∃ text found, read = .ok text ∧ readable text = found ∧ x = .ok found) := by
  obtain ⟨rest, rfl, hrest⟩ := Program.ran_ask_iff.1 h
  obtain ⟨read, hread⟩ := exists_answer_read huncut key.text s
  refine ⟨read, hread, ?_⟩
  rw [hread] at hrest
  rcases read with source | text
  · obtain ⟨rfl, rfl, rfl⟩ := Program.ran_done_iff.1 hrest
    exact ⟨rfl, rfl, .inl ⟨source, rfl, rfl⟩⟩
  · obtain ⟨rfl, rfl, rfl⟩ := Program.ran_done_iff.1 hrest
    exact ⟨rfl, rfl, .inr ⟨text, _, rfl, rfl, rfl⟩⟩

/-- A look-up makes one call to the store. -/
lemma ran_find (huncut : IsUncut answer) {x : Except CacheFault (Option α)}
    (h : (find c key).Ran answer s ops x s') :
    ∃ read, (answer (.read key.text) s).1 = some read ∧
      x = (valueOf c read).mapError .store ∧ Issues ops [.get key.text] := by
  obtain ⟨first, x₀, s₁, rest, hcontent, hrest, rfl⟩ := Program.ran_bind_iff.1 h
  obtain ⟨read, hread, rfl, -, hx₀⟩ := ran_content huncut hcontent
  refine ⟨read, hread, ?_⟩
  have hget : Issues (W := W) [.read key.text] [.get key.text] := issues_cons id issues_nil
  rcases hx₀ with ⟨source, rfl, rfl⟩ | ⟨text, found, rfl, hfound, rfl⟩
  · obtain ⟨rfl, rfl, -⟩ := Program.ran_done_iff.1 hrest
    exact ⟨rfl, hget⟩
  · have hvalue : (valueOf c (.ok text)).mapError CacheFault.store =
        .ok (found.bind fun text => (Bundle.decode? c text).map Bundle.value) := by
      rw [← hfound]
      rfl
    rw [hvalue]
    rcases found with _ | content
    · obtain ⟨rfl, rfl, -⟩ := Program.ran_done_iff.1 hrest
      exact ⟨rfl, hget⟩
    · dsimp only [Option.bind_some] at hrest ⊢
      cases hdecode : Bundle.decode? c content with
      | some bundle =>
        rw [hdecode] at hrest
        obtain ⟨rfl, rfl, -⟩ := Program.ran_done_iff.1 hrest
        exact ⟨rfl, hget⟩
      | none =>
        rw [hdecode] at hrest
        obtain ⟨told, rfl, hdone⟩ := Program.ran_ask_iff.1 hrest
        obtain ⟨rfl, rfl, -⟩ := Program.ran_done_iff.1 hdone
        exact ⟨rfl, hget.append (issues_cons id issues_nil)⟩

lemma ran_changeAll (huncut : IsUncut answer) {operation : String} {change : String → Change}
    {keys : List String} {x : Except CacheFault Unit}
    (h : (changeAll operation change keys).Ran answer s ops x s') :
    ∃ outcomes, (answer (.apply (keys.map change)) s).1 = some outcomes ∧
      x = collect operation keys outcomes ∧ ops = [Effect.apply (keys.map change)] ∧
      s' = (answer (.apply (keys.map change)) s).2 := by
  obtain ⟨outcomes, houtcomes⟩ := exists_answer_apply huncut (keys.map change) s
  obtain ⟨rfl, rfl, rfl⟩ := h.unique (ran_changeAll_of_answer houtcomes)
  exact ⟨outcomes, houtcomes, rfl, rfl, rfl⟩

lemma issues_changeAll (huncut : IsUncut answer) {operation : String} {change : String → Change}
    {keys : List String} {x : Except CacheFault Unit}
    (h : (changeAll operation change keys).Ran answer s ops x s') :
    Issues ops ((keys.map change).map .change) := by
  obtain ⟨outcomes, -, -, rfl, -⟩ := ran_changeAll huncut h
  have happly : Issues (W := W) [.apply (keys.map change)]
      ((keys.map change).map .change ++ []) := issues_cons id issues_nil
  rwa [List.append_nil] at happly

/-- A removal looks under its key and removes what it is to remove by what it finds. -/
lemma ran_remove (huncut : IsUncut answer) {x : Except CacheFault Unit}
    (h : (remove key).Ran answer s ops x s') :
    ∃ read, (answer (.read key.text) s).1 = some read ∧
      Issues ops (.get key.text ::
        ((condemned key read).map Change.delete).map StoreCall.change) := by
  obtain ⟨first, x₀, s₁, rest, hcontent, hrest, rfl⟩ := Program.ran_bind_iff.1 h
  obtain ⟨read, hread, rfl, -, hx₀⟩ := ran_content huncut hcontent
  refine ⟨read, hread, ?_⟩
  have hget : Issues (W := W) [.read key.text] [.get key.text] := issues_cons id issues_nil
  refine hget.append ?_
  rcases hx₀ with ⟨source, rfl, rfl⟩ | ⟨text, found, rfl, hfound, rfl⟩
  · obtain ⟨rfl, -, -⟩ := Program.ran_done_iff.1 hrest
    exact issues_nil
  · rw [condemned, hfound]
    rcases found with _ | content
    · obtain ⟨rfl, -, -⟩ := Program.ran_done_iff.1 hrest
      exact issues_nil
    · dsimp only at hrest ⊢
      cases hkeys : Bundle.decodeKeys? content with
      | some listed =>
        rw [hkeys] at hrest
        exact issues_changeAll huncut hrest
      | none =>
        rw [hkeys] at hrest
        obtain ⟨told, rfl, hchange⟩ := Program.ran_ask_iff.1 hrest
        exact issues_cons id (issues_changeAll huncut hchange)

lemma ensures_remove (key : Key) : (remove (W := W) key).Ensures Uncancelled := by
  refine (ensures_content key).bind ?_
  rintro (e | _ | text) hx
  · obtain ⟨source, rfl⟩ := hx e rfl
    rintro ⟨⟩
  · rintro ⟨⟩
  · dsimp only
    cases Bundle.decodeKeys? text with
    | some listed => exact ensures_changeAll "remove" _ _
    | none => exact fun _ _ => ensures_changeAll "remove" _ _

end Entry

lemma Key.distinct_of_nodup {keys : List Key} (h : keys.Nodup) : distinct keys = keys := by
  induction keys with
  | nil => rfl
  | cons key keys ih =>
    rw [List.nodup_cons] at h
    have hothers : (keys.filter fun other => !other == key) = keys :=
      List.filter_eq_self.2 fun other hother => by
        simpa using fun heq : other = key => h.1 (heq ▸ hother)
    rw [distinct, List.eraseDups_cons, hothers, ← distinct, ih h.2]

namespace Plan

variable {p : Plan C k} {request : C.Request k} {response : C.Response k}

/-- The writes that store a response: one for each of its keys, if it has a written form. -/
def puts (p : Plan C k) (request : C.Request k) (response : C.Response k) : List Change :=
  match Bundle.encode (C.codec k) ⟨response, (p.entryKeys request response).map Key.text⟩ with
  | .error _ => []
  | .ok text =>
    (p.entryKeys request response).map fun key => .put key.text text p.expiration.lifetime

lemma texts_entryKeys :
    Key.texts (p.entryKeys request response) = (p.entryKeys request response).map Key.text := by
  have hdistinct : Key.distinct (p.entryKeys request response) = p.entryKeys request response :=
    Key.distinct_of_nodup (Key.nodup_distinct _)
  rw [Key.texts, hdistinct]

lemma puts_of_encode {text : String}
    (h : Bundle.encode (C.codec k) ⟨response, Key.texts (p.entryKeys request response)⟩ =
      .ok text) :
    p.puts request response =
      (Key.texts (p.entryKeys request response)).map (.put · text p.expiration.lifetime) := by
  rw [texts_entryKeys] at h ⊢
  rw [puts, h, List.map_map]
  rfl

lemma puts_of_not_encode {message : String}
    (h : Bundle.encode (C.codec k) ⟨response, Key.texts (p.entryKeys request response)⟩ =
      .error message) : p.puts request response = [] := by
  rw [texts_entryKeys] at h
  rw [puts, h]

/-- No key is written twice. -/
lemma nodup_puts : ((p.puts request response).map Change.key).Nodup := by
  cases htext : Bundle.encode (C.codec k)
      ⟨response, Key.texts (p.entryKeys request response)⟩ with
  | ok text =>
    rw [puts_of_encode htext, List.map_map]
    have hkeys : (Key.texts (p.entryKeys request response)).map
        (Change.key ∘ fun key => .put key text p.expiration.lifetime) = _ := List.map_id _
    rw [hkeys]
    exact Key.nodup_texts _
  | error message =>
    rw [puts_of_not_encode htext]
    exact List.nodup_nil

lemma issues_store (huncut : IsUncut answer) {s s' : σ} {ops : List (effects W).Op}
    {written : Except CacheFault Unit}
    (h : (p.store request response).Ran answer s ops written s') :
    Issues ops ((p.puts request response).map .change) := by
  by_cases hkeys : p.entryKeys request response = []
  · rw [store_of_no_keys hkeys] at h
    obtain ⟨rfl, -, -⟩ := Program.ran_done_iff.1 h
    have hnone : p.puts request response = [] := by
      rw [puts, hkeys]
      split <;> rfl
    rw [hnone]
    exact issues_nil
  · cases htext : Bundle.encode (C.codec k)
        ⟨response, Key.texts (p.entryKeys request response)⟩ with
    | ok text =>
      rw [store_of_encode hkeys htext] at h
      rw [puts_of_encode htext]
      exact Entry.issues_changeAll huncut h
    | error message =>
      rw [store_of_not_encode hkeys htext] at h
      obtain ⟨rfl, -, -⟩ := Program.ran_done_iff.1 h
      rw [puts_of_not_encode htext]
      exact issues_nil

end Plan

/-! ## What is removed is gone -/

/-- A store, seen through the texts under its keys, in which a removal takes effect: what is there
after a read is what was read, a key whose removal succeeded holds nothing, and nothing appears
unless it is put there. -/
structure Erases (answer : (e : Effect W) → σ → e.Answer × σ)
    (content : σ → String → Option String) : Prop where
  read : ∀ key s found, (answer (.read key) s).1 = some (.ok found) →
    ∀ text, content (answer (.read key) s).2 key = some text → found = some text
  delete : ∀ (keys : List String) s outcomes,
    (answer (.apply (keys.map .delete)) s).1 = some outcomes →
    outcomes.length = keys.length ∧ ((∀ o ∈ outcomes, o = .ok ()) →
      ∀ key ∈ keys, content (answer (.apply (keys.map .delete)) s).2 key = none)
  shrinks : ∀ (e : Effect W) s key text, e.OnlyRemoves →
    content (answer e s).2 key = some text → content s key = some text

lemma Effect.OnlyRemoves.not_isWork {e : Effect W} (h : e.OnlyRemoves) : ¬ e.IsWork := by
  cases e with
  | work op => exact h.elim
  | _ => exact id

lemma Effect.exists_of_onlyRemoves {cs : List Change} (h : (apply cs : Effect W).OnlyRemoves) :
    ∃ keys : List String, cs = keys.map .delete := by
  refine ⟨cs.map Change.key, ?_⟩
  rw [List.map_map]
  conv_lhs => rw [← List.map_id cs]
  refine List.map_congr_left fun c hc => ?_
  obtain ⟨key, rfl⟩ := h c hc
  rfl

section

variable {content : σ → String → Option String}

lemma Issues.onlyRemoves {es : List (Effect W)} {calls : List StoreCall} (h : Issues es calls)
    (hcalls : ∀ c, .change c ∈ calls → ∃ key, c = .delete key) :
    ∀ e ∈ es, e.OnlyRemoves := by
  intro e he
  have hidle := h.idle e he
  cases e with
  | work op => exact hidle trivial
  | apply cs =>
    intro c hc
    refine hcalls c ?_
    rw [← h.calls_eq, List.mem_flatMap]
    exact ⟨_, he, List.mem_map_of_mem hc⟩
  | _ => trivial

lemma Issues.onlyRemoves_of_quiet {es : List (Effect W)} (h : Issues es []) :
    ∀ e ∈ es, e.OnlyRemoves := h.onlyRemoves (by simp)

/-- What cannot be read cannot be read later either, if nothing is put. -/
lemma Erases.unreadable_replay (herases : Erases answer content) {key : String}
    {ops : List (effects W).Op} (hops : ∀ op ∈ ops, Effect.OnlyRemoves (W := W) op) {s : σ}
    (h : Entry.readable (content s key) = none) :
    Entry.readable (content (replay answer ops s) key) = none := by
  induction ops generalizing s with
  | nil => exact h
  | cons op ops ih =>
    refine ih (fun op' hop' => hops op' (List.mem_cons_of_mem _ hop')) ?_
    cases hcontent : content (answer op s).2 key with
    | none => rfl
    | some text =>
      rwa [herases.shrinks op s key text (hops op List.mem_cons_self) hcontent] at h

/-- Keys whose removal succeeded hold nothing. -/
lemma Erases.content_eq_none (herases : Erases answer content) (huncut : IsUncut answer)
    {keys : List String} {s s' : σ} {ops : List (effects W).Op}
    (h : (Entry.changeAll "remove" .delete keys).Ran answer s ops (.ok ()) s') {key : String}
    (hkey : key ∈ keys) : content s' key = none := by
  obtain ⟨outcomes, houtcomes, hcollect, -, rfl⟩ := Entry.ran_changeAll huncut h
  obtain ⟨hlength, hgone⟩ := herases.delete keys s outcomes houtcomes
  exact hgone (Scene.eq_ok_of_collect hlength hcollect.symm) key hkey

lemma Entry.text_mem_doomed (key : Key) (listed : List String) :
    key.text ∈ doomed key listed := by
  rw [doomed]
  split_ifs with h <;> simp_all

/-- After a removal that succeeded nothing can be read under its key. -/
lemma Erases.unreadable_of_remove (herases : Erases answer content) (huncut : IsUncut answer)
    {key : Key} {s s' : σ} {ops : List (effects W).Op}
    (h : (Entry.remove key).Ran answer s ops (.ok ()) s') :
    Entry.readable (content s' key.text) = none := by
  obtain ⟨first, x, s₁, rest, hcontent, hrest, rfl⟩ := Program.ran_bind_iff.1 h
  obtain ⟨read, hread, -, rfl, hx⟩ := Entry.ran_content huncut hcontent
  rcases hx with ⟨source, rfl, rfl⟩ | ⟨text, found, rfl, hfound, rfl⟩
  · obtain ⟨-, herror, -⟩ := Program.ran_done_iff.1 hrest
    cases herror
  · rcases found with _ | found
    · obtain ⟨-, -, rfl⟩ := Program.ran_done_iff.1 hrest
      cases hleft : content (answer (.read key.text) s).2 key.text with
      | none => rfl
      | some left => rw [← herases.read key.text s text hread left hleft, hfound]
    · have hnone : content s' key.text = none := by
        dsimp only at hrest
        cases hkeys : Bundle.decodeKeys? found with
        | some listed =>
          rw [hkeys] at hrest
          exact herases.content_eq_none huncut hrest (Entry.text_mem_doomed key listed)
        | none =>
          rw [hkeys] at hrest
          obtain ⟨told, removed, -, hremoved, -⟩ := ran_log_bind hrest
          exact herases.content_eq_none huncut hremoved (by simp)
      rw [hnone]
      rfl

end

/-! ## A store that does what it is asked -/

/-- Surroundings in which no call to the store fails, seen through the texts under its keys and the
time: a read tells what is there, writes and removals put texts in place and take them away, and
nothing else changes a text, apart from the application's work.  It is only said of a write what
it does if its lifetime is accepted and does not end at once. -/
structure Reliable (answer : (e : Effect W) → σ → e.Answer × σ) (clock : σ → Instant)
    (content : σ → String → Option String) : Prop where
  live : IsLive answer
  read : ∀ key s, (answer (.read key) s).1 = some (.ok (content s key))
  quiet : ∀ (e : Effect W) s, (∀ c, .change c ∉ e.calls) → ¬ e.IsWork →
    content (answer e s).2 = content s ∧ clock (answer e s).2 = clock s
  put : ∀ (keys : List String) text (l : Lifetime) s, l.check = .ok () →
    (∀ d ∈ l.deadline (clock s), clock s < d) →
    (answer (.apply (keys.map (.put · text l))) s).1 = some (keys.map fun _ => .ok ()) ∧
      ∀ x, content (answer (.apply (keys.map (.put · text l))) s).2 x =
        if x ∈ keys then some text else content s x
  delete : ∀ (keys : List String) s,
    (answer (.apply (keys.map .delete)) s).1 = some (keys.map fun _ => .ok ()) ∧
      ∀ x, content (answer (.apply (keys.map .delete)) s).2 x =
        if x ∈ keys then none else content s x

namespace Reliable

variable {clock : σ → Instant} {content : σ → String → Option String} {s s' : σ}
  {ops : List (effects W).Op}

lemma erases (h : Reliable answer clock content) : Erases answer content where
  read key s found hfound text htext := by
    rw [(h.quiet (.read key) s (by simp [Effect.calls]) id).1] at htext
    rw [← htext]
    exact (Except.ok.inj (Option.some.inj ((h.read key s).symm.trans hfound))).symm
  delete keys s outcomes houtcomes := by
    obtain rfl := Option.some.inj ((h.delete keys s).1.symm.trans houtcomes)
    exact ⟨List.length_map _, fun _ key hkey => ((h.delete keys s).2 key).trans (if_pos hkey)⟩
  shrinks e s key text he htext := by
    by_cases hchange : ∃ cs, e = .apply cs
    · obtain ⟨cs, rfl⟩ := hchange
      obtain ⟨keys, rfl⟩ := Effect.exists_of_onlyRemoves he
      rw [(h.delete keys s).2 key] at htext
      split_ifs at htext
      exact htext
    · have hcalls : ∀ c, .change c ∉ e.calls := by
        cases e with
        | apply cs => exact absurd ⟨cs, rfl⟩ hchange
        | _ => simp [Effect.calls]
      rwa [(h.quiet e s hcalls he.not_isWork).1] at htext

lemma ran_changeAll_delete (h : Reliable answer clock content) {operation : String}
    {keys : List String} {x : Except CacheFault Unit}
    (hran : (Entry.changeAll operation .delete keys).Ran answer s ops x s') : x = .ok () := by
  obtain ⟨outcomes, houtcomes, rfl, -, -⟩ := Entry.ran_changeAll h.live.uncut hran
  obtain rfl := Option.some.inj ((h.delete keys s).1.symm.trans houtcomes)
  exact Scene.collect_of_ok _ _ (by simp)

/-- No removal fails, whatever it finds. -/
lemma ran_remove (h : Reliable answer clock content) {key : Key} {x : Except CacheFault Unit}
    (hran : (Entry.remove key).Ran answer s ops x s') : x = .ok () := by
  obtain ⟨first, x₀, s₁, rest, hcontent, hrest, rfl⟩ := Program.ran_bind_iff.1 hran
  obtain ⟨read, hread, -, -, hx₀⟩ := Entry.ran_content h.live.uncut hcontent
  obtain rfl := Option.some.inj ((h.read key.text s).symm.trans hread)
  rcases hx₀ with ⟨source, hfalse, -⟩ | ⟨text, found, -, -, rfl⟩
  · cases hfalse
  · rcases found with _ | found
    · exact (Program.ran_done_iff.1 hrest).2.1
    · dsimp only at hrest
      cases hkeys : Bundle.decodeKeys? found with
      | some listed =>
        rw [hkeys] at hrest
        exact h.ran_changeAll_delete hrest
      | none =>
        rw [hkeys] at hrest
        obtain ⟨told, removed, -, hremoved, -⟩ := ran_log_bind hrest
        exact h.ran_changeAll_delete hremoved

/-- Calls that are no changes leave the texts as they are, and no time passes. -/
lemma replay_quiet (h : Reliable answer clock content) {es : List (Effect W)}
    {calls : List StoreCall} (hes : Issues es calls) (hcalls : ∀ c, .change c ∉ calls) (s : σ) :
    content (replay (I := effects W) answer es s) = content s ∧
      clock (replay (I := effects W) answer es s) = clock s := by
  induction es generalizing s calls with
  | nil => exact ⟨rfl, rfl⟩
  | cons e es ih =>
    obtain ⟨hcontent, hclock⟩ := h.quiet e s
      (fun c hc => hcalls c (hes.calls_eq ▸ List.mem_flatMap.2 ⟨e, List.mem_cons_self, hc⟩))
      (hes.idle e List.mem_cons_self)
    obtain ⟨hcontent', hclock'⟩ := ih ⟨rfl, fun e' he' => hes.idle e' (List.mem_cons_of_mem e he')⟩
      (fun c hc => hcalls c (by
        rw [← hes.calls_eq, List.flatMap_cons]
        exact List.mem_append_right _ hc)) (answer e s).2
    exact ⟨hcontent'.trans hcontent, hclock'.trans hclock⟩

/-- Removals leave the texts under other keys. -/
lemma replay_onlyRemoves (h : Reliable answer clock content) {key : String}
    (hops : ∀ op ∈ ops, Effect.OnlyRemoves (W := W) op)
    (hkey : ∀ op ∈ ops, .change (.delete key) ∉ Effect.calls (W := W) op) (s : σ) :
    content (replay answer ops s) key = content s key := by
  induction ops generalizing s with
  | nil => rfl
  | cons op ops ih =>
    refine (ih (fun op' hop' => hops op' (List.mem_cons_of_mem op hop'))
      (fun op' hop' => hkey op' (List.mem_cons_of_mem op hop')) _).trans ?_
    have hremoves := hops op List.mem_cons_self
    have hother := hkey op List.mem_cons_self
    cases op with
    | apply cs =>
      obtain ⟨keys, rfl⟩ := Effect.exists_of_onlyRemoves hremoves
      refine ((h.delete keys s).2 key).trans (if_neg fun hmem => hother ?_)
      exact List.mem_map_of_mem (List.mem_map_of_mem hmem)
    | work op => exact hremoves.elim
    | _ => exact congrFun (h.quiet _ s (by simp [Effect.calls]) id).1 key

end Reliable

/-! ## The store in memory -/

namespace Scene

variable {script : Script C}

/-- The text under a key, if it has not ended. -/
def text? (s : Scene C) (key : String) : Option String :=
  (s.memory.live? s.clock key).map Held.value

lemma text?_read (s : Scene C) (key : Key) : (s.read key).text? = s.text? := by
  funext x
  have hlive : (s.memory.read s.clock key.text).2.live? s.clock = _ := Memory.live?_read
  change ((s.memory.read s.clock key.text).2.live? s.clock x).map Held.value = _
  rw [hlive, text?]
  by_cases hx : x = key.text
  · subst hx
    simp [Function.comp_def]
  · rw [Function.update_of_ne hx]

lemma text?_delete (s : Scene C) (keys : List String) (x : String) :
    (s.change (keys.map .delete)).text? x = if x ∈ keys then none else s.text? x := by
  have hget := s.get?_delete keys x
  change (((s.change (keys.map .delete)).memory.get? x).filter _).map Held.value = _
  rw [hget]
  split_ifs <;> rfl

lemma text?_put (s : Scene C) {l : Lifetime} (hl : l.check = .ok ())
    (hdeadline : ∀ d ∈ l.deadline s.clock, s.clock < d) (keys : List String) (text x : String) :
    (s.put keys text l).text? x = if x ∈ keys then some text else s.text? x := by
  have hget := s.get?_put hl keys text x
  change (((s.put keys text l).memory.get? x).filter _).map Held.value = _
  rw [hget]
  split_ifs with hx
  · have hlasts : l.Lasts s.clock s.clock := by
      refine ⟨hdeadline, fun w hw => ?_⟩
      have hpos := Lifetime.sliding_pos hl w hw
      rw [Instant.elapsedSince]
      omega
    obtain ⟨e, hfresh, hended⟩ := hlasts.exists_fresh? (Int.le_refl _) text
    have hlives : e.hasEnded (s.put keys text l).clock = false := hended
    simp [hfresh, Option.filter, hlives, Held.value_of_fresh? hfresh]
  · rfl

/-- Only the work of the application handles requests. -/
lemma handled_replay_of_idle {ops : List (effects (handlings C)).Op}
    (h : ∀ op ∈ ops, ¬ Effect.IsWork (W := handlings C) op) (s : Scene C) :
    (replay (Scene.answer script) ops s).handled = s.handled := by
  induction ops generalizing s with
  | nil => rfl
  | cons op ops ih =>
    refine (ih (fun op' hop' => h op' (List.mem_cons_of_mem op hop')) _).trans ?_
    have hidle := h op List.mem_cons_self
    cases op with
    | work op => exact (hidle trivial).elim
    | _ => rfl

lemma isLive_answer (script : Script C) : IsLive (Scene.answer script) where
  uncut e s := isCut_answer script s e
  live _ := rfl

/-- The store in memory does what it is asked. -/
lemma reliable_answer (script : Script C) : Reliable (Scene.answer script) clock text? where
  live := isLive_answer script
  read key s := by
    rw [text?, ← Memory.read_value]
    rfl
  quiet e s hchange hwork := by
    cases e with
    | read key => exact ⟨s.text?_read ⟨key⟩, rfl⟩
    | apply cs =>
      cases cs with
      | nil => exact ⟨rfl, rfl⟩
      | cons c cs => exact absurd List.mem_cons_self (hchange c)
    | work op => exact absurd trivial hwork
    | _ => exact ⟨rfl, rfl⟩
  put keys text l s hl hdeadline := by
    refine ⟨congrArg some (Memory.changes_puts_outcomes hl text keys), ?_⟩
    exact s.text?_put hl hdeadline keys text
  delete keys s :=
    ⟨congrArg some (Memory.changes_deletes_outcomes keys), s.text?_delete keys⟩

end Scene

end RequestCache
