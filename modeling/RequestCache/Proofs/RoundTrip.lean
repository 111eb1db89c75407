/-
# What was stored comes back

A value that was stored under some keys comes back through each of them, as long as its brackets
nest no deeper than the reader of a stored value may go; if they nest deeper nothing is found,
and that is no error.  Either way each key still tells all the keys, because reading the keys
passes over the value, and so a removal through any of them is a removal of all
(`Scene.round_trip`).

In between the keys may be looked up any number of times: a look-up renews what it finds, and the
entry still stands (`Scene.Stands.afterFinds`).
-/
import RequestCache.Proofs.Cascade
import RequestCache.Proofs.Expiry
import RequestCache.Proofs.Json.Depth
import RequestCache.Rehearsal.Shape

namespace RequestCache

open Json

/-! ## The sample types -/

namespace Rehearsal

lemma Order.isExact (o : Order) : Order.codec.IsExact o := by
  have hnames : "name" ≠ "id" := by decide
  obtain ⟨v, hwrite, hread⟩ := Codec.IsExact.record₂ hnames (Codec.isExact_text o.name)
    (Codec.isExact_uint32 o.id)
  refine ⟨v, hwrite, ?_⟩
  intro depth
  change ((Codec.record₂ "name" .text "id" .uint32).read depth v.tree).map _ = _
  rw [hread]
  split_ifs <;> rfl

/-- The values that a program can hold: numbers of any JSON value are integers of a word, and
members and dictionaries are sorted by name. -/
def Shape.IsProper : (shape : Shape) → shape.Carrier → Prop
  | json, v => Value.IsPlain v
  | dictionary, ms => (List.map Prod.fst ms).Pairwise (· < ·)
  | _, _ => True

/-- The values of all sample types are read back as deep as they nest. -/
theorem Shape.isExact {shape : Shape} {value : shape.Carrier} (h : shape.IsProper value) :
    shape.codec.IsExact value := by
  cases shape with
  | json => exact Codec.isExact_value h
  | word32 => exact Codec.isExact_uint32 value
  | integer64 => exact Codec.isExact_int64 value
  | text => exact Codec.isExact_text value
  | flag => exact Codec.isExact_bool value
  | nothing => exact Codec.isExact_unit
  | order => exact Order.isExact value
  | optional =>
    refine Codec.IsExact.option (fun n => ?_) fun n _ => Codec.isExact_uint32 n
    simp [Codec.uint32]
  | list => exact Codec.IsExact.list fun n _ => Codec.isExact_uint32 n
  | dictionary => exact Codec.IsExact.dictionary h fun m _ => Codec.isExact_uint32 m.2

end Rehearsal

/-- A lifetime that begins at an instant is not over later. -/
structure Lifetime.Lasts (l : Lifetime) (start now : Instant) : Prop where
  deadline : ∀ d ∈ l.deadline start, now < d
  sliding : ∀ w ∈ l.sliding, now.elapsedSince start < w.nanos

/-- An entry whose lifetime is not over is there. -/
lemma Lifetime.Lasts.exists_fresh? {l : Lifetime} {start now : Instant} (h : l.Lasts start now)
    (hnow : start ≤ now) (text : String) :
    ∃ e, Held.fresh? start text l = some e ∧ e.hasEnded now = false := by
  have hcoming : (l.deadline start).any (fun d => d ≤ start) = false := by
    rw [Option.any_eq_false]
    intro d hd
    have hlater : now.nanos < d.nanos := h.deadline d hd
    have hstart : start.nanos ≤ now.nanos := hnow
    rw [decide_eq_false_iff_not, Instant.le_iff]
    omega
  refine ⟨⟨text, l.deadline start, l.sliding, start⟩, ?_, ?_⟩
  · rw [Held.fresh?, hcoming]
    rfl
  · rw [Held.hasEnded, Bool.or_eq_false_iff, Option.any_eq_false, Option.any_eq_false]
    constructor
    · intro d hd
      have hlater : now.nanos < d.nanos := h.deadline d hd
      rw [decide_eq_false_iff_not, Instant.le_iff]
      omega
    · intro w hw
      have hless := h.sliding w hw
      exact decide_eq_false (Nat.not_le.2 hless)

namespace Scene

variable {C : Catalogue} {α : Type} {s s' : Scene C} {keys : List String} {text : String}

/-- Each of the keys holds the text, and can be read. -/
def Stands (s : Scene C) (keys : List String) (text : String) : Prop :=
  ∀ x ∈ keys, ∃ e, s.memory.live? s.clock x = some e ∧ e.value = text

/-- The scene after look-ups under some keys. -/
def afterFinds (script : Script C) (c : Codec α) (looked : List Key) (s : Scene C) : Scene C :=
  looked.foldl (fun s key => (run script (Entry.find c key) s).2) s

lemma Stands.read (h : s.Stands keys text) (key : Key) : (s.read key).Stands keys text := by
  intro x hx
  obtain ⟨e, hlive, hvalue⟩ := h x hx
  have hread : (s.memory.read s.clock key.text).2.live? s.clock = _ := Memory.live?_read
  change ∃ e, (s.memory.read s.clock key.text).2.live? s.clock x = some e ∧ _
  rw [hread]
  by_cases hkey : x = key.text
  · subst hkey
    refine ⟨e.touch s.clock, ?_, ?_⟩
    · rw [Function.update_self, hlive]
      rfl
    · rw [Held.value_touch, hvalue]
  · rw [Function.update_of_ne hkey]
    exact ⟨e, hlive, hvalue⟩

lemma Stands.afterFinds (h : s.Stands keys text) (script : Script C) (c : Codec α)
    (looked : List Key) : (s.afterFinds script c looked).Stands keys text := by
  induction looked generalizing s with
  | nil => exact h
  | cons key looked ih =>
    have hread : (run script (Entry.find c key) s).2 = s.read key := by rw [run_find]
    rw [Scene.afterFinds, List.foldl_cons, hread]
    exact ih (h.read key)

/-- What is written with a lifetime that lasts stands. -/
lemma stands_put {l : Lifetime} (hl : l.check = .ok ()) {now : Instant} (hnow : s.clock ≤ now)
    (hlasts : l.Lasts s.clock now) : ((s.put keys text l).atTime now).Stands keys text := by
  intro x hx
  obtain ⟨e, hfresh, hlives⟩ := hlasts.exists_fresh? hnow text
  refine ⟨e, Memory.live?_eq_some_iff.2 ⟨?_, hlives⟩, Held.value_of_fresh? hfresh⟩
  change (s.put keys text l).memory.get? x = some e
  rw [get?_put s hl, if_pos hx, hfresh]

variable {c : Codec α} {value : α} {key : Key}

/-- What stands is found as deep as it may nest. -/
lemma Stands.find (h : s.Stands keys text) (script : Script C)
    (htext : Bundle.encode c ⟨value, keys⟩ = .ok text) {v : Value} (hwrite : c.write value = .ok v)
    (hread : ∀ depth, c.read depth v.tree = if v.depth ≤ depth then some value else none)
    (hkey : key.text ∈ keys) :
    (run script (Entry.find c key) s).1 = .ok (if v.depth ≤ 126 then some value else none) := by
  obtain ⟨e, hlive, rfl⟩ := h key.text hkey
  rw [run_find, found_of_live hlive htext, Codec.reread_of_write hwrite, hread]
  rfl

/-- What stands tells its keys under each of them. -/
lemma Stands.content (h : s.Stands keys text) (htext : Bundle.encode c ⟨value, keys⟩ = .ok text)
    (hkey : key.text ∈ keys) : s.content key = some text := by
  obtain ⟨e, hlive, rfl⟩ := h key.text hkey
  exact content_of_live hlive htext

/-- What stands is removed from all of its keys through any of them. -/
lemma Stands.remove (h : s.Stands keys text) (script : Script C)
    (htext : Bundle.encode c ⟨value, keys⟩ = .ok text) (hkey : key.text ∈ keys) :
    run script (Entry.remove key) s = (.ok (), (s.read key).change (keys.map .delete)) := by
  have hdoomed : s.doomed key = keys := by
    rw [doomed, h.content htext hkey]
    simp [Bundle.decodeKeys?_encode htext, Entry.doomed, hkey]
  rw [run_remove, Scene.remove, hdoomed]

/-- A removal of some keys leaves the others as they were. -/
lemma get?_read_delete (hkey : key.text ∈ keys) (x : String) :
    ((s.read key).change (keys.map .delete)).memory.get? x =
      if x ∈ keys then none else s.memory.get? x := by
  rw [get?_delete]
  split_ifs with hx
  · rfl
  · have hne : x ≠ key.text := fun heq => hx (heq ▸ hkey)
    rw [get?_read, if_neg hne]

/-- A value is stored exactly if its lifetime is not refused.  Then, as long as the lifetime is not
over, the value is found under each of its keys if its brackets nest at most 126 deep, and nothing
is found if they nest deeper.  A removal through any of the keys reads back exactly these keys, in
order and each once, and removes them and nothing else. -/
theorem round_trip (script : Script C) {shape : Rehearsal.Shape} {value : shape.Carrier}
    (hvalue : shape.IsProper value) {keys : List Key} (hkeys : keys ≠ []) (l : Lifetime)
    (s : Scene C) :
    ((run script (Entry.store shape.codec value keys l) s).1 = .ok () ↔ l.check = .ok ()) ∧
    ∀ s', run script (Entry.store shape.codec value keys l) s = (.ok (), s') →
      ∀ now, s.clock ≤ now → l.Lasts s.clock now → ∀ (looked : List Key) (t : Scene C),
        t = (s'.atTime now).afterFinds script shape.codec looked →
          ∃ v, shape.codec.write value = .ok v ∧ ∀ key ∈ keys,
            (run script (Entry.find shape.codec key) t).1 =
              .ok (if v.depth ≤ 126 then some value else none) ∧
            (t.content key).bind Bundle.decodeKeys? = some (Key.texts keys) ∧
            run script (Entry.remove key) t =
              (.ok (), (t.read key).change ((Key.texts keys).map .delete)) ∧
            ∀ x, (run script (Entry.remove key) t).2.memory.get? x =
              if x ∈ Key.texts keys then none else t.memory.get? x := by
  obtain ⟨v, hwrite, hread⟩ := Rehearsal.Shape.isExact hvalue
  constructor
  · constructor
    · intro hok
      exact (of_run_store_eq_ok script s hkeys (Prod.ext hok rfl)).1
    · intro hl
      have htext : Bundle.encode shape.codec ⟨value, Key.texts keys⟩ =
          .ok (Bundle.members v (Key.texts keys)).render :=
        Bundle.encode_eq_ok_iff.2 ⟨v, hwrite, rfl⟩
      rw [run_store script s hl hkeys htext]
  · intro s' hstored now hnow hlasts looked t ht
    obtain ⟨hl, text, htext, rfl⟩ := of_run_store_eq_ok script s hkeys hstored
    have hstands : t.Stands (Key.texts keys) text :=
      ht ▸ (stands_put hl hnow hlasts).afterFinds script shape.codec looked
    refine ⟨v, hwrite, ?_⟩
    intro key hkey
    have hmem : key.text ∈ Key.texts keys := Key.text_mem_texts.2 hkey
    have hremove := hstands.remove script htext hmem
    refine ⟨hstands.find script htext hwrite hread hmem, ?_, hremove, ?_⟩
    · rw [hstands.content htext hmem]
      exact Bundle.decodeKeys?_encode htext
    · intro x
      rw [hremove]
      exact get?_read_delete hmem x

end Scene

namespace Demo

/-- A value with members, lists and a line break. -/
def sample : Value :=
  .members [("item", .items [.text "a\n\u00fc", .int (-5), .null]), ("none", .members [])]

/-- Two keys, one of them twice. -/
def sampleKeys : List Key :=
  [.ofParts "sample" "one", .ofParts "sample" "\u00fc", .ofParts "sample" "one"]

/-- A value is stored until it is not read for an hour. -/
def storeSample (v : Value) : Except CacheFault Unit × Scene catalogue :=
  Scene.run greetings (Entry.store Codec.value v sampleKeys { sliding := some hour })
    ⟨.epoch, ∅, []⟩

/-- The scene forty minutes later, after a look-up. -/
def sampleStored (v : Value) : Scene catalogue :=
  ((storeSample v).2.atTime (minute 40)).afterFinds greetings Codec.value [.ofParts "sample" "one"]

lemma depth_nested (n : ℕ) : (Value.nested n).depth = n := by
  induction n with
  | zero => rfl
  | succ n ih => simp [Value.nested, Value.depth, Value.itemsDepth, ih]

lemma isPlain_nested (n : ℕ) : (Value.nested n).IsPlain := by
  induction n with
  | zero => exact ⟨by decide, by decide⟩
  | succ n ih => exact ⟨ih, trivial⟩

/-- The sample comes back under its second key, a value inside of too many brackets does not, and
both are removed from both keys through the second one. -/
theorem round_trip_sample :
    (Scene.run greetings (Entry.find Codec.value (.ofParts "sample" "\u00fc"))
        (sampleStored sample)).1 = .ok (some sample) ∧
      (Scene.run greetings (Entry.find Codec.value (.ofParts "sample" "\u00fc"))
        (sampleStored (Value.nested 127))).1 = .ok none ∧
      ∀ v ∈ [sample, Value.nested 127], ∀ x ∈ ["sample:one", "sample:\u00fc"],
        (Scene.run greetings (Entry.remove (.ofParts "sample" "\u00fc"))
          (sampleStored v)).2.memory.get? x = none := by
  have hplain : sample.IsPlain := by
    refine ⟨by decide, ⟨trivial, ⟨by decide, by decide⟩, trivial, trivial⟩, ?_, trivial⟩
    exact ⟨List.Pairwise.nil, trivial⟩
  have hlasts : Lifetime.Lasts { sliding := some hour } .epoch (minute 40) := by
    constructor
    · rintro d ⟨⟩
    · rintro w ⟨⟩
      decide
  have hall : ∀ v : Value, v.IsPlain →
      (Scene.run greetings (Entry.find Codec.value (.ofParts "sample" "\u00fc"))
          (sampleStored v)).1 = .ok (if v.depth ≤ 126 then some v else none) ∧
        ∀ x ∈ ["sample:one", "sample:\u00fc"],
          (Scene.run greetings (Entry.remove (.ofParts "sample" "\u00fc"))
            (sampleStored v)).2.memory.get? x = none := by
    intro v hv
    have hproper : Rehearsal.Shape.IsProper .json v := hv
    have hne : sampleKeys ≠ [] := List.cons_ne_nil _ _
    obtain ⟨hstored, hfound⟩ := Scene.round_trip greetings hproper hne
      { sliding := some hour } ⟨.epoch, ∅, []⟩
    obtain ⟨w, hwrite, hkeys⟩ := hfound (storeSample v).2 (Prod.ext (hstored.2 rfl) rfl)
      (minute 40) (by decide) hlasts [.ofParts "sample" "one"] (sampleStored v) rfl
    cases hwrite
    obtain ⟨hfind, -, -, hremoved⟩ := hkeys (.ofParts "sample" "\u00fc") (by decide)
    refine ⟨hfind, fun x hx => (hremoved x).trans (if_pos ?_)⟩
    have htexts : Key.texts sampleKeys = ["sample:one", "sample:\u00fc"] := by decide
    rw [htexts]
    exact hx
  have hdeep : ¬ (Value.nested 127).depth ≤ 126 := by
    rw [depth_nested]
    decide
  refine ⟨(hall sample hplain).1, ?_, ?_⟩
  · rw [(hall _ (isPlain_nested 127)).1, if_neg hdeep]
  · intro v hv
    rcases List.mem_pair.1 hv with rfl | rfl
    · exact (hall sample hplain).2
    · exact (hall _ (isPlain_nested 127)).2

end Demo

end RequestCache
