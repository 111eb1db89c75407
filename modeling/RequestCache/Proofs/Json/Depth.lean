/-
# How deep a value may nest

A codec that reads what it writes does so as long as the brackets of the value nest no deeper
than it may go, and beyond that it reads nothing (`Codec.IsExact`).  For any value this is an
induction over the value (`ofTree?_tree`): a pair of brackets is one step down for reader and
value alike, and members that are sorted by name are read back in the order in which they were
written.
-/
import Mathlib.Data.List.Basic
import RequestCache.Proofs.Json.Reading

namespace RequestCache.Json

/-! ## Depth -/

namespace Value

mutual

/-- How deep the brackets of a value nest. -/
def depth : Value → ℕ
  | .items vs => itemsDepth vs + 1
  | .members ms => membersDepth ms + 1
  | _ => 0

/-- How deep the brackets of the items of a list nest. -/
def itemsDepth : List Value → ℕ
  | [] => 0
  | v :: vs => max v.depth (itemsDepth vs)

/-- How deep the brackets of the members of an object nest. -/
def membersDepth : List (String × Value) → ℕ
  | [] => 0
  | (_, v) :: ms => max v.depth (membersDepth ms)

end

mutual

/-- All numbers are integers of a word, and the members of each object are sorted by name, each
name once. -/
def IsPlain : Value → Prop
  | .int n => minInteger ≤ n ∧ n ≤ maxInteger
  | .double _ => False
  | .items vs => ArePlain vs
  | .members ms => (ms.map Prod.fst).Pairwise (· < ·) ∧ HavePlain ms
  | _ => True

/-- All items are plain. -/
def ArePlain : List Value → Prop
  | [] => True
  | v :: vs => v.IsPlain ∧ ArePlain vs

/-- All members have plain values. -/
def HavePlain : List (String × Value) → Prop
  | [] => True
  | (_, v) :: ms => v.IsPlain ∧ HavePlain ms

end

end Value

/-! ## Reading any value -/

/-- An integer of a word is read back from its literal. -/
lemma toInt?_ofInt {n : Int} (hlow : minInteger ≤ n) (hhigh : n ≤ maxInteger) :
    (Literal.ofInt n).toInt? = some n := by
  rcases Int.lt_or_le n 0 with hneg | hpos
  · have hmag : n.natAbs ≠ 0 := by omega
    have hvalue : -(n.natAbs : Int) = n := by omega
    rw [Literal.ofInt, decide_eq_true hneg, Literal.toInt?.eq_2 _ _ (fun _ h => hmag h)]
    simp only [if_true, hvalue]
    exact if_pos ⟨hlow, hhigh⟩
  · have hvalue : (n.natAbs : Int) = n := by omega
    rw [Literal.ofInt, decide_eq_false (by omega)]
    simp [Literal.toInt?, hvalue, hlow, hhigh]

/-- A member that comes before all others is put in front. -/
lemma Sorted.insertIfNew_of_lt {α : Type} {name : String} {a : α} {ms : Sorted α}
    (h : ∀ m ∈ ms, name < m.1) : Sorted.insertIfNew name a ms = (name, a) :: ms := by
  cases ms with
  | nil => rfl
  | cons m ms =>
    obtain ⟨other, b⟩ := m
    have hlt : name < other := h (other, b) (by simp)
    have hne : name ≠ other := fun heq => String.lt_irrefl other (heq ▸ hlt)
    rw [Sorted.insertIfNew, if_neg hne, if_pos hlt]

namespace Value

mutual

/-- A plain value is read back by a reader that may go as deep as it nests. -/
theorem ofTree?_tree (v : Value) (hv : v.IsPlain) (depth : ℕ) :
    Value.ofTree? depth v.tree = if v.depth ≤ depth then some v else none := by
  cases v with
  | null => rfl
  | bool b => rfl
  | int n =>
    have hread := toInt?_ofInt hv.1 hv.2
    simp only [tree, Value.ofTree?, hread]
    rfl
  | double d => exact absurd hv id
  | text s => rfl
  | items vs =>
    cases depth with
    | zero => simp [tree, Value.ofTree?, Value.depth]
    | succ depth =>
      rw [tree, Value.ofTree?, ofTrees?_trees vs hv, Value.depth]
      by_cases hdepth : itemsDepth vs ≤ depth <;> simp [hdepth]
  | members ms =>
    cases depth with
    | zero => simp [tree, Value.ofTree?, Value.depth]
    | succ depth =>
      rw [tree, Value.ofTree?, ofMembers?_memberTrees ms hv.1 hv.2, Value.depth]
      by_cases hdepth : membersDepth ms ≤ depth <;> simp [hdepth]

lemma ofTrees?_trees (vs : List Value) (hvs : ArePlain vs) (depth : ℕ) :
    Value.ofTrees? depth (trees vs) = if itemsDepth vs ≤ depth then some vs else none := by
  cases vs with
  | nil => rfl
  | cons v vs =>
    have hv := ofTree?_tree v hvs.1 depth
    have hrest := ofTrees?_trees vs hvs.2 depth
    rw [trees, Value.ofTrees?, hv, hrest, itemsDepth]
    by_cases hdepth : v.depth ≤ depth <;> by_cases hitems : itemsDepth vs ≤ depth <;>
      simp [hdepth, hitems]

lemma ofMembers?_memberTrees (ms : List (String × Value))
    (hsorted : (ms.map Prod.fst).Pairwise (· < ·)) (hms : HavePlain ms) (depth : ℕ) :
    Value.ofMembers? depth (memberTrees ms) =
      if membersDepth ms ≤ depth then some ms else none := by
  match ms with
  | [] => rfl
  | (name, v) :: ms =>
    rw [List.map_cons, List.pairwise_cons] at hsorted
    have hv := ofTree?_tree v hms.1 depth
    have hrest := ofMembers?_memberTrees ms hsorted.2 hms.2 depth
    have hfront : Sorted.insertIfNew name v ms = (name, v) :: ms :=
      Sorted.insertIfNew_of_lt fun m hm => hsorted.1 m.1 (List.mem_map_of_mem hm)
    rw [memberTrees, Value.ofMembers?, hv, hrest, membersDepth]
    by_cases hdepth : v.depth ≤ depth <;> by_cases hmembers : membersDepth ms ≤ depth <;>
      simp [hdepth, hmembers, hfront]

end

end Value

/-! ## Exact codecs -/

namespace Codec

variable {α β : Type}

/-- The value is written, and read back by a reader that may go as deep as the written form
nests, and by no other. -/
def IsExact (c : Codec α) (a : α) : Prop :=
  ∃ v, c.write a = .ok v ∧ ∀ depth, c.read depth v.tree = if v.depth ≤ depth then some a else none

/-- A value without brackets is read at any depth. -/
lemma IsExact.of_flat {c : Codec α} {a : α} {v : Value} (hwrite : c.write a = .ok v)
    (hflat : v.depth = 0) (hread : ∀ depth, c.read depth v.tree = some a) : c.IsExact a := by
  refine ⟨v, hwrite, ?_⟩
  intro depth
  rw [hflat, hread, if_pos (Nat.zero_le depth)]

lemma isExact_value {v : Value} (h : v.IsPlain) : Codec.value.IsExact v :=
  ⟨v, rfl, v.ofTree?_tree h⟩

lemma isExact_text (s : String) : Codec.text.IsExact s :=
  .of_flat rfl rfl fun _ => rfl

lemma isExact_bool (b : Bool) : Codec.bool.IsExact b :=
  .of_flat rfl rfl fun _ => rfl

lemma isExact_unit : Codec.unit.IsExact () :=
  .of_flat rfl rfl fun _ => rfl

/-- An integer between the ends of a word is read back. -/
lemma readInt_tree {least greatest n : Int} (hlow : least ≤ n) (hhigh : n ≤ greatest)
    (hmin : minInteger ≤ least) (hmax : greatest ≤ maxInteger) :
    readInt least greatest (Value.int n).tree = some n := by
  have hint := toInt?_ofInt (Int.le_trans hmin hlow) (Int.le_trans hhigh hmax)
  simp [Value.tree, readInt, hint, Option.filter, hlow, hhigh]

lemma isExact_uint32 (n : UInt32) : Codec.uint32.IsExact n := by
  refine .of_flat rfl rfl fun depth => ?_
  have hbound := n.toNat_lt
  change (readInt 0 0xffffffff (Value.int n.toNat).tree).map _ = _
  rw [readInt_tree (by omega) (by omega) (by decide) (by decide)]
  simp

lemma isExact_int64 (n : Int64) : Codec.int64.IsExact n := by
  refine .of_flat rfl rfl fun depth => ?_
  have hlow := n.le_toInt
  have hhigh := n.toInt_lt
  change (readInt (-0x8000000000000000) 0x7fffffffffffffff (Value.int n.toInt).tree).map _ = _
  rw [readInt_tree (by omega) (by omega) (by decide) (by decide)]
  simp

/-- Nothing is written as null, and what is not null is read as something. -/
lemma IsExact.option {c : Codec α} (hnull : ∀ a, c.write a ≠ .ok .null) {o : Option α}
    (h : ∀ a ∈ o, c.IsExact a) : (Codec.option c).IsExact o := by
  cases o with
  | none => exact .of_flat rfl rfl fun _ => rfl
  | some a =>
    obtain ⟨v, hwrite, hread⟩ := h a rfl
    refine ⟨v, hwrite, ?_⟩
    intro depth
    have hsome : (Codec.option c).read depth v.tree = (c.read depth v.tree).map some := by
      cases v with
      | null => exact absurd hwrite (hnull a)
      | _ => rfl
    rw [hsome, hread]
    split_ifs <;> rfl

/-- A list is as deep as the deepest of its items, and one bracket more. -/
lemma IsExact.list {c : Codec α} {as : List α} (h : ∀ a ∈ as, c.IsExact a) :
    (Codec.list c).IsExact as := by
  -- inside of the brackets, by induction on the items
  have hitems : ∃ vs, as.mapM c.write = .ok vs ∧ ∀ depth,
      (Value.trees vs).mapM (c.read depth) =
        if Value.itemsDepth vs ≤ depth then some as else none := by
    induction as with
    | nil => exact ⟨[], rfl, fun _ => rfl⟩
    | cons a as ih =>
      obtain ⟨v, hwrite, hread⟩ := h a (by simp)
      obtain ⟨vs, hwrites, hreads⟩ := ih fun a ha => h a (by simp [ha])
      refine ⟨v :: vs, ?_, ?_⟩
      · rw [List.mapM_cons, hwrite, hwrites]
        rfl
      · intro depth
        rw [Value.trees, List.mapM_cons, hread, hreads, Value.itemsDepth]
        by_cases hdepth : v.depth ≤ depth <;> by_cases hrest : Value.itemsDepth vs ≤ depth <;>
          simp [hdepth, hrest]
  obtain ⟨vs, hwrite, hread⟩ := hitems
  refine ⟨.items vs, ?_, ?_⟩
  · change (as.mapM c.write).map Value.items = _
    rw [hwrite]
    rfl
  · intro depth
    cases depth with
    | zero => rfl
    | succ depth =>
      change (Value.trees vs).mapM (c.read depth) = _
      rw [hread, Value.depth]
      by_cases hdepth : Value.itemsDepth vs ≤ depth <;> simp [hdepth]

/-- A dictionary that is sorted by name is read back in its order. -/
lemma IsExact.dictionary {c : Codec α} {ms : Sorted α}
    (hsorted : (ms.map Prod.fst).Pairwise (· < ·)) (h : ∀ m ∈ ms, c.IsExact m.2) :
    (Codec.dictionary c).IsExact ms := by
  -- inside of the brackets, by induction on the members: each is put in front of those after it
  have hmembers : ∃ vs, (ms.mapM fun m => (c.write m.2).map fun v => (m.1, v)) = .ok vs ∧
      ∀ depth, Sorted.ofMembers? (c.read depth) (Value.memberTrees vs) =
        if Value.membersDepth vs ≤ depth then some ms else none := by
    induction ms with
    | nil => exact ⟨[], rfl, fun _ => rfl⟩
    | cons m ms ih =>
      obtain ⟨name, a⟩ := m
      rw [List.map_cons, List.pairwise_cons] at hsorted
      obtain ⟨v, hwrite, hread⟩ := h (name, a) (by simp)
      obtain ⟨vs, hwrites, hreads⟩ := ih hsorted.2 fun m hm => h m (by simp [hm])
      have hfront : Sorted.insertIfNew name a ms = (name, a) :: ms :=
        Sorted.insertIfNew_of_lt fun m hm => hsorted.1 m.1 (List.mem_map_of_mem hm)
      refine ⟨(name, v) :: vs, ?_, ?_⟩
      · rw [List.mapM_cons, hwrite, hwrites]
        rfl
      · intro depth
        rw [Value.memberTrees, Sorted.ofMembers?, hread, hreads, Value.membersDepth]
        by_cases hdepth : v.depth ≤ depth <;> by_cases hrest : Value.membersDepth vs ≤ depth <;>
          simp [hdepth, hrest, hfront]
  obtain ⟨vs, hwrite, hread⟩ := hmembers
  refine ⟨.members vs, ?_, ?_⟩
  · change (ms.mapM fun m => (c.write m.2).map fun v => (m.1, v)).map Value.members = _
    rw [hwrite]
    rfl
  · intro depth
    cases depth with
    | zero => rfl
    | succ depth =>
      change Sorted.ofMembers? (c.read depth) (Value.memberTrees vs) = _
      rw [hread, Value.depth]
      by_cases hdepth : Value.membersDepth vs ≤ depth <;> simp [hdepth]

/-- A record of two fields is read back from its two members. -/
lemma IsExact.record₂ {c₁ : Codec α} {c₂ : Codec β} {name₁ name₂ : String} (hne : name₁ ≠ name₂)
    {a : α} {b : β} (h₁ : c₁.IsExact a) (h₂ : c₂.IsExact b) :
    (Codec.record₂ name₁ c₁ name₂ c₂).IsExact (a, b) := by
  obtain ⟨v₁, hwrite₁, hread₁⟩ := h₁
  obtain ⟨v₂, hwrite₂, hread₂⟩ := h₂
  refine ⟨.members [(name₁, v₁), (name₂, v₂)], ?_, ?_⟩
  · simp only [Codec.record₂, hwrite₁, hwrite₂]
    rfl
  · intro depth
    cases depth with
    | zero => rfl
    | succ depth =>
      have hfields : (Value.members [(name₁, v₁), (name₂, v₂)]).tree.fields? [name₁, name₂] =
          some [some v₁.tree, some v₂.tree] := by
        simp [Value.tree, Value.memberTrees, Tree.fields?, membersNamed?, hne, hne.symm]
      simp only [Codec.record₂, hfields, readField, hread₁, hread₂, Value.depth,
        Value.membersDepth]
      by_cases hdepth₁ : v₁.depth ≤ depth <;> by_cases hdepth₂ : v₂.depth ≤ depth <;>
        simp [hdepth₁, hdepth₂]

end Codec

end RequestCache.Json
