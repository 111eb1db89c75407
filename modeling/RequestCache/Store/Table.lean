/-
# Tables

A table holds values under texts, each text at most once.  What a table says is its look-up,
`get?`; `get?_insert`, `get?_erase` and `get?_filter` tell what the operations do to it.
-/

namespace RequestCache

/-- Values by key. -/
structure Table (α : Type) where
  /-- The keys with their values. -/
  entries : List (String × α)
  /-- No key stands twice. -/
  distinct : (entries.map Prod.fst).Nodup

namespace Table

variable {α : Type}

/-- The table without entries. -/
def empty : Table α := ⟨[], List.nodup_nil⟩

instance : EmptyCollection (Table α) := ⟨empty⟩

instance : Inhabited (Table α) := ⟨empty⟩

/-- The value under a key. -/
def get? (t : Table α) (key : String) : Option α :=
  (t.entries.find? fun e => e.1 = key).map Prod.snd

/-- The entries that pass a test. -/
def filter (t : Table α) (keep : String → α → Bool) : Table α where
  entries := t.entries.filter fun e => keep e.1 e.2
  distinct := t.distinct.sublist (List.filter_sublist.map _)

/-- The table without a key. -/
def erase (t : Table α) (key : String) : Table α := t.filter fun k _ => k ≠ key

/-- The table with a value under a key, in place of any earlier one. -/
def insert (t : Table α) (key : String) (a : α) : Table α where
  entries := (key, a) :: (t.erase key).entries
  distinct := by
    simp only [List.map_cons, List.nodup_cons]
    refine ⟨fun h => ?_, (t.erase key).distinct⟩
    obtain ⟨e, he, rfl⟩ := List.mem_map.1 h
    simp [erase, filter] at he

/-- How many keys there are. -/
def size (t : Table α) : Nat := t.entries.length

/-- The keys, in no order that means anything. -/
def keys (t : Table α) : List String := t.entries.map Prod.fst

/-- The value under a key, changed. -/
def modify (t : Table α) (key : String) (f : α → α) : Table α :=
  match t.get? key with
  | some a => t.insert key (f a)
  | none => t

@[simp] theorem get?_empty (key : String) : (∅ : Table α).get? key = none := rfl

theorem get?_eq_some_iff {t : Table α} {key : String} {a : α} :
    t.get? key = some a ↔ (key, a) ∈ t.entries := by
  obtain ⟨es, hd⟩ := t
  simp only [get?, Option.map_eq_some_iff]
  constructor
  · rintro ⟨⟨k, b⟩, hf, rfl⟩
    have hk := List.find?_some hf
    simp only [decide_eq_true_eq] at hk
    subst hk
    exact List.mem_of_find?_eq_some hf
  · intro h
    induction es with
    | nil => cases h
    | cons e es ih =>
      simp only [List.map_cons, List.nodup_cons] at hd
      by_cases he : e.1 = key
      · rcases List.mem_cons.1 h with rfl | h
        · exact ⟨(key, a), by simp, rfl⟩
        · exact absurd (List.mem_map.2 ⟨_, h, he.symm⟩) hd.1
      · rcases List.mem_cons.1 h with rfl | h
        · exact absurd rfl he
        · obtain ⟨b, hb, hab⟩ := ih hd.2 h
          exact ⟨b, by simpa [he] using hb, hab⟩

theorem get?_filter (t : Table α) (keep : String → α → Bool) (key : String) :
    (t.filter keep).get? key = (t.get? key).filter (keep key) := by
  apply Option.ext
  intro a
  simp [get?_eq_some_iff, Option.filter_eq_some_iff, filter]

theorem get?_erase (t : Table α) (key other : String) :
    (t.erase key).get? other = if other = key then none else t.get? other := by
  rw [erase, get?_filter]
  by_cases h : other = key
  · cases t.get? other <;> simp [h, Option.filter]
  · cases t.get? other <;> simp [h, Option.filter]

theorem get?_insert (t : Table α) (key other : String) (a : α) :
    (t.insert key a).get? other = if other = key then some a else t.get? other := by
  by_cases h : key = other
  · subst h; simp [get?, insert]
  · have : ((t.insert key a).get? other) = (t.erase key).get? other := by
      simp [get?, insert, h]
    rw [this, get?_erase, if_neg (Ne.symm h), if_neg (Ne.symm h)]

end Table

end RequestCache
