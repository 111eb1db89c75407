/-
# What the remote store relies on

The server of the remote store is a program of its own.  What the store relies on is what the
server's commands are documented to do: they change and read hashes (`Command.effect`,
`Command.reply`), a transaction runs its commands in order with nothing in between, a hash whose
time to live is over is not found any more, and the server's clock is the one of the store.  A
`Host` is anything that keeps these promises.

The promises are about `Command.IsProper` commands only.  Nothing is said of commands that a
server may refuse, such as one that sets a time to live that is over or does not fit a word.
The `Server` keeps all of them, as long as no command is refused, the connection holds, and there
are hashes only (`Server.host`).
-/
import Mathlib.Logic.Function.Basic
import Mathlib.Tactic.Common
import Mathlib.Tactic.Lemma
import RequestCache.Store.Server

namespace RequestCache

lemma Table.get?_modify {α : Type} (t : Table α) (key other : String) (f : α → α) :
    (t.modify key f).get? other = if other = key then (t.get? key).map f else t.get? other := by
  unfold modify
  cases h : t.get? key with
  | none =>
    split_ifs with hkey
    · rw [hkey, h]
      rfl
    · rfl
  | some a => exact t.get?_insert key other (f a)

namespace Remote

/-- A hash as it can be found: its fields, and the millisecond from which on it is gone. -/
@[ext]
structure Hash where
  field? : String → Option String
  expiry : Option Int

/-- Is the hash gone at a millisecond? -/
def Hash.isGone (h : Hash) (millis : Int) : Bool := h.expiry.any (· ≤ millis)

/-- The hashes that can be found, by key. -/
abbrev Hashes := String → Option Hash

namespace Hash

/-- A hash without fields that stays. -/
def blank : Hash := ⟨fun _ => none, none⟩

/-- The hash with fields put in place of the ones of their names. -/
def put (h : Hash) (fields : List (String × String)) : Hash :=
  { h with field? := fun name => (fields.lookup name).or (h.field? name) }

end Hash

namespace Command

/-- What a command does at a millisecond.  Fields written into a hash leave it its time to live,
and a removed hash takes it along. -/
def effect (millis : Int) : Command → Hashes → Hashes
  | delete key, hs => Function.update hs key none
  | writeFields key fields, hs =>
    Function.update hs key (some (((hs key).getD Hash.blank).put fields))
  | expire key ttl, hs =>
    Function.update hs key ((hs key).map fun h => { h with expiry := some (millis + ttl) })
  | readFields _ _, hs => hs
  | ping, hs => hs

/-- What a command is answered with. -/
def reply : Command → Hashes → List (Option String)
  | readFields key fields, hs => fields.map fun name => (hs key).bind (·.field? name)
  | _, _ => []

/-- Commands that a server has no reason to refuse.  A time to live is positive and a signed
word. -/
def IsProper : Command → Prop
  | readFields _ fields => fields ≠ []
  | writeFields _ fields => fields ≠ [] ∧ (fields.map Prod.fst).Nodup
  | expire _ ttl => 0 < ttl ∧ ttl ≤ maxSigned64
  | delete _ => True
  | ping => True

end Command

/-- A server that keeps what its commands are documented to do, and that never fails. -/
structure Host where
  /-- What the server is in. -/
  State : Type
  /-- Answers the client's requests at an instant. -/
  answer : Instant → (r : Request) → State → r.Answer × State
  /-- The hashes that can be found at an instant. -/
  found : State → Instant → Hashes
  /-- Client and server read the same clock. -/
  answer_now : ∀ now s, (answer now .now s).1 = now
  found_now : ∀ now s, found (answer now .now s).2 now = found s now
  found_log : ∀ now event s, found (answer now (.log event) s).2 now = found s now
  answer_send : ∀ now s (c : Command), c.IsProper →
    (answer now (.send c) s).1 = .ok (c.reply (found s now))
  found_send : ∀ now s (c : Command), c.IsProper →
    found (answer now (.send c) s).2 now = c.effect now.millis (found s now)
  answer_transact : ∀ now s (cs : List Command), (∀ c ∈ cs, c.IsProper) →
    (answer now (.transact cs) s).1 = .ok ()
  /-- A transaction runs its commands in order, and nothing else in between. -/
  found_transact : ∀ now s (cs : List Command), (∀ c ∈ cs, c.IsProper) →
    found (answer now (.transact cs) s).2 now =
      cs.foldl (fun hs c => c.effect now.millis hs) (found s now)
  /-- As time passes hashes go when their time to live is over, and only then. -/
  found_later : ∀ s now later, now ≤ later → ∀ key,
    found s later key = (found s now key).filter fun h => !h.isGone later.millis

/-! ## The server keeps the promises -/

namespace Stored

/-- What is kept, as a hash. -/
def hash? : Stored → Option Hash
  | ⟨.hash fields, expiry⟩ => some ⟨fun name => fields.lookup name, expiry⟩
  | ⟨.plain, _⟩ => none

/-- Is it gone at a millisecond? -/
def isGone (e : Stored) (millis : Int) : Bool := e.expiry.any (· ≤ millis)

lemma isGone_mono {e : Stored} {millis later : Int} (h : millis ≤ later)
    (hgone : e.isGone millis = true) : e.isGone later = true := by
  obtain ⟨expiry, hexpiry, hle⟩ := (Option.any_eq_true _ _).1 hgone
  refine (Option.any_eq_true _ _).2 ⟨expiry, hexpiry, ?_⟩
  simp only [decide_eq_true_eq] at hle ⊢
  omega

lemma isGone_of_hash? {e : Stored} {h : Hash} (he : e.hash? = some h) (millis : Int) :
    h.isGone millis = e.isGone millis := by
  obtain ⟨content, expiry⟩ := e
  cases content with
  | hash fields =>
    cases he
    rfl
  | plain => cases he

end Stored

/-- The hashes of a table that can be found at a millisecond. -/
def found (table : Table Stored) (millis : Int) : Hashes :=
  fun key => ((table.get? key).filter fun e => !e.isGone millis).bind Stored.hash?

section Found

variable {table : Table Stored} {millis : Int}

lemma found_of_get? {key : String} {e : Stored} (h : table.get? key = some e)
    (hlives : e.isGone millis = false) : found table millis key = e.hash? := by
  rw [found, h, Option.filter_some, hlives]
  rfl

lemma found_of_get?_eq_none {key : String} (h : table.get? key = none) :
    found table millis key = none := by
  rw [found, h]
  rfl

/-- What is found under a key depends on what is kept under it. -/
lemma found_congr {table' : Table Stored} {key : String} (h : table'.get? key = table.get? key) :
    found table' millis key = found table millis key := by
  rw [found, found, h]

lemma found_erase (key : String) :
    found (table.erase key) millis = Function.update (found table millis) key none := by
  funext other
  by_cases hkey : other = key
  · subst hkey
    rw [Function.update_self]
    exact found_of_get?_eq_none (by rw [Table.get?_erase, if_pos rfl])
  · rw [Function.update_of_ne hkey]
    exact found_congr (by rw [Table.get?_erase, if_neg hkey])

lemma found_insert {e : Stored} (hlives : e.isGone millis = false) (key : String) :
    found (table.insert key e) millis = Function.update (found table millis) key e.hash? := by
  funext other
  by_cases hkey : other = key
  · subst hkey
    rw [Function.update_self]
    exact found_of_get? (by rw [Table.get?_insert, if_pos rfl]) hlives
  · rw [Function.update_of_ne hkey]
    exact found_congr (by rw [Table.get?_insert, if_neg hkey])

lemma found_later {later : Int} (h : millis ≤ later) (key : String) :
    found table later key = (found table millis key).filter fun e => !e.isGone later := by
  unfold found
  cases table.get? key with
  | none => rfl
  | some e =>
    have hfilter : ∀ hash, e.hash? = some hash → hash.isGone later = e.isGone later :=
      fun hash hhash => Stored.isGone_of_hash? hhash later
    cases hlater : e.isGone later with
    | true =>
      cases hnow : e.isGone millis <;> cases hhash : e.hash? <;>
        simp_all [Option.filter]
    | false =>
      have hnow : e.isGone millis = false :=
        Bool.eq_false_iff.2 fun hgone => by simp [Stored.isGone_mono h hgone] at hlater
      cases hhash : e.hash? <;> simp_all [Option.filter]

end Found

namespace Server

variable {s : Server} {millis : Int}

/-- Nothing is refused, the connection holds, and only hashes are kept. -/
structure IsCalm (s : Server) : Prop where
  refused : s.refused = []
  hangsUp : s.hangsUp = false
  hashes : ∀ key e, s.table.get? key = some e → ∃ fields, e.content = .hash fields

lemma get?_settle (s : Server) (millis : Int) (key : String) :
    (s.settle millis).table.get? key = (s.table.get? key).filter fun e => !e.isGone millis :=
  s.table.get?_filter _ key

lemma found_settle (s : Server) (millis : Int) :
    found (s.settle millis).table millis = found s.table millis := by
  funext key
  rw [found, found, get?_settle, Option.filter_filter]
  simp only [Bool.and_self]

/-- What is kept after it was settled is a hash that is not gone. -/
lemma IsCalm.exists_hash (h : s.IsCalm) {key : String} {e : Stored}
    (he : (s.settle millis).table.get? key = some e) :
    e.isGone millis = false ∧ ∃ fields expiry, e = ⟨.hash fields, expiry⟩ := by
  rw [get?_settle, Option.filter_eq_some_iff] at he
  obtain ⟨fields, hfields⟩ := h.hashes key e he.1
  refine ⟨by simpa using he.2, fields, e.expiry, ?_⟩
  rw [← hfields]

/-- Fields put in place of others are the ones that are found. -/
lemma lookup_putFields (fields new : List (String × String)) (name : String) :
    (putFields fields new).lookup name = (new.lookup name).or (fields.lookup name) := by
  -- an old field is kept exactly if there is no new one of its name
  have hkept : (fields.filter fun f => (new.lookup f.1).isNone).lookup name =
      if (new.lookup name).isNone then fields.lookup name else none := by
    induction fields with
    | nil => simp
    | cons f fields ih =>
      obtain ⟨other, value⟩ := f
      by_cases hname : name = other
      · subst hname
        cases hnew : new.lookup name with
        | none => simp [hnew]
        | some _ => simpa [hnew] using ih
      · have hne : (name == other) = false := beq_false_of_ne hname
        cases hnew : new.lookup other <;> simp [hnew, List.lookup_cons, hne, ih]
  rw [putFields, List.lookup_append, hkept]
  cases new.lookup name <;> simp

/-- A command of a server at rest is executed as it is documented. -/
lemma IsCalm.execute_eq (h : s.IsCalm) {c : Command} (hc : c.IsProper) :
    (s.execute millis c).1 = .ok (c.reply (found s.table millis)) ∧
      found (s.execute millis c).2.table millis = c.effect millis (found s.table millis) := by
  rw [← s.found_settle millis]
  cases c with
  | ping => exact ⟨rfl, rfl⟩
  | delete key => exact ⟨rfl, found_erase key⟩
  | readFields key fields =>
    simp only [execute, Command.reply, Command.effect]
    cases hget : (s.settle millis).table.get? key with
    | none =>
      rw [found_of_get?_eq_none hget]
      exact ⟨by simp, rfl⟩
    | some e =>
      obtain ⟨hlives, hash, expiry, rfl⟩ := h.exists_hash hget
      rw [found_of_get? hget hlives]
      exact ⟨by simp [Stored.hash?], rfl⟩
  | writeFields key fields =>
    simp only [execute, Command.reply, Command.effect]
    cases hget : (s.settle millis).table.get? key with
    | none =>
      rw [found_of_get?_eq_none hget]
      refine ⟨rfl, (found_insert rfl key).trans ?_⟩
      simp [Stored.hash?, Hash.put, Hash.blank, lookup_putFields]
    | some e =>
      obtain ⟨hlives, hash, expiry, rfl⟩ := h.exists_hash hget
      rw [found_of_get? hget hlives]
      have hput : Stored.isGone ⟨.hash (putFields hash fields), expiry⟩ millis = false := hlives
      refine ⟨rfl, (found_insert hput key).trans ?_⟩
      simp [Stored.hash?, Hash.put, lookup_putFields]
  | expire key ttl =>
    have hpos : 0 < ttl := hc.1
    have hlater : (decide (millis + ttl ≤ millis)) = false := by
      rw [decide_eq_false_iff_not]
      omega
    rw [execute, if_neg (Int.not_le.2 hpos)]
    refine ⟨rfl, ?_⟩
    -- what has just been told to live on for a while is not gone yet
    simp only [Command.effect, Table.modify]
    cases hget : (s.settle millis).table.get? key with
    | none =>
      rw [found_of_get?_eq_none hget]
      rw [Option.map_none, ← found_of_get?_eq_none hget, Function.update_eq_self]
    | some e =>
      obtain ⟨hlives, hash, expiry, rfl⟩ := h.exists_hash hget
      rw [found_of_get? hget hlives]
      exact found_insert (e := ⟨.hash hash, some (millis + ttl)⟩) hlater key

/-- A server stays at rest when a command is executed. -/
lemma IsCalm.execute (h : s.IsCalm) (c : Command) : (s.execute millis c).2.IsCalm := by
  have hsettled : ∀ key e, (s.settle millis).table.get? key = some e →
      ∃ fields, e.content = .hash fields := by
    intro key e he
    obtain ⟨-, fields, expiry, rfl⟩ := h.exists_hash he
    exact ⟨fields, rfl⟩
  have herase : ∀ key other e, ((s.settle millis).table.erase key).get? other = some e →
      ∃ fields, e.content = .hash fields := by
    intro key other e he
    rw [Table.get?_erase] at he
    split_ifs at he
    exact hsettled other e he
  have hinsert : ∀ key fields expiry other e,
      ((s.settle millis).table.insert key ⟨.hash fields, expiry⟩).get? other = some e →
        ∃ fields, e.content = .hash fields := by
    intro key fields expiry other e he
    rw [Table.get?_insert] at he
    split_ifs at he
    · cases he
      exact ⟨fields, rfl⟩
    · exact hsettled other e he
  cases c with
  | ping => exact ⟨h.refused, h.hangsUp, hsettled⟩
  | delete key => exact ⟨h.refused, h.hangsUp, herase key⟩
  | readFields key fields =>
    have hsame : (s.execute millis (.readFields key fields)).2 = s.settle millis := by
      simp only [Server.execute]
      split <;> rfl
    rw [hsame]
    exact ⟨h.refused, h.hangsUp, hsettled⟩
  | writeFields key fields =>
    simp only [Server.execute]
    split
    · exact ⟨h.refused, h.hangsUp, hinsert key _ _⟩
    · exact ⟨h.refused, h.hangsUp, hsettled⟩
    · exact ⟨h.refused, h.hangsUp, hinsert key _ _⟩
  | expire key ttl =>
    simp only [Server.execute]
    split
    · exact ⟨h.refused, h.hangsUp, herase key⟩
    · refine ⟨h.refused, h.hangsUp, fun other e he => ?_⟩
      simp only [Table.get?_modify] at he
      split_ifs at he
      · obtain ⟨e', he', rfl⟩ := Option.map_eq_some_iff.1 he
        exact hsettled key e' he'
      · exact hsettled other e he

lemma IsCalm.receive (h : s.IsCalm) (words : List String) : (s.receive words).IsCalm :=
  ⟨h.refused, h.hangsUp, h.hashes⟩

lemma IsCalm.refusal? (h : s.IsCalm) (command : String) : s.refusal? command = none := by
  rw [Server.refusal?, h.refused]
  rfl

lemma IsCalm.send (h : s.IsCalm) (c : Command) :
    s.send millis c = (s.receive c.words).execute millis c := by
  simp only [Server.send, h.hangsUp, accept, (h.receive c.words).refusal?]
  rfl

/-- Commands that are executed one after the other do what they are documented to do, one after
the other. -/
lemma IsCalm.executeAll (h : s.IsCalm) (cs : List Command) :
    (s.executeAll millis cs).IsCalm ∧ ((∀ c ∈ cs, c.IsProper) →
      found (s.executeAll millis cs).table millis =
        cs.foldl (fun hs c => c.effect millis hs) (found s.table millis)) := by
  induction cs generalizing s with
  | nil => exact ⟨h, fun _ => rfl⟩
  | cons c cs ih =>
    obtain ⟨hcalm, hfound⟩ := ih (s := (s.execute millis c).2) (h.execute c)
    refine ⟨hcalm, fun hproper => ?_⟩
    rw [List.foldl_cons, ← (h.execute_eq (hproper c (by simp))).2]
    exact hfound fun c' hc' => hproper c' (by simp [hc'])

/-- The server after it took note of a transaction. -/
def noted (s : Server) (cs : List Command) : Server :=
  (cs.foldl (fun s c => s.receive c.words) (s.receive ["MULTI"])).receive ["EXEC"]

/-- Taking note changes nothing else. -/
lemma IsCalm.noted (h : s.IsCalm) (cs : List Command) :
    (s.noted cs).IsCalm ∧ (s.noted cs).table = s.table := by
  have hfold : ∀ s : Server, s.IsCalm → (cs.foldl (fun s c => s.receive c.words) s).IsCalm ∧
      (cs.foldl (fun s c => s.receive c.words) s).table = s.table := by
    induction cs with
    | nil => exact fun _ h => ⟨h, rfl⟩
    | cons c cs ih => exact fun s h => ih (s.receive c.words) (h.receive c.words)
  obtain ⟨hcalm, htable⟩ := hfold _ (h.receive ["MULTI"])
  exact ⟨hcalm.receive ["EXEC"], htable⟩

lemma IsCalm.transact (h : s.IsCalm) (cs : List Command) :
    s.transact millis cs = (.ok (), (s.noted cs).executeAll millis cs) := by
  have hnone : (cs.findSome? fun c => (s.noted cs).refusal? c.name) = none := by
    rw [List.findSome?_eq_none_iff]
    exact fun c _ => (h.noted cs).1.refusal? c.name
  have hexec := (h.noted cs).1.refusal? "EXEC"
  unfold Server.noted at hnone hexec
  simp only [Server.transact, h.hangsUp, (h.receive ["MULTI"]).refusal?, hexec, hnone]
  rfl

/-- A server at rest that is asked over a steady connection. -/
def answer (now : Instant) (r : Request) (s : Server) : r.Answer × Server :=
  let p := Site.answer r { server := s, clock := now }
  (p.1, p.2.server)

lemma IsCalm.answer_send (h : s.IsCalm) (now : Instant) (c : Command) :
    answer now (.send c) s = (s.receive c.words).execute now.millis c := by
  simp only [Server.answer, Site.answer, Site.exchange, h.send]
  rfl

lemma IsCalm.answer_transact (h : s.IsCalm) (now : Instant) (cs : List Command) :
    answer now (.transact cs) s = (.ok (), (s.noted cs).executeAll now.millis cs) := by
  simp only [Server.answer, Site.answer, Site.exchange, h.transact]

lemma IsCalm.answer (h : s.IsCalm) (now : Instant) (r : Request) :
    (Server.answer now r s).2.IsCalm := by
  cases r with
  | now => exact h
  | log event => exact h
  | send c =>
    rw [h.answer_send]
    exact (h.receive c.words).execute c
  | transact cs =>
    rw [h.answer_transact]
    exact ((h.noted cs).1.executeAll cs).1

/-- The server as a host, as long as nothing makes it fail. -/
def host : Host where
  State := { s : Server // s.IsCalm }
  answer now r s := ((answer now r s.1).1, ⟨(answer now r s.1).2, s.2.answer now r⟩)
  found s now := Remote.found s.1.table now.millis
  answer_now _ _ := rfl
  found_now _ _ := rfl
  found_log _ _ _ := rfl
  answer_send now s c hc :=
    (congrArg Prod.fst (s.2.answer_send now c)).trans ((s.2.receive c.words).execute_eq hc).1
  found_send now s c hc := by
    change Remote.found (answer now (.send c) s.1).2.table now.millis = _
    rw [s.2.answer_send]
    exact ((s.2.receive c.words).execute_eq hc).2
  answer_transact now s cs _ := congrArg Prod.fst (s.2.answer_transact now cs)
  found_transact now s cs hcs := by
    change Remote.found (answer now (.transact cs) s.1).2.table now.millis = _
    rw [s.2.answer_transact, ((s.2.noted cs).1.executeAll cs).2 hcs, (s.2.noted cs).2]
  found_later s now later h key := by
    refine found_later ?_ key
    exact Int.ediv_le_ediv (by decide) h

/-- The server before anything was done with it. -/
def fresh : host.State := ⟨{}, rfl, rfl, fun _ _ h => by cases h⟩

end Server

end Remote

end RequestCache
