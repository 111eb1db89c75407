/-
# The language of the settings

Settings come from three optional texts.  What counts of a text is its core, the part without the
white space at both ends (`Settings.Reads`); a text of nothing but white space is as good as none.
The core of two of the texts is one of two words, in letters of any case, and there must be an
address if the first word asks for a remote store.  Whatever is not like this offends
(`Settings.Offends`), and the first text that offends is reported (`Settings.resolve_cases`).

White space around a text makes no difference at all.  Letters of the other case make none to the
settings; a report quotes the text as it was written.
-/
import RequestCache.Proofs.Spelling
import RequestCache.Settings

namespace RequestCache

namespace Settings

/-! ## What the texts say -/

/-- A text is given, and this is what it says: what is left of it without the white space around
it, and something is left. -/
def Reads (given : Option String) (core : String) : Prop :=
  ∃ s, given = some s ∧ IsTrimmed core ∧ IsPadded core s ∧ core ≠ ""

/-- No text is given, or one of nothing but white space. -/
def IsAbsent (given : Option String) : Prop := ∀ s ∈ given, isBlank s = true

/-- A text says a word, in letters of any case. -/
def Names (given : Option String) (word : String) : Prop :=
  ∃ core, Reads given core ∧ Recased core word

/-- A text says neither of two words, but something else. -/
def IsStrange (given : Option String) (first second core : String) : Prop :=
  Reads given core ∧ ¬ Recased core first ∧ ¬ Recased core second

variable {given given' : Option String} {core : String}

lemma meaningful_eq_some_iff : meaningful given = some core ↔ Reads given core := by
  rw [meaningful, Option.filter_eq_some_iff, Option.map_eq_some_iff]
  constructor
  · rintro ⟨⟨s, rfl, hs⟩, hne⟩
    obtain ⟨htrimmed, hpadded⟩ := trimText_eq_iff.1 hs
    exact ⟨s, rfl, htrimmed, hpadded, by simpa using hne⟩
  · rintro ⟨s, rfl, htrimmed, hpadded, hne⟩
    exact ⟨⟨s, rfl, trimText_eq_iff.2 ⟨htrimmed, hpadded⟩⟩, by simpa using hne⟩

lemma meaningful_eq_none_iff : meaningful given = none ↔ IsAbsent given := by
  cases given with
  | none => simp [meaningful, IsAbsent]
  | some s =>
    have hempty := trimText_eq_empty_iff (s := s)
    simpa [meaningful, IsAbsent] using hempty

lemma not_isAbsent_iff : ¬ IsAbsent given ↔ ∃ core, Reads given core := by
  rw [← meaningful_eq_none_iff, ← ne_eq, Option.ne_none_iff_exists']
  exact exists_congr fun _ => meaningful_eq_some_iff

/-- A text says one thing. -/
lemma Reads.unique {core' : String} (h : Reads given core) (h' : Reads given core') :
    core = core' :=
  Option.some_inj.1 ((meaningful_eq_some_iff.2 h).symm.trans (meaningful_eq_some_iff.2 h'))

lemma Reads.names_iff {word : String} (h : Reads given core) :
    Names given word ↔ Recased core word := by
  refine ⟨?_, fun hword => ⟨core, h, hword⟩⟩
  rintro ⟨core', h', hword⟩
  rwa [h.unique h']

lemma IsAbsent.not_names {word : String} (h : IsAbsent given) : ¬ Names given word :=
  fun ⟨core, hreads, _⟩ => not_isAbsent_iff.2 ⟨core, hreads⟩ h

/-- White space around a text does not matter. -/
lemma meaningful_of_padded (h : Option.Rel IsPadded given given') :
    meaningful given' = meaningful given := by
  cases h with
  | none => rfl
  | some hpadded =>
    rw [meaningful, meaningful, Option.map_some, Option.map_some, hpadded.trimText_eq]

/-- What a text says is in the case of its letters. -/
lemma meaningful_of_recased (h : Option.Rel Recased given given') :
    Option.Rel Recased (meaningful given) (meaningful given') := by
  cases h with
  | none => exact .none
  | @some s t hrecased =>
    have htrim := hrecased.trimText
    have hempty : (trimText s).isEmpty = (trimText t).isEmpty := by
      rw [Bool.eq_iff_iff, String.isEmpty_iff, String.isEmpty_iff, ← String.length_eq_zero_iff,
        htrim.length_eq, String.length_eq_zero_iff]
    rw [meaningful, meaningful, Option.map_some, Option.map_some, Option.filter_some,
      Option.filter_some, hempty]
    split_ifs
    · exact .some htrim
    · exact .none

/-! ## One of two words -/

lemma sameWord_iff {s t : String} : sameWord s t = true ↔ Recased s t :=
  beq_iff_eq.trans recased_iff.symm

section

variable {β : Type} {first second key : String} {a b : β} {reason : String → String}

/-- A text stands for one of two things, each of which has a word for it; no text stands for the
first one, and any other text is not acceptable. -/
def choose (given : Option String) (first second : String) (a b : β) (key : String)
    (reason : String → String) : Except SettingsFault β :=
  match meaningful given with
  | none => .ok a
  | some core =>
    if sameWord core first then .ok a
    else if sameWord core second then .ok b
    else .error (.invalid key (reason core))

/-- A text that does not say anything else is absent or says one of the two words. -/
lemma forall_not_isStrange_iff : (∀ core, ¬ IsStrange given first second core) ↔
    IsAbsent given ∨ Names given first ∨ Names given second := by
  by_cases habsent : IsAbsent given
  · exact iff_of_true (fun core h => not_isAbsent_iff.2 ⟨core, h.1⟩ habsent) (.inl habsent)
  · obtain ⟨core, hreads⟩ := not_isAbsent_iff.1 habsent
    rw [or_iff_right habsent, hreads.names_iff, hreads.names_iff]
    constructor
    · intro h
      by_contra hneither
      obtain ⟨hfirst, hsecond⟩ := not_or.1 hneither
      exact h core ⟨hreads, hfirst, hsecond⟩
    · rintro hword core' ⟨hreads', hfirst, hsecond⟩
      rw [hreads.unique hreads'] at hword
      exact hword.elim hfirst hsecond

lemma choose_of_isStrange (h : IsStrange given first second core) :
    choose given first second a b key reason = .error (.invalid key (reason core)) := by
  obtain ⟨hreads, hfirst, hsecond⟩ := h
  rw [← sameWord_iff] at hfirst hsecond
  simp only [choose, meaningful_eq_some_iff.2 hreads]
  rw [if_neg hfirst, if_neg hsecond]

/-- Unless it says something else a text stands for the second thing if it has the word for it, and
for the first one otherwise. -/
lemma choose_of_not_isStrange (h : ∀ core, ¬ IsStrange given first second core)
    (hwords : first.length ≠ second.length) (hne : a ≠ b) :
    ∃ x, choose given first second a b key reason = .ok x ∧ (x = b ↔ Names given second) := by
  by_cases habsent : IsAbsent given
  · refine ⟨a, ?_, iff_of_false hne habsent.not_names⟩
    rw [choose, meaningful_eq_none_iff.2 habsent]
  · obtain ⟨core, hreads⟩ := not_isAbsent_iff.1 habsent
    simp only [choose, meaningful_eq_some_iff.2 hreads, hreads.names_iff]
    by_cases hfirst : Recased core first
    · have hsecond : ¬ Recased core second := fun hsecond =>
        hwords (hfirst.length_eq.symm.trans hsecond.length_eq)
      exact ⟨a, if_pos (sameWord_iff.2 hfirst), iff_of_false hne hsecond⟩
    · have hsecond : Recased core second := by
        by_contra hsecond
        exact h core ⟨hreads, hfirst, hsecond⟩
      refine ⟨b, ?_, iff_of_true rfl hsecond⟩
      rw [if_neg (mt sameWord_iff.1 hfirst), if_pos (sameWord_iff.2 hsecond)]

end

/-- What is said of a name that no store has. -/
def strangeProvider (name : String) : String :=
  "unknown provider `" ++ name ++ "`, expected `memory` or `redis`"

/-- What is said of a name that no policy has. -/
def strangePolicy (name : String) : String :=
  "unknown policy `" ++ name ++ "`, expected `propagate` or `treat_as_miss`"

lemma resolveBacking_eq (given : Option String) : resolveBacking given =
    choose given "memory" "redis" .memory .remote "provider" strangeProvider := by
  rw [resolveBacking, choose]
  rfl

lemma resolvePolicy_eq (given : Option String) : resolvePolicy given =
    choose given "propagate" "treat_as_miss" .strict .lenient "lookup" strangePolicy := by
  rw [resolvePolicy, choose]
  rfl

/-- Unless the name is not known it is that of the remote store, or else the store is in memory. -/
lemma resolveBacking_of_not_isStrange (h : ∀ core, ¬ IsStrange given "memory" "redis" core) :
    ∃ backing, resolveBacking given = .ok backing ∧ (backing = .remote ↔ Names given "redis") := by
  rw [resolveBacking_eq]
  exact choose_of_not_isStrange h (by decide) nofun

lemma resolvePolicy_of_not_isStrange
    (h : ∀ core, ¬ IsStrange given "propagate" "treat_as_miss" core) :
    ∃ policy, resolvePolicy given = .ok policy ∧
      (policy = .lenient ↔ Names given "treat_as_miss") := by
  rw [resolvePolicy_eq]
  exact choose_of_not_isStrange h (by decide) nofun

/-! ## Settings, or the first offence -/

/-- A text is not acceptable, by its key, with the reason. -/
inductive Offends (texts : SettingTexts) : String → String → Prop
  /-- No store has the name. -/
  | provider {name : String} (h : IsStrange texts.provider "memory" "redis" name) :
    Offends texts "provider" (strangeProvider name)
  /-- The remote store has no address. -/
  | connection (hremote : Names texts.provider "redis") (habsent : IsAbsent texts.connection) :
    Offends texts "connection" "required when provider is `redis`"
  /-- No policy has the name. -/
  | lookup {name : String} (h : IsStrange texts.lookup "propagate" "treat_as_miss" name) :
    Offends texts "lookup" (strangePolicy name)

/-- The order in which the texts are considered. -/
def keysInOrder : List String := ["provider", "connection", "lookup"]

/-- A text is not acceptable, and it is the first one that is not. -/
def OffendsFirst (texts : SettingTexts) (key reason : String) : Prop :=
  Offends texts key reason ∧ ∀ key' reason', Offends texts key' reason' →
    keysInOrder.idxOf key ≤ keysInOrder.idxOf key'

/-- What the texts stand for. -/
structure StandsFor (texts : SettingTexts) (s : Settings) : Prop where
  backing : s.backing = .remote ↔ Names texts.provider "redis"
  connection : ∀ address, s.connection = some address ↔ Reads texts.connection address
  policy : s.policy = .lenient ↔ Names texts.lookup "treat_as_miss"

/-- The language of the settings: what every text has to be like. -/
structure Accepts (texts : SettingTexts) : Prop where
  provider : IsAbsent texts.provider ∨ Names texts.provider "memory" ∨ Names texts.provider "redis"
  connection : Names texts.provider "redis" → ∃ address, Reads texts.connection address
  lookup : IsAbsent texts.lookup ∨ Names texts.lookup "propagate" ∨
    Names texts.lookup "treat_as_miss"

variable {texts texts' : SettingTexts} {s : Settings} {key key' reason reason' : String}

lemma accepts_iff : Accepts texts ↔ ∀ key reason, ¬ Offends texts key reason := by
  constructor
  · rintro ⟨hprovider, hconnection, hlookup⟩ key reason (h | ⟨hremote, habsent⟩ | h)
    · exact forall_not_isStrange_iff.2 hprovider _ h
    · exact not_isAbsent_iff.2 (hconnection hremote) habsent
    · exact forall_not_isStrange_iff.2 hlookup _ h
  · intro h
    refine ⟨forall_not_isStrange_iff.1 fun core hcore => h _ _ (.provider hcore), fun hremote => ?_,
      forall_not_isStrange_iff.1 fun core hcore => h _ _ (.lookup hcore)⟩
    exact not_isAbsent_iff.1 fun habsent => h _ _ (.connection hremote habsent)

lemma resolveConnection_of_absent (h : IsAbsent given) :
    resolveConnection .remote given =
      .error (.invalid "connection" "required when provider is `redis`") := by
  simp only [resolveConnection, meaningful_eq_none_iff.2 h]

lemma resolveConnection_of_not_missing {backing : Backing}
    (h : ¬ (backing = .remote ∧ IsAbsent given)) :
    resolveConnection backing given = .ok (meaningful given) := by
  cases backing with
  | memory => rfl
  | remote =>
    obtain ⟨core, hreads⟩ := not_isAbsent_iff.1 fun habsent => h ⟨rfl, habsent⟩
    simp only [resolveConnection, meaningful_eq_some_iff.2 hreads]

lemma resolve_of_backing {backing : Backing} (h : resolveBacking texts.provider = .ok backing) :
    resolve texts = resolveConnection backing texts.connection >>= fun connection =>
      resolvePolicy texts.lookup >>= fun policy => .ok ⟨backing, connection, policy⟩ := by
  rw [resolve, h]
  rfl

lemma resolve_of_connection {backing : Backing} {connection : Option String}
    (h : resolveBacking texts.provider = .ok backing)
    (h' : resolveConnection backing texts.connection = .ok connection) :
    resolve texts = resolvePolicy texts.lookup >>= fun policy =>
      .ok ⟨backing, connection, policy⟩ := by
  rw [resolve_of_backing h, h']
  rfl

lemma resolve_of_strangeProvider {name : String}
    (h : IsStrange texts.provider "memory" "redis" name) :
    resolve texts = .error (.invalid "provider" (strangeProvider name)) := by
  rw [resolve, resolveBacking_eq, choose_of_isStrange h]
  rfl

/-- Texts stand for settings, or the first one that offends is reported. -/
theorem resolve_cases (texts : SettingTexts) :
    (∃ s, resolve texts = .ok s ∧ Accepts texts ∧ StandsFor texts s) ∨
      ∃ key reason, resolve texts = .error (.invalid key reason) ∧
        OffendsFirst texts key reason := by
  by_cases hprovider : ∃ name, IsStrange texts.provider "memory" "redis" name
  · obtain ⟨name, hname⟩ := hprovider
    exact .inr ⟨_, _, resolve_of_strangeProvider hname, .provider hname,
      fun _ _ _ => Nat.zero_le _⟩
  have hprovider' := not_exists.1 hprovider
  obtain ⟨backing, hbacking, hremote⟩ := resolveBacking_of_not_isStrange hprovider'
  by_cases hmissing : backing = .remote ∧ IsAbsent texts.connection
  · obtain ⟨rfl, habsent⟩ := hmissing
    refine .inr ⟨_, _, ?_, .connection (hremote.1 rfl) habsent, ?_⟩
    · rw [resolve_of_backing hbacking, resolveConnection_of_absent habsent]
      rfl
    · rintro key reason (h | - | -)
      · exact absurd h (hprovider' _)
      · exact le_rfl
      · decide
  have hconnection := resolveConnection_of_not_missing hmissing
  rw [hremote] at hmissing
  by_cases hlookup : ∃ name, IsStrange texts.lookup "propagate" "treat_as_miss" name
  · obtain ⟨name, hname⟩ := hlookup
    refine .inr ⟨_, _, ?_, .lookup hname, ?_⟩
    · rw [resolve_of_connection hbacking hconnection, resolvePolicy_eq, choose_of_isStrange hname]
      rfl
    · rintro key reason (h | ⟨h, h'⟩ | -)
      · exact absurd h (hprovider' _)
      · exact absurd ⟨h, h'⟩ hmissing
      · exact le_rfl
  have hlookup' := not_exists.1 hlookup
  obtain ⟨policy, hpolicy, hlenient⟩ := resolvePolicy_of_not_isStrange hlookup'
  refine .inl ⟨⟨backing, meaningful texts.connection, policy⟩, ?_, ?_, ?_⟩
  · rw [resolve_of_connection hbacking hconnection, hpolicy]
    rfl
  · exact ⟨forall_not_isStrange_iff.1 hprovider',
      fun h => not_isAbsent_iff.1 fun h' => hmissing ⟨h, h'⟩, forall_not_isStrange_iff.1 hlookup'⟩
  · exact ⟨hremote, fun _ => meaningful_eq_some_iff, hlenient⟩

/-- There is one text that offends first, and one reason. -/
lemma OffendsFirst.unique (h : OffendsFirst texts key reason)
    (h' : OffendsFirst texts key' reason') : key = key' ∧ reason = reason' := by
  have hplace := le_antisymm (h.2 _ _ h'.1) (h'.2 _ _ h.1)
  rcases h.1 with h₁ | - | h₁ <;> rcases h'.1 with h₂ | - | h₂
  · exact ⟨rfl, congrArg strangeProvider (h₁.1.unique h₂.1)⟩
  · exact absurd hplace (by decide)
  · exact absurd hplace (by decide)
  · exact absurd hplace (by decide)
  · exact ⟨rfl, rfl⟩
  · exact absurd hplace (by decide)
  · exact absurd hplace (by decide)
  · exact absurd hplace (by decide)
  · exact ⟨rfl, congrArg strangePolicy (h₁.1.unique h₂.1)⟩

lemma StandsFor.unique {s' : Settings} (h : StandsFor texts s) (h' : StandsFor texts s') :
    s = s' := by
  obtain ⟨backing, connection, policy⟩ := s
  obtain ⟨backing', connection', policy'⟩ := s'
  have hbacking : backing = .remote ↔ backing' = .remote := h.backing.trans h'.backing.symm
  have hconnection : connection = connection' :=
    Option.ext fun address => (h.connection address).trans (h'.connection address).symm
  have hpolicy : policy = .lenient ↔ policy' = .lenient := h.policy.trans h'.policy.symm
  have hbacking' : backing = backing' := by cases backing <;> cases backing' <;> simp_all
  have hpolicy' : policy = policy' := by cases policy <;> cases policy' <;> simp_all
  rw [hbacking', hconnection, hpolicy']

/-- The texts stand for settings if they are as the language of the settings has them. -/
theorem resolve_eq_ok_iff : resolve texts = .ok s ↔ Accepts texts ∧ StandsFor texts s := by
  rcases resolve_cases texts with ⟨s', hs', haccepts, hstands⟩ | ⟨key, reason, h, hfirst⟩
  · rw [hs', Except.ok.injEq]
    constructor
    · rintro rfl
      exact ⟨haccepts, hstands⟩
    · exact fun h => hstands.unique h.2
  · rw [h]
    exact ⟨nofun, fun h => absurd hfirst.1 (accepts_iff.1 h.1 key reason)⟩

/-- Otherwise the first text that offends is reported. -/
theorem resolve_eq_error_iff {fault : SettingsFault} : resolve texts = .error fault ↔
    ∃ key reason, fault = .invalid key reason ∧ OffendsFirst texts key reason := by
  rcases resolve_cases texts with ⟨s', hs', haccepts, -⟩ | ⟨key, reason, h, hfirst⟩
  · rw [hs']
    refine ⟨nofun, ?_⟩
    rintro ⟨key, reason, -, hfirst⟩
    exact absurd hfirst.1 (accepts_iff.1 haccepts key reason)
  · rw [h]
    constructor
    · rintro ⟨⟩
      exact ⟨key, reason, rfl, hfirst⟩
    · rintro ⟨key', reason', rfl, hfirst'⟩
      obtain ⟨rfl, rfl⟩ := hfirst.unique hfirst'
      rfl

/-! ## Other spellings -/

/-- The settings depend on what the texts say only. -/
lemma resolve_congr (hprovider : meaningful texts.provider = meaningful texts'.provider)
    (hconnection : meaningful texts.connection = meaningful texts'.connection)
    (hlookup : meaningful texts.lookup = meaningful texts'.lookup) :
    resolve texts = resolve texts' := by
  simp only [resolve, resolveBacking, resolveConnection, resolvePolicy, hprovider, hconnection,
    hlookup]

/-- The same result, or the same failure with a reason in which letters have another case. -/
inductive SameUpToWording {β : Type} : Except SettingsFault β → Except SettingsFault β → Prop
  | same (r : Except SettingsFault β) : SameUpToWording r r
  | reworded {key reason reason' : String} (h : Recased reason reason') :
    SameUpToWording (.error (.invalid key reason)) (.error (.invalid key reason'))

lemma SameUpToWording.bind {β γ : Type} {r r' : Except SettingsFault β}
    {f f' : β → Except SettingsFault γ} (h : SameUpToWording r r')
    (hf : ∀ x, SameUpToWording (f x) (f' x)) : SameUpToWording (r >>= f) (r' >>= f') := by
  rcases h with r | h
  · cases r with
    | error fault => exact .same _
    | ok x => exact hf x
  · exact .reworded h

lemma choose_recased {β : Type} {first second key : String} {a b : β} {reason : String → String}
    (h : Option.Rel Recased given given')
    (hreason : ∀ core core', Recased core core' → Recased (reason core) (reason core')) :
    SameUpToWording (choose given first second a b key reason)
      (choose given' first second a b key reason) := by
  have hmeaningful := meaningful_of_recased h
  rw [choose, choose]
  generalize meaningful given = m at hmeaningful ⊢
  generalize meaningful given' = m' at hmeaningful ⊢
  cases hmeaningful with
  | none => exact .same _
  | @some core core' hcore =>
    have hsame (word : String) : sameWord core word = sameWord core' word := by
      rw [sameWord, sameWord, recased_iff.1 hcore]
    dsimp only
    rw [hsame first, hsame second]
    split_ifs
    · exact .same _
    · exact .same _
    · exact .reworded (hreason core core' hcore)

lemma Recased.quoted {front back core core' : String} (h : Recased core core') :
    Recased (front ++ core ++ back) (front ++ core' ++ back) :=
  ((Recased.refl front).append h).append (.refl back)

/-- The case of the letters matters to the wording of a failure only. -/
theorem resolve_recased (hprovider : Option.Rel Recased texts.provider texts'.provider)
    (hconnection : texts.connection = texts'.connection)
    (hlookup : Option.Rel Recased texts.lookup texts'.lookup) :
    SameUpToWording (resolve texts) (resolve texts') := by
  rw [resolve, resolve, hconnection, resolveBacking_eq, resolveBacking_eq, resolvePolicy_eq,
    resolvePolicy_eq]
  refine (choose_recased hprovider fun _ _ h => Recased.quoted h).bind fun backing => ?_
  refine (SameUpToWording.same _).bind fun connection => ?_
  exact (choose_recased hlookup fun _ _ h => Recased.quoted h).bind fun policy => .same _

/-- Settings that ask for a remote store say where it is. -/
lemma exists_connection (h : resolve texts = .ok s) (hremote : s.backing = .remote) :
    ∃ address, s.connection = some address := by
  obtain ⟨haccepts, hstands⟩ := resolve_eq_ok_iff.1 h
  obtain ⟨address, haddress⟩ := haccepts.connection (hstands.backing.1 hremote)
  exact ⟨address, (hstands.connection address).2 haddress⟩

/-- Settings that have been resolved are not found wanting when the store is to be reached. -/
theorem connect_ne_invalid (h : resolve texts = .ok s) (dial : String → Except StoreFault Unit) :
    (s.connect dial).1 ≠ .error (.invalid key reason) := by
  cases hbacking : s.backing with
  | memory =>
    rw [connect, hbacking]
    nofun
  | remote =>
    obtain ⟨address, haddress⟩ := exists_connection h hbacking
    simp only [connect, hbacking, haddress]
    cases dial address <;> nofun

/-- Three texts are resolved.

* This succeeds if and only if the first one, without the white space around it, is absent or one of
  its two words in letters of any case, the last one likewise, and there is an address if the first
  one asks for a remote store; and then the settings are what the texts stand for.
* Otherwise the first text that offends is reported, with what it says.
* White space around the texts makes no difference.  Letters of the other case in the first and in
  the last one make none to the settings and to what is reported, but for the case of the letters in
  the report.
* An address is not empty, and there is no white space around it.  A remote store is never without
  one: reaching it does not fail for that. -/
theorem resolve_language (texts : SettingTexts) :
    ((∃ s, resolve texts = .ok s) ↔ Accepts texts) ∧
    (∀ s, resolve texts = .ok s → StandsFor texts s ∧
      (∀ address, s.connection = some address → address ≠ "" ∧ IsTrimmed address) ∧
      ∀ dial key reason, (s.connect dial).1 ≠ .error (.invalid key reason)) ∧
    (∀ fault, resolve texts = .error fault ↔
      ∃ key reason, fault = .invalid key reason ∧ OffendsFirst texts key reason) ∧
    ∀ texts' : SettingTexts,
      (Option.Rel IsPadded texts.provider texts'.provider →
        Option.Rel IsPadded texts.connection texts'.connection →
        Option.Rel IsPadded texts.lookup texts'.lookup → resolve texts' = resolve texts) ∧
      (Option.Rel Recased texts.provider texts'.provider →
        texts.connection = texts'.connection →
        Option.Rel Recased texts.lookup texts'.lookup →
        SameUpToWording (resolve texts) (resolve texts')) := by
  refine ⟨⟨?_, fun haccepts => ?_⟩, fun s hs => ⟨?_, fun address haddress => ?_, ?_⟩,
    fun fault => resolve_eq_error_iff, fun texts' => ⟨fun hprovider hconnection hlookup => ?_, ?_⟩⟩
  · rintro ⟨s, hs⟩
    exact (resolve_eq_ok_iff.1 hs).1
  · rcases resolve_cases texts with ⟨s, hs, -⟩ | ⟨key, reason, -, hfirst⟩
    · exact ⟨s, hs⟩
    · exact absurd hfirst.1 (accepts_iff.1 haccepts key reason)
  · exact (resolve_eq_ok_iff.1 hs).2
  · obtain ⟨-, -, htrimmed, -, hne⟩ := ((resolve_eq_ok_iff.1 hs).2.connection address).1 haddress
    exact ⟨hne, htrimmed⟩
  · exact fun dial key reason => connect_ne_invalid hs dial
  · exact resolve_congr (meaningful_of_padded hprovider) (meaningful_of_padded hconnection)
      (meaningful_of_padded hlookup)
  · exact resolve_recased

end Settings

namespace Demo

open Settings

/-- A remote store, a failure of which is as good as nothing found. -/
def remoteTexts : SettingTexts := ⟨some "redis", some "redis://h", some "treat_as_miss"⟩

/-- The same with white space around all of it. -/
def spacedTexts : SettingTexts :=
  ⟨some "\u3000redis\n", some " redis://h", some "treat_as_miss\t"⟩

/-- The same in other letters. -/
def shoutedTexts : SettingTexts := ⟨some "ReDiS", some "redis://h", some "TREAT_AS_MISS"⟩

lemma resolve_remoteTexts :
    resolve remoteTexts = .ok ⟨.remote, some "redis://h", .lenient⟩ := by
  have hprovider : meaningful remoteTexts.provider = some "redis" := by decide
  have hconnection : meaningful remoteTexts.connection = some "redis://h" := by decide
  have hlookup : meaningful remoteTexts.lookup = some "treat_as_miss" := by decide
  have hremote : Names remoteTexts.provider "redis" :=
    ⟨_, meaningful_eq_some_iff.1 hprovider, .refl _⟩
  have hlenient : Names remoteTexts.lookup "treat_as_miss" :=
    ⟨_, meaningful_eq_some_iff.1 hlookup, .refl _⟩
  refine resolve_eq_ok_iff.2 ⟨⟨.inr (.inr hremote), fun _ => ?_, .inr (.inr hlenient)⟩, ?_⟩
  · exact ⟨_, meaningful_eq_some_iff.1 hconnection⟩
  · refine ⟨iff_of_true rfl hremote, fun address => ?_, iff_of_true rfl hlenient⟩
    rw [← meaningful_eq_some_iff, hconnection]

/-- However they are written, the settings are the same, and the store can be reached. -/
theorem remote_resolved :
    resolve spacedTexts = .ok ⟨.remote, some "redis://h", .lenient⟩ ∧
    resolve shoutedTexts = .ok ⟨.remote, some "redis://h", .lenient⟩ ∧
    ∀ dial key reason, (connect ⟨.remote, some "redis://h", .lenient⟩ dial).1 ≠
      .error (.invalid key reason) := by
  obtain ⟨-, hok, -, hspelt⟩ := resolve_language remoteTexts
  refine ⟨?_, ?_, (hok _ resolve_remoteTexts).2.2⟩
  · rw [(hspelt spacedTexts).1 ?_ ?_ ?_, resolve_remoteTexts]
    · exact .some ⟨"\u3000", "\n", by decide, by decide, by decide⟩
    · exact .some ⟨" ", "", by decide, by decide, by decide⟩
    · exact .some ⟨"", "\t", by decide, by decide, by decide⟩
  · have hprovider : Recased "redis" "ReDiS" := by decide
    have hlookup : Recased "treat_as_miss" "TREAT_AS_MISS" := by decide
    have hsame := (hspelt shoutedTexts).2 (.some hprovider) rfl (.some hlookup)
    rw [resolve_remoteTexts] at hsame
    generalize resolve shoutedTexts = r at hsame
    cases hsame
    rfl

/-- A name that no store has is quoted in the letters in which it was written. -/
theorem memcached_quoted :
    Option.Rel Recased (some "MEMCACHED") (some "memcached") ∧
    resolve { provider := some "MEMCACHED" } = .error (.invalid "provider"
      "unknown provider `MEMCACHED`, expected `memory` or `redis`") ∧
    resolve { provider := some "memcached" } = .error (.invalid "provider"
      "unknown provider `memcached`, expected `memory` or `redis`") ∧
    resolve { provider := some "MEMCACHED" } ≠ resolve { provider := some "memcached" } := by
  have hword : Recased "MEMCACHED" "memcached" := by decide
  have hshouted : IsStrange (some "MEMCACHED") "memory" "redis" "MEMCACHED" :=
    ⟨meaningful_eq_some_iff.1 (by decide), by decide, by decide⟩
  have hplain : IsStrange (some "memcached") "memory" "redis" "memcached" :=
    ⟨meaningful_eq_some_iff.1 (by decide), by decide, by decide⟩
  have hreported : resolve { provider := some "MEMCACHED" } =
      .error (.invalid "provider" (strangeProvider "MEMCACHED")) :=
    resolve_of_strangeProvider hshouted
  have hreported' : resolve { provider := some "memcached" } =
      .error (.invalid "provider" (strangeProvider "memcached")) :=
    resolve_of_strangeProvider hplain
  have hdiffer : strangeProvider "MEMCACHED" ≠ strangeProvider "memcached" := by decide
  refine ⟨.some hword, hreported, hreported', ?_⟩
  rw [hreported, hreported']
  simpa using hdiffer

end Demo

end RequestCache
