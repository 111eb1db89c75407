/-
# Reading patterns

How a text becomes a pattern.  The text comes out of a filter of log entries, in which no closing
brace can stand, so there is no counted repetition.

A text is read token by token (`PatternScan.step?`).  The state between two tokens is what is
open: the brackets, the groups around them, and in each the parts that are finished.  Every token
takes at least one character, so the reading ends (`PatternScan.length_of_step?`).
-/
import RequestCache.Pattern.Brackets
import RequestCache.Text.Alphanumeric

namespace RequestCache

/-! ## After an opening parenthesis -/

namespace FlagChange

/-- With one flag turned on or off. -/
def turn (on : Bool) (change : FlagChange) (letter : Char) : FlagChange :=
  if letter = 'i' then { change with ignoresCase := some on }
  else if letter = 'u' then { change with isUnicode := some on }
  else if letter = 'x' then { change with isVerbose := some on }
  else change

/-- What a row of letters says, each at most once; those after a minus sign turn flags off. -/
def ofLetters? (letters : List Char) : Option FlagChange :=
  if letters.all (fun c => ['i', 'm', 's', 'U', 'u', 'R', 'x', '-'].contains c) &&
      letters.Nodup && letters.getLast? != some '-' then
    let on := letters.takeWhile (· != '-')
    let off := letters.dropWhile (· != '-')
    some (off.foldl (turn false) (on.foldl (turn true) {}))
  else none

end FlagChange

/-- The name of a group up to its angle bracket, and what follows. -/
def groupName? (cs : List Char) : Option (List Char × List Char) :=
  let name := cs.takeWhile (· != '>')
  let isFirst c := c == '_' || isAlphabetic c
  let isLater c := ['_', '.', '[', ']'].contains c || isAlphanumeric c
  match cs.dropWhile (· != '>') with
  | _ :: rest => if name.head?.any isFirst && name.all isLater then some (name, rest) else none
  | [] => none

theorem length_of_groupName? {cs : List Char} {r : List Char × List Char}
    (h : groupName? cs = some r) : r.2.length ≤ cs.length := by
  have hle := (List.dropWhile_suffix (l := cs) (· != '>')).length_le
  unfold groupName? at h
  dsimp only at h
  split at h
  · rename_i hc
    rw [hc] at hle
    split at h
    · cases h
      exact Nat.le_of_succ_le hle
    · simp at h
  · simp at h

/-! ## Token by token -/

/-- A group before its closing parenthesis, and what there was around it when it began. -/
structure OpenGroup where
  /-- The flags of the group. -/
  change : FlagChange
  /-- Are white space and comments left out around the group? -/
  isVerbose : Bool
  /-- The parts before the group, the last one first. -/
  items : List Pattern
  /-- The branches before the group, the last one first. -/
  branches : List Pattern
deriving Repr

/-- What is known of a pattern between two of its tokens. -/
structure PatternScan where
  /-- White space and comments do not count. -/
  isVerbose : Bool := false
  /-- The parts of the branch so far, the last one first. -/
  items : List Pattern := []
  /-- The branches of the group so far, the last one first. -/
  branches : List Pattern := []
  /-- The open groups, the innermost one first. -/
  groups : List OpenGroup := []
  /-- The names of groups. -/
  names : List (List Char) := []
  /-- The open classes, the innermost one first. -/
  classes : List OpenClass := []
deriving Repr

namespace PatternScan

/-- With one more part. -/
def push (s : PatternScan) (p : Pattern) : PatternScan := { s with items := p :: s.items }

/-- With the branch as it is. -/
def endBranch (s : PatternScan) : PatternScan :=
  { s with items := [], branches := .ofItems s.items.reverse :: s.branches }

/-- All that stands in the group. -/
def body (s : PatternScan) : Pattern := .ofBranches s.endBranch.branches.reverse

/-- Inside of a new group. -/
def openGroup (s : PatternScan) (change : FlagChange) : PatternScan :=
  { s with
    isVerbose := change.isVerbose.getD s.isVerbose
    items := []
    branches := []
    groups := ⟨change, s.isVerbose, s.items, s.branches⟩ :: s.groups }

/-- Behind the group. -/
def closeGroup? (s : PatternScan) : Option PatternScan :=
  match s.groups with
  | [] => none
  | g :: groups =>
    some
      { s with
        isVerbose := g.isVerbose
        items := .group g.change s.body :: g.items
        branches := g.branches
        groups }

/-- With the last part repeated, and what follows the sign that says so.  A question mark right
after the sign belongs to it.  Flags cannot be repeated. -/
def repeatLast? (s : PatternScan) (cs : List Char) : Option (PatternScan × List Char) :=
  match s.items with
  | [] => none
  | .flags _ :: _ => none
  | p :: items =>
    some ({ s with items := .repeated p :: items }, if cs.head? = some '?' then cs.drop 1 else cs)

theorem length_of_repeatLast? {s : PatternScan} {cs : List Char} {r : PatternScan × List Char}
    (h : s.repeatLast? cs = some r) : r.2.length ≤ cs.length := by
  grind [repeatLast?]

/-- A group from its name on.  No two groups share a name. -/
def readNamedGroup? (s : PatternScan) (cs : List Char) : Option (PatternScan × List Char) :=
  match groupName? cs with
  | none => none
  | some (name, rest) =>
    if s.names.contains name then none
    else some ({ s.openGroup {} with names := name :: s.names }, rest)

theorem length_of_readNamedGroup? {s : PatternScan} {cs : List Char}
    {r : PatternScan × List Char} (h : s.readNamedGroup? cs = some r) :
    r.2.length ≤ cs.length := by
  unfold readNamedGroup? at h
  split at h
  · simp at h
  · rename_i hn
    split at h
    · simp at h
    · cases h
      exact length_of_groupName? hn

/-- Flags, for a group or for what follows, and what comes after their row of letters. -/
def readFlags? (s : PatternScan) (cs : List Char) : Option (PatternScan × List Char) :=
  let isLetter c := c != ':' && c != ')'
  let letters := cs.takeWhile isLetter
  match FlagChange.ofLetters? letters, cs.dropWhile isLetter with
  | some change, c :: rest =>
    if c = ':' then some (s.openGroup change, rest)
    else if letters.isEmpty then none
    else some ({ s.push (.flags change) with
      isVerbose := change.isVerbose.getD s.isVerbose }, rest)
  | _, _ => none

theorem length_of_readFlags? {s : PatternScan} {cs : List Char} {r : PatternScan × List Char}
    (h : s.readFlags? cs = some r) : r.2.length ≤ cs.length := by
  have hle := (List.dropWhile_suffix (l := cs) (fun c => c != ':' && c != ')')).length_le
  unfold readFlags? at h
  dsimp only at h
  split at h
  · rename_i hc
    rw [hc] at hle
    have hlt := Nat.le_of_succ_le hle
    split at h
    · cases h
      exact hlt
    · split at h
      · simp at h
      · cases h
        exact hlt
  · simp at h

/-- A group or flags, after the parenthesis. -/
def readGroup? (s : PatternScan) (cs : List Char) : Option (PatternScan × List Char) :=
  match dropIgnored s.isVerbose cs with
  | '?' :: 'P' :: '<' :: cs => s.readNamedGroup? cs
  | '?' :: '<' :: cs => s.readNamedGroup? cs
  | '?' :: cs => s.readFlags? cs
  | cs => some (s.openGroup {}, cs)

theorem length_of_readGroup? {s : PatternScan} {cs : List Char} {r : PatternScan × List Char}
    (h : s.readGroup? cs = some r) : r.2.length ≤ cs.length := by
  have hle := length_dropIgnored_le s.isVerbose cs
  unfold readGroup? at h
  split at h
  · rename_i hc
    have := length_of_readNamedGroup? h
    simp only [hc, List.length_cons] at hle
    omega
  · rename_i hc
    have := length_of_readNamedGroup? h
    simp only [hc, List.length_cons] at hle
    omega
  · rename_i hc
    have := length_of_readFlags? h
    simp only [hc, List.length_cons] at hle
    omega
  · cases h
    exact hle

/-- Inside of a class that has just begun, and what follows. -/
def openClass (s : PatternScan) (cs : List Char) : PatternScan × List Char :=
  let (o, rest) := OpenClass.read s.isVerbose cs
  ({ s with classes := o :: s.classes }, rest)

/-- A token outside of brackets. -/
def stepOutside? (s : PatternScan) : List Char → Option (PatternScan × List Char)
  | [] => some (s, [])
  | '(' :: cs => s.readGroup? cs
  | ')' :: cs => s.closeGroup?.map fun s => (s, cs)
  | '|' :: cs => some (s.endBranch, cs)
  | '[' :: cs => some (s.openClass cs)
  | '\\' :: cs => (Escape.read? s.isVerbose cs).map fun (e, rest) => (s.push e.toPattern, rest)
  | c :: cs =>
    if c = '{' then none
    else if c = '.' then some (s.push .dot, cs)
    else if c = '^' ∨ c = '$' then some (s.push (.place false), cs)
    else if c = '?' ∨ c = '*' ∨ c = '+' then s.repeatLast? cs
    else some (s.push (.literal c false), cs)

theorem length_of_stepOutside? {s : PatternScan} {cs : List Char} {r : PatternScan × List Char}
    (h : s.stepOutside? cs = some r) : r.2.length ≤ cs.length - 1 := by
  unfold stepOutside? at h
  split at h
  · cases h
    exact Nat.le_refl _
  · exact length_of_readGroup? h
  · obtain ⟨s', -, rfl⟩ := Option.map_eq_some_iff.1 h
    exact Nat.le_refl _
  · cases h
    exact Nat.le_refl _
  · cases h
    exact OpenClass.length_read_le _ _
  · obtain ⟨x, hx, rfl⟩ := Option.map_eq_some_iff.1 h
    exact Nat.le_of_lt (Escape.length_of_read? hx)
  · grind [→ length_of_repeatLast?]

/-- A token in a class, of which the other open classes stand around.  Right at its beginning,
dashes and a closing bracket stand for themselves. -/
def stepInside? (s : PatternScan) (o : OpenClass) (outer : List OpenClass) :
    List Char → Option (PatternScan × List Char)
  | [] => none
  | '[' :: cs =>
    match CharClass.readNamed? cs with
    | some (c, rest) => some ({ s with classes := o.push c :: outer }, rest)
    | none => some (s.openClass cs)
  | ']' :: cs =>
    if o.isFresh && o.items.isEmpty then
      some ({ s with classes := o.push (.literal ']') :: outer }, cs)
    else
      match outer with
      | [] => some ({ s.push (.charClass o.close) with classes := [] }, cs)
      | around :: outer => some ({ s with classes := around.push o.close :: outer }, cs)
  | cs =>
    if o.isFresh && cs.head? = some '-' then
      some ({ s with classes := o.pushDash :: outer }, cs.drop 1)
    else if [['&', '&'], ['-', '-'], ['~', '~']].contains (cs.take 2) then
      some ({ s with classes := o.operate :: outer }, cs.drop 2)
    else
      (CharClass.readRange? s.isVerbose cs).map fun (c, rest) =>
        ({ s with classes := o.push c :: outer }, rest)

theorem length_of_stepInside? {s : PatternScan} {o : OpenClass} {outer : List OpenClass}
    {cs : List Char} {r : PatternScan × List Char} (h : s.stepInside? o outer cs = some r) :
    r.2.length ≤ cs.length - 1 := by
  unfold stepInside? at h
  split at h
  · simp at h
  · split at h
    · rename_i hn
      cases h
      exact Nat.le_of_lt (CharClass.length_of_readNamed? hn)
    · cases h
      exact OpenClass.length_read_le _ _
  · grind
  · split at h
    · cases h
      exact Nat.le_of_eq List.length_drop
    · split at h
      · cases h
        simp only [List.length_drop]
        omega
      · obtain ⟨x, hx, rfl⟩ := Option.map_eq_some_iff.1 h
        exact Nat.le_pred_of_lt (CharClass.length_of_readRange? hx)

/-- A token. -/
def step? (s : PatternScan) (cs : List Char) : Option (PatternScan × List Char) :=
  let cs := dropIgnored s.isVerbose cs
  match s.classes with
  | [] => s.stepOutside? cs
  | o :: outer => s.stepInside? o outer cs

theorem length_of_step? {s : PatternScan} {c : Char} {cs : List Char}
    {r : PatternScan × List Char} (h : s.step? (c :: cs) = some r) :
    r.2.length < (c :: cs).length := by
  have hle := length_dropIgnored_le s.isVerbose (c :: cs)
  simp only [List.length_cons] at hle ⊢
  unfold step? at h
  dsimp only at h
  split at h
  · have := length_of_stepOutside? h
    omega
  · have := length_of_stepInside? h
    omega

/-- The pattern, if nothing is open. -/
def finish? (s : PatternScan) : Option Pattern :=
  if s.groups.isEmpty && s.classes.isEmpty then some s.body else none

/-- The pattern that goes on with these characters to their end. -/
def parse? (s : PatternScan) : List Char → Option Pattern
  | [] => s.finish?
  | c :: cs =>
    match _ : s.step? (c :: cs) with
    | none => none
    | some (s, rest) => s.parse? rest
termination_by cs => cs.length
decreasing_by exact length_of_step? ‹_›

end PatternScan

/-- The regular expression that a text is, if it is one. -/
def Pattern.parse? (cs : List Char) : Option Pattern := PatternScan.parse? {} cs

end RequestCache
