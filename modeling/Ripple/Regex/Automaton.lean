import Ripple.Regex.Encoding
import Ripple.Regex.Normal
import Std.Data.HashMap

/-!
The size of matching automata. For each pattern there are two: one reads a text forwards and marks
the groups, the other reads it backwards and knows no groups. A state takes 32 bytes, each choice
that a state offers takes 4 more, and each range of a state that tells several byte ranges apart
takes 8 more. The states are laid out here one by one, up to the limit, but nothing is kept of them
save their number: a state is known by its position.

Within a set of characters, equal parts of the byte sequences share their states as long as a table
of limited size remembers them, in which a new entry takes the place of an older one in its slot.
-/

namespace Ripple.Regex

/-- The largest size of an automaton. -/
def sizeLimit : Nat := 10485760

/-- The states laid out so far. -/
structure Layout where
  /-- The number of states. -/
  states : Nat
  /-- The bytes beyond those that every state takes. -/
  more : Nat

namespace Layout

/-- A layout within the limit. -/
def checked (l : Layout) : Option Layout :=
  if 32 * l.states + l.more ≤ sizeLimit then some l else none

/-- Adds a state with some further bytes. -/
def add (l : Layout) (more : Nat) : Option Layout := checked ⟨l.states + 1, l.more + more⟩

/-- Adds several plain states. -/
def addAll (l : Layout) (count : Nat) : Option Layout := checked ⟨l.states + count, l.more⟩

/-- Adds choices to states. -/
def link (l : Layout) (count : Nat) : Option Layout := checked ⟨l.states, l.more + 4 * count⟩

/-- Adds a state for some byte ranges. -/
def addRanges (l : Layout) (count : Nat) : Option Layout := l.add (8 * count)

end Layout

/-- The slot of a key in a table with the given number of slots. -/
def slotOf (key : List Nat) (slots : UInt64) : UInt64 :=
  key.foldl (fun h x => (h ^^^ x.toUInt64) * 1099511628211) 14695981039346656037 % slots

/-- A table of limited size from keys to states. -/
abbrev Slots := Std.HashMap UInt64 (List Nat × Nat)

/-- The state known under a key. -/
def Slots.find? (t : Slots) (slot : UInt64) (key : List Nat) : Option Nat :=
  match t[slot]? with
  | some (known, state) => if known = key then some state else none
  | none => none

namespace Layout

/-- Adds the states of one byte sequence that is read backwards from the state `stop`. States are
shared between sequences that begin with the same ranges. -/
def addBackward (l : Layout) (t : Slots) (stop : Nat) :
    List Encoding.ByteRange → Option (Layout × Slots)
  | [] => (l.link 1).map (·, t)
  | range :: ranges =>
    let key := [stop, range.1, range.2]
    let slot := slotOf key 1000
    match t.find? slot key with
    | some state => l.addBackward t state ranges
    | none => do (← l.add 0).addBackward (t.insert slot (key, l.states)) l.states ranges

/-- Adds the states of a set that is read backwards. -/
def addSetBackward (l : Layout) (sequences : List (List Encoding.ByteRange)) : Option Layout := do
  let l ← l.addAll 2
  let (l, _) ← sequences.foldlM
    (fun (state : Layout × Slots) ranges => state.1.addBackward state.2 (l.states - 1) ranges)
    (l, (∅ : Slots))
  return l

end Layout

/-- A state of a set that is read forwards, as long as further ranges may be added to it. -/
structure OpenState where
  /-- The ranges whose next states are known, as first byte, last byte and state, the latest
  first. -/
  closed : List (Nat × Nat × Nat)
  /-- The range whose next state is still open. -/
  last : Option Encoding.ByteRange

/-- Closes the open range of a state with the state that follows it. -/
def OpenState.close (s : OpenState) (next : Nat) : OpenState :=
  match s.last with
  | some range => ⟨(range.1, range.2, next) :: s.closed, none⟩
  | none => s

/-- The part of a set laid out so far: the states that are still open, the deepest first. -/
structure OpenSet where
  layout : Layout
  slots : Slots
  opened : List OpenState

namespace OpenSet

/-- The position of a state with the given ranges, which is laid out if none is known. -/
def settle (s : OpenSet) (state : OpenState) : Option (OpenSet × Nat) :=
  let key := (state.closed.reverse.map fun r => [r.1, r.2.1, r.2.2]).flatten
  let slot := slotOf key 10000
  match s.slots.find? slot key with
  | some known => some (s, known)
  | none => do
    let layout ← s.layout.addRanges state.closed.length
    return ({ s with layout, slots := s.slots.insert slot (key, s.layout.states) }, s.layout.states)

/-- Settles the `count` deepest open states; what follows the deepest one is `next`. The range of
the state above them is closed. -/
def settleAll (s : OpenSet) : Nat → Nat → Option OpenSet
  | 0, next =>
    match s.opened with
    | state :: above => some { s with opened := state.close next :: above }
    | [] => some s
  | count + 1, next =>
    match s.opened with
    | state :: above => do
      let (s, known) ← { s with opened := above }.settle (state.close next)
      s.settleAll count known
    | [] => some s

/-- The number of open states, from the top, whose open ranges a sequence begins with. -/
def shared : List OpenState → List Encoding.ByteRange → Nat
  | state :: states, range :: ranges =>
    if state.last = some range then shared states ranges + 1 else 0
  | _, _ => 0

/-- Adds a sequence, which comes behind all others so far. -/
def addSequence (s : OpenSet) (stop : Nat) (ranges : List Encoding.ByteRange) : Option OpenSet := do
  let kept := shared s.opened.reverse ranges
  let s ← s.settleAll (s.opened.length - 1 - kept) stop
  match ranges.drop kept, s.opened with
  | range :: rest, state :: above =>
    let fresh := rest.map fun r => (⟨[], some r⟩ : OpenState)
    return { s with opened := fresh.reverse ++ { state with last := some range } :: above }
  | _, _ => return s

end OpenSet

namespace Layout

/-- Adds the states of a set that is read forwards. Sequences share the states of what they begin
with, and those of what they end with. -/
def addSetForward (l : Layout) (sequences : List (List Encoding.ByteRange)) : Option Layout := do
  let stop := l.states
  let l ← l.add 0
  let s ← sequences.foldlM (fun (s : OpenSet) ranges => s.addSequence stop ranges)
    (⟨l, ∅, [⟨[], none⟩]⟩ : OpenSet)
  let s ← s.settleAll (s.opened.length - 1) stop
  match s.opened with
  | root :: _ => (s.settle root).map (·.1.layout)
  | [] => return s.layout

/-- Adds the states of a set. ASCII characters are told apart by a single state. -/
def addSet (l : Layout) (backward : Bool) (members : Intervals) : Option Layout :=
  if members.all fun i => i.2 < 0x80 then do (← l.add 0).addRanges members.length
  else
    let sequences := Encoding.sequences members
    if backward then l.addSetBackward sequences else l.addSetForward sequences

/-- Applies a step the given number of times. -/
def times (step : Layout → Option Layout) : Nat → Layout → Option Layout
  | 0, l => some l
  | n + 1, l => do times step n (← step l)

end Layout

/-- A tree of texts that share what they begin with. Branches are ordered by their bytes within a
stretch; a text that ends at a node begins a new stretch, because the texts before it are
preferred to those behind it. -/
inductive Trie where
  | node (stretches : List (List (Nat × Trie)))

namespace Trie

def leaf : Trie := node [[]]

/-- The stretches of a node, the latest first. -/
def stretches : Trie → List (List (Nat × Trie))
  | node ss => ss

def isLeaf (t : Trie) : Bool := t.stretches.all List.isEmpty

/-- Adds the empty text. -/
def finish (t : Trie) : Trie :=
  if t.isLeaf && 1 < t.stretches.length then t else node ([] :: t.stretches)

/-- Changes the branch of a byte, which is made if there is none. -/
def branch (byte : Nat) (change : Trie → Trie) : List (Nat × Trie) → List (Nat × Trie)
  | [] => [(byte, change leaf)]
  | (b, t) :: rest =>
    if b = byte then (b, change t) :: rest
    else if byte < b then (byte, change leaf) :: (b, t) :: rest
    else (b, t) :: branch byte change rest

/-- Adds a text. -/
def insert : List Nat → Trie → Trie
  | [], t => t.finish
  | b :: bs, node (s :: ss) => node (branch b (insert bs) s :: ss)
  | b :: bs, node [] => node [branch b (insert bs) []]

mutual

/-- Lays out the states of a tree: one for each stretch with branches, and one that chooses between
the stretches and the ends between them. -/
def lay (t : Trie) (l : Layout) : Option Layout :=
  match t with
  | node ss => do
    let (l, count) ← layStretches ss l
    l.add (4 * (count + (ss.length - 1)))

/-- Lays out stretches, the last of the list first, and counts those with branches. -/
def layStretches : List (List (Nat × Trie)) → Layout → Option (Layout × Nat)
  | [], l => some (l, 0)
  | s :: ss, l => do
    let (l, count) ← layStretches ss l
    let l ← layBranches s l
    match s.length with
    | 0 => return (l, count)
    | 1 => return (← l.add 0, count + 1)
    | n => return (← l.addRanges n, count + 1)

def layBranches : List (Nat × Trie) → Layout → Option Layout
  | [], l => some l
  | (_, t) :: rest, l => do
    let l ← if t.isLeaf then some l else t.lay l
    layBranches rest l

end

end Trie

namespace Normal

/-- The bytes of a text. -/
def encoded (cs : List Char) : List Nat := cs.flatMap fun c => Encoding.bytes c.toNat

/-- The text that a pattern stands for. -/
def text? : Normal → Option (List Char)
  | text cs => some cs
  | _ => none

mutual

/-- The least number of characters that a match has, if there can be one. -/
def minLength : Normal → Option Nat
  | empty | assert _ => some 0
  | text cs => some cs.length
  | set members => if members.isEmpty then none else some 1
  | group _ r => r.minLength
  | rep r min _ _ => r.minLength.map (· * min)
  | cat rs => minLengthSum rs
  | alt rs => minLengthLeast rs

def minLengthSum : List Normal → Option Nat
  | [] => some 0
  | r :: rs => do return (← r.minLength) + (← minLengthSum rs)

def minLengthLeast : List Normal → Option Nat
  | [] => none
  | [r] => r.minLength
  | r :: rs => do return Nat.min (← r.minLength) (← minLengthLeast rs)

end

mutual

/-- Whether every match begins with the given condition. -/
def beginsWith (a : Assertion) : Normal → Bool
  | assert b => a = b
  | group _ r => r.beginsWith a
  | rep r min _ _ => 0 < min && r.beginsWith a
  | cat rs => sequenceBegins a rs
  | alt rs => choiceBegins a rs
  | _ => false

def sequenceBegins (a : Assertion) : List Normal → Bool
  | [] => false
  | r :: rs => r.beginsWith a || (r.isBlank && sequenceBegins a rs)

def choiceBegins (a : Assertion) : List Normal → Bool
  | [] => true
  | r :: rs => r.beginsWith a && choiceBegins a rs

end

mutual

/-- Whether every match ends with the given condition. -/
def endsWith (a : Assertion) : Normal → Bool
  | assert b => a = b
  | group _ r => r.endsWith a
  | rep r min _ _ => 0 < min && r.endsWith a
  | cat rs => sequenceEnds a rs
  | alt rs => choiceEnds a rs
  | _ => false

def sequenceEnds (a : Assertion) : List Normal → Bool
  | [] => false
  | r :: rs => sequenceEnds a rs || (areBlank rs && r.endsWith a)

def choiceEnds (a : Assertion) : List Normal → Bool
  | [] => true
  | r :: rs => r.endsWith a && choiceEnds a rs

end

mutual

/-- Lays out the states of a pattern. -/
def lay (backward : Bool) (r : Normal) (l : Layout) : Option Layout :=
  match r with
  | empty | assert _ => l.add 0
  | text cs => l.addAll (encoded cs).length
  | set members => l.addSet backward members
  | group _ r =>
    if backward then r.lay backward l
    else do (← r.lay backward (← l.add 0)).add 0
  | rep r min max _ =>
    match min, max with
    | 0, none =>
      if r.minLength.any (0 < ·) then do (← r.lay backward (← l.add 0)).link 2
      else do (← (← r.lay backward l).addAll 3).link 4
    | min, none => do
      (← (← Layout.times (r.lay backward) min l).add 0).link 2
    | 0, some 1 => do (← (← r.lay backward (← l.add 0)).add 0).link 2
    | min, some max => do
      let l ← if min = 0 then l.add 0 else some l
      let l ← Layout.times (r.lay backward) min l
      if min = max then return l
      else
        let further := fun (l : Layout) => do (← r.lay backward (← l.add 0)).link 2
        Layout.times further (max - min) (← l.add 0)
  | cat rs => laySequence backward rs l
  | alt rs =>
    match rs.mapM text? with
    | some texts => do
      let order := fun (bs : List Nat) => if backward then bs.reverse else bs
      let trie := texts.foldl (fun t cs => t.insert (order (encoded cs))) Trie.leaf
      trie.lay (← l.add 0)
    | none => layChoice backward 0 rs l

/-- Lays out the states of the parts of a sequence, in the order in which they are read. -/
def laySequence (backward : Bool) (rs : List Normal) (l : Layout) : Option Layout :=
  match rs with
  | [] => some l
  | r :: rs =>
    if backward then do r.lay backward (← laySequence backward rs l)
    else do laySequence backward rs (← r.lay backward l)

/-- Lays out the states of alternatives, of which `count` have been laid out before. The states at
both ends of the choice come behind the second one. -/
def layChoice (backward : Bool) (count : Nat) (rs : List Normal) (l : Layout) : Option Layout :=
  match rs with
  | [] => some l
  | r :: rs => do
    let l ← r.lay backward l
    let l ← if count = 1 then l.addAll 2 else some l
    layChoice backward (count + 1) rs (← l.link 1)

end

/-- Lays out the whole automaton of a pattern. One that is not tied to the end of the text from
which it is read begins with states that pass over what comes before a match. -/
def automaton (r : Normal) (backward : Bool) : Option Layout := do
  let tied := if backward then r.endsWith .textEnd else r.beginsWith .textStart
  let start : Layout := ⟨0, 0⟩
  let l ← if tied then start.add 0 else do (← (← start.addAll 2).addRanges 1).link 2
  let l ← (group 0 r).lay backward l
  l.add 0

/-- Whether both automata keep to the limit. -/
def fits (r : Normal) : Bool :=
  (r.automaton false).isSome && (r.automaton true).isSome

end Normal

end Ripple.Regex
