import GraphCodec.Formatter.Pattern.Automaton

/-!
# Simulation of automata

The states that are reached at each offset from the start of a match.
-/

set_option autoImplicit false

namespace GraphCodec.Formatter

/-- An automaton, a subject and the start of a match. -/
structure Matching where
  automaton : Automaton
  subject : Subject
  manyLines : Bool
  start : Nat

namespace Matching

/-- The number of bytes from the start. -/
def size (m : Matching) : Nat := m.subject.size - m.start

/-- Whether an assertion holds at an offset. After the start, a line starts after each consumed line
separator. -/
def meets (m : Matching) (i : Nat) (need : Need) : Bool :=
  m.subject.meets (m.manyLines || (i ≠ 0 && need == .lineBefore)) (m.start + i) need

/-- Drops the states whose assertions about the preceding context fail. -/
def allowed (m : Matching) (i : Nat) (ns : Nodes) : Nodes :=
  if m.automaton.hasNeeds then
    ns.filter fun n => (m.automaton.needsOf n).all fun need => !need.looksBack || m.meets i need
  else ns

/-- The epsilon closure of a state at an offset. -/
def closureAt (m : Matching) (i n : Nat) : Nodes := m.allowed i (m.automaton.closure n)

/-- Whether the assertions of a state about the following context hold. -/
def meetsAfter (m : Matching) (i n : Nat) : Bool :=
  (m.automaton.needsOf n).all fun need => need.looksBack || m.meets i need

/-- The same for a state that consumes input, where a line separator is an ordinary byte. -/
def meetsTaken (m : Matching) (i n : Nat) : Bool :=
  (m.automaton.needsOf n).all fun need =>
    match need with
    | .lineAfter => m.subject.bytes[m.start + i]? == some m.subject.lineEnd
    | need => need.looksBack || m.meets i need

/-- The number of bytes that a state can consume at an offset. -/
def size? (m : Matching) (i n : Nat) : Option Nat :=
  match m.automaton.node n with
  | .one set _ =>
    match m.subject.char? (m.start + i) with
    | some (c, size) => if set.contains m.subject.alphabet c then some size else none
    | none => none
  | .byte b _ => if m.subject.bytes[m.start + i]? == some b then some 1 else none
  | _ => none

/-- The number of bytes that a state consumes in the forward pass. -/
def taken? (m : Matching) (i n : Nat) : Option Nat :=
  (m.size? i n).filter fun k => if k = 1 then m.meetsTaken i n else m.meetsAfter i n

/-- The number of bytes that a state consumes on a known path. -/
def takenAgain? (m : Matching) (i n : Nat) : Option Nat :=
  (m.size? i n).filter fun k => 1 < k || m.meetsAfter i n

/-- The first accepting state at an offset. -/
def halt? (m : Matching) (i : Nat) (ns : Nodes) : Option Nat :=
  ns.find? fun n => m.automaton.isHalt n && m.meetsAfter i n

/-- Whether the substrings of a length at two offsets are equal. -/
def isSame (m : Matching) (a b length : Nat) : Bool :=
  m.subject.isSame (m.start + a) (m.start + b) length

end Matching

/-- The state sets by offset. -/
abbrev Log := Array Nodes

namespace Log

def nodesAt (log : Log) (i : Nat) : Nodes := log.getD i []

/-- Replaces the state set at an offset. -/
def put (log : Log) (i : Nat) (ns : Nodes) : Log :=
  let log := if log.size ≤ i then log ++ (List.replicate (i + 1 - log.size) []).toArray else log
  log.set! i ns

/-- Adds states at an offset. -/
def add (log : Log) (i : Nat) (ns : Nodes) : Log := log.put i ((log.nodesAt i).union ns)

/-- Whether a state is in the set of an offset. -/
def has (log : Log) (i n : Nat) : Bool := (log.nodesAt i).contains n

end Log

namespace Matching

/-- Consumes input from the states at an offset. -/
def advance (m : Matching) (i : Nat) (ns : Nodes) (log : Log) : Log :=
  ns.foldl (fun log n =>
    match m.taken? i n, (m.automaton.node n).next? with
    | some k, some next => log.add (i + k) (m.closureAt (i + k) next)
    | _, _ => log) log

/-- Runs the automaton forward while there are states, and returns the last accepting offset. -/
def tracks (m : Matching) : Nat → Nat → Log → Option Nat → Log × Option Nat
  | 0, _, log, last => (log, last)
  | bound + 1, i, log, last =>
    if log.size ≤ i then (log, last)
    else
      let ns := log.nodesAt i
      let last := if (m.halt? i ns).isSome then some i else last
      m.tracks bound (i + 1) (m.advance i ns log) last

/-- The state sets of the forward pass, and the end of the longest match. -/
def allTracks (m : Matching) : Log × Option Nat :=
  m.tracks (m.size + 1) 0 #[m.closureAt 0 m.automaton.start] none

/-- The preceding context of an offset, as far as assertions distinguish it. -/
inductive Before where
  | nothing | line | word | other
  deriving DecidableEq

def before (m : Matching) (i : Nat) : Before :=
  let place := m.start + i
  if place = 0 then .nothing
  else if m.meets i .lineBefore then .line
  else if m.automaton.hasWords && m.subject.wordBefore place then .word
  else .other

/-- The drift of an empty match. As long as the consumed input leads to the initial state set again,
it moves on to the next byte. -/
def drift (m : Matching) : Nat → Nat → Nat → Nat
  | 0, _, far => far
  | bound + 1, i, far =>
    let origin := m.automaton.closure m.automaton.start
    let taken := (m.allowed i origin).filterMap fun n => do
      return (← m.taken? i n, ← (m.automaton.node n).next?)
    match taken with
    | [] => far
    | (size, _) :: _ =>
      let reached := taken.foldl (fun ns (_, next) => Nodes.union ns (m.automaton.closure next)) []
      if taken.all (fun t => t.1 == size) && reached == origin &&
          m.before (i + size) == m.before i then
        m.drift bound (i + size) (i + 1)
      else far

/-- The states of an offset with an epsilon path to others of it. -/
def leadingTo (m : Matching) (there dest : Nodes) : Nodes :=
  if dest.isEmpty then []
  else there.filter fun n => (m.automaton.closure n).any dest.contains

/-- The states at an offset with a transition to a pruned state set. -/
def takingTo (m : Matching) (i : Nat) (there : Nodes) (sifted : Log) : Nodes :=
  there.filter fun n =>
    match m.takenAgain? i n, (m.automaton.node n).next? with
    | some k, some next => sifted.has (i + k) next
    | _, _ => false

/-- The backward pass: prunes the state sets to those that reach the accepting state. -/
def siftFrom (m : Matching) (log : Log) : Nat → Log → Log
  | 0, sifted => sifted
  | i + 1, sifted =>
    let there := log.nodesAt i
    let dest := m.takingTo i there sifted
    m.siftFrom log i (sifted.put i (m.leadingTo there dest))

/-- The pruned state sets of a match. -/
def sift (m : Matching) (log : Log) (last halt : Nat) : Log :=
  let there := log.nodesAt last
  m.siftFrom log last ((Array.replicate (last + 1) []).set! last (m.leadingTo there [halt]))

end Matching

/-! ## Groups of a path -/

/-- The offsets of a capture group. -/
structure Extent where
  start : Option Nat
  stop : Option Nat
  deriving DecidableEq, Repr

/-- The offsets of capture groups by number. -/
abbrev Places := List (Nat × Extent)

namespace Places

def get (p : Places) (n : Nat) : Extent := (p.lookup n).getD ⟨none, none⟩

def set (p : Places) (n : Nat) (e : Extent) : Places := (n, e) :: p.filter fun q => q.1 ≠ n

end Places

/-- The state of the path search: offset and state, the offsets of groups, their values when the
last nonempty group closed, and the states passed since input was consumed. -/
structure Walk where
  place : Nat
  node : Nat
  groups : Places
  saved : Places
  passed : List Nat

namespace Walk

/-- Records the start or end of a group. An empty optional group restores the previous offsets,
unless it is the first iteration. -/
def note (w : Walk) (a : Automaton) : Walk :=
  match a.node w.node with
  | .opens n _ => { w with groups := w.groups.set n ⟨some w.place, none⟩ }
  | .closes n optional _ =>
    let start := (w.groups.get n).start
    let closed := w.groups.set n ⟨start, some w.place⟩
    if start ≠ some w.place then { w with groups := closed, saved := closed }
    else if optional && (w.saved.get n).start.isSome then { w with groups := w.saved }
    else { w with groups := closed }
  | _ => w

end Walk

namespace Matching

/-- The epsilon successors in the pruned state set. -/
def openWays (m : Matching) (sifted : Log) (w : Walk) : List Nat :=
  (m.automaton.node w.node).ways.filter fun n => sifted.has w.place n

/-- Searches the path of highest priority through the pruned state sets. An epsilon cycle is entered
at most once, so offsets and states bound the steps. -/
def walk (m : Matching) (sifted : Log) (last halt : Nat) : Nat → Walk → Option Places
  | 0, _ => none
  | bound + 1, w =>
    let w := w.note m.automaton
    if w.place = last && w.node = halt then some w.groups
    else
      match m.takenAgain? w.place w.node, (m.automaton.node w.node).next? with
      | some k, some next =>
        m.walk sifted last halt bound { w with place := w.place + k, node := next, passed := [] }
      | _, _ =>
        let passed := w.node :: w.passed
        match m.openWays sifted w with
        | [] => none
        | [a] => m.walk sifted last halt bound { w with node := a, passed }
        | a :: b :: _ =>
          m.walk sifted last halt bound { w with node := if passed.contains a then b else a, passed }

/-- The capture groups of a match by its end. -/
def groups (m : Matching) (log : Log) (last : Nat) : Option Places :=
  let halt := (m.halt? last (log.nodesAt last)).getD 0
  let sifted := if m.automaton.hasForks then m.sift log last halt else log
  m.walk sifted last halt ((last + 2) * (2 * m.automaton.nodes.size + 2))
    ⟨0, m.automaton.start, [], [], []⟩

end Matching

end GraphCodec.Formatter
