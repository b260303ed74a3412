import GraphCodec.Formatter.Pattern.Basic

/-!
# Automata of regular expressions

A regular expression is compiled to a tree with its repetitions expanded, and the tree to a
nondeterministic automaton. States are numbered in the order of the expression, and an alternative
comes after its branches; of two paths the one through the smaller state is preferred.
-/

set_option autoImplicit false

namespace GraphCodec.Formatter

/-! ## Trees -/

/-- The leaves of a syntax tree. -/
inductive Leaf where
  | one (set : CharSet)
  | byte (b : Char)
  | same (group : Nat)
  | edge (kind : Edge)
  | opens (group : Nat)
  /-- The end of a capture group; `optional` if the group is under an optional repetition. -/
  | closes (group : Nat) (optional : Bool)
  | halt
  deriving DecidableEq, Repr

/-- A regular expression with repetitions expanded and nodes numbered. -/
inductive Tree where
  | none
  | leaf (id : Nat) (leaf : Leaf)
  | cat (first second : Tree)
  | alt (id : Nat) (first second : Tree)
  | star (id : Nat) (body : Tree)
  deriving Repr

namespace Tree

/-- Concatenation; either tree may be empty. -/
def before : Tree → Tree → Tree
  | none, t => t
  | t, none => t
  | s, t => cat s t

/-- The next free number, and the numbers of duplicated nodes. -/
structure Planted where
  next : Nat := 0
  copied : List Nat := []

/-- The monad of fresh numbers. -/
abbrev Planting := StateM Planted

def fresh (copy : Bool) : Planting Nat :=
  modifyGet fun p => (p.next, ⟨p.next + 1, if copy then p.next :: p.copied else p.copied⟩)

def plant (copy : Bool) (l : Leaf) : Planting Tree := return leaf (← fresh copy) l

/-- A capture group. -/
def group (number : Nat) (optional : Bool) (body : Planting Tree) : Planting Tree := do
  let front ← plant false (.opens number)
  let body ← body
  let back ← plant false (.closes number optional)
  return cat front (before body back)

/-- Appends copies to a tree. -/
def copies (copy : Planting Tree) : Nat → Tree → Planting Tree
  | 0, t => return t
  | n + 1, t => do copies copy n (cat t (← copy))

/-- Appends nested optional copies to a tree. -/
def choices (isCopy : Bool) (copy : Planting Tree) : Nat → Tree → Planting Tree
  | 0, t => return t
  | n + 1, t => do
    let t := cat t (← copy)
    choices isCopy copy n (alt (← fresh isCopy) t none)

/-- An interval expression. The first copy is `first`; the last mandatory one, if more may follow,
is `last`; the first optional one is `start`; all others are `copy`. All of it may itself be
duplicated. -/
def repeated (isCopy : Bool) (first last start copy : Planting Tree) (least : Nat)
    (most : Option Nat) : Planting Tree := do
  if most == some least then
    return ← if least = 0 then pure none else copies copy (least - 1) (← first)
  let needed ← match least with
    | 0 => pure none
    | 1 => first
    | n + 2 => copies last 1 (← copies copy n (← first))
  let body ← start
  let more ← match most with
    | some k => choices isCopy copy (k - least - 1) (alt (← fresh isCopy) body none)
    | Option.none => pure (star (← fresh isCopy) body)
  return before needed more

/-- Expands a regular expression. In a duplicate no group is optional, except in the last mandatory
copy if more may follow. A group that is just another group has the offsets of that one. -/
def ofPattern : Pattern → Bool → Planting Tree
  | .empty, _ => return none
  | .one set, copy => plant copy (.one set)
  | .byte b, copy => plant copy (.byte b)
  | .same n, copy => plant copy (.same n)
  | .edge kind, copy => plant copy (.edge kind)
  | .seq a b, copy => do
    let s ← ofPattern a copy
    let t ← ofPattern b copy
    return before s t
  | .alt a b, copy => do
    let s ← ofPattern a copy
    let t ← ofPattern b copy
    return alt (← fresh copy) s t
  | .group n (.group _ a), copy => group n false (ofPattern a copy)
  | .group n a, copy => group n false (ofPattern a copy)
  | .rep (.group n (.group _ a)) least most, copy =>
    repeated copy (group n false (ofPattern a copy)) (group n (!copy) (ofPattern a true))
      (group n (!copy) (ofPattern a (copy || least ≠ 0))) (group n false (ofPattern a true)) least
      most
  | .rep (.group n a) least most, copy =>
    repeated copy (group n false (ofPattern a copy)) (group n (!copy) (ofPattern a true))
      (group n (!copy) (ofPattern a (copy || least ≠ 0))) (group n false (ofPattern a true)) least
      most
  | .rep a least most, copy =>
    repeated copy (ofPattern a copy) (ofPattern a true) (ofPattern a (copy || least ≠ 0))
      (ofPattern a true) least most

/-- The first node of a tree with a continuation. -/
def first : Tree → Nat → Nat
  | none, next => next
  | leaf id _, _ => id
  | cat a _, next => a.first next
  | alt id _ _, _ => id
  | star id _, _ => id

end Tree

/-- The groups that have the offsets of other groups. -/
def Pattern.aliases : Pattern → List (Nat × Nat)
  | group n (group k a) => (k, n) :: a.aliases
  | group _ a | rep a _ _ => a.aliases
  | seq a b | alt a b => a.aliases ++ b.aliases
  | _ => []

/-! ## States -/

/-- A state of the automaton with its successors. -/
inductive Node where
  | one (set : CharSet) (next : Nat)
  | byte (b : Char) (next : Nat)
  /-- A back-reference. If it matches the empty string, `loose` is an epsilon successor. -/
  | same (group : Nat) (next : Nat) (loose : Nat)
  | edge (kind : Edge) (next : Nat)
  | opens (group : Nat) (next : Nat)
  | closes (group : Nat) (optional : Bool) (next : Nat)
  /-- Epsilon transitions, in order of priority. -/
  | fork (ways : List Nat)
  | halt
  deriving DecidableEq, Repr

namespace Node

def ofLeaf (l : Leaf) (next : Nat) : Node :=
  match l with
  | .one set => one set next
  | .byte b => byte b next
  | .same n => same n next next
  | .edge kind => edge kind next
  | .opens n => opens n next
  | .closes n optional => closes n optional next
  | .halt => halt

/-- A fork of two states. -/
def choice (a b : Nat) : Node := fork (if a = b then [a] else if a < b then [a, b] else [b, a])

/-- The epsilon successors. -/
def ways : Node → List Nat
  | edge _ next | opens _ next | closes _ _ next => [next]
  | fork ways => ways
  | _ => []

/-- The epsilon successors, those of back-references included. -/
def looseWays : Node → List Nat
  | same _ _ loose => [loose]
  | n => n.ways

/-- Replaces the epsilon successors. -/
def withWays (ways : List Nat) : Node → Node
  | same n next loose => same n next (ways.headD loose)
  | edge kind next => edge kind (ways.headD next)
  | opens n next => opens n (ways.headD next)
  | closes n optional next => closes n optional (ways.headD next)
  | fork _ => fork ways
  | node => node

/-- The successor after consuming input. -/
def next? : Node → Option Nat
  | one _ next | byte _ next | same _ next _ => some next
  | _ => none

end Node

/-- The states of a tree with a continuation. -/
def Tree.nodes : Tree → Nat → List (Nat × Node) → List (Nat × Node)
  | .none, _, rest => rest
  | .leaf id l, next, rest => (id, .ofLeaf l next) :: rest
  | .cat a b, next, rest => a.nodes (b.first next) (b.nodes next rest)
  | .alt id a b, next, rest =>
    (id, .choice (a.first next) (b.first next)) :: a.nodes next (b.nodes next rest)
  | .star id a, next, rest => (id, .choice (a.first id) next) :: a.nodes id rest

/-- A sorted set of states. -/
abbrev Nodes := List Nat

namespace Nodes

/-- Drops adjacent duplicates. -/
def tidy : List Nat → Nodes
  | a :: b :: rest => if a = b then tidy (b :: rest) else a :: tidy (b :: rest)
  | short => short

def ofList (list : List Nat) : Nodes := tidy (list.mergeSort (· ≤ ·))

def union (a b : Nodes) : Nodes :=
  match a, b with
  | [], b => b
  | a, [] => a
  | a, b => tidy (a.merge b (· ≤ ·))

end Nodes

/-! ## Assertions

The assertion of an anchor guards all states in its epsilon closure, so these are duplicated with
the assertion. -/

/-- A state with the assertions that guard it. -/
structure Station where
  node : Node
  needs : List Need
  /-- Whether it is a duplicate. -/
  copied : Bool
  /-- The original of a duplicate. -/
  origin : Option Nat
  deriving Repr

/-- The states so far. -/
abbrev Stations := Array Station

namespace Stations

def get (b : Stations) (n : Nat) : Station := b.getD n ⟨.halt, [], false, none⟩

/-- The union of assertions. -/
def joined (a b : List Need) : List Need := a ++ b.filter fun n => !a.contains n

/-- Equality of assertions as sets. -/
def isSame (a b : List Need) : Bool := a.all b.contains && b.all a.contains

/-- Adds a duplicate of a state with more assertions. -/
def double (b : Stations) (n : Nat) (needs : List Need) : Nat × Stations :=
  let s := b.get n
  (b.size, b.push ⟨s.node, joined needs s.needs, true, some n⟩)

def setWays (b : Stations) (n : Nat) (ways : List Nat) : Stations :=
  b.modify n fun s => { s with node := s.node.withWays ways }

/-- The last duplicate of a state with the same assertions. -/
def doubleOf? (b : Stations) (n : Nat) (needs : List Need) : Option Nat :=
  (List.range b.size).reverse.find? fun k =>
    let s := b.get k
    s.origin == some n && isSame s.needs needs

/-- Duplicates the states that follow a state through epsilon transitions; `clone` is its own
duplicate. Every round adds a duplicate or is the last one; existing duplicates are reused. -/
def follow (root : Nat) : Nat → Nat → Nat → List Need → Stations → Stations
  | 0, _, _, _, b => b
  | bound + 1, n, clone, needs, b =>
    let s := b.get n
    match s.node with
    | .same _ next _ =>
      let (d, b) := b.double next needs
      follow root bound next d needs (b.setWays clone [d])
    | node =>
      match node.ways with
      | [] => b
      | [dest] =>
        if n = root && clone ≠ n then b.setWays clone [dest]
        else
          let needs := joined needs s.needs
          let (d, b) := b.double dest needs
          follow root bound dest d needs (b.setWays clone [d])
      | dest :: other :: _ =>
        let (d, b) := match b.doubleOf? dest needs with
          | some d => (d, b)
          | none =>
            let (d, b) := b.double dest needs
            (d, follow root bound dest d needs (b.setWays clone [d]))
        let (e, b) := b.double other needs
        let ways := if d = e then [d] else if d < e then [d, e] else [e, d]
        follow root bound other e needs (b.setWays clone ways)

end Stations

/-! ## Closures -/

/-- The state of computing epsilon closures: the states, the known closures, and the states in
progress. -/
structure Closing where
  stations : Stations
  known : Array (Option Nodes)
  open' : List Nat

namespace Closing

def knownOf (c : Closing) (n : Nat) : Option Nodes := (c.known.getD n none)

def learn (c : Closing) (n : Nat) (ns : Option Nodes) : Closing :=
  let short := n + 1 - c.known.size
  let known := c.known ++ (List.replicate short none).toArray
  { c with known := known.set! n ns, open' := c.open'.filter (· ≠ n) }

/-- The epsilon closure of a state, and whether it is complete. -/
def close : Nat → Bool → Nat → Closing → (Nodes × Bool) × Closing
  | 0, _, n, c => (([n], false), c)
  | bound + 1, isRoot, n, c =>
    let c := { c with open' := n :: c.open' }
    let s := c.stations.get n
    let startsDoubles := !s.needs.isEmpty &&
      match s.node.looseWays with
      | [] => false
      | d :: _ => !(c.stations.get d).copied
    let c :=
      if startsDoubles then
        { c with stations := c.stations.follow n (4 * c.stations.size + 16) n n s.needs }
      else c
    let ((ns, whole), c) := (c.stations.get n).node.ways.foldl
      (fun ((ns, whole), c) d =>
        if c.open'.contains d then ((ns, false), c)
        else
          match c.knownOf d with
          | some more => ((Nodes.union ns more, whole), c)
          | none =>
            let ((more, all), c) := close bound false d c
            ((Nodes.union ns more, whole && all), c)) ((([] : Nodes), true), c)
    let ns := Nodes.union ns [n]
    ((ns, whole), c.learn n (if whole || isRoot then some ns else none))

/-- Computes the epsilon closures of all states from a number on. Duplicates are appended. -/
def closeAll : Nat → Nat → Closing → Closing
  | 0, _, c => c
  | bound + 1, n, c =>
    if c.stations.size ≤ n then c
    else
      match c.knownOf n with
      | some _ => closeAll bound (n + 1) c
      | none =>
        closeAll bound (n + 1) (close (4 * c.stations.size + 16) true n c).2

end Closing

/-! ## Automata -/

/-- A nondeterministic finite automaton with back-references and assertions. -/
structure Automaton where
  nodes : Array Node
  /-- The assertions of each state. -/
  needs : Array (List Need)
  start : Nat
  /-- Whether there are assertions. -/
  hasNeeds : Bool
  /-- Whether there are back-references. -/
  refersBack : Bool
  /-- Whether there are forks. -/
  hasForks : Bool
  /-- The groups of back-references. -/
  used : List Nat
  /-- The epsilon closures. -/
  closures : Array Nodes
  /-- The inverse epsilon closures. -/
  sources : Array Nodes
  /-- The groups that have the offsets of other groups. -/
  aliases : List (Nat × Nat)

namespace Automaton

/-- Inverts epsilon closures. -/
def sourcesOf (closures : Array Nodes) : Array Nodes :=
  let pairs := (List.range closures.size).reverse
  let empty : Array Nodes := closures.map fun _ => []
  pairs.foldl (fun sources n =>
    (closures.getD n []).foldl (fun sources k => sources.modify k (n :: ·)) sources) empty

/-- Compiles a regular expression. -/
def ofPattern (p : Pattern) : Automaton :=
  let aliases := p.aliases
  let (tree, planted) := (Tree.ofPattern p false).run {}
  let size := planted.next
  let listed := (size, Node.halt) :: tree.nodes size []
  let blank : Stations := (List.replicate (size + 1) ⟨.halt, [], false, none⟩).toArray
  let stations := listed.foldl (fun a (id, node) =>
    let (node, needs) : Node × List Need := match node with
      | .same n next loose => (.same ((aliases.lookup n).getD n) next loose, [])
      | .edge kind _ => (node, kind.needs)
      | node => (node, [])
    a.set! id ⟨node, needs, planted.copied.contains id, none⟩) blank
  let c := Closing.closeAll (16 * stations.size * stations.size + 64) 0
    ⟨stations, (List.replicate stations.size none).toArray, []⟩
  let nodes := c.stations.map (·.node)
  let closures := (List.range nodes.size).map fun n => (c.knownOf n).getD [n]
  let closures := closures.toArray
  let used := nodes.toList.filterMap fun node =>
    match node with
    | .same n _ _ => some n
    | _ => none
  { nodes
    needs := c.stations.map (·.needs)
    start := tree.first size
    hasNeeds := c.stations.any fun s => !s.needs.isEmpty
    refersBack := !used.isEmpty
    hasForks := nodes.any fun node => match node with | .fork _ => true | _ => false
    used
    closures
    sources := if used.isEmpty then #[] else sourcesOf closures
    aliases }

def node (a : Automaton) (n : Nat) : Node := a.nodes.getD n .halt

def needsOf (a : Automaton) (n : Nat) : List Need := a.needs.getD n []

def closure (a : Automaton) (n : Nat) : Nodes := a.closures.getD n []

def sourcesFor (a : Automaton) (n : Nat) : Nodes := a.sources.getD n []

/-- Whether there are word assertions. -/
def hasWords (a : Automaton) : Bool :=
  a.hasNeeds && a.needs.any fun ns => ns.any fun need =>
    [Need.wordBefore, .noWordBefore, .wordAfter, .noWordAfter].contains need

/-- Whether some state is a back-reference. -/
def anySame (a : Automaton) (ns : Nodes) : Bool :=
  a.refersBack && ns.any fun n => match a.node n with | .same _ _ _ => true | _ => false

/-- Whether a state is accepting. -/
def isHalt (a : Automaton) (n : Nat) : Bool := a.node n == .halt

end Automaton

end GraphCodec.Formatter
