import GraphCodec.Formatter.Pattern.Tracks

/-!
# Back-references

With back-references, the states at an offset do not determine the reachable ones. For each
back-reference, the substrings that its group may match are recorded; then only paths that agree
with the records are kept.
-/

set_option autoImplicit false

namespace GraphCodec.Formatter

/-! ## Records -/

/-- A cache entry of a back-reference: the offset of the back-reference, and the offsets of its
group. -/
structure Entry where
  node : Nat
  place : Nat
  start : Nat
  stop : Nat
  /-- A bit mask of groups that are known not to be reachable through an empty back-reference. -/
  barren : Nat
  deriving DecidableEq, Repr

namespace Entry

def size (e : Entry) : Nat := e.stop - e.start

end Entry

/-- The state sets along the paths from a state, as far as they were computed. -/
structure Path where
  next : Nat := 0
  log : Log := #[]

/-- An end of a group. -/
structure GroupEnd where
  node : Nat
  place : Nat
  path : Path

/-- A start of a group, with the ends found so far. -/
structure GroupStart where
  node : Nat
  place : Nat
  ends : Array GroupEnd
  path : Path

/-- The state sets at each offset, the cache of back-references, and the starts of referenced
groups. -/
structure Met where
  log : Log
  entries : Array Entry
  starts : Array GroupStart

/-- The first cache entry of an offset. -/
def firstEntry? (entries : Array Entry) (place : Nat) : Option Nat :=
  entries.findIdx? fun e => e.place == place

/-- The cache entries of an offset. -/
def entriesAt (entries : Array Entry) (place : Nat) : List Nat :=
  match firstEntry? entries place with
  | none => []
  | some first =>
    ((List.range entries.size).drop first).takeWhile fun k =>
      (entries[k]?.map fun e => e.place == place).getD false

namespace Automaton

/-- The group of an opening, closing or back-reference state. -/
def groupOf (a : Automaton) (n : Nat) : Option Nat :=
  match a.node n with
  | .same g _ _ | .opens g _ | .closes g _ _ => some g
  | _ => none

/-- Whether a state opens, or closes, a group. -/
def isBorder (a : Automaton) (group : Nat) (opening : Bool) (n : Nat) : Bool :=
  match a.node n with
  | .opens g _ => opening && g == group
  | .closes g _ _ => !opening && g == group
  | _ => false

/-- Adds the epsilon successors of back-references in the initial state set whose groups are closed
there. -/
def passRefs (a : Automaton) : Nat → Nat → Nodes → Nodes
  | 0, _, ns => ns
  | bound + 1, k, ns =>
    match ns[k]? with
    | none => ns
    | some n =>
      match a.node n with
      | .same group _ loose =>
        if ns.any (a.isBorder group false) && !ns.contains loose then
          a.passRefs bound 1 (Nodes.union ns (a.closure loose))
        else a.passRefs bound (k + 1) ns
      | _ => a.passRefs bound (k + 1) ns

/-- The initial state set. -/
def opening (a : Automaton) : Nodes :=
  a.passRefs ((a.nodes.size + 1) * (a.nodes.size + 1)) 0 (a.closure a.start)

end Automaton

namespace Matching

/-! ## Paths inside and outside a group -/

/-- The epsilon closure up to the start or end of a group. -/
def reachBorder (m : Matching) (group : Nat) (opening : Bool) :
    Nat → List Nat → Nodes → Nodes
  | 0, _, reached => reached
  | _, [], reached => reached
  | bound + 1, n :: todo, reached =>
    if reached.contains n then m.reachBorder group opening bound todo reached
    else if m.automaton.isBorder group opening n then
      m.reachBorder group opening bound todo (if opening then reached else n :: reached)
    else
      m.reachBorder group opening bound ((m.automaton.node n).looseWays ++ todo) (n :: reached)

/-- The epsilon closure of a state set without crossing the start or end of a group. -/
def expand (m : Matching) (group : Nat) (opening : Bool) (ns : Nodes) : Nodes :=
  ns.foldl (fun reached n =>
    if (m.automaton.closure n).any (m.automaton.isBorder group opening) then
      Nodes.ofList (m.reachBorder group opening (2 * m.automaton.nodes.size + 2) [n] reached)
    else Nodes.union reached (m.automaton.closure n)) []

/-- Follows the back-references of a state set by the cache. -/
def followKnown (m : Matching) (entries : Array Entry) (i group : Nat) (opening : Bool) :
    Nat → List Nat → Nodes → Log → Nodes × Log
  | _, [], ns, log => (ns, log)
  | 0, _, ns, log => (ns, log)
  | bound + 1, k :: more, ns, log =>
    match entries[k]? with
    | none => m.followKnown entries i group opening bound more ns log
    | some e =>
      match m.automaton.node e.node with
      | .same _ next loose =>
        if !ns.contains e.node then m.followKnown entries i group opening bound more ns log
        else if e.size = 0 then
          if ns.contains loose then m.followKnown entries i group opening bound more ns log
          else
            -- More states are reached here, so all records are visited again.
            let ns := Nodes.union ns (m.expand group opening [loose])
            m.followKnown entries i group opening bound (entriesAt entries i) ns log
        else
          m.followKnown entries i group opening bound more ns (log.add (i + e.size) [next])
      | _ => m.followKnown entries i group opening bound more ns log

/-- The closure of a state set at an offset, back-references by the cache included. -/
def expandKnown (m : Matching) (entries : Array Entry) (i group : Nat) (opening : Bool)
    (ns : Nodes) (log : Log) : Nodes × Log :=
  let known := entriesAt entries i
  if ns.isEmpty then (ns, log)
  else
    m.followKnown entries i group opening ((known.length + 1) * (m.automaton.nodes.size + 1))
      known ns log

/-- Consumes a byte along a path. -/
def stepPath (m : Matching) (i : Nat) (ns : Nodes) (log : Log) : Nodes × Log :=
  ns.foldl (fun (next, log) n =>
    match m.takenAgain? i n, (m.automaton.node n).next? with
    | some k, some d => (Nodes.union next [d], if 1 < k then log.add (i + k) [d] else log)
    | _, _ => (next, log)) (log.nodesAt (i + 1), log)

/-- Extends a path up to an offset. -/
def followPath (m : Matching) (entries : Array Entry) (group : Nat) (opening : Bool) :
    Nat → Nat → Nodes → Log → Log
  | 0, _, _, log => log
  | steps + 1, i, ns, log =>
    let (next, log) := m.stepPath i ns log
    let next := m.expand group opening next
    let (next, log) := m.expandKnown entries (i + 1) group opening next log
    let next := m.allowed (i + 1) next
    m.followPath entries group opening steps (i + 1) next (log.put (i + 1) next)

/-- Whether a state is reached at an offset on a path. -/
def arrives (m : Matching) (entries : Array Entry) (path : Path) (top topPlace : Nat)
    (last lastPlace : Nat) (opening : Bool) : Bool × Path :=
  let group := (m.automaton.groupOf top).getD 0
  let i := if path.next = 0 then topPlace else path.next
  let (ns, log) :=
    if i = topPlace then
      let (ns, log) :=
        m.expandKnown entries i group opening (m.expand group opening [top]) path.log
      let ns := m.allowed i ns
      (ns, log.put i ns)
    else
      let ns := path.log.nodesAt i
      if m.automaton.anySame ns then
        let (ns, log) := m.expandKnown entries i group opening ns path.log
        let ns := m.allowed i ns
        (ns, log.put i ns)
      else (ns, path.log)
  let log := m.followPath entries group opening (lastPlace - i) i ns log
  (log.has lastPlace last, ⟨max i lastPlace, log⟩)

end Matching

/-! ## Forward pass -/

namespace Met

/-- Records the starts of referenced groups in a state set. -/
def noteStarts (w : Met) (m : Matching) (i : Nat) (ns : Nodes) : Met :=
  ns.foldl (fun w n =>
    match m.automaton.node n with
    | .opens g _ =>
      if m.automaton.used.contains g then { w with starts := w.starts.push ⟨n, i, #[], {}⟩ } else w
    | _ => w) w

/-- Adds a cache entry for a start and an end of a group, if the back-reference is reachable from
there. -/
def noteText (w : Met) (m : Matching) (ref place : Nat) (s : Nat) (e : Nat) : Met :=
  match w.starts[s]? with
  | none => w
  | some top =>
    match top.ends[e]? with
    | none => w
    | some last =>
      let (ok, path) := m.arrives w.entries last.path last.node last.place ref place true
      let ends := top.ends.set! e { last with path }
      let starts := w.starts.set! s { top with ends }
      let entries :=
        if ok then w.entries.push ⟨ref, place, top.place, last.place, 0⟩ else w.entries
      { w with starts, entries }

/-- Tries the known ends of a group. Returns how far the substrings were compared, unless they
differ. -/
def knownEnds (m : Matching) (ref place s : Nat) : List Nat → Nat → Nat → Met → Met × Option (Nat × Nat)
  | [], stop, off, w => (w, some (stop, off))
  | e :: more, stop, off, w =>
    match (w.starts[s]?.bind fun top => top.ends[e]?) with
    | none => (w, none)
    | some last =>
      let length := last.place - stop
      if 0 < length && !m.isSame stop off length then (w, none)
      else
        knownEnds m ref place s more (stop + length) (off + length) (w.noteText m ref place s e)

/-- Searches for further ends of a group up to the back-reference. -/
def moreEnds (m : Matching) (ref place group s : Nat) : Nat → Nat → Nat → Met → Met
  | 0, _, _, w => w
  | bound + 1, stop, off, w =>
    if place < stop then w
    else
      match w.starts[s]? with
      | none => w
      | some top =>
        let compared := top.place < stop
        if compared && !m.isSame (stop - 1) off 1 then w
        else
          let off := if compared then off + 1 else off
          match (w.log.nodesAt stop).find? (m.automaton.isBorder group false) with
          | none => moreEnds m ref place group s bound (stop + 1) off w
          | some last =>
            let (ok, path) := m.arrives w.entries top.path top.node top.place last stop false
            let ends := if ok then top.ends.push ⟨last, stop, {}⟩ else top.ends
            let w := { w with starts := w.starts.set! s { top with path, ends } }
            let w := if ok then w.noteText m ref place s (ends.size - 1) else w
            moreEnds m ref place group s bound (stop + 1) off w

/-- Fills the cache of a back-reference at an offset. -/
def noteTexts (w : Met) (m : Matching) (ref place : Nat) : Met :=
  let done := (entriesAt w.entries place).any fun k =>
    (w.entries[k]?.map fun e => e.node == ref).getD false
  match done, m.automaton.groupOf ref with
  | false, some group =>
    (List.range w.starts.size).foldl (fun w s =>
      match w.starts[s]? with
      | none => w
      | some top =>
        if m.automaton.groupOf top.node ≠ some group then w
        else
          let (w, compared) :=
            knownEnds m ref place s (List.range top.ends.size) top.place place w
          match compared with
          | none => w
          | some (stop, off) =>
            let stop := if top.ends.isEmpty then stop else stop + 1
            moreEnds m ref place group s (place + 2) stop off w) w
  | _, _ => w

/-- Follows the back-references of a state set at an offset. -/
def followRefs (m : Matching) (i : Nat) : Nat → Nodes → Met → Met
  | 0, _, w => w
  | bound + 1, ns, w =>
    ns.foldl (fun w n =>
      match m.automaton.node n with
      | .same _ next loose =>
        let before := w.entries.size
        let w := if m.meetsAfter i n then w.noteTexts m n i else w
        let found := (List.range w.entries.size).drop before
        found.foldl (fun w k =>
          match w.entries[k]? with
          | none => w
          | some e =>
            if e.node ≠ n || e.place ≠ i then w
            else
              let dest := m.automaton.closure (if e.size = 0 then loose else next)
              let old := (w.log.nodesAt i).length
              let w := { w with log := w.log.add (i + e.size) (m.allowed (i + e.size) dest) }
              if e.size = 0 && old < (w.log.nodesAt i).length then
                followRefs m i bound dest (w.noteStarts m i dest)
              else w) w
      | _ => w) w

/-- Runs the automaton forward while there are states. -/
def tracks (m : Matching) : Nat → Nat → Met → Option Nat → Met × Option Nat
  | 0, _, w, last => (w, last)
  | bound + 1, i, w, last =>
    if w.log.size ≤ i then (w, last)
    else
      let ns := w.log.nodesAt i
      let w := w.noteStarts m i ns
      let w := if m.automaton.anySame ns then followRefs m i (m.automaton.nodes.size + 1) ns w else w
      let ns := w.log.nodesAt i
      let last := if (m.halt? i ns).isSome then some i else last
      tracks m bound (i + 1) { w with log := m.advance i ns w.log } last

end Met

/-! ## Backward pass -/

/-- The pruned state sets at each offset: of the current case, and of all cases so far. -/
structure Sifted where
  log : Log
  all : Log
  entries : Array Entry

namespace Matching

/-- The side of a group boundary that an offset is on, by the states reachable there. -/
def sideAtBorder (m : Matching) (atStart atStop : Bool) (group : Nat) (known : List Nat) :
    Nat → Nat → Array Entry → Int × Array Entry
  | 0, _, entries => (if atStop then 1 else 0, entries)
  | bound + 1, node, entries =>
    let default : Int := if atStop then 1 else 0
    let (found, entries) := (m.automaton.closure node).foldl
      (fun (found, entries) n =>
        match found with
        | some _ => (found, entries)
        | none =>
          match m.automaton.node n with
          | .opens g _ => (if atStart && g == group then some (-1) else none, entries)
          | .closes g _ _ => (if atStop && g == group then some 0 else none, entries)
          | .same _ _ next =>
            known.foldl (fun (found, entries) k =>
              match found, entries[k]? with
              | none, some e =>
                if e.node ≠ n || e.size ≠ 0 || e.barren.testBit group then (none, entries)
                else if next = node then (some (if atStart then -1 else 0), entries)
                else
                  let (side, entries) := m.sideAtBorder atStart atStop group known bound next entries
                  if side = -1 then (some (-1), entries)
                  else if side = 0 && atStop then (some 0, entries)
                  else
                    (none, entries.modify k fun e => { e with barren := e.barren ||| 1 <<< group })
              | found, _ => (found, entries)) (none, entries)
          | _ => (none, entries)) (none, entries)
    (found.getD default, entries)

/-- Whether a state at an offset is before, inside or after the group of a cache entry. -/
def side (m : Matching) (limit : Entry) (group node i : Nat) (entries : Array Entry) :
    Int × Array Entry :=
  if i < limit.start then (-1, entries)
  else if limit.stop < i then (1, entries)
  else
    let atStart := i == limit.start
    let atStop := i == limit.stop
    if !atStart && !atStop then (0, entries)
    else
      m.sideAtBorder atStart atStop group (entriesAt entries i) (m.automaton.nodes.size + 1) node
        entries

/-- Whether a transition crosses the boundary of a group of a cache entry. -/
def crosses (m : Matching) (n i k j : Nat) : List Nat → Array Entry → Bool × Array Entry
  | [], entries => (false, entries)
  | l :: limits, entries =>
    match entries[l]? with
    | none => m.crosses n i k j limits entries
    | some limit =>
      let group := (m.automaton.groupOf limit.node).getD 0
      let (a, entries) := m.side limit group n i entries
      let (b, entries) := m.side limit group k j entries
      if a = b then m.crosses n i k j limits entries else (true, entries)

/-- Removes a state and the states that reach only it. -/
def dropNode (m : Matching) (node : Nat) (there kept : Nodes) : Nodes :=
  let sources := m.automaton.sourcesFor node
  let spared := sources.foldl (fun spared n =>
    if n = node then spared
    else
      let leadsOn := (m.automaton.node n).ways.any fun d => !sources.contains d && kept.contains d
      if leadsOn then Nodes.union spared (there.filter (m.automaton.sourcesFor n).contains) else spared) []
  kept.filter fun n => !(sources.contains n && !spared.contains n)

/-- Removes the states of a list one by one. -/
def dropNodes (m : Matching) (there : Nodes) (isDropped : Nodes → Nat → Bool) : Nat → Nat → Nodes → Nodes
  | 0, _, kept => kept
  | bound + 1, k, kept =>
    match kept[k]? with
    | none => kept
    | some n =>
      if isDropped kept n then
        let left := m.dropNode n there kept
        if left.length = kept.length then m.dropNodes there isDropped bound (k + 1) kept
        else m.dropNodes there isDropped bound k left
      else m.dropNodes there isDropped bound (k + 1) kept

/-- Removes the states at an offset that are inconsistent with the chosen cache entries. -/
def keepTexts (m : Matching) (entries : Array Entry) (i : Nat) (there : Nodes) :
    List Nat → Nodes → Nodes
  | [], kept => kept
  | l :: limits, kept =>
    match entries[l]? with
    | none => m.keepTexts entries i there limits kept
    | some e =>
      if i ≤ e.start || e.place < i then m.keepTexts entries i there limits kept
      else
        let a := m.automaton
        let group := (a.groupOf e.node).getD 0
        let bound := 2 * kept.length + 2
        let kept :=
          if e.stop = i then
            let opens := (kept.filter (a.isBorder group true)).getLast?
            let closes := (kept.filter (a.isBorder group false)).getLast?
            let kept := match opens with
              | some n => m.dropNode n there kept
              | none => kept
            match closes with
            | some c =>
              m.dropNodes there (fun _ n => !(a.sourcesFor n).contains c && !(a.closure n).contains c)
                bound 0 kept
            | none => kept
          else
            -- Removing a state shifts the next one, which is skipped.
            (List.range kept.length).foldl (fun kept k =>
              match kept[k]? with
              | some n =>
                if a.isBorder group true n || a.isBorder group false n then m.dropNode n there kept
                else kept
              | none => kept) kept
        m.keepTexts entries i there limits kept

/-- The states at an offset with a transition to a kept state. -/
def takingWithin (m : Matching) (limits : List Nat) (i : Nat) (there : Nodes) (s : Sifted) :
    Nodes × Array Entry :=
  there.foldl (fun (ns, entries) n =>
    match m.takenAgain? i n, (m.automaton.node n).next? with
    | some k, some next =>
      if s.log.has (i + k) next then
        let (crossed, entries) := m.crosses next (i + k) n i limits entries
        (if crossed then ns else ns ++ [n], entries)
      else (ns, entries)
    | _, _ => (ns, entries)) ([], s.entries)

mutual

/-- Prunes the state set of an offset, and branches on its back-references. -/
def keepAt (m : Matching) (log : Log) : Nat → List Nat → Nat → Nat → Nat → Nodes → Sifted → Sifted
  | 0, _, _, _, _, _, s => s
  | bound + 1, limits, lastNode, lastPlace, i, dest, s =>
    let there := log.nodesAt i
    let kept :=
      if dest.isEmpty || there.isEmpty then dest
      else m.keepTexts s.entries i there limits (Nodes.union dest (m.leadingTo there dest))
    let s := { s with log := s.log.put i kept }
    if m.automaton.anySame there then m.keepRefs log bound limits lastNode lastPlace i there s else s

/-- Branches on the cache entries of the back-references at an offset. -/
def keepRefs (m : Matching) (log : Log) : Nat → List Nat → Nat → Nat → Nat → Nodes → Sifted → Sifted
  | 0, _, _, _, _, _, s => s
  | bound + 1, limits, lastNode, lastPlace, i, there, s =>
    let known := entriesAt s.entries i
    there.foldl (fun s n =>
      if n = lastNode && i = lastPlace then s
      else
        match m.automaton.node n with
        | .same _ next loose =>
          known.foldl (fun s k =>
            match s.entries[k]? with
            | none => s
            | some e =>
              let goal := i + e.size
              let next := if e.size = 0 then loose else next
              if e.node ≠ n || lastPlace < goal || !s.log.has goal next then s
              else
                let (crossed, entries) := m.crosses n i next goal limits s.entries
                let s := { s with entries }
                if crossed then s
                else
                  let here := s.log.nodesAt i
                  let limits := Nodes.union limits [k]
                  let s := m.keepBackward log bound limits n i s
                  let all := (List.range (i + 1)).foldl (fun all j => all.add j (s.log.nodesAt j)) s.all
                  { s with all, log := s.log.put i here }) s
        | _ => s) s

/-- Prunes the state sets backward from a state at an offset. -/
def keepBackward (m : Matching) (log : Log) : Nat → List Nat → Nat → Nat → Sifted → Sifted
  | 0, _, _, _, s => s
  | bound + 1, limits, lastNode, lastPlace, s =>
    let s := m.keepAt log bound limits lastNode lastPlace lastPlace [lastNode] s
    (List.range lastPlace).reverse.foldl (fun s i =>
      let there := log.nodesAt i
      let (dest, entries) := m.takingWithin limits i there s
      m.keepAt log bound limits lastNode lastPlace i dest { s with entries }) s

end

/-- The earlier candidate ends of a match, the last first. -/
def earlierEnds (m : Matching) (log : Log) (last : Nat) : List Nat :=
  (List.range last).reverse.filter fun i => (log.nodesAt i).any m.automaton.isHalt

/-- Tries the candidate ends of a match. -/
def pruned? (m : Matching) (log : Log) : List Nat → Array Entry → Option (Log × Nat × Nat)
  | [], _ => none
  | last :: more, entries =>
    let halt := (m.halt? last (log.nodesAt last)).getD 0
    let empty : Log := Array.replicate (last + 1) []
    let s := m.keepBackward log (3 * (entries.size + m.automaton.nodes.size) + 6) [] halt
      last ⟨empty, empty, entries⟩
    if (s.log.nodesAt 0).isEmpty && (s.all.nodesAt 0).isEmpty then m.pruned? log more s.entries
    else
      let merged := (List.range (last + 1)).map fun i => (s.log.nodesAt i).union (s.all.nodesAt i)
      some (merged.toArray, last, halt)

/-- The pruned state sets of the longest match, its end, and the accepting state. -/
def referring? (m : Matching) : Option (Log × Nat × Nat) :=
  let first : Met := ⟨#[m.allowed 0 m.automaton.opening], #[], #[]⟩
  match Met.tracks m (m.size + 1) 0 first none with
  | (_, none) => none
  | (w, some last) => m.pruned? w.log (last :: m.earlierEnds w.log last) w.entries

/-! ## Groups with back-references -/

/-- A step of the path search, with the alternative to backtrack to. -/
def proceed? (m : Matching) (sifted : Log) (last : Nat) (w : Walk) : Option (Walk × Option Walk) :=
  let node := m.automaton.node w.node
  let forward (k next : Nat) : Option (Walk × Option Walk) :=
    let place := w.place + k
    if last < place || !sifted.has place next then none
    else some ({ w with place, node := next, passed := [] }, none)
  match node with
  | .same n next loose =>
    match w.groups.get n with
    | ⟨some start, some stop⟩ =>
      let length := stop - start
      if length = 0 then
        if sifted.has w.place loose then
          some ({ w with node := loose, passed := w.node :: w.passed }, none)
        else none
      else if m.isSame start w.place length then forward length next
      else none
    | _ => none
  | _ =>
    match m.takenAgain? w.place w.node, node.next? with
    | some k, some next => forward k next
    | _, _ =>
      let w := { w with passed := w.node :: w.passed }
      match m.openWays sifted w with
      | [] => none
      | [a] => some ({ w with node := a }, none)
      | a :: b :: _ =>
        if w.passed.contains a then some ({ w with node := b }, none)
        else some ({ w with node := a }, some { w with node := b })

/-- Searches a path through the pruned state sets with backtracking. It ends at the accepting state,
and at a state that recurs without consuming input unless a group is open. The first number is the
fuel. -/
def walkBack (m : Matching) (sifted : Log) (last halt : Nat) : Nat → Bool → Walk → List Walk → Option Places
  | 0, _, _, _ => none
  | bound + 1, notes, w, others =>
    let w := if notes then w.note m.automaton else w
    let isOpen := w.groups.any fun g => g.2.start.isSome && g.2.stop.isNone
    let isDone := (w.place = last && w.node = halt) || w.passed.contains w.node
    if notes && isDone then
      match isOpen, others with
      | true, o :: others => m.walkBack sifted last halt bound false o others
      | _, _ => some w.groups
    else
      match m.proceed? sifted last w, others with
      | some (w, some other), _ => m.walkBack sifted last halt bound true w (other :: others)
      | some (w, none), _ => m.walkBack sifted last halt bound true w others
      | none, o :: others => m.walkBack sifted last halt bound true o others
      | none, [] => none

/-- The capture groups of a match with back-references. -/
def groupsReferring (m : Matching) (sifted : Log) (last halt : Nat) : Option Places :=
  m.walkBack sifted last halt 1000000 true ⟨0, m.automaton.start, [], [], []⟩ []

end Matching

end GraphCodec.Formatter
