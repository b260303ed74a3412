import GraphCodec.Formatter.Decimal
import GraphCodec.Formatter.Manual
import GraphCodec.Formatter.Quoting

/-!
# The utility `tr`
-/

set_option autoImplicit false

namespace GraphCodec.Formatter

namespace Exchange

/-- A diagnostic, with an optional quoted part. -/
structure Complaint where
  front : Bytes
  quoted : Option Bytes := none
  back : Bytes := []

/-- A diagnostic without a quoted part. -/
def plain (words : List String) : Complaint := { front := Bytes.words words }

/-- The text of a diagnostic. -/
def Complaint.text (c : Complaint) (call : Call) : Bytes :=
  c.front ++ (c.quoted.map call.spoken).getD [] ++ c.back

/-! ## Parsing sets -/

/-- A byte of a string operand, and whether it is escaped. -/
structure Mark where
  char : Char
  plain : Bool

/-- Whether a byte is unescaped and equal to `c`. -/
def Mark.is (m : Mark) (c : Char) : Bool := m.char == c && !m.plain

def isOctal (c : Char) : Bool := '0' ≤ c && c ≤ '7'

def octalValue (digits : List Char) : Nat :=
  digits.foldl (fun n d => n * 8 + (d.toNat - '0'.toNat)) 0

/-- The octal digits of an escape: up to three that fit a byte. -/
def octalDigits (cs : List Char) : List Char :=
  let three := (cs.take 3).takeWhile isOctal
  if octalValue three < 256 then three else three.take 2

def escaped (c : Char) : Char :=
  match c with
  | 'a' => '\x07'
  | 'b' => '\x08'
  | 'f' => '\x0c'
  | 'n' => '\n'
  | 'r' => '\r'
  | 't' => '\t'
  | 'v' => '\x0b'
  | _ => c

/-- Replaces the escapes of a string operand; `skip` bytes belong to the current one. -/
def marks (skip : Nat) : Bytes → List Mark
  | [] => []
  | '\\' :: [] => if skip = 0 then [⟨'\\', false⟩] else []
  | c :: cs =>
    match skip with
    | n + 1 => marks n cs
    | 0 =>
      if c == '\\' then
        match cs with
        | d :: _ =>
          if isOctal d then
            let digits := octalDigits cs
            ⟨Char.ofNat (octalValue digits), true⟩ :: marks digits.length cs
          else ⟨escaped d, true⟩ :: marks 1 cs
        | [] => [⟨c, false⟩]
      else ⟨c, false⟩ :: marks 0 cs

/-- An element of a string operand. `[x*]` without a count pads the string. -/
inductive Item where
  | char (c : Char)
  | range (first last : Char)
  | named (name : String)
  | equal (c : Char)
  | repeated (c : Char) (count : Option Nat)
  deriving DecidableEq

/-- The bytes of a range. -/
def bytesFrom (first last : Nat) : Bytes :=
  (List.range (last + 1 - first)).map fun i => Char.ofNat (first + i)

/-- The bytes of a character class, in order. -/
def classBytes (name : String) : Bytes :=
  match Letters.class? name with
  | some p => (bytesFrom 0 127).filter p
  | none => []

/-- A byte in a diagnostic. -/
def shown (c : Char) : Bytes := if ' ' ≤ c && c ≤ '~' then [c] else Quoting.octal c

/-- A string in a diagnostic. -/
def shownText (text : Bytes) : Bytes :=
  text.flatMap fun c =>
    if c == '\\' then ['\\', '\\']
    else
      match Quoting.controlLetter? c with
      | some d => ['\\', d]
      | none => shown c

/-- Splits at a marker followed by a closing bracket. -/
def untilClosing (sign : Char) : List Mark → Option (List Mark × List Mark)
  | a :: b :: rest =>
    if a.is sign && b.is ']' then some ([], rest)
    else (untilClosing sign (b :: rest)).map fun (inner, rest) => (a :: inner, rest)
  | _ => none

/-- Whether the rest looks like `*n]`. -/
def looksRepeated : List Mark → Bool
  | star :: rest => star.is '*' && ((rest.dropWhile fun m => m.char.isDigit).head?.any (·.is ']'))
  | [] => false

/-- The limit of the length of a string operand. -/
def longest : Nat := 0xfffffffffffffffd

/-- Parses the count of a repetition, octal with a leading zero. White space and a plus sign may
precede a decimal one. -/
def count? (text : Bytes) : Option Nat :=
  let value? (digits : Bytes) (isIn : Char → Bool) (value : Bytes → Nat) : Option Nat :=
    if !digits.isEmpty && digits.all isIn && value digits ≤ longest then some (value digits) else none
  match text with
  | '0' :: _ => value? text isOctal octalValue
  | _ =>
    let unsigned := match text.dropWhile Digits.isSpace with
      | '+' :: digits => digits
      | digits => digits
    value? unsigned Char.isDigit (Digits.number 10)

/-- Parses `[x*n]` after its opening bracket. -/
def repeated? : List Mark → Except Complaint (Option (Item × List Mark))
  | c :: star :: rest =>
    if !star.is '*' then .ok none
    else
      let inner := rest.takeWhile fun m => !m.plain && m.char ≠ ']'
      match rest.drop inner.length with
      | close :: after =>
        if !close.is ']' then .ok none
        else
          let digits := inner.map (·.char)
          if digits.isEmpty then .ok (some (.repeated c.char none, after))
          else
            match count? digits with
            | some 0 => .ok (some (.repeated c.char none, after))
            | some n => .ok (some (.repeated c.char (some n), after))
            | none => .error ⟨Bytes.words ["invalid repeat count "], some (shownText digits),
                Bytes.words [" in [c*n] construct"]⟩
      | [] => .ok none
  | _ => .ok none

/-- Parses `[:class:]` or `[=x=]` after its opening bracket and marker. An unknown class may still
be a repetition. -/
def class? (sign : Char) (rest : List Mark) : Except Complaint (Option (Item × List Mark)) :=
  match untilClosing sign rest with
  | none => .ok none
  | some (inner, after) =>
    let name := inner.map (·.char)
    match sign, name with
    | ':', [] => .error (plain ["missing character class name '[::]'"])
    | _, [] => .error (plain ["missing equivalence class character '[==]'"])
    | ':', _ =>
      if (Letters.class? (String.ofList name)).isSome then
        .ok (some (.named (String.ofList name), after))
      else if looksRepeated rest then .ok none
      else .error ⟨Bytes.words ["invalid character class "], some (shownText name), []⟩
    | _, [c] => .ok (some (.equal c, after))
    | _, _ =>
      if looksRepeated rest then .ok none
      else .error ⟨shownText name ++
        Bytes.words [": equivalence class operand must be a single character"], none, []⟩

/-- Parses a bracketed construct. -/
def bracket? : List Mark → Except Complaint (Option (Item × List Mark))
  | sign :: rest => do
    let found ← if sign.is ':' || sign.is '=' then class? sign.char rest else .ok none
    match found with
    | some r => return some r
    | none => repeated? (sign :: rest)
  | [] => .ok none

/-- Parses a string operand; its length is the fuel. -/
def items : Nat → List Mark → Except Complaint (List Item)
  | _, [] => .ok []
  | 0, _ => .ok []
  | bound + 1, m :: rest =>
    match rest with
    | second :: third :: more => do
      match ← (if m.is '[' then bracket? rest else .ok none) with
      | some (item, after) => return item :: (← items bound after)
      | none =>
        if second.is '-' then
          if third.char < m.char then
            throw ⟨Bytes.words ["range-endpoints of '"] ++ shown m.char ++ '-' :: shown third.char ++
              Bytes.words ["' are in reverse collating sequence order"], none, []⟩
          return .range m.char third.char :: (← items bound more)
        else return .char m.char :: (← items bound rest)
    | _ => do return .char m.char :: (← items bound rest)

def parse (written : Bytes) : Except Complaint (List Item) :=
  let ms := marks 0 written
  items ms.length ms

/-! ## Expanding sets -/

/-- The bytes of an element, with multiplicities. -/
def Item.runs : Item → List (Char × Nat)
  | char c | equal c => [(c, 1)]
  | range a b => (bytesFrom a.toNat b.toNat).map (·, 1)
  | named name => (classBytes name).map (·, 1)
  | repeated c (some (n + 1)) => [(c, n + 1)]
  | repeated _ _ => []

/-- The total length of runs. -/
def size (runs : List (Char × Nat)) : Nat := runs.foldl (fun n r => n + r.2) 0

def Item.isFill : Item → Bool
  | repeated _ none => true
  | _ => false

/-- Whether an element is `[:upper:]` or `[:lower:]`. -/
def Item.isCase : Item → Bool
  | named name => name == "upper" || name == "lower"
  | _ => false

/-- The bytes of a string operand, with multiplicities. -/
def runsOf (set : List Item) : List (Char × Nat) := set.flatMap Item.runs

/-- The length of a string operand. -/
def length (set : List Item) : Nat := size (runsOf set)

/-- The bytes of a string operand, without multiplicities. -/
def bytesOf (set : List Item) : Bytes := (runsOf set).map (·.1)

/-- Expands `[x*]` to reach a length. -/
def filled (goal : Nat) (set : List Item) : List Item :=
  let fixed := length set
  set.map fun
    | .repeated c none => .repeated c (some (goal - fixed))
    | item => item

/-- The last byte of an element, by which a string is padded. A class has none. -/
def Item.last? : Item → Option Char
  | char c | equal c | range _ c | repeated c _ => some c
  | named _ => none

/-- Pads a string operand with its last byte. -/
def padded (goal : Nat) (set : List Item) : List Item :=
  match set.getLast?.bind Item.last? with
  | some c => set ++ [.repeated c (some (goal - length set))]
  | none => set

/-- The elements with the offsets of their first bytes. -/
def placed (start : Nat) : List Item → List (Item × Nat)
  | [] => []
  | item :: rest => (item, start) :: placed (start + size item.runs) rest

/-- Whether case classes of the second string are aligned with case classes of the first, as far as
that goes. -/
def aligned (first second : List Item) : Bool :=
  let places := placed 0 first
  (placed 0 second).all fun (item, place) =>
    !item.isCase || length first < place || places.any fun (f, p) => f.isCase && p == place

/-- The options of `tr`. -/
structure Order where
  complement : Bool
  delete : Bool
  squeeze : Bool
  truncate : Bool

/-- The first string, complemented by `-c`. -/
def Order.source (o : Order) (set : List Item) : List Item :=
  if o.complement then
    let bytes := bytesOf set
    ((bytesFrom 0 255).filter fun c => !bytes.contains c).map Item.char
  else set

/-- The second string of a translation, padded to the length of the first. -/
def Order.target (o : Order) (source second : List Item) : List Item :=
  let target := filled (length source) second
  if o.truncate then target else padded (length source) target

/-- Validates the strings of a translation; the second one is padded. -/
def Order.checkSets (o : Order) (first second : List Item) : Except Complaint Unit := do
  if second.any fun i => match i with | .equal _ => true | _ => false then
    throw (plain ["[=c=] expressions may not appear in string2 when translating"])
  if second.any fun i => match i with | .named _ => !i.isCase | _ => false then
    throw (plain ["when translating, the only character classes that may appear in\n",
      "string2 are 'upper' and 'lower'"])
  if !o.complement && !aligned first second then
    throw (plain ["misaligned [:upper:] and/or [:lower:] construct"])
  let source := o.source first
  if length second < length source && !o.truncate then
    if length second = 0 then
      throw (plain ["when not truncating set1, string2 must be non-empty"])
    if (second.getLast?.bind Item.last?).isNone then
      throw (plain ["when translating with string1 longer than string2,\n",
        "the latter string must not end with a character class"])
  let hasClass := first.any fun i => match i with | .named _ => true | _ => false
  let target := o.target source second
  if o.complement && hasClass &&
      !(length target == length source && (bytesOf target).eraseDups.length == 1) then
    throw (plain ["when translating with complemented character classes,\n",
      "string2 must map all characters in the domain to one"])

/-- Validates the string operands. -/
def Order.check (o : Order) (first : List Item) (second : Option (List Item)) :
    Except Complaint Unit := do
  let tooMany := plain ["too many characters in set"]
  if longest < length first then throw tooMany
  if first.any Item.isFill then
    throw (plain ["the [c*] repeat construct may not appear in string1"])
  let some set := second | return ()
  if longest < length set then throw tooMany
  if 1 < (set.filter Item.isFill).length then
    throw (plain ["only one [c*] repeat construct may appear in string2"])
  if o.delete then
    if set.any Item.isFill then
      throw (plain ["the [c*] construct may appear in string2 only when translating"])
  else o.checkSets first (filled (length (o.source first)) set)

/-! ## Translation -/

/-- A run of one byte, or a case class. -/
inductive Stretch where
  | run (c : Char) (count : Nat)
  | case (name : String)

/-- The runs and case classes of a string. -/
def stretches (set : List Item) : List Stretch :=
  set.flatMap fun item =>
    match item with
    | .named name => if item.isCase then [.case name] else item.runs.map fun (c, n) => .run c n
    | _ => item.runs.map fun (c, n) => .run c n

/-- The case conversion of a pair of case classes. -/
def casePairs (a b : String) : List (Char × Char) :=
  if a == b then (classBytes a).take 1 |>.map fun c => (c, c)
  else (classBytes a).zip (classBytes b)

/-- The translation table of two strings; the fuel is `steps`. -/
def pairs : Nat → List Stretch → List Stretch → List (Char × Char)
  | 0, _, _ => []
  | bound + 1, .case a :: first, .case b :: second => casePairs a b ++ pairs bound first second
  | bound + 1, .case a :: first, second =>
    pairs bound ((classBytes a).map (.run · 1) ++ first) second
  | bound + 1, first, .case b :: second =>
    pairs bound first ((classBytes b).map (.run · 1) ++ second)
  | bound + 1, .run c n :: first, .run d m :: second =>
    (c, d) :: pairs bound (if n ≤ m then first else .run c (n - m) :: first)
      (if m ≤ n then second else .run d (m - n) :: second)
  | _, _, _ => []

/-- The fuel of `pairs`. -/
def steps (set : List Stretch) : Nat :=
  set.foldl (fun n s => n + match s with | .run _ _ => 1 | .case _ => 256) 0

/-- The option `-s`: squeezes runs of a byte of the set. -/
def squeezeRuns (inSet : Char → Bool) (bytes : Bytes) : Bytes :=
  (bytes.foldl (fun done c => if done.head? == some c && inSet c then done else c :: done)
    []).reverse

/-- The translation table. -/
def Order.images (o : Order) (first second : List Item) : List (Char × Char) :=
  let source := o.source first
  let a := stretches source
  let b := stretches (o.target source second)
  pairs (steps a + steps b) a b

/-- Runs `tr` on its input. -/
def Order.run (o : Order) (first : List Item) (second : Option (List Item)) (input : Bytes) :
    Bytes :=
  let source := bytesOf (o.source first)
  match second with
  | none =>
    if o.delete then input.filter fun c => !source.contains c
    else squeezeRuns source.contains input
  | some set =>
    if o.delete then
      squeezeRuns (bytesOf set).contains (input.filter fun c => !source.contains c)
    else
      -- The last occurrence of a byte in the first set determines its image.
      let images := (o.images first set).reverse
      let table := ((bytesFrom 0 255).map fun c => (images.lookup c).getD c).toArray
      let out := input.map fun c => table.getD c.toNat c
      if o.squeeze then
        squeezeRuns (bytesOf (filled (length (o.source first)) set)).contains out
      else out

def switches : List Switch :=
  [⟨'A', "", .never⟩, ⟨'c', "complement", .never⟩, ⟨'C', "", .never⟩, ⟨'d', "delete", .never⟩,
    ⟨'s', "squeeze-repeats", .never⟩, ⟨'t', "truncate-set1", .never⟩] ++ questionSwitches

/-- The warnings about a string operand. -/
def warnings : Bytes → List Bytes
  | [] => []
  | ['\\'] =>
    [Bytes.words ["warning: an unescaped backslash at end of string is not portable"]]
  | '\\' :: c :: cs =>
    let three := ((c :: cs).take 3).takeWhile isOctal
    let rest := warnings cs
    if 256 ≤ octalValue three then
      Bytes.words ["warning: the ambiguous octal escape \\", String.ofList three,
        " is being\n\tinterpreted as the 2-byte sequence \\0", String.ofList (three.take 2), ", ",
        String.ofList (three.drop 2)] :: rest
    else rest
  | _ :: cs => warnings cs

/-- Validates the number of operands. -/
def checkCount (o : Order) (sets : List Bytes) : Except Complaint Unit := do
  let least := if o.delete == o.squeeze then 2 else 1
  let most := if o.delete && !o.squeeze then 1 else 2
  if sets.length < least then
    match sets.getLast? with
    | none => throw (plain ["missing operand"])
    | some last =>
      throw ⟨Bytes.words ["missing operand after "], some last, Bytes.words ["\n",
        if o.squeeze then "Two strings must be given when both deleting and squeezing repeats."
        else "Two strings must be given when translating."]⟩
  if most < sets.length then
    throw ⟨Bytes.words ["extra operand "], some (sets.getD most []),
      if sets.length == 2 then
        Bytes.words ["\nOnly one string may be given when deleting without squeezing repeats."]
      else []⟩

end Exchange

/-- The utility `tr`: translates, squeezes or deletes bytes. -/
def exchange : Program := fun call =>
  match (readSwitches Exchange.switches false none call.args).checked with
  | .error e => call.refuse e
  | .ok g =>
    let call := if g.has 'A' then call.withBytes else call
    let o : Exchange.Order := ⟨g.has 'c' || g.has 'C', g.has 'd', g.has 's', g.has 't'⟩
    match call.answer? .exchange g, Exchange.checkCount o g.operands with
    | some answer, _ => answer
    | none, .error e => call.refuse (e.text call)
    | none, .ok () =>
      let ready : Except Exchange.Complaint (List Exchange.Item × Option (List Exchange.Item)) := do
        let sets ← g.operands.mapM Exchange.parse
        let first := sets.headD []
        let second := sets.tail.head?
        o.check first second
        return (first, second)
      -- A set after an invalid one is not parsed.
      let readable := g.operands.takeWhile fun set => (Exchange.parse set).isOk
      let said := (g.operands.take (readable.length + 1)).flatMap fun set =>
        (Exchange.warnings set).map fun w => (Side.err, call.message w)
      let failed (text : Bytes) : Outcome :=
        ⟨said ++ [(.err, call.message text)], call.input, [], .exited 1⟩
      match ready, call.noInput with
      | .error e, _ => failed (e.text call)
      | .ok _, some why => failed (Bytes.words ["read error: ", why.reason])
      | .ok (first, second), none =>
        ⟨said ++ [(.out, o.run first second call.input)], [], [], .exited 0⟩

end GraphCodec.Formatter
