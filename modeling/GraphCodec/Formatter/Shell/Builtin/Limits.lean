import GraphCodec.Formatter.Shell.Builtin.Basic

/-!
# The builtin `ulimit`

Every resource has an option letter and a unit. Limits are stored in seconds, bytes or items.
-/

set_option autoImplicit false

namespace GraphCodec.Formatter.Shell

/-- A resource of `ulimit`. -/
structure LimitKind where
  letter : Char
  title : String
  /-- The unit of the limit. -/
  unit : Nat

namespace LimitKind

/-- The resources, in the order of `ulimit -a`. -/
def all : List LimitKind :=
  [⟨'t', "time(seconds)", 1⟩, ⟨'f', "file(blocks)", 512⟩, ⟨'d', "data(kbytes)", 1024⟩,
    ⟨'s', "stack(kbytes)", 1024⟩, ⟨'c', "coredump(blocks)", 512⟩, ⟨'m', "memory(kbytes)", 1024⟩,
    ⟨'l', "locked memory(kbytes)", 1024⟩, ⟨'p', "process", 1⟩, ⟨'n', "nofiles", 1⟩,
    ⟨'v', "vmemory(kbytes)", 1024⟩, ⟨'w', "locks", 1⟩, ⟨'r', "rtprio", 1⟩]

/-- A printed limit. -/
def shown (k : LimitKind) (limit : Option Nat) : Bytes :=
  match limit with
  | some n => Nat.toDigits 10 (n / k.unit) ++ ['\n']
  | none => "unlimited\n".toList

/-- Parses a limit. The greatest 64-bit number is `unlimited`. -/
def read? (k : LimitKind) (text : Bytes) : Option (Option Nat) :=
  if text == "unlimited".toList then some none
  else if !text.all Char.isDigit then none
  else
    let n := Digits.number 10 text * k.unit % Digits.wordSize
    some (if n = Digits.wordSize - 1 then none else some n)

end LimitKind

namespace Limit

/-- The limit `unlimited`. -/
def free : Limit := ⟨none, none⟩

/-- The initial limits. -/
def starting : List (Char × Limit) :=
  [('s', ⟨some 0x800000, none⟩), ('c', ⟨some 0, none⟩), ('l', ⟨some 0x800000, some 0x800000⟩),
    ('p', ⟨some 128597, some 128597⟩), ('n', ⟨some 20000, some 20000⟩), ('r', ⟨some 0, some 0⟩)]

/-- Whether a soft limit is at most the hard limit. -/
def isSound (l : Limit) : Bool :=
  match l.now, l.ceiling with
  | _, none => true
  | none, some _ => false
  | some a, some b => a ≤ b

end Limit

namespace Builtin

open Act

/-- The builtin `ulimit`. -/
def limit : Builtin := fun args => do
  let letters := String.ofList ("HSa".toList ++ LimitKind.all.map (·.letter))
  let (given, args) ← takeOptions letters "" args
  let given := given.map (·.1)
  let how := (given.filter fun c => c == 'H' || c == 'S').getLast?
  let letter := ((given.filter fun c => !"HSa".toList.contains c).getLast?).getD 'f'
  let limitOf (c : Char) : Act Limit := do pure (((← env).limits.lookup c).getD .free)
  let chosen (l : Limit) : Option Nat := if how == some 'H' then l.ceiling else l.now
  match LimitKind.all.find? (·.letter == letter), args with
  | some kind, [] =>
    if given.contains 'a' then
      let lines ← LimitKind.all.mapM fun k => do
        let spaces := List.replicate (20 - k.title.length) ' '
        pure (k.title.toList ++ spaces ++ ' ' :: k.shown (chosen (← limitOf k.letter)))
      pure (0, lines.flatten)
    else pure (0, kind.shown (chosen (← limitOf letter)))
  | some kind, text :: more =>
    if given.contains 'a' || !more.isEmpty then refuse (Bytes.words ["too many arguments"])
    else
      match kind.read? text with
      | none => refuse (Bytes.words ["bad number"])
      | some value =>
        let before ← limitOf letter
        let after : Limit :=
          ⟨if how == some 'H' then before.now else value,
            if how == some 'S' then before.ceiling else value⟩
        if !after.isSound then
          refuse (Bytes.words ["error setting limit: Invalid argument"])
        else
          modifyEnv fun e =>
            { e with limits := (letter, after) :: e.limits.filter (·.1 != letter) }
          finished 0
  | none, _ => finished 0

end Builtin

end GraphCodec.Formatter.Shell
