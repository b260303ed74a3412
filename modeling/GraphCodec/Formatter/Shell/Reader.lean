import GraphCodec.Formatter.Shell.Script

/-!
# Parsing shell scripts

A script is parsed one complete command at a time, so that commands before a syntax error are run.
Tokens depend on the context.
-/

set_option autoImplicit false

namespace GraphCodec.Formatter.Shell

/-- A syntax error with its line number. -/
structure ScriptError where
  line : Nat
  text : Bytes
  deriving DecidableEq, Repr

inductive Token where
  | finish
  | newline
  | sign (text : String)
  | keyword (text : String)
  | word (word : Word)
  /-- A redirection operator; `strip` for `<<-`. -/
  | redirect (channel : Nat) (way : Way) (strip : Bool)
  deriving Repr, Inhabited

namespace Token

/-- The name of a token in a diagnostic. -/
def name : Token → String
  | finish => "end of file"
  | newline => "newline"
  | sign text | keyword text => "\"" ++ text ++ "\""
  | word _ => "word"
  | redirect _ _ _ => "redirection"

def isSign (t : Token) (text : String) : Bool :=
  match t with
  | sign s => s == text
  | _ => false

def isKeyword (t : Token) (text : String) : Bool :=
  match t with
  | keyword k => k == text
  | _ => false

/-- Whether a token ends a compound list. -/
def closesList : Token → Bool
  | finish => true
  | sign text => text == ")" || text == ";;"
  | keyword text => ["do", "done", "elif", "else", "esac", "fi", "then", "\x7d"].contains text
  | _ => false

end Token

/-- A pending here-document. -/
structure Announced where
  number : Nat
  mark : Bytes
  quoted : Bool
  strip : Bool
  deriving DecidableEq, Repr

/-- The state of the parser. -/
structure Cursor where
  rest : Bytes
  line : Nat
  /-- The token that was put back. -/
  back : Option Token
  announced : List Announced
  /-- The here-documents by number. -/
  documents : List (Nat × Word)
  nextDocument : Nat
  /-- The aliases. -/
  aliases : List (Bytes × Bytes)
  /-- The active alias substitutions: the name, whether the value ends with a blank, and the number
  of bytes after it. -/
  taken : List (Bytes × Bool × Nat)
  /-- Whether a here-document is being read. -/
  inDocument : Bool

namespace Cursor

/-- The start of a script. -/
def start (script : Bytes) (line nextDocument : Nat) (aliases : List (Bytes × Bytes)) : Cursor :=
  ⟨script, line, none, [], [], nextDocument, aliases, [], false⟩

/-- The value of an alias, unless its substitution is active. -/
def alias? (c : Cursor) (word : Bytes) : Option Bytes :=
  if c.taken.any fun (name, _, left) => name == word && left ≤ c.rest.length then none
  else c.aliases.lookup word

/-- Alias substitution. -/
def unfold (c : Cursor) (word text : Bytes) : Cursor :=
  let isBlank := text.getLast?.any fun d => d == ' ' || d == '\t'
  let taken := c.taken.filter fun t => t.2.2 ≤ c.rest.length
  { c with rest := text ++ c.rest, taken := (word, isBlank, c.rest.length) :: taken }

/-- Whether an alias value that ends with a blank was just consumed. -/
def hasLeft (c : Cursor) (before : Nat) : Bool :=
  c.taken.any fun (_, isBlank, left) => isBlank && left < before && c.rest.length ≤ left

end Cursor

abbrev Reading := StateT Cursor (Except ScriptError)

namespace Reading

def fail {α : Type} (text : String) : Reading α := do
  throw ⟨(← get).line, text.toList⟩

def unexpected {α : Type} (t : Token) : Reading α := fail (t.name ++ " unexpected")

def expecting {α : Type} (t : Token) (wanted : String) : Reading α :=
  fail (t.name ++ " unexpected (expecting " ++ wanted ++ ")")

def tooLong {α : Type} : Reading α := fail "too long"

def putBack (t : Token) : Reading Unit := modify fun s => { s with back := some t }

/-- Consumes bytes up to a rest. -/
def goTo (passed rest : Bytes) : Reading Unit :=
  modify fun s => { s with rest, line := s.line + passed.count '\n' }

/-- Consumes a number of bytes. -/
def skip (count : Nat) : Reading Unit := do
  let rest := (← get).rest
  goTo (rest.take count) (rest.drop count)

/-- The number of leading line continuations. -/
def joinedLines : Bytes → Nat
  | '\\' :: '\n' :: rest => joinedLines rest + 1
  | _ => 0

/-- Removes line continuations after a number of bytes. -/
def joinBehind (count : Nat) : Reading Unit :=
  modify fun s =>
    let rest := s.rest.drop count
    let lines := joinedLines rest
    { s with rest := s.rest.take count ++ rest.drop (2 * lines), line := s.line + lines }

/-- The length of a parameter name and its operator. -/
def parameterExtent : Bytes → Nat
  | '\x7b' :: cs =>
    1 + (cs.takeWhile fun c => isNameByte c || "#:@*?$!-+=%".toList.contains c).length
  | c :: cs => if isNameStart c then 1 + (cs.takeWhile isNameByte).length else 1
  | [] => 0

/-- Removes line continuations in a parameter name and its operator. -/
def joinParameter : Nat → Reading Unit
  | 0 => pure ()
  | fuel + 1 => do
    joinBehind 0
    let rest := (← get).rest
    let size := parameterExtent rest
    if joinedLines (rest.drop size) ≠ 0 then
      joinBehind size
      joinParameter fuel

/-- Consumes bytes while a predicate holds. -/
def takeWhile (p : Char → Bool) : Reading Bytes := do
  let (taken, rest) := (← get).rest.span p
  goTo taken rest
  pure taken

end Reading

open Reading

/-! ## Words -/

/-- Adds a literal to the parts of a word, reversed. -/
def addPlain (text : Bytes) : List Part → List Part
  | .plain before :: rest => .plain (before ++ text) :: rest
  | parts => .plain text :: parts

def addQuoted (text : Bytes) : List Part → List Part
  | .quoted before :: rest => .quoted (before ++ text) :: rest
  | parts => .quoted text :: parts

/-- The end of a double-quoted context. -/
inductive QuoteEnd where
  | quote
  /-- The delimiter line of a here-document, or the end of the input without one; `strip` for
  `<<-`. -/
  | document (mark : Option Bytes) (strip : Bool)
  /-- The closing brace of `${…}`. -/
  | brace
  /-- The end of `$((…))`, with the number of open parentheses. -/
  | parentheses (opened : Nat)
  deriving DecidableEq

/-- Whether it is the end of a here-document. -/
def QuoteEnd.isDocument : QuoteEnd → Bool
  | .document _ _ => true
  | _ => false

/-- Whether a byte is a metacharacter that ends a word. -/
def endsWord (c : Char) : Bool := " \t\n;&|<>()".toList.contains c

def staysInWord (inBraces : Bool) (c : Char) : Bool :=
  !"\\'\"$\x60".toList.contains c && if inBraces then c != '\x7d' else !endsWord c

/-- The script of a backquoted command substitution, and the rest. A backslash escapes a
backquote. -/
def backquoted (quoted : Bool) : Bytes → Option (Bytes × Bytes × Bytes)
  | [] => none
  | '\x60' :: rest => some ([], ['\x60'], rest)
  | '\\' :: c :: rest => do
    let (script, passed, after) ← backquoted quoted rest
    let passed := '\\' :: c :: passed
    if c == '\n' then some (script, passed, after)
    else if "\\\x60$".toList.contains c || (quoted && c == '"') then
      some (c :: script, passed, after)
    else some ('\\' :: c :: script, passed, after)
  | c :: rest => do
    let (script, passed, after) ← backquoted quoted rest
    some (c :: script, c :: passed, after)

/-- Parses the operator of `${…}`, and whether the closing brace was consumed. -/
def changeAt : Bytes → Change × Nat × Bool
  | '\x7d' :: _ => (.keep, 1, true)
  | ':' :: '\x7d' :: _ => (.keep, 2, false)
  | ':' :: '-' :: _ => (.orElse true, 2, false)
  | ':' :: '=' :: _ => (.orSet true, 2, false)
  | ':' :: '?' :: _ => (.orEnd true, 2, false)
  | ':' :: '+' :: _ => (.ifSet true, 2, false)
  | '-' :: _ => (.orElse false, 1, false)
  | '=' :: _ => (.orSet false, 1, false)
  | '?' :: _ => (.orEnd false, 1, false)
  | '+' :: _ => (.ifSet false, 1, false)
  | '%' :: '%' :: _ => (.cutBack true, 2, false)
  | '%' :: _ => (.cutBack false, 1, false)
  | '#' :: '#' :: _ => (.cutFront true, 2, false)
  | '#' :: _ => (.cutFront false, 1, false)
  | ':' :: _ :: _ => (.unknown, 2, false)
  | _ :: _ => (.unknown, 1, false)
  | [] => (.unknown, 0, false)

/-- The parameter name after `${`. -/
def parameterName : Bytes → Bytes
  | [] => []
  | c :: cs =>
    if isNameStart c then c :: cs.takeWhile isNameByte
    else if c.isDigit then c :: cs.takeWhile Char.isDigit
    else if isSpecial c then [c]
    else []

/-- Parses `${…}` up to its word: the name, the operator, their length, and whether they reach the
closing brace. `${#name}` is the length operator. -/
def braced (cs : Bytes) : Bytes × Change × Nat × Bool :=
  let direct : Bytes × Change × Nat × Bool :=
    let name := parameterName cs
    let (change, size, closed) := changeAt (cs.drop name.length)
    if name.isEmpty then ([], .unknown, if cs.head?.any (· != '\x7d') then 1 else 0, false)
    else (name, change, name.length + size, closed)
  match cs with
  | '#' :: rest =>
    let name := parameterName rest
    if name.isEmpty then
      match rest with
      | c :: '\x7d' :: _ => if c == '\x7d' then direct else ([], .unknown, 2, false)
      | _ => direct
    else if (rest.drop name.length).head? == some '\x7d' then
      (name, .count, name.length + 2, true)
    else if name.head?.any fun c => isNameByte c then (name, .unknown, name.length + 1, false)
    else direct
  | _ => direct

/-! ## Here-documents -/

/-- The number of leading blanks and line continuations. -/
def blanksAhead : Bytes → Nat
  | ' ' :: rest | '\t' :: rest => blanksAhead rest + 1
  | '\\' :: '\n' :: rest => blanksAhead rest + 2
  | _ => 0

/-- The quoting state. -/
inductive Quotes where
  | none | single | double
  deriving DecidableEq

/-- The delimiter of a here-document: its bytes, whether it is quoted, and the rest. It is not
expanded. There is none if its quotes do not end. -/
def markWord : Quotes → Bytes → Option (Bytes × Bool × Bytes)
  | .none, [] => some ([], false, [])
  | _, [] => none
  | .single, c :: rest => do
    if c == '\x27' then markWord .none rest
    else
      let (mark, quoted, after) ← markWord .single rest
      some (c :: mark, quoted, after)
  | quotes, '\\' :: c :: rest => do
    let (mark, quoted, after) ← markWord quotes rest
    if c == '\n' then some (mark, quoted, after)
    else if quotes == .none || "\\\x60$\"".toList.contains c then some (c :: mark, true, after)
    else some ('\\' :: c :: mark, true, after)
  | quotes, c :: rest => do
    let inside := quotes == .double
    if c == '"' then
      let (mark, _, after) ← markWord (if inside then .none else .double) rest
      some (mark, true, after)
    else if c == '\x27' && !inside then
      let (mark, _, after) ← markWord .single rest
      some (mark, true, after)
    else if !inside && endsWord c then some ([], false, c :: rest)
    else
      let (mark, quoted, after) ← markWord quotes rest
      some (c :: mark, quoted || c == '\x60', after)

/-- The body of a quoted here-document, and the rest. The first argument is the fuel. -/
def documentBody (mark : Bytes) (strip : Bool) : Nat → Bytes → Bytes × Bytes
  | 0, rest => ([], rest)
  | bound + 1, rest =>
    if rest.isEmpty then ([], [])
    else
      let (line, after) := rest.span (· != '\n')
      let line := if strip then line.dropWhile (· == '\t') else line
      let next := after.drop 1
      if line == mark then ([], next)
      else
        let (body, left) := documentBody mark strip bound next
        (line ++ after.take 1 ++ body, left)

/-! ## Commands -/

/-- The extent of a list of commands. -/
inductive Extent where
  /-- A complete command, up to the end of a line. -/
  | line
  /-- A nonempty compound list. -/
  | block
  /-- A compound list that may be empty. -/
  | inner
  deriving DecidableEq

/-- The text of an unquoted word. -/
def wordText (word : Word) : Bytes :=
  word.flatMap fun p =>
    match p with
    | .plain text | .quoted text => text
    | _ => []

def isQuoted (word : Word) : Bool :=
  word.any fun p =>
    match p with
    | .quoted _ => true
    | _ => false

/-- The special builtin utilities. -/
def specialBuiltins : List String :=
  [".", ":", "break", "continue", "eval", "exec", "exit", "export", "local", "readonly", "return",
    "set", "shift", "times", "trap", "unset"]

/-- The word `"$@"`. -/
def allArguments : Word := [.parameter ['@'] .keep [] true]

/-- The error of an unterminated quote. In a here-document it is reported for the open brace. -/
def unterminated {α : Type} : Reading α := do
  if (← get).inDocument then fail "Missing '\x7d'" else fail "Unterminated quoted string"

/-- Sequential composition. -/
def andThen : Option Command → Command → Command
  | none, c => c
  | some first, c => .sequence first c

mutual

/-- Parses a double-quoted context; the parts are reversed. -/
def quotedParts : Nat → QuoteEnd → List Part → Reading (List Part)
  | 0, _, _ => tooLong
  | fuel + 1, close, parts => do
    let inDocument := close.isDocument
    let text ← takeWhile fun c =>
      !"\\\"$\x60\x7d()".toList.contains c && !(inDocument && c == '\n')
    let parts := if text.isEmpty then parts else addQuoted text parts
    match (← get).rest with
    | [] =>
      match close with
      | .document _ _ => pure parts
      | .parentheses _ => fail "Missing '))'"
      | .quote | .brace => unterminated
    | '\\' :: '\n' :: _ =>
      skip 2
      quotedParts fuel close parts
    | '\\' :: c :: _ =>
      skip 2
      let escaped := "\\\x60$".toList.contains c || (c == '"' && !inDocument) ||
        (c == '\x7d' && close == .brace)
      quotedParts fuel close (addQuoted (if escaped then [c] else ['\\', c]) parts)
    | '$' :: _ =>
      skip 1
      quotedParts fuel close ((← dollar fuel true) :: parts)
    | '\x60' :: _ =>
      skip 1
      quotedParts fuel close ((← oldOutput fuel true) :: parts)
    | c :: more =>
      skip 1
      match c, close with
      | '"', .quote => pure parts
      | '"', .brace =>
        let inner ← quotedParts fuel .quote parts
        quotedParts fuel close inner
      | '\x7d', .brace => pure parts
      | '\n', .document mark strip => documentLine fuel mark strip (addQuoted [c] parts)
      | '(', .parentheses opened =>
        quotedParts fuel (.parentheses (opened + 1)) (addQuoted [c] parts)
      | ')', .parentheses (opened + 1) =>
        quotedParts fuel (.parentheses opened) (addQuoted [c] parts)
      | ')', .parentheses 0 =>
        if more.head? == some ')' then do
          skip 1
          pure parts
        else quotedParts fuel close (addQuoted [c] parts)
      | _, _ => quotedParts fuel close (addQuoted [c] parts)

/-- Parses a here-document from the start of a line. -/
def documentLine : Nat → Option Bytes → Bool → List Part → Reading (List Part)
  | 0, _, _, _ => tooLong
  | fuel + 1, mark, strip, parts => do
    if strip then
      let _ ← takeWhile (· == '\t')
    let line := (← get).rest.takeWhile (· != '\n')
    if mark == some line then
      skip (line.length + 1)
      pure parts
    else quotedParts fuel (.document mark strip) parts

/-- Parses an unquoted context, up to the end of the word or a closing brace. Empty quotes make a
field, except around `$@` alone. -/
def plainParts : Nat → Bool → List Part → Reading (List Part)
  | 0, _, _ => tooLong
  | fuel + 1, inBraces, parts => do
    let text ← takeWhile (staysInWord inBraces)
    let parts := if text.isEmpty then parts else addPlain text parts
    match (← get).rest with
    | [] => if inBraces then fail "Missing '\x7d'" else pure parts
    | '\\' :: '\n' :: _ =>
      skip 2
      plainParts fuel inBraces parts
    | ['\\'] =>
      skip 1
      plainParts fuel inBraces (addQuoted ['\\'] parts)
    | '\\' :: c :: _ =>
      skip 2
      plainParts fuel inBraces (addQuoted [c] parts)
    | '\x27' :: _ =>
      skip 1
      let text ← takeWhile (· != '\x27')
      if (← get).rest.isEmpty then unterminated
      else
        skip 1
        plainParts fuel inBraces (addQuoted text parts)
    | '"' :: more =>
      skip 1
      if more.head? == some '"' then
        skip 1
        plainParts fuel inBraces (addQuoted [] parts)
      else
        let inner ← quotedParts fuel .quote []
        plainParts fuel inBraces (match inner with
          | [.parameter ['@'] .keep [] true] => inner ++ parts
          | _ => inner ++ addQuoted [] parts)
    | '$' :: _ =>
      skip 1
      match ← dollar fuel false with
      | .plain text => plainParts fuel inBraces (addPlain text parts)
      | part => plainParts fuel inBraces (part :: parts)
    | '\x60' :: _ =>
      skip 1
      plainParts fuel inBraces ((← oldOutput fuel false) :: parts)
    | _ =>
      if inBraces then skip 1
      pure parts

/-- Parses an expansion after `$`. -/
def dollar : Nat → Bool → Reading Part
  | 0, _ => tooLong
  | fuel + 1, quoted => do
    joinParameter fuel
    match (← get).rest with
    | '(' :: '(' :: _ =>
      skip 2
      let parts ← quotedParts fuel (.parentheses 0) []
      pure (.arithmetic parts.reverse quoted)
    | '(' :: script =>
      skip 1
      let before ← get
      set { before with back := none, announced := [], inDocument := false }
      let _ ← commands fuel .inner true none
      let t ← token fuel false false
      if t.isSign ")" then
        let after ← get
        set { after with announced := before.announced, inDocument := before.inDocument }
        let size := script.length - after.rest.length - 1
        pure (.output (script.take size) before.line quoted)
      else expecting t "\")\""
    | '\x7b' :: cs =>
      let (name, change, size, closed) := braced cs
      skip (size + 1)
      -- A newline in place of an operator does not increase the line number.
      if (cs.take size).getLast? == some '\n' then
        modify fun s => { s with line := s.line - 1 }
      let cut := match change with
        | .cutFront _ | .cutBack _ => true
        | _ => false
      let argument ←
        if closed then pure []
        else if quoted && !cut then quotedParts fuel .brace []
        else plainParts fuel true []
      pure (.parameter name change argument.reverse quoted)
    | c :: cs =>
      let name :=
        if isNameStart c then c :: cs.takeWhile isNameByte else if isSpecial c then [c] else []
      skip name.length
      if !name.isEmpty then pure (.parameter name .keep [] quoted)
      else pure (if quoted then .quoted ['$'] else .plain ['$'])
    | [] => pure (if quoted then .quoted ['$'] else .plain ['$'])

/-- Parses a backquoted command substitution. -/
def oldOutput : Nat → Bool → Reading Part
  | 0, _ => tooLong
  | fuel + 1, quoted => do
    let before ← get
    match backquoted quoted before.rest with
    | none => do
      goTo before.rest []
      fail "EOF in backquote substitution"
    | some (script, passed, after) =>
      set { before with
        rest := script, line := 1, back := none, announced := [], inDocument := false }
      let _ ← commands fuel .inner true none
      let inner ← get
      set { before with documents := inner.documents, nextDocument := inner.nextDocument }
      goTo passed after
      pure (.output script 1 quoted)

/-- Parses the pending here-documents. -/
def readDocuments : Nat → Reading Unit
  | 0 => tooLong
  | fuel + 1 => do
    let s ← get
    match s.announced with
    | [] => pure ()
    | a :: more =>
      let word ←
        if a.quoted then do
          let (body, rest) := documentBody a.mark a.strip (s.rest.length + 1) s.rest
          goTo (s.rest.take (s.rest.length - rest.length)) rest
          pure [Part.quoted body]
        else do
          set { s with back := none, announced := [], inDocument := true }
          pure (← documentLine fuel (some a.mark) a.strip []).reverse
      modify fun c =>
        { c with
          back := s.back
          inDocument := s.inDocument
          announced := more
          documents := (a.number, word) :: c.documents }
      readDocuments fuel

/-- Parses the next token, without reserved words. -/
def rawToken : Nat → Reading Token
  | 0 => tooLong
  | fuel + 1 => do
    let s ← get
    match s.back with
    | some t =>
      set { s with back := none }
      pure t
    | none =>
      if s.rest.head?.any fun c => c.isDigit || c == '&' || c == '|' || c == ';' then
        joinBehind 1
      match (← get).rest with
      | [] => pure .finish
      | '\n' :: _ => skip 1; pure .newline
      | '\\' :: '\n' :: _ => skip 2; rawToken fuel
      | '&' :: '&' :: _ => skip 2; pure (.sign "&&")
      | '&' :: _ => skip 1; pure (.sign "&")
      | '|' :: '|' :: _ => skip 2; pure (.sign "||")
      | '|' :: _ => skip 1; pure (.sign "|")
      | ';' :: ';' :: _ => skip 2; pure (.sign ";;")
      | ';' :: _ => skip 1; pure (.sign ";")
      | '(' :: _ => skip 1; pure (.sign "(")
      | ')' :: _ => skip 1; pure (.sign ")")
      | '<' :: _ => redirectMark 0
      | '>' :: _ => redirectMark 1
      | c :: more =>
        if c == ' ' || c == '\t' then
          let _ ← takeWhile fun d => d == ' ' || d == '\t'
          rawToken fuel
        else if c == '#' then
          let _ ← takeWhile (· != '\n')
          rawToken fuel
        else if c.isDigit && more.head?.any fun d => d == '<' || d == '>' then
          skip 1
          redirectMark (c.toNat - '0'.toNat)
        else pure (.word (← plainParts fuel false []).reverse)

/-- Parses a redirection operator. -/
def redirectMark (channel : Nat) : Reading Token := do
  let mark (size : Nat) (way : Way) (strip : Bool) : Reading Token := do
    skip size
    pure (.redirect channel way strip)
  joinBehind 1
  if "<<".toList.isPrefixOf (← get).rest then joinBehind 2
  match (← get).rest with
  | '>' :: '>' :: _ => mark 2 .append false
  | '>' :: '|' :: _ => mark 2 .overwrite false
  | '>' :: '&' :: _ => mark 2 .same false
  | '>' :: _ => mark 1 .write false
  | '<' :: '<' :: '-' :: _ => mark 3 (.document 0) true
  | '<' :: '<' :: _ => mark 2 (.document 0) false
  | '<' :: '&' :: _ => mark 2 .same false
  | '<' :: '>' :: _ => mark 2 .readWrite false
  | _ => mark 1 .read false

/-- Parses the next token, with optional newlines before it, reserved words and alias
substitution. -/
def lookedUp : Nat → Bool → Bool → Bool → Reading Token
  | 0, _, _, _ => tooLong
  | fuel + 1, keys, aliases, skipNewlines => do
    let before ← get
    let t ← rawToken fuel
    match t with
    | .newline =>
      if skipNewlines then
        readDocuments fuel
        lookedUp fuel keys aliases true
      else pure t
    | .word [.plain text] =>
      let name := String.ofList text
      let s ← get
      if keys && keywords.contains name then pure (.keyword name)
      else if before.back.isNone && (aliases || s.hasLeft before.rest.length) then
        match s.alias? text with
        | some other =>
          set (s.unfold text other)
          lookedUp fuel keys aliases skipNewlines
        | none => pure t
      else pure t
    | _ => pure t

/-- Parses the next token, with or without reserved words. -/
def token : Nat → Bool → Bool → Reading Token
  | 0, _, _ => tooLong
  | fuel + 1, keys, skipNewlines => lookedUp fuel keys false skipNewlines

/-- Parses the first token of a command. -/
def firstToken : Nat → Bool → Reading Token
  | 0, _ => tooLong
  | fuel + 1, skipNewlines => lookedUp fuel true true skipNewlines

/-- Parses a list of commands; `first` if none was parsed before. -/
def commands : Nat → Extent → Bool → Option Command → Reading (Option Command)
  | 0, _, _, _ => tooLong
  | fuel + 1, extent, first, before => do
    let t ← firstToken fuel (extent != .line)
    match t with
    | .newline => readDocuments fuel; pure before
    | .finish => readDocuments fuel; putBack t; pure before
    | _ =>
      putBack t
      if (extent == .inner || (extent == .block && !first)) && t.closesList then pure before
      else
        let c ← andOr fuel none
        let t ← token fuel false false
        let c := if t.isSign "&" then .background c else c
        let all := some (andThen before c)
        match t with
        | .finish => readDocuments fuel; putBack t; pure all
        | .newline => putBack t; commands fuel extent false all
        | _ =>
          if t.isSign "&" || t.isSign ";" then commands fuel extent false all
          else if extent == .line then unexpected t
          else
            putBack t
            pure all

/-- Parses an AND-OR list, given what precedes it. -/
def andOr : Nat → Option (Bool × Command) → Reading Command
  | 0, _ => tooLong
  | fuel + 1, before => do
    let c ← pipeline fuel
    let all := match before with
      | none => c
      | some (true, first) => .both first c
      | some (false, first) => .either first c
    let t ← token fuel false false
    let isAnd := t.isSign "&&"
    if isAnd || t.isSign "||" then
      putBack (← firstToken fuel true)
      andOr fuel (some (isAnd, all))
    else
      putBack t
      pure all

def pipeline : Nat → Reading Command
  | 0 => tooLong
  | fuel + 1 => do
    let t ← token fuel false false
    let negated := t.isKeyword "!"
    if negated then putBack (← firstToken fuel false) else putBack t
    let parts ← pipelineParts fuel
    let c := match parts with
      | [c] => c
      | _ => .pipeline parts
    pure (if negated then .negated c else c)

def pipelineParts : Nat → Reading (List Command)
  | 0 => tooLong
  | fuel + 1 => do
    let c ← command fuel
    let t ← token fuel false false
    if t.isSign "|" then
      putBack (← firstToken fuel true)
      let more ← pipelineParts fuel
      pure (c :: more)
    else
      putBack t
      pure [c]

/-- Parses a compound list. -/
def block : Nat → Reading Command
  | 0 => tooLong
  | fuel + 1 => do
    pure ((← commands fuel .block true none).getD .idle)

/-- Consumes a reserved word, or fails. -/
def require : Nat → String → Reading Unit
  | 0, _ => tooLong
  | fuel + 1, text => do
    let t ← token fuel true true
    if t.isKeyword text then pure () else expecting t ("\"" ++ text ++ "\"")

/-- Parses an `if` command after its keyword. -/
def choice : Nat → Reading Command
  | 0 => tooLong
  | fuel + 1 => do
    let test ← block fuel
    require fuel "then"
    let body ← block fuel
    let t ← token fuel true true
    if t.isKeyword "elif" then
      let other ← choice fuel
      pure (.choice test body other)
    else
      let other ←
        if t.isKeyword "else" then block fuel
        else do
          putBack t
          pure .idle
      pure (.choice test body other)

/-- Parses words up to another token. -/
def wordsUpTo : Nat → List Word → Reading (List Word × Token)
  | 0, _ => tooLong
  | fuel + 1, words => do
    match ← token fuel false false with
    | .word w => wordsUpTo fuel (w :: words)
    | t => pure (words.reverse, t)

/-- Parses a `do` group. -/
def loopBody : Nat → Reading Command
  | 0 => tooLong
  | fuel + 1 => do
    require fuel "do"
    let body ← block fuel
    require fuel "done"
    pure body

/-- Parses the patterns of a `case` item. -/
def armWords : Nat → Token → Reading (List Word)
  | 0, _ => tooLong
  | fuel + 1, first => do
    let word : Word := match first with
      | .word w => w
      | .keyword text => [.plain text.toList]
      | _ => []
    let t ← token fuel false false
    if t.isSign "|" then
      let more ← armWords fuel (← token fuel false false)
      pure (word :: more)
    else if t.isSign ")" then pure [word]
    else expecting t "\")\""

/-- Parses the items of a `case` command. -/
def arms : Nat → Reading (List (List Word × Command))
  | 0 => tooLong
  | fuel + 1 => do
    let t ← token fuel true true
    if t.isKeyword "esac" then pure []
    else
      let first ← if t.isSign "(" then token fuel false false else pure t
      let words ← armWords fuel first
      let body := (← commands fuel .inner true none).getD .idle
      let t ← token fuel true true
      if t.isKeyword "esac" then pure [(words, body)]
      else if t.isSign ";;" then
        let more ← arms fuel
        pure ((words, body) :: more)
      else expecting t "\";;\""

/-- Parses a command. -/
def command : Nat → Reading Command
  | 0 => tooLong
  | fuel + 1 => do
    let line := (← get).line
    let t ← token fuel false false
    match t with
    | .word _ | .redirect _ _ _ =>
      putBack t
      simple fuel line [] [] []
    | .keyword "if" =>
      let c ← choice fuel
      require fuel "fi"
      withRedirects fuel line c
    | .keyword "while" =>
      let test ← block fuel
      let body ← loopBody fuel
      withRedirects fuel line (.loop false test body)
    | .keyword "until" =>
      let test ← block fuel
      let body ← loopBody fuel
      withRedirects fuel line (.loop true test body)
    | .keyword "for" =>
      match ← token fuel false false with
      | .word [.plain name] =>
        if !isName name then fail "Bad for loop variable"
        else
          let t ← token fuel true true
          let words ←
            if t.isKeyword "in" then do
              let (words, t) ← wordsUpTo fuel []
              match t with
              | .newline => readDocuments fuel; pure words
              | _ => if t.isSign ";" then pure words else unexpected t
            else do
              if !t.isSign ";" then putBack t
              pure [allArguments]
          let body ← loopBody fuel
          withRedirects fuel line (.each line name words body)
      | _ => fail "Bad for loop variable"
    | .keyword "case" =>
      match ← token fuel false false with
      | .word w =>
        let t ← token fuel true true
        if t.isKeyword "in" then
          let cases ← arms fuel
          withRedirects fuel line (.select line w cases)
        else expecting t "\"in\""
      | t => expecting t "word"
    | .keyword "\x7b" =>
      let body ← block fuel
      require fuel "\x7d"
      withRedirects fuel line body
    | .sign "(" =>
      let body ← block fuel
      let t ← token fuel true true
      if t.isSign ")" then
        let redirects ← moreRedirects fuel
        pure (.subshell line body redirects)
      else expecting t "\")\""
    | _ => unexpected t

/-- Parses a redirection list. -/
def moreRedirects : Nat → Reading (List Redirect)
  | 0 => tooLong
  | fuel + 1 => do
    let t ← firstToken fuel false
    match t with
    | .redirect channel way strip =>
      let r ← redirectTarget fuel channel way strip
      pure (r :: (← moreRedirects fuel))
    | _ =>
      putBack t
      pure []

/-- Parses the redirections of a compound command. Those of a brace group around a single subshell
replace its own. -/
def withRedirects : Nat → Nat → Command → Reading Command
  | 0, _, _ => tooLong
  | fuel + 1, line, c => do
    let redirects ← moreRedirects fuel
    match redirects, c with
    | [], _ => pure c
    | _, .subshell _ body _ => pure (.subshell line body redirects)
    | _, _ => pure (.redirected line c redirects)

/-- Parses the operand of a redirection. -/
def redirectTarget : Nat → Nat → Way → Bool → Reading Redirect
  | 0, _, _, _ => tooLong
  | fuel + 1, channel, way, strip => do
    let isDocument := match way with
      | .document _ => true
      | _ => false
    if isDocument then skip (blanksAhead (← get).rest)
    let s ← get
    let announce (mark : Bytes) (quoted : Bool) (after : Bytes) : Reading Redirect := do
      goTo (s.rest.take (s.rest.length - after.length)) after
      let a : Announced := ⟨s.nextDocument, mark, quoted, strip⟩
      modify fun c =>
        { c with announced := c.announced ++ [a], nextDocument := s.nextDocument + 1 }
      pure ⟨channel, .document a.number, []⟩
    if isDocument && s.rest.head?.any fun c => c != '#' && !endsWord c then
      match markWord .none s.rest with
      | none =>
        goTo s.rest []
        fail "Unterminated quoted string"
      | some ([c], false, d :: after) =>
        if c.isDigit && (d == '<' || d == '>') then fail "redirection unexpected"
        else announce [c] false (d :: after)
      | some (mark, quoted, after) => announce mark quoted after
    else
      match ← token fuel false false with
      | .word w => pure ⟨channel, way, w⟩
      | t => unexpected t

/-- Parses a simple command; its assignments, words and redirections so far are reversed. -/
def simple : Nat → Nat → List (Bytes × Word) → List Word → List Redirect → Reading Command
  | 0, _, _, _, _ => tooLong
  | fuel + 1, line, settings, words, redirects => do
    let t ← lookedUp fuel false words.isEmpty false
    let finished : Reading Command := do
      putBack t
      pure (.simple line settings.reverse words.reverse redirects.reverse)
    match t with
    | .word w =>
      match if words.isEmpty then settingOf? w else none with
      | some set => simple fuel line (set :: settings) words redirects
      | none => simple fuel line settings (w :: words) redirects
    | .redirect channel way strip =>
      let r ← redirectTarget fuel channel way strip
      simple fuel line settings words (r :: redirects)
    | .sign "(" =>
      match words, settings, redirects with
      | [w], [], [] =>
        let t ← token fuel false false
        if !t.isSign ")" then expecting t "\")\""
        else
          let name := wordText w
          if w.length ≠ 1 || !isName name || isQuoted w ||
              specialBuiltins.contains (String.ofList name) then
            fail "Bad function name"
          else
            let line := (← get).line
            putBack (← firstToken fuel true)
            let body ← command fuel
            pure (.define name line body)
      | _, _, _ => finished
    | _ => finished

end

/-- The fuel of parsing a script: every few calls consume a byte. -/
def readingFuel (script : Bytes) : Nat := 32 * script.length + 4096

/-- Parses a complete command; none at the end of the script. -/
def readLine (fuel : Nat) (s : Cursor) : Except ScriptError (Option Command × Bool × Cursor) := do
  let (c, s) ← (commands fuel .line true none).run { s with back := none }
  let finished := match s.back with
    | some .finish => true
    | _ => false
  pure (c, finished, s)

/-- Parses a text in a double-quoted context. -/
def readText (text : Bytes) : Option Word :=
  match (quotedParts (readingFuel text) (.document none false) []).run (Cursor.start text 1 0 []) with
  | .ok (parts, _) => some parts.reverse
  | .error _ => none

/-- Parses a whole script. -/
def readScript (s : Cursor) : Except ScriptError (Command × Cursor) := do
  let (c, s) ← (commands (readingFuel s.rest) .inner true none).run s
  pure (c.getD .idle, s)

end GraphCodec.Formatter.Shell
