/-!
# Shell words

A command line is split at white space into words. Single quotes preserve everything between them,
and inside double quotes a backslash escapes a quote or a backslash. Outside quotes a backslash
escapes the next character.
-/

set_option autoImplicit false

namespace GraphCodec

/-- The quoting errors of a command line. -/
inductive WordError where
  | openQuote | danglingEscape
  deriving DecidableEq, Repr

def WordError.message : WordError → String
  | .openQuote => "No closing quotation"
  | .danglingEscape => "No escaped character"

namespace Words

/-- The state of the lexer of shell words. -/
inductive Place where
  | between
  | word
  | quoted (mark : Char)
  | escaped
  | quotedEscaped (mark : Char)

def isSeparator (c : Char) : Bool := c == ' ' || c == '\t' || c == '\r' || c == '\n'

def isQuote (c : Char) : Bool := c == '\x27' || c == '"'

/-- Splits the rest of a command line, where `done` is the current word, reversed. -/
def read : Place → List Char → List Char → Except WordError (List String)
  | .between, _, [] => .ok []
  | .between, _, c :: cs =>
    if isSeparator c then read .between [] cs
    else if c == '\\' then read .escaped [] cs
    else if isQuote c then read (.quoted c) [] cs
    else read .word [c] cs
  | .word, done, [] => .ok [String.ofList done.reverse]
  | .word, done, c :: cs =>
    if isSeparator c then do
      let rest ← read .between [] cs
      return String.ofList done.reverse :: rest
    else if c == '\\' then read .escaped done cs
    else if isQuote c then read (.quoted c) done cs
    else read .word (c :: done) cs
  | .quoted _, _, [] => .error .openQuote
  | .quoted mark, done, c :: cs =>
    if c == mark then read .word done cs
    else if c == '\\' && mark == '"' then read (.quotedEscaped mark) done cs
    else read (.quoted mark) (c :: done) cs
  | .escaped, _, [] | .quotedEscaped _, _, [] => .error .danglingEscape
  | .escaped, done, c :: cs => read .word (c :: done) cs
  | .quotedEscaped mark, done, c :: cs =>
    if c == mark || c == '\\' then read (.quoted mark) (c :: done) cs
    else read (.quoted mark) (c :: '\\' :: done) cs

end Words

/-- Splits a command line into words by the quoting rules of the POSIX shell. -/
def splitWords (command : String) : Except WordError (List String) :=
  Words.read .between [] command.toList

end GraphCodec
