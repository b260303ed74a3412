import GraphCodec.Formatter.Options

/-!
# The options `--help` and `--version`
-/

set_option autoImplicit false

namespace GraphCodec.Formatter

/-- The texts of `--help`, given the name of the program, and of `--version`. -/
structure Manual where
  title : String
  usage : String → List String
  writers : String

namespace Manual

/-- The output of `--help`. -/
def help (m : Manual) (name : Bytes) : Bytes :=
  Bytes.words (m.usage (String.ofList name) ++
    ["\nGNU coreutils online help: <https:", "//www.gnu.org/software/coreutils/>\n",
      "Report any translation bugs to <https:", "//translationproject.org/team/>\n",
      "Full documentation <https:", "//www.gnu.org/software/coreutils/", m.title, ">\n",
      "or available locally via: info '(coreutils) ", m.title, " invocation'\n"])

/-- The copyright and licence notice. -/
def terms : List String :=
  ["Copyright (C) 2022 Free Software Foundation, Inc.\n",
    "License GPLv3+: GNU GPL version 3 or later <https:", "//gnu.org/licenses/gpl.html>.\n",
    "This is free software: you are free to change and redistribute it.\n",
    "There is NO WARRANTY, to the extent permitted by law.\n"]

/-- The output of `--version`. -/
def edition (m : Manual) : Bytes :=
  Bytes.words ([m.title, " (GNU coreutils) 9.1\n"] ++ terms ++
    ["\nWritten by ", m.writers, ".\n"])

end Manual

/-- The options `--help` and `--version`. -/
def questionSwitches : List Switch :=
  [⟨helpLetter, "help", .never⟩, ⟨versionLetter, "version", .never⟩]

namespace Call

/-- The outcome of `--help` or `--version` among the options. -/
def answer? (call : Call) (m : Manual) (g : Given) : Option Outcome :=
  match g.options.find? fun o => isQuestion o.1 with
  | some (c, _) =>
    some (.success (if c == helpLetter then m.help call.name else m.edition) call.input)
  | none => none

/-- The outcome of `--help` or `--version` as the only argument. -/
def onlyAnswer? (call : Call) (m : Manual) : Option Outcome :=
  match call.args with
  | [arg] =>
    if arg == "--help".toList then some (.success (m.help call.name) call.input)
    else if arg == "--version".toList then some (.success m.edition call.input)
    else none
  | _ => none

end Call

/-! ## The programs -/

namespace Manual

def concatenate : Manual where
  title := "cat"
  writers := "Torbjorn Granlund and Richard M. Stallman"
  usage := fun name =>
    ["Usage: ", name, " [OPTION]... [FILE]...\n",
      "Concatenate FILE(s) to standard output.\n",
      "\n",
      "With no FILE, or when FILE is -, read standard input.\n",
      "\n",
      "  -A, --show-all           equivalent to -vET\n",
      "  -b, --number-nonblank    number nonempty output lines, overrides -n\n",
      "  -e                       equivalent to -vE\n",
      "  -E, --show-ends          display $ at end of each line\n",
      "  -n, --number             number all output lines\n",
      "  -s, --squeeze-blank      suppress repeated empty output lines\n",
      "  -t                       equivalent to -vT\n",
      "  -T, --show-tabs          display TAB characters as ^I\n",
      "  -u                       (ignored)\n",
      "  -v, --show-nonprinting   use ^ and M- notation, except for LFD and TAB\n",
      "      --help        display this help and exit\n",
      "      --version     output version information and exit\n",
      "\n",
      "Examples:\n",
      "  ", name, " f - g  Output f's contents, then standard input, then g's contents.\n",
      "  ", name, "        Copy standard input to standard output.\n"]

def copyFront : Manual where
  title := "head"
  writers := "David MacKenzie and Jim Meyering"
  usage := fun name =>
    ["Usage: ", name, " [OPTION]... [FILE]...\n",
      "Print the first 10 lines of each FILE to standard output.\n",
      "With more than one FILE, precede each with a header giving the file name.\n",
      "\n",
      "With no FILE, or when FILE is -, read standard input.\n",
      "\n",
      "Mandatory arguments to long options are mandatory for short options too.\n",
      "  -c, --bytes=[-]NUM       print the first NUM bytes of each file;\n",
      "                             with the leading '-', print all but the last\n",
      "                             NUM bytes of each file\n",
      "  -n, --lines=[-]NUM       print the first NUM lines instead of the first 10;\n",
      "                             with the leading '-', print all but the last\n",
      "                             NUM lines of each file\n",
      "  -q, --quiet, --silent    never print headers giving file names\n",
      "  -v, --verbose            always print headers giving file names\n",
      "  -z, --zero-terminated    line delimiter is NUL, not newline\n",
      "      --help        display this help and exit\n",
      "      --version     output version information and exit\n",
      "\n",
      "NUM may have a multiplier suffix:\n",
      "b 512, kB 1000, K 1024, MB 1000*1000, M 1024*1024,\n",
      "GB 1000*1000*1000, G 1024*1024*1024, and so on for T, P, E, Z, Y.\n",
      "Binary prefixes can be used, too: KiB=K, MiB=M, and so on.\n"]

def countAll : Manual where
  title := "wc"
  writers := "Paul Rubin and David MacKenzie"
  usage := fun name =>
    ["Usage: ", name, " [OPTION]... [FILE]...\n",
      "  or:  ", name, " [OPTION]... --files0-from=F\n",
      "Print newline, word, and byte counts for each FILE, and a total line if\n",
      "more than one FILE is specified.  A word is a non-zero-length sequence of\n",
      "printable characters delimited by white space.\n",
      "\n",
      "With no FILE, or when FILE is -, read standard input.\n",
      "\n",
      "The options below may be used to select which counts are printed, always in\n",
      "the following order: newline, word, character, byte, maximum line length.\n",
      "  -c, --bytes            print the byte counts\n",
      "  -m, --chars            print the character counts\n",
      "  -l, --lines            print the newline counts\n",
      "      --files0-from=F    read input from the files specified by\n",
      "                           NUL-terminated names in file F;\n",
      "                           If F is - then read names from standard input\n",
      "  -L, --max-line-length  print the maximum display width\n",
      "  -w, --words            print the word counts\n",
      "      --help        display this help and exit\n",
      "      --version     output version information and exit\n"]

def exchange : Manual where
  title := "tr"
  writers := "Jim Meyering"
  usage := fun name =>
    ["Usage: ", name, " [OPTION]... STRING1 [STRING2]\n",
      "Translate, squeeze, and/or delete characters from standard input,\n",
      "writing to standard output.  STRING1 and STRING2 specify arrays of\n",
      "characters ARRAY1 and ARRAY2 that control the action.\n",
      "\n",
      "  -c, -C, --complement    use the complement of ARRAY1\n",
      "  -d, --delete            delete characters in ARRAY1, do not translate\n",
      "  -s, --squeeze-repeats   replace each sequence of a repeated character\n",
      "                            that is listed in the last specified ARRAY,\n",
      "                            with a single occurrence of that character\n",
      "  -t, --truncate-set1     first truncate ARRAY1 to length of ARRAY2\n",
      "      --help        display this help and exit\n",
      "      --version     output version information and exit\n",
      "\n",
      "ARRAYs are specified as strings of characters.  Most represent themselves.\n",
      "Interpreted sequences are:\n",
      "\n",
      "  \\NNN            character with octal value NNN (1 to 3 octal digits)\n",
      "  \\\\              backslash\n",
      "  \\a              audible BEL\n",
      "  \\b              backspace\n",
      "  \\f              form feed\n",
      "  \\n              new line\n",
      "  \\r              return\n",
      "  \\t              horizontal tab\n",
      "  \\v              vertical tab\n",
      "  CHAR1-CHAR2     all characters from CHAR1 to CHAR2 in ascending order\n",
      "  [CHAR*]         in ARRAY2, copies of CHAR until length of ARRAY1\n",
      "  [CHAR*REPEAT]   REPEAT copies of CHAR, REPEAT octal if starting with 0\n",
      "  [:alnum:]       all letters and digits\n",
      "  [:alpha:]       all letters\n",
      "  [:blank:]       all horizontal whitespace\n",
      "  [:cntrl:]       all control characters\n",
      "  [:digit:]       all digits\n",
      "  [:graph:]       all printable characters, not including space\n",
      "  [:lower:]       all lower case letters\n",
      "  [:print:]       all printable characters, including space\n",
      "  [:punct:]       all punctuation characters\n",
      "  [:space:]       all horizontal or vertical whitespace\n",
      "  [:upper:]       all upper case letters\n",
      "  [:xdigit:]      all hexadecimal digits\n",
      "  [=CHAR=]        all characters which are equivalent to CHAR\n",
      "\n",
      "Translation occurs if -d is not given and both STRING1 and STRING2 appear.\n",
      "-t is only significant when translating.  ARRAY2 is extended to length of\n",
      "ARRAY1 by repeating its last character as necessary.  Excess characters\n",
      "of ARRAY2 are ignored.  Character classes expand in unspecified order;\n",
      "while translating, [:lower:] and [:upper:] may be used in pairs to\n",
      "specify case conversion.  Squeezing occurs after translation or deletion.\n"]

def echo : Manual where
  title := "echo"
  writers := "Brian Fox and Chet Ramey"
  usage := fun name =>
    ["Usage: ", name, " [SHORT-OPTION]... [STRING]...\n",
      "  or:  ", name, " LONG-OPTION\n",
      "Echo the STRING(s) to standard output.\n",
      "\n",
      "  -n             do not output the trailing newline\n",
      "  -e             enable interpretation of backslash escapes\n",
      "  -E             disable interpretation of backslash escapes (default)\n",
      "      --help        display this help and exit\n",
      "      --version     output version information and exit\n",
      "\n",
      "If -e is in effect, the following sequences are recognized:\n",
      "\n",
      "  \\\\      backslash\n",
      "  \\a      alert (BEL)\n",
      "  \\b      backspace\n",
      "  \\c      produce no further output\n",
      "  \\e      escape\n",
      "  \\f      form feed\n",
      "  \\n      new line\n",
      "  \\r      carriage return\n",
      "  \\t      horizontal tab\n",
      "  \\v      vertical tab\n",
      "  \\0NNN   byte with octal value NNN (1 to 3 digits)\n",
      "  \\xHH    byte with hexadecimal value HH (1 to 2 digits)\n",
      "\n",
      "NOTE: your shell may have its own version of echo, which usually supersedes\n",
      "the version described here.  Please refer to your shell's documentation\n",
      "for details about the options it supports.\n",
      "\n",
      "NOTE: printf(1) is a preferred alternative,\n",
      "which does not have issues outputting option-like strings.\n"]

def print : Manual where
  title := "printf"
  writers := "David MacKenzie"
  usage := fun name =>
    ["Usage: ", name, " FORMAT [ARGUMENT]...\n",
      "  or:  ", name, " OPTION\n",
      "Print ARGUMENT(s) according to FORMAT, or execute according to OPTION:\n",
      "\n",
      "      --help        display this help and exit\n",
      "      --version     output version information and exit\n",
      "\n",
      "FORMAT controls the output as in C printf.  Interpreted sequences are:\n",
      "\n",
      "  \\\"      double quote\n",
      "  \\\\      backslash\n",
      "  \\a      alert (BEL)\n",
      "  \\b      backspace\n",
      "  \\c      produce no further output\n",
      "  \\e      escape\n",
      "  \\f      form feed\n",
      "  \\n      new line\n",
      "  \\r      carriage return\n",
      "  \\t      horizontal tab\n",
      "  \\v      vertical tab\n",
      "  \\NNN    byte with octal value NNN (1 to 3 digits)\n",
      "  \\xHH    byte with hexadecimal value HH (1 to 2 digits)\n",
      "  \\uHHHH  Unicode (ISO/IEC 10646) character with hex value HHHH (4 digits)\n",
      "  \\UHHHHHHHH  Unicode character with hex value HHHHHHHH (8 digits)\n",
      "  %%      a single %\n",
      "  %b      ARGUMENT as a string with '\\' escapes interpreted,\n",
      "          except that octal escapes are of the form \\0 or \\0NNN\n",
      "  %q      ARGUMENT is printed in a format that can be reused as shell input,\n",
      "          escaping non-printable characters with the proposed POSIX $'' syntax.\n",
      "\n",
      "and all C format specifications ending with one of diouxXfeEgGcs, with\n",
      "ARGUMENTs converted to proper type first.  Variable widths are handled.\n",
      "\n",
      "NOTE: your shell may have its own version of printf, which usually supersedes\n",
      "the version described here.  Please refer to your shell's documentation\n",
      "for details about the options it supports.\n"]

def idle : Manual where
  title := "true"
  writers := "Jim Meyering"
  usage := fun name =>
    ["Usage: ", name, " [ignored command line arguments]\n",
      "  or:  ", name, " OPTION\n",
      "Exit with a status code indicating success.\n",
      "\n",
      "      --help        display this help and exit\n",
      "      --version     output version information and exit\n",
      "\n",
      "NOTE: your shell may have its own version of true, which usually supersedes\n",
      "the version described here.  Please refer to your shell's documentation\n",
      "for details about the options it supports.\n"]

def failing : Manual where
  title := "false"
  writers := "Jim Meyering"
  usage := fun name =>
    ["Usage: ", name, " [ignored command line arguments]\n",
      "  or:  ", name, " OPTION\n",
      "Exit with a status code indicating failure.\n",
      "\n",
      "      --help        display this help and exit\n",
      "      --version     output version information and exit\n",
      "\n",
      "NOTE: your shell may have its own version of false, which usually supersedes\n",
      "the version described here.  Please refer to your shell's documentation\n",
      "for details about the options it supports.\n"]

def sleep : Manual where
  title := "sleep"
  writers := "Jim Meyering and Paul Eggert"
  usage := fun name =>
    ["Usage: ", name, " NUMBER[SUFFIX]...\n",
      "  or:  ", name, " OPTION\n",
      "Pause for NUMBER seconds.  SUFFIX may be 's' for seconds (the default),\n",
      "'m' for minutes, 'h' for hours or 'd' for days.  NUMBER need not be an\n",
      "integer.  Given two or more arguments, pause for the amount of time\n",
      "specified by the sum of their values.\n",
      "\n",
      "      --help        display this help and exit\n",
      "      --version     output version information and exit\n"]

end Manual

end GraphCodec.Formatter
