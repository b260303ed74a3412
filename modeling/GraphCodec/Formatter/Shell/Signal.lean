import GraphCodec.Formatter.Bytes

/-!
# Signals
-/

set_option autoImplicit false

namespace GraphCodec.Formatter.Shell.Signal

/-- The signal names by number; zero is `EXIT`. -/
def names : List String :=
  ["EXIT", "HUP", "INT", "QUIT", "ILL", "TRAP", "ABRT", "BUS", "FPE", "KILL", "USR1", "SEGV",
    "USR2", "PIPE", "ALRM", "TERM", "16", "CHLD", "CONT", "STOP", "TSTP", "TTIN", "TTOU", "URG",
    "XCPU", "XFSZ", "VTALRM", "PROF", "WINCH", "IO", "PWR", "SYS", "32", "33", "RTMIN"] ++
    (List.range 15).map (fun n => "RTMIN+" ++ toString (n + 1)) ++
    (List.range 14).map (fun n => "RTMAX-" ++ toString (14 - n)) ++ ["RTMAX"]

/-- The report of a process that was terminated by a signal. -/
def report : Nat → String
  | 1 => "Hangup"
  | 3 => "Quit"
  | 4 => "Illegal instruction"
  | 5 => "Trace/breakpoint trap"
  | 6 => "Aborted"
  | 7 => "Bus error"
  | 8 => "Floating point exception"
  | 9 => "Killed"
  | 10 => "User defined signal 1"
  | 11 => "Segmentation fault"
  | 12 => "User defined signal 2"
  | 14 => "Alarm clock"
  | 15 => "Terminated"
  | 16 => "Stack fault"
  | 24 => "CPU time limit exceeded"
  | 25 => "File size limit exceeded"
  | 26 => "Virtual timer expired"
  | 27 => "Profiling timer expired"
  | 29 => "I/O possible"
  | 30 => "Power failure"
  | 31 => "Bad system call"
  | n => if 34 ≤ n then "Real-time signal " ++ toString (n - 34) else ""

/-- The signals whose default action is to ignore. -/
def isIdle (signal : Nat) : Bool := [0, 17, 18, 23, 28].contains signal

/-- The signals whose default action is to stop the process. -/
def isStop (signal : Nat) : Bool := 19 ≤ signal && signal ≤ 22

/-- Parses a signal number or name. -/
def read? (least : Nat) (text : Bytes) : Option Nat :=
  if !text.isEmpty && text.all Char.isDigit then
    let n := min (text.foldl (fun n c => 10 * n + (c.toNat - '0'.toNat)) 0) 0x7fffffffffffffff
    -- Numbers are truncated to 32 bits.
    let n := n % 0x100000000
    if least ≤ n && n < names.length then some n else none
  else
    let name := String.ofList (text.map Char.toUpper)
    (names.findIdx? (· == name)).filter (least ≤ ·)

end GraphCodec.Formatter.Shell.Signal
