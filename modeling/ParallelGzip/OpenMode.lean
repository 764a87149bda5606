import ParallelGzip.Error
import ParallelGzip.Text.Quoted

set_option autoImplicit false

/-! # Open modes: the letters that say how a path is opened

A mode text holds exactly one of the letters `r`, `w`, `a` and `x`, and any number of `b`. Streams
are always bytes, so `t` is refused with a message of its own. The first offence from the left is
the one reported. -/

namespace ParallelGzip

/-- How a path is opened. -/
inductive OpenMode
  | read
  /-- Create or truncate. -/
  | write
  /-- Create or go on at the end. -/
  | append
  /-- Create; an existing file is an error. -/
  | exclusive
  deriving DecidableEq, Repr

namespace OpenMode

/-- Whether a mode is for writing. -/
def isWrite (mode : OpenMode) : Bool := mode ≠ read

/-- The name of a mode. -/
def name : OpenMode → String
  | read => "Read"
  | write => "Write"
  | append => "Append"
  | exclusive => "Exclusive"

/-- The mode a letter stands for. -/
def ofLetter? : Char → Option OpenMode
  | 'r' => some read
  | 'w' => some write
  | 'a' => some append
  | 'x' => some exclusive
  | _ => none

/-- What is wrong with a mode text. -/
inductive Refusal
  | textMode
  | foreignLetter
  | secondMode
  | noMode
  deriving DecidableEq, Repr

/-- Read the letters from the left; `seen` is the mode found so far. -/
def parseLetters (seen : Option OpenMode) : List Char → Except Refusal OpenMode
  | [] => match seen with
    | some mode => .ok mode
    | none => .error .noMode
  | c :: letters =>
    if c = 'b' then parseLetters seen letters
    else if c = 't' then .error .textMode
    else
      match ofLetter? c, seen with
      | none, _ => .error .foreignLetter
      | some _, some _ => .error .secondMode
      | some mode, none => parseLetters (some mode) letters

/-- The explanation of a refusal of `text`. -/
def Refusal.reason (text : String) : Refusal → String
  | textMode => "text mode is not supported: " ++ quoted text
  | foreignLetter => quoted text
  | secondMode => "more than one of r/w/a/x in " ++ quoted text
  | noMode => "no r/w/a/x in " ++ quoted text

/-- Read a mode text. -/
def parse (text : String) : Except Error OpenMode :=
  match parseLetters none text.toList with
  | .ok mode => .ok mode
  | .error refusal => .error (.invalidMode (refusal.reason text))

end OpenMode

end ParallelGzip
