import MotionScript.Decimal.Numeral

/-!
# Arguments

The options of the command line. Each may be given once, as `--name value` or `--name=value`. A value
that stands for itself must not look like an option; a position may be a negative number.

* `Arguments.parse?`: the arguments that a list of words gives, or nothing if it is no proper list.
-/

namespace MotionScript

/-- What the command line asks for. -/
structure Arguments where
  /-- The file with the settings. -/
  config : String := "./config.ini"
  /-- The file with the scripts, in place of the one in the settings. -/
  script : Option String := none
  /-- The set to play; the first one without it. -/
  list : Option String := none
  /-- The sequence to play. -/
  sequence : Nat := 0
  /-- Only list the sets. -/
  names : Bool := false
  /-- Frames to simulate. -/
  frames : Nat := 240
  /-- Frames in a second, in place of those in the settings. -/
  fps : Option UInt32 := none
  x : Scalar := 0
  y : Scalar := 0
  /-- Seconds between volleys. -/
  every : Option Scalar := none
  /-- Shots of a volley. -/
  burst : Nat := 1
  /-- The width of a volley in degrees. -/
  spread : Scalar := 30
  /-- The lifetime of shots. -/
  lifetime : Option Scalar := none
  /-- Frames between two lines of the trace; none are written without it. -/
  traceEvery : Nat := 10

/-- The options. -/
inductive ArgumentOption where
  | config
  | script
  | list
  | sequence
  | names
  | frames
  | fps
  | x
  | y
  | every
  | burst
  | spread
  | lifetime
  | traceEvery
deriving DecidableEq, Repr

namespace ArgumentOption

/-- All options. -/
def all : List ArgumentOption :=
  [config, script, list, sequence, names, frames, fps, x, y, every, burst, spread, lifetime,
    traceEvery]

/-- The name of an option. -/
def name : ArgumentOption → String
  | config => "config"
  | script => "script"
  | list => "list"
  | sequence => "sequence"
  | names => "names"
  | frames => "frames"
  | fps => "fps"
  | x => "x"
  | y => "y"
  | every => "every"
  | burst => "burst"
  | spread => "spread"
  | lifetime => "ttl"
  | traceEvery => "trace-every"

/-- The option with a name. -/
def ofName? (word : String) : Option ArgumentOption := all.find? (·.name == word)

/-- A path; it must not be empty. -/
def path? (value : String) : Option String := if value.isEmpty then none else some value

/-- A count of 64 bits. -/
def count? (value : String) : Option Nat := natural? UInt64.size value.toList

/-- A count of 32 bits. It may have a sign, with a minus in front of zero only. -/
def shortCount? (value : String) : Option Nat :=
  match value.toList with
  | '-' :: ds => if !ds.isEmpty && ds.all (· == '0') then some 0 else none
  | cs => natural? UInt32.size cs

/-- A number. -/
def scalar? (value : String) : Option Scalar := (Numeral.read? value.toList).map Numeral.toScalar

/-- The arguments with the value of an option. The option without a value takes none. -/
def set? (o : ArgumentOption) (value : String) (a : Arguments) : Option Arguments :=
  match o with
  | config => (path? value).map fun v => { a with config := v }
  | script => (path? value).map fun v => { a with script := some v }
  | list => some { a with list := some value }
  | sequence => (count? value).map fun v => { a with sequence := v }
  | names => none
  | frames => (shortCount? value).map fun v => { a with frames := v }
  | fps => (shortCount? value).map fun v => { a with fps := some v.toUInt32 }
  | x => (scalar? value).map fun v => { a with x := v }
  | y => (scalar? value).map fun v => { a with y := v }
  | every => (scalar? value).map fun v => { a with every := some v }
  | burst => (count? value).map fun v => { a with burst := v }
  | spread => (scalar? value).map fun v => { a with spread := v }
  | lifetime => (scalar? value).map fun v => { a with lifetime := some v }
  | traceEvery => (shortCount? value).map fun v => { a with traceEvery := v }

/-- The text looks like a number without a sign: digits, behind the first of them at most one point
and then at most one exponent mark, which is not the end. -/
def looksNumeric (cs : List Char) : Bool :=
  let whole := cs.takeWhile Char.isDigit
  let rest := cs.dropWhile Char.isDigit
  let rest := match rest with
    | '.' :: rest => if whole.isEmpty then '.' :: rest else rest.dropWhile Char.isDigit
    | rest => rest
  match rest with
  | [] => true
  | c :: ds => (c == 'e' || c == 'E') && !whole.isEmpty && !ds.isEmpty && ds.all Char.isDigit

/-- A word can stand for itself as the value of an option: it does not look like an option. -/
def takes (o : ArgumentOption) (word : String) : Bool :=
  match word.toList with
  | ['-'] => true
  | '-' :: cs => (o == x || o == y) && looksNumeric cs
  | _ => true

end ArgumentOption

namespace Arguments

/-- The name of an option and the value that is attached to it. -/
def split? (word : String) : Option (String × Option String) :=
  match word.toList with
  | '-' :: '-' :: cs =>
    let name := String.ofList (cs.takeWhile (· != '='))
    match cs.dropWhile (· != '=') with
    | [] => some (name, none)
    | _ :: value => some (name, some (.ofList value))
  | _ => none

/-- Reads words into arguments, of which the options in `seen` are given already. -/
def read? (seen : List ArgumentOption) (a : Arguments) : List String → Option Arguments
  | [] => some a
  | ["--"] => some a
  | word :: rest => do
    let (name, attached) ← split? word
    let o ← ArgumentOption.ofName? name
    if o ∈ seen then none
    else if o = .names then
      if attached.isSome then none else read? (o :: seen) { a with names := true } rest
    else
      match attached, rest with
      | some value, rest => read? (o :: seen) (← o.set? value a) rest
      | none, value :: rest =>
        if o.takes value then read? (o :: seen) (← o.set? value a) rest else none
      | none, [] => none

/-- The arguments that a list of words gives. -/
def parse? (words : List String) : Option Arguments := read? [] {} words

end Arguments

end MotionScript
