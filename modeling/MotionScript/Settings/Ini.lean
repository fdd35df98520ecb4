import MotionScript.Text.Blank

/-!
# INI text

Settings stand in sections, one on a line. Names of sections and keys do not distinguish capitals,
a later key takes the place of an earlier one, and a malformed line spoils the whole text.

* `Ini.Line.ofText`: what a line says.
* `Ini.parse`: the settings of a text.
* `Ini.get?`: the value of a key.
* `Ini.render`: a text with these settings.
-/

namespace MotionScript

/-- A key of a section, with its value if it has one. -/
structure Ini.Setting where
  heading : String
  key : String
  value : Option String
deriving DecidableEq, Repr

/-- The settings of a text, in order. -/
structure Ini where
  settings : List Ini.Setting := []
deriving DecidableEq, Repr

/-- Why a text has no settings. Lines are numbered from one. -/
inductive IniError where
  /-- The name of a section has no closing bracket. -/
  | unclosedSection (line : Nat)
  /-- A value has no key. -/
  | emptyKey (line : Nat)
deriving DecidableEq, Repr

/-- The wording of an error. -/
def IniError.message : IniError → String
  | unclosedSection line =>
    "line " ++ toString line ++
      ": Found opening bracket for section name but no closing bracket"
  | emptyKey line => "line " ++ toString line ++ ":0: Key cannot be empty"

namespace Ini

/-- What a line says. -/
inductive Line where
  | blank
  | heading (name : String)
  | unclosed
  | setting (key : String) (value : Option String)
  | keyless
deriving DecidableEq, Repr

/-- A name without capitals. Capitals beyond ASCII stay: the names that are asked for are ASCII, and
no other letter has a small form that occurs in them. -/
def name (cs : List Char) : String := .ofList ((Text.trim cs).map Char.toLower)

/-- A character that starts a comment. -/
def isComment (c : Char) : Bool := c == ';' || c == '#'

/-- A character between a key and its value. -/
def isDelimiter (c : Char) : Bool := c == '=' || c == ':'

/-- The text before the last closing bracket. -/
def upToBracket? (cs : List Char) : Option (List Char) :=
  match cs.reverse.dropWhile (· != ']') with
  | [] => none
  | _ :: rest => some rest.reverse

/-- A key, and a value behind the first delimiter. -/
def settingOf (cs : List Char) : Line :=
  let key := cs.takeWhile fun c => !isDelimiter c
  match cs.dropWhile fun c => !isDelimiter c with
  | [] => .setting (name key) none
  | _ :: value =>
    if key.isEmpty then .keyless else .setting (name key) (String.ofList (Text.trim value))

/-- What a line says: blanks at its ends do not count, nor what follows a comment character. -/
def Line.ofText (line : List Char) : Line :=
  match Text.trim ((Text.trim line).takeWhile fun c => !isComment c) with
  | [] => .blank
  | '[' :: cs =>
    match upToBracket? cs with
    | some body => .heading (name body)
    | none => .unclosed
  | cs => settingOf cs

/-- The settings of lines that are numbered from `number` and start in a section. -/
def ofLines : (number : Nat) → (current : String) → List (List Char) → Except IniError (List Setting)
  | _, _, [] => .ok []
  | number, current, line :: rest =>
    match Line.ofText line with
    | .blank => ofLines (number + 1) current rest
    | .heading name => ofLines (number + 1) name rest
    | .unclosed => .error (.unclosedSection number)
    | .keyless => .error (.emptyKey number)
    | .setting key value => (ofLines (number + 1) current rest).map (⟨current, key, value⟩ :: ·)

/-- The settings of a text. Those before the first section are in a section of their own. -/
def parse (text : String) : Except IniError Ini :=
  (ofLines 1 "default" (Text.lines text.toList)).map Ini.mk

/-- The value of a key: that of the last setting of it, which may have none. -/
def get? (ini : Ini) (heading key : String) : Option String :=
  (ini.settings.reverse.find? fun s => s.heading == heading && s.key == key).bind (·.value)

/-- The text of a section. -/
def renderSection (heading : String) (settings : List (String × String)) : String :=
  "[" ++ heading ++ "]\n" ++
    String.join (settings.map fun (key, value) => key ++ "=" ++ value ++ "\n")

/-- A text with these sections. -/
def render (sections : List (String × List (String × String))) : String :=
  String.join (sections.map fun (heading, settings) => renderSection heading settings)

end Ini

end MotionScript
