import MotionScript.Json.Reader
import MotionScript.Script.Set
import MotionScript.Text.File

/-!
# Script documents

A script file is a JSON array with an entry for each set. What is malformed spoils as little as
possible: an entry without a name or a list is left out, and a malformed step or sequence ends the
list of its own set, which keeps what came before.

* `Step.ofJson?`, `ScriptSet.ofJson?`: one step and one set.
* `Document.ofJson`, `Document.read`, `Document.load`: all sets of a document; it fails only if it
  cannot be read, is no JSON or no array.
* `Document.toJson`: the document that spells out a list of sets.
-/

namespace MotionScript

/-- Why a script file has no sets. -/
inductive LoadError where
  | unreadable (e : FileError)
  /-- The text is no JSON. -/
  | notJson
  /-- The document is not an array. -/
  | notArray
deriving DecidableEq, Repr

/-- The wording of an error. -/
def LoadError.message : LoadError → String
  | unreadable e => e.message
  | notJson => "script file is not valid JSON"
  | notArray => "script file root must be an array"

namespace Json

/-- The scalar that a value is, if it is a number. -/
def scalar? : Json → Option Scalar
  | number n => some n.toScalar
  | _ => none

/-- The scalars of an array of numbers. -/
def scalars? : Json → Option (List Scalar)
  | array vs => vs.mapM scalar?
  | _ => none

end Json

namespace Step

/-- The step with a keyword and numbers. Missing numbers are zero, those after the third do not
count. -/
def ofWord? (word : String) (numbers : List Scalar) : Option Step :=
  (StepKind.ofKeyword? word).map fun kind =>
    ofParams kind (numbers[0]?.getD 0) (numbers[1]?.getD 0) (numbers[2]?.getD 0)

/-- The keyword and the numbers of a step in a document: an object with a type and perhaps
arguments, or an array of the two. -/
def spelled? : Json → Option (String × List Scalar)
  | .array [.string word] => some (word, [])
  | .array [.string word, args] => args.scalars?.map (word, ·)
  | .object members =>
    match (Json.object members).field? "type", (Json.object members).field? "args" with
    | some (.string word), none => some (word, [])
    | some (.string word), some args => args.scalars?.map (word, ·)
    | _, _ => none
  | _ => none

/-- The step that a value stands for. -/
def ofJson? (v : Json) : Option Step := do
  let (word, numbers) ← spelled? v
  ofWord? word numbers

end Step

namespace ScriptSet

/-- The steps before the first malformed one, and whether there was none. -/
def steps : List Json → Sequence × Bool
  | [] => ([], true)
  | v :: vs =>
    match Step.ofJson? v with
    | some step =>
      let rest := steps vs
      (step :: rest.1, rest.2)
    | none => ([], false)

/-- The sequences up to the first malformed value. A sequence that breaks off is kept as far as it
goes, and it is the last. -/
def sequencesOf : List Json → List Sequence
  | .array vs :: rest =>
    match steps vs with
    | (seq, true) => seq :: sequencesOf rest
    | (seq, false) => [seq]
  | _ => []

/-- The set that an entry stands for. -/
def ofJson? (entry : Json) : Option ScriptSet :=
  match entry.field? "name", entry.field? "list" with
  | some (.string name), some (.array list) => some ⟨name, sequencesOf list⟩
  | _, _ => none

end ScriptSet

namespace Document

/-- The sets of a document. -/
def ofJson : Json → Except LoadError (List ScriptSet)
  | .array entries => .ok (entries.filterMap ScriptSet.ofJson?)
  | _ => .error .notArray

/-- The sets of a text. -/
def read (text : String) : Except LoadError (List ScriptSet) :=
  match Json.read? text with
  | some v => ofJson v
  | none => .error .notJson

/-- The sets of a file, from its text or the reason why it has none. -/
def load : Except FileError String → Except LoadError (List ScriptSet)
  | .ok text => read text
  | .error e => .error (.unreadable e)

/-- The number with the value of a scalar. -/
def number (x : Scalar) : Json := .number (.float x.widen)

/-- The object that spells out a step. -/
def stepJson (step : Step) : Json :=
  let (a, b, c) := step.params
  .object [("type", .string step.kind.keyword), ("args", .array [number a, number b, number c])]

/-- The entry that spells out a set. -/
def setJson (s : ScriptSet) : Json :=
  .object [("name", .string s.name),
    ("list", .array (s.sequences.map fun seq => .array (seq.map stepJson)))]

/-- The document that spells out a list of sets. -/
def toJson (sets : List ScriptSet) : Json := .array (sets.map setJson)

end Document

end MotionScript
