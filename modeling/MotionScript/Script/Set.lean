import MotionScript.Script.Step

/-!
# Script sets

A script file names sets of sequences, and a sequence is a list of steps in the order in which they
are played.

* `ScriptSet.sequence?`: a sequence by its index.
* `Step.controlPoints`: the points that a path takes from the steps behind it.
-/

namespace MotionScript

/-- The steps of a script in the order in which they are played. -/
abbrev Sequence := List Step

/-- A named list of sequences. -/
structure ScriptSet where
  name : String
  sequences : List Sequence
deriving BEq, DecidableEq, Repr

namespace ScriptSet

/-- The sequence with an index. -/
def sequence? (s : ScriptSet) (index : Nat) : Option Sequence := s.sequences[index]?

end ScriptSet

/-- The control points at the start of a list of steps, at most `count` of them. -/
def Step.controlPoints : (count : Nat) → List Step → List Vec2
  | count + 1, .point p :: rest => p :: controlPoints count rest
  | _, _ => []

end MotionScript
