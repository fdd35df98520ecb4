import MotionScript.Script.Document

/-!
# Script libraries

The sets that have been loaded, by name. The first set of a name stays; later ones are refused.

* `ScriptLibrary.insert`: adds a set unless its name is taken.
* `ScriptLibrary.get?`: the set with a name.
* `ScriptLibrary.names`: the names, in the order in which they came.
* `ScriptLibrary.read`, `ScriptLibrary.load`: the library of a script document.
-/

namespace MotionScript

/-- Script sets under their names, and beside them the names in the order in which they came. -/
structure ScriptLibrary where
  /-- The sets under their names. -/
  scripts : List (String × ScriptSet) := []
  /-- The names in the order in which they came. -/
  order : List String := []
deriving BEq, DecidableEq, Repr

namespace ScriptLibrary

/-- The library without sets. -/
def empty : ScriptLibrary := {}

/-- The set with a name. -/
def get? (l : ScriptLibrary) (name : String) : Option ScriptSet := l.scripts.lookup name

/-- The set that came first. -/
def first? (l : ScriptLibrary) : Option ScriptSet := l.order.head?.bind l.get?

/-- The names in the order in which they came. -/
def names (l : ScriptLibrary) : List String := l.order

/-- The sets in the order in which they came. -/
def sets (l : ScriptLibrary) : List ScriptSet := l.order.filterMap l.get?

/-- The number of sets. -/
def size (l : ScriptLibrary) : Nat := l.order.length

/-- There are no sets. -/
def isEmpty (l : ScriptLibrary) : Bool := l.order.isEmpty

/-- Adds a set unless its name is taken, and tells whether it did. -/
def insert (l : ScriptLibrary) (s : ScriptSet) : ScriptLibrary × Bool :=
  if (l.get? s.name).isSome then (l, false)
  else ({ scripts := (s.name, s) :: l.scripts, order := l.order ++ [s.name] }, true)

/-- Adds sets one after the other. -/
def extend (l : ScriptLibrary) (sets : List ScriptSet) : ScriptLibrary :=
  sets.foldl (fun l s => (l.insert s).1) l

/-- The library of a list of sets. -/
def ofList (sets : List ScriptSet) : ScriptLibrary := empty.extend sets

/-- The library of a text. -/
def read (text : String) : Except LoadError ScriptLibrary := (Document.read text).map ofList

/-- The library of a file, from its text or the reason why it has none. -/
def load (file : Except FileError String) : Except LoadError ScriptLibrary :=
  (Document.load file).map ofList

end ScriptLibrary

end MotionScript
