/-!
# Blank characters

The characters with the Unicode property `White_Space`, and texts without them at their ends.

* `Text.isBlank`: the property.
* `Text.trim`: a text without blanks in front and behind.
* `Text.lines`: the lines of a text.
-/

namespace MotionScript.Text

/-- The property `White_Space`. -/
def isBlank (c : Char) : Bool :=
  let n := c.toNat
  (0x09 ≤ n && n ≤ 0x0d) || n == 0x20 || n == 0x85 || n == 0xa0 || n == 0x1680 ||
    (0x2000 ≤ n && n ≤ 0x200a) || n == 0x2028 || n == 0x2029 || n == 0x202f || n == 0x205f ||
    n == 0x3000

/-- What core takes for white space is blank. -/
theorem isBlank_of_isWhitespace {c : Char} (h : c.isWhitespace) : isBlank c := by
  simp only [Char.isWhitespace, Bool.or_eq_true, decide_eq_true_eq] at h
  rcases h with ((rfl | rfl) | rfl) | rfl <;> decide

/-- A text without the blanks at its ends. -/
def trim (cs : List Char) : List Char :=
  ((cs.dropWhile isBlank).reverse.dropWhile isBlank).reverse

/-- The lines of a text. What follows the last line feed is a line too. -/
def lines : List Char → List (List Char)
  | [] => [[]]
  | '\n' :: cs => [] :: lines cs
  | c :: cs =>
    match lines cs with
    | line :: rest => (c :: line) :: rest
    | [] => [[c]]

end MotionScript.Text
