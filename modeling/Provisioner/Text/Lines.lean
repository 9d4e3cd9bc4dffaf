/-!
# Cutting a text into lines

A line ends at a line feed; one carriage return in front of the line feed belongs to the line's
end. The piece behind the last line feed is a line too unless it is empty, and keeps a carriage
return at its end.
-/

namespace Provisioner.Text

/-- A line, given last character first, without the carriage return in front of its line feed. -/
def dropReturn : List Char → List Char
  | '\r' :: line => line
  | line => line

/-- The work of `lines`: `line` is the current line and `done` the earlier lines, both last first. -/
def linesFrom (line : List Char) (done : List (List Char)) : List Char → List (List Char)
  | [] => (if line.isEmpty then done else line.reverse :: done).reverse
  | c :: text =>
    if c = '\n' then linesFrom [] ((dropReturn line).reverse :: done) text
    else linesFrom (c :: line) done text

/-- The lines of a text. -/
def lines (text : List Char) : List (List Char) := linesFrom [] [] text

/-- Earlier lines stand in front. -/
theorem linesFrom_eq_append (line : List Char) (done : List (List Char)) (text : List Char) :
    linesFrom line done text = done.reverse ++ linesFrom line [] text := by
  induction text generalizing line done with
  | nil => by_cases h : line.isEmpty <;> simp [linesFrom, h]
  | cons c text ih =>
    simp only [linesFrom]
    split
    · rw [ih [] (_ :: done), ih [] [_]]
      simp
    · exact ih (c :: line) done

end Provisioner.Text
