/-!
Lines of a text. A line ends with a line feed, and a carriage return right before it belongs to the
line ending.
-/
namespace FrontToc.Text

/-- The lines of a text, each with its line feed; putting them together gives the text back. -/
def splitLines : List Char → List (List Char)
  | [] => []
  | c :: cs =>
    if c = '\n' then [c] :: splitLines cs
    else match splitLines cs with
      | [] => [[c]]
      | l :: ls => (c :: l) :: ls

def dropFinal (c : Char) (s : List Char) : List Char :=
  if s.getLast? = some c then s.dropLast else s

/-- A line without its line feed and without a carriage return before that. A carriage return at the
end of a line without a line feed goes too. -/
def trimLineEnd (line : List Char) : List Char :=
  dropFinal '\r' (dropFinal '\n' line)

def lineEnd (line : List Char) : List Char :=
  line.drop (trimLineEnd line).length

/-- A line as a reader sees it: without its line feed and the carriage return before it. Where there
is no line feed the line stays as it is. -/
def lineContent (line : List Char) : List Char :=
  if line.getLast? = some '\n' then dropFinal '\r' line.dropLast else line

/-- The lines of a text without their endings. -/
def lines (s : List Char) : List (List Char) :=
  (splitLines s).map lineContent

/-- The number of bytes of a text in UTF-8. -/
def byteLength : List Char → Nat
  | [] => 0
  | c :: cs => c.utf8Size + byteLength cs

theorem flatten_splitLines (s : List Char) : (splitLines s).flatten = s := by
  induction s with
  | nil => rfl
  | cons c cs ih =>
    by_cases h : c = '\n'
    · simp [splitLines, h, ih]
    · simp only [splitLines, h, if_false]
      split
      · next hs => simp_all
      · next l ls hs => rw [hs] at ih; simp_all

theorem byteLength_append (s t : List Char) : byteLength (s ++ t) = byteLength s + byteLength t := by
  induction s with
  | nil => simp [byteLength]
  | cons c cs ih => simp [byteLength, ih, Nat.add_assoc]

theorem length_le_byteLength (s : List Char) : s.length ≤ byteLength s := by
  induction s with
  | nil => exact Nat.le_refl 0
  | cons c cs ih =>
    have := c.utf8Size_pos
    rw [List.length_cons, byteLength]
    omega

end FrontToc.Text
