import LiveGraph.Text.Range

/-!
# Blanks, words and lines

The characters that count as white space in Unicode, the words between them, and the lines of a
text.
-/

namespace LiveGraph

namespace Text

/-- The ranges of white space. -/
def blankRanges : CodeRanges :=
  [(0x09, 0x0d), (0x20, 0x20), (0x85, 0x85), (0xa0, 0xa0), (0x1680, 0x1680), (0x2000, 0x200a),
    (0x2028, 0x2029), (0x202f, 0x202f), (0x205f, 0x205f), (0x3000, 0x3000)]

/-- The character is white space. -/
def isBlank (c : Char) : Bool := blankRanges.has c

/-- Cuts characters into words at white space; `word` is the word read so far, last character
first. -/
def cutWords (word : List Char) : List Char → List String
  | [] => if word.isEmpty then [] else [String.ofList word.reverse]
  | c :: cs =>
    if isBlank c then
      if word.isEmpty then cutWords [] cs else String.ofList word.reverse :: cutWords [] cs
    else cutWords (c :: word) cs

/-- The words of a text. -/
def words (s : String) : List String := cutWords [] s.toList

/-- The text has nothing but white space. -/
def isBlankLine (s : String) : Bool := s.toList.all isBlank

/-- Cuts characters into lines. A line ends with a line feed, and a carriage return in front of it
belongs to the end; characters behind the last end are a line too. `line` is the line read so far,
last character first. -/
def cutLines (line : List Char) : List Char → List String
  | [] => if line.isEmpty then [] else [String.ofList line.reverse]
  | c :: cs =>
    if c = '\n' then
      let line := match line with
        | '\r' :: line => line
        | line => line
      String.ofList line.reverse :: cutLines [] cs
    else cutLines (c :: line) cs

/-- The lines of a text. -/
def lines (s : String) : List String := cutLines [] s.toList

end Text

end LiveGraph
