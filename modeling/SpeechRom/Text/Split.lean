/-!
Cutting text into pieces, and finding one text inside another.
-/

namespace SpeechRom.Text

/-- The pieces between separators. There is always one piece more than there are separators,
so empty text is one empty piece.
-/
def splitOn (separates : Char → Bool) (chars : List Char) : List (List Char) :=
  chars.foldr
    (fun c pieces =>
      if separates c then [] :: pieces
      else
        match pieces with
        | [] => [[c]]
        | piece :: rest => (c :: piece) :: rest)
    [[]]

/-- The lines of a text, without their line feeds. -/
def lines (text : String) : List (List Char) :=
  splitOn (· == '\n') text.toList

/-- The lines of a text as strings. -/
def lineStrings (text : String) : List String :=
  (lines text).map String.ofList

/-- Lines that each end in a line feed, as one text. -/
def unlines (lines : List String) : String :=
  lines.foldl (fun text line => text ++ line ++ "\n") ""

/-- Whether the first list stands somewhere inside the second. -/
def isInside (part : List Char) : List Char → Bool
  | [] => part.isEmpty
  | c :: rest => part.isPrefixOf (c :: rest) || isInside part rest

/-- Whether a text contains another. Every text contains the empty one. -/
def contains (text part : String) : Bool :=
  isInside part.toList text.toList

end SpeechRom.Text
