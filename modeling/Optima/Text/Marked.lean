namespace Optima

/-!
# Marked passages

A passage of a text is marked by a character before it and a character behind it.
-/

namespace Marked

mutual

/-- A text with every marked passage replaced. -/
def replace (opening closing : Char) (replacement : List Char) : List Char → List Char
  | [] => []
  | character :: rest =>
    if character == opening then replacement ++ afterPassage opening closing replacement rest
    else character :: replace opening closing replacement rest

/-- What follows a marked passage, with every marked passage in it replaced. -/
def afterPassage (opening closing : Char) (replacement : List Char) : List Char → List Char
  | [] => []
  | character :: rest =>
    if character == closing then replace opening closing replacement rest
    else afterPassage opening closing replacement rest

end

end Marked

end Optima
