namespace Optima

/-!
# Labels

Choices in a document are written as labels.  A labelled type lists its values
and names each of them; reading a label is looking it up in that list.
-/

/-- A type of finitely many values that are written as labels. -/
class Labelled (β : Type) where
  /-- Every value, in the order in which they are listed to a reader. -/
  all : List β
  /-- The written form of a value. -/
  label : β → String

export Labelled (label)

namespace Labelled

/-- The value that a label stands for. -/
def ofLabel? {β : Type} [Labelled β] (text : String) : Option β :=
  (all (β := β)).find? fun value => label value == text

end Labelled

end Optima
