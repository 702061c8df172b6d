/-!
# Sorted texts

Texts are ordered by their code points.
-/
namespace QueryLint.Text

/-- Whether a text is the same as another or comes before it. -/
def textLe (a b : String) : Bool := !(b < a)

def sortTexts (items : List String) : List String := items.mergeSort textLe

/-- The different texts among some, in order. -/
def sortedSet (items : List String) : List String := sortTexts items.eraseDups

end QueryLint.Text
