import FusionAtlas.Text.Basic

/-!
Full names of classes: parts joined by backslashes. In a string literal a backslash may be written
twice, and a name may start with backslashes.
-/

set_option autoImplicit false
set_option relaxedAutoImplicit false

namespace FusionAtlas.ClassName

/-- Write a doubled backslash once, from left to right. -/
def mergeDoubled : List Char → List Char
  | '\\' :: '\\' :: rest => '\\' :: mergeDoubled rest
  | c :: rest => c :: mergeDoubled rest
  | [] => []

def dropLeading (name : List Char) : List Char := name.dropWhile (· == '\\')

/-- The name that a string literal stands for. -/
def collapse (raw : List Char) : List Char := dropLeading (mergeDoubled raw)

/-- The last part of a name. -/
def shortName (name : List Char) : List Char := Text.afterLast '\\' name

end FusionAtlas.ClassName
