/-! Dotted names: parts, first and last component. -/
namespace SharedState.Text

/-- The pieces between the occurrences of a separator; a text without one is a single piece. -/
def pieces (sep : Char) : List Char → List (List Char)
  | [] => [[]]
  | c :: rest =>
    if c = sep then [] :: pieces sep rest
    else match pieces sep rest with
      | [] => [[c]]
      | head :: tail => (c :: head) :: tail

def components (name : String) : List String := (pieces '.' name.toList).map String.ofList

def dotted (parts : List String) : String := ".".intercalate parts

def qualifier (name : String) : String := dotted (components name).dropLast

def leaf (name : String) : String := (components name).getLast?.getD ""

def headPart (name : String) : String := (components name).head?.getD ""

def tailParts (name : String) : String := dotted (components name).tail

end SharedState.Text
