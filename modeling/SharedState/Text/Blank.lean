/-! White space at either end of a text. -/
namespace SharedState.Text

/-- White space of any script, with the four separators U+001C to U+001F. -/
def isBlank (c : Char) : Bool :=
  let n := c.toNat
  (9 ≤ n && n ≤ 13) || (28 ≤ n && n ≤ 32) || n == 0x85 || n == 0xA0 || n == 0x1680 ||
  (0x2000 ≤ n && n ≤ 0x200A) || n == 0x2028 || n == 0x2029 || n == 0x202F || n == 0x205F ||
  n == 0x3000

def trimWhile (p : Char → Bool) (cs : List Char) : List Char :=
  ((cs.dropWhile p).reverse.dropWhile p).reverse

def strip (s : String) : String := String.ofList (trimWhile isBlank s.toList)

def dropLeading (c : Char) (s : String) : String := String.ofList (s.toList.dropWhile (· == c))

theorem dropWhileLength (p : Char → Bool) (cs : List Char) : (cs.dropWhile p).length ≤ cs.length := by
  induction cs with
  | nil => simp
  | cons c rest ih =>
    rw [List.dropWhile_cons]
    split
    · exact Nat.le_succ_of_le ih
    · exact Nat.le_refl _

theorem trimWhileLength (p : Char → Bool) (cs : List Char) : (trimWhile p cs).length ≤ cs.length := by
  have inner := dropWhileLength p cs
  have outer := dropWhileLength p (cs.dropWhile p).reverse
  simp only [trimWhile, List.length_reverse] at *
  omega

end SharedState.Text
