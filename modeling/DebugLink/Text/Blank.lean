/-! Blank characters, and what is left of a text without them: the text cut at both ends, and its
words. Blank is what Unicode calls white space, 25 characters of which only six are ASCII. -/

namespace DebugLink.Text

/-- The characters with the Unicode property `White_Space`. -/
def isBlank (c : Char) : Bool :=
  let n := c.toNat
  (9 ≤ n && n ≤ 13) || n == 0x20 || n == 0x85 || n == 0xA0 || n == 0x1680 ||
    (0x2000 ≤ n && n ≤ 0x200A) || n == 0x2028 || n == 0x2029 || n == 0x202F || n == 0x205F ||
    n == 0x3000

/-- The characters without the blanks they end in. -/
def dropBlankEnd (cs : List Char) : List Char := (cs.reverse.dropWhile isBlank).reverse

/-- The characters without the blanks they begin and end in. -/
def trimChars (cs : List Char) : List Char := dropBlankEnd (cs.dropWhile isBlank)

def trimEnd (s : String) : String := String.ofList (dropBlankEnd s.toList)

def trim (s : String) : String := String.ofList (trimChars s.toList)

/-- Nothing but blanks, or nothing at all. -/
def allBlank (s : String) : Bool := s.toList.all isBlank

/-- The word collected so far, if it has begun. -/
def flushWord : List Char → List String
  | [] => []
  | word => [String.ofList word]

/-- The words of the characters still to come, the first one begun with `word`. -/
def wordsFrom (word : List Char) : List Char → List String
  | [] => flushWord word
  | c :: cs => if isBlank c then flushWord word ++ wordsFrom [] cs else wordsFrom (word ++ [c]) cs

/-- The longest runs of characters that are not blank, in order. -/
def words (s : String) : List String := wordsFrom [] s.toList

end DebugLink.Text
