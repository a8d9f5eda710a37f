/-!
# LeagueSync.Text.Blank

Blank characters in the sense of the Unicode property `White_Space`, and trimming. Player names
are trimmed with it, and the lenient timestamp reader skips it between fields.
-/

namespace LeagueSync
namespace Text

/-- The characters with the Unicode property `White_Space`. -/
def isBlank (c : Char) : Bool :=
  let n := c.toNat
  (9 ≤ n && n ≤ 13) || n == 32 || n == 0x85 || n == 0xA0 || n == 0x1680
    || (0x2000 ≤ n && n ≤ 0x200A) || n == 0x2028 || n == 0x2029 || n == 0x202F || n == 0x205F
    || n == 0x3000

def skipBlanks (cs : List Char) : List Char :=
  cs.dropWhile isBlank

def trimBlanks (cs : List Char) : List Char :=
  (skipBlanks (skipBlanks cs).reverse).reverse

/-- `trimBlanks` on strings. -/
def trim (s : String) : String :=
  String.ofList (trimBlanks s.toList)

end Text
end LeagueSync
