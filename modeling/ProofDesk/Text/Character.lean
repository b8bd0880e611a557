import ProofDesk.Text.WordRanges

/-!
Character classes of written text.  A name is a run of word characters and the space between names
is blank; both classes are those of the Unicode standard, so a Greek letter or an accented one may
stand in a name and a no-break space separates two of them.
-/

namespace ProofDesk.Text

/-- Word characters: ASCII letters, digits and the underscore, and above ASCII the ranges listed. -/
def isWord (c : Char) : Bool :=
  if c.toNat < 128 then c.isAlphanum || c == '_'
  else wordRanges.any fun (first, last) => first ≤ c.toNat && c.toNat ≤ last

def isBlank (c : Char) : Bool :=
  let n := c.toNat
  (9 ≤ n && n ≤ 13) || n == 0x20 || n == 0x85 || n == 0xa0 || n == 0x1680 ||
    (0x2000 ≤ n && n ≤ 0x200a) || n == 0x2028 || n == 0x2029 || n == 0x202f || n == 0x205f ||
    n == 0x3000

end ProofDesk.Text
