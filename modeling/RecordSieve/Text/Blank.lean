/-!
# RecordSieve.Text.Blank

The Unicode property *White_Space*: what separates the tokens of a query and
what counts as an empty line or an empty clause.
-/

namespace RecordSieve.Text

/-- Whether `c` is white space: the ASCII controls from tab to carriage return,
space, next line, no-break space and the spaces and separators of the blocks
above. Zero-width characters are not white space. -/
def isBlank (c : Char) : Bool :=
  let n := c.toNat
  (0x9 ≤ n && n ≤ 0xD) || n == 0x20 || n == 0x85 || n == 0xA0 || n == 0x1680 ||
    (0x2000 ≤ n && n ≤ 0x200A) || n == 0x2028 || n == 0x2029 || n == 0x202F ||
    n == 0x205F || n == 0x3000

/-- Whether a text holds nothing but white space. -/
def allBlank (cs : List Char) : Bool :=
  cs.all isBlank

@[simp] theorem allBlank_nil : allBlank [] = true := rfl

@[simp] theorem allBlank_cons (c : Char) (cs : List Char) :
    allBlank (c :: cs) = (isBlank c && allBlank cs) := rfl

/-- A joined text is blank when both parts are. -/
@[simp] theorem allBlank_append (xs ys : List Char) :
    allBlank (xs ++ ys) = (allBlank xs && allBlank ys) := by
  simp [allBlank]

end RecordSieve.Text
