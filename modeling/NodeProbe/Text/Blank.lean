/-!
# Blank characters

A character is blank when it has the Unicode property `White_Space`. Texts are
trimmed of blanks and cut into words at blanks.
-/
namespace NodeProbe.Text

/-- The Unicode property `White_Space`. -/
def isBlank (c : Char) : Bool :=
  let n := c.toNat
  (0x9 ≤ n && n ≤ 0xD) || n == 0x20 || n == 0x85 || n == 0xA0 || n == 0x1680 ||
    (0x2000 ≤ n && n ≤ 0x200A) || n == 0x2028 || n == 0x2029 || n == 0x202F || n == 0x205F ||
    n == 0x3000

def trimStart (cs : List Char) : List Char := cs.dropWhile isBlank

def trimEnd (cs : List Char) : List Char := (cs.reverse.dropWhile isBlank).reverse

def trim (cs : List Char) : List Char := trimEnd (trimStart cs)

/-- The non-empty stretches of a text between separators. -/
def pieces (isSeparator : Char → Bool) (cs : List Char) : List (List Char) :=
  (cs.splitOnP isSeparator).filter (!·.isEmpty)

def words (cs : List Char) : List (List Char) := pieces isBlank cs

theorem trimStart_of_no_blank {cs : List Char} (h : ∀ c ∈ cs, isBlank c = false) :
    trimStart cs = cs := by
  cases cs with
  | nil => rfl
  | cons c cs => exact List.dropWhile_cons_of_neg (by rw [h c List.mem_cons_self]; decide)

theorem trim_of_no_blank {cs : List Char} (h : ∀ c ∈ cs, isBlank c = false) : trim cs = cs := by
  have hreverse : ∀ c ∈ cs.reverse, isBlank c = false := fun c hc => h c (List.mem_reverse.mp hc)
  have hend : cs.reverse.dropWhile isBlank = cs.reverse := trimStart_of_no_blank hreverse
  unfold trim trimEnd
  rw [trimStart_of_no_blank h, hend, List.reverse_reverse]

end NodeProbe.Text

def String.trimBlanks (s : String) : String := .ofList (NodeProbe.Text.trim s.toList)
