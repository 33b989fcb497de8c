/-!
# Character classes

The Unicode property `White_Space`, the control characters of category `Cc`, and
trimming of text by the former.  Both classes are closed sets of code points.
-/

namespace Handoff.Text

/-- The code points with the Unicode property `White_Space`. -/
def isBlank (c : Char) : Bool :=
  let n := c.toNat
  (0x9 ≤ n && n ≤ 0xd) || n == 0x20 || n == 0x85 || n == 0xa0 || n == 0x1680 ||
    (0x2000 ≤ n && n ≤ 0x200a) || n == 0x2028 || n == 0x2029 || n == 0x202f ||
    n == 0x205f || n == 0x3000

/-- The control characters: C0, delete, and C1. -/
def isControl (c : Char) : Bool :=
  c.toNat < 0x20 || (0x7f ≤ c.toNat && c.toNat ≤ 0x9f)

def trimBlanks (s : List Char) : List Char :=
  ((s.dropWhile isBlank).reverse.dropWhile isBlank).reverse

def trim (s : String) : String :=
  String.ofList (trimBlanks s.toList)

theorem trimBlanks_of_forall {s : List Char} (h : ∀ c ∈ s, isBlank c = false) :
    trimBlanks s = s := by
  have head : ∀ t : List Char, (∀ c ∈ t, isBlank c = false) → t.dropWhile isBlank = t := by
    intro t ht
    cases t with
    | nil => rfl
    | cons c t => simp [ht c List.mem_cons_self]
  unfold trimBlanks
  rw [head s h, head s.reverse (by simpa using h), List.reverse_reverse]

theorem trim_of_forall {s : String} (h : ∀ c ∈ s.toList, isBlank c = false) : trim s = s := by
  rw [trim, trimBlanks_of_forall h, String.ofList_toList]

end Handoff.Text
