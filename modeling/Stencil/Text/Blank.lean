import Stencil.Text.Basic

/-!
# Blanks

The characters that separate words: the Unicode white space together with the four information
separators U+001C to U+001F. `trim_eq_nil_iff` says which texts are blank.
-/

namespace Stencil.Text

/-- White space of Unicode, and the information separators. -/
def isBlank (c : Char) : Bool :=
  let n := c.toNat
  (0x09 ≤ n && n ≤ 0x0D) || (0x1C ≤ n && n ≤ 0x20) || n == 0x85 || n == 0xA0 || n == 0x1680 ||
    (0x2000 ≤ n && n ≤ 0x200A) || n == 0x2028 || n == 0x2029 || n == 0x202F || n == 0x205F ||
    n == 0x3000

def Blanks (w : Text) : Prop := ∀ c ∈ w, isBlank c = true

/-- The text from its first character on that is no blank. -/
def skipBlanks (s : Text) : Text := s.dropWhile isBlank

/-- The text without the characters of `drop` at its two ends. -/
def strip (drop : Char → Bool) (s : Text) : Text :=
  ((s.dropWhile drop).reverse.dropWhile drop).reverse

def trim (s : Text) : Text := strip isBlank s

def trimEnd (s : Text) : Text := (s.reverse.dropWhile isBlank).reverse

theorem dropWhile_eq_nil_iff (p : Char → Bool) (s : Text) :
    s.dropWhile p = [] ↔ ∀ c ∈ s, p c = true := by
  induction s with
  | nil => simp
  | cons c s ih =>
    rw [List.dropWhile_cons]
    split <;> simp_all

theorem trim_eq_nil_iff (s : Text) : trim s = [] ↔ ∀ c ∈ s, isBlank c = true := by
  have hd := List.takeWhile_append_dropWhile (p := isBlank) (l := s)
  constructor
  · intro h
    have h' : ∀ c ∈ s.dropWhile isBlank, isBlank c = true := by
      simpa [trim, strip, dropWhile_eq_nil_iff] using h
    intro c hc
    rw [← hd] at hc
    rcases List.mem_append.1 hc with hc | hc
    · exact (List.all_takeWhile (p := isBlank) (l := s) |> List.all_eq_true.1) c hc
    · exact h' c hc
  · intro h
    simp [trim, strip, (dropWhile_eq_nil_iff isBlank s).2 h]

end Stencil.Text
