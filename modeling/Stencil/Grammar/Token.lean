import Stencil.Node.Printer
import Stencil.Parser.Basic
import Stencil.Text.Digit

/-!
# Tokens

Names and literals, as they stand in tags. `suffixing_nameToken` and `suffixing_literalToken` say that reading
them leaves a suffix.
-/

namespace Stencil.Grammar

open Stencil.Parser

/-! ### Names -/

/-- Letters of names: the Latin ones, and the four others that are one of those but for case. -/
def isLetter (c : Char) : Bool :=
  c.isAlpha || c = '\u017F' || c = '\u212A' || c = '\u0130' || c = '\u0131'

def isInitial (c : Char) : Bool := isLetter c || c = '_' || c = '$'

def isInner (c : Char) : Bool := isInitial c || c.isDigit

/-- The longest run that goes on with a dotted name: a point belongs to it if an identifier follows. -/
def nameTail : Text → Text × Text
  | [] => ([], [])
  | c :: s =>
    if isInner c || (c = '.' && (s.head?.any isInitial)) then
      let (t, r) := nameTail s
      (c :: t, r)
    else ([], c :: s)

def nameToken : Parser Text
  | c :: s => if isInitial c then let (t, r) := nameTail s; some (c :: t, r) else none
  | [] => none

/-! ### Literals -/

/-- A quote, anything but that quote, and the quote again. -/
def stringToken (quote : Char) : Parser Text := do
  let _ ← literal [quote]
  let inner ← run (· != quote)
  let _ ← literal [quote]
  return quote :: inner ++ [quote]

def digitsToken : Parser Text := do
  let d ← satisfy Text.isDigit
  return d :: (← run Text.isDigit)

/-- The fraction of a number with its point, if there is one. -/
def fractionToken : Parser Text :=
  (do let _ ← literal ['.']; return '.' :: (← digitsToken)) <|> pure []

def numberToken : Parser Text := do
  let whole ← digitsToken
  return whole ++ (← fractionToken)

/-- Characters that make a name of a word that they follow. -/
def extendsWord (c : Char) : Bool := c.isAlphanum || c = '_' || c = '$' || c = '.'

/-- The word, where no character follows that makes a longer one of it. -/
def wordToken (word : Text) : Parser Text := fun s =>
  (literal word s).filter fun (_, r) => !(r.head?.any extendsWord)

def booleanToken : Parser Text := wordToken "true".toList <|> wordToken "false".toList

def literalToken : Parser Text :=
  stringToken '\'' <|> stringToken '"' <|> numberToken <|> booleanToken

/-! ### What tokens leave -/

theorem nameTail_append (s : Text) : (nameTail s).1 ++ (nameTail s).2 = s := by
  induction s with
  | nil => rfl
  | cons c s ih => unfold nameTail; split <;> simp [ih]

theorem nameToken_append {s t r : Text} (h : nameToken s = some (t, r)) : t ++ r = s := by
  cases s with
  | nil => cases h
  | cons c s =>
    simp only [nameToken, Option.ite_none_right_eq_some, Option.some.injEq, Prod.mk.injEq] at h
    obtain ⟨-, rfl, rfl⟩ := h
    simp [nameTail_append]

theorem suffixing_nameToken : Suffixing nameToken := fun _ _ _ h => ⟨_, nameToken_append h⟩

theorem suffixing_stringToken (quote : Char) : Suffixing (stringToken quote) :=
  suffixing_bind (suffixing_literal _) fun _ => suffixing_bind (suffixing_run _) fun _ =>
    suffixing_bind (suffixing_literal _) fun _ => suffixing_pure _

theorem suffixing_digitsToken : Suffixing digitsToken :=
  suffixing_bind (suffixing_satisfy _) fun _ => suffixing_bind (suffixing_run _) fun _ => suffixing_pure _

theorem suffixing_numberToken : Suffixing numberToken :=
  suffixing_bind suffixing_digitsToken fun _ =>
    suffixing_bind
      (suffixing_orElse
        (suffixing_bind (suffixing_literal _) fun _ =>
          suffixing_bind suffixing_digitsToken fun _ => suffixing_pure _)
        (suffixing_pure _))
      fun _ => suffixing_pure _

theorem suffixing_wordToken (word : Text) : Suffixing (wordToken word) := by
  intro s t a h
  exact suffixing_literal _ (Option.filter_eq_some_iff.1 h).1

theorem suffixing_literalToken : Suffixing literalToken :=
  suffixing_orElse (suffixing_stringToken _) <|
    suffixing_orElse (suffixing_stringToken _) <|
      suffixing_orElse suffixing_numberToken <|
        suffixing_orElse (suffixing_wordToken _) (suffixing_wordToken _)

end Stencil.Grammar
