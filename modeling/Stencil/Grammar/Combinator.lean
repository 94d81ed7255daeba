import Stencil.Grammar.Tag
import Stencil.Value.Basic

/-!
# Ways to combine parsers

Parsers of outputs, which may be anything, are put together by choice, sequence and repetition. Outputs that are
skipped do not enter a list. `suffixing_rule` says that what any rule of the grammar leaves is a suffix.
-/

namespace Stencil.Grammar

open Stencil.Parser

/-! ### Outputs -/

inductive Output where
  | skip
  | text (t : Text)
  | node (n : Node)
  | value (v : Value)
  | list (items : List Output)

def Output.isSkip : Output → Bool
  | skip => true
  | _ => false

/-- The values that are not skipped, as a list. -/
def collect (vs : List Output) : Output := .list (vs.filter (!·.isSkip))

/-! ### Patterns -/

/-- What a pattern matches at a place, which may depend on the text that stands before the place. -/
structure Matcher where
  matchAt : Text → Parser Text
  append : ∀ {before s t r : Text}, matchAt before s = some (t, r) → t ++ r = s

namespace Matcher

def start (m : Matcher) : Parser Text := m.matchAt []

/-- The text cut at the first place where the pattern matches, when `before` stands in front of the text. -/
def cut (m : Matcher) (before : Text) : Text → Text × Text
  | [] => ([], [])
  | c :: s =>
    if (m.matchAt before (c :: s)).isSome then ([], c :: s)
    else
      let (t, r) := m.cut (before ++ [c]) s
      (c :: t, r)

def upTo (m : Matcher) : Parser Text := fun s => some (m.cut [] s)

end Matcher

/-! ### Combinations -/

/-- The first of the parsers that reads. -/
def choice : List (Parser Output) → Parser Output
  | [] => fail
  | p :: ps => p <|> choice ps

def sequence : List (Parser Output) → Parser (List Output)
  | [] => pure []
  | p :: ps => do
    let v ← p
    return v :: (← sequence ps)

def repetition (p : Parser Output) : Parser Output := collect <$> repeated p

/-! ### Rules -/

/-- The rules of the grammar that stand alone. -/
inductive Rule where
  | text
  | name
  | primitive
  | valueExpr
  | value
  | escapedTag
  | rawTag
  | helperArgs
  | moreArgs
  | helperTag
  | space
  | openTag
  | closeTag
  | sectionHeader (sense : Sense)
  | sectionOpener
deriving DecidableEq

def Rule.parser : Rule → Parser Output
  | text => .text <$> upTo (literal openBraces)
  | name => .node <$> nameNode
  | primitive => .node <$> primitiveNode
  | valueExpr => .node <$> valueNode
  | value => .node <$> Grammar.value
  | escapedTag => .node <$> Grammar.escapedTag
  | rawTag => .node <$> Grammar.rawTag
  | helperArgs => (fun vs => .node (.args vs)) <$> Grammar.helperArgs
  | moreArgs => (fun vs => .list (vs.map .node)) <$> Grammar.moreArgs
  | helperTag => .node <$> Grammar.helperTag
  | space => (fun _ => .skip) <$> blanks
  | openTag => (fun _ => .skip) <$> literal openBraces
  | closeTag => (fun _ => .skip) <$> literal closeBraces
  | sectionHeader sense => (fun n => .node (.name n)) <$> Grammar.sectionHeader sense
  | sectionOpener => (fun n => .list [.node (.name n)]) <$> Grammar.sectionOpener

theorem suffixing_rule (r : Rule) : Suffixing r.parser := by
  cases r with
  | text => exact suffixing_map (suffixing_upTo _)
  | name => exact suffixing_map (suffixing_map suffixing_nameToken)
  | primitive => exact suffixing_map (suffixing_map suffixing_literalToken)
  | valueExpr =>
    exact suffixing_map (suffixing_orElse (suffixing_map suffixing_literalToken)
      (suffixing_map suffixing_nameToken))
  | value => exact suffixing_map suffixing_value
  | escapedTag => exact suffixing_map (suffixing_map suffixing_value)
  | rawTag =>
    exact suffixing_map <| suffixing_bind (suffixing_literal _) fun _ => suffixing_bind suffixing_value fun _ =>
      suffixing_bind (suffixing_literal _) fun _ => suffixing_pure _
  | helperArgs => exact suffixing_map suffixing_helperArgs
  | moreArgs => exact suffixing_map suffixing_moreArgs
  | helperTag => exact suffixing_map suffixing_helperTag
  | space => exact suffixing_map suffixing_blanks
  | openTag | closeTag => exact suffixing_map (suffixing_literal _)
  | sectionHeader sense => exact suffixing_map (suffixing_sectionHeader sense)
  | sectionOpener =>
    exact suffixing_map (suffixing_bind (suffixing_literal _) fun _ => suffixing_map suffixing_sectionHead)

end Stencil.Grammar
