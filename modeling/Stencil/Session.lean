import Stencil.Template

/-!
# Reading with a state

A template is read by a reader that keeps all it knows in one state: the problems so far, a mark for a body that
was refused, and a stack with the number of characters behind each of the texts that it is in the middle of. The
depth of a section is the height of this stack. `readTag_shorter` says that a tag leaves less than there was.
-/

namespace Stencil

open Grammar Stencil.Parser

structure Session where
  limit : Int
  source : Text
  /-- What stands behind each text that is being read, in characters, the innermost text first. -/
  trailing : List Nat
  diagnostics : List Diagnostic
  /-- A body has been refused, and the tag around it is not reported yet. -/
  tooDeep : Bool

namespace Session

/-- Reads the body of a section, with this many characters behind it in the text around it. -/
abbrev Body := Nat → Session → Option (List Node) × Session

/-! ### Tags -/

/-- Reports the text of a tag that fails, and takes the mark away. -/
def report (s : Text) (trailing : Nat) (st : Session) : Session :=
  let cause :=
    if st.tooDeep then .refused
    else match sectionOpener s with
      | some (name, _) => .unterminated name
      | none => .malformed
  let fault : Fault := ⟨cause, trailing + s.length⟩
  { st with diagnostics := st.diagnostics ++ [fault.diagnostic st.source st.limit], tooDeep := false }

theorem body_shorter {inner name rest : Text} {sense : Sense} {e : Ending}
    (headed : sectionHead inner = some ((sense, name), rest)) (found : findEnd name rest = some e) :
    e.body.length ≤ inner.length := by
  have whole := findEnd_append found
  have behind := (suffixing_sectionHead headed).length_le
  rw [← whole, List.length_append] at behind
  omega

def readSection (inner : Text) (body : (b : Text) → b.length ≤ inner.length → Body) (st : Session) :
    Option (Node × Text) × Session :=
  match headed : sectionHead inner with
  | none => (none, st)
  | some ((sense, name), rest) =>
    match found : findEnd name rest with
    | none => (none, st)
    | some e =>
      match body e.body (body_shorter headed found) e.marker.length st with
      | (none, st) => (none, st)
      | (some nodes, st) => (some (.block sense (.name name) nodes, e.closing), st)

theorem inner_shorter {s braces inner : Text} (opened : literal openBraces s = some (braces, inner)) :
    inner.length < s.length := by
  obtain ⟨-, rfl⟩ := literal_eq_some.mp opened
  rw [List.length_append]
  exact Nat.lt_add_of_pos_left (by decide)

/-- Tries the rules for what stands between braces in turn. -/
def readTag (s : Text) (body : (b : Text) → b.length < s.length → Body) (st : Session) :
    Option (Node × Text) × Session :=
  match opened : literal openBraces s with
  | none => (none, st)
  | some (_, inner) =>
    match (escapedTag <|> rawTag) inner with
    | some (n, rest) => ((closed n rest).toOption, st)
    | none =>
      match readSection inner (fun b within => body b (Nat.lt_of_le_of_lt within (inner_shorter opened))) st with
      | (some (n, rest), st) => ((closed n rest).toOption, st)
      | (none, st) => ((helperTag inner).bind fun (n, rest) => (closed n rest).toOption, st)

theorem closed_shorter {n m : Node} {inner t rest : Text} (within : t <:+ inner)
    (done : (closed n t).toOption = some (m, rest)) : rest.length ≤ inner.length := by
  cases result : closed n t with
  | error cause =>
    rw [result] at done
    cases done
  | ok tagged =>
    rw [result] at done
    obtain rfl := Option.some.inj done
    have behind := within.length_le
    rw [(closed_ok result).2, List.length_append] at behind
    omega

theorem readSection_suffix {inner rest : Text} {body : (b : Text) → b.length ≤ inner.length → Body} {st st' : Session}
    {n : Node} (read : readSection inner body st = (some (n, rest), st')) : rest <:+ inner := by
  unfold readSection at read
  split at read
  · cases read
  · next headed =>
    split at read
    · cases read
    · next found =>
      split at read
      · cases read
      · cases read
        exact (findEnd_closing_suffix found).trans (suffixing_sectionHead headed)

/-- A tag that is read takes at least its opening braces away. -/
theorem readTag_shorter {s rest : Text} {body : (b : Text) → b.length < s.length → Body} {st st' : Session} {n : Node}
    (read : readTag s body st = (some (n, rest), st')) : rest.length < s.length := by
  unfold readTag at read
  split at read
  · cases read
  · next opened =>
    refine Nat.lt_of_le_of_lt ?_ (inner_shorter opened)
    have tagged := congrArg Prod.fst read
    split at tagged
    · next value => exact closed_shorter (suffixing_valueTag value) tagged
    · split at tagged
      · next body => exact closed_shorter (readSection_suffix body) tagged
      · obtain ⟨_, call, closes⟩ := Option.bind_eq_some_iff.mp tagged
        exact closed_shorter (suffixing_helperTag call) closes

/-! ### Texts and tags in turn -/

mutual

/-- Reads a body, unless the stack is too high. -/
def readBody (b : Text) (after : Nat) (st : Session) : Option (List Node) × Session :=
  if st.limit < st.trailing.length then (none, { st with tooDeep := true })
  else
    let read := readNodes b (st.trailing.headD 0 + after) st
    (some read.1, read.2)
termination_by (b.length, 2)

/-- Reads a text with `trailing` characters behind it, which stand on the stack meanwhile. -/
def readNodes (s : Text) (trailing : Nat) (st : Session) : List Node × Session :=
  let read := readOn s trailing { st with trailing := trailing :: st.trailing }
  (read.1, { read.2 with trailing := read.2.trailing.tail })
termination_by (s.length, 1)

def readOn (s : Text) (trailing : Nat) (st : Session) : List Node × Session :=
  match _cut : cutBefore (literal openBraces) s with
  | (plain, []) => (textNodes plain, st)
  | (plain, c :: cs) =>
    match read : readTag (c :: cs) (fun b _shorter => readBody b) st with
    | (none, st) => (textNodes plain ++ [.text (c :: cs)], st.report (c :: cs) trailing)
    | (some (n, rest), st) =>
      let more := readOn rest trailing st
      (textNodes plain ++ n :: more.1, more.2)
termination_by (s.length, 0)
decreasing_by
  all_goals
    have whole := cutBefore_append (literal openBraces) s
    rw [_cut] at whole
    have left := congrArg List.length whole
    rw [List.length_append] at left
    apply Prod.Lex.left
  · dsimp only at left
    omega
  · have taken := readTag_shorter read
    dsimp only at left
    omega

end

def read (limit : Int) (source : Text) : List Node × Session := readNodes source 0 ⟨limit, source, [], [], false⟩

def parse (limit : Int) (source : Text) : Template :=
  let (nodes, st) := read limit source
  { nodes, diagnostics := st.diagnostics }

end Session

end Stencil
