import Stencil.Proofs.Grammar.Opener

/-!
# Tags by ordered choice

The rule for tags as a choice: one alternative after the other is tried, and closing braces must stand behind
what it reads. `tagRule_eq` says that this is what `tag` does, so no alternative is tried behind a body that was
handed over in vain. `tag_calls` says which body is handed over, once, and what the tag then is.
-/

namespace Stencil.Grammar

open Stencil.Parser
open Node (Framed)

variable {ε : Type} {s : Text}

/-! ### Choices that hand over texts -/

/-- A parser of nodes that may hand over texts on the way, also where it fails. -/
abbrev Alternative (ε : Type) := Text → Traced ε (Option (Node × Text))

def silent (p : Parser Node) : Alternative ε := fun s => pure (p s)

/-- The alternatives in turn, up to the first one that succeeds. -/
def firstOf : List (Alternative ε) → Alternative ε
  | [], _ => pure none
  | p :: ps, s => do
    match ← p s with
    | some read => return some read
    | none => firstOf ps s

theorem firstOf_found {p : Alternative ε} {read : Node × Text} (found : p s = pure (some read))
    (ps : List (Alternative ε)) : firstOf (p :: ps) s = pure (some read) := by
  rw [firstOf, found, pure_bind]

theorem firstOf_skip {p : Alternative ε} (failed : p s = pure none) (ps : List (Alternative ε)) :
    firstOf (p :: ps) s = firstOf ps s := by
  rw [firstOf, failed, pure_bind]

/-- Where the later alternatives fail, the first one decides. -/
theorem firstOf_only (p : Alternative ε) {ps : List (Alternative ε)} (failed : firstOf ps s = pure none) :
    firstOf (p :: ps) s = p s := by
  have rest : (fun read : Option (Node × Text) => match read with
      | some read => pure (some read)
      | none => firstOf ps s) = (pure : _ → Traced ε _) := by
    funext read
    cases read with
    | none => exact failed
    | some read => rfl
  rw [firstOf]
  exact (congrArg (p s >>= ·) rest).trans (bind_pure (p s))

/-! ### The rule for sections -/

def endTag (name : Text) : Parser Unit := fun s => (endMarker name s).map ((), ·)

/-- A section of one sense behind its opening braces. The end marker is searched for, and read again where it
was found. -/
def sectionRule (sense : Sense) (body : BodyReader ε) : Alternative ε := fun s =>
  match sectionHeader sense s with
  | none => pure none
  | some (name, rest) =>
    let (b, r) := cutBefore (endTag name) rest
    if r.isEmpty then pure none
    else match endTag name r with
      | none => pure none
      | some (_, closing) => do
        return (← body b r.length).map fun nodes => (.block sense (.name name) nodes, closing)

theorem endTag_isSome (name : Text) : (fun s => (endTag name s).isSome = true) = Marked name := by
  funext s
  rw [endTag, Option.isSome_map, Marked]

theorem cutBefore_endTag_none {name : Text} (none : findEnd name s = none) :
    cutBefore (endTag name) s = (s, []) := by
  rw [cutBefore_eq_iff, endTag_isSome]
  exact ⟨(List.append_nil s).symm, findEnd_eq_none.mp none, .inl rfl⟩

theorem cutBefore_endTag {name : Text} {e : Ending} (found : findEnd name s = some e) :
    cutBefore (endTag name) s = (e.body, e.marker) ∧ endTag name e.marker = some ((), e.closing) := by
  obtain ⟨rfl, first, marked⟩ := findEnd_eq_some.mp found
  have again : endTag name e.marker = some ((), e.closing) := by rw [endTag, marked, Option.map_some]
  refine ⟨?_, again⟩
  rw [cutBefore_eq_iff, endTag_isSome]
  exact ⟨rfl, first, .inr (by rw [again]; rfl)⟩

theorem sectionRule_none {sense : Sense} (headless : sectionHeader sense s = none) (body : BodyReader ε) :
    sectionRule sense body s = pure none := by
  rw [sectionRule, headless]

/-- The second look finds the end marker of the first. -/
theorem sectionRule_some {sense : Sense} {name rest : Text} (headed : sectionHeader sense s = some (name, rest))
    (body : BodyReader ε) : sectionRule sense body s = match findEnd name rest with
      | none => pure none
      | some e => body e.body e.marker.length >>= fun read =>
          pure (read.map fun nodes => (.block sense (.name name) nodes, e.closing)) := by
  rw [sectionRule, headed]
  cases found : findEnd name rest with
  | none => simp only [cutBefore_endTag_none found, List.isEmpty_nil, if_true]
  | some e =>
    obtain ⟨cut, again⟩ := cutBefore_endTag found
    have filled : e.marker.isEmpty = false := by
      cases marker : e.marker with
      | nil =>
        rw [marker] at again
        cases again
      | cons c m => rfl
    simp only [cut, filled, again]
    rfl

/-! ### The rule for tags -/

def tagRule (body : BodyReader ε) : Alternative ε := fun s =>
  match literal openBraces s with
  | none => pure none
  | some (_, inner) => do
    let read ← firstOf [silent escapedTag, silent rawTag, sectionRule .plain body, sectionRule .inverted body,
      silent helperTag] inner
    return read.bind fun (n, rest) => (literal closeBraces rest).map fun (_, behind) => (n, behind)

theorem closed_toOption (n : Node) (rest : Text) :
    (closed n rest).toOption = (literal closeBraces rest).map fun (_, behind) => (n, behind) := by
  rw [closed, literal]
  cases Text.after? closeBraces rest <;> rfl

theorem sectionHeader_headless (headless : sectionHead s = none) (sense : Sense) :
    sectionHeader sense s = none := by
  obtain ⟨plain, inverted⟩ := orElse_eq_none.mp headless
  cases sense with
  | plain => exact map_eq_none.mp plain
  | inverted => exact map_eq_none.mp inverted

/-- A header is that of one sense. -/
theorem sectionHeader_other {sense other : Sense} {name rest : Text}
    (headed : sectionHead s = some ((sense, name), rest)) (differs : other ≠ sense) :
    sectionHeader other s = none := by
  refine eq_none_of fun name' rest' read => differs ?_
  have same := (sectionHead_eq_some.mpr read).symm.trans headed
  exact (Prod.mk.inj (Prod.mk.inj (Option.some.inj same)).1).1

theorem firstOf_value (ps : List (Alternative ε)) : firstOf (silent escapedTag :: silent rawTag :: ps) s =
    match (escapedTag <|> rawTag) s with
    | some read => pure (some read)
    | none => firstOf ps s := by
  cases escaped : escapedTag s with
  | some read =>
    rw [firstOf_found (congrArg pure escaped), orElse_eq_some.mpr (.inl escaped)]
  | none =>
    rw [firstOf_skip (congrArg pure escaped)]
    cases raw : rawTag s with
    | some read => rw [firstOf_found (congrArg pure raw), orElse_eq_some.mpr (.inr ⟨escaped, raw⟩)]
    | none => rw [firstOf_skip (congrArg pure raw), orElse_eq_none.mpr ⟨escaped, raw⟩]

/-- Behind a header no other alternative succeeds than the section. -/
theorem firstOf_headed {sense : Sense} {name rest : Text} (headed : sectionHead s = some ((sense, name), rest))
    (body : BodyReader ε) : firstOf [sectionRule .plain body, sectionRule .inverted body, silent helperTag] s =
      sectionRule sense body s := by
  have call : firstOf [silent helperTag] s = (pure none : Traced ε _) :=
    firstOf_skip (congrArg pure (helperTag_headed headed)) []
  cases sense with
  | plain =>
    have inverted : sectionHeader .inverted s = none := sectionHeader_other headed (by decide)
    exact firstOf_only _ ((firstOf_skip (sectionRule_none inverted body) _).trans call)
  | inverted =>
    have plain : sectionHeader .plain s = none := sectionHeader_other headed (by decide)
    exact (firstOf_skip (sectionRule_none plain body) _).trans (firstOf_only _ call)

theorem firstOf_headless (headless : sectionHead s = none) (body : BodyReader ε) :
    firstOf [sectionRule .plain body, sectionRule .inverted body, silent helperTag] s = pure (helperTag s) := by
  rw [firstOf_skip (sectionRule_none (sectionHeader_headless headless .plain) body),
    firstOf_skip (sectionRule_none (sectionHeader_headless headless .inverted) body)]
  exact firstOf_only (silent helperTag) rfl

/-- The choice between all alternatives is the tag. -/
theorem tagRule_eq (body : BodyReader ε) (s : Text) :
    tagRule body s = tag body s >>= fun read => pure read.toOption := by
  unfold tagRule tag
  cases opened : literal openBraces s with
  | none => rfl
  | some read =>
    obtain ⟨_, inner⟩ := read
    dsimp only
    rw [firstOf_value]
    cases value : (escapedTag <|> rawTag) inner with
    | some read => simp only [pure_bind, closed_toOption, Option.bind_some]
    | none =>
      dsimp only
      cases headed : sectionHead inner with
      | none =>
        rw [firstOf_headless headed]
        cases call : helperTag inner with
        | none => rfl
        | some read => simp only [pure_bind, closed_toOption, Option.bind_some]
      | some read =>
        obtain ⟨⟨sense, name⟩, rest⟩ := read
        rw [firstOf_headed headed, sectionRule_some (sectionHead_eq_some.mp headed)]
        dsimp only
        cases found : findEnd name rest with
        | none => rfl
        | some e =>
          simp only [bind_assoc]
          refine congrArg (body e.body e.marker.length >>= ·) (funext fun read => ?_)
          cases read with
          | none => rfl
          | some nodes => simp only [Option.map_some, Option.bind_some, pure_bind, closed_toOption]

/-! ### Calls of the body reader -/

/-- A reader that notes what it is given. -/
def logged (f : Text → Nat → Option (List Node)) : BodyReader (Text × Nat) :=
  fun b after => ⟨[(b, after)], f b after⟩

/-- The text is a section with its end marker: the opener, the body up to the first end marker of the name,
the marker, and what stands behind. -/
structure Complete (sense : Sense) (name b foot behind s : Text) : Prop where
  named : IsName name
  opened : ∃ head, Framed [sense.sigil] name head ∧ s = head ++ b ++ foot ++ behind
  ended : Framed ['/'] name foot
  first : Nowhere (Marked name) b (foot ++ behind)

theorem Complete.ends {sense : Sense} {name b foot behind : Text}
    (complete : Complete sense name b foot behind s) : ∃ rest, Heads name s rest ∧ Ends name rest := by
  obtain ⟨named, ⟨head, opened, rfl⟩, ended, -⟩ := complete
  exact ⟨b ++ foot ++ behind, ⟨sense, head, named, opened, by simp⟩, b, foot, behind, ended, rfl⟩

theorem Complete.tag_eq {sense : Sense} {name b foot behind : Text}
    (complete : Complete sense name b foot behind s) (body : BodyReader ε) :
    tag body s = body b (foot ++ behind).length >>= fun read => pure (match read with
      | none => .error .refused
      | some nodes => .ok (.block sense (.name name) nodes, behind)) := by
  obtain ⟨named, ⟨head, opened, rfl⟩, ended, first⟩ := complete
  exact tag_section body named opened ended first

/-- A tag is read whatever the reader of bodies does, or it is a section with its end marker. -/
theorem tag_silent_or_complete (s : Text) :
    (∃ r, (∀ {ε : Type} (body : BodyReader ε), tag body s = pure r) ∧ ∀ n rest, r = .ok (n, rest) → IsTag n) ∨
      ∃ sense name b foot behind, Complete sense name b foot behind s := by
  cases tag_cases s with
  | @spelled n p rest spelled valid =>
    refine .inl ⟨.ok (n, rest), fun body => tag_spelled body spelled valid rest, ?_⟩
    intro n rest same
    cases same
    exact valid
  | «section» named opened ended first => exact .inr ⟨_, _, _, _, _, named, ⟨_, opened, rfl⟩, ended, first⟩
  | @faulty s cause stuck => exact .inl ⟨.error cause, stuck, nofun⟩

theorem events_logged {name rest : Text} (f : Text → Nat → Option (List Node)) (heads : Heads name s rest)
    (ends : Ends name rest) : (tag (logged f) s).events ≠ [] := by
  obtain ⟨sense, b, after, behind, whole⟩ := tag_ended (logged f) heads ends
  rw [whole]
  exact List.cons_ne_nil _ _

/-- A tag hands over a body if it is a section with its end marker, once and up to that marker; it is the section
of the nodes that come back, or fails if none do. Any other tag hands over nothing, and is one of a value or of a
helper call if it is read. A choice between all alternatives in turn comes to the same. -/
theorem tag_calls (f : Text → Nat → Option (List Node)) (s : Text) :
    (tag (logged f) s).events.length ≤ 1 ∧
    ((tag (logged f) s).events ≠ [] ↔ ∃ name rest, Heads name s rest ∧ Ends name rest) ∧
    (∀ call ∈ (tag (logged f) s).events, ∃ sense name b foot behind, Complete sense name b foot behind s ∧
      call = (b, (foot ++ behind).length) ∧ (tag (logged f) s).result = match f b (foot ++ behind).length with
        | some nodes => .ok (.block sense (.name name) nodes, behind)
        | none => .error .refused) ∧
    ((tag (logged f) s).events = [] → ∀ n rest, (tag (logged f) s).result = .ok (n, rest) →
      IsTag n ∧ rest <:+ s ∧ rest.length < s.length) ∧
    ∀ {ε : Type} (body : BodyReader ε), tagRule body s = tag body s >>= fun read => pure read.toOption := by
  have choice {ε : Type} (body : BodyReader ε) := tagRule_eq body s
  have tail (n : Node) (rest : Text) (read : (tag (logged f) s).result = .ok (n, rest)) := tag_ok read
  rcases tag_silent_or_complete s with ⟨r, silent, valid⟩ | ⟨sense, name, b, foot, behind, complete⟩
  · rw [silent (logged f)] at tail ⊢
    refine ⟨Nat.zero_le 1, iff_of_false (absurd rfl) ?_, nofun, ?_, choice⟩
    · rintro ⟨name, rest, heads, ends⟩
      have handed := events_logged f heads ends
      rw [silent (logged f)] at handed
      exact handed rfl
    · exact fun _ n rest read => ⟨valid n rest read, tail n rest read⟩
  · have events : (tag (logged f) s).events = [(b, (foot ++ behind).length)] := by
      rw [complete.tag_eq]
      rfl
    have result : (tag (logged f) s).result = match f b (foot ++ behind).length with
        | some nodes => .ok (.block sense (.name name) nodes, behind)
        | none => .error .refused := by
      rw [complete.tag_eq, Traced.result_bind, Traced.result_pure, logged]
      cases f b (foot ++ behind).length <;> rfl
    rw [events]
    refine ⟨Nat.le_refl 1, iff_of_true (List.cons_ne_nil _ _) ⟨name, complete.ends⟩, ?_, nofun, choice⟩
    intro call member
    exact ⟨sense, name, b, foot, behind, complete, List.mem_singleton.mp member, result⟩

/-- A section with a second end marker behind the first one, and a raw value. -/
theorem tag_calls_section :
    let f : Text → Nat → Option (List Node) := fun b _ => some [.text b]
    let s := "\x7b\x7b#a\x7d\x7dx\x7b\x7b/a \x7d\x7dy\x7b\x7b/a\x7d\x7d".toList
    let raw := "\x7b\x7b\x7bv\x7d\x7d\x7dw".toList
    ((['x'], 14) ∈ (tag (logged f) s).events ∧
      ∃ sense name b foot behind, Complete sense name b foot behind s ∧
        (['x'], 14) = (b, (foot ++ behind).length) ∧
        (tag (logged f) s).result = match f b (foot ++ behind).length with
        | some nodes => .ok (.block sense (.name name) nodes, behind)
        | none => .error .refused) ∧
    (tag (logged f) raw).events = [] ∧ (tag (logged f) raw).result = .ok (.unescaped (.name ['v']), ['w']) ∧
      IsTag (.unescaped (.name ['v'])) ∧ ['w'] <:+ raw ∧ ['w'].length < raw.length := by
  intro f s raw
  have member : (['x'], 14) ∈ (tag (logged f) s).events := by
    have events : (tag (logged f) s).events = [(['x'], 14)] := by rfl
    exact events ▸ List.mem_singleton_self _
  have nothing : (tag (logged f) raw).events = [] := rfl
  have read : (tag (logged f) raw).result = .ok (.unescaped (.name ['v']), ['w']) := rfl
  exact ⟨⟨member, (tag_calls f s).2.2.1 _ member⟩, nothing, read, (tag_calls f raw).2.2.2.1 nothing _ _ read⟩

end Stencil.Grammar
