import Stencil.Proofs.Grammar.Avoid
import Stencil.Template

/-!
# How a source is read

`Reads` says node by node what the reader makes of a text: plain texts up to the next opening braces, tags,
sections with the nodes of their bodies, and a text of all that is left where a tag cannot be read. The
reader does this and nothing else: `reads_readNodes` and `Reads.readNodes_eq`.
-/

namespace Stencil

open Grammar Stencil.Parser
open Node (Framed Spells SpellsTag)

/-! ### One step of the reader -/

/-- Opening braces stand at the start of the text. -/
abbrev Opens (s : Text) : Prop := openBraces <+: s

theorem literal_isSome {s : Text} : (literal openBraces s).isSome = true ↔ Opens s := by
  rw [Option.isSome_iff_exists]
  constructor
  · rintro ⟨⟨t, r⟩, read⟩
    obtain ⟨-, rfl⟩ := literal_eq_some.mp read
    exact List.prefix_append _ _
  · rintro ⟨r, rfl⟩
    exact ⟨_, literal_openBraces r⟩

theorem cutBefore_braces {s t r : Text} : cutBefore (literal openBraces) s = (t, r) ↔
    s = t ++ r ∧ Nowhere Opens t r ∧ (r = [] ∨ Opens r) := by
  rw [cutBefore_eq_iff]
  simp only [literal_isSome]

theorem cutBefore_opens {s : Text} (opens : Opens s) : cutBefore (literal openBraces) s = ([], s) :=
  cutBefore_braces.mpr ⟨rfl, trivial, .inr opens⟩

theorem Node.Framed.opens {mark inner p : Text} (framed : Framed mark inner p) (s : Text) : Opens (p ++ s) := by
  obtain ⟨q, -, rfl⟩ := framed
  simp [Opens]

theorem Node.SpellsTag.opens {n : Node} {p : Text} (spelled : SpellsTag n p) (s : Text) : Opens (p ++ s) := by
  cases spelled with
  | escaped _ framed | call framed => exact framed.opens s
  | unescaped _ framed => simpa using framed.opens ('}' :: s)
  | callWith => simp [Opens]

theorem length_lt_of_opens {p : Text} (opens : Opens (p ++ [])) (s : Text) : s.length < (p ++ s).length := by
  have long := opens.length_le
  simp only [openBraces, List.append_nil, List.length_cons, List.length_nil] at long
  rw [List.length_append]
  omega

section

variable {body : Nat → Text → Traced Fault (Option (List Node))} {k : Nat}

/-- A step of the reader, without the proof that it ends. -/
theorem readNodes_step (s : Text) : readNodes body k s =
    match cutBefore (literal openBraces) s with
    | (plain, []) => pure (textNodes plain)
    | (plain, c :: cs) =>
      let attempt := tag (fun inner after => body (k + after) inner) (c :: cs)
      match attempt.result with
      | .error cause =>
        ⟨attempt.events ++ [⟨cause, k + (c :: cs).length⟩], textNodes plain ++ [.text (c :: cs)]⟩
      | .ok (n, rest) =>
        let more := readNodes body k rest
        ⟨attempt.events ++ more.events, textNodes plain ++ n :: more.result⟩ := by
  rw [readNodes]
  split
  · next cut => rw [cut]
  · next cut =>
    rw [cut]
    dsimp only
    split
    · next failed => rw [failed]
    · next done => rw [done]

theorem readNodes_nil : readNodes body k [] = pure [] :=
  readNodes_text rfl

theorem readNodes_tag {s rest : Text} {n : Node} {es : List Fault} (opens : Opens s)
    (read : tag (fun inner after => body (k + after) inner) s = ⟨es, .ok (n, rest)⟩) :
    readNodes body k s = ⟨es ++ (readNodes body k rest).events, n :: (readNodes body k rest).result⟩ := by
  obtain ⟨u, rfl⟩ := opens
  rw [readNodes_step, cutBefore_opens (List.prefix_append _ _)]
  have shape : openBraces ++ u = '{' :: '{' :: u := rfl
  rw [shape] at read ⊢
  simp only [read]
  rfl

theorem readNodes_stuck {s : Text} {cause : TagFault} (opens : Opens s)
    (read : tag (fun inner after => body (k + after) inner) s = pure (.error cause)) :
    readNodes body k s = ⟨[⟨cause, k + s.length⟩], [.text s]⟩ := by
  obtain ⟨u, rfl⟩ := opens
  rw [readNodes_step, cutBefore_opens (List.prefix_append _ _)]
  have shape : openBraces ++ u = '{' :: '{' :: u := rfl
  rw [shape] at read ⊢
  simp only [read, Traced.result_pure, Traced.events_pure]
  rfl

theorem readNodes_plain {t s : Text} (nonempty : t ≠ []) (plain : Nowhere Opens t s)
    (next : s = [] ∨ Opens s) :
    readNodes body k (t ++ s) = ⟨(readNodes body k s).events, .text t :: (readNodes body k s).result⟩ := by
  have texts : textNodes t = [.text t] := by rw [textNodes, if_neg (by simpa using nonempty)]
  rw [readNodes_step, cutBefore_braces.mpr ⟨rfl, plain, next⟩]
  rcases next with rfl | opens
  · dsimp only
    rw [readNodes_nil, texts]
    rfl
  · rw [readNodes_step s, cutBefore_opens opens]
    obtain ⟨u, rfl⟩ := opens
    have shape : openBraces ++ u = '{' :: '{' :: u := rfl
    rw [shape]
    dsimp only
    split <;> rw [texts] <;> rfl

end

/-! ### What is read -/

/-- No tag is read at the start of the text, in whichever place the text stands. -/
def Stuck (depth : Nat) (s : Text) (cause : TagFault) : Prop :=
  ∀ k, tag (fun inner after => readBody depth (k + after) inner) s = pure (.error cause)

/-- What is read from a text with `k` characters behind it, where sections may nest so deep: its nodes
and its faults. -/
inductive Reads : (depth k : Nat) → Text → List Node → List Fault → Prop
  | nil {depth k : Nat} : Reads depth k [] [] []
  | text {depth k : Nat} {t s : Text} {ns : List Node} {fs : List Fault} (nonempty : t ≠ [])
      (plain : Nowhere Opens t s) (next : s = [] ∨ Opens s) (rest : Reads depth k s ns fs) :
      Reads depth k (t ++ s) (.text t :: ns) fs
  | stuck {depth k : Nat} {s : Text} {cause : TagFault} (opens : Opens s) (stuck : Stuck depth s cause) :
      Reads depth k s [.text s] [⟨cause, k + s.length⟩]
  | tag {depth k : Nat} {n : Node} {p s : Text} {ns : List Node} {fs : List Fault} (spelled : SpellsTag n p)
      (valid : IsTag n) (rest : Reads depth k s ns fs) : Reads depth k (p ++ s) (n :: ns) fs
  | block {depth k : Nat} {sense : Sense} {name head b foot s : Text} {body ns : List Node}
      {es fs : List Fault} (named : IsName name) (opened : Framed [sense.sigil] name head)
      (ended : Framed ['/'] name foot) (first : Nowhere (Marked name) b (foot ++ s))
      (inner : Reads depth (k + (foot ++ s).length) b body es) (rest : Reads (depth + 1) k s ns fs) :
      Reads (depth + 1) k (head ++ b ++ foot ++ s) (.block sense (.name name) body :: ns) (es ++ fs)

theorem Reads.readNodes_eq {depth k : Nat} {s : Text} {ns : List Node} {fs : List Fault}
    (reads : Reads depth k s ns fs) : readNodes (readBody depth) k s = ⟨fs, ns⟩ := by
  induction reads with
  | nil => exact readNodes_nil
  | text nonempty plain next rest ih => rw [readNodes_plain nonempty plain next, ih]
  | stuck opens stuck => exact readNodes_stuck opens (stuck _)
  | @tag depth k _ _ s _ _ spelled valid rest ih =>
    rw [readNodes_tag (spelled.opens s) (tag_spelled _ spelled valid s), ih]
    rfl
  | @block depth k sense name head b foot s body ns es fs named opened ended first inner rest ihInner ih =>
    have opens : Opens (head ++ b ++ foot ++ s) := by simpa using opened.opens (b ++ (foot ++ s))
    have read : readBody (depth + 1) (k + (foot ++ s).length) b = ⟨es, some body⟩ := by
      rw [readBody, ihInner]
      simp [Functor.map]
    have whole := tag_section (fun inner after => readBody (depth + 1) (k + after) inner) named opened ended
      first
    rw [read] at whole
    rw [readNodes_tag opens whole, ih]
    simp

theorem section_refused {sense : Sense} {name head b foot s : Text} (named : IsName name)
    (opened : Framed [sense.sigil] name head) (ended : Framed ['/'] name foot)
    (first : Nowhere (Marked name) b (foot ++ s)) : Stuck 0 (head ++ b ++ foot ++ s) .refused := by
  intro k
  rw [tag_section _ named opened ended first]
  rfl

theorem reads_exists (depth k : Nat) (s : Text) : ∃ ns fs, Reads depth k s ns fs := by
  -- Bodies and what stands behind a node are both shorter than the text they are parts of.
  induction size : s.length using Nat.strongRecOn generalizing depth k s with
  | ind size shorter =>
  subst size
  cases cut : cutBefore (literal openBraces) s with
  | mk t r =>
  obtain ⟨rfl, plain, next⟩ := cutBefore_braces.mp cut
  by_cases empty : t = []
  · subst empty
    rw [List.nil_append] at *
    rcases next with rfl | opens
    · exact ⟨[], [], .nil⟩
    · cases tag_cases r with
      | faulty stuck => exact ⟨_, _, .stuck opens fun k => stuck _⟩
      | spelled rest spelled valid =>
        obtain ⟨ns, fs, later⟩ := shorter _ (length_lt_of_opens (spelled.opens []) rest) depth k rest rfl
        exact ⟨_, _, .tag spelled valid later⟩
      | @«section» sense name head b foot rest named opened ended first =>
        have size := length_lt_of_opens (opened.opens []) (b ++ (foot ++ rest))
        simp only [List.append_assoc, List.length_append] at size shorter
        cases depth with
        | zero => exact ⟨_, _, .stuck opens (section_refused named opened ended first)⟩
        | succ depth =>
          obtain ⟨body, es, inner⟩ := shorter b.length (by omega) depth (k + (foot ++ rest).length) b rfl
          obtain ⟨ns, fs, later⟩ := shorter rest.length (by omega) (depth + 1) k rest rfl
          exact ⟨_, _, .block named opened ended first inner later⟩
  · have size : 0 < t.length := List.length_pos_iff.mpr empty
    obtain ⟨ns, fs, later⟩ := shorter r.length (by rw [List.length_append]; omega) depth k r rfl
    exact ⟨_, _, .text empty plain next later⟩

/-- The reader reads every source, and its result is what `Reads` says. -/
theorem reads_readNodes (depth k : Nat) (s : Text) :
    Reads depth k s (readNodes (readBody depth) k s).result (readNodes (readBody depth) k s).events := by
  obtain ⟨ns, fs, reads⟩ := reads_exists depth k s
  rw [reads.readNodes_eq]
  exact reads

theorem Template.parse_eq {limit : Int} {s : Text} {ns : List Node} {fs : List Fault}
    (reads : Reads limit.toNat 0 s ns fs) : parse limit s = ⟨ns, fs.map (Fault.diagnostic s limit)⟩ := by
  rw [parse, reads.readNodes_eq]

/-- A printed tag is read as that tag alone. -/
theorem Template.parse_tag {n : Node} (valid : IsTag n) (limit : Int) : parse limit n.print = ⟨[n], []⟩ := by
  have reads : Reads limit.toNat 0 (n.print ++ []) [n] [] := .tag valid.spells_print valid .nil
  rw [List.append_nil] at reads
  exact parse_eq reads

/-! ### Texts and what stands behind them -/

/-- No brace at the end of the first text meets one at the start of the second. -/
def Seam (t r : Text) : Prop := ¬ (t.getLast? = some '{' ∧ r.head? = some '{')

theorem seam_nil (t : Text) : Seam t [] := fun meet => nomatch meet.2

theorem Seam.suffix {p t r : Text} (seam : Seam (p ++ t) r) : Seam t r := by
  rintro ⟨last, front⟩
  exact seam ⟨by rw [List.getLast?_append, last]; rfl, front⟩

theorem nowhere_opens {t r : Text} (braceless : ¬ openBraces <:+: t) (seam : Seam t r) :
    Nowhere Opens t r := by
  induction t with
  | nil => exact trivial
  | cons c t ih =>
    have later : ¬ openBraces <:+: t := fun inside => braceless (inside.trans (List.suffix_cons c t).isInfix)
    refine ⟨fun opens => ?_, ih later (Seam.suffix (p := [c]) seam)⟩
    obtain ⟨rfl, front⟩ := List.cons_prefix_cons.mp opens
    cases t with
    | nil =>
      obtain ⟨u, rfl⟩ := front
      exact seam ⟨rfl, rfl⟩
    | cons d t =>
      obtain ⟨rfl, -⟩ := List.cons_prefix_cons.mp front
      exact braceless ⟨[], t, rfl⟩

/-! ### Bodies without end markers -/

theorem Opens.append {s : Text} (opens : Opens s) (m : Text) : Opens (s ++ m) :=
  opens.trans (List.prefix_append s m)

/-- Whether an end marker begins in a body does not hang on what stands behind the end tag. -/
theorem nowhere_marked_foot {name b foot s u : Text} (named : IsName name) (ended : Framed ['/'] name foot) :
    Nowhere (Marked name) b (foot ++ s) ↔ Nowhere (Marked name) b (foot ++ u) := by
  rw [nowhere_marked_braces named (ended.opens s), nowhere_marked_braces named (ended.opens u)]

/-- Whether an end marker begins in a text in front of braces can be seen from the nodes that are read. -/
theorem Reads.nowhere_iff {depth k : Nat} {s name m : Text} {ns : List Node} {fs : List Fault}
    (reads : Reads depth k s ns fs) (named : IsName name) (opens : Opens m) :
    Nowhere (Marked name) s m ↔ Avoids name ns := by
  induction reads generalizing m with
  | nil => exact iff_of_true trivial avoids_nil
  | @text _ _ t s _ _ nonempty plain next rest ih =>
    have behind : Opens (s ++ m) := by
      rcases next with rfl | front
      · exact opens
      · exact front.append m
    rw [nowhere_append, nowhere_marked_braces named behind, ih opens, avoids_text]
  | stuck => rw [nowhere_marked_braces named opens, avoids_text, and_iff_left avoids_nil]
  | tag spelled valid rest ih => rw [nowhere_append, nowhere_tag named spelled valid, ih opens, avoids_cons]
  | @block _ _ _ _ head b foot s _ _ _ _ valid opened ended first inner rest ihInner ih =>
    have behind : Opens (foot ++ (s ++ m)) := ended.opens (s ++ m)
    rw [nowhere_append, nowhere_append, nowhere_append, and_iff_right (nowhere_head valid opened),
      ihInner behind, nowhere_foot named valid ended, ih opens, avoids_block]
    exact and_assoc.trans and_left_comm

/-! ### Nothing is lost -/

theorem Reads.spells {depth k : Nat} {s : Text} {ns : List Node} {fs : List Fault}
    (reads : Reads depth k s ns fs) : Spells ns s := by
  induction reads with
  | nil => exact .nil
  | text nonempty plain next rest ih => exact .text ih
  | @stuck _ _ s _ opens stuck => simpa using Spells.text (t := s) .nil
  | tag spelled valid rest ih => exact .tag spelled ih
  | block named opened ended first inner rest ihInner ih => exact .block opened ihInner ended ih

/-- The source is a spelling of the nodes that are read from it, whatever its tags look like. -/
theorem Template.nodes_spell_source (limit : Int) (source : Text) : Spells (parse limit source).nodes source :=
  (reads_readNodes limit.toNat 0 source).spells

end Stencil
