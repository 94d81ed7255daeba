import Stencil.Proofs.Evaluate.Concat
import Stencil.Proofs.Template.Reparse
import Stencil.Proofs.Template.Section

/-!
# Sources one behind the other

A source without a bad tag at its top level may be cut off: what stands behind it is read and rendered as it
would be alone, and so is what stands before, but for a text at the seam. `parse_append` states this for the
nodes, the diagnostics and the rendering.
-/

namespace Stencil

open Grammar Stencil.Parser
open Node (Framed)

/-! ### Reading on -/

theorem Reads.head_opens {depth k : Nat} {s : Text} {ns : List Node} {fs : List Fault}
    (reads : Reads depth k s ns fs) (front : s = [] ∨ Opens s) :
    ∀ t, ns.head? = some (.text t) → Opens t := by
  intro t first
  cases reads with
  | nil => cases first
  | @text _ _ u s _ _ nonempty plain =>
    have opens := front.resolve_left (by simp [nonempty])
    cases u with
    | nil => exact absurd rfl nonempty
    | cons c u => exact absurd opens plain.1
  | stuck opens =>
    cases first
    exact opens
  | tag spelled valid =>
    cases first
    cases valid
  | block => cases first

theorem Reads.nodes_ne_nil {depth k : Nat} {s : Text} {ns : List Node} {fs : List Fault}
    (reads : Reads depth k s ns fs) (opens : Opens s) : ns ≠ [] := by
  rintro rfl
  cases reads with
  | nil => cases opens.length_le

/-- A text goes on with the text that is read behind it, where that opens no tag. -/
theorem Reads.concat_text {depth k : Nat} {t u : Text} {ms : List Node} {gs : List Fault} (nonempty : t ≠ [])
    (plain : Nowhere Opens t u) (second : Reads depth k u ms gs) :
    Reads depth k (t ++ u) (Node.concat [.text t] ms) gs := by
  by_cases front : u = [] ∨ Opens u
  · rw [Node.concat_of_head (second.head_opens front)]
    exact .text nonempty plain front second
  · cases second with
    | nil => exact absurd (.inl rfl) front
    | @text _ _ v s ms _ nonempty' plain' next rest =>
      have closed : ¬ Opens v := fun opens => front (.inr (opens.append s))
      rw [Node.concat, if_neg (by rwa [List.isPrefixOf_iff_prefix]), ← List.append_assoc]
      exact .text (by simp [nonempty]) (nowhere_append.mpr ⟨plain, plain'⟩) next rest
    | stuck opens => exact absurd (.inr opens) front
    | tag spelled => exact absurd (.inr (spelled.opens _)) front
    | block named opened => exact absurd (.inr (by simpa using opened.opens _)) front

theorem Reads.concat {depth k j : Nat} {s u : Text} {ns ms : List Node} {fs gs : List Fault}
    (first : Reads depth j s ns fs) (second : Reads depth k u ms gs) (behind : j = k + u.length)
    (clean : ∀ t, .text t ∈ ns → ¬ Degraded t) (seam : Seam s u) :
    Reads depth k (s ++ u) (Node.concat ns ms) (fs ++ gs) := by
  induction first with
  | nil => exact second
  | @text _ _ t s ns fs nonempty plain next rest ih =>
    rcases next with rfl | opens
    · obtain ⟨rfl, rfl⟩ := rest.of_nil
      rw [List.append_nil] at seam ⊢
      exact .concat_text nonempty (nowhere_opens (not_degraded_of_nowhere plain) seam) second
    · have more : ns ≠ [] := rest.nodes_ne_nil opens
      rw [List.append_assoc, Node.concat_cons (.inl more)]
      have plain' : Nowhere Opens t (s ++ u) :=
        (nowhere_congr fun y nonempty _ => opens_append_congr nonempty opens (opens.append u)).mp plain
      exact .text nonempty plain' (.inr (opens.append u))
        (ih second behind (fun t member => clean t (List.mem_cons_of_mem _ member)) seam.suffix)
  | stuck opens stuck => exact absurd opens.isInfix (clean _ List.mem_cons_self)
  | @tag _ _ n p s ns fs spelled valid rest ih =>
    have other : ∀ t, n ≠ .text t := by
      rintro t rfl
      cases valid
    rw [List.append_assoc, Node.concat_cons (.inr other)]
    exact .tag spelled valid (ih second behind (fun t member => clean t (List.mem_cons_of_mem _ member)) seam.suffix)
  | @block _ j sense name head b foot s body ns es fs named opened ended first inner rest ihInner ih =>
    have other : ∀ t, Node.block sense (.name name) body ≠ .text t := nofun
    have first' : Nowhere (Marked name) b (foot ++ (s ++ u)) := (nowhere_marked_foot named ended).mp first
    have place : j + (foot ++ s).length = k + (foot ++ (s ++ u)).length := by
      simp only [List.length_append]
      omega
    have later := ih second behind (fun t member => clean t (List.mem_cons_of_mem _ member)) seam.suffix
    rw [place] at inner
    rw [List.append_assoc, List.append_assoc es, Node.concat_cons (.inr other)]
    exact .block named opened ended first' inner later

/-! ### Two sources -/

namespace Template

variable {limit : Int} {s u : Text}

theorem parse_concat (clean : ∀ t, .text t ∈ (parse limit s).nodes → ¬ Degraded t) (seam : Seam s u) :
    parse limit (s ++ u) =
      { nodes := Node.concat (parse limit s).nodes (parse limit u).nodes
        diagnostics := (parse limit s).diagnostics ++
          (parse limit u).diagnostics.map (Diagnostic.moved (s ++ u) s.length) } := by
  have first := reads_readNodes limit.toNat 0 s
  have second := reads_readNodes limit.toNat 0 u
  have whole := (first.before u.length).concat second (by rfl) clean seam
  rw [parse_eq whole, List.map_append, diagnostics_front, second.diagnostics_behind s]
  rfl

/-- A section between two sources: what its body is shows in its own node and diagnostics only. -/
theorem parse_between {sense : Sense} {name head b foot : Text}
    (clean : ∀ t, .text t ∈ (parse limit s).nodes → ¬ Degraded t) (seam : Seam s (head ++ b ++ foot ++ u))
    (named : IsName name) (opened : Framed [sense.sigil] name head) (ended : Framed ['/'] name foot)
    (first : (findEnd name (b ++ foot)).map Ending.body = some b) (deep : 1 ≤ limit) :
    parse limit (s ++ (head ++ b ++ foot ++ u)) =
      { nodes := (parse limit s).nodes ++
          .block sense (.name name) (parse (limit - 1) b).nodes :: (parse limit u).nodes
        diagnostics := (parse limit s).diagnostics ++
          ((parse (limit - 1) b).diagnostics.map
              (Diagnostic.enclosed (s ++ (head ++ b ++ foot ++ u)) (s.length + head.length) limit) ++
          (parse limit u).diagnostics.map
            (Diagnostic.moved (s ++ (head ++ b ++ foot ++ u)) (s.length + (head ++ b ++ foot).length))) } := by
  rw [parse_concat clean seam, parse_section_append named opened ended first deep u, Node.concat_of_head]
  · simp only [List.map_append, List.map_map, Function.comp_def, Diagnostic.moved_moved, Diagnostic.moved_enclosed]
  · exact nofun

/-- A source without a bad tag at its top level and what stands behind it are read and rendered apart. A bad
tag behind it leaves it alone, and so does one in the body of a section. -/
theorem parse_append (clean : ∀ t, .text t ∈ (parse limit s).nodes → ¬ Degraded t)
    (seam : ¬ (s.getLast? = some '{' ∧ u.head? = some '{')) :
    (parse limit (s ++ u)).nodes = Node.concat (parse limit s).nodes (parse limit u).nodes ∧
    (parse limit (s ++ u)).diagnostics = (parse limit s).diagnostics ++
      (parse limit u).diagnostics.map (Diagnostic.moved (s ++ u) s.length) ∧
    (∀ host env es fs t v, (render host env (parse limit s).nodes).run = ⟨es, .ok t⟩ →
      (render host env (parse limit u).nodes).run = ⟨fs, .ok v⟩ →
      (render host env (parse limit (s ++ u)).nodes).run = ⟨es ++ fs, .ok (t ++ v)⟩) ∧
    (Opens u → (parse limit u).nodes = [.text u] →
      (parse limit (s ++ u)).nodes = (parse limit s).nodes ++ [.text u]) ∧
    ∀ sense name head b foot r, IsName name → Framed [Sense.sigil sense] name head → Framed ['/'] name foot →
      (findEnd name (b ++ foot)).map Ending.body = some b → 1 ≤ limit → u = head ++ b ++ foot ++ r →
      parse limit (s ++ u) =
        { nodes := (parse limit s).nodes ++
            .block sense (.name name) (parse (limit - 1) b).nodes :: (parse limit r).nodes
          diagnostics := (parse limit s).diagnostics ++
            ((parse (limit - 1) b).diagnostics.map
                (Diagnostic.enclosed (s ++ u) (s.length + head.length) limit) ++
            (parse limit r).diagnostics.map
              (Diagnostic.moved (s ++ u) (s.length + (head ++ b ++ foot).length))) } := by
  have whole := parse_concat clean seam
  have nodes := congrArg Template.nodes whole
  refine ⟨nodes, congrArg Template.diagnostics whole, ?_, ?_, ?_⟩
  · intro host env es fs t v first second
    rw [nodes]
    exact render_concat_ok host env first second
  · intro opens bad
    rw [nodes, bad, Node.concat_of_head]
    intro t first
    cases first
    exact opens
  · rintro sense name head b foot r named opened ended first deep rfl
    exact parse_between clean seam named opened ended first deep

/-- A bad tag in a section before the seam, and a call and a bad tag behind it. -/
theorem parse_append_call :
    let s := "a\x7b\x7b#n\x7d\x7d\x7b\x7b!\x7d\x7d\x7b\x7b/n\x7d\x7dx".toList
    let u := "y\n\x7b\x7b% f: 'q'\x7d\x7d\x7b\x7b".toList
    let bad : Text := "\x7b\x7b!\x7d\x7d".toList
    let env := Mapping.entries [(.str ['n'], .bool true), (.str ['f'], .helper "first".toList [])]
    let host : Host := fun _ _ args => .ok (args.headD .null)
    (∀ t, .text t ∈ (parse 1 s).nodes → ¬ Degraded t) ∧ ¬ (s.getLast? = some '{' ∧ u.head? = some '{') ∧
      parse 1 (s ++ u) =
        { nodes := [.text ['a'], .block .plain (.name ['n']) [.text bad], .text ['x', 'y', '\n'],
            .helper (.name ['f']) [.primitive "'q'".toList], .text openBraces]
          diagnostics := [⟨.malformedTag, 7, 1, 8⟩, ⟨.malformedTag, 33, 2, 13⟩] } ∧
      (render host env (parse 1 (s ++ u)).nodes).run =
        ⟨[.call "first".toList [.str ['q']]], .ok ("a".toList ++ bad ++ "xy\nq".toList ++ openBraces)⟩ := by
  have first : parse 1 "a\x7b\x7b#n\x7d\x7d\x7b\x7b!\x7d\x7d\x7b\x7b/n\x7d\x7dx".toList =
      { nodes := [.text ['a'], .block .plain (.name ['n']) [.text "\x7b\x7b!\x7d\x7d".toList], .text ['x']]
        diagnostics := [⟨.malformedTag, 7, 1, 8⟩] } := by decide +kernel
  have second : parse 1 "y\n\x7b\x7b% f: 'q'\x7d\x7d\x7b\x7b".toList =
      { nodes := [.text ['y', '\n'], .helper (.name ['f']) [.primitive "'q'".toList], .text openBraces]
        diagnostics := [⟨.malformedTag, 14, 2, 13⟩] } := by decide +kernel
  intro s u bad env host
  have clean : ∀ t, .text t ∈ (parse 1 s).nodes → ¬ Degraded t := by
    rw [first]
    intro t member
    simp only [List.mem_cons, Node.text.injEq, reduceCtorEq, List.not_mem_nil, or_false, false_or] at member
    rcases member with rfl | rfl <;> decide
  have seam : ¬ (s.getLast? = some '{' ∧ u.head? = some '{') := by decide
  obtain ⟨nodes, diagnostics, rendered, -⟩ := parse_append clean seam
  refine ⟨clean, seam, ?_, ?_⟩
  · have whole : parse 1 (s ++ u) = ⟨(parse 1 (s ++ u)).nodes, (parse 1 (s ++ u)).diagnostics⟩ := rfl
    rw [whole, nodes, diagnostics, first, second]
    rfl
  · rw [first, second] at rendered
    exact rendered host env [] [.call "first".toList [.str ['q']]] ("a".toList ++ bad ++ ['x'])
      ("y\nq".toList ++ openBraces) rfl rfl

end Template

end Stencil
