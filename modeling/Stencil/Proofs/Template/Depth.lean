import Stencil.Proofs.Template.Kinds
import Stencil.Proofs.Template.Shape

/-!
# The limit on depth

The limit bounds how many sections lie around a node, and where nothing is refused for it a template does not
depend on it. What is refused is read under a larger limit, so nothing is reported at its place any more:
`Session.parse_limit`.
-/

namespace Stencil

open Grammar
open Node (partsAll)

/-! ### Sections around a node -/

/-- So many sections, each one in the body of the one before, lie around the node. -/
inductive Inside : (level : Nat) → Node → List Node → Prop
  | here {n : Node} {ns : List Node} (member : n ∈ partsAll ns) : Inside 0 n ns
  | block {level : Nat} {n context : Node} {sense : Sense} {body ns : List Node}
      (member : .block sense context body ∈ partsAll ns) (inner : Inside level n body) : Inside (level + 1) n ns

theorem Reads.level_le {depth k level : Nat} {s : Text} {n : Node} {ns : List Node} {fs : List Fault}
    (reads : Reads depth k s ns fs) (inside : Inside level n ns) : level ≤ depth := by
  induction inside generalizing depth k s fs with
  | here => exact Nat.zero_le depth
  | block member inner ih =>
    obtain ⟨-, -, -, -, depth', k', b, es, less, body⟩ := reads.section_mem member
    have bound := ih body
    omega

/-! ### More depth -/

theorem StuckCase.deeper {depth depth' : Nat} {s : Text} {cause : TagFault} (stuck : StuckCase depth s cause)
    (fits : cause ≠ .refused) : Stuck depth' s cause := by
  intro k
  cases stuck with
  | malformed headless any => exact any _
  | unterminated heads endless => exact tag_endless _ heads endless
  | refused => exact absurd rfl fits

/-- A text in which nothing is refused is read in the same way with more depth to spare. -/
theorem Reads.deeper {depth k : Nat} {s : Text} {ns : List Node} {fs : List Fault} (reads : Reads depth k s ns fs)
    (fits : ∀ f ∈ fs, f.cause ≠ .refused) {depth' : Nat} (more : depth ≤ depth') : Reads depth' k s ns fs := by
  induction reads generalizing depth' with
  | nil => exact .nil
  | text nonempty plain next rest ih => exact .text nonempty plain next (ih fits more)
  | stuck opens stuck => exact .stuck opens (stuck.cases.deeper (fits _ List.mem_cons_self))
  | tag spelled valid rest ih => exact .tag spelled valid (ih fits more)
  | block named opened ended first inner rest ihInner ih =>
    obtain ⟨depth', rfl⟩ := Nat.exists_eq_add_one.mpr (Nat.zero_lt_of_lt more)
    obtain ⟨fitsInner, fitsRest⟩ := List.forall_mem_append.mp fits
    exact .block named opened ended first (ihInner fitsInner (by omega)) (ih fitsRest more)

/-- None of the faults `gs` lies where one of the faults `fs` is that something was refused. -/
def Clears (fs gs : List Fault) : Prop := ∀ f ∈ fs, f.cause = .refused → ∀ g ∈ gs, g.left ≠ f.left

theorem clears_append {es fs es' fs' : List Fault} (bound : Nat) (inner : Clears es es') (outer : Clears fs fs')
    (above : ∀ f ∈ es, bound < f.left) (above' : ∀ g ∈ es', bound < g.left)
    (below : ∀ f ∈ fs, f.left ≤ bound) (below' : ∀ g ∈ fs', g.left ≤ bound) :
    Clears (es ++ fs) (es' ++ fs') := by
  intro f member refused g member'
  rcases List.mem_append.mp member with early | late
  · rcases List.mem_append.mp member' with early' | late'
    · exact inner f early refused g early'
    · have first := above f early
      have second := below' g late'
      omega
  · rcases List.mem_append.mp member' with early' | late'
    · have first := below f late
      have second := above' g early'
      omega
    · exact outer f late refused g late'

/-- A section that was refused is read when there is more depth, and all faults then lie farther on. -/
theorem Reads.of_refused (depth k : Nat) {name s rest : Text} (heads : Heads name s rest) (ends : Ends name rest) :
    ∃ ns fs, Reads (depth + 1) k s ns fs ∧ ∀ g ∈ fs, g.left < k + s.length := by
  obtain ⟨sense, head, b, foot, behind, named, opened, ended, first, rfl⟩ := heads.divided ends
  obtain ⟨body, es, inner⟩ := reads_exists depth (k + (foot ++ behind).length) b
  obtain ⟨ns, fs, later⟩ := reads_exists (depth + 1) k behind
  have long := length_lt_of_opens (opened.opens []) (b ++ foot ++ behind)
  simp only [List.length_append] at long
  refine ⟨_, _, .block named opened ended first inner later, ?_⟩
  intro g member
  rcases List.mem_append.mp member with early | late
  · have bound := (inner.bounds g early).2
    simp only [List.length_append] at bound ⊢
    omega
  · have bound := (later.bounds g late).2
    simp only [List.length_append]
    omega

theorem Reads.clears {depth k : Nat} {s : Text} {ns : List Node} {fs : List Fault} (reads : Reads depth k s ns fs)
    {depth' : Nat} (more : depth < depth') : ∃ ns' fs', Reads depth' k s ns' fs' ∧ Clears fs fs' := by
  induction reads generalizing depth' with
  | nil => exact ⟨[], [], .nil, nofun⟩
  | text nonempty plain next rest ih =>
    obtain ⟨ns', fs', rest', clears⟩ := ih more
    exact ⟨_, fs', .text nonempty plain next rest', clears⟩
  | @stuck _ k s cause opens stuck =>
    obtain ⟨depth', rfl⟩ := Nat.exists_eq_add_one.mpr (Nat.zero_lt_of_lt more)
    cases stuck.cases with
    | refused heads ends bottom =>
      obtain ⟨ns', fs', reads', before⟩ := Reads.of_refused depth' k heads ends
      refine ⟨ns', fs', reads', ?_⟩
      intro f member refused g member'
      rw [List.mem_singleton.mp member]
      exact Nat.ne_of_lt (before g member')
    | malformed | unterminated =>
      obtain ⟨ns', fs', reads'⟩ := reads_exists (depth' + 1) k s
      refine ⟨ns', fs', reads', ?_⟩
      intro f member refused
      rw [List.mem_singleton.mp member] at refused
      cases refused
  | tag spelled valid rest ih =>
    obtain ⟨ns', fs', rest', clears⟩ := ih more
    exact ⟨_, fs', .tag spelled valid rest', clears⟩
  | @block depth k _ _ _ b foot s _ _ es fs named opened ended first inner rest ihInner ih =>
    obtain ⟨depth', rfl⟩ := Nat.exists_eq_add_one.mpr (Nat.zero_lt_of_lt more)
    obtain ⟨body', es', inner', clears⟩ := ihInner (Nat.lt_of_succ_lt_succ more)
    obtain ⟨ns', fs', rest', clears'⟩ := ih more
    -- All faults of the body lie in front of the end tag, and all others behind it.
    have shorter : k + s.length ≤ k + (foot ++ s).length := by simp
    refine ⟨_, _, .block named opened ended first inner' rest', ?_⟩
    apply clears_append (k + (foot ++ s).length) clears clears'
    · exact fun f member => (inner.bounds f member).1
    · exact fun g member => (inner'.bounds g member).1
    · exact fun f member => (rest.bounds f member).2.trans shorter
    · exact fun g member => (rest'.bounds g member).2.trans shorter

/-! ### The limit of a template -/

/-- The diagnostic says that a section lies too deep. -/
def Diagnostic.TooDeep (d : Diagnostic) : Prop := ∃ bound, d.problem = .nestingTooDeep bound

theorem Fault.tooDeep_iff {source : Text} {limit : Int} {f : Fault} :
    (f.diagnostic source limit).TooDeep ↔ f.cause = .refused := by
  rw [Diagnostic.TooDeep, Fault.diagnostic_problem]
  cases f.cause <;> simp [TagFault.problem]

theorem Fault.diagnostic_limit {source : Text} {limit limit' : Int} {f : Fault} (fits : f.cause ≠ .refused) :
    f.diagnostic source limit' = f.diagnostic source limit := by
  unfold Fault.diagnostic
  cases cause : f.cause with
  | refused => exact absurd cause fits
  | malformed | unterminated => rfl

namespace Session

/-- The depth of a section is the height of a stack, and no node lies in more sections than the limit. A template in
which nothing is too deep is the same under every larger limit, and where something is too deep nothing is reported
at its place once the limit is larger. -/
theorem parse_limit (limit : Int) (source : Text) :
    (∀ level n, Inside level n (parse limit source).nodes → (level : Int) ≤ max limit 0) ∧
    ((∀ d ∈ (parse limit source).diagnostics, ¬ d.TooDeep) →
      ∀ limit', limit ≤ limit' → parse limit' source = parse limit source) ∧
    ∀ d ∈ (parse limit source).diagnostics, d.TooDeep → ∃ larger, limit < larger ∧
      ∀ limit', larger ≤ limit' → ∀ e ∈ (parse limit' source).diagnostics, e.position ≠ d.position := by
  obtain ⟨ns, fs, reads⟩ := reads_exists limit.toNat 0 source
  rw [parse_reads reads]
  refine ⟨?_, ?_, ?_⟩
  · intro level n inside
    have bound := reads.level_le inside
    omega
  · intro shallow limit' more
    have fits : ∀ f ∈ fs, f.cause ≠ .refused :=
      fun f member refused => shallow _ (List.mem_map_of_mem member) (Fault.tooDeep_iff.mpr refused)
    have reported : fs.map (Fault.diagnostic source limit') = fs.map (Fault.diagnostic source limit) :=
      List.map_congr_left fun f member => Fault.diagnostic_limit (fits f member)
    rw [parse_reads (reads.deeper fits (Int.toNat_le_toNat more)), reported]
  · intro d reported deep
    obtain ⟨f, member, rfl⟩ := List.mem_map.mp reported
    -- What was refused lies in as many sections as the limit allows, so one level more is enough.
    refine ⟨max limit 0 + 1, by omega, ?_⟩
    intro limit' more e reported'
    have deeper : limit.toNat < limit'.toNat := by omega
    obtain ⟨ns', fs', reads', clears⟩ := reads.clears deeper
    rw [parse_reads reads'] at reported'
    obtain ⟨g, member', rfl⟩ := List.mem_map.mp reported'
    have apart := clears f member (Fault.tooDeep_iff.mp deep) g member'
    have bound := (reads.bounds f member).2
    have bound' := (reads'.bounds g member').2
    show source.length - g.left ≠ source.length - f.left
    omega

/-- A value in a section, under a limit that is met and under one that is not. -/
theorem parse_limit_section :
    let source := "\x7b\x7b#x\x7d\x7d\x7b\x7by\x7d\x7d\x7b\x7b/x\x7d\x7d".toList
    let nodes : List Node := [.block .plain (.name ['x']) [.escaped (.name ['y'])]]
    parse 1 source = ⟨nodes, []⟩ ∧ (Inside 1 (.name ['y']) nodes ∧ (1 : Int) ≤ max 1 0) ∧
      parse 64 source = parse 1 source ∧
      ∃ d ∈ (parse 0 source).diagnostics, d.TooDeep ∧ ∃ larger, 0 < larger ∧
        ∀ limit', larger ≤ limit' → ∀ e ∈ (parse limit' source).diagnostics, e.position ≠ d.position := by
  intro source nodes
  have none : Text.Blanks [] := Node.blanks_nil
  have named : IsName ['x'] := rfl
  have opened : Node.Framed [Sense.plain.sigil] ['x'] "\x7b\x7b#x\x7d\x7d".toList :=
    ⟨_, ⟨[], [], none, none, rfl⟩, rfl⟩
  have ended : Node.Framed ['/'] ['x'] "\x7b\x7b/x\x7d\x7d".toList := ⟨_, ⟨[], [], none, none, rfl⟩, rfl⟩
  have value : Node.SpellsTag (.escaped (.name ['y'])) "\x7b\x7by\x7d\x7d".toList :=
    .escaped (.name _) ⟨_, ⟨[], [], none, none, rfl⟩, rfl⟩
  have first : Parser.Nowhere (Marked ['x']) "\x7b\x7by\x7d\x7d".toList "\x7b\x7b/x\x7d\x7d".toList :=
    nowhere_of_findEnd rfl
  have read : Reads (1 : Int).toNat 0 source nodes [] :=
    @Reads.block 0 0 .plain ['x'] _ _ _ [] _ [] [] [] named opened ended first
      (.tag value (.escaped (.name rfl rfl)) .nil) .nil
  have refused : Reads (0 : Int).toNat 0 source [.text source] [⟨.refused, 17⟩] :=
    .stuck (opened.opens _) (section_refused (s := []) named opened ended first)
  obtain ⟨bounded, invisible, -⟩ := parse_limit 1 source
  obtain ⟨-, -, cleared⟩ := parse_limit 0 source
  rw [parse_reads read] at bounded invisible
  have inside : Inside 1 (.name ['y']) nodes := by
    have outer : .block .plain (.name ['x']) [.escaped (.name ['y'])] ∈ partsAll nodes := List.mem_cons_self
    exact .block outer (.here (by simp [partsAll, Node.parts]))
  have deep : (Fault.diagnostic source 0 ⟨.refused, 17⟩).TooDeep := Fault.tooDeep_iff.mpr rfl
  have member : Fault.diagnostic source 0 ⟨.refused, 17⟩ ∈ (parse 0 source).diagnostics := by
    rw [parse_reads refused]
    exact List.mem_singleton_self _
  refine ⟨parse_reads read, ⟨inside, bounded 1 _ inside⟩, ?_, _, member, deep, cleared _ member deep⟩
  rw [parse_reads read]
  exact invisible nofun 64 (by decide)

end Session

end Stencil
