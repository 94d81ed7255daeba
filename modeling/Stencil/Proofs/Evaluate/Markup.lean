import Stencil.Proofs.Evaluate.Block

/-!
# Output without markup

What escaping leaves holds no character of markup but the ampersands of entities. `render_inert` says the same
of templates of texts, escaped values and sections, whatever the environment holds.
-/

namespace Stencil

/-- The characters that could open markup or end an attribute. -/
def markup : Text := ['&', '<', '>', '"', '\'', '/', '\x60', '=']

def entities : List Text :=
  ["&amp;".toList, "&lt;".toList, "&gt;".toList, "&quot;".toList, "&#39;".toList, "&#x2F;".toList, "&#x60;".toList,
    "&#x3D;".toList]

/-- No character of markup stands in the text, but for ampersands at the start of entities. -/
structure Inert (t : Text) : Prop where
  closed : ∀ c ∈ t, c ∈ markup → c = '&'
  ampersand : ∀ before behind, t = before ++ '&' :: behind → ∃ e ∈ entities, e <+: '&' :: behind

/-! ### Texts without markup -/

theorem inert_of_plain {t : Text} (plain : ∀ c ∈ t, c ∉ markup) : Inert t := by
  constructor
  · intro c member marked
    exact absurd marked (plain c member)
  · intro before behind split
    have member : '&' ∈ t := by simp [split]
    exact absurd (by decide) (plain '&' member)

theorem Inert.append {s t : Text} (first : Inert s) (second : Inert t) : Inert (s ++ t) := by
  constructor
  · intro c member
    rcases List.mem_append.mp member with member | member
    · exact first.closed c member
    · exact second.closed c member
  · intro before behind split
    rcases List.append_eq_append_iff.mp split with ⟨u, -, rest⟩ | ⟨u, rest, later⟩
    · exact second.ampersand u behind rest
    · cases u with
      | nil => exact second.ampersand [] behind later.symm
      | cons c u =>
        obtain ⟨rfl, rfl⟩ := List.cons.inj later
        obtain ⟨e, member, front⟩ := first.ampersand before u rest
        exact ⟨e, member, front.trans (List.prefix_append ('&' :: u) t)⟩

theorem inert_flatten {ts : List Text} (inert : ∀ t ∈ ts, Inert t) : Inert ts.flatten := by
  induction ts with
  | nil => exact inert_of_plain nofun
  | cons t ts ih =>
    obtain ⟨first, others⟩ := List.forall_mem_cons.mp inert
    exact first.append (ih others)

/-! ### Escaped text -/

theorem entity?_eq_none {c : Char} : entity? c = none ↔ c ∉ markup := by
  unfold entity?
  split <;> simp_all [markup]

theorem entity?_mem {c : Char} {e : Text} (found : entity? c = some e) : e ∈ entities := by
  have all : markup.all (fun c => (entity? c).all (· ∈ entities)) = true := by decide
  by_cases member : c ∈ markup
  · have here := List.all_eq_true.mp all c member
    rw [found] at here
    exact of_decide_eq_true here
  · rw [entity?_eq_none.mpr member] at found
    cases found

theorem inert_entity {e : Text} (member : e ∈ entities) : Inert e := by
  have shapes : ∀ e ∈ entities, e.head? = some '&' ∧ e.tail.all (· ∉ markup) = true := by decide
  obtain ⟨front, others⟩ := shapes e member
  have plain : ∀ c ∈ e.tail, c ∉ markup := fun c inside => of_decide_eq_true (List.all_eq_true.mp others c inside)
  obtain ⟨w, rfl⟩ := List.head?_eq_some_iff.mp front
  constructor
  · intro c inside marked
    rcases List.mem_cons.mp inside with rfl | inside
    · rfl
    · exact absurd marked (plain c inside)
  · intro before behind split
    cases before with
    | nil => exact ⟨'&' :: w, member, split ▸ List.prefix_refl _⟩
    | cons c before =>
      have inside : '&' ∈ w := by simp [(List.cons.inj split).2]
      exact absurd (by decide) (plain '&' inside)

theorem inert_escapeHtml (s : Text) : Inert (escapeHtml s) := by
  induction s with
  | nil => exact inert_of_plain nofun
  | cons c s ih =>
    have first : Inert ((entity? c).getD [c]) := by
      cases found : entity? c with
      | none => exact inert_of_plain (List.forall_mem_singleton.mpr (entity?_eq_none.mp found))
      | some e => exact inert_entity (entity?_mem found)
    exact first.append ih

/-! ### Templates that escape -/

/-- Texts without markup, escaped values, and sections of such nodes; nothing is asked of what is escaped, and
of what a section goes over. -/
inductive Escaping : List Node → Prop
  | nil : Escaping []
  | text {t : Text} {ns : List Node} (plain : ∀ c ∈ t, c ∉ markup) (rest : Escaping ns) : Escaping (.text t :: ns)
  | escaped {inner : Node} {ns : List Node} (rest : Escaping ns) : Escaping (.escaped inner :: ns)
  | block {sense : Sense} {context : Node} {body ns : List Node} (inner : Escaping body) (rest : Escaping ns) :
      Escaping (.block sense context body :: ns)

variable {host : Host} {env : Mapping}

theorem escaped_inert {inner : Node} {v : Value} (value : (evaluate host env (.escaped inner)).Returns v) :
    ∃ t, v = .str t ∧ Inert t := by
  rw [evaluate_escaped, Eval.returns_bind] at value
  obtain ⟨w, -, value⟩ := value
  split at value
  · obtain ⟨t, -, value⟩ := Eval.returns_bind.mp value
    exact ⟨escapeHtml t, (Eval.returns_pure.mp value).symm, inert_escapeHtml t⟩
  · exact ⟨[], (Eval.returns_pure.mp value).symm, inert_of_plain nofun⟩

/-- Whatever the environment holds, such a template renders as text without markup. -/
theorem render_inert {ns : List Node} {t : Text} (escaping : Escaping ns)
    (rendered : (render host env ns).Returns t) : Inert t := by
  -- The bodies of sections are rendered in other environments.
  induction escaping generalizing env t with
  | nil =>
    rw [render_nil, Eval.returns_pure] at rendered
    exact rendered ▸ inert_of_plain (List.forall_mem_nil _)
  | text plain rest ih =>
    obtain ⟨v, first, others, value, written, later, rfl⟩ := returns_render_cons.mp rendered
    rw [evaluate_text, Eval.returns_pure] at value
    subst value
    obtain rfl := Except.ok.inj written
    exact (inert_of_plain plain).append (ih later)
  | escaped rest ih =>
    obtain ⟨v, first, others, value, written, later, rfl⟩ := returns_render_cons.mp rendered
    obtain ⟨u, rfl, inert⟩ := escaped_inert value
    obtain rfl := Except.ok.inj written
    exact inert.append (ih later)
  | block inner rest ihInner ih =>
    obtain ⟨v, first, others, value, written, later, rfl⟩ := returns_render_cons.mp rendered
    simp only [evaluate_block, Eval.returns_bind, Eval.returns_mapM, Eval.returns_pure] at value
    obtain ⟨w, -, parts, shown, rfl⟩ := value
    obtain rfl := Except.ok.inj written
    have inert : ∀ part ∈ parts, Inert part := by
      have each := shown.flip.imp fun part view rendered => And.intro (ihInner rendered) rendered
      exact ((List.forall₂_and_left _ _).mp each).1
    exact (inert_flatten inert).append (ih later)

/-- A section over a list: a text in the item, and where the item has none, a dictionary of the environment. -/
theorem render_inert_items :
    let nodes : List Node := [.text ['-'], .block .plain (.name ['s']) [.escaped (.name ['x'])]]
    let item := Value.mapping (.entries [(.str ['x'], .str ['<', '&'])])
    let env := Mapping.entries [(.str ['s'], .list [item, .int 1]),
      (.str ['x'], .mapping (.entries [(.str ['k'], .str ['='])]))]
    let t := "-&lt;&amp;\x7b&#39;k&#39;: &#39;&#x3D;&#39;\x7d".toList
    Escaping nodes ∧ (render Host.empty env nodes).Returns t ∧ Inert t := by
  intro nodes item env t
  have plain : ∀ c ∈ ['-'], c ∉ markup := List.forall_mem_singleton.mpr (by decide)
  have escaping : Escaping nodes := .text plain (.block (.escaped .nil) .nil)
  have rendered : (render Host.empty env nodes).Returns t := by rfl
  exact ⟨escaping, rendered, render_inert escaping rendered⟩

end Stencil
