import Stencil.Proofs.Evaluate.Markup

/-!
# Escaped text read back

Entities are read from left to right, each as its character, and all other characters are copied. This undoes
escaping, also of texts that hold entities or parts of them before: `unescape_escapeHtml`. As commas are not
escaped, a list is escaped item by item, at every depth: `escaped_text`.
-/

namespace Stencil

/-! ### Entities at the start of a text -/

/-- The character whose entity stands at the start of the text, and the text behind the entity. -/
def readEntity? (s : Text) : Option (Char × Text) :=
  markup.findSome? fun c => (entity? c).bind fun e => (Text.after? e s).map (c, ·)

theorem mem_markup {c : Char} {e : Text} (found : entity? c = some e) : c ∈ markup := by
  by_contra other
  rw [entity?_eq_none.mpr other] at found
  cases found

/-- No entity begins another one. -/
theorem entity?_begins {c d : Char} {e f : Text} (first : entity? c = some e) (second : entity? d = some f)
    (begins : e <+: f) : c = d := by
  let apart (c d : Char) : Bool := c = d || !((entity? c).getD []).isPrefixOf ((entity? d).getD [])
  have all : markup.all (fun c => markup.all (apart c)) = true := by decide
  have here := List.all_eq_true.mp (List.all_eq_true.mp all c (mem_markup first)) d (mem_markup second)
  have front : e.isPrefixOf f = true := List.isPrefixOf_iff_prefix.mpr begins
  simpa [apart, first, second, front] using here

theorem entity?_unique {c d : Char} {e f r u : Text} (first : entity? c = some e) (second : entity? d = some f)
    (same : e ++ r = f ++ u) : c = d := by
  rcases List.prefix_or_prefix_of_prefix (List.prefix_append e r) (same ▸ List.prefix_append f u) with h | h
  · exact entity?_begins first second h
  · exact (entity?_begins second first h).symm

theorem readEntity?_sound {s r : Text} {c : Char} (read : readEntity? s = some (c, r)) :
    ∃ e, entity? c = some e ∧ s = e ++ r := by
  obtain ⟨d, -, read⟩ := List.exists_of_findSome?_eq_some read
  obtain ⟨e, found, read⟩ := Option.bind_eq_some_iff.mp read
  obtain ⟨u, behind, same⟩ := Option.map_eq_some_iff.mp read
  obtain ⟨rfl, rfl⟩ := Prod.mk.inj same
  exact ⟨e, found, Text.after?_eq_some.mp behind⟩

theorem readEntity?_eq_some {s r : Text} {c : Char} :
    readEntity? s = some (c, r) ↔ ∃ e, entity? c = some e ∧ s = e ++ r := by
  constructor
  · exact readEntity?_sound
  · rintro ⟨e, found, rfl⟩
    have reads : (readEntity? (e ++ r)).isSome = true := by
      rw [readEntity?, List.findSome?_isSome_iff]
      exact ⟨c, mem_markup found, by simp [found]⟩
    obtain ⟨⟨d, u⟩, read⟩ := Option.isSome_iff_exists.mp reads
    obtain ⟨f, found', same⟩ := readEntity?_sound read
    obtain rfl := entity?_unique found found' same
    obtain rfl := Option.some.inj (found.symm.trans found')
    rw [read, List.append_cancel_left same]

theorem entity_front {c : Char} {e : Text} (found : entity? c = some e) : ∃ w, e = '&' :: w := by
  have fronts : ∀ e ∈ entities, e.head? = some '&' := by decide
  exact List.head?_eq_some_iff.mp (fronts e (entity?_mem found))

theorem readEntity?_length {s r : Text} {c : Char} (read : readEntity? s = some (c, r)) : r.length < s.length := by
  obtain ⟨e, found, rfl⟩ := readEntity?_eq_some.mp read
  obtain ⟨w, rfl⟩ := entity_front found
  simp only [List.length_append, List.length_cons]
  omega

/-! ### Reading back -/

/-- The text with its entities read as the characters that they stand for, from left to right. -/
def unescape : Text → Text
  | [] => []
  | c :: s =>
    match _read : readEntity? (c :: s) with
    | some (d, rest) => d :: unescape rest
    | none => c :: unescape s
termination_by s => s.length
decreasing_by
  · exact readEntity?_length _read
  · exact Nat.lt_succ_self _

theorem unescape_entity {c : Char} {e : Text} (found : entity? c = some e) (r : Text) :
    unescape (e ++ r) = c :: unescape r := by
  have read : readEntity? (e ++ r) = some (c, r) := readEntity?_eq_some.mpr ⟨e, found, rfl⟩
  obtain ⟨w, rfl⟩ := entity_front found
  rw [List.cons_append] at read ⊢
  rw [unescape]
  split
  · next read' =>
    rw [read] at read'
    cases read'
    rfl
  · next read' =>
    rw [read] at read'
    cases read'

theorem unescape_plain {c : Char} (plain : c ≠ '&') (s : Text) : unescape (c :: s) = c :: unescape s := by
  rw [unescape]
  split
  · next read =>
    obtain ⟨e, found, same⟩ := readEntity?_eq_some.mp read
    obtain ⟨w, rfl⟩ := entity_front found
    exact absurd (List.cons.inj same).1 plain
  · rfl

theorem unescape_escapeHtml (t : Text) : unescape (escapeHtml t) = t := by
  induction t with
  | nil => rw [escapeHtml, List.flatMap_nil, unescape]
  | cons c t ih =>
    show unescape ((entity? c).getD [c] ++ escapeHtml t) = c :: t
    cases found : entity? c with
    | some e => rw [Option.getD_some, unescape_entity found, ih]
    | none =>
      have plain : c ≠ '&' := by
        rintro rfl
        cases found
      rw [Option.getD_none, List.singleton_append, unescape_plain plain, ih]

/-! ### Lists -/

mutual

/-- The text of a value with escapes: the items of lists one by one, at every depth, and all else as a whole. -/
def Value.escaped : Value → Except NumeralFault Text
  | .list items | .tuple items => Text.join [','] <$> escapedAll items
  | v => escapeHtml <$> v.text

def escapedAll : List Value → Except NumeralFault (List Text)
  | [] => .ok []
  | v :: vs => do
    let part ← v.escaped
    return part :: (← escapedAll vs)

end

theorem escapedAll_eq_mapM (vs : List Value) : escapedAll vs = vs.mapM Value.escaped := by
  induction vs with
  | nil => rfl
  | cons v vs ih => rw [escapedAll, ih, List.mapM_cons]

/-- Commas are not escaped. -/
theorem escapeHtml_join (ts : List Text) : escapeHtml (Text.join [','] ts) = Text.join [','] (ts.map escapeHtml) := by
  fun_induction Text.join [','] ts with
  | case1 => rfl
  | case2 t => rfl
  | case3 t ts more ih =>
    cases ts with
    | nil => exact absurd rfl more
    | cons u ts =>
      have comma : escapeHtml [','] = [','] := rfl
      rw [escapeHtml_append, escapeHtml_append, comma, ih]
      rfl

theorem escaped_joined {r : Except NumeralFault (List Text)} :
    escapeHtml <$> Text.join [','] <$> r = Text.join [','] <$> List.map escapeHtml <$> r := by
  cases r with
  | error fault => rfl
  | ok ts => exact congrArg Except.ok (escapeHtml_join ts)

mutual

theorem escaped_text : (v : Value) → escapeHtml <$> v.text = v.escaped
  | .list items | .tuple items => by
    have inner := escapedAll_text items
    rw [Value.escaped, ← inner, ← escaped_joined, Value.text]
    rfl
  | .null | .bool _ | .int _ | .float _ | .str _ | .mapping _ | .time _ | .helper _ _ => rfl

theorem escapedAll_text : (vs : List Value) → List.map escapeHtml <$> textAll vs = escapedAll vs
  | [] => rfl
  | v :: vs => by
    have first := escaped_text v
    have others := escapedAll_text vs
    rw [escapedAll, ← first, ← others, textAll]
    cases v.text with
    | error fault => rfl
    | ok t => cases textAll vs <;> rfl

end

/-- Escaping can be undone, so no two texts are escaped alike. It goes piece by piece through texts, and item by
item through lists, where the first item without a text is the fault of the list. -/
theorem escapeHtml_lossless (s t : Text) (items : List Value) :
    unescape (escapeHtml t) = t ∧ (escapeHtml s = escapeHtml t ↔ s = t) ∧
    escapeHtml (s ++ t) = escapeHtml s ++ escapeHtml t ∧
    escapeHtml <$> (Value.list items).text =
      Text.join [','] <$> items.mapM (fun v => escapeHtml <$> v.text) ∧
    ∀ v : Value, escapeHtml <$> v.text = v.escaped := by
  refine ⟨unescape_escapeHtml t, ?_, escapeHtml_append s t, ?_, escaped_text⟩
  · constructor
    · intro same
      rw [← unescape_escapeHtml s, same, unescape_escapeHtml]
    · exact congrArg escapeHtml
  · have each : (fun v : Value => escapeHtml <$> v.text) = Value.escaped := funext escaped_text
    rw [each, ← escapedAll_eq_mapM, escaped_text, Value.escaped]

end Stencil
