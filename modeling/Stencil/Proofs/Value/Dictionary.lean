import Mathlib.Data.List.Nodup
import Stencil.Proofs.Evaluate.Copying

/-!
# Dictionaries

Entries whose keys are names, none of them twice. Writes and removals keep dictionaries, and a dictionary is
given back by its names in order and their values: `Dictionary.filterMap_names`. Mappings whose layers are
dictionaries are equal to the same values if they give names the same values: `agrees_congr` and
`agrees_congr_right`.
-/

namespace Stencil

def Value.name? : Value → Option Text
  | .str key => some key
  | _ => none

/-- The names among the keys, in order. -/
def names (es : List (Value × Value)) : List Text := es.filterMap fun e => e.1.name?

structure Dictionary (es : List (Value × Value)) : Prop where
  named : ∀ k ∈ es.map (·.1), ∃ key, k = Value.str key
  distinct : (es.map (·.1)).Nodup

variable {es : List (Value × Value)} {key : Text} {v : Value}

theorem names_append (xs ys : List (Value × Value)) : names (xs ++ ys) = names xs ++ names ys :=
  List.filterMap_append

theorem mem_names : key ∈ names es ↔ Value.str key ∈ es.map (·.1) := by
  have one (k : Value) : k.name? = some key ↔ k = .str key := by cases k <;> simp [Value.name?]
  simp only [names, List.mem_filterMap, List.mem_map, one]

theorem named?_isSome : (named? key es).isSome = true ↔ key ∈ names es := by
  rw [mem_names]
  induction es with
  | nil => simp [named?]
  | cons e es ih =>
    obtain ⟨k, v⟩ := e
    by_cases same : k = .str key
    · rw [same, named?_cons_same]
      simp
    · rw [named?_cons_other same, ih]
      simp [Ne.symm same]

/-! ### Single dictionaries -/

theorem Dictionary.entry {e : Value × Value} (dict : Dictionary es) (member : e ∈ es) :
    ∃ key, e.1 = .str key := dict.named e.1 (List.mem_map_of_mem member)

theorem Dictionary.of_cons {k : Value} (dict : Dictionary ((k, v) :: es)) :
    (∃ key, k = .str key ∧ key ∉ names es) ∧ Dictionary es := by
  obtain ⟨⟨key, same⟩, named⟩ := List.forall_mem_cons.mp dict.named
  obtain ⟨new, distinct⟩ := List.nodup_cons.mp dict.distinct
  refine ⟨⟨key, same, ?_⟩, named, distinct⟩
  rw [mem_names, ← same]
  exact new

/-- A dictionary gives a name the value that stands behind it. -/
theorem Dictionary.named?_eq_some (dict : Dictionary es) : named? key es = some v ↔ (.str key, v) ∈ es := by
  induction es with
  | nil => simp [named?]
  | cons e es ih =>
    obtain ⟨k, w⟩ := e
    obtain ⟨⟨first, rfl, new⟩, rest⟩ := dict.of_cons
    by_cases same : first = key
    · subst same
      rw [named?_cons_same, List.mem_cons]
      have absent : (Value.str first, v) ∉ es := fun member => new (mem_names.mpr (List.mem_map_of_mem member))
      simp [absent, eq_comm]
    · have apart : Value.str first ≠ .str key := fun h => same (Value.str.inj h)
      rw [named?_cons_other apart, ih rest, List.mem_cons]
      simp [Ne.symm same]

theorem Dictionary.filterMap_names (dict : Dictionary es) :
    (names es).filterMap (fun key => (named? key es).map (Value.str key, ·)) = es := by
  induction es with
  | nil => rfl
  | cons e es ih =>
    obtain ⟨k, v⟩ := e
    obtain ⟨⟨first, rfl, new⟩, rest⟩ := dict.of_cons
    have behind : ∀ key ∈ names es, (named? key ((.str first, v) :: es)).map (Value.str key, ·) =
        (named? key es).map (Value.str key, ·) := by
      intro key member
      have apart : Value.str first ≠ .str key := by
        intro same
        exact new (Value.str.inj same ▸ member)
      rw [named?_cons_other apart]
    show (first :: names es).filterMap _ = _
    rw [List.filterMap_cons_some (b := (.str first, v)) (by rw [named?_cons_same]; rfl),
      List.filterMap_congr behind, ih rest]

theorem Dictionary.names_nodup (dict : Dictionary es) : (names es).Nodup := by
  induction es with
  | nil => exact List.nodup_nil
  | cons e es ih =>
    obtain ⟨k, v⟩ := e
    obtain ⟨⟨first, rfl, new⟩, rest⟩ := dict.of_cons
    exact List.nodup_cons.mpr ⟨new, ih rest⟩

theorem Dictionary.sublist {few : List (Value × Value)} (dict : Dictionary es) (within : few.Sublist es) :
    Dictionary few :=
  ⟨fun k member => dict.named k ((within.map _).subset member), dict.distinct.sublist (within.map _)⟩

theorem Dictionary.append {fs : List (Value × Value)} (dict : Dictionary es) (other : Dictionary fs)
    (apart : ∀ key ∈ names fs, key ∉ names es) : Dictionary (es ++ fs) := by
  constructor
  · rw [List.map_append]
    exact List.forall_mem_append.mpr ⟨dict.named, other.named⟩
  · rw [List.map_append, List.nodup_append]
    refine ⟨dict.distinct, other.distinct, ?_⟩
    rintro k first k' second rfl
    obtain ⟨key, rfl⟩ := other.named k second
    exact apart key (mem_names.mpr second) (mem_names.mpr first)

theorem Dictionary.keyed?_isSome (dict : Dictionary es) (k : Value) :
    (keyed? k es).isSome = true ↔ k ∈ es.map (·.1) := by
  have equal : ∀ e ∈ es, e.1.agrees k = true ↔ e.1 = k := by
    intro e member
    obtain ⟨key, same⟩ := dict.entry member
    rw [same, Value.agrees_str, eq_comm]
  rw [keyed?, Option.isSome_map, List.find?_isSome, List.mem_map]
  exact exists_congr fun e => and_congr_right fun member => equal e member

/-! ### Writes and removals -/

theorem keys_put (key v : Value) (es : List (Value × Value)) :
    (putEntry key v es).map (·.1) = es.map (·.1) ∨
      (∀ k ∈ es.map (·.1), k.agrees key = false) ∧ (putEntry key v es).map (·.1) = es.map (·.1) ++ [key] := by
  induction es with
  | nil => exact .inr ⟨nofun, rfl⟩
  | cons e es ih =>
    obtain ⟨k, w⟩ := e
    rw [putEntry]
    by_cases same : k.agrees key = true
    · rw [if_pos same]
      exact .inl rfl
    · rw [if_neg same]
      rcases ih with kept | ⟨new, added⟩
      · exact .inl (congrArg (k :: ·) kept)
      · refine .inr ⟨?_, congrArg (k :: ·) added⟩
        exact List.forall_mem_cons.mpr ⟨Bool.eq_false_iff.mpr same, new⟩

theorem Dictionary.put (dict : Dictionary es) (key : Text) (v : Value) : Dictionary (putEntry (.str key) v es) := by
  rcases keys_put (.str key) v es with kept | ⟨new, added⟩
  · constructor <;> rw [kept]
    · exact dict.named
    · exact dict.distinct
  · constructor <;> rw [added]
    · exact List.forall_mem_append.mpr ⟨dict.named, List.forall_mem_singleton.mpr ⟨key, rfl⟩⟩
    · rw [List.nodup_append]
      refine ⟨dict.distinct, List.nodup_singleton _, ?_⟩
      rintro k member k' single rfl
      obtain rfl := List.mem_singleton.mp single
      have differs := new _ member
      rw [Value.agrees_str.mpr rfl] at differs
      cases differs

theorem Dictionary.erase (dict : Dictionary es) (key : Value) : Dictionary (eraseEntry key es) :=
  dict.sublist List.eraseP_sublist

/-! ### Equality -/

theorem find?_agrees_str (key : Text) (es : List (Value × Value)) :
    (es.find? fun e => (Value.str key).agrees e.1).map (·.2) = named? key es := by
  induction es with
  | nil => rfl
  | cons e es ih =>
    obtain ⟨k, v⟩ := e
    by_cases same : k = .str key
    · rw [List.find?_cons_of_pos (by exact Value.agrees_str.mpr same), same, named?_cons_same]
      rfl
    · rw [List.find?_cons_of_neg (by exact mt Value.agrees_str.mp same), named?_cons_other same, ih]

namespace Mapping

variable {m m' o : Mapping}

/-- All layers are dictionaries. -/
def Named (m : Mapping) : Prop := ∀ es ∈ m.layers, Dictionary es

theorem named_layered {inner outer : Mapping} : (layered inner outer).Named ↔ inner.Named ∧ outer.Named :=
  List.forall_mem_append

theorem find?_isSome : (m.find? key).isSome = true ↔ Value.str key ∈ m.allEntries.map (·.1) := by
  rw [find?_eq_named?, named?_isSome, mem_names]

theorem Named.keys (named : m.Named) : ∀ e ∈ m.allEntries, ∃ key, e.1 = .str key := by
  intro e member
  rw [allEntries_eq_flatten] at member
  obtain ⟨es, layer, inside⟩ := List.mem_flatten.mp member
  exact (named es layer).entry inside

/-- What holds of no name holds of no key. -/
theorem Named.find?_eq_none (named : m.Named) {p : Value → Bool} (apart : ∀ key, p (.str key) = false) :
    (m.allEntries.find? fun e => p e.1) = none := by
  rw [List.find?_eq_none]
  intro e member
  obtain ⟨key, same⟩ := named.keys e member
  rw [same, apart]
  exact Bool.false_ne_true

theorem Named.get?_eq (named : m.Named) (k : Value) : m.get? k = k.name?.bind m.find? := by
  cases k with
  | str key => exact get?_str key m
  | _ =>
    rw [get?, keyed?, named.find?_eq_none (p := fun k => k.agrees _)]
    · rfl
    · intro key
      rw [Bool.eq_false_iff, ne_eq, Value.agrees_str]
      intro same
      cases same

theorem toList_eq_nil_iff : {m : Mapping} → (m.toList = [] ↔ m.allEntries = [])
  | entries es => Iff.rfl
  | layered inner outer => by
    rw [toList, allEntries, List.append_eq_nil_iff, List.append_eq_nil_iff, toList_eq_nil_iff,
      ← toList_eq_nil_iff (m := outer)]
    refine and_congr_right fun none => ?_
    have shown : outer.toList.filter (fun e => (inner.get? e.1).isNone) = outer.toList := by
      apply List.filter_eq_self.mpr
      intro e _
      rw [get?, none]
      rfl
    rw [shown]

theorem entriesWithin_iff {hidden : List Value} : entriesWithin es hidden o = true ↔
    ∀ e ∈ es, hidden.any e.1.agrees = true ∨
      ∃ w, (o.allEntries.find? fun f => e.1.agrees f.1).map (·.2) = some w ∧ e.2.agrees w = true := by
  induction es with
  | nil => simp [entriesWithin]
  | cons e es ih =>
    obtain ⟨k, v⟩ := e
    rw [entriesWithin, Bool.and_eq_true, ih, List.forall_mem_cons, Bool.or_eq_true]
    refine and_congr_left' (or_congr_right ?_)
    cases found : o.allEntries.find? fun f => k.agrees f.1 <;> simp

theorem Named.within_iff {hidden : List Value} : {m : Mapping} → m.Named → (m.within hidden o = true ↔
    ∀ key v, m.find? key = some v → Value.str key ∈ hidden ∨ ∃ w, o.find? key = some w ∧ v.agrees w = true)
  | entries es, named => by
    have dict : Dictionary es := named es (List.mem_singleton_self es)
    have hides (key : Text) : hidden.any (Value.str key).agrees = true ↔ Value.str key ∈ hidden := by
      simp [List.any_eq_true, Value.agrees_str]
    rw [within, entriesWithin_iff]
    constructor
    · intro each key v found
      have entry := each _ (dict.named?_eq_some.mp found)
      rw [hides, find?_agrees_str, ← find?_eq_named?] at entry
      exact entry
    · rintro each ⟨k, v⟩ member
      obtain ⟨key, same⟩ := dict.entry member
      obtain rfl : k = .str key := same
      rw [hides, find?_agrees_str, ← find?_eq_named?]
      exact each key v (dict.named?_eq_some.mpr member)
  | layered inner outer, named => by
    obtain ⟨first, second⟩ := named_layered.mp named
    rw [within, Bool.and_eq_true, first.within_iff, second.within_iff]
    constructor
    · rintro ⟨shown, behind⟩ key v found
      rw [find?_layered] at found
      cases above : inner.find? key with
      | some w =>
        rw [above] at found
        exact shown key v (above.trans found)
      | none =>
        rw [above] at found
        rcases behind key v found with covered | equal
        · refine (List.mem_append.mp covered).imp_right fun inside => ?_
          rw [← find?_isSome, above] at inside
          cases inside
        · exact .inr equal
    · intro each
      constructor
      · intro key v found
        exact each key v (by rw [find?_layered, found]; rfl)
      · intro key v found
        cases above : inner.find? key with
        | some w =>
          have covered : Value.str key ∈ inner.allEntries.map (·.1) := find?_isSome.mp (by rw [above]; rfl)
          exact .inl (List.mem_append_right _ covered)
        | none =>
          have entry := each key v (by rw [find?_layered, above]; exact found)
          exact entry.imp_left (List.mem_append_left _)

theorem hasKey_iff {k : Value} : {m : Mapping} → (m.hasKey k = true ↔ ∃ e ∈ m.allEntries, e.1.agrees k = true)
  | entries es => by
    rw [hasKey, allEntries]
    induction es with
    | nil => simp [entriesHave]
    | cons e es ih =>
      obtain ⟨k', v⟩ := e
      rw [entriesHave, Bool.or_eq_true, ih]
      simp
  | layered inner outer => by
    rw [hasKey, allEntries, Bool.or_eq_true, hasKey_iff, hasKey_iff]
    simp only [List.mem_append, or_and_right, exists_or]

/-- The other mapping has an equal value for each name, and no further keys. -/
theorem Named.agrees_iff (named : m.Named) : (Value.mapping m).agrees (.mapping o) = true ↔
    (∀ key v, m.find? key = some v → ∃ w, o.find? key = some w ∧ v.agrees w = true) ∧
      ∀ f ∈ o.allEntries, ∃ key, f.1 = .str key ∧ (m.find? key).isSome = true := by
  have has (k : Value) : m.hasKey k = true ↔ ∃ key, k = .str key ∧ (m.find? key).isSome = true := by
    rw [hasKey_iff]
    constructor
    · rintro ⟨e, member, equal⟩
      obtain ⟨key, same⟩ := named.keys e member
      rw [same, Value.agrees_str] at equal
      exact ⟨key, equal, find?_isSome.mpr (List.mem_map.mpr ⟨e, member, same⟩)⟩
    · rintro ⟨key, rfl, found⟩
      obtain ⟨e, member, same⟩ := List.mem_map.mp (find?_isSome.mp found)
      exact ⟨e, member, Value.agrees_str_right.mpr same⟩
  rw [Value.agrees, Bool.and_eq_true, named.within_iff, List.all_eq_true]
  simp only [List.not_mem_nil, false_or, has]

theorem agrees_congr (named : m.Named) (named' : m'.Named) (same : ∀ key, m.find? key = m'.find? key) (w : Value) :
    (Value.mapping m).agrees w = (Value.mapping m').agrees w := by
  cases w with
  | mapping o =>
    rw [Bool.eq_iff_iff, named.agrees_iff, named'.agrees_iff]
    simp only [same]
  | _ => simp [Value.agrees]

/-- Entries under a key equal to one that is looked up. -/
theorem Named.find?_agrees (named : m.Named) (k : Value) :
    (m.allEntries.find? fun e => k.agrees e.1).map (·.2) = k.name?.bind m.find? := by
  cases k with
  | str key => exact (find?_agrees_str key _).trans (find?_eq_named? key m).symm
  | _ =>
    rw [named.find?_eq_none (p := fun k => Value.agrees _ k)]
    · rfl
    · intro key
      rw [Bool.eq_false_iff, ne_eq, Value.agrees_str_right]
      exact nofun

theorem within_congr (same : ∀ k : Value, (m.allEntries.find? fun e => k.agrees e.1).map (·.2) =
    (m'.allEntries.find? fun e => k.agrees e.1).map (·.2)) (hidden : List Value) :
    (o : Mapping) → o.within hidden m = o.within hidden m'
  | entries es => by
    rw [within, within, Bool.eq_iff_iff, entriesWithin_iff, entriesWithin_iff]
    simp only [same]
  | layered inner outer => by rw [within, within, within_congr same _ inner, within_congr same _ outer]

theorem agrees_congr_right (named : m.Named) (named' : m'.Named) (same : ∀ key, m.find? key = m'.find? key)
    (w : Value) : w.agrees (.mapping m) = w.agrees (.mapping m') := by
  have all (n : Mapping) (named : n.Named) (p : Value → Bool) : n.allEntries.all (fun e => p e.1) = true ↔
      ∀ key, (n.find? key).isSome = true → p (.str key) = true := by
    rw [List.all_eq_true]
    constructor
    · intro each key found
      obtain ⟨e, member, same⟩ := List.mem_map.mp (find?_isSome.mp found)
      exact same ▸ each e member
    · intro each e member
      obtain ⟨key, same⟩ := named.keys e member
      rw [same]
      exact each key (find?_isSome.mpr (List.mem_map.mpr ⟨e, member, same⟩))
  cases w with
  | mapping o =>
    have equal : o.within [] m = o.within [] m' := by
      apply within_congr
      intro k
      rw [named.find?_agrees, named'.find?_agrees, funext same]
    rw [Value.agrees, Value.agrees, equal, Bool.eq_iff_iff, Bool.and_eq_true, Bool.and_eq_true]
    simp only [all m named, all m' named', same]
  | _ => simp [Value.agrees, Value.whole?]

end Mapping

end Stencil
