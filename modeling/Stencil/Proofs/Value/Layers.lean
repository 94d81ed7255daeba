import Stencil.Proofs.Value.Dictionary

/-!
# Layers as one dictionary

However layers are nested, and whatever is written to them or removed from them, the mapping over them is the
one dictionary that lists their names layer by layer, each once and with the value of the first layer that has
it: `changed_eq_merged`.
-/

namespace Stencil

/-! ### Changes of layers -/

/-- A write to one layer, or a removal from it. -/
inductive Change where
  | set (layer : Nat) (key : Text) (v : Value)
  | del (layer : Nat) (key : Text)

namespace Change

def layer : Change → Nat
  | set i _ _ | del i _ => i

def edit : Change → List (Value × Value) → List (Value × Value)
  | set _ key v => putEntry (.str key) v
  | del _ key => eraseEntry (.str key)

def applyTo (ls : List (List (Value × Value))) (c : Change) : List (List (Value × Value)) :=
  ls.modify c.layer c.edit

end Change

theorem Dictionary.edit {es : List (Value × Value)} (dict : Dictionary es) (c : Change) :
    Dictionary (c.edit es) := by
  cases c with
  | set i key v => exact dict.put key v
  | del i key => exact dict.erase (.str key)

namespace Mapping

def change (m : Mapping) (c : Change) : Mapping := m.modifyLayer c.edit c.layer

theorem modify_append {α : Type} (f : α → α) (xs ys : List α) (i : Nat) : (xs ++ ys).modify i f =
    if i < xs.length then xs.modify i f ++ ys else xs ++ ys.modify (i - xs.length) f := by
  induction xs generalizing i with
  | nil => rfl
  | cons x xs ih =>
    cases i with
    | zero => rfl
    | succ i =>
      rw [List.cons_append, List.modify_succ_cons, ih]
      simp only [List.length_cons, Nat.add_lt_add_iff_right, Nat.add_sub_add_right]
      split <;> rfl

theorem layers_modifyLayer (f : List (Value × Value) → List (Value × Value)) (i : Nat) (m : Mapping) :
    (m.modifyLayer f i).layers = m.layers.modify i f := by
  fun_induction modifyLayer f i m with
  | case1 es => rfl
  | case2 i es behind =>
    cases i with
    | zero => exact absurd rfl behind
    | succ i => simp [layers]
  | case3 i inner outer inside ih => rw [layers, layers, ih, modify_append, if_pos inside]
  | case4 i inner outer behind ih => rw [layers, layers, ih, modify_append, if_neg behind]

theorem layers_change (m : Mapping) (c : Change) : (m.change c).layers = c.applyTo m.layers :=
  layers_modifyLayer c.edit c.layer m

theorem layers_changes (changes : List Change) (m : Mapping) :
    (changes.foldl change m).layers = changes.foldl Change.applyTo m.layers :=
  (List.foldl_hom layers fun m c => (layers_change m c).symm).symm

theorem Named.change {m : Mapping} (named : m.Named) (c : Change) : (m.change c).Named := by
  intro es member
  rw [layers_change] at member
  obtain ⟨i, at_i⟩ := List.mem_iff_getElem?.mp member
  unfold Change.applyTo at at_i
  rw [List.getElem?_modify] at at_i
  obtain ⟨before, found, rfl⟩ := Option.map_eq_some_iff.mp at_i
  have dict : Dictionary before := named before (List.mem_of_getElem? found)
  split
  · exact dict.edit c
  · exact dict

theorem Named.changes (changes : List Change) {m : Mapping} (named : m.Named) :
    (changes.foldl Mapping.change m).Named := by
  induction changes generalizing m with
  | nil => exact named
  | cons c changes ih => exact ih (named.change c)

end Mapping

/-! ### One dictionary -/

/-- The names of all layers, each once, with the values of the first layers that have them. -/
def merged (ls : List (List (Value × Value))) : List (Value × Value) :=
  (ls.flatMap names).eraseDups.filterMap fun key => (ls.findSome? (named? key)).map (Value.str key, ·)

theorem filter_eraseDups (p : Text → Bool) : (keys : List Text) →
    (keys.filter p).eraseDups = keys.eraseDups.filter p
  | [] => rfl
  | key :: keys => by
    have ih := filter_eraseDups p (keys.filter fun k => !k == key)
    rw [List.eraseDups_cons, List.filter_cons, List.filter_cons, ← ih, List.filter_filter]
    by_cases kept : p key = true
    · rw [if_pos kept, if_pos kept, List.eraseDups_cons, List.filter_filter]
      simp only [Bool.and_comm]
    · rw [if_neg kept, if_neg kept]
      congr 1
      apply List.filter_congr
      intro k _
      by_cases same : k = key
      · simp [same, kept]
      · simp [same]
termination_by keys => keys.length
decreasing_by exact Nat.lt_succ_of_le (List.length_filter_le _ _)

theorem names_filter {es : List (Value × Value)} (named : ∀ e ∈ es, ∃ key, e.1 = .str key) (p : Value → Bool) :
    names (es.filter fun e => p e.1) = (names es).filter fun key => p (.str key) := by
  induction es with
  | nil => rfl
  | cons e es ih =>
    obtain ⟨⟨key, same⟩, rest⟩ := List.forall_mem_cons.mp named
    obtain ⟨k, v⟩ := e
    obtain rfl : k = .str key := same
    have cons (es : List (Value × Value)) : names ((.str key, v) :: es) = key :: names es := rfl
    rw [List.filter_cons, cons, List.filter_cons, ← ih rest]
    split <;> rfl

namespace Mapping

variable {m : Mapping}

theorem find?_eq_findSome? (key : Text) (m : Mapping) : m.find? key = m.layers.findSome? (named? key) := by
  induction m using Mapping.rec (motive_1 := fun _ => True) (motive_3 := fun _ => True)
    (motive_4 := fun _ => True) (motive_5 := fun _ => True) with
  | layered inner outer hi ho => rw [find?_layered, layers, List.findSome?_append, hi, ho]
  | entries es => simp [find?, layers]
  | _ => trivial

theorem find?_isNone (key : Text) (m : Mapping) :
    (m.find? key).isNone = !(m.layers.flatMap names).elem key := by
  rw [find?_eq_findSome?, ← Option.not_isSome]
  congr 1
  rw [Bool.eq_iff_iff, List.findSome?_isSome_iff, List.elem_eq_mem, decide_eq_true_iff, List.mem_flatMap]
  simp only [named?_isSome]

theorem eraseDups_of_nodup {keys : List Text} (distinct : keys.Nodup) : keys.eraseDups = keys := by
  induction keys with
  | nil => rfl
  | cons key keys ih =>
    obtain ⟨new, rest⟩ := List.nodup_cons.mp distinct
    have kept : keys.filter (fun k => !k == key) = keys := by
      apply List.filter_eq_self.mpr
      intro k member
      have apart : k ≠ key := fun same => new (same ▸ member)
      simp [apart]
    rw [List.eraseDups_cons, kept, ih rest]

theorem Named.toList : {m : Mapping} → m.Named → Dictionary m.toList
  | entries es, named => named es (List.mem_singleton_self es)
  | layered inner outer, named => by
    obtain ⟨first, second⟩ := named_layered.mp named
    refine first.toList.append (second.toList.sublist List.filter_sublist) ?_
    -- What stays of the outer mapping has a name that the inner one does not have.
    intro key behind above
    obtain ⟨e, member, same⟩ := List.mem_map.mp (mem_names.mp behind)
    have hidden := (List.mem_filter.mp member).2
    rw [same, get?_str, ← named?_toList, Option.isNone_iff_eq_none] at hidden
    rw [← named?_isSome, hidden] at above
    cases above

theorem Named.names_toList : {m : Mapping} → m.Named → names m.toList = (m.layers.flatMap names).eraseDups
  | entries es, named => by
    have dict : Dictionary es := named es (List.mem_singleton_self es)
    rw [Mapping.toList, layers, List.flatMap_singleton, eraseDups_of_nodup dict.names_nodup]
  | layered inner outer, named => by
    obtain ⟨first, second⟩ := named_layered.mp named
    have new (key : Text) : (inner.get? (.str key)).isNone = !(inner.layers.flatMap names).elem key := by
      rw [get?_str, find?_isNone]
    rw [Mapping.toList, names_append, names_filter (fun e => second.toList.entry) fun k => (inner.get? k).isNone,
      first.names_toList, second.names_toList, layers, List.flatMap_append, List.eraseDups_append, List.removeAll,
      filter_eraseDups]
    simp only [new]

theorem Named.toList_eq_merged (named : m.Named) : m.toList = merged m.layers := by
  rw [← named.toList.filterMap_names, named.names_toList, merged]
  simp only [named?_toList, find?_eq_findSome?]

/-! ### Look-ups -/

theorem keyed?_append (key : Value) (xs ys : List (Value × Value)) :
    keyed? key (xs ++ ys) = (keyed? key xs).or (keyed? key ys) := by
  unfold keyed?
  rw [List.find?_append]
  cases xs.find? fun e => e.1.agrees key <;> rfl

theorem get?_layered (key : Value) (inner outer : Mapping) :
    (layered inner outer).get? key = (inner.get? key).or (outer.get? key) := keyed?_append key _ _

theorem hasKey_eq (key : Value) (m : Mapping) : m.hasKey key = (m.get? key).isSome := by
  rw [Bool.eq_iff_iff, hasKey_iff, get?, keyed?, Option.isSome_map, List.find?_isSome]

theorem getItem_eq (key : Value) : (m : Mapping) → m.getItem key = (m.get? key).elim (.error ⟨key⟩) .ok
  | entries es => rfl
  | layered inner outer => by
    rw [getItem, get?_layered, hasKey_eq, getItem_eq key inner, getItem_eq key outer]
    cases inner.get? key <;> rfl

theorem truthy_eq (m : Mapping) : (Value.mapping m).truthy = (m.toList.length != 0) := by
  rw [Value.truthy, isEmpty, Bool.eq_iff_iff]
  simp [← toList_eq_nil_iff]

theorem findSome?_eq_bind {α β : Type} (f : α → Option β) (xs : List α) :
    xs.findSome? f = (xs.find? fun x => (f x).isSome).bind f := by
  induction xs with
  | nil => rfl
  | cons x xs ih => cases found : f x <;> simp [found, ih]

/-- A name is looked up in the first layer that has its first segment. -/
theorem lookup_eq (m : Mapping) {path first : Text} {rest : List Text}
    (split : Node.segments path = first :: rest) : m.lookup path =
      match m.layers.find? fun es => (named? first es).isSome with
      | some es => (entries es).lookup path
      | none => .null := by
  have follow (n : Mapping) : n.lookup path = ((n.find? first).map (Value.follow · rest)).getD .null := by
    rw [lookup, split, Value.follow]
    cases n.find? first <;> rfl
  rw [follow, find?_eq_findSome?, findSome?_eq_bind]
  cases m.layers.find? fun es => (named? first es).isSome with
  | none => rfl
  | some es => exact (follow (entries es)).symm

end Mapping

/-- The mapping over any layers, however they are nested and changed, is the one dictionary of all of them: it lists
the same entries, counts as true if there are any, has the same keys with the same values, and is equal to the same
values. Names are looked up in the first layer that has their first segment, and in no other. -/
theorem Mapping.changed_eq_merged (m : Mapping) (changes : List Change) (named : m.Named) :
    let n := changes.foldl change m
    let ls := changes.foldl Change.applyTo m.layers
    n.layers = ls ∧ Dictionary (merged ls) ∧ n.toList = merged ls ∧
    (Value.mapping n).truthy = !(merged ls).isEmpty ∧ (Value.mapping n).truthy = (n.toList.length != 0) ∧
    (∀ key, n.get? key = keyed? key (merged ls) ∧ ((n.get? key).isSome = true ↔ key ∈ (merged ls).map (·.1)) ∧
      (n.hasKey key = true ↔ key ∈ (merged ls).map (·.1)) ∧
      n.getItem key = (keyed? key (merged ls)).elim (.error ⟨key⟩) .ok ∧
      (n.getItem key = .error ⟨key⟩ ↔ key ∉ (merged ls).map (·.1))) ∧
    (∀ name, n.find? name = named? name (merged ls)) ∧
    (∀ v, (Value.mapping n).agrees v = (Value.mapping (.entries (merged ls))).agrees v ∧
      v.agrees (.mapping n) = v.agrees (.mapping (.entries (merged ls)))) ∧
    ∀ path first rest, Node.segments path = first :: rest → n.lookup path =
      match ls.find? fun es => (named? first es).isSome with
      | some es => (entries es).lookup path
      | none => .null := by
  intro n ls
  have named_n : n.Named := named.changes changes
  have layers_n : n.layers = ls := layers_changes changes m
  have list : n.toList = merged ls := layers_n ▸ named_n.toList_eq_merged
  have dict : Dictionary (merged ls) := list ▸ named_n.toList
  have flat : (entries (merged ls)).Named := List.forall_mem_singleton.mpr dict
  have same (key : Text) : n.find? key = (entries (merged ls)).find? key := by
    rw [← named?_toList key n, list]
    rfl
  have get (key : Value) : n.get? key = keyed? key (merged ls) := by
    rw [named_n.get?_eq, funext same, ← flat.get?_eq]
    rfl
  have has (key : Value) : (n.get? key).isSome = true ↔ key ∈ (merged ls).map (·.1) := by
    rw [get, dict.keyed?_isSome]
  refine ⟨layers_n, dict, list, ?_, truthy_eq n, fun key => ⟨get key, has key, ?_, ?_, ?_⟩, same,
    fun v => ⟨?_, ?_⟩, fun path first rest split => ?_⟩
  · rw [Value.truthy, isEmpty, ← list, Bool.not_inj_iff, Bool.eq_iff_iff, List.isEmpty_iff, List.isEmpty_iff,
      toList_eq_nil_iff]
  · rw [hasKey_eq, has]
  · rw [getItem_eq, get]
  · rw [getItem_eq, ← has]
    cases n.get? key <;> simp
  · exact agrees_congr named_n flat same v
  · exact agrees_congr_right named_n flat same v
  · rw [lookup_eq n split, layers_n]

/-- Three layers, nested to the left and changed: a null hides the value behind it, and a name whose first
layer lacks its second segment is not looked up in the next one. -/
theorem Mapping.changed_eq_merged_hidden :
    let c := Value.mapping (.entries [(.str ['d'], .int 5)])
    let behind := [(.str ['a'], .int 2), (.str ['c'], .mapping (.entries [(.str ['x'], .int 3)]))]
    let m := ofLayersLeft [(.str ['a'], .null), (.str ['b'], .int 1)] [[(.str ['c'], c)], behind]
    let n := [Change.del 0 ['b'], .set 2 ['b'] (.int 7), .set 1 ['e'] .null].foldl change m
    m.Named ∧ n.toList = [(.str ['a'], .null), (.str ['c'], c), (.str ['e'], .null), (.str ['b'], .int 7)] ∧
      n.get? (.str ['a']) = some .null ∧ n.getItem (.str ['a']) = .ok .null ∧ n.lookup "c.d".toList = .int 5 ∧
      n.lookup "c.x".toList = .null := by
  intro c behind m n
  have named : m.Named := by
    have layers_m := layers_ofLayersLeft [(.str ['a'], .null), (.str ['b'], .int 1)] [[(.str ['c'], c)], behind]
    intro es member
    rw [layers_m] at member
    simp only [List.mem_cons, List.not_mem_nil, or_false] at member
    rcases member with rfl | rfl | rfl <;> exact ⟨by simp [behind], by simp [behind]⟩
  obtain ⟨-, -, list, -, -, get, -, -, look⟩ :=
    changed_eq_merged m [Change.del 0 ['b'], .set 2 ['b'] (.int 7), .set 1 ['e'] .null] named
  have whole : merged ([Change.del 0 ['b'], .set 2 ['b'] (.int 7), .set 1 ['e'] .null].foldl Change.applyTo m.layers) =
      [(.str ['a'], .null), (.str ['c'], c), (.str ['e'], .null), (.str ['b'], .int 7)] := by cbv
  refine ⟨named, list.trans whole, ?_, ?_, ?_, ?_⟩
  · rw [(get _).1, whole, keyed?_str]
    rfl
  · rw [(get _).2.2.2.1, whole, keyed?_str]
    rfl
  · exact (look "c.d".toList ['c'] [['d']] rfl).trans (by cbv)
  · exact (look "c.x".toList ['c'] [['x']] rfl).trans (by cbv)

end Stencil
