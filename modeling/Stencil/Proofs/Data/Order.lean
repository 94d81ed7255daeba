import Stencil.Proofs.Data.Override
import Stencil.Proofs.Value.Reordered

/-!
# The order of overrides

Overrides of paths that lie apart may change places, one whose path is written again later may be left out,
whatever stands between the two, and the last one at a path is what stands there in the end: `applyAll_order`.
Paths that share their first names write into the same dictionaries, so `assign_comm` is an induction on what they
share.
-/

namespace Stencil

variable {load : Loader} {es fs : List (Value × Value)} {v w : Value} {p q : List Text} {part : Text}

namespace Override

/-! ### One segment of a write -/

/-- The entries of a plain dictionary; any other value has none. -/
def held : Value → List (Value × Value)
  | .mapping (.entries es) => es
  | _ => []

/-- What a write puts under the first name of its path, where `inner` stands below that name. -/
def grafted (v : Value) (rest : List Text) (inner : List (Value × Value)) : Value :=
  if rest.isEmpty then v else .mapping (.entries (assign v rest inner))

theorem assign_step (v : Value) (part : Text) (rest : List Text) (es : List (Value × Value)) :
    assign v (part :: rest) es = putEntry (.str part) (grafted v rest (below part es)) es := by
  cases rest <;> rfl

theorem below_cons_same (part : Text) (v : Value) (es : List (Value × Value)) :
    below part ((.str part, v) :: es) = held v := by
  rw [below, named?_cons_same]
  cases v with
  | mapping m => cases m <;> rfl
  | _ => rfl

theorem below_put_same (part : Text) (v : Value) (es : List (Value × Value)) :
    below part (putEntry (.str part) v es) = held v := by
  rw [← below_cons_same part v [], below, named?_put_same, below, named?_cons_same]

theorem below_put_other {part other : Text} (apart : part ≠ other) (v : Value) (es : List (Value × Value)) :
    below other (putEntry (.str part) v es) = below other es := by
  rw [below, named?_put_other (str_ne_str apart), below]

/-- A second write that starts with the same name goes on in what the first one put there. -/
theorem assign_assign (v w : Value) (part : Text) (rest rest' : List Text) (es : List (Value × Value)) :
    assign w (part :: rest') (assign v (part :: rest) es) =
      putEntry (.str part) (grafted w rest' (held (grafted v rest (below part es)))) es := by
  rw [assign_step, assign_step, below_put_same, put_put_same]

/-! ### Two writes -/

/-- Neither path leads to a place on the other. -/
def Apart (p q : List Text) : Prop := ¬ p <+: q ∧ ¬ q <+: p

theorem Apart.symm (apart : Apart p q) : Apart q p := ⟨apart.2, apart.1⟩

theorem Apart.of_cons (apart : Apart (part :: p) (part :: q)) : Apart p q :=
  ⟨fun front => apart.1 (List.cons_prefix_cons.mpr ⟨rfl, front⟩),
    fun front => apart.2 (List.cons_prefix_cons.mpr ⟨rfl, front⟩)⟩

/-- A write hides an earlier one to the same path or further down. -/
theorem assign_hides (nonempty : q ≠ []) (front : q <+: p) (v w : Value) (es : List (Value × Value)) :
    assign w q (assign v p es) = assign w q es := by
  induction q generalizing p es with
  | nil => exact absurd rfl nonempty
  | cons part rest ih =>
    obtain ⟨keys, rfl⟩ := front
    rw [List.cons_append, assign_assign, assign_step]
    cases rest with
    | nil => rfl
    | cons next rest =>
      have inner := ih (List.cons_ne_nil next rest) (List.prefix_append _ keys) (below part es)
      exact congrArg (fun inner => putEntry (.str part) (.mapping (.entries inner)) es) inner

/-- A write further down changes the value that was written, wherever that was. -/
theorem assign_within (nonempty : p ≠ []) (front : p <+: q) (v w : Value) :
    ∃ u, ∀ es, assign w q (assign v p es) = assign u p es := by
  induction p generalizing q with
  | nil => exact absurd rfl nonempty
  | cons part rest ih =>
    obtain ⟨keys, rfl⟩ := front
    cases rest with
    | nil =>
      refine ⟨grafted w keys (held v), fun es => ?_⟩
      exact assign_assign v w part [] keys es
    | cons next rest =>
      obtain ⟨u, inner⟩ := ih (List.cons_ne_nil next rest) (List.prefix_append _ keys)
      refine ⟨u, fun es => ?_⟩
      rw [List.cons_append, assign_assign, assign_step]
      exact congrArg (fun inner => putEntry (.str part) (.mapping (.entries inner)) es) (inner (below part es))

theorem assign_comm (apart : Apart p q) (v w : Value) (es : List (Value × Value)) :
    Reordered (assign w q (assign v p es)) (assign v p (assign w q es)) := by
  induction p generalizing q es with
  | nil => exact absurd List.nil_prefix apart.1
  | cons part rest ih =>
    cases q with
    | nil => exact absurd List.nil_prefix apart.2
    | cons part' rest' =>
      by_cases same : part = part'
      · subst same
        have apart : Apart rest rest' := apart.of_cons
        rw [assign_assign, assign_assign]
        cases rest with
        | nil => exact absurd List.nil_prefix apart.1
        | cons next rest =>
          cases rest' with
          | nil => exact absurd List.nil_prefix apart.2
          | cons next' rest' => exact reordered_put_alike (.entries (ih apart (below part es))) es
      · rw [assign_step, assign_step, assign_step v, assign_step w, below_put_other same,
          below_put_other (Ne.symm same)]
        exact reordered_put_put same _ _ es

theorem reordered_below (reordered : Reordered es fs) (part : Text) :
    Reordered (below part es) (below part fs) := by
  have found := reordered_named? reordered part
  unfold below
  generalize named? part es = first, named? part fs = second at found
  cases found with
  | none => exact .nil
  | some alike =>
    cases alike with
    | same v => exact reordered_refl _
    | entries inside => exact inside

theorem assign_reordered (reordered : Reordered es fs) (v : Value) (path : List Text) :
    Reordered (assign v path es) (assign v path fs) := by
  induction path generalizing es fs with
  | nil => exact reordered
  | cons part rest ih =>
    rw [assign_step, assign_step]
    refine .trans (reordered.put _) (reordered_put_alike ?_ fs)
    cases rest with
    | nil => exact .same v
    | cons next rest => exact .entries (ih (reordered_below reordered part))

/-! ### What a write leaves -/

/-- The path leads to the value, through plain dictionaries only. -/
def Reaches (v : Value) : (path : List Text) → List (Value × Value) → Prop
  | [], _ => False
  | [leaf], es => named? leaf es = some v
  | part :: next :: rest, es => Reaches v (next :: rest) (below part es)

theorem reaches_assign (v : Value) {path : List Text} (nonempty : path ≠ []) (es : List (Value × Value)) :
    Reaches v path (assign v path es) := by
  induction path generalizing es with
  | nil => exact absurd rfl nonempty
  | cons part rest ih =>
    cases rest with
    | nil => exact named?_put_same part v es
    | cons next rest =>
      rw [Reaches, assign_cons, below_put_same]
      exact ih (List.cons_ne_nil next rest) _

theorem Reaches.assign (reaches : Reaches v p es) (apart : Apart p q) (w : Value) : Reaches v p (assign w q es) := by
  induction p generalizing q es with
  | nil => exact reaches.elim
  | cons part rest ih =>
    cases q with
    | nil => exact absurd List.nil_prefix apart.2
    | cons part' rest' =>
      rw [assign_step]
      by_cases same : part = part'
      · subst same
        have apart : Apart rest rest' := apart.of_cons
        cases rest with
        | nil => exact absurd List.nil_prefix apart.1
        | cons next rest =>
          cases rest' with
          | nil => exact absurd List.nil_prefix apart.2
          | cons next' rest' =>
            rw [Reaches, below_put_same]
            exact ih reaches apart
      · cases rest with
        | nil => exact (named?_put_other (str_ne_str (Ne.symm same)) _ es).trans reaches
        | cons next rest =>
          rw [Reaches, below_put_other (Ne.symm same)]
          exact reaches

/-- Nothing is reached where nothing is. -/
theorem not_reaches_nil : ¬ Reaches v p [] := by
  induction p with
  | nil => exact id
  | cons part rest ih =>
    cases rest with
    | nil => exact nofun
    | cons next rest => exact ih

theorem Reaches.follow (reaches : Reaches v p es) : (Value.mapping (.entries es)).follow p = v := by
  induction p generalizing es with
  | nil => exact reaches.elim
  | cons part rest ih =>
    rw [follow_entries]
    cases rest with
    | nil => rw [show named? part es = some v from reaches, Option.map_some, Option.getD_some, Value.follow]
    | cons next rest =>
      rw [Reaches, below] at reaches
      split at reaches
      · next inner found =>
        rw [found, Option.map_some, Option.getD_some]
        exact ih reaches
      · exact absurd reaches not_reaches_nil

/-! ### Lists of overrides -/

/-- The segments of the key of an override. -/
def keyPath (o : Text) : List Text :=
  match Text.cut? '=' o with
  | some (key, _) => Node.segments (Text.trim key)
  | none => []

/-- The override gives a value to a key. -/
def Valid (load : Loader) (o : Text) : Prop :=
  ∃ key raw v, o = key ++ '=' :: raw ∧ '=' ∉ key ∧ ¬ Text.Blanks key ∧ Denotes load raw v

/-- Both come to an end with the same entries, but for their order. -/
def SameEntries (x y : Except DataFault (List (Value × Value))) : Prop :=
  ∃ es fs, x = .ok es ∧ y = .ok fs ∧ Reordered es fs

theorem SameEntries.trans {x y z : Except DataFault (List (Value × Value))} (first : SameEntries x y)
    (second : SameEntries y z) : SameEntries x z := by
  obtain ⟨es, fs, left, middle, same⟩ := first
  obtain ⟨fs', gs, middle', right, same'⟩ := second
  obtain rfl := Except.ok.inj (middle.symm.trans middle')
  exact ⟨es, gs, left, right, same.trans same'⟩

theorem keyPath_keyed {key : Text} (plain : '=' ∉ key) (raw : Text) :
    keyPath (key ++ '=' :: raw) = Node.segments (Text.trim key) := by
  rw [keyPath, cut?_append plain]

theorem Valid.keyPath_ne_nil {o : Text} (valid : Valid load o) : keyPath o ≠ [] := by
  obtain ⟨key, raw, v, rfl, plain, -⟩ := valid
  rw [keyPath_keyed plain]
  exact Text.split_ne_nil _ _

theorem Valid.named {key raw : Text} (valid : Valid load (key ++ '=' :: raw)) (plain : '=' ∉ key) :
    ¬ Text.Blanks key := by
  obtain ⟨key', raw', v, same, plain', filled, -⟩ := valid
  cases (cut?_append plain raw).symm.trans (same ▸ cut?_append plain' raw')
  exact filled

/-- What an override writes does not hang on the entries. -/
theorem Valid.apply_eq {o : Text} (valid : Valid load o) :
    ∃ v, ∀ es, apply load es o = .ok (assign v (keyPath o) es) := by
  obtain ⟨key, raw, v, rfl, plain, filled, denotes⟩ := valid
  refine ⟨v, fun es => ?_⟩
  rw [apply_keyed plain filled denotes, keyPath_keyed plain]
  rfl

theorem applyAll_cons_ok {o : Text} (done : apply load es o = .ok fs) (os : List Text) :
    applyAll load es (o :: os) = applyAll load fs os := by
  rw [applyAll_cons, done]
  rfl

theorem exists_applyAll {os : List Text} (valid : ∀ o ∈ os, Valid load o) (es : List (Value × Value)) :
    ∃ fs, applyAll load es os = .ok fs := by
  induction os generalizing es with
  | nil => exact ⟨es, rfl⟩
  | cons o os ih =>
    obtain ⟨first, valid⟩ := List.forall_mem_cons.mp valid
    obtain ⟨v, writes⟩ := first.apply_eq
    rw [applyAll_cons_ok (writes es)]
    exact ih valid _

/-- What is written stays, as long as nothing is written on the way to it or below. -/
theorem Reaches.applyAll {os : List Text} (valid : ∀ o ∈ os, Valid load o) (apart : ∀ o ∈ os, Apart p (keyPath o))
    (reaches : Reaches v p es) (done : applyAll load es os = .ok fs) : Reaches v p fs := by
  induction os generalizing es with
  | nil =>
    cases done
    exact reaches
  | cons o os ih =>
    obtain ⟨first, valid⟩ := List.forall_mem_cons.mp valid
    obtain ⟨here, apart⟩ := List.forall_mem_cons.mp apart
    obtain ⟨w, writes⟩ := first.apply_eq
    rw [applyAll_cons_ok (writes es)] at done
    exact ih valid apart (reaches.assign here w) done

theorem applyAll_reordered {os : List Text} (valid : ∀ o ∈ os, Valid load o) (reordered : Reordered es fs) :
    SameEntries (applyAll load es os) (applyAll load fs os) := by
  induction os generalizing es fs with
  | nil => exact ⟨es, fs, rfl, rfl, reordered⟩
  | cons o os ih =>
    obtain ⟨first, valid⟩ := List.forall_mem_cons.mp valid
    obtain ⟨v, writes⟩ := first.apply_eq
    rw [applyAll_cons_ok (writes es), applyAll_cons_ok (writes fs)]
    exact ih valid (assign_reordered reordered v _)

theorem applyAll_perm {os os' : List Text} (perm : os.Perm os') (valid : ∀ o ∈ os, Valid load o)
    (apart : os.Pairwise fun o o' => Apart (keyPath o) (keyPath o')) (es : List (Value × Value)) :
    SameEntries (applyAll load es os) (applyAll load es os') := by
  induction perm generalizing es with
  | nil => exact ⟨es, es, rfl, rfl, reordered_refl es⟩
  | cons o perm ih =>
    obtain ⟨first, valid⟩ := List.forall_mem_cons.mp valid
    obtain ⟨v, writes⟩ := first.apply_eq
    rw [applyAll_cons_ok (writes es), applyAll_cons_ok (writes es)]
    exact ih valid (List.pairwise_cons.mp apart).2 _
  | swap o o' os =>
    obtain ⟨second, valid⟩ := List.forall_mem_cons.mp valid
    obtain ⟨first, valid⟩ := List.forall_mem_cons.mp valid
    obtain ⟨v, writes⟩ := first.apply_eq
    obtain ⟨w, writes'⟩ := second.apply_eq
    have apart := (List.pairwise_cons.mp apart).1 o List.mem_cons_self
    rw [applyAll_cons_ok (writes' es), applyAll_cons_ok (writes _), applyAll_cons_ok (writes es),
      applyAll_cons_ok (writes' _)]
    exact applyAll_reordered valid (assign_comm apart w v es)
  | trans perm perm' ih ih' =>
    have valid' := fun o member => valid o (perm.mem_iff.mpr member)
    have apart' := (perm.pairwise_iff fun apart => Apart.symm apart).mp apart
    exact (ih valid apart es).trans (ih' valid' apart' es)

/-- A write makes no difference if its path is written again later: what stands between is written at the same
path or above, which hides it, or further down, which changes a value that is hidden later, or apart. -/
theorem applyAll_overwritten {o : Text} {between behind : List Text}
    (valid : ∀ o' ∈ between ++ o :: behind, Valid load o') (v : Value) (es : List (Value × Value)) :
    SameEntries (applyAll load (assign v (keyPath o) es) (between ++ o :: behind))
      (applyAll load es (between ++ o :: behind)) := by
  induction between generalizing v es with
  | nil =>
    obtain ⟨last, valid⟩ := List.forall_mem_cons.mp valid
    obtain ⟨w, writes⟩ := last.apply_eq
    rw [List.nil_append, applyAll_cons_ok (writes _), applyAll_cons_ok (writes es),
      assign_hides last.keyPath_ne_nil (List.prefix_refl _)]
    exact applyAll_reordered valid (reordered_refl _)
  | cons b between ih =>
    obtain ⟨first, valid⟩ := List.forall_mem_cons.mp valid
    have last : Valid load o := valid o (by simp)
    obtain ⟨w, writes⟩ := first.apply_eq
    rw [List.cons_append, applyAll_cons_ok (writes _), applyAll_cons_ok (writes es)]
    by_cases above : keyPath b <+: keyPath o
    · rw [assign_hides first.keyPath_ne_nil above]
      exact applyAll_reordered valid (reordered_refl _)
    by_cases further : keyPath o <+: keyPath b
    · obtain ⟨u, changed⟩ := assign_within last.keyPath_ne_nil further v w
      have later := ih valid u (assign w (keyPath b) es)
      rw [assign_hides last.keyPath_ne_nil further] at later
      rw [changed]
      exact later
    · have moved := assign_comm ⟨further, above⟩ v w es
      exact (applyAll_reordered valid moved).trans (ih valid v _)

theorem sameEntries_behind {before xs ys : List Text} (valid : ∀ o ∈ before, Valid load o)
    (same : ∀ es, SameEntries (applyAll load es xs) (applyAll load es ys)) (es : List (Value × Value)) :
    SameEntries (applyAll load es (before ++ xs)) (applyAll load es (before ++ ys)) := by
  obtain ⟨fs, done⟩ := exists_applyAll valid es
  rw [applyAll_append, applyAll_append, done]
  exact same fs

/-- Overrides with paths apart from one another may be applied in any order, one whose path is that of a later
one may be left out, and one with only paths apart behind it is what its key leads to in the end. -/
theorem applyAll_order (load : Loader) (es : List (Value × Value)) {os : List Text} (valid : ∀ o ∈ os, Valid load o) :
    (os.Pairwise (fun o o' => Apart (keyPath o) (keyPath o')) → ∀ os', os.Perm os' →
      SameEntries (applyAll load es os) (applyAll load es os')) ∧
    (∀ before o between o' behind, os = before ++ o :: between ++ o' :: behind → keyPath o = keyPath o' →
      SameEntries (applyAll load es os) (applyAll load es (before ++ between ++ o' :: behind))) ∧
    ∀ before key raw behind v, os = before ++ (key ++ '=' :: raw) :: behind → '=' ∉ key → Denotes load raw v →
      (∀ o ∈ behind, Apart (Node.segments (Text.trim key)) (keyPath o)) →
      ∃ es', applyAll load es os = .ok es' ∧ (Mapping.entries es').lookup (Text.trim key) = v := by
  refine ⟨fun apart os' perm => applyAll_perm perm valid apart es, ?_, ?_⟩
  · intro before o between o' behind split same
    subst split
    rw [List.append_assoc, List.append_assoc]
    rw [List.append_assoc] at valid
    obtain ⟨early, valid⟩ := List.forall_mem_append.mp valid
    obtain ⟨first, valid⟩ := List.forall_mem_cons.mp valid
    obtain ⟨v, writes⟩ := first.apply_eq
    refine sameEntries_behind early (fun es => ?_) es
    rw [List.cons_append, applyAll_cons_ok (writes es), same]
    exact applyAll_overwritten valid v es
  · intro before key raw behind v split plain denotes apart
    subst split
    obtain ⟨early, valid⟩ := List.forall_mem_append.mp valid
    obtain ⟨last, late⟩ := List.forall_mem_cons.mp valid
    obtain ⟨fs, done⟩ := exists_applyAll early es
    have written : apply load fs (key ++ '=' :: raw) = .ok (assign v (Node.segments (Text.trim key)) fs) :=
      apply_keyed plain (last.named plain) denotes fs
    obtain ⟨es', ends⟩ := exists_applyAll late (assign v (Node.segments (Text.trim key)) fs)
    refine ⟨es', ?_, ?_⟩
    · rw [applyAll_append, done]
      exact (applyAll_cons_ok written behind).trans ends
    · have reaches := reaches_assign v (Text.split_ne_nil '.' (Text.trim key)) fs
      exact (reaches.applyAll late apart ends).follow

/-- Two overrides below a number that gives way to them, in either order, and what the first of them leaves; then one
that is written again behind another that takes its parent away. -/
theorem applyAll_order_shared :
    let es := [(Value.str ['a'], Value.int 5), (.str ['k'], .null)]
    let load := Loader.ofDocuments [(['1'], .int 1)]
    let both := ["a.b=1".toList, "a.c=".toList]
    let again := ["a.b=1".toList, "a=".toList, "a.b=".toList]
    ((∀ o ∈ both, Valid load o) ∧ both.Pairwise (fun o o' => Apart (keyPath o) (keyPath o')) ∧
      both.Perm both.reverse ∧
      SameEntries (applyAll load es both) (applyAll load es both.reverse)) ∧
    (Denotes load ['1'] (.int 1) ∧
      ∃ es', applyAll load es both = .ok es' ∧ (Mapping.entries es').lookup "a.b".toList = .int 1) ∧
    (∀ o ∈ again, Valid load o) ∧ keyPath "a.b=1".toList = keyPath "a.b=".toList ∧
      SameEntries (applyAll load es again) (applyAll load es ["a=".toList, "a.b=".toList]) := by
  intro es load both again
  have letter : Text.isBlank 'a' = false := by decide
  have digit : Text.isBlank '1' = false := by decide
  have filled {t : Text} : ¬ Text.Blanks ('a' :: t) := by
    intro blank
    rw [blank 'a' List.mem_cons_self] at letter
    cases letter
  have one : Denotes load ['1'] (.int 1) := by
    refine .value (fun blank => ?_) rfl
    rw [blank '1' List.mem_cons_self] at digit
    cases digit
  have number : Valid load "a.b=1".toList := ⟨"a.b".toList, ['1'], _, rfl, by decide, filled, one⟩
  have blank (key : Text) (plain : '=' ∉ 'a' :: key) : Valid load ('a' :: key ++ ['=']) :=
    ⟨'a' :: key, [], _, rfl, plain, filled, .blank (List.forall_mem_nil _)⟩
  have valid : ∀ o ∈ both, Valid load o :=
    List.forall_mem_cons.mpr ⟨number, List.forall_mem_singleton.mpr (blank ['.', 'c'] (by decide))⟩
  have valid' : ∀ o ∈ again, Valid load o :=
    List.forall_mem_cons.mpr ⟨number, List.forall_mem_cons.mpr ⟨blank [] (by decide),
      List.forall_mem_singleton.mpr (blank ['.', 'b'] (by decide))⟩⟩
  have first : keyPath "a.b=1".toList = [['a'], ['b']] := rfl
  have second : keyPath "a.c=".toList = [['a'], ['c']] := rfl
  have third : keyPath "a.b=".toList = [['a'], ['b']] := rfl
  have apart : both.Pairwise fun o o' => Apart (keyPath o) (keyPath o') := by
    refine List.pairwise_pair.mpr ?_
    rw [first, second]
    exact ⟨by decide, by decide⟩
  have perm : both.Perm both.reverse := (List.reverse_perm both).symm
  have side : ∀ o ∈ ["a.c=".toList], Apart (Node.segments (Text.trim "a.b".toList)) (keyPath o) := by
    have path : Node.segments (Text.trim "a.b".toList) = [['a'], ['b']] := rfl
    rw [List.forall_mem_singleton, path, second]
    exact ⟨by decide, by decide⟩
  have trimmed : Text.trim "a.b".toList = "a.b".toList := rfl
  obtain ⟨swaps, -, stands⟩ := applyAll_order load es valid
  obtain ⟨-, forgets, -⟩ := applyAll_order load es valid'
  obtain ⟨es', done, found⟩ := stands [] "a.b".toList ['1'] ["a.c=".toList] _ rfl (by decide) one side
  rw [trimmed] at found
  have same := first.trans third.symm
  exact ⟨⟨valid, apart, perm, swaps apart _ perm⟩, ⟨one, es', done, found⟩, valid', same,
    forgets [] "a.b=1".toList ["a=".toList] "a.b=".toList [] rfl same⟩

end Override

end Stencil
