import Stencil.Value.Mapping

/-!
# The order of entries

Lists of entries that hold the same in another order, in the list itself and in the dictionaries in it, so that
they have the same keys and look-ups cannot tell them apart: `reordered_named?`. A write keeps them so,
`Reordered.put`, and writes under two names may change places, `reordered_put_put`.
-/

namespace Stencil

/-- The entries are the same but for their order: those under different names may change places, here and in
dictionaries at any depth. -/
inductive Reordered : List (Value × Value) → List (Value × Value) → Prop
  | nil : Reordered [] []
  | cons {es fs : List (Value × Value)} (e : Value × Value) (rest : Reordered es fs) :
      Reordered (e :: es) (e :: fs)
  | inner {key : Value} {xs ys es fs : List (Value × Value)} (inside : Reordered xs ys) (rest : Reordered es fs) :
      Reordered ((key, .mapping (.entries xs)) :: es) ((key, .mapping (.entries ys)) :: fs)
  | swap {a b : Text} (apart : a ≠ b) (v w : Value) (es : List (Value × Value)) :
      Reordered ((.str a, v) :: (.str b, w) :: es) ((.str b, w) :: (.str a, v) :: es)
  | trans {es fs gs : List (Value × Value)} (first : Reordered es fs) (second : Reordered fs gs) : Reordered es gs

/-- Values that are equal, or dictionaries whose entries are the same but for their order. -/
inductive Value.Alike : Value → Value → Prop
  | same (v : Value) : Alike v v
  | entries {xs ys : List (Value × Value)} (inside : Reordered xs ys) :
      Alike (.mapping (.entries xs)) (.mapping (.entries ys))

variable {es fs : List (Value × Value)} {v w : Value} {key a b : Text}

theorem reordered_refl (es : List (Value × Value)) : Reordered es es := by
  induction es with
  | nil => exact .nil
  | cons e es ih => exact .cons e ih

theorem Reordered.cons_alike {k : Value} (rest : Reordered es fs) (alike : v.Alike w) :
    Reordered ((k, v) :: es) ((k, w) :: fs) := by
  cases alike with
  | same => exact .cons _ rest
  | entries inside => exact .inner inside rest

theorem str_ne_str (apart : a ≠ b) : Value.str a ≠ .str b := fun same => apart (Value.str.inj same)

/-! ### What is there -/

theorem Value.Alike.trans {u : Value} (first : u.Alike v) (second : v.Alike w) : u.Alike w := by
  cases first with
  | same => exact second
  | entries inside =>
    cases second with
    | same => exact .entries inside
    | entries inside' => exact .entries (inside.trans inside')

theorem alike_refl (found : Option Value) : Option.Rel Value.Alike found found := by
  cases found with
  | none => exact .none
  | some v => exact .some (.same v)

theorem alike_trans {first second third : Option Value} (alike : Option.Rel Value.Alike first second)
    (alike' : Option.Rel Value.Alike second third) : Option.Rel Value.Alike first third := by
  cases alike with
  | none => exact alike'
  | some alike =>
    cases alike' with
    | some alike' => exact .some (alike.trans alike')

/-- The order of entries has no say in what is found under a name. -/
theorem reordered_named? (reordered : Reordered es fs) (key : Text) :
    Option.Rel Value.Alike (named? key es) (named? key fs) := by
  induction reordered with
  | nil => exact .none
  | cons e rest ih =>
    obtain ⟨k, v⟩ := e
    by_cases named : k = .str key
    · rw [named, named?_cons_same, named?_cons_same]
      exact alike_refl _
    · rw [named?_cons_other named, named?_cons_other named]
      exact ih
  | @inner k _ _ _ _ inside rest ih ihRest =>
    by_cases named : k = .str key
    · rw [named, named?_cons_same, named?_cons_same]
      exact .some (.entries inside)
    · rw [named?_cons_other named, named?_cons_other named]
      exact ihRest
  | @swap a b apart v w es =>
    by_cases first : a = key
    · subst first
      rw [named?_cons_same, named?_cons_other (str_ne_str apart.symm), named?_cons_same]
      exact alike_refl _
    · rw [named?_cons_other (str_ne_str first)]
      by_cases second : b = key
      · rw [second, named?_cons_same, named?_cons_same]
        exact alike_refl _
      · rw [named?_cons_other (str_ne_str second), named?_cons_other (str_ne_str second),
          named?_cons_other (str_ne_str first)]
        exact alike_refl _
  | trans first second ih ih' => exact alike_trans ih ih'

/-! ### Writes -/

theorem putEntry_cons_same (key : Text) (v w : Value) (es : List (Value × Value)) :
    putEntry (.str key) v ((.str key, w) :: es) = (.str key, v) :: es := by
  rw [putEntry, if_pos (Value.agrees_str.mpr rfl)]

theorem putEntry_cons_other {k : Value} (apart : k ≠ .str key) (v w : Value) (es : List (Value × Value)) :
    putEntry (.str key) v ((k, w) :: es) = (k, w) :: putEntry (.str key) v es := by
  rw [putEntry, if_neg (mt Value.agrees_str_right.mp apart)]

/-- The later of two writes under one name is the one that counts. -/
theorem put_put_same (key : Text) (v w : Value) (es : List (Value × Value)) :
    putEntry (.str key) w (putEntry (.str key) v es) = putEntry (.str key) w es := by
  induction es with
  | nil => exact putEntry_cons_same key w v []
  | cons e es ih =>
    obtain ⟨k, x⟩ := e
    by_cases named : k = .str key
    · rw [named, putEntry_cons_same, putEntry_cons_same, putEntry_cons_same]
    · rw [putEntry_cons_other named, putEntry_cons_other named, putEntry_cons_other named, ih]

theorem reordered_put_put (apart : a ≠ b) (v w : Value) (es : List (Value × Value)) :
    Reordered (putEntry (.str b) w (putEntry (.str a) v es)) (putEntry (.str a) v (putEntry (.str b) w es)) := by
  have first := str_ne_str apart
  have second := str_ne_str apart.symm
  induction es with
  | nil =>
    rw [putEntry, putEntry, putEntry_cons_other first, putEntry_cons_other second]
    exact .swap apart v w []
  | cons e es ih =>
    obtain ⟨k, x⟩ := e
    by_cases atFirst : k = .str a
    · rw [atFirst, putEntry_cons_same, putEntry_cons_other first, putEntry_cons_other first, putEntry_cons_same]
      exact reordered_refl _
    by_cases atSecond : k = .str b
    · rw [atSecond, putEntry_cons_same, putEntry_cons_other second, putEntry_cons_other second, putEntry_cons_same]
      exact reordered_refl _
    · rw [putEntry_cons_other atFirst, putEntry_cons_other atSecond, putEntry_cons_other atSecond,
        putEntry_cons_other atFirst]
      exact .cons _ ih

theorem reordered_put_alike (alike : v.Alike w) (es : List (Value × Value)) :
    Reordered (putEntry (.str key) v es) (putEntry (.str key) w es) := by
  induction es with
  | nil => exact .cons_alike .nil alike
  | cons e es ih =>
    obtain ⟨k, x⟩ := e
    by_cases named : k = .str key
    · rw [named, putEntry_cons_same, putEntry_cons_same]
      exact .cons_alike (reordered_refl es) alike
    · rw [putEntry_cons_other named, putEntry_cons_other named]
      exact .cons _ ih

theorem Reordered.put (reordered : Reordered es fs) (v : Value) :
    Reordered (putEntry (.str key) v es) (putEntry (.str key) v fs) := by
  induction reordered with
  | nil => exact reordered_refl _
  | cons e rest ih =>
    obtain ⟨k, x⟩ := e
    by_cases named : k = .str key
    · rw [named, putEntry_cons_same, putEntry_cons_same]
      exact .cons _ rest
    · rw [putEntry_cons_other named, putEntry_cons_other named]
      exact .cons _ ih
  | @inner k _ _ _ _ inside rest ih ihRest =>
    by_cases named : k = .str key
    · rw [named, putEntry_cons_same, putEntry_cons_same]
      exact .cons _ rest
    · rw [putEntry_cons_other named, putEntry_cons_other named]
      exact .inner inside ihRest
  | @swap a b apart x y es =>
    by_cases atFirst : a = key
    · subst atFirst
      rw [putEntry_cons_same, putEntry_cons_other (str_ne_str apart.symm), putEntry_cons_same]
      exact .swap apart v y es
    by_cases atSecond : b = key
    · subst atSecond
      rw [putEntry_cons_other (str_ne_str apart), putEntry_cons_same, putEntry_cons_same]
      exact .swap apart x v es
    · rw [putEntry_cons_other (str_ne_str atFirst), putEntry_cons_other (str_ne_str atSecond),
        putEntry_cons_other (str_ne_str atSecond), putEntry_cons_other (str_ne_str atFirst)]
      exact .swap apart x y _
  | trans first second ih ih' => exact ih.trans ih'

end Stencil
