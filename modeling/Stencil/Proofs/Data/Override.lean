import Stencil.Proofs.Data.Assign

/-!
# Overrides

An override is refused or writes one path: `parse_keyed` and `parse_keyless`, and `apply_keyed` with the value that
its text denotes to a loader. `applyAll_lookup` says what lists of them write, and which override makes a list fail.
-/

namespace Stencil

variable {load : Loader} {es es' : List (Value × Value)} {v : Value}

/-- What the loader comes to is data: it makes no functions, and lays no mapping over another. -/
def Loader.Plain (load : Loader) : Prop := ∀ text v, load text = .ok v → Data v.parts

/-- The loader of a few documents, for which all other texts are none. -/
def Loader.ofDocuments (documents : List (Text × Value)) : Loader := fun text =>
  (documents.lookup text).elim (.error (.malformed [])) .ok

namespace Override

/-! ### Reading overrides -/

/-- The override names no key: it has no equals sign, or nothing but blanks in front of the first one. -/
def Keyless (o : Text) : Prop :=
  '=' ∉ o ∨ ∃ key raw, o = key ++ '=' :: raw ∧ '=' ∉ key ∧ Text.Blanks key

def refusal (o : Text) : DataFault := if '=' ∈ o then .emptyKey o else .noEquals o

theorem cut?_eq_none {sep : Char} {s : Text} : Text.cut? sep s = none ↔ sep ∉ s := by
  induction s with
  | nil => simp [Text.cut?]
  | cons c s ih =>
    by_cases same : c = sep
    · simp [Text.cut?, same]
    · simp [Text.cut?, same, Ne.symm same, ih]

theorem cut?_append {sep : Char} {a : Text} (plain : sep ∉ a) (b : Text) :
    Text.cut? sep (a ++ sep :: b) = some (a, b) := by
  induction a with
  | nil => simp [Text.cut?]
  | cons c a ih =>
    obtain ⟨apart, plain⟩ := List.ne_and_not_mem_of_not_mem_cons plain
    rw [List.cons_append, Text.cut?, if_neg (Ne.symm apart), ih plain]
    rfl

theorem cut?_sound {sep : Char} {s a b : Text} (cut : Text.cut? sep s = some (a, b)) :
    s = a ++ sep :: b ∧ sep ∉ a := by
  induction s generalizing a with
  | nil => cases cut
  | cons c s ih =>
    rw [Text.cut?] at cut
    split at cut
    · next same =>
      cases cut
      exact ⟨by rw [same]; rfl, List.not_mem_nil⟩
    · next apart =>
      obtain ⟨⟨a', b'⟩, found, equal⟩ := Option.map_eq_some_iff.mp cut
      cases equal
      obtain ⟨rfl, plain⟩ := ih found
      exact ⟨rfl, List.not_mem_cons_of_ne_of_not_mem (Ne.symm apart) plain⟩

theorem isEmpty_trim {s : Text} : (Text.trim s).isEmpty = true ↔ Text.Blanks s := by
  rw [List.isEmpty_iff, Text.trim_eq_nil_iff]
  rfl

theorem isEmpty_trim_of_filled {s : Text} (filled : ¬ Text.Blanks s) : (Text.trim s).isEmpty = false :=
  Bool.eq_false_iff.mpr fun empty => filled (isEmpty_trim.mp empty)

theorem parse_keyed {key : Text} (plain : '=' ∉ key) (filled : ¬ Text.Blanks key) (raw : Text) :
    parse (key ++ '=' :: raw) = .ok (Text.split '.' (Text.trim key), raw) := by
  rw [parse, cut?_append plain]
  simp [isEmpty_trim_of_filled filled]

theorem parse_keyless {o : Text} (keyless : Keyless o) : parse o = .error (refusal o) := by
  rcases keyless with plain | ⟨key, raw, rfl, plain, blank⟩
  · rw [parse, cut?_eq_none.mpr plain, refusal, if_neg plain]
  · have sign : '=' ∈ key ++ '=' :: raw := by simp
    rw [parse, cut?_append plain, refusal, if_pos sign]
    simp [isEmpty_trim.mpr blank]

theorem not_keyless {key : Text} (plain : '=' ∉ key) (filled : ¬ Text.Blanks key) (raw : Text) :
    ¬ Keyless (key ++ '=' :: raw) := by
  intro keyless
  cases (parse_keyed plain filled raw).symm.trans (parse_keyless keyless)

/-- An override names no key, or gives a text to one. -/
theorem keyless_or (o : Text) : Keyless o ∨ ∃ key raw, o = key ++ '=' :: raw ∧ '=' ∉ key ∧ ¬ Text.Blanks key := by
  cases cut : Text.cut? '=' o with
  | none => exact .inl (.inl (cut?_eq_none.mp cut))
  | some parts =>
    obtain ⟨key, raw⟩ := parts
    obtain ⟨whole, plain⟩ := cut?_sound cut
    by_cases blank : Text.Blanks key
    · exact .inl (.inr ⟨key, raw, whole, plain, blank⟩)
    · exact .inr ⟨key, raw, whole, plain, blank⟩

/-! ### Values of overrides -/

/-- The loader comes to a value, or says that the text is no document. -/
def Settled (load : Loader) (raw : Text) : Prop :=
  (∃ v, load raw = .ok v) ∨ ∃ reason, load raw = .error (.malformed reason)

/-- What the text behind the equals sign stands for. -/
inductive Denotes (load : Loader) (raw : Text) : Value → Prop
  | blank (empty : Text.Blanks raw) : Denotes load raw (.str [])
  | value {v : Value} (filled : ¬ Text.Blanks raw) (loaded : load raw = .ok v) : Denotes load raw v
  | text {reason : Text} (filled : ¬ Text.Blanks raw) (refused : load raw = .error (.malformed reason)) :
      Denotes load raw (.str raw)

theorem valueOf_eq_ok_iff {raw : Text} : valueOf load raw = .ok v ↔ Denotes load raw v := by
  unfold valueOf
  split
  · next blank =>
    rw [isEmpty_trim] at blank
    constructor
    · intro same
      cases same
      exact .blank blank
    · rintro (_ | filled | filled)
      · rfl
      · exact absurd blank filled
      · exact absurd blank filled
  · next filled =>
    rw [isEmpty_trim] at filled
    constructor
    · intro done
      split at done
      · next refused =>
        cases done
        exact .text filled refused
      · cases done
      · next loaded =>
        cases done
        exact .value filled loaded
    · rintro (blank | ⟨-, loaded⟩ | ⟨-, refused⟩)
      · exact absurd blank filled
      · rw [loaded]
      · rw [refused]

theorem valueOf_eq_error_iff {raw : Text} {f : DataFault} : valueOf load raw = .error f ↔
    ∃ c message, ¬ Text.Blanks raw ∧ load raw = .error (.unexpected c message) ∧ f = .unexpected c message := by
  constructor
  · intro failed
    have silent : ∀ v, ¬ Denotes load raw v := by
      intro v denotes
      cases failed.symm.trans (valueOf_eq_ok_iff.mpr denotes)
    have filled : ¬ Text.Blanks raw := fun blank => silent _ (.blank blank)
    unfold valueOf at failed
    split at failed
    · cases failed
    split at failed
    · cases failed
    · next c message wrong =>
      cases failed
      exact ⟨c, message, filled, wrong, rfl⟩
    · cases failed
  · rintro ⟨c, message, filled, wrong, rfl⟩
    rw [valueOf, isEmpty_trim_of_filled filled, wrong]
    rfl

theorem Settled.denotes {raw : Text} (settled : Settled load raw) : ∃ v, Denotes load raw v := by
  by_cases blank : Text.Blanks raw
  · exact ⟨_, .blank blank⟩
  · rcases settled with ⟨v, loaded⟩ | ⟨reason, refused⟩
    · exact ⟨v, .value blank loaded⟩
    · exact ⟨_, .text blank refused⟩

theorem Denotes.data {raw : Text} (plain : load.Plain) (denotes : Denotes load raw v) : Data v.parts := by
  cases denotes with
  | value filled loaded => exact plain _ _ loaded
  | blank | text => exact data_scalar rfl

/-! ### Applying overrides -/

theorem apply_keyed {key : Text} (plain : '=' ∉ key) (filled : ¬ Text.Blanks key) {raw : Text}
    (denotes : Denotes load raw v) (es : List (Value × Value)) :
    apply load es (key ++ '=' :: raw) = .ok (assign v (Text.split '.' (Text.trim key)) es) := by
  rw [apply, parse_keyed plain filled]
  show (valueOf load raw >>= _) = _
  rw [valueOf_eq_ok_iff.mpr denotes]
  rfl

theorem apply_keyless {o : Text} (keyless : Keyless o) (es : List (Value × Value)) :
    apply load es o = .error (refusal o) := by
  rw [apply, parse_keyless keyless]
  rfl

theorem applyAll_cons (es : List (Value × Value)) (o : Text) (os : List Text) :
    applyAll load es (o :: os) = (apply load es o).bind fun es' => applyAll load es' os := rfl

/-- An override fails for want of a key, or because of a single value in its text. -/
inductive Wrong (load : Loader) (o : Text) : DataFault → Prop
  | key (keyless : Keyless o) : Wrong load o (refusal o)
  | value {key raw message : Text} {c : InternalClass} (whole : o = key ++ '=' :: raw) (plain : '=' ∉ key)
      (named : ¬ Text.Blanks key) (filled : ¬ Text.Blanks raw)
      (failed : load raw = .error (.unexpected c message)) : Wrong load o (.unexpected c message)

theorem apply_eq_error_iff {o : Text} {f : DataFault} : apply load es o = .error f ↔ Wrong load o f := by
  rcases keyless_or o with keyless | ⟨key, raw, rfl, plain, named⟩
  · rw [apply_keyless keyless]
    constructor
    · intro same
      cases same
      exact .key keyless
    · rintro (_ | ⟨rfl, plain, named⟩)
      · rfl
      · exact absurd keyless (not_keyless plain named _)
  · constructor
    · intro failed
      cases value : valueOf load raw with
      | ok v =>
        rw [apply_keyed plain named (valueOf_eq_ok_iff.mp value)] at failed
        cases failed
      | error f' =>
        rw [apply, parse_keyed plain named] at failed
        change (valueOf load raw >>= _) = _ at failed
        rw [value] at failed
        cases failed
        obtain ⟨c, message, filled, wrong, rfl⟩ := valueOf_eq_error_iff.mp value
        exact .value rfl plain named filled wrong
    · rintro (keyless | ⟨whole, plain', named', filled, wrong⟩)
      · exact absurd keyless (not_keyless plain named _)
      · have value := valueOf_eq_error_iff.mpr ⟨_, _, filled, wrong, rfl⟩
        rw [whole, apply, parse_keyed plain' named']
        show (valueOf load _ >>= _) = _
        rw [value]
        rfl

/-- The first override that is wrong makes the whole list fail. -/
theorem applyAll_eq_error_iff {os : List Text} {f : DataFault} : applyAll load es os = .error f ↔
    ∃ before o behind, os = before ++ o :: behind ∧ (∀ b ∈ before, ∀ f, ¬ Wrong load b f) ∧ Wrong load o f := by
  induction os generalizing es with
  | nil => exact iff_of_false nofun (by simp)
  | cons o os ih =>
    rw [applyAll_cons]
    cases first : apply load es o with
    | error f' =>
      constructor
      · intro failed
        cases failed
        exact ⟨[], o, os, rfl, nofun, apply_eq_error_iff.mp first⟩
      · rintro ⟨before, o', behind, split, early, wrong⟩
        cases before with
        | nil =>
          cases split
          exact first.symm.trans (apply_eq_error_iff.mpr wrong)
        | cons b before =>
          cases split
          exact absurd (apply_eq_error_iff.mp first) (early _ List.mem_cons_self _)
    | ok es₁ =>
      have right : ∀ f, ¬ Wrong load o f := fun f wrong => nomatch first.symm.trans (apply_eq_error_iff.mpr wrong)
      show applyAll load es₁ os = _ ↔ _
      rw [ih]
      constructor
      · rintro ⟨before, o', behind, rfl, early, wrong⟩
        exact ⟨o :: before, o', behind, rfl, List.forall_mem_cons.mpr ⟨right, early⟩, wrong⟩
      · rintro ⟨before, o', behind, split, early, wrong⟩
        cases before with
        | nil =>
          cases split
          exact absurd wrong (right f)
        | cons b before =>
          cases split
          exact ⟨before, o', behind, rfl, (List.forall_mem_cons.mp early).2, wrong⟩

/-- The loader comes to an end with the text of each override. -/
def AllSettled (load : Loader) (os : List Text) : Prop :=
  ∀ key raw, key ++ '=' :: raw ∈ os → '=' ∉ key → Settled load raw

theorem AllSettled.wrong_iff {os : List Text} (settled : AllSettled load os) {o : Text} (member : o ∈ os)
    {f : DataFault} : Wrong load o f ↔ Keyless o ∧ f = refusal o := by
  constructor
  · rintro (keyless | ⟨rfl, plain, named, filled, failed⟩)
    · exact ⟨keyless, rfl⟩
    · rcases settled _ _ member plain with ⟨v, loaded⟩ | ⟨reason, refused⟩
      · cases failed.symm.trans loaded
      · cases failed.symm.trans refused
  · rintro ⟨keyless, rfl⟩
    exact .key keyless

theorem AllSettled.applyAll_eq_error_iff {os : List Text} (settled : AllSettled load os) {f : DataFault} :
    applyAll load es os = .error f ↔
      ∃ before o behind, os = before ++ o :: behind ∧ (∀ b ∈ before, ¬ Keyless b) ∧ Keyless o ∧ f = refusal o := by
  rw [Override.applyAll_eq_error_iff]
  constructor
  · rintro ⟨before, o, behind, rfl, early, wrong⟩
    refine ⟨before, o, behind, rfl, fun b member keyless => early b member _ (.key keyless), ?_⟩
    exact (settled.wrong_iff (by simp)).mp wrong
  · rintro ⟨before, o, behind, rfl, early, wrong⟩
    refine ⟨before, o, behind, rfl, fun b member f wrong => ?_, (settled.wrong_iff (by simp)).mpr wrong⟩
    exact early b member ((settled.wrong_iff (List.mem_append_left _ member)).mp wrong).1

end Override

end Stencil
