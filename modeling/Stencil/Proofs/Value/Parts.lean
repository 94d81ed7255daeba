import Stencil.Evaluate.Basic
import Stencil.Value.Mapping

/-!
# Values inside values

The values that a mapping holds at any depth, and the data among them: scalars, lists and plain dictionaries,
without helpers and without layers. What a name finds in data is data: `lookup_data`.
-/

namespace Stencil

mutual

/-- The values at any depth of a value, itself first. Keys are not among them, nor is what a helper holds. -/
def Value.parts : Value → List Value
  | .list items => .list items :: partsAll items
  | .tuple items => .tuple items :: partsAll items
  | .mapping m => .mapping m :: m.parts
  | v => [v]

def partsAll : List Value → List Value
  | [] => []
  | v :: vs => v.parts ++ partsAll vs

def Mapping.parts : Mapping → List Value
  | .entries es => partsOf es
  | .layered inner outer => inner.parts ++ outer.parts

def partsOf : List (Value × Value) → List Value
  | [] => []
  | (_, v) :: es => v.parts ++ partsOf es

end

theorem Value.mem_parts_self (v : Value) : v ∈ v.parts := by
  cases v <;> simp [parts]

theorem mem_partsAll {w : Value} {vs : List Value} : w ∈ partsAll vs ↔ ∃ v ∈ vs, w ∈ v.parts := by
  induction vs with
  | nil => simp [partsAll]
  | cons v vs ih => simp [partsAll, ih]

theorem mem_partsOf {w : Value} {es : List (Value × Value)} : w ∈ partsOf es ↔ ∃ e ∈ es, w ∈ e.2.parts := by
  induction es with
  | nil => simp [partsOf]
  | cons e es ih => simp [partsOf, ih]

/-! ### Data -/

def Value.isScalar : Value → Bool
  | .null | .bool _ | .int _ | .float _ | .str _ | .time _ => true
  | _ => false

def Value.isDatum : Value → Bool
  | .helper _ _ | .mapping (.layered _ _) => false
  | _ => true

/-- All values are such as a document can hold. -/
def Data (vs : List Value) : Prop := ∀ w ∈ vs, w.isDatum = true

variable {v : Value} {vs : List Value} {es : List (Value × Value)}

theorem data_append {us : List Value} : Data (us ++ vs) ↔ Data us ∧ Data vs := List.forall_mem_append

theorem data_scalar (scalar : v.isScalar = true) : Data v.parts := by
  cases v with
  | list | tuple | mapping | helper => cases scalar
  | _ => exact List.forall_mem_singleton.mpr rfl

theorem data_list : Data (Value.list vs).parts ↔ ∀ v ∈ vs, Data v.parts := by
  rw [Value.parts, Data, List.forall_mem_cons]
  simp only [mem_partsAll, Value.isDatum, true_and]
  constructor
  · intro each v member w inside
    exact each w ⟨v, member, inside⟩
  · rintro each w ⟨v, member, inside⟩
    exact each v member w inside

theorem data_nil : Data (partsOf []) := List.forall_mem_nil _

theorem data_partsOf : Data (partsOf es) ↔ ∀ e ∈ es, Data e.2.parts := by
  simp only [Data, mem_partsOf]
  constructor
  · intro each e member w inside
    exact each w ⟨e, member, inside⟩
  · rintro each w ⟨e, member, inside⟩
    exact each e member w inside

theorem data_entries : Data (Value.mapping (.entries es)).parts ↔ Data (partsOf es) := by
  rw [Value.parts, Mapping.parts, Data, List.forall_mem_cons]
  simp [Value.isDatum, Data]

/-! ### Look-ups -/

theorem mem_of_named? {key : Text} (found : named? key es = some v) : (.str key, v) ∈ es := by
  induction es with
  | nil => cases found
  | cons e es ih =>
    obtain ⟨k, w⟩ := e
    by_cases same : k = .str key
    · rw [same, named?_cons_same] at found
      rw [same, Option.some.inj found]
      exact List.mem_cons_self
    · rw [named?_cons_other same] at found
      exact List.mem_cons_of_mem _ (ih found)

theorem Mapping.parts_find? {key : Text} {m : Mapping} (found : m.find? key = some v) : v.parts ⊆ m.parts := by
  induction m using Mapping.rec (motive_1 := fun _ => True) (motive_3 := fun _ => True)
    (motive_4 := fun _ => True) (motive_5 := fun _ => True) with
  | entries es =>
    intro w member
    exact mem_partsOf.mpr ⟨_, mem_of_named? found, member⟩
  | layered inner outer hi ho =>
    rw [find?_layered] at found
    rw [parts]
    cases above : inner.find? key with
    | some u =>
      rw [above] at found
      exact List.subset_append_of_subset_left _ (hi (above.trans found))
    | none =>
      rw [above] at found
      exact List.subset_append_of_subset_right _ (ho found)
  | _ => trivial

theorem Value.follow_data (data : Data v.parts) (path : List Text) : Data (v.follow path).parts := by
  induction path generalizing v with
  | nil =>
    rw [follow]
    exact data
  | cons key path ih =>
    cases v with
    | mapping m =>
      rw [follow]
      cases found : m.find? key with
      | none => exact data_scalar rfl
      | some w =>
        have inside : w.parts ⊆ (Value.mapping m).parts := by
          rw [parts]
          exact List.subset_cons_of_subset _ (m.parts_find? found)
        exact ih fun u member => data u (inside member)
    | _ => exact data_scalar rfl

/-- What a name finds in an environment of data is data. -/
theorem Mapping.lookup_data {env : Mapping} (data : Data env.parts) (path : Text) :
    Data (env.lookup path).parts := by
  unfold lookup
  cases split : Node.segments path with
  | nil => exact absurd split (Text.split_ne_nil _ _)
  | cons key rest =>
    rw [Value.follow]
    cases found : env.find? key with
    | none => exact data_scalar rfl
    | some v => exact Value.follow_data (fun u member => data u (parts_find? found member)) rest

/-! ### Writes -/

theorem mem_putEntry {key : Value} {e : Value × Value} (member : e ∈ putEntry key v es) : e.2 = v ∨ e ∈ es := by
  induction es with
  | nil =>
    obtain rfl := List.mem_singleton.mp member
    exact .inl rfl
  | cons e' es ih =>
    obtain ⟨k, w⟩ := e'
    rw [putEntry] at member
    split at member
    · rcases List.mem_cons.mp member with rfl | behind
      · exact .inl rfl
      · exact .inr (List.mem_cons_of_mem _ behind)
    · rcases List.mem_cons.mp member with rfl | behind
      · exact .inr List.mem_cons_self
      · exact (ih behind).imp_right (List.mem_cons_of_mem _)

theorem put_data {key : Value} (data : Data (partsOf es)) (value : Data v.parts) :
    Data (partsOf (putEntry key v es)) := by
  rw [data_partsOf] at data ⊢
  intro e member
  rcases mem_putEntry member with same | kept
  · rwa [same]
  · exact data e kept

end Stencil
