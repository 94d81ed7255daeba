import Stencil.Value.Display

/-!
# Which values can be written

A value has a text unless a whole number in it has too many digits: `Value.text_of_writable`. Floats are no
exception, as the largest one has 309 digits: `toInt?_ofFloat_lt`.
-/

namespace Stencil

open Numeral (writeBound digitLimit)

/-! ### Whole numbers in values -/

mutual

/-- The whole numbers at any depth of a value, those in keys and in hidden entries included. -/
def Value.integers : Value → List Int
  | .int n => [n]
  | .list items | .tuple items => integersAll items
  | .mapping m => m.integers
  | _ => []

def integersAll : List Value → List Int
  | [] => []
  | v :: vs => v.integers ++ integersAll vs

def Mapping.integers : Mapping → List Int
  | .entries es => integersOf es
  | .layered inner outer => inner.integers ++ outer.integers

def integersOf : List (Value × Value) → List Int
  | [] => []
  | (k, v) :: es => k.integers ++ v.integers ++ integersOf es

end

/-- No whole number has too many digits. -/
def Short (ns : List Int) : Prop := ∀ n ∈ ns, n.natAbs < writeBound

theorem short_append {ms ns : List Int} : Short (ms ++ ns) ↔ Short ms ∧ Short ns :=
  List.forall_mem_append

def Value.Writable (v : Value) : Prop := Short v.integers

theorem writeInt_of_lt {n : Int} (short : n.natAbs < writeBound) : ∃ t, Numeral.writeInt n = .ok t :=
  ⟨_, Numeral.writeInt_eq_ok_iff.mpr ⟨short, rfl⟩⟩

/-! ### Floats -/

theorem ofFloat_finite {x : Float} {negative : Bool} {m : Nat} {q : Int}
    (finite : Decimal.Binary.ofFloat x = .finite negative m q) : m < Nat.pow 2 53 ∧ q ≤ 971 := by
  unfold Decimal.Binary.ofFloat at finite
  have fraction : x.toBits.toNat % Nat.pow 2 52 < Nat.pow 2 52 := Nat.mod_lt _ (by decide)
  have exponent : x.toBits.toNat / Nat.pow 2 52 % Nat.pow 2 11 < Nat.pow 2 11 := Nat.mod_lt _ (by decide)
  dsimp only at finite
  generalize x.toBits.toNat % Nat.pow 2 52 = f at finite fraction
  generalize x.toBits.toNat / Nat.pow 2 52 % Nat.pow 2 11 = e at finite exponent
  simp only [Nat.pow_eq, Decimal.leastExponent] at *
  split at finite
  · split at finite <;> cases finite
  · split at finite <;> cases finite <;> omega

theorem pow_le_writeBound {k : Nat} (within : k ≤ digitLimit) : Nat.pow 10 k ≤ writeBound := by
  unfold writeBound
  generalize digitLimit = limit at within ⊢
  exact Nat.pow_le_pow_right (by decide) within

theorem mul_pow_lt_writeBound {m k : Nat} (significand : m < Nat.pow 2 53) (exponent : k ≤ 971) :
    m * Nat.pow 2 k < writeBound :=
  calc m * Nat.pow 2 k < Nat.pow 2 53 * Nat.pow 2 k := Nat.mul_lt_mul_of_pos_right significand (Nat.two_pow_pos k)
    _ = Nat.pow 2 (53 + k) := (Nat.pow_add 2 53 k).symm
    _ ≤ Nat.pow 10 (53 + k) := Nat.pow_le_pow_left (by decide) _
    _ ≤ writeBound := pow_le_writeBound (by unfold digitLimit; omega)

theorem toInt?_ofFloat_lt {x : Float} {n : Int} (whole : (Decimal.Binary.ofFloat x).toInt? = some n) :
    n.natAbs < writeBound := by
  have signed (negative : Bool) (k : Nat) : (if negative then -(k : Int) else k).natAbs = k := by
    cases negative <;> simp
  cases parts : Decimal.Binary.ofFloat x with
  | nan | infinite =>
    rw [parts] at whole
    cases whole
  | finite negative m q =>
    obtain ⟨significand, exponent⟩ := ofFloat_finite parts
    rw [parts] at whole
    unfold Decimal.Binary.toInt? at whole
    dsimp only at whole
    split at whole
    · obtain rfl := Option.some.inj whole
      rw [signed]
      exact mul_pow_lt_writeBound significand (by omega)
    · split at whole
      · obtain rfl := Option.some.inj whole
        have small := mul_pow_lt_writeBound (k := 0) significand (by decide)
        rw [signed]
        exact Nat.lt_of_le_of_lt (Nat.div_le_self _ _) (by simpa using small)
      · cases whole

/-! ### Texts of values -/

mutual

theorem Value.display_of_short : (v : Value) → Short v.integers → ∃ t, v.display = .ok t
  | .null, _ | .bool true, _ | .bool false, _ | .float _, _ | .str _, _ | .time _, _ | .helper _ _, _ => ⟨_, rfl⟩
  | .int n, short => writeInt_of_lt (short n List.mem_cons_self)
  | .list items, short | .tuple items, short => by
    obtain ⟨parts, written⟩ := displayAll_of_short items short
    rw [Value.display, written]
    exact ⟨_, rfl⟩
  | .mapping m, short => m.display_of_short short

theorem displayAll_of_short : (vs : List Value) → Short (integersAll vs) → ∃ ts, displayAll vs = .ok ts
  | [], _ => ⟨[], rfl⟩
  | v :: vs, short => by
    obtain ⟨here, later⟩ := short_append.mp short
    obtain ⟨t, first⟩ := v.display_of_short here
    obtain ⟨ts, others⟩ := displayAll_of_short vs later
    rw [displayAll, first, others]
    exact ⟨t :: ts, rfl⟩

theorem Mapping.display_of_short : (m : Mapping) → Short m.integers → ∃ t, m.display = .ok t
  | .entries es, short => by
    obtain ⟨parts, written⟩ := displayEntries_of_short es short
    rw [Mapping.display, written]
    exact ⟨_, rfl⟩
  | .layered inner outer, short => by
    obtain ⟨here, behind⟩ := short_append.mp short
    obtain ⟨t, first⟩ := inner.display_of_short here
    obtain ⟨u, second⟩ := outer.display_of_short behind
    rw [Mapping.display, first, second]
    exact ⟨_, rfl⟩

theorem displayEntries_of_short : (es : List (Value × Value)) → Short (integersOf es) →
    ∃ ts, displayEntries es = .ok ts
  | [], _ => ⟨[], rfl⟩
  | (k, v) :: es, short => by
    obtain ⟨here, later⟩ := short_append.mp short
    obtain ⟨key, value⟩ := short_append.mp here
    obtain ⟨t, first⟩ := k.display_of_short key
    obtain ⟨u, second⟩ := v.display_of_short value
    obtain ⟨ts, others⟩ := displayEntries_of_short es later
    rw [displayEntries, first, second, others]
    exact ⟨_, rfl⟩

end

theorem text_float (x : Float) : ∃ t, (Value.float x).text = .ok t := by
  rw [Value.text]
  cases whole : (Decimal.Binary.ofFloat x).toInt? with
  | none => exact ⟨_, rfl⟩
  | some n => exact writeInt_of_lt (toInt?_ofFloat_lt whole)

mutual

theorem Value.text_of_writable : (v : Value) → v.Writable → ∃ t, v.text = .ok t
  | .null, _ | .bool true, _ | .bool false, _ | .str _, _ | .time _, _ | .helper _ _, _ => ⟨_, rfl⟩
  | .float x, _ => text_float x
  | .int n, short => writeInt_of_lt (short n List.mem_cons_self)
  | .list items, short | .tuple items, short => by
    obtain ⟨parts, written⟩ := textAll_of_short items short
    rw [Value.text, written]
    exact ⟨_, rfl⟩
  | .mapping m, short => m.display_of_short short

theorem textAll_of_short : (vs : List Value) → Short (integersAll vs) → ∃ ts, textAll vs = .ok ts
  | [], _ => ⟨[], rfl⟩
  | v :: vs, short => by
    obtain ⟨here, later⟩ := short_append.mp short
    obtain ⟨t, first⟩ := v.text_of_writable here
    obtain ⟨ts, others⟩ := textAll_of_short vs later
    rw [textAll, first, others]
    exact ⟨t :: ts, rfl⟩

end

end Stencil
