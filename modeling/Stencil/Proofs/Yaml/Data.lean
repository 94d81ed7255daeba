import Stencil.Proofs.Data.Override
import Stencil.Yaml.Loader

/-!
# Documents hold data

What a document stands for is made of scalars, lists and plain dictionaries: `load_data`. So the loader makes plain
data, as `loader_plain` says.
-/

namespace Stencil.Yaml

variable {level : Nat} {deep : Bool} {v : Value}

/-! ### Scalars -/

theorem value_of_map {α : Type} {f : α → Value} {x : Except Fault α} (scalar : ∀ a, (f a).isScalar = true)
    (done : Resolved.value <$> (x.map f) = .ok (.value v)) : v.isScalar = true := by
  cases x with
  | error e => cases done
  | ok a =>
    cases done
    exact scalar a

theorem resolve_scalar {s : Text} (done : resolve s = .ok (.value v)) : v.isScalar = true := by
  unfold resolve at done
  split at done
  · cases done; rfl
  split at done
  · cases done; rfl
  split at done
  · exact value_of_map (fun _ => rfl) done
  split at done
  · exact value_of_map (fun _ => rfl) done
  split at done
  · cases done
  split at done
  · cases done; rfl
  split at done
  · exact value_of_map (fun _ => rfl) done
  · split at done
    · cases done
    · cases done; rfl

theorem taggedScalar_scalar {tag s : Text} (done : taggedScalar tag s = .ok (.value v)) : v.isScalar = true := by
  unfold taggedScalar at done
  dsimp only at done
  split at done
  · exact resolve_scalar done
  split at done
  · cases done; rfl
  split at done
  · cases done; rfl
  split at done
  · exact value_of_map (fun _ => rfl) done
  split at done
  · exact value_of_map (fun _ => rfl) done
  split at done
  · split at done <;> cases done
    rfl
  split at done
  · split at done
    · exact value_of_map (fun _ => rfl) done
    · cases done
  · cases done

theorem scalarValue_scalar {tag : Option Text} {s : Text} {plain : Bool}
    (done : scalarValue tag s plain = .ok (.value v)) : v.isScalar = true := by
  unfold scalarValue at done
  split at done
  · exact taggedScalar_scalar done
  · split at done
    · exact resolve_scalar done
    · cases done; rfl

/-! ### Collections -/

/-- What has been built so far is data. -/
def Sound (b : Built Value) : Prop := ∀ v, b = .ok v → Data v.parts

def SoundEntries (bs : BuiltEntries) : Prop := ∀ b ∈ bs, Sound b.2

theorem sound_error {ls : List Located} : Sound (.error ls) := nofun

theorem gather_ok {α : Type} {bs : List (Built α)} {as : List α} (done : gather bs = .ok as) :
    ∀ a ∈ as, .ok a ∈ bs := by
  induction bs generalizing as with
  | nil =>
    cases done
    exact nofun
  | cons b bs ih =>
    cases b with
    | error ls => cases done
    | ok a =>
      rw [gather] at done
      cases rest : gather bs with
      | error ls =>
        rw [rest] at done
        cases done
      | ok as' =>
        rw [rest] at done
        obtain rfl := Except.ok.inj done
        intro a' member
        rcases List.mem_cons.mp member with rfl | behind
        · exact List.mem_cons_self
        · exact List.mem_cons_of_mem _ (ih rest a' behind)

theorem entriesOfList_data {pairs : List (Value × Value)} (data : Data (partsOf pairs)) :
    Data (partsOf (entriesOfList pairs)) := by
  rw [data_partsOf] at data
  have fold : ∀ es, Data (partsOf es) → Data (partsOf (pairs.foldl (fun es e => putEntry e.1 e.2 es) es)) := by
    induction pairs with
    | nil => exact fun es before => before
    | cons pair pairs ih =>
      obtain ⟨here, behind⟩ := List.forall_mem_cons.mp data
      exact fun es before => ih behind _ (put_data before here)
  exact fold [] data_nil

theorem collect_sound {unique : Bool} {before : List (Value × Value)} {faults : List Located} {bs : BuiltEntries}
    (data : Data (partsOf before)) (sound : SoundEntries bs) : Sound (collect level unique before faults bs) := by
  induction bs generalizing before faults with
  | nil =>
    intro v done
    rw [collect] at done
    split at done
    · cases done
      exact data_entries.mpr (entriesOfList_data data)
    · cases done
  | cons b bs ih =>
    obtain ⟨key, value⟩ := b
    obtain ⟨here, behind⟩ := List.forall_mem_cons.mp sound
    have known : Data (value.toOption.getD .null).parts := by
      cases value with
      | ok v => exact here v rfl
      | error ls => exact data_scalar rfl
    unfold collect
    apply ih _ behind
    split
    · rw [data_partsOf, List.forall_mem_append]
      exact ⟨data_partsOf.mp data, List.forall_mem_singleton.mpr known⟩
    · exact data

mutual

theorem build_sound (level : Nat) (deep : Bool) : (t : Tree) → Sound (build level deep t)
  | .scalar tag s plain => by
    intro v done
    rw [build] at done
    split at done <;> cases done
    exact data_scalar (scalarValue_scalar ‹_›)
  | .sequence tag items => by
    intro v done
    rw [build] at done
    split at done
    · cases built : gather (buildAll (if deep then level else level + 1) deep items) with
      | error ls =>
        rw [built] at done
        cases done
      | ok vs =>
        rw [built] at done
        obtain rfl := Except.ok.inj done
        refine data_list.mpr fun w member => ?_
        exact buildAll_sound _ deep items _ (gather_ok built w member) w rfl
    · cases done
  | .mapping tag entries => by
    rw [build]
    split
    · have inner := buildEntries_sound (if deep then level else level + 1) deep [] nofun entries
      generalize (if deep then level else level + 1) = inside at inner ⊢
      dsimp only
      split
      · next merged own done =>
        obtain ⟨first, second⟩ := inner merged own done
        exact collect_sound nofun (List.forall_mem_append.mpr ⟨first, second⟩)
      · exact sound_error
    · exact sound_error

theorem buildAll_sound (level : Nat) (deep : Bool) : (ts : List Tree) → ∀ b ∈ buildAll level deep ts, Sound b
  | [] => nofun
  | t :: ts => by
    rw [buildAll]
    exact List.forall_mem_cons.mpr ⟨build_sound level deep t, buildAll_sound level deep ts⟩

theorem buildEntries_sound (level : Nat) (deep : Bool) (merged : BuiltEntries) (sound : SoundEntries merged) :
    (es : List (Tree × Tree)) → ∀ merged' own, buildEntries level deep merged es = .ok (merged', own) →
      SoundEntries merged' ∧ SoundEntries own
  | [], merged', own, done => by
    cases done
    exact ⟨sound, nofun⟩
  | (k, v) :: es, merged', own, done => by
    rw [buildEntries] at done
    split at done
    · split at done
      · split at done
        · next brought new =>
          exact buildEntries_sound level deep brought (broughtBy_sound level deep v brought new) es merged' own done
        · cases done
      · cases done
    · split at done
      · next rest =>
        cases done
        obtain ⟨first, second⟩ := buildEntries_sound level deep merged sound es _ _ rest
        exact ⟨first, List.forall_mem_cons.mpr ⟨build_sound level deep v, second⟩⟩
      · cases done

theorem broughtBy_sound (level : Nat) (deep : Bool) : (t : Tree) → ∀ bs, broughtBy level deep t = .ok bs →
    SoundEntries bs
  | .mapping _ es, bs, done => by
    rw [broughtBy] at done
    cases built : buildEntries level deep [] es with
    | error f =>
      rw [built] at done
      cases done
    | ok parts =>
      rw [built] at done
      cases done
      obtain ⟨first, second⟩ := buildEntries_sound level deep [] nofun es _ _ built
      exact List.forall_mem_append.mpr ⟨first, second⟩
  | .sequence _ items, bs, done => by
    rw [broughtBy] at done
    exact broughtByAll_sound level deep items bs done
  | .scalar _ _ _, bs, done => by cases done

theorem broughtByAll_sound (level : Nat) (deep : Bool) : (ts : List Tree) →
    ∀ bs, broughtByAll level deep ts = .ok bs → SoundEntries bs
  | [], bs, done => by
    cases done
    exact nofun
  | .mapping _ es :: items, bs, done => by
    rw [broughtByAll] at done
    split at done
    · next merged own later built rest =>
      cases done
      obtain ⟨first, second⟩ := buildEntries_sound level deep [] nofun es _ _ built
      have behind := broughtByAll_sound level deep items later rest
      exact List.forall_mem_append.mpr ⟨behind, List.forall_mem_append.mpr ⟨first, second⟩⟩
    · cases done
  | .scalar _ _ _ :: _, _, done => by cases done
  | .sequence _ _ :: _, _, done => by cases done

end

end Stencil.Yaml
