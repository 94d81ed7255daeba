import Stencil.Proofs.Grammar.Name
import Stencil.Proofs.Node.Spelling

/-!
# End markers and the search for them

`endMarker_eq_some` says that an end marker is a closing tag of the name at the start of the text, and
`findEnd_eq_some` that the search stops at the first one. The end marker of a name neither runs over a quote
nor into the braces of a tag, so what stands behind a text has no say in whether one begins in it:
`nowhere_marked_braces` and `nowhere_marked_quoted`.
-/

namespace Stencil.Grammar

open Stencil.Parser

/-! ### What an end marker is -/

def Marked (name s : Text) : Prop := (endMarker name s).isSome = true

theorem skipBlanks_blanks {w : Text} (s : Text) (blanks : Text.Blanks w) :
    Text.skipBlanks (w ++ s) = Text.skipBlanks s :=
  List.dropWhile_append_of_pos blanks

theorem skipBlanks_braces (r : Text) : Text.skipBlanks (closeBraces ++ r) = closeBraces ++ r := rfl

theorem skipBlanks_split (s : Text) : ∃ w, Text.Blanks w ∧ s = w ++ Text.skipBlanks s :=
  ⟨s.takeWhile Text.isBlank, fun c member => List.all_eq_true.mp List.all_takeWhile c member,
    List.takeWhile_append_dropWhile.symm⟩

theorem closesHere_eq_some {name s c : Text} : closesHere name s = some c ↔
    ∃ w r, Text.Blanks w ∧ s = name ++ w ++ c ∧ c = closeBraces ++ r := by
  simp only [closesHere, Option.bind_eq_some_iff, Option.map_eq_some_iff, Text.after?_eq_some]
  constructor
  · rintro ⟨u, rfl, r, braces, rfl⟩
    obtain ⟨w, blanks, split⟩ := skipBlanks_split u
    exact ⟨w, r, blanks, by rw [List.append_assoc, ← split], braces⟩
  · rintro ⟨w, r, blanks, rfl, rfl⟩
    refine ⟨w ++ (closeBraces ++ r), by simp, r, ?_, ?_⟩ <;>
      rw [skipBlanks_blanks _ blanks, skipBlanks_braces]

theorem closesSection_sound {name s c : Text} (closes : closesSection name s = some c) :
    ∃ w t, Text.Blanks w ∧ s = w ++ t ∧ closesHere name t = some c := by
  induction s with
  | nil => exact ⟨[], [], Node.blanks_nil, rfl, closes⟩
  | cons d s ih =>
    unfold closesSection at closes
    rcases Option.or_eq_some_iff.mp closes with here | ⟨-, later⟩
    · exact ⟨[], d :: s, Node.blanks_nil, rfl, here⟩
    · simp only [Option.ite_none_right_eq_some] at later
      obtain ⟨w, t, blanks, rfl, here⟩ := ih later.2
      exact ⟨d :: w, t, List.forall_mem_cons.mpr ⟨later.1, blanks⟩, rfl, here⟩

theorem closesSection_isSome {name w t c : Text} (blanks : Text.Blanks w)
    (here : closesHere name t = some c) : (closesSection name (w ++ t)).isSome = true := by
  induction w with
  | nil =>
    cases t with
    | nil => exact Option.isSome_of_eq_some here
    | cons d t => rw [List.nil_append, closesSection, here]; rfl
  | cons d w ih =>
    obtain ⟨blank, blanks⟩ := List.forall_mem_cons.mp blanks
    rw [List.cons_append, closesSection, if_pos blank, Option.isSome_or, ih blanks, Bool.or_true]

/-- The blanks before and behind the name may be divided in several ways, but they end in one place. -/
theorem closing_unique {name w w' v v' r u : Text} (hw : Text.Blanks w) (hw' : Text.Blanks w')
    (hv : Text.Blanks v) (hv' : Text.Blanks v')
    (same : w ++ (name ++ w' ++ (closeBraces ++ r)) = v ++ (name ++ v' ++ (closeBraces ++ u))) :
    closeBraces ++ r = closeBraces ++ u := by
  have skipped := congrArg Text.skipBlanks same
  rw [skipBlanks_blanks _ hw, skipBlanks_blanks _ hv] at skipped
  obtain ⟨b, blanks, split⟩ := skipBlanks_split name
  rw [split] at skipped
  simp only [List.append_assoc] at skipped
  rw [skipBlanks_blanks _ blanks, skipBlanks_blanks _ blanks] at skipped
  cases core : Text.skipBlanks name with
  | nil =>
    simp only [core, List.nil_append] at skipped
    rwa [skipBlanks_blanks _ hw', skipBlanks_blanks _ hv', skipBlanks_braces, skipBlanks_braces] at skipped
  | cons d n =>
    -- The name holds more than blanks, so the search for its end starts behind them.
    have solid : Text.isBlank d = false := by
      have stops := stops_dropWhile Text.isBlank name
      rw [show name.dropWhile Text.isBlank = d :: n from core] at stops
      exact stops_cons.mp stops
    have keep (x : Text) : Text.skipBlanks (d :: n ++ x) = d :: n ++ x := by
      simp [Text.skipBlanks, solid]
    rw [core, keep, keep] at skipped
    have behind := congrArg Text.skipBlanks (List.append_cancel_left skipped)
    rwa [skipBlanks_blanks _ hw', skipBlanks_blanks _ hv', skipBlanks_braces, skipBlanks_braces] at behind

/-- An end marker is a closing tag of the name; what is left begins with its closing braces. -/
theorem endMarker_eq_some {name s c : Text} : endMarker name s = some c ↔
    ∃ foot r, Node.Framed ['/'] name foot ∧ s = foot ++ r ∧ c = closeBraces ++ r := by
  have sound {s c : Text} (marked : endMarker name s = some c) : ∃ w w' r, Text.Blanks w ∧
      Text.Blanks w' ∧ s = openBraces ++ ['/'] ++ (w ++ (name ++ w' ++ c)) ∧ c = closeBraces ++ r := by
    obtain ⟨t, opened, closes⟩ := Option.bind_eq_some_iff.mp marked
    obtain ⟨w, u, blanks, rfl, here⟩ := closesSection_sound closes
    obtain ⟨w', r, blanks', rfl, braces⟩ := closesHere_eq_some.mp here
    exact ⟨w, w', r, blanks, blanks', Text.after?_eq_some.mp opened, braces⟩
  constructor
  · intro marked
    obtain ⟨w, w', r, blanks, blanks', rfl, rfl⟩ := sound marked
    exact ⟨_, r, ⟨_, ⟨w, w', blanks, blanks', rfl⟩, rfl⟩, by simp, rfl⟩
  · rintro ⟨foot, r, ⟨p, ⟨w, w', blanks, blanks', rfl⟩, rfl⟩, rfl, rfl⟩
    have here : closesHere name (name ++ w' ++ (closeBraces ++ r)) = some (closeBraces ++ r) :=
      closesHere_eq_some.mpr ⟨w', r, blanks', rfl, rfl⟩
    obtain ⟨c, closes⟩ := Option.isSome_iff_exists.mp (closesSection_isSome blanks here)
    have marked : endMarker name (openBraces ++ ['/'] ++ (w ++ (name ++ w' ++ (closeBraces ++ r)))) = some c :=
      Option.bind_eq_some_iff.mpr ⟨_, Text.after?_append _ _, closes⟩
    obtain ⟨v, v', u, hv, hv', same, rfl⟩ := sound marked
    rw [closing_unique blanks blanks' hv hv' (List.append_cancel_left same), ← marked]
    simp

theorem marked_iff {name s : Text} :
    Marked name s ↔ ∃ foot r, Node.Framed ['/'] name foot ∧ s = foot ++ r := by
  rw [Marked, Option.isSome_iff_exists]
  constructor
  · rintro ⟨c, marked⟩
    obtain ⟨foot, r, framed, same, -⟩ := endMarker_eq_some.mp marked
    exact ⟨foot, r, framed, same⟩
  · rintro ⟨foot, r, framed, same⟩
    exact ⟨_, endMarker_eq_some.mpr ⟨foot, r, framed, same, rfl⟩⟩

theorem marked_head {name s : Text} (marked : Marked name s) : s.head? = some '{' := by
  obtain ⟨foot, r, ⟨p, -, rfl⟩, rfl⟩ := marked_iff.mp marked
  rfl

/-! ### The search -/

theorem findEnd_sound {name s : Text} {e : Ending} (found : findEnd name s = some e) :
    Nowhere (Marked name) e.body e.marker ∧ endMarker name e.marker = some e.closing := by
  induction s generalizing e with
  | nil => cases found
  | cons c s ih =>
    unfold findEnd at found
    split at found
    · next marked =>
      cases found
      exact ⟨trivial, marked⟩
    · next unmarked =>
      obtain ⟨e, later, rfl⟩ := Option.map_eq_some_iff.mp found
      obtain ⟨absent, marked⟩ := ih later
      refine ⟨⟨?_, absent⟩, marked⟩
      rw [List.cons_append, findEnd_append later, Marked, unmarked]
      exact Bool.false_ne_true

theorem findEnd_of_nowhere {name b m d : Text} (absent : Nowhere (Marked name) b m)
    (marked : endMarker name m = some d) : findEnd name (b ++ m) = some ⟨b, m, d⟩ := by
  induction b with
  | nil =>
    cases m with
    | nil => cases marked
    | cons c m => simp only [List.nil_append, findEnd, marked]
  | cons c b ih =>
    have unmarked : endMarker name (c :: (b ++ m)) = none := by simpa [Marked] using absent.1
    simp only [List.cons_append, findEnd, unmarked, ih absent.2, Option.map_some]

theorem findEnd_eq_some {name s b m d : Text} : findEnd name s = some ⟨b, m, d⟩ ↔
    s = b ++ m ∧ Nowhere (Marked name) b m ∧ endMarker name m = some d := by
  constructor
  · intro found
    obtain ⟨absent, marked⟩ := findEnd_sound found
    exact ⟨(findEnd_append found).symm, absent, marked⟩
  · rintro ⟨rfl, absent, marked⟩
    exact findEnd_of_nowhere absent marked

/-- The search stops at the end of the body where no end marker begins before it. -/
theorem nowhere_of_findEnd {name b m : Text} (first : (findEnd name (b ++ m)).map Ending.body = some b) :
    Nowhere (Marked name) b m := by
  obtain ⟨e, found, same⟩ := Option.map_eq_some_iff.mp first
  have whole := findEnd_append found
  rw [same] at whole
  have marker := List.append_cancel_left whole
  obtain ⟨absent, -⟩ := findEnd_sound found
  rwa [same, marker] at absent

theorem findEnd_eq_none {name s : Text} : findEnd name s = none ↔ Nowhere (Marked name) s [] := by
  induction s with
  | nil => simp [findEnd, Nowhere]
  | cons c s ih =>
    rw [findEnd, Nowhere, List.append_nil]
    cases marked : endMarker name (c :: s) with
    | none => simp [Marked, marked, ih]
    | some d => simp [Marked, marked]

/-! ### End markers of names -/

theorem framed_foot_chars {name foot : Text} (valid : IsName name) (framed : Node.Framed ['/'] name foot) :
    ∃ core, foot = '{' :: '{' :: '/' :: core ∧ ∀ c ∈ core, isNameChar c = true ∨ isDelimiter c = true := by
  obtain ⟨p, ⟨w, w', blanks, blanks', rfl⟩, rfl⟩ := framed
  refine ⟨w ++ name ++ w' ++ closeBraces, rfl, ?_⟩
  intro c member
  simp only [List.mem_append] at member
  rcases member with ((member | member) | member) | member
  · exact .inr (isDelimiter_of_isBlank (blanks c member))
  · exact .inl (valid.chars c member)
  · exact .inr (isDelimiter_of_isBlank (blanks' c member))
  · have brace : c = '}' := by simpa [closeBraces] using member
    exact .inr (by rw [brace]; rfl)

/-- An end marker that begins in `y` ends there, unless it takes up what stands behind. -/
theorem marked_append {name y m : Text} (inside : ∀ foot z, Node.Framed ['/'] name foot → foot = y ++ z →
    z <+: m → z = []) : Marked name (y ++ m) ↔ Marked name y := by
  rw [marked_iff, marked_iff]
  constructor
  · rintro ⟨foot, r, framed, same⟩
    rcases List.append_eq_append_iff.mp same with ⟨z, rfl, rfl⟩ | ⟨z, rfl, rfl⟩
    · obtain rfl := inside _ z framed rfl (List.prefix_append _ _)
      exact ⟨y ++ [], [], framed, by simp⟩
    · exact ⟨foot, z, framed, rfl⟩
  · rintro ⟨foot, r, framed, rfl⟩
    exact ⟨foot, r ++ m, framed, by simp⟩

theorem marked_braces {name y m : Text} (valid : IsName name) (nonempty : y ≠ []) (braces : openBraces <+: m) :
    Marked name (y ++ m) ↔ Marked name y := by
  refine marked_append fun foot z framed split front => ?_
  obtain ⟨core, rfl, chars⟩ := framed_foot_chars valid framed
  obtain ⟨m, rfl⟩ := braces
  have plain : '{' ∉ core := fun member => by rcases chars _ member with h | h <;> cases h
  match z, y with
  | [], _ => rfl
  | _ :: _, [] => exact absurd rfl nonempty
  | d :: z, [b] =>
    -- A single brace in front of two others begins no end marker.
    have behind : '{' :: '/' :: core = d :: z := (List.cons.inj split).2
    rw [← behind] at front
    cases (List.cons_prefix_cons.mp (List.cons_prefix_cons.mp front).2).1
  | d :: z, b :: b' :: y =>
    obtain rfl := (List.cons_prefix_cons.mp front).1
    obtain ⟨-, split⟩ := List.cons.inj (List.cons.inj split).2
    have member : '{' ∈ '/' :: core := split ▸ by simp
    rcases List.mem_cons.mp member with h | h
    · cases h
    · exact absurd h plain

theorem marked_quoted {name y m : Text} {quote : Char} (valid : IsName name)
    (mark : quote = '\'' ∨ quote = '"') (quoted : quote ∈ y) : Marked name (y ++ m) ↔ Marked name y := by
  refine marked_append fun foot z framed split front => ?_
  obtain ⟨core, rfl, chars⟩ := framed_foot_chars valid framed
  have member : quote ∈ '{' :: '{' :: '/' :: core := split ▸ List.mem_append_left _ quoted
  have outside : isNameChar quote = false ∧ isDelimiter quote = false := by
    rcases mark with rfl | rfl <;> exact ⟨rfl, rfl⟩
  simp only [List.mem_cons] at member
  rcases member with rfl | rfl | rfl | member
  · simp at mark
  · simp at mark
  · simp at mark
  · rcases chars _ member with h | h
    · rw [outside.1] at h; cases h
    · rw [outside.2] at h; cases h

/-- Whether an end marker begins in a text does not hang on braces behind it. -/
theorem nowhere_marked_braces {name t m : Text} (valid : IsName name) (braces : openBraces <+: m) :
    Nowhere (Marked name) t m ↔ findEnd name t = none := by
  rw [findEnd_eq_none]
  refine nowhere_congr fun y nonempty _ => ?_
  rw [List.append_nil, marked_braces valid nonempty braces]

/-- Whether an end marker begins in a text that ends in a quote does not hang on what stands behind it. -/
theorem nowhere_marked_quoted {name t m : Text} {quote : Char} (valid : IsName name)
    (mark : quote = '\'' ∨ quote = '"') :
    Nowhere (Marked name) (t ++ [quote]) m ↔ findEnd name (t ++ [quote]) = none := by
  rw [findEnd_eq_none]
  refine nowhere_congr fun y nonempty suffix => ?_
  have quoted : quote ∈ y := by
    rcases List.suffix_concat_iff.mp suffix with rfl | ⟨u, rfl, -⟩
    · exact absurd rfl nonempty
    · simp
  rw [List.append_nil, marked_quoted valid mark quoted]

end Stencil.Grammar
