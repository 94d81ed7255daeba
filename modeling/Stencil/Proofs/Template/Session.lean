import Stencil.Proofs.Grammar.Opener
import Stencil.Proofs.Template.Reading
import Stencil.Session

/-!
# The state of the reader and plain recursion

The reader with a state tells nobody why a tag fails: a body that is refused sets a mark, and the problem is read off
the mark and off the text of the tag. It passes on no depth either, which is the height of its stack. `Session.parse_eq`
says that it makes the same template as plain recursion on the bodies with one level less for each, that its stack is
empty in the end, and that no mark outlives the tag that it was set for.
-/

namespace Stencil

open Grammar Stencil.Parser
open Node (Framed SpellsTag)

/-! ### Tags that fail -/

/-- Why no tag is read at the start of a text, in terms of the text. -/
inductive StuckCase (depth : Nat) (s : Text) : TagFault → Prop
  | malformed (headless : ∀ name rest, ¬ Heads name s rest)
      (any : ∀ {ε : Type} (body : BodyReader ε), tag body s = pure (.error .malformed)) :
      StuckCase depth s .malformed
  | unterminated {name rest : Text} (heads : Heads name s rest) (endless : ¬ Ends name rest) :
      StuckCase depth s (.unterminated name)
  | refused {name rest : Text} (heads : Heads name s rest) (ends : Ends name rest) (bottom : depth = 0) :
      StuckCase depth s .refused

theorem Stuck.cases {depth : Nat} {s : Text} {cause : TagFault} (stuck : Stuck depth s cause) :
    StuckCase depth s cause := by
  by_cases headed : ∃ name rest, Heads name s rest
  · obtain ⟨name, rest, heads⟩ := headed
    by_cases ends : Ends name rest
    · obtain ⟨sense, b, after, behind, whole⟩ :=
        tag_ended (fun inner after => Stencil.readBody depth (0 + after) inner) heads ends
      have result := congrArg Traced.result (whole.symm.trans (stuck 0))
      cases depth with
      | zero =>
        obtain rfl := Except.error.inj result
        exact .refused heads ends rfl
      | succ depth => cases result
    · have named := congrArg Traced.result ((tag_endless _ heads ends).symm.trans (stuck 0))
      obtain rfl := Except.error.inj named
      exact .unterminated heads ends
  · have headless : ∀ name rest, ¬ Heads name s rest := fun name rest heads => headed ⟨name, rest, heads⟩
    obtain rfl := tag_headless headless (stuck 0)
    exact .malformed headless (tag_malformed headless (stuck 0))

namespace Session

/-! ### One tag -/

/-- The body that the section at the start of the text hands over, with its place. -/
def handed (body : Text → Body) (st : Session) : BodyReader (Text × Nat) :=
  fun b after => ⟨[(b, after)], (body b after st).1⟩

theorem readSection_eq (inner : Text) (body : Text → Body) (st : Session) :
    readSection inner (fun b _ => body b) st = match sectionHead inner with
      | none => (none, st)
      | some ((sense, name), rest) =>
        match findEnd name rest with
        | none => (none, st)
        | some e =>
          match body e.body e.marker.length st with
          | (none, st) => (none, st)
          | (some nodes, st) => (some (.block sense (.name name) nodes, e.closing), st) := by
  unfold readSection
  split
  · next headed => rw [headed]
  · next headed =>
    split
    · next found => simp only [headed, found]
    · next e found =>
      cases handed : body e.body e.marker.length st with
      | mk read st => cases read <;> simp only [headed, found, handed]

/-- The tag is what plain recursion makes of it, and the state is that of the body, if there is one. -/
theorem readTag_eq (body : Text → Body) (s : Text) (st : Session) : readTag s (fun b _ => body b) st =
    ((tag (handed body st) s).result.toOption, match (tag (handed body st) s).events with
      | [] => st
      | (b, after) :: _ => (body b after st).2) := by
  unfold readTag tag
  split
  · next opened =>
    simp only [opened]
    rfl
  · next inner opened =>
    simp only [opened, readSection_eq]
    cases value : (escapedTag <|> rawTag : Parser Node) inner with
    | some read => rfl
    | none =>
      dsimp only
      cases headed : sectionHead inner with
      | none =>
        cases call : helperTag inner <;> rfl
      | some read =>
        obtain ⟨⟨sense, name⟩, rest⟩ := read
        dsimp only
        rw [helperTag_headed headed]
        cases found : findEnd name rest with
        | none => rfl
        | some e =>
          cases read : body e.body e.marker.length st with
          | mk nodes st' =>
            cases nodes with
            | none => simp [handed, read, Except.toOption]
            | some nodes => simp [handed, read]

/-! ### Bodies and nodes -/

section

variable {limit : Int} {source s : Text} {k after : Nat} {st : Session} {ds : List Diagnostic} {outer : List Nat}

/-- A body is refused where the stack is higher than the limit; the stack stays as it is. -/
theorem readBody_refused (b : Text) (high : st.limit < st.trailing.length) :
    readBody b after st = (none, { st with tooDeep := true }) := by
  rw [readBody, if_pos high]

/-- A body that is read has its number of characters behind it on the stack meanwhile, which adds up from those
of the texts around it. -/
theorem readBody_read (b : Text) (low : st.trailing.length ≤ st.limit) : readBody b after st =
    let trailing := st.trailing.headD 0 + after
    let read := readOn b trailing { st with trailing := trailing :: st.trailing }
    (some read.1, { read.2 with trailing := read.2.trailing.tail }) := by
  rw [readBody, if_neg (Int.not_lt.mpr low), readNodes]

theorem readOn_nil : readOn [] k st = ([], st) := by
  rw [readOn]
  rfl

theorem readOn_opens (opens : Opens s) : readOn s k st =
    match readTag s (fun b _ => readBody b) st with
    | (none, st) => ([.text s], st.report s k)
    | (some (n, rest), st) => (n :: (readOn rest k st).1, (readOn rest k st).2) := by
  obtain ⟨c, cs, rfl⟩ : ∃ c cs, s = c :: cs := by
    obtain ⟨u, rfl⟩ := opens
    exact ⟨'{', '{' :: u, rfl⟩
  rw [readOn]
  split
  · next cut =>
    rw [cutBefore_opens opens] at cut
    cases cut
  · next cut =>
    rw [cutBefore_opens opens] at cut
    cases cut
    split
    · next failed =>
      rw [failed]
      rfl
    · next read =>
      rw [read]
      rfl

theorem readOn_plain {t : Text} (nonempty : t ≠ []) (plain : Nowhere Opens t s) (next : s = [] ∨ Opens s) :
    readOn (t ++ s) k st = (.text t :: (readOn s k st).1, (readOn s k st).2) := by
  have texts : textNodes t = [.text t] := by rw [textNodes, if_neg (by simpa using nonempty)]
  have cut := cutBefore_braces.mpr ⟨rfl, plain, next⟩
  rw [readOn]
  split
  · next cut' =>
    rw [cut] at cut'
    obtain ⟨rfl, rfl⟩ := Prod.mk.inj cut'
    rw [texts, readOn_nil]
  · next cut' =>
    rw [cut] at cut'
    obtain ⟨rfl, rfl⟩ := Prod.mk.inj cut'
    rw [texts, readOn_opens (next.resolve_left (List.cons_ne_nil _ _))]
    split
    · next failed =>
      rw [failed]
      rfl
    · next read =>
      rw [read]
      rfl

end

/-! ### Tags that fail -/

section

variable {depth k : Nat} {limit : Int} {source s : Text} {cause : TagFault} {outer : List Nat} {ds : List Diagnostic}

/-- The state while a text with `k` characters behind it is read, and `outer` behind those around it. -/
abbrev amid (limit : Int) (source : Text) (k : Nat) (outer : List Nat) (ds : List Diagnostic) : Session :=
  ⟨limit, source, k :: outer, ds, false⟩

/-- What is reported of a tag that fails is why it fails in plain recursion, and the mark is gone. -/
theorem readTag_stuck (source : Text) (ds : List Diagnostic) (stuck : Stuck depth s cause)
    (room : limit.toNat = outer.length + depth) : ∃ st,
    readTag s (fun b _ => readBody b) (amid limit source k outer ds) = (none, st) ∧
      st.report s k = amid limit source k outer (ds ++ [Fault.diagnostic source limit ⟨cause, k + s.length⟩]) := by
  cases stuck.cases with
  | malformed headless any =>
    have unopened : sectionOpener s = none := by
      apply eq_none_of
      intro name rest read
      exact headless name rest (sectionOpener_eq_some.mp read)
    refine ⟨amid limit source k outer ds, ?_, ?_⟩
    · rw [readTag_eq, any]
      rfl
    · unfold report
      rw [unopened]
      rfl
  | unterminated heads endless =>
    refine ⟨amid limit source k outer ds, ?_, ?_⟩
    · rw [readTag_eq, tag_endless _ heads endless]
      rfl
    · unfold report
      rw [sectionOpener_eq_some.mpr heads]
      rfl
  | refused heads ends bottom =>
    -- The body sets the mark, and no other tag is tried before the problem is reported.
    subst bottom
    refine ⟨{ amid limit source k outer ds with tooDeep := true }, ?_, rfl⟩
    have high : limit < (k :: outer).length := by
      rw [List.length_cons]
      omega
    have refused (b : Text) (after : Nat) : readBody b after (amid limit source k outer ds) =
        (none, { amid limit source k outer ds with tooDeep := true }) := readBody_refused b high
    obtain ⟨sense, b, after, behind, whole⟩ := tag_ended (handed readBody (amid limit source k outer ds)) heads ends
    have stops : tag (handed readBody (amid limit source k outer ds)) s = ⟨[(b, after)], .error .refused⟩ := by
      rw [whole, handed, refused]
      rfl
    rw [readTag_eq, stops]
    exact congrArg (none, ·.2) (refused b after)

end

end Session

/-! ### Both readers -/

open Session (amid) in
/-- With as many levels to spare as the stack is below the limit, the reader has the nodes of plain recursion and
reports its faults, leaves the stack as it was, and leaves no mark. -/
theorem Reads.readOn {depth k : Nat} {s : Text} {ns : List Node} {fs : List Fault} (reads : Reads depth k s ns fs)
    {limit : Int} (source : Text) {outer : List Nat} (room : limit.toNat = outer.length + depth)
    (ds : List Diagnostic) : Session.readOn s k (amid limit source k outer ds) =
      (ns, amid limit source k outer (ds ++ fs.map (Fault.diagnostic source limit))) := by
  induction reads generalizing outer ds with
  | nil => rw [Session.readOn_nil, List.map_nil, List.append_nil]
  | text nonempty plain next rest ih => rw [Session.readOn_plain nonempty plain next, ih room]
  | stuck opens stuck =>
    obtain ⟨st, failed, reported⟩ := Session.readTag_stuck source ds stuck room
    rw [Session.readOn_opens opens, failed]
    exact congrArg _ reported
  | @tag depth k n p s _ _ spelled valid rest ih =>
    have found : Session.readTag (p ++ s) (fun b _ => Session.readBody b) (amid limit source k outer ds) =
        (some (n, s), amid limit source k outer ds) := by
      rw [Session.readTag_eq, tag_spelled _ spelled valid]
      rfl
    rw [Session.readOn_opens (spelled.opens s), found]
    simp only [ih room]
  | @block depth k sense name head b foot s body ns es fs named opened ended first inner rest ihInner ih =>
    -- The body is read with one more entry on the stack and without a mark. It takes the entry away again and leaves
    -- no mark, so what follows starts as the section did.
    have opens : Opens (head ++ b ++ foot ++ s) := by simpa using opened.opens (b ++ (foot ++ s))
    have low : ((k :: outer).length : Int) ≤ limit := by
      rw [List.length_cons]
      omega
    have within : Session.readBody b (foot ++ s).length (amid limit source k outer ds) =
        (some body, amid limit source k outer (ds ++ es.map (Fault.diagnostic source limit))) := by
      have deeper : limit.toNat = (k :: outer).length + depth := by
        rw [List.length_cons]
        omega
      rw [Session.readBody_read b low]
      show (some (Session.readOn b _ (amid limit source _ (k :: outer) ds)).1, _) = _
      rw [List.headD_cons, ihInner deeper ds]
      rfl
    have found : Session.readTag (head ++ b ++ foot ++ s) (fun b _ => Session.readBody b)
        (amid limit source k outer ds) = (some (.block sense (.name name) body, s),
          amid limit source k outer (ds ++ es.map (Fault.diagnostic source limit))) := by
      rw [Session.readTag_eq, tag_section _ named opened ended first, Session.handed]
      show (_, (Session.readBody b (foot ++ s).length (amid limit source k outer ds)).2) = _
      rw [within]
      rfl
    rw [Session.readOn_opens opens, found]
    simp only [ih room]
    rw [List.map_append, List.append_assoc ds]

namespace Session

theorem read_eq {limit : Int} {source : Text} {ns : List Node} {fs : List Fault}
    (reads : Reads limit.toNat 0 source ns fs) :
    read limit source = (ns, ⟨limit, source, [], fs.map (Fault.diagnostic source limit), false⟩) := by
  have room : limit.toNat = ([] : List Nat).length + limit.toNat := (Nat.zero_add _).symm
  rw [read, readNodes, reads.readOn source room]
  rfl

theorem parse_reads {limit : Int} {source : Text} {ns : List Node} {fs : List Fault}
    (reads : Reads limit.toNat 0 source ns fs) :
    parse limit source = ⟨ns, fs.map (Fault.diagnostic source limit)⟩ := by
  rw [parse, read_eq reads]

/-- The reader with a state makes the template of plain recursion; it leaves an empty stack and no mark. -/
theorem parse_eq (limit : Int) (source : Text) : parse limit source = Template.parse limit source ∧
    (read limit source).2.tooDeep = false ∧ (read limit source).2.trailing = [] := by
  have reads := reads_readNodes limit.toNat 0 source
  rw [read_eq reads]
  exact ⟨(parse_reads reads).trans (Template.parse_eq reads).symm, rfl, rfl⟩

end Session

end Stencil
