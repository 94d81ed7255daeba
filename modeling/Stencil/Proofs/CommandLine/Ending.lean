import Stencil.Proofs.CommandLine.Input
import Stencil.Proofs.Evaluate.Outcome
import Stencil.Proofs.Template.Rendering
import Stencil.Yaml.Loader

/-!
# How commands end

A command that does not get what it needs has written nothing: `run_unread`. What it comes to otherwise is said by
`run_check`, `run_refused` and `run_render`. So `Stopped` lists all failures of a command, and `run_ending` says how
it ends with each of them.
-/

namespace Stencil.CommandLine

variable {w : World} {template : Source} {data : Option Source} {overrides : List Text} {strict : Bool}
variable {source : Text} {es : List (Value × Value)} {f : Failure}

/-! ### Steps -/

/-- What the log holds of a template while it is read. -/
def debugLines (w : World) (t : Template) : List Text :=
  if w.debug then t.diagnostics.map fun d => "[DEBUG] ".toList ++ d.text ++ ", keeping the rest as text".toList
  else []

def warningLines (t : Template) : List Text := t.diagnostics.map fun d => "[WARNING] ".toList ++ d.text

namespace Run

variable {α β ε : Type}

theorem ofExcept_ok_bind (failure : ε → Failure) (a : α) (g : α → Run β) :
    (ofExcept failure (.ok a) >>= g) = g a := rfl

theorem run_log_bind (level : String) (ms : List Text) (g : Unit → Run β) :
    (log level ms >>= g).run =
      ⟨(ms.map fun m => '[' :: level.toList ++ "] ".toList ++ m) ++ (g ()).run.events, (g ()).run.result⟩ := by
  have logged : (log level ms).run = ⟨ms.map fun m => '[' :: level.toList ++ "] ".toList ++ m, .ok ()⟩ :=
    Traced.ext_iff.mpr ⟨List.append_nil _, rfl⟩
  show ((log level ms).run >>= ExceptT.bindCont g) = _
  rw [logged]
  rfl

theorem run_bind_pure (x : Run α) (g : α → β) :
    (x >>= fun a => pure (g a)).run = ⟨x.run.events, x.run.result.map g⟩ := by
  show (x.run >>= ExceptT.bindCont fun a => pure (g a)) = _
  rw [Traced.ext_iff, Traced.events_bind, Traced.result_bind]
  cases x.run.result with
  | ok a => exact ⟨List.append_nil _, rfl⟩
  | error f => exact ⟨List.append_nil _, rfl⟩

theorem run_ofEval (x : Eval α) : (ofEval x).run =
    ⟨(x.run.events.filterMap warning?).map fun m => "[WARNING] ".toList ++ m, x.run.result.mapError .evaluation⟩ := by
  rw [ofEval, run_log_bind, Traced.ext_iff]
  exact ⟨List.append_nil _, rfl⟩

end Run

theorem run_parse_bind {β : Type} (g : Template → Run β) : (w.parse source >>= g).run =
    ⟨debugLines w (Template.parse defaultLimit source) ++ (g (Template.parse defaultLimit source)).run.events,
      (g (Template.parse defaultLimit source)).run.result⟩ := by
  unfold World.parse debugLines
  rw [bind_assoc, Run.run_log_bind, pure_bind]
  cases w.debug
  · rfl
  · rw [if_pos rfl, if_pos rfl, List.map_map]
    rfl

theorem run_unread {c : Command} (unread : c.input w = .error f) : (c.run w).run = ⟨[], .error f⟩ := by
  cases c with
  | check template =>
    rw [Command.input, bind_eq_error_iff] at unread
    rcases unread with unread | ⟨_, _, failed⟩
    · rw [Command.run, unread]
      rfl
    · cases failed
  | render template data overrides strict =>
    rw [Command.input] at unread
    rw [Command.run]
    split at unread
    · next shared =>
      cases unread
      rw [if_pos shared]
      rfl
    · next apart =>
      rw [if_neg apart]
      rcases bind_eq_error_iff.mp unread with unread | ⟨source, read, unread⟩
      · rw [unread]
        rfl
      rcases bind_eq_error_iff.mp unread with unread | ⟨given, found, unread⟩
      · rw [read, unread]
        rfl
      simp only [bind_eq_error_iff, mapError_eq_error_iff] at unread
      rcases unread with ⟨fault, failed, rfl⟩ | ⟨_, _, failed⟩
      · rw [read, found, Run.ofExcept_ok_bind, Run.ofExcept_ok_bind, failed]
        rfl
      · cases failed

theorem run_check (read : w.readTemplate template = .ok source) : ((Command.check template).run w).run =
    let t := Template.parse defaultLimit source
    ⟨debugLines w t, .ok (if t.ok then 0 else 1, t.report)⟩ := by
  rw [Command.run, read, Run.ofExcept_ok_bind, run_parse_bind, Traced.ext_iff]
  exact ⟨List.append_nil _, rfl⟩

/-- What is left to do when all is there. -/
theorem run_ready (ready : (Command.render template data overrides strict).input w = .ok (source, es)) :
    (Command.render template data overrides strict).run w = (do
      let t ← w.parse source
      if strict then Run.ofExcept .template ((Template.parseStrict source).map fun _ => ())
      Run.log "WARNING" (t.diagnostics.map Diagnostic.text)
      let text ← Run.ofEval (Stencil.render w.host (.entries es) t.nodes)
      return (0, text)) := by
  obtain ⟨apart, read, given, found, applied⟩ := input_render_eq_ok_iff.mp ready
  rw [Command.run, if_neg apart, read, found, Run.ofExcept_ok_bind, Run.ofExcept_ok_bind, applied,
    Run.ofExcept_ok_bind]

theorem run_refused {e : SyntaxError}
    (ready : (Command.render template data overrides true).input w = .ok (source, es))
    (refused : Template.parseStrict source = .error e) :
    ((Command.render template data overrides true).run w).run =
      ⟨debugLines w (Template.parse defaultLimit source), .error (.template e)⟩ := by
  rw [run_ready ready, run_parse_bind, if_pos rfl, refused, Traced.ext_iff]
  exact ⟨List.append_nil _, rfl⟩

/-- What is written after the warnings, with those of its helpers. -/
theorem run_write (t : Template) (x : Eval Text) : (do
      Run.log "WARNING" (t.diagnostics.map Diagnostic.text)
      let text ← Run.ofEval x
      return (0, text) : Run (Nat × Text)).run =
    ⟨warningLines t ++ (x.run.events.filterMap Run.warning?).map fun m => "[WARNING] ".toList ++ m,
      (x.run.result.mapError Failure.evaluation).map fun text => (0, text)⟩ := by
  rw [Run.run_log_bind, Run.run_bind_pure, Run.run_ofEval, List.map_map]
  rfl

/-- A template that is not refused is written. -/
theorem run_render (ready : (Command.render template data overrides strict).input w = .ok (source, es))
    (accepted : strict = true → (Template.parse defaultLimit source).diagnostics = []) :
    ((Command.render template data overrides strict).run w).run =
      let t := Template.parse defaultLimit source
      let written := (Stencil.render w.host (.entries es) t.nodes).run
      ⟨debugLines w t ++ (warningLines t ++
          (written.events.filterMap Run.warning?).map fun m => "[WARNING] ".toList ++ m),
        (written.result.mapError Failure.evaluation).map fun text => (0, text)⟩ := by
  rw [run_ready ready, run_parse_bind]
  cases strict with
  | false =>
    rw [if_neg Bool.false_ne_true]
    exact congrArg (fun r => Traced.mk (_ ++ r.events) r.result) (run_write _ _)
  | true =>
    rw [if_pos rfl, Template.parseStrict_ok (accepted rfl)]
    exact congrArg (fun r => Traced.mk (_ ++ r.events) r.result) (run_write _ _)

theorem result_written {text : Text}
    (ready : (Command.render template data overrides strict).input w = .ok (source, es))
    (accepted : strict = true → (Template.parse defaultLimit source).diagnostics = [])
    (returned : (Stencil.render w.host (.entries es) (Template.parse defaultLimit source).nodes).Returns text) :
    ((Command.render template data overrides strict).run w).run.result = .ok (0, text) := by
  rw [run_render ready accepted]
  exact congrArg (fun r => (Except.mapError Failure.evaluation r).map fun text => (0, text)) returned

/-! ### Failures -/

/-- All that can stop a command. -/
inductive Stopped (w : World) : Command → Failure → Prop
  | unread {c : Command} {f : Failure} (unread : Unread w c f) : Stopped w c f
  | refused {t : Source} {d : Option Source} {os : List Text} {source : Text} {es : List (Value × Value)}
      {e : SyntaxError} (ready : (Command.render t d os true).input w = .ok (source, es))
      (refused : Template.parseStrict source = .error e) : Stopped w (.render t d os true) (.template e)
  | evaluation {t : Source} {d : Option Source} {os : List Text} {strict : Bool} {source : Text}
      {es : List (Value × Value)} {e : EvalFault} (ready : (Command.render t d os strict).input w = .ok (source, es))
      (accepted : strict = true → (Template.parse defaultLimit source).diagnostics = [])
      (fails : (Stencil.render w.host (.entries es) (Template.parse defaultLimit source).nodes).Fails e) :
      Stopped w (.render t d os strict) (.evaluation e)

theorem Stopped.result {c : Command} (stopped : Stopped w c f) : (c.run w).run.result = .error f := by
  cases stopped with
  | unread unread => rw [run_unread (input_eq_error_iff.mpr unread)]
  | refused ready refused => rw [run_refused ready refused]
  | evaluation ready accepted fails =>
    rw [run_render ready accepted]
    exact congrArg (fun r => (Except.mapError Failure.evaluation r).map fun text => (0, text)) fails

/-- A command that nothing stops ends with code 0 or 1. -/
theorem stopped_or_done (c : Command) :
    (∃ f, Stopped w c f) ∨ ∃ n text, n ≤ 1 ∧ (c.run w).run.result = .ok (n, text) := by
  cases input : c.input w with
  | error f => exact .inl ⟨f, .unread (input_eq_error_iff.mp input)⟩
  | ok found =>
    obtain ⟨source, es⟩ := found
    cases c with
    | check template =>
      obtain ⟨text, read, same⟩ := bind_eq_ok_iff.mp input
      cases same
      refine .inr ⟨_, _, ?_, congrArg Traced.result (run_check read)⟩
      split <;> omega
    | render template data overrides strict =>
      by_cases accepted : strict = true → (Template.parse defaultLimit source).diagnostics = []
      · rcases Eval.returns_or_fails (Stencil.render w.host (.entries es) (Template.parse defaultLimit source).nodes)
          with ⟨text, returned⟩ | ⟨e, fails⟩
        · exact .inr ⟨0, text, by omega, result_written input accepted returned⟩
        · exact .inl ⟨_, .evaluation input accepted fails⟩
      · obtain ⟨rfl, some⟩ := Classical.not_imp.mp accepted
        obtain ⟨problem, others, found⟩ := List.exists_cons_of_ne_nil some
        exact .inl ⟨_, .refused input (Template.parseStrict_error found)⟩

@[simp] theorem explained_evaluation (e : EvalFault) : (Failure.evaluation e).explained = false := by
  cases e <;> rfl

/-- A failure that a command does not explain: bytes that are no text, a path of which nothing can be told, what goes
wrong in a document without making it no document, or a number that has no text. -/
inductive Breaking : Failure → Prop
  | undecodable : Breaking .undecodable
  | hidden (reason : Text) : Breaking (.hidden reason)
  | data (c : InternalClass) (message : Text) : Breaking (.data (.unexpected c message))
  | numeral (fault : NumeralFault) : Breaking (.evaluation (.numeral fault))

theorem Unreadable.breaking {purpose : Purpose} {s : Source} (unreadable : Unreadable w purpose s f)
    (silent : f.explained = false) : Breaking f := by
  cases unreadable with
  | missing | locked => cases purpose <;> cases silent
  | hidden => exact .hidden _
  | file | stdin => exact .undecodable

theorem Unread.breaking {c : Command} (unread : Unread w c f) (silent : f.explained = false) : Breaking f := by
  cases unread with
  | shared => cases silent
  | template _ unreadable | data _ _ unreadable | check unreadable => exact unreadable.breaking silent
  | document _ _ _ unfit =>
    cases unfit with
    | malformed | other => cases silent
    | unexpected => exact .data _ _
  | override _ _ _ _ wrong =>
    cases wrong with
    | key =>
      unfold Override.refusal at silent
      split at silent
      · cases silent
      · cases silent
    | value => exact .data _ _

theorem Stopped.breaking_iff {c : Command} (stopped : Stopped w c f) : Breaking f ↔ f.explained = false := by
  constructor
  · rintro ⟨⟩
    all_goals rfl
  intro silent
  cases stopped with
  | unread unread => exact unread.breaking silent
  | refused => cases silent
  | @evaluation _ _ _ _ source _ _ ready accepted fails =>
    have formed := (reads_readNodes defaultLimit.toNat 0 source).formed
    cases render_fails formed fails with
    | literal | writing => exact .numeral _

/-! ### Messages -/

theorem trimEnd_ne_nil {s : Text} {c : Char} (member : c ∈ s) (filled : Text.isBlank c = false) :
    Text.trimEnd s ≠ [] := by
  intro empty
  rw [Text.trimEnd, List.reverse_eq_nil_iff, Text.dropWhile_eq_nil_iff] at empty
  rw [empty c (List.mem_reverse.mpr member)] at filled
  cases filled

theorem message_ne_nil (told : f.explained = true) : Text.trimEnd f.message ≠ [] := by
  have letter : Text.isBlank 'a' = false := by decide
  refine trimEnd_ne_nil (c := 'a') ?_ letter
  cases f with
  | undecodable | hidden => cases told
  | evaluation e => cases (explained_evaluation e).symm.trans told
  | sharedStdin => exact (by decide : 'a' ∈ "Template and data cannot both be read from stdin".toList)
  | noTemplate => exact List.mem_append_left _ (by decide)
  | unreadableTemplate => exact List.mem_append_left _ (List.mem_append_left _ (List.mem_append_left _ (by decide)))
  | template => exact List.mem_append_left _ (List.mem_append_left _ (List.mem_append_right _ (by decide)))
  | data fault =>
    cases fault with
    | unexpected => cases told
    | noFile => exact List.mem_append_left _ (by decide)
    | notMapping => exact List.mem_append_left _ (List.mem_append_right _ (by decide))
    | noEquals | emptyKey => exact List.mem_append_left _ (List.mem_append_left _ (by decide))
    | malformed | unreadable =>
      exact List.mem_append_left _ (List.mem_append_left _ (List.mem_append_left _ (by decide)))

/-! ### Endings -/

theorem run_eq_outcome {args : List Text} {c : Command} (accepted : Command.ofArguments args = .ok c) :
    run w args = c.outcome w := by
  rw [run, accepted]

theorem Stopped.outcome {c : Command} (stopped : Stopped w c f) : c.outcome w =
    if f.explained then ⟨.code 2, [], Command.lines ((c.run w).run.events ++ [Text.trimEnd f.message])⟩
    else ⟨.broken f, [], Command.lines (c.run w).run.events⟩ := by
  unfold Command.outcome Command.outcomeOf
  rw [stopped.result]

/-- A command that nothing stops ends with code 0 or 1. One that is stopped writes no text: some failures break it
off, and all others end it with code 2 and a message. -/
theorem run_ending {args : List Text} {c : Command} (accepted : Command.ofArguments args = .ok c) :
    ((∀ f, ¬ Stopped w c f) → ∃ n ≤ 1, (run w args).ending = .code n) ∧
    ∀ f, Stopped w c f → (run w args).stdout = [] ∧
      (Breaking f → (run w args).ending = .broken f) ∧
      (¬ Breaking f → (run w args).ending = .code 2 ∧ Text.trimEnd f.message ≠ [] ∧
        ∃ earlier, (run w args).stderr = Command.lines (earlier ++ [Text.trimEnd f.message])) := by
  rw [run_eq_outcome accepted]
  constructor
  · intro free
    rcases stopped_or_done c with ⟨f, stopped⟩ | ⟨n, text, few, done⟩
    · exact absurd stopped (free f)
    · refine ⟨n, few, ?_⟩
      unfold Command.outcome Command.outcomeOf
      rw [done]
  · intro f stopped
    rw [stopped.breaking_iff, stopped.outcome]
    cases told : f.explained with
    | true => exact ⟨rfl, nofun, fun _ => ⟨rfl, message_ne_nil told, _, rfl⟩⟩
    | false => exact ⟨rfl, fun _ => rfl, fun loud => absurd rfl loud⟩

/-- A template that is not there. -/
theorem run_ending_missing :
    let w : World := ⟨fun _ => .missing, ⟨#[]⟩, Yaml.loader, Host.empty, none, false⟩
    let args : List Text := [['c', 'h', 'e', 'c', 'k'], ['t']]
    Command.ofArguments args = .ok (.check (.ofText ['t'])) ∧
      Stopped w (.check (.ofText ['t'])) (.noTemplate (.ofText ['t'])) ∧ (run w args).ending = .code 2 := by
  intro w args
  have accepted : Command.ofArguments args = .ok (.check (.ofText ['t'])) :=
    Command.ofArguments_check (by decide)
  have stopped : Stopped w (.check (.ofText ['t'])) (.noTemplate (.ofText ['t'])) :=
    .unread (.check (.missing rfl))
  obtain ⟨-, ends⟩ := run_ending (w := w) accepted
  exact ⟨accepted, stopped, ((ends _ stopped).2.2 nofun).1⟩

/-- A template whose one byte is no text breaks the command off. -/
theorem run_check_undecodable :
    let w : World := ⟨fun _ => .bytes ⟨#[0xff]⟩, ⟨#[]⟩, Yaml.loader, Host.empty, none, false⟩
    let args : List Text := [['c', 'h', 'e', 'c', 'k'], ['t']]
    Command.ofArguments args = .ok (.check (.ofText ['t'])) ∧
      run w args = ⟨.broken .undecodable, [], []⟩ := by
  intro w args
  have accepted : Command.ofArguments args = .ok (.check (.ofText ['t'])) :=
    Command.ofArguments_check (by decide)
  have undecodable : Text.ofBytes? ⟨#[0xff]⟩ = none := by decide +kernel
  have unread : Unread w (.check (.ofText ['t'])) .undecodable := .check (.file rfl undecodable)
  refine ⟨accepted, ?_⟩
  rw [run_eq_outcome accepted, (Stopped.unread unread).outcome, run_unread (input_eq_error_iff.mpr unread)]
  rfl

end Stencil.CommandLine
