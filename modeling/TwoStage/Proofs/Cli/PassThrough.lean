import TwoStage.Proofs.Cli.Arguments
import TwoStage.Proofs.Cli.Requests
import TwoStage.Proofs.Smoke

/-!
# Arguments of the program inside

The request that starts an image has options of its own, and hands every other word to the program
inside. It cannot tell an argument of that program from its own options where the argument holds the
letter of one behind a single dash and other letters, or gives a value to the question for help:
from the first kind the letter and what follows it are taken away, and with the second kind the
words make no sense. All other arguments arrive as they are.

## Main definitions

- `Cli.IsForeign` — arguments that name no option and do not start with the letter of one
- `Cli.IsMistaken` — arguments among these that are taken for an option all the same
- `Cli.PassesThrough` — an image that is started with its arguments as they are

## Main statements

- `Cli.leaves_of_not_mistaken`, `Cli.gives_of_mistaken` — which arguments the request leaves as they
  are
- `Cli.perform_run_of_leaves`, `Cli.perform_run_cases` — what the request comes to
- `Cli.passesThrough_iff` — the arguments that are passed through
- `Cli.not_passesThrough_of_letter` — a letter among others is enough to lose an argument
-/

namespace TwoStage.Cli

open Act

/-- How the request that starts an image reads its words. -/
def runGrammar : Grammar :=
  { grammar [lettered "publish" 'p', option "env"] with lenient := true }

/-- An argument that is not `--`, names no option in full, with a value or without, and does not
start with the letter of an option. -/
structure IsForeign (arg : String) : Prop where
  notName : arg ∉ ["--", "--help", "--publish", "--env"]
  notPublish : ¬ "--publish=".toList <+: arg.toList
  notEnv : ¬ "--env=".toList <+: arg.toList
  notLetter : ¬ "-p".toList <+: arg.toList

/-- An argument that is taken for an option: one that asks for help and gives a value, or one with
the letter of an option somewhere behind a single dash. -/
def IsMistaken (arg : String) : Prop :=
  "--help=".toList <+: arg.toList ∨
    arg.toList.head? = some '-' ∧ arg.toList.tail.head? ≠ some '-' ∧ 'p' ∈ arg.toList.tail

instance (arg : String) : Decidable (IsMistaken arg) := inferInstanceAs (Decidable (_ ∨ _))

/-- Starting an image is one call. Its words end with the image and the arguments as they are, with
no port and no entry of the environment before them, and the exit code is that of the program
inside. -/
def PassesThrough (host : Host) (w : World) (image : String) (args : List String) : Prop :=
  ∃ call w', perform ("run" :: image :: args) host w =
      (.ok (host.engine.reply w.calls call).code, w') ∧
    w'.calls = w.calls ++ [call] ∧
    ∃ flags, call.command.argv = flags ++ image :: args ∧ "--publish" ∉ flags ∧ "--env" ∉ flags

-- ════════════════════════════════════════════════════════════════════════
-- Single arguments
-- ════════════════════════════════════════════════════════════════════════

theorem byLetter?_runGrammar (c : Char) :
    runGrammar.byLetter? c = if c = 'p' then some (lettered "publish" 'p') else none := by
  by_cases hc : c = 'p'
  · rw [if_pos hc, hc]
    rfl
  · rw [if_neg hc]
    simp [Grammar.byLetter?, runGrammar, grammar, lettered, option, help, flag, Ne.symm hc]

theorem leaves_of_head? {word : String} (h : word.toList.head? ≠ some '-') :
    runGrammar.Leaves word := by
  refine ⟨?_, Or.inl (Grammar.meaning_of_head? h)⟩
  rintro rfl
  exact h rfl

/-- A foreign argument that is not mistaken is left as it is. -/
theorem leaves_of_not_mistaken {arg : String} (hforeign : IsForeign arg) (h : ¬ IsMistaken arg) :
    runGrammar.Leaves arg := by
  have hname := hforeign.notName
  simp only [List.mem_cons, List.not_mem_nil, or_false, not_or] at hname
  obtain ⟨hdashes, hhelp, hpublish, henv⟩ := hname
  rw [IsMistaken, not_or] at h
  obtain ⟨hquestion, hletters⟩ := h
  refine ⟨hdashes, ?_⟩
  by_cases hdash : arg.toList.head? = some '-'
  · obtain ⟨letters, hchars⟩ := List.head?_eq_some_iff.mp hdash
    cases letters with
    | nil =>
      left
      rw [show arg = "-" from String.toList_inj.mp hchars]
      rfl
    | cons c rest =>
      right
      by_cases hc : c = '-'
      · subst hc
        refine Grammar.meaning_long hchars rfl ?_
        simp only [runGrammar, grammar, List.cons_append, List.nil_append, List.forall_mem_cons]
        exact ⟨⟨hpublish, hforeign.notPublish⟩, ⟨henv, hforeign.notEnv⟩, ⟨hhelp, hquestion⟩,
          by simp⟩
      · rw [Grammar.meaning_letters hchars hc, Grammar.readLetters_of_unknown rfl ?_ (by simp),
          ← hchars, String.ofList_toList]
        intro letter hmem
        have hne : letter ≠ 'p' := by
          rintro rfl
          exact hletters ⟨hdash, by simpa [hchars] using hc, by simpa [hchars] using hmem⟩
        rw [byLetter?_runGrammar, if_neg hne]
  · exact (leaves_of_head? hdash).2

/-- In an argument that is mistaken an option is found, or it makes no sense. -/
theorem gives_of_mistaken {arg : String} (h : IsMistaken arg) :
    runGrammar.meaning arg = .nonsense ∨ runGrammar.Gives arg "publish" := by
  rcases h with ⟨value, hvalue⟩ | ⟨hdash, hfirst, hmem⟩
  · left
    have hcut : cutAt '=' arg.toList = ("--help".toList, some value) := by
      rw [← hvalue]
      exact cutAt_append_cons (show '=' ∉ "--help".toList by decide) value
    have hdash : arg.toList = '-' :: '-' :: ("help=".toList ++ value) := hvalue.symm
    rw [Grammar.meaning, hdash]
    refine Eq.trans (Grammar.readDashed.eq_1 ..) ?_
    rw [hcut]
    rfl
  · right
    obtain ⟨letters, hchars⟩ := List.head?_eq_some_iff.mp hdash
    rw [hchars, List.tail_cons] at hfirst hmem
    obtain ⟨before, after, rfl, hbefore⟩ := List.eq_append_cons_of_mem hmem
    have hunknown : ∀ c ∈ before, runGrammar.byLetter? c = none := by
      intro c hc
      have hne : c ≠ 'p' := fun heq => hbefore (heq ▸ hc)
      rw [byLetter?_runGrammar, if_neg hne]
    have hmeaning : runGrammar.meaning arg =
        runGrammar.readLetters [] [] (before ++ 'p' :: after) := by
      cases before with
      | nil => exact Grammar.meaning_letters hchars (by decide)
      | cons c before => exact Grammar.meaning_letters hchars (by simpa using hfirst)
    rw [Grammar.readLetters_of_known rfl hunknown (byLetter?_runGrammar 'p') rfl] at hmeaning
    refine ⟨?_, ?_⟩
    · rintro rfl
      refine hfirst ?_
      rw [← (List.cons.inj hchars).2]
      rfl
    · split at hmeaning
      · exact Or.inl ⟨_, _, hmeaning⟩
      · exact Or.inr ⟨_, _, _, hmeaning, List.mem_singleton_self _⟩

/-- Where an argument is mistaken and the words are read all the same, a port is found in them. -/
theorem values_of_mistaken {image arg : String} {before after : List String}
    (hbefore : ∀ word ∈ image :: before, runGrammar.Leaves word) (hne : arg ≠ "--")
    (harg : IsMistaken arg) {a : Arguments}
    (hread : Arguments.read runGrammar (image :: (before ++ arg :: after)) = some a) :
    a.values "publish" ≠ [] := by
  have hfrom : Arguments.readFrom runGrammar ⟨[], image :: before⟩ (arg :: after) = some a :=
    (Arguments.readFrom_append rfl hbefore ⟨[], []⟩ (arg :: after)).symm.trans hread
  rcases gives_of_mistaken harg with hnonsense | hgives
  · rw [Arguments.readFrom_of_nonsense hne hnonsense] at hfrom
    cases hfrom
  · obtain ⟨value, hvalue⟩ := Arguments.exists_value_of_gives hgives hfrom
    have hmem : value ∈ a.values "publish" := List.mem_filterMap.mpr ⟨_, hvalue, if_pos rfl⟩
    exact List.ne_nil_of_mem hmem

-- ════════════════════════════════════════════════════════════════════════
-- The request
-- ════════════════════════════════════════════════════════════════════════

theorem ofWords_run (words : List String) :
    Reading.ofWords ("run" :: words) = readCommand runGrammar words runOf false := rfl

theorem ofWords_run_of_none {words : List String} (h : Arguments.read runGrammar words = none) :
    Reading.ofWords ("run" :: words) = .nonsense := by
  rw [ofWords_run, readCommand, h]

/-- Words that are read ask for help, name no image, or start one. -/
theorem ofWords_run_of_read {words : List String} {a : Arguments}
    (h : Arguments.read runGrammar words = some a) :
    Reading.ofWords ("run" :: words) = .help ∨ Reading.ofWords ("run" :: words) = .nonsense ∨
      ∃ image args, a.operands = image :: args ∧ Reading.ofWords ("run" :: words) =
        .request false (.run image args (a.values "publish") (a.values "env")) := by
  rw [ofWords_run, readCommand, h]
  dsimp only
  by_cases hhelp : a.has "help" = true
  · exact Or.inl (if_pos hhelp)
  · right
    rw [if_neg hhelp, runOf]
    cases a.operands with
    | nil => exact Or.inl rfl
    | cons image args => exact Or.inr ⟨image, args, rfl, rfl⟩

theorem perform_of_request {words : List String} {verbose : Bool} {request : Request}
    (h : Reading.ofWords words = .request verbose request) (host : Host) (w : World) :
    perform words host w = request.perform host { w with level := Level.threshold verbose } := by
  rw [perform, h]
  rfl

section

variable {host : Host} {program : String}

/-- An image that is started gives back the exit code; an entry of the environment that is no pair
is shown. -/
theorem performRun_of_run {order : SmokeOrder} {w w' : World} {result : Except Error Int}
    (h : order.run host.client host w = (result, w')) :
    performRun order host w =
      match result with
      | .ok code => (.ok code, w')
      | .error e =>
        if e.isDeliberate || saysBadValue e then showError e.message host w'
        else (.error e, w') := by
  have houtcome : outcome (do order.run (← Client.create none)) host w = (.ok result, w') := by
    rw [outcome, bind_of_ok (Client.create_none host w), h]
  rw [performRun, guarded, bind_of_ok houtcome]
  cases result with
  | ok code => rfl
  | error e =>
    dsimp only
    split <;> rfl

/-- Starting an image is one call, or none: where an entry of the environment is no pair, where the
engine is not there, or where it cannot be asked. -/
theorem performRun_cases (order : SmokeOrder) (host : Host) (w : World) :
    ∃ code w', performRun order host w = (.ok code, w') ∧
      (w'.calls = w.calls ∨ ∃ program, host.engine.find? host.client.program = some program ∧
        order.CanBeAsked program ∧
          w'.calls = w.calls ++ [⟨program, .run order.command, w.files⟩]) := by
  by_cases henv : ∀ pair ∈ order.env, isPair pair = true
  · cases hfound : host.engine.find? host.client.program with
    | none =>
      obtain ⟨w', hrun, hspoke⟩ := SmokeOrder.run_of_missing henv hfound w
      exact ⟨1, _, performRun_of_run hrun, Or.inl hspoke.calls⟩
    | some program =>
      by_cases hask : order.CanBeAsked program
      · obtain ⟨w', hrun, hcalled⟩ := SmokeOrder.run_called henv hfound hask w
        exact ⟨_, w', performRun_of_run hrun, Or.inr ⟨program, rfl, hask, hcalled.calls⟩⟩
      · obtain ⟨w', hrun, hspoke⟩ := SmokeOrder.run_of_not_canBeAsked henv hfound hask w
        exact ⟨1, _, performRun_of_run hrun, Or.inl hspoke.calls⟩
  · have hfirst : (order.env.find? fun pair => !isPair pair).isSome = true := by
      simpa [List.find?_isSome] using henv
    obtain ⟨text, htext⟩ := Option.isSome_iff_exists.mp hfirst
    have hrun : order.run host.client host w = (.error (.notPair text), w) := by
      rw [SmokeOrder.run, htext]
      rfl
    exact ⟨1, _, performRun_of_run hrun, Or.inl rfl⟩

/-- The request to start an image is one call, which asks for the ports that are found in the words,
or none. -/
theorem perform_run_cases (words : List String) (host : Host) (w : World) :
    ∃ code w', perform ("run" :: words) host w = (.ok code, w') ∧
      (w'.calls = w.calls ∨ ∃ a program, Arguments.read runGrammar words = some a ∧
        host.engine.find? host.client.program = some program ∧
        ∃ order : SmokeOrder, order.publish = a.values "publish" ∧ order.CanBeAsked program ∧
          w'.calls = w.calls ++ [⟨program, .run order.command, w.files⟩]) := by
  have hnonsense : Reading.ofWords ("run" :: words) = .nonsense →
      perform ("run" :: words) host w = (.ok 2, w) := by
    intro hwords
    rw [perform, hwords]
    rfl
  cases hread : Arguments.read runGrammar words with
  | none => exact ⟨2, w, hnonsense (ofWords_run_of_none hread), Or.inl rfl⟩
  | some a =>
    rcases ofWords_run_of_read hread with hhelp | hwords | ⟨image, args, -, hrequest⟩
    · refine ⟨0, w, ?_, Or.inl rfl⟩
      rw [perform, hhelp]
      rfl
    · exact ⟨2, w, hnonsense hwords, Or.inl rfl⟩
    · rw [perform_of_request hrequest]
      obtain ⟨code, w', hrun, hcalls⟩ :=
        performRun_cases ⟨image, args, a.values "publish", a.values "env"⟩ host
          { w with level := Level.threshold false }
      refine ⟨code, w', hrun, hcalls.imp_right ?_⟩
      rintro ⟨program, hfound, hask, hcall⟩
      exact ⟨a, program, rfl, hfound, _, rfl, hask, hcall⟩

/-- Arguments that are left as they are reach the program inside, in one call. -/
theorem perform_run_of_leaves (hfound : host.engine.find? host.client.program = some program)
    {image : String} {args : List String}
    (hask : ∀ text ∈ program :: image :: args, isWord text = true)
    (hwords : ∀ word ∈ image :: args, runGrammar.Leaves word) (w : World) :
    ∃ w', let order : SmokeOrder := ⟨image, args, [], []⟩
      let call : Call := ⟨program, .run order.command, w.files⟩
      perform ("run" :: image :: args) host w = (.ok (host.engine.reply w.calls call).code, w') ∧
        w.Called w' call := by
  have hrequest : Reading.ofWords ("run" :: image :: args) =
      .request false (.run image args [] []) := by
    rw [ofWords_run, readCommand, Arguments.read_of_leaves rfl hwords]
    rfl
  have henv : ∀ pair ∈ (⟨image, args, [], []⟩ : SmokeOrder).env, isPair pair = true := nofun
  obtain ⟨w', hrun, hcalled⟩ :=
    SmokeOrder.run_called henv hfound hask { w with level := Level.threshold false }
  refine ⟨w', ?_, hcalled.files, hcalled.calls⟩
  rw [perform_of_request hrequest]
  exact performRun_of_run hrun

end

/-- A port that is asked for is in the words of the call. -/
theorem mem_argv_of_publish {order : SmokeOrder} (h : order.publish ≠ []) :
    "--publish" ∈ order.command.argv := by
  obtain ⟨port, ports, hports⟩ := List.exists_cons_of_ne_nil h
  simp [SmokeOrder.argv_command, SmokeOrder.words, hports, flagged]

/-- What passes through has come to one call of an engine that was found and could be asked. -/
theorem PassesThrough.called {host : Host} {w : World} {image : String} {args : List String}
    (h : PassesThrough host w image args) :
    ∃ a program, Arguments.read runGrammar (image :: args) = some a ∧
      host.engine.find? host.client.program = some program ∧
      (∀ text ∈ program :: image :: args, isWord text = true) ∧
      ∃ order : SmokeOrder, order.publish = a.values "publish" ∧
        ∃ flags, order.command.argv = flags ++ image :: args ∧ "--publish" ∉ flags := by
  obtain ⟨call, w', hperform, hcalls, flags, hargv, hflags, -⟩ := h
  obtain ⟨code, w₁, hrun, hends⟩ := perform_run_cases (image :: args) host w
  obtain rfl : w' = w₁ := congrArg Prod.snd (hperform.symm.trans hrun)
  rw [hcalls] at hends
  rcases hends with hnone | ⟨a, program, hread, hfound, order, hpublish, hask, hcall⟩
  · simp at hnone
  · obtain rfl := List.singleton_inj.mp (List.append_cancel_left hcall)
    have hsay := List.all_eq_true.mp (SmokeOrder.isSayable_command_iff.mpr hask)
    have hwords : ∀ text ∈ program :: image :: args, isWord text = true := by
      intro text htext
      refine hsay text ?_
      rcases List.mem_cons.mp htext with rfl | htext
      · exact List.mem_cons_self
      · exact List.mem_cons_of_mem _ (hargv ▸ List.mem_append_right flags htext)
    exact ⟨a, program, hread, hfound, hwords, order, hpublish, flags, hargv, hflags⟩

/-- Foreign arguments are not passed through if one of them is mistaken for an option. -/
theorem not_passesThrough_of_mistaken {host : Host} {image : String} {args : List String}
    (himage : image.toList.head? ≠ some '-') (hargs : ∀ arg ∈ args, IsForeign arg)
    (h : ∃ arg ∈ args, IsMistaken arg) (w : World) : ¬ PassesThrough host w image args := by
  intro hpasses
  -- up to the first argument that is mistaken, all of them are left as they are
  have hfirst : (args.find? fun arg => decide (IsMistaken arg)).isSome = true := by
    simpa [List.find?_isSome] using h
  obtain ⟨arg, harg⟩ := Option.isSome_iff_exists.mp hfirst
  obtain ⟨hmistaken, before, after, rfl, hbefore⟩ := List.find?_eq_some_iff_append.mp harg
  have hleaves : ∀ word ∈ image :: before, runGrammar.Leaves word := by
    refine List.forall_mem_cons.mpr ⟨leaves_of_head? himage, fun other hother => ?_⟩
    exact leaves_of_not_mistaken (hargs other (List.mem_append_left _ hother))
      (by simpa using hbefore other hother)
  have hne : arg ≠ "--" := by
    rintro rfl
    exact (hargs "--" (by simp)).notName (by simp)
  obtain ⟨a, program, hread, -, -, order, hpublish, flags, hargv, hflags⟩ := hpasses.called
  have hasked : order.publish ≠ [] :=
    hpublish ▸ values_of_mistaken hleaves hne (by simpa using hmistaken) hread
  have hport : "--publish" ∈ flags ++ image :: (before ++ arg :: after) :=
    hargv ▸ mem_argv_of_publish hasked
  rcases List.mem_append.mp hport with hport | hport
  · exact hflags hport
  · rcases List.mem_cons.mp hport with rfl | hport
    · exact himage rfl
    · exact (hargs "--publish" hport).notName (by simp)

/-- Foreign arguments are passed through exactly if the engine is there, no word of the call holds a
null character, and none of the arguments is mistaken for an option. -/
theorem passesThrough_iff {host : Host} {image : String} {args : List String}
    (himage : image.toList.head? ≠ some '-') (hargs : ∀ arg ∈ args, IsForeign arg) (w : World) :
    PassesThrough host w image args ↔
      (∃ program, host.engine.find? host.client.program = some program ∧
        ∀ text ∈ program :: image :: args, isWord text = true) ∧
          ∀ arg ∈ args, ¬ IsMistaken arg := by
  constructor
  · intro hpasses
    obtain ⟨a, program, -, hfound, hask, -⟩ := hpasses.called
    exact ⟨⟨program, hfound, hask⟩, fun arg harg hmistaken =>
      not_passesThrough_of_mistaken himage hargs ⟨arg, harg, hmistaken⟩ w hpasses⟩
  · rintro ⟨⟨program, hfound, hask⟩, hmistaken⟩
    obtain ⟨w', hperform, hcalled⟩ := perform_run_of_leaves hfound hask
      (List.forall_mem_cons.mpr ⟨leaves_of_head? himage, fun arg harg =>
        leaves_of_not_mistaken (hargs arg harg) (hmistaken arg harg)⟩) w
    exact ⟨_, w', hperform, hcalled.calls, ["run", "--rm", "-i"], SmokeOrder.argv_command _,
      by simp, by simp⟩

/-- A host whose engine exits with three. -/
def threeHost : Host := .replying fun _ => .quiet 3 none

/-- Long options that the request does not know, and letters without its own, are passed through. -/
theorem passesThrough_of_long :
    (∀ arg ∈ ["--http-port", "8001", "--publish-all", "-v", "-"], IsForeign arg) ∧
      PassesThrough threeHost .stocked "img"
        ["--http-port", "8001", "--publish-all", "-v", "-"] := by
  have hargs : ∀ arg ∈ ["--http-port", "8001", "--publish-all", "-v", "-"], IsForeign arg := by
    simp only [List.forall_mem_cons]
    refine ⟨?_, ?_, ?_, ?_, ?_, by simp⟩ <;> constructor <;> decide
  exact ⟨hargs, (passesThrough_iff (by decide) hargs .stocked).mpr
    ⟨⟨_, rfl, by decide⟩, by decide⟩⟩

/-- A letter among others is enough to lose an argument: the engine is asked for a port. -/
theorem not_passesThrough_of_letter :
    (∀ arg ∈ ["-http", "8080"], IsForeign arg) ∧
      (perform ["run", "img", "-http", "8080"] threeHost .stocked).2.calls.map (·.command.argv) =
        [["run", "--rm", "-i", "--publish", "8080", "img", "-htt"]] ∧
      ¬ PassesThrough threeHost .stocked "img" ["-http", "8080"] := by
  have hargs : ∀ arg ∈ ["-http", "8080"], IsForeign arg := by
    simp only [List.forall_mem_cons]
    refine ⟨?_, ?_, by simp⟩ <;> constructor <;> decide
  exact ⟨hargs, by decide +kernel,
    not_passesThrough_of_mistaken (by decide) hargs ⟨"-http", by simp, by decide⟩ .stocked⟩

end TwoStage.Cli
