import TwoStage.Proofs.Pipeline.CallOrder
import TwoStage.Proofs.Pipeline.Reference

/-!
# What a failed run leaves behind

The engine holds the tag of every build that exits with zero until a removal of it does, whatever
the build has left for the identifier of the image. A run that fails is to leave no tag behind, but
for that of the build stage if it is to be kept, and no file. It takes a build for made only if the
identifier is there, so that a tag stays behind where it is not; and nothing takes back the tag of
the finished image once the engine holds it.

## Main definitions

- `Talk.bound` — the tags that an engine holds after a conversation
- `Pipeline.LeavesNothing` — a run leaves nothing behind
- `Pipeline.Tidy` — every build that binds a tag can be cleaned up behind

## Main statements

- `Pipeline.leavesNothing_iff` — a failed run leaves nothing behind exactly if it is tidy
- `Pipeline.leavesBuilder_of_unnamed` — a build that is not named
-/

namespace TwoStage

namespace Talk

/-- The tags that an engine holds after one more command: a build that exits with zero binds its
tag, and a removal that does unbinds it. -/
def bind (tags : List String) : Command × Reply → List String
  | (.build command, reply) => if reply.code = 0 then command.tag :: tags else tags
  | (.remove image, reply) => if reply.code = 0 then tags.filter (· ≠ image) else tags
  | _ => tags

/-- The tags that an engine holds after a conversation. -/
def bound (talk : Talk) : List String := talk.foldl bind []

@[simp]
theorem bind_build (tags : List String) (command : BuildCommand) (reply : Reply) :
    bind tags (.build command, reply) = if reply.code = 0 then command.tag :: tags else tags := rfl

@[simp]
theorem bind_run (tags : List String) (command : RunCommand) (reply : Reply) :
    bind tags (.run command, reply) = tags := rfl

@[simp]
theorem bind_remove (tags : List String) (image : String) (reply : Reply) :
    bind tags (.remove image, reply) =
      if reply.code = 0 then tags.filter (· ≠ image) else tags := rfl

/-- Every removal exits with zero. -/
def RemovalsWork (talk : Talk) : Prop := ∀ image reply, (.remove image, reply) ∈ talk → reply.code = 0

end Talk

namespace Pipeline

/-- A run leaves nothing behind: the engine does not hold the tag of the image, nor that of the
build stage unless it is to be kept; and every location holds the same file as before, or none. -/
structure LeavesNothing (p : Pipeline) (host : Host) (w w' : World) (talk : Talk) : Prop where
  image : p.spec.image ∉ talk.bound
  builder : p.keepBuilder = false → ∀ context w₁,
    p.spec.stage p.sourceRoot host w = (.ok context, w₁) → p.builderTag context ∉ talk.bound
  files : w.files.SameFiles w'.files

/-- No build of the finished image exits with zero, and one of the build stage that does names its
image, unless this is to be kept. -/
def Tidy (p : Pipeline) (talk : Talk) : Prop :=
  ∀ command reply, (.build command, reply) ∈ talk → reply.code = 0 →
    command.tag ≠ p.spec.image ∧ (p.keepBuilder = true ∨ reply.NamesImage)

end Pipeline

-- ════════════════════════════════════════════════════════════════════════
-- Orderly conversations
-- ════════════════════════════════════════════════════════════════════════

namespace Orderly

variable {p : Pipeline} {context : StagedContext} {host : Host} {t : FileTree} {talk : Talk}

/-- Behind the parting the engine holds what it held before, but for the image of the build stage if
this is not to be kept. -/
theorem mem_bound_parting (talk : Talk) {parting : Talk} (hparting : Parting p context parting)
    (hworks : (talk ++ parting).RemovalsWork) (tag : String) :
    tag ∈ (talk ++ parting).bound ↔
      tag ∈ talk.bound ∧ (p.keepBuilder = true ∨ tag ≠ p.builderTag context) := by
  rw [Talk.bound, List.foldl_append]
  rw [Parting] at hparting
  cases hkeep : p.keepBuilder with
  | true =>
    rw [if_pos hkeep] at hparting
    subst hparting
    simp [Talk.bound]
  | false =>
    rw [if_neg (by rw [hkeep]; exact Bool.false_ne_true)] at hparting
    obtain ⟨reply, rfl⟩ := hparting
    have hcode : reply.code = 0 := hworks _ reply (List.mem_append_right talk List.mem_cons_self)
    simp [Talk.bound, hcode]

theorem tidy_nil : p.Tidy [] := by
  intro command reply hmem
  cases hmem

theorem tidy_cons_build {command : BuildCommand} {reply : Reply} :
    p.Tidy ((.build command, reply) :: talk) ↔
      (reply.code = 0 → command.tag ≠ p.spec.image ∧ (p.keepBuilder = true ∨ reply.NamesImage)) ∧
        p.Tidy talk := by
  constructor
  · intro h
    refine ⟨h command reply List.mem_cons_self, fun other reply' hmem => ?_⟩
    exact h other reply' (List.mem_cons_of_mem _ hmem)
  · rintro ⟨hfirst, hrest⟩ other reply' hmem
    rcases List.mem_cons.mp hmem with heq | hmem
    · cases heq
      exact hfirst
    · exact hrest other reply' hmem

theorem tidy_cons_run {command : RunCommand} {reply : Reply} :
    p.Tidy ((.run command, reply) :: talk) ↔ p.Tidy talk := by
  simp [Pipeline.Tidy]

theorem tidy_parting (h : Parting p context talk) : p.Tidy talk := by
  rw [Parting] at h
  split at h
  · subst h
    simp [Pipeline.Tidy]
  · obtain ⟨reply, rfl⟩ := h
    simp [Pipeline.Tidy]

theorem tag_builderOrder (p : Pipeline) (context : StagedContext) (idFile : Path) :
    ((p.builderOrder context).command context.root idFile).tag = p.builderTag context := by
  rw [Client.BuildOrder.command, Pipeline.builderOrder]

theorem tag_finalOrder (p : Pipeline) (context : StagedContext) (idFile : Path) :
    (p.finalOrder.command context.root idFile).tag = p.spec.image := by
  rw [Client.BuildOrder.command, Pipeline.finalOrder]

/-- Nothing is left of a build stage that named its image and was followed by no other build. -/
theorem bound_of_probed {idFile : Path} {reply probed : Reply} {parting : Talk}
    (hreply : reply.NamesImage) (hparting : Parting p context parting)
    (htalk : talk = [(.build ((p.builderOrder context).command context.root idFile), reply),
      (.run (p.probe context), probed)])
    (hworks : (talk ++ parting).RemovalsWork) :
    p.spec.image ∉ (talk ++ parting).bound ∧
      (p.keepBuilder = false → p.builderTag context ∉ (talk ++ parting).bound) := by
  have hbound : talk.bound = [p.builderTag context] := by
    rw [htalk, Talk.bound, List.foldl_cons, List.foldl_cons, List.foldl_nil, Talk.bind_build,
      Talk.bind_run, if_pos hreply.1, tag_builderOrder]
  constructor
  · rw [mem_bound_parting talk hparting hworks, hbound, List.mem_singleton]
    exact fun h => p.spec.builderTag_ne_image context.sourceDigest h.1.symm
  · intro hkeep
    rw [mem_bound_parting talk hparting hworks, hkeep]
    simp

/-- After an orderly conversation the engine holds neither tag, but for one to be kept, exactly if
the conversation is tidy. -/
theorem bound_iff_tidy (h : Orderly p context host t talk) (hworks : talk.RemovalsWork) :
    (p.spec.image ∉ talk.bound ∧ (p.keepBuilder = false → p.builderTag context ∉ talk.bound)) ↔
      p.Tidy talk := by
  have hne : p.builderTag context ≠ p.spec.image :=
    p.spec.builderTag_ne_image context.sourceDigest
  cases h with
  | @refused idFile reply hreply =>
    have hbound : Talk.bound
        [(.build ((p.builderOrder context).command context.root idFile), reply)] =
          if reply.code = 0 then [p.builderTag context] else [] := by
      rw [Talk.bound, List.foldl_cons, List.foldl_nil, Talk.bind_build, tag_builderOrder]
    rw [tidy_cons_build, tag_builderOrder, hbound]
    by_cases hcode : reply.code = 0
    · cases hkeep : p.keepBuilder with
      | true => simp [hcode, hne, hne.symm, tidy_nil]
      | false => simp [hcode, hreply]
    · simp [hcode, tidy_nil]
  | @unconfirmed idFile reply probed parting hreply hcode hparting =>
    refine iff_of_true (bound_of_probed hreply hparting rfl hworks) ?_
    rw [tidy_cons_build, tag_builderOrder, tidy_cons_run]
    exact ⟨fun _ => ⟨hne, Or.inr hreply⟩, tidy_parting hparting⟩
  | @unwritten idFile reply probed parting hreply hcode hfinal hparting =>
    refine iff_of_true (bound_of_probed hreply hparting rfl hworks) ?_
    rw [tidy_cons_build, tag_builderOrder, tidy_cons_run]
    exact ⟨fun _ => ⟨hne, Or.inr hreply⟩, tidy_parting hparting⟩
  | @concluded idFile reply probed idFile' made parting hreply hcode htakes hnames hparting =>
    have hbound : Talk.bound
        [(.build ((p.builderOrder context).command context.root idFile), reply),
          (.run (p.probe context), probed),
          (.build (p.finalOrder.command context.root idFile'), made)] =
          if made.code = 0 then [p.spec.image, p.builderTag context]
          else [p.builderTag context] := by
      rw [Talk.bound, List.foldl_cons, List.foldl_cons, List.foldl_cons, List.foldl_nil,
        Talk.bind_build, Talk.bind_run, Talk.bind_build, if_pos hreply.1, tag_builderOrder,
        tag_finalOrder]
    have hmem := mem_bound_parting
      [(.build ((p.builderOrder context).command context.root idFile), reply),
        (.run (p.probe context), probed),
        (.build (p.finalOrder.command context.root idFile'), made)] hparting hworks
    simp only [List.cons_append, List.nil_append, hbound] at hmem
    rw [tidy_cons_build, tag_builderOrder, tidy_cons_run, tidy_cons_build, tag_finalOrder, hmem,
      hmem]
    by_cases hmade : made.code = 0
    · simp [hmade, hne.symm]
    · cases hkeep : p.keepBuilder with
      | true => simp [hmade, hne.symm, hne, tidy_parting hparting]
      | false => simp [hmade, hne.symm, hne, hreply, tidy_parting hparting]

end Orderly

-- ════════════════════════════════════════════════════════════════════════
-- Small hosts
-- ════════════════════════════════════════════════════════════════════════

/-- The replies of an engine that exits from builds with the given code and without an identifier,
and from all else with zero. -/
def Reply.toBuilds (code : Int) : Command → Reply
  | .build _ => .quiet code none
  | _ => .quiet 0 none

/-- What is said to a host that replies in the same way at any time. -/
theorem Host.Talked.eq_of_replying {reply : Command → Reply} {w w' : World} {talk : Talk}
    (h : (Host.replying reply).Talked w w' talk) {command : Command} {replied : Reply}
    (hmem : (command, replied) ∈ talk) : replied = reply command := by
  obtain ⟨made, -, rfl⟩ := h
  generalize w.calls = before at hmem
  induction made generalizing before with
  | nil => cases hmem
  | cons call rest ih =>
    rcases List.mem_cons.mp hmem with heq | hmem
    · cases heq
      rfl
    · exact ih _ hmem

theorem Host.Talked.removalsWork_toBuilds {code : Int} {w w' : World} {talk : Talk}
    (h : (Host.replying (Reply.toBuilds code)).Talked w w' talk) : talk.RemovalsWork := by
  intro image reply hmem
  rw [h.eq_of_replying hmem]
  rfl

/-- An engine that makes the image of the build stage without an identifier holds its tag in the
end. -/
theorem Host.Talked.builderTag_mem_bound {p : Pipeline} {context : StagedContext} {w w' : World}
    {talk : Talk} (h : (Host.replying (Reply.toBuilds 0)).Talked w w' talk) {host : Host}
    {t : FileTree} (horderly : Orderly p context host t talk) : p.builderTag context ∈ talk.bound := by
  have hunnamed : ∀ command reply, (.build command, reply) ∈ talk → reply = .quiet 0 none :=
    fun command reply hmem => h.eq_of_replying hmem
  have hno : ¬ (Reply.quiet 0 none).NamesImage := by simp [Reply.NamesImage, Reply.quiet]
  cases horderly with
  | refused hreply =>
    rw [hunnamed _ _ List.mem_cons_self, Talk.bound, List.foldl_cons, List.foldl_nil,
      Talk.bind_build, Orderly.tag_builderOrder, if_pos (show (Reply.quiet 0 none).code = 0 from rfl)]
    exact List.mem_singleton_self _
  | unconfirmed hreply =>
    rw [hunnamed _ _ List.mem_cons_self] at hreply
    exact absurd hreply hno
  | unwritten hreply =>
    rw [hunnamed _ _ List.mem_cons_self] at hreply
    exact absurd hreply hno
  | concluded hreply =>
    rw [hunnamed _ _ List.mem_cons_self] at hreply
    exact absurd hreply hno

-- ════════════════════════════════════════════════════════════════════════
-- Failed runs
-- ════════════════════════════════════════════════════════════════════════

namespace Pipeline

/-- Nothing is left where nothing was said. -/
theorem leavesNothing_nil {p : Pipeline} {host : Host} {w w' : World}
    (hfiles : w.files.SameFiles w'.files) : p.LeavesNothing host w w' [] where
  image := List.not_mem_nil
  builder := fun _ _ _ _ => List.not_mem_nil
  files := hfiles

/-- If every removal works, a run that fails leaves nothing behind exactly if it is tidy. -/
theorem leavesNothing_iff {p : Pipeline} (hspec : p.spec.Accepted) {host : Host} {w w' : World}
    (hw : w.Grounded host) {start progress : Progress}
    (hstart : start.state = .start → start.builderTagged = false) {e : Error}
    (hrun : p.run start host w = (.ok (.error e, progress), w')) {talk : Talk}
    (htalk : host.Talked w w' talk) (hworks : talk.RemovalsWork) :
    p.LeavesNothing host w w' talk ↔ p.Tidy talk := by
  by_cases hstate : start.state = .start
  · have hfresh : start.Fresh := ⟨hstate, hstart hstate⟩
    obtain ⟨result, reached, w'', said, hrun', hending, hsaid, hfiles, -⟩ :=
      p.run_ending hfresh host w
    cases hrun.symm.trans hrun'
    have hsame := hfiles hw hspec.staysInside rfl
    obtain ⟨stages, hcourse, -⟩ := hending.course
    rw [← htalk.unique hsaid] at hcourse
    -- nothing is said where there is no context, or the engine cannot be asked in it
    have hsilent : (∀ context staged, p.spec.stage p.sourceRoot host w = (.ok context, staged) →
        ¬ p.Reaches host context) → (p.LeavesNothing host w w' talk ↔ p.Tidy talk) := by
      intro hno
      rw [hcourse.silent hfresh hno]
      exact iff_of_true (leavesNothing_nil hsame) Orderly.tidy_nil
    cases hstage : p.spec.stage p.sourceRoot host w with
    | mk staged w₁ =>
      cases staged with
      | error fault =>
        exact hsilent fun context _ hstage' => by cases hstage.symm.trans hstage'
      | ok context =>
        by_cases hreach : p.Reaches host context
        · have horderly := hcourse.orderly hfresh hstage hspec.isWord_artifactPath hreach
          rw [← horderly.bound_iff_tidy hworks]
          constructor
          · intro hleaves
            exact ⟨hleaves.image, fun hkeep => hleaves.builder hkeep context _ hstage⟩
          · rintro ⟨himage, hbuilder⟩
            refine ⟨himage, fun hkeep context' w₁' hstage' => ?_, hsame⟩
            cases hstage.symm.trans hstage'
            exact hbuilder hkeep
        · refine hsilent fun context' staged hstage' => ?_
          cases hstage.symm.trans hstage'
          exact hreach
  · have hbarred : p.run start host w = (.ok (.error .ranBefore, start), w) := by
      rw [run, if_pos hstate]
      rfl
    cases hrun.symm.trans hbarred
    rw [htalk.unique (.of_calls_eq rfl)]
    exact iff_of_true (leavesNothing_nil (.refl w.files)) Orderly.tidy_nil

/-- The stock pipeline with its sources and with an engine that fails at every build and at no
removal: its one run ends with an error and leaves nothing behind. -/
theorem leavesNothing_of_failing :
    ∃ e progress w' talk,
      Spec.standard.pipeline.run .initial (.replying (Reply.toBuilds 1)) .stocked =
        (.ok (.error e, progress), w') ∧
      (Host.replying (Reply.toBuilds 1)).Talked .stocked w' talk ∧ talk.RemovalsWork ∧
      Spec.standard.pipeline.LeavesNothing (.replying (Reply.toBuilds 1)) .stocked w' talk := by
  have hends : (match (Spec.standard.pipeline.run .initial (.replying (Reply.toBuilds 1))
      .stocked).1 with
      | .ok (result, _) => result.isOk
      | .error _ => true) = false := by decide +kernel
  obtain ⟨result, progress, w', talk, hrun, -, htalk, -⟩ := Spec.standard.pipeline.run_ending
    (show Progress.initial.Fresh from ⟨rfl, rfl⟩) (.replying (Reply.toBuilds 1)) .stocked
  rw [hrun] at hends
  cases result with
  | ok made => cases hends
  | error e =>
    have hworks := htalk.removalsWork_toBuilds
    refine ⟨e, progress, w', talk, hrun, htalk, hworks, ?_⟩
    have hiff := leavesNothing_iff Spec.accepted_standard (World.grounded_stocked _)
      (fun _ => rfl) hrun htalk hworks
    refine hiff.mpr fun command reply hmem hcode => ?_
    rw [htalk.eq_of_replying hmem] at hcode
    exact absurd hcode (by simp [Reply.toBuilds, Reply.quiet])

/-- Where the engine makes the image of the build stage without an identifier, the run ends with an
error and the engine holds the tag of this image, although it is not to be kept and every removal
works. -/
theorem leavesBuilder_of_unnamed :
    Spec.standard.Accepted ∧
    ∃ e progress w' talk,
      Spec.standard.pipeline.run .initial (.replying (Reply.toBuilds 0)) .stocked =
        (.ok (.error e, progress), w') ∧
      (Host.replying (Reply.toBuilds 0)).Talked .stocked w' talk ∧ talk.RemovalsWork ∧
      Spec.standard.pipeline.keepBuilder = false ∧
      ∃ context, Spec.standard.pipeline.builderTag context ∈ talk.bound ∧
        ¬ Spec.standard.pipeline.LeavesNothing (.replying (Reply.toBuilds 0)) .stocked w' talk := by
  have hends : (match (Spec.standard.pipeline.run .initial (.replying (Reply.toBuilds 0))
      .stocked).1 with
      | .ok (result, _) => result.isOk
      | .error _ => true) = false := by decide +kernel
  have hstaged : (Spec.standard.stage (.ofText ".") (.replying (Reply.toBuilds 0))
      .stocked).1.isOk = true := by decide +kernel
  have hfresh : Progress.initial.Fresh := ⟨rfl, rfl⟩
  obtain ⟨result, progress, w', talk, hrun, hending, htalk, -⟩ :=
    Spec.standard.pipeline.run_ending hfresh (.replying (Reply.toBuilds 0)) .stocked
  obtain ⟨stages, hcourse, -⟩ := hending.course
  rw [hrun] at hends
  cases result with
  | ok made => cases hends
  | error e =>
    cases hstage : Spec.standard.stage (.ofText ".") (.replying (Reply.toBuilds 0)) .stocked with
    | mk staged w₁ =>
      rw [hstage] at hstaged
      cases staged with
      | error e => cases hstaged
      | ok context =>
        have hreach : Spec.standard.pipeline.Reaches (.replying (Reply.toBuilds 0)) context :=
          reaches_of_words (Spec.placed_of_stage hstage) rfl (by decide)
        have horderly := hcourse.orderly hfresh hstage
          Spec.accepted_standard.isWord_artifactPath hreach
        have hheld := htalk.builderTag_mem_bound horderly
        refine ⟨Spec.accepted_standard, e, progress, w', talk, hrun, htalk,
          htalk.removalsWork_toBuilds, rfl, context, hheld, fun hleaves => ?_⟩
        exact hleaves.builder rfl context w₁ hstage hheld

end Pipeline

end TwoStage
