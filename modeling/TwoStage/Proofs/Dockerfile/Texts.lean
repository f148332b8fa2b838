import TwoStage.Dockerfile.Render
import TwoStage.Proofs.Bindings
import TwoStage.Proofs.Json.Roundtrip
import TwoStage.Proofs.Path
import TwoStage.Proofs.Spec.WellFormed

/-!
# Texts of a specification in the lines of a file

Which texts of a specification stand in the lines of a Dockerfile as they are. Double and single
quotes keep a line feed or carriage return; the exec form, being JSON, escapes them.

## Main definitions

- `IsLineEnd` — the characters that end a line
- `Instruction.texts` — the texts that the line of an instruction does not escape
- `Spec.Lacks` — specifications whose unescaped texts lack a character

## Main statements

- `Instruction.mem_line_iff` — a line ends inside an instruction where one of its texts has it
- `Spec.Lacks.not_mem_line` — files of a specification that lacks a line end
- `Spec.lacks_iff` — for accepted specifications nothing else will do
-/

namespace TwoStage

/-- The characters that end a line in a file. -/
def IsLineEnd (c : Char) : Prop := c = '\n' ∨ c = '\r'

section LineEnd

variable {c : Char} (hc : IsLineEnd c)

include hc

theorem IsLineEnd.toNat_lt : c.toNat < 0x20 := by
  rcases hc with rfl | rfl <;> decide

/-- A line end differs from the characters that mean something to quotes and paths. -/
theorem IsLineEnd.ne_of_le {d : Char} (hd : 0x20 ≤ d.toNat) : c ≠ d := by
  rintro rfl
  have hlt := hc.toNat_lt
  omega

theorem IsLineEnd.not_mem {s : String} (hs : BuildEnvironment.isSingleLine s = true) :
    c ∉ s.toList := by
  intro hmem
  simp only [BuildEnvironment.isSingleLine, Bool.not_eq_true', List.any_eq_false] at hs
  have hfine := hs c hmem
  rcases hc with rfl | rfl <;> simp at hfine

theorem not_mem_const_append {s t : String} (hs : BuildEnvironment.isSingleLine s = true) :
    c ∈ (s ++ t).toList ↔ c ∈ t.toList := by
  rw [mem_toList_append, or_iff_right (hc.not_mem hs)]

-- ════════════════════════════════════════════════════════════════════════
-- Quotes
-- ════════════════════════════════════════════════════════════════════════

theorem Dockerfile.mem_quote_iff (s : String) : c ∈ (quote s).toList ↔ c ∈ s.toList := by
  have hquote : c ≠ '\x22' := hc.ne_of_le (by decide)
  have hbackslash : c ≠ '\\' := hc.ne_of_le (by decide)
  have hchar : ∀ d, c ∈ quoteChar d ↔ c = d := by
    intro d
    rw [quoteChar]
    split <;> simp [hbackslash]
  simp [quote, quoteChars, List.mem_flatMap, hchar, hquote]

theorem Dockerfile.mem_assignment_iff (name value : String) :
    c ∈ (assignment name value).toList ↔ c ∈ name.toList ∨ c ∈ value.toList := by
  have hvalue : c ∈ (envValue value).toList ↔ c ∈ value.toList := by
    rw [envValue]
    split
    · rfl
    · exact mem_quote_iff hc value
  have heq : c ∉ ("=" : String).toList := hc.not_mem (by decide)
  rw [assignment, mem_toList_append, mem_toList_append, or_iff_left heq, hvalue]

theorem Dockerfile.mem_shellWord_iff (s : String) : c ∈ (shellWord s).toList ↔ c ∈ s.toList := by
  have hsingle : c ≠ '\x27' := hc.ne_of_le (by decide)
  have hdouble : c ≠ '\x22' := hc.ne_of_le (by decide)
  have hchar : ∀ d, c ∈ shellChar d ↔ c = d := by
    intro d
    rw [shellChar]
    split
    · next hd => simp [hd, hsingle, hdouble]
    · simp
  rw [shellWord]
  split
  · rfl
  · simp [List.mem_flatMap, hchar, hsingle]

theorem mem_joinWith_space_iff (texts : List String) :
    c ∈ (joinWith " " texts).toList ↔ ∃ text ∈ texts, c ∈ text.toList := by
  constructor
  · intro h
    have hspace : c ∉ (" " : String).toList := hc.not_mem (by decide)
    exact (mem_joinWith h).resolve_left hspace
  · rintro ⟨text, hmem, hcs⟩
    exact mem_joinWith_of_mem " " hmem hcs

theorem Dockerfile.mem_shellWords_iff (argv : List String) :
    c ∈ (shellWords argv).toList ↔ ∃ word ∈ argv, c ∈ word.toList := by
  rw [shellWords, mem_joinWith_space_iff hc]
  simp [mem_shellWord_iff hc]

theorem Dockerfile.not_mem_execForm (argv : List String) : c ∉ (execForm argv).toList := by
  intro h
  have hle := (Json.exact_ofStrings argv).space_le_of_mem_compact h
  have hlt := hc.toNat_lt
  omega

end LineEnd

-- ════════════════════════════════════════════════════════════════════════
-- Instructions
-- ════════════════════════════════════════════════════════════════════════

namespace Instruction

/-- The texts that the line of an instruction does not escape. -/
def texts : Instruction → List String
  | blank => []
  | comment text => [text]
  | start reference stageName => [reference, stageName]
  | install _ packages => packages
  | workdir path => [path]
  | copySource _ => []
  | env name value => [name, value]
  | run argv => argv
  | addUser _ identity => [identity.shell, identity.name]
  | user name => [name]
  | label name value => [name, value]
  | copyArtifact artifact target => [artifact.stage, artifact.path, target]
  | entrypoint _ => []

variable {c : Char}

theorem mem_installLine_iff (hc : IsLineEnd c) (manager : PackageManager)
    (packages : List String) :
    c ∈ (installLine manager packages).toList ↔ ∃ name ∈ packages, c ∈ name.toList := by
  have hclean : c ∉ (" && rm -rf /var/lib/apt/lists/*" : String).toList :=
    hc.not_mem (by decide +kernel)
  cases manager with
  | apk =>
    unfold installLine
    rw [not_mem_const_append hc (by decide +kernel), mem_joinWith_space_iff hc]
  | apt =>
    unfold installLine
    rw [mem_toList_append, or_iff_left hclean, not_mem_const_append hc (by decide +kernel),
      mem_joinWith_space_iff hc]

theorem mem_addUserLine_iff (hc : IsLineEnd c) (manager : PackageManager) (identity : Identity) :
    c ∈ (addUserLine manager identity).toList ↔
      c ∈ identity.shell.toList ∨ c ∈ identity.name.toList := by
  have hspace : c ∉ (" " : String).toList := hc.not_mem (by decide +kernel)
  unfold addUserLine
  cases manager with
  | apk =>
    rw [mem_toList_append, mem_toList_append, or_iff_left hspace,
      not_mem_const_append hc (by decide +kernel)]
  | apt =>
    rw [mem_toList_append, mem_toList_append, or_iff_left hspace,
      not_mem_const_append hc (by decide +kernel)]

/-- A line holds a line end exactly where one of the texts that it does not escape does. -/
theorem mem_line_iff (hc : IsLineEnd c) (instruction : Instruction) :
    c ∈ instruction.line.toList ↔ ∃ text ∈ instruction.texts, c ∈ text.toList := by
  have hspace : c ∉ (" " : String).toList := hc.not_mem (by decide)
  cases instruction with
  | blank =>
    rw [line_blank]
    simp [texts]
  | comment text =>
    rw [line_comment, not_mem_const_append hc (by decide)]
    simp [texts]
  | start reference stageName =>
    have has : c ∉ (" AS " : String).toList := hc.not_mem (by decide)
    rw [line_start, mem_toList_append, mem_toList_append, or_iff_left has,
      not_mem_const_append hc (by decide)]
    simp [texts]
  | install manager packages => exact mem_installLine_iff hc manager packages
  | workdir path =>
    rw [line_workdir, not_mem_const_append hc (by decide)]
    simp [texts]
  | copySource path =>
    rw [line_copySource, not_mem_const_append hc (by decide)]
    simp [texts, Dockerfile.not_mem_execForm hc]
  | env name value =>
    rw [line_env, not_mem_const_append hc (by decide), Dockerfile.mem_assignment_iff hc]
    simp [texts]
  | run argv =>
    rw [line_run, not_mem_const_append hc (by decide), Dockerfile.mem_shellWords_iff hc]
    rfl
  | addUser manager identity =>
    rw [line_addUser, mem_addUserLine_iff hc]
    simp [texts]
  | user name =>
    rw [line_user, not_mem_const_append hc (by decide)]
    simp [texts]
  | label name value =>
    have heq : c ∉ ("=" : String).toList := hc.not_mem (by decide)
    rw [line_label, mem_toList_append, mem_toList_append, or_iff_left heq,
      not_mem_const_append hc (by decide), Dockerfile.mem_quote_iff hc, Dockerfile.mem_quote_iff hc]
    simp [texts]
  | copyArtifact artifact target =>
    rw [line_copyArtifact, mem_toList_append, mem_toList_append, or_iff_left hspace,
      mem_toList_append, mem_toList_append, or_iff_left hspace, not_mem_const_append hc (by decide)]
    simp [texts, or_assoc]
  | entrypoint argv =>
    rw [line_entrypoint, not_mem_const_append hc (by decide)]
    simp [texts, Dockerfile.not_mem_execForm hc]

end Instruction

-- ════════════════════════════════════════════════════════════════════════
-- Parts of a specification
-- ════════════════════════════════════════════════════════════════════════

/-- The name of an image lacks a character. -/
structure BaseImage.Lacks (base : BaseImage) (c : Char) : Prop where
  image : c ∉ base.image.toList
  tag : c ∉ base.tag.toList
  digest : ∀ digest, base.digest = some digest → c ∉ digest.toList

/-- The variables of a build environment lack a character. The linker counts only where the compiler
flags are not given outright. -/
structure BuildEnvironment.Lacks (env : BuildEnvironment) (c : Char) : Prop where
  extra : ∀ binding ∈ env.extra, c ∉ binding.1.toList ∧ c ∉ binding.2.toList
  linker : "RUSTFLAGS" ∉ env.extra.map Prod.fst →
    ∀ linker, env.linker = some linker → c ∉ linker.toList

/-- The texts of a build stage that stand unescaped in a file lack a character. -/
structure BuildStage.Lacks (stage : BuildStage) (c : Char) : Prop where
  name : c ∉ stage.name.toList
  base : stage.base.Lacks c
  toolchain : ∀ name ∈ stage.toolchain.packages, c ∉ name.toList
  workdir : c ∉ stage.sources.workdir.toList
  env : stage.env.Lacks c
  command : ∀ word ∈ stage.command, c ∉ word.toList
  installRoot : c ∉ stage.installRoot.toList
  binary : c ∉ stage.binary.toList

/-- The texts of a final stage that stand unescaped in a file lack a character. -/
structure FinalStage.Lacks (stage : FinalStage) (c : Char) : Prop where
  name : c ∉ stage.name.toList
  base : stage.base.Lacks c
  runtime : ∀ name ∈ stage.runtime.packages, c ∉ name.toList
  user : c ∉ stage.identity.name.toList
  shell : c ∉ stage.identity.shell.toList
  entrypoint : c ∉ stage.entrypoint.path.toList

/-- The texts of a specification that stand unescaped in a file lack a character. -/
structure Spec.Lacks (spec : Spec) (c : Char) : Prop where
  build : spec.build.Lacks c
  final : spec.final.Lacks c
  labels : ∀ binding ∈ spec.labels, c ∉ binding.1.toList ∧ c ∉ binding.2.toList

section Parts

variable {c : Char} (hc : IsLineEnd c)

include hc

theorem BaseImage.not_mem_reference_iff (base : BaseImage) :
    c ∉ base.reference.toList ↔ base.Lacks c := by
  have hcolon : c ∉ (":" : String).toList := hc.not_mem (by decide)
  have hat : c ∉ ("@" : String).toList := hc.not_mem (by decide)
  have hpinned : c ∉ (base.image ++ ":" ++ base.tag).toList ↔
      c ∉ base.image.toList ∧ c ∉ base.tag.toList := by
    rw [mem_toList_append, mem_toList_append, or_iff_left hcolon, not_or]
  have hreference : c ∉ base.reference.toList ↔
      (c ∉ base.image.toList ∧ c ∉ base.tag.toList) ∧
        ∀ digest, base.digest = some digest → c ∉ digest.toList := by
    rw [← hpinned, reference]
    cases hdigest : base.digest with
    | none => simp
    | some digest =>
      by_cases hempty : digest = ""
      · simp [hempty]
      · simp only [String.isEmpty_iff, hempty, if_false, Option.some.injEq, forall_eq']
        rw [mem_toList_append, mem_toList_append, or_iff_left hat, not_or]
  rw [hreference]
  constructor
  · rintro ⟨⟨himage, htag⟩, hdigest⟩
    exact ⟨himage, htag, hdigest⟩
  · rintro ⟨himage, htag, hdigest⟩
    exact ⟨⟨himage, htag⟩, hdigest⟩

theorem BuildEnvironment.mem_compilerFlags_iff (env : BuildEnvironment) :
    c ∈ env.compilerFlags.toList ↔ ∃ linker, env.linker = some linker ∧ c ∈ linker.toList := by
  have hsign : c ∉ ("-C target-feature=" ++ (if env.staticRuntime then "+" else "-") ++
      "crt-static").toList := by
    cases env.staticRuntime <;> exact hc.not_mem (by decide +kernel)
  rw [compilerFlags, mem_joinWith_space_iff hc, linkerFlags]
  cases env.linker with
  | none => simpa using hsign
  | some linker =>
    by_cases hempty : linker = ""
    · simpa [hempty] using hsign
    · simp only [String.isEmpty_iff, hempty, if_false, List.singleton_append, List.mem_cons,
        List.not_mem_nil, or_false, exists_eq_or_imp, exists_eq_left, hsign, Option.some.injEq,
        exists_eq_left']
      exact not_mem_const_append hc (by decide)

omit hc in
theorem BuildEnvironment.nodup_builtin (env : BuildEnvironment) :
    (env.builtin.map Prod.fst).Nodup := by
  simp only [builtin, List.map_cons, List.map_nil]
  decide

/-- Of the variables that the knobs come down to, only the compiler flags can hold a line end. -/
theorem BuildEnvironment.not_mem_of_mem_builtin {env : BuildEnvironment} {binding : String × String}
    (h : binding ∈ env.builtin)
    (hlinker : binding.1 = "RUSTFLAGS" → ∀ linker, env.linker = some linker → c ∉ linker.toList) :
    c ∉ binding.1.toList ∧ c ∉ binding.2.toList := by
  rw [builtin, List.mem_cons, List.mem_cons, List.mem_singleton] at h
  rcases h with rfl | rfl | rfl
  · refine ⟨hc.not_mem (s := "CARGO_INCREMENTAL") (by decide), ?_⟩
    cases env.incremental <;> exact hc.not_mem (by decide)
  · refine ⟨hc.not_mem (s := "CARGO_NET_RETRY") (by decide), not_mem_toString ?_ env.netRetry⟩
    rcases hc with rfl | rfl <;> rfl
  · refine ⟨hc.not_mem (s := "RUSTFLAGS") (by decide), ?_⟩
    rw [mem_compilerFlags_iff hc]
    rintro ⟨linker, hsome, hmem⟩
    exact hlinker rfl linker hsome hmem

/-- The variables of an environment that lacks a line end lack it. -/
theorem BuildEnvironment.Lacks.assignments {env : BuildEnvironment} (h : env.Lacks c)
    {binding : String × String} (hmem : binding ∈ env.assignments) :
    c ∉ binding.1.toList ∧ c ∉ binding.2.toList := by
  by_cases hextra : binding.1 ∈ env.extra.map Prod.fst
  · have hbinding := Bindings.mem_of_mem_overlay_of_mem env.nodup_builtin hmem hextra
    exact h.extra binding hbinding
  · rcases Bindings.mem_overlay hmem with hbuiltin | hbinding
    · refine not_mem_of_mem_builtin hc hbuiltin fun hname => ?_
      exact h.linker (hname ▸ hextra)
    · exact h.extra binding hbinding

/-- Unless a value that is bound again holds it, the variables lack a line end only where the
environment does. -/
theorem BuildEnvironment.lacks_of_assignments {env : BuildEnvironment}
    (hvalues : ∀ binding ∈ env.extra, c ∉ binding.2.toList)
    (h : ∀ binding ∈ env.assignments, c ∉ binding.1.toList ∧ c ∉ binding.2.toList) :
    env.Lacks c := by
  constructor
  · intro binding hbinding
    have hname : binding.1 ∈ env.assignments.map Prod.fst :=
      Bindings.mem_map_fst_overlay.mpr (Or.inr (List.mem_map_of_mem hbinding))
    obtain ⟨bound, hbound, heq⟩ := List.mem_map.mp hname
    exact ⟨heq ▸ (h bound hbound).1, hvalues binding hbinding⟩
  · intro hnot linker hlinker hmem
    have hflags : ("RUSTFLAGS", env.compilerFlags) ∈ env.assignments := by
      refine Bindings.mem_overlay_of_not_mem ?_ hnot
      simp [builtin]
    refine (h _ hflags).2 ?_
    exact (mem_compilerFlags_iff hc env).mpr ⟨linker, hlinker, hmem⟩

omit hc in
/-- The path of the executable is made of the two texts that it comes from, slashes, dots and the
name of a directory. -/
theorem BuildStage.mem_artifactPath {stage : BuildStage} (hslash : c ≠ '/') (hdot : c ≠ '.')
    (hbin : c ∉ ("bin" : String).toList) (h : c ∈ stage.artifactPath.toList) :
    c ∈ stage.installRoot.toList ∨ c ∈ stage.binary.toList := by
  rcases Path.mem_text h with heq | heq | hholds
  · exact absurd heq hslash
  · exact absurd heq hdot
  · rcases Path.holds_join hholds with hdirectory | hbinary
    · rcases Path.holds_join hdirectory with hroot | hname
      · exact Or.inl ((Path.holds_ofText_iff hslash hdot _).mp hroot)
      · exact absurd ((Path.holds_ofText_iff hslash hdot _).mp hname) hbin
    · exact Or.inr ((Path.holds_ofText_iff hslash hdot _).mp hbinary)

omit hc in
/-- The path of the executable of a well-formed build stage holds plain characters and line feeds
alone. -/
theorem BuildStage.WellFormed.not_mem_artifactPath {stage : BuildStage} (h : stage.WellFormed)
    (hplain : isPlainChar c = false) (hfeed : c ≠ '\n') : c ∉ stage.artifactPath.toList := by
  have hne : ∀ other, isPlainChar other = true → c ≠ other := by
    rintro other hother rfl
    rw [hplain] at hother
    cases hother
  have hletters : ("bin" : String).toList.all isPlainChar = true := rfl
  have hbin : c ∉ ("bin" : String).toList := fun hmem =>
    hne c (List.all_eq_true.mp hletters c hmem) rfl
  intro hmem
  rcases mem_artifactPath (hne _ rfl) (hne _ rfl) hbin hmem with hroot | hbinary
  · exact (PlainText.of_isPlainPath h.installRoot).not_mem hplain hfeed hroot
  · exact (PlainText.of_isBinaryName h.binary).not_mem hplain hfeed hbinary

theorem BuildStage.mem_artifactPath_iff {stage : BuildStage}
    (hbinary : isBinaryName stage.binary = true) :
    c ∈ stage.artifactPath.toList ↔
      c ∈ stage.installRoot.toList ∨ c ∈ stage.binary.toList := by
  have hslash : c ≠ '/' := hc.ne_of_le (by decide)
  have hdot : c ≠ '.' := hc.ne_of_le (by decide)
  have hbin : c ∉ ("bin" : String).toList := hc.not_mem (by decide)
  refine ⟨mem_artifactPath hslash hdot hbin, fun h => Path.mem_text_of_holds ?_⟩
  have hrelative : (Path.ofText stage.binary).isAbsolute = false := by
    obtain ⟨first, rest, hname, hfirst⟩ := exists_cons_of_startsAndGoesOn hbinary
    refine Path.isAbsolute_ofText fun hhead => ?_
    rw [hname, List.head?_cons, Option.some.injEq] at hhead
    rw [hhead] at hfirst
    exact absurd hfirst (by decide)
  rw [Path.holds_join_iff hrelative]
  rcases h with hroot | hname
  · left
    rw [Path.holds_join_iff (by decide)]
    exact Or.inl ((Path.holds_ofText_iff hslash hdot _).mpr hroot)
  · exact Or.inr ((Path.holds_ofText_iff hslash hdot _).mpr hname)

end Parts

-- ════════════════════════════════════════════════════════════════════════
-- Files
-- ════════════════════════════════════════════════════════════════════════

namespace Dockerfile

theorem toList_text (instructions : List Instruction) :
    (text instructions).toList =
      (instructions.map fun instruction => instruction.line.toList).flatMap
        fun line => line ++ ['\n'] := by
  rw [text, toList_joinWith]
  induction instructions with
  | nil => rfl
  | cons instruction rest ih =>
    cases rest with
    | nil => simp
    | cons next rest =>
      simp only [List.map_cons, List.intercalate_cons_cons, List.flatMap_cons] at ih ⊢
      rw [ih]
      simp

/-- The pieces of a file between its line feeds are those of its lines, and an empty one. -/
theorem splitAtEach_text_eq_flatMap (instructions : List Instruction) :
    splitAtEach '\n' (text instructions).toList =
      (instructions.flatMap fun instruction => splitAtEach '\n' instruction.line.toList) ++
        [[]] := by
  rw [toList_text, splitAtEach_lines, List.flatMap_map]

/-- Where no line holds a line feed, the pieces are the lines. -/
theorem splitAtEach_toList_text {instructions : List Instruction}
    (h : ∀ instruction ∈ instructions, '\n' ∉ instruction.line.toList) :
    splitAtEach '\n' (text instructions).toList =
      (instructions.map fun instruction => instruction.line.toList) ++ [[]] := by
  have hlines : (instructions.flatMap fun instruction =>
      splitAtEach '\n' instruction.line.toList) =
      instructions.flatMap fun instruction => [instruction.line.toList] :=
    List.flatMap_congr fun instruction hmem => splitAtEach_of_not_mem (h instruction hmem)
  rw [splitAtEach_text_eq_flatMap, hlines, ← List.map_eq_flatMap]

end Dockerfile

/-- The texts that the lines of some instructions do not escape, in order. -/
def openTexts (instructions : List Instruction) : List String :=
  instructions.flatMap Instruction.texts

theorem openTexts_append (before after : List Instruction) :
    openTexts (before ++ after) = openTexts before ++ openTexts after := List.flatMap_append

theorem openTexts_paragraph (base : BaseImage) (packages : List String) :
    openTexts (paragraph (base.install? packages)) = packages := by
  rw [BaseImage.install?]
  cases packages with
  | nil => rfl
  | cons name rest => simp [paragraph, openTexts, Instruction.texts]

/-- The texts of bindings: each name before its value. -/
def bindingTexts (bindings : Bindings String) : List String :=
  bindings.flatMap fun binding => [binding.1, binding.2]

theorem BuildStage.openTexts_instructions (stage : BuildStage) :
    openTexts stage.instructions =
      [stage.base.reference, stage.name] ++ stage.toolchain.packages ++
        [stage.sources.workdir] ++ bindingTexts stage.env.assignments ++ stage.command := by
  have hsources : openTexts (stage.sources.paths.map fun path =>
      .copySource (withoutFinalSlashes path)) = [] := by
    simp [openTexts, List.flatMap_map, Instruction.texts]
  have henv : openTexts (stage.env.assignments.map fun binding => .env binding.1 binding.2) =
      bindingTexts stage.env.assignments := by
    simp [openTexts, List.flatMap_map, Instruction.texts, bindingTexts]
  simp only [instructions, openTexts_append, openTexts_paragraph, hsources, henv]
  simp [openTexts, BaseImage.start, Instruction.texts]

theorem FinalStage.openTexts_instructions (stage : FinalStage) (artifact : Artifact)
    (labels : Bindings String) :
    openTexts (stage.instructions artifact labels) =
      [stage.base.reference, stage.name] ++ stage.runtime.packages ++
        [stage.identity.shell, stage.identity.name, stage.identity.name] ++
        bindingTexts (sortedLabels labels) ++
        [artifact.stage, artifact.path, stage.entrypoint.path] := by
  have hlabels : openTexts ((sortedLabels labels).map fun binding => .label binding.1 binding.2) =
      bindingTexts (sortedLabels labels) := by
    simp [openTexts, List.flatMap_map, Instruction.texts, bindingTexts]
  have hblank : openTexts (if labels.isEmpty then [] else [.blank]) = [] := by
    split <;> rfl
  simp only [instructions, openTexts_append, openTexts_paragraph, hlabels, hblank]
  simp [openTexts, BaseImage.start, Instruction.texts]

section Files

variable {c : Char} (hc : IsLineEnd c)

include hc

theorem not_mem_line_iff (instructions : List Instruction) :
    (∀ instruction ∈ instructions, c ∉ instruction.line.toList) ↔
      ∀ text ∈ openTexts instructions, c ∉ text.toList := by
  simp only [Instruction.mem_line_iff hc, openTexts, List.mem_flatMap]
  constructor
  · rintro h text ⟨instruction, hmem, htext⟩ hcs
    exact h instruction hmem ⟨text, htext, hcs⟩
  · rintro h instruction hmem ⟨text, htext, hcs⟩
    exact h text ⟨instruction, hmem, htext⟩ hcs

omit hc in
theorem forall_mem_bindingTexts {bindings : Bindings String} {P : String → Prop} :
    (∀ text ∈ bindingTexts bindings, P text) ↔
      ∀ binding ∈ bindings, P binding.1 ∧ P binding.2 := by
  rw [bindingTexts, List.forall_mem_flatMap]
  simp

/-- No line end gets into the build stage. -/
theorem BuildStage.Lacks.openTexts {stage : BuildStage} (h : stage.Lacks c) :
    ∀ text ∈ openTexts stage.instructions, c ∉ text.toList := by
  have hbase := (BaseImage.not_mem_reference_iff hc stage.base).mpr h.base
  have henv : ∀ binding ∈ stage.env.assignments, c ∉ binding.1.toList ∧ c ∉ binding.2.toList :=
    fun binding hmem => h.env.assignments hc hmem
  rw [openTexts_instructions]
  simp only [List.forall_mem_append, List.forall_mem_cons, forall_mem_bindingTexts]
  exact ⟨⟨⟨⟨⟨hbase, h.name, by simp⟩, h.toolchain⟩, h.workdir, by simp⟩, henv⟩, h.command⟩

/-- No line end gets into the final stage. -/
theorem Spec.Lacks.openTexts_final {spec : Spec} (h : spec.Lacks c) :
    ∀ text ∈ openTexts spec.finalInstructions, c ∉ text.toList := by
  have hbase := (BaseImage.not_mem_reference_iff hc spec.final.base).mpr h.final.base
  have hlabels : ∀ binding ∈ sortedLabels spec.labels,
      c ∉ binding.1.toList ∧ c ∉ binding.2.toList := by
    intro binding hmem
    exact h.labels binding (Bindings.mem_sorted.mp hmem)
  have hpath : c ∉ spec.artifact.path.toList := by
    intro hmem
    have hartifact := BuildStage.mem_artifactPath (hc.ne_of_le (by decide))
      (hc.ne_of_le (by decide)) (hc.not_mem (by decide)) hmem
    rcases hartifact with hroot | hbinary
    · exact h.build.installRoot hroot
    · exact h.build.binary hbinary
  rw [finalInstructions, FinalStage.openTexts_instructions]
  simp only [List.forall_mem_append, List.forall_mem_cons, forall_mem_bindingTexts]
  exact ⟨⟨⟨⟨⟨hbase, h.final.name, by simp⟩, h.final.runtime⟩, h.final.shell, h.final.user,
    h.final.user, by simp⟩, hlabels⟩, h.build.name, hpath, h.final.entrypoint, by simp⟩

omit hc in
theorem openTexts_twoStage (spec : Spec) :
    openTexts (Dockerfile.twoStage spec) =
      openTexts Dockerfile.header ++ ["Stage 1: " ++ spec.build.name] ++
        openTexts spec.build.instructions ++ ["Stage 2: " ++ spec.final.name] ++
        openTexts spec.finalInstructions := by
  simp only [Dockerfile.twoStage, openTexts_append, List.append_assoc, List.cons_append,
    List.nil_append]
  simp [openTexts, Instruction.texts]

omit hc in
theorem openTexts_finalOnly (spec : Spec) (builder : String) :
    openTexts (Dockerfile.finalOnly spec builder) =
      openTexts Dockerfile.header ++
        ["Stage 1: " ++ spec.build.name ++ " (prebuilt)", builder, spec.build.name,
          "Stage 2: " ++ spec.final.name] ++
        openTexts spec.finalInstructions := by
  simp only [Dockerfile.finalOnly, openTexts_append, List.append_assoc]
  simp [openTexts, Instruction.texts]

theorem not_mem_openTexts_header : ∀ text ∈ openTexts Dockerfile.header, c ∉ text.toList := by
  have hall : ∀ text ∈ openTexts Dockerfile.header,
      BuildEnvironment.isSingleLine text = true := by decide +kernel
  intro text hmem
  exact hc.not_mem (hall text hmem)

/-- The file with both stages of a specification that lacks a line end lacks it, but for the ends of
its lines. -/
theorem Spec.Lacks.not_mem_line {spec : Spec} (h : spec.Lacks c) :
    ∀ instruction ∈ Dockerfile.twoStage spec, c ∉ instruction.line.toList := by
  rw [not_mem_line_iff hc, openTexts_twoStage]
  simp only [List.forall_mem_append, List.forall_mem_singleton]
  have hbuild : c ∉ ("Stage 1: " ++ spec.build.name).toList := by
    rw [not_mem_const_append hc (by decide)]
    exact h.build.name
  have hfinal : c ∉ ("Stage 2: " ++ spec.final.name).toList := by
    rw [not_mem_const_append hc (by decide)]
    exact h.final.name
  exact ⟨⟨⟨⟨not_mem_openTexts_header hc, hbuild⟩, h.build.openTexts hc⟩, hfinal⟩,
    h.openTexts_final hc⟩

/-- The same of the file with the final stage alone. -/
theorem Spec.Lacks.not_mem_line_finalOnly {spec : Spec} (h : spec.Lacks c) {builder : String}
    (hbuilder : c ∉ builder.toList) :
    ∀ instruction ∈ Dockerfile.finalOnly spec builder, c ∉ instruction.line.toList := by
  rw [not_mem_line_iff hc, openTexts_finalOnly]
  simp only [List.forall_mem_append, List.forall_mem_cons]
  have hprebuilt : c ∉ (" (prebuilt)" : String).toList := hc.not_mem (by decide)
  have hbuild : c ∉ ("Stage 1: " ++ spec.build.name ++ " (prebuilt)").toList := by
    rw [mem_toList_append, or_iff_left hprebuilt, not_mem_const_append hc (by decide)]
    exact h.build.name
  have hfinal : c ∉ ("Stage 2: " ++ spec.final.name).toList := by
    rw [not_mem_const_append hc (by decide)]
    exact h.final.name
  exact ⟨⟨not_mem_openTexts_header hc, hbuild, hbuilder, h.build.name, hfinal, by simp⟩,
    h.openTexts_final hc⟩

/-- The lines of an accepted specification lack a line end only where the specification does. -/
theorem Spec.lacks_iff {spec : Spec} (hspec : spec.Accepted) :
    (∀ instruction ∈ Dockerfile.twoStage spec, c ∉ instruction.line.toList) ↔ spec.Lacks c := by
  refine ⟨fun h => ?_, fun h => h.not_mem_line hc⟩
  have hwell := hspec.wellFormed
  rw [not_mem_line_iff hc, openTexts_twoStage, BuildStage.openTexts_instructions,
    finalInstructions, FinalStage.openTexts_instructions] at h
  simp only [List.forall_mem_append, List.forall_mem_cons, forall_mem_bindingTexts] at h
  obtain ⟨⟨⟨⟨-, -⟩, ⟨⟨⟨⟨hbase, hname, -⟩, htoolchain⟩, hworkdir, -⟩, henv⟩, hcommand⟩, -⟩,
    ⟨⟨⟨⟨hfinalBase, hfinalName, -⟩, hruntime⟩, hshell, huser, -⟩, hlabels⟩, -, hpath, hentrypoint,
      -⟩ := h
  have hartifact : ¬ (c ∈ spec.build.installRoot.toList ∨ c ∈ spec.build.binary.toList) := by
    rw [← BuildStage.mem_artifactPath_iff hc hwell.build.binary]
    exact hpath
  rw [not_or] at hartifact
  have hvalues : ∀ binding ∈ spec.build.env.extra, c ∉ binding.2.toList :=
    fun binding hmem => hc.not_mem (hwell.build.env binding hmem).2
  refine ⟨⟨hname, ?_, htoolchain, hworkdir, ?_, hcommand, hartifact.1, hartifact.2⟩,
    ⟨hfinalName, ?_, hruntime, huser, hshell, hentrypoint⟩, fun binding hmem => ?_⟩
  · exact (BaseImage.not_mem_reference_iff hc _).mp hbase
  · exact BuildEnvironment.lacks_of_assignments hc hvalues henv
  · exact (BaseImage.not_mem_reference_iff hc _).mp hfinalBase
  · exact hlabels binding (Bindings.mem_sorted.mpr hmem)

/-- A specification whose texts fit on one line each, as they stand in the file with both stages. -/
theorem Spec.lacks_of_isSingleLine {spec : Spec} (hspec : spec.Accepted)
    (hstages : ∀ text ∈ ["Stage 1: " ++ spec.build.name] ++
      (openTexts spec.build.instructions ++
        (["Stage 2: " ++ spec.final.name] ++ openTexts spec.finalInstructions)),
      BuildEnvironment.isSingleLine text = true) : spec.Lacks c := by
  rw [← Spec.lacks_iff hc hspec, not_mem_line_iff hc, openTexts_twoStage, List.append_assoc,
    List.append_assoc, List.append_assoc]
  intro text hmem
  rcases List.mem_append.mp hmem with hheader | hstage
  · exact not_mem_openTexts_header hc text hheader
  · exact hc.not_mem (hstages text hstage)

theorem Spec.lacks_standard : Spec.standard.Lacks c :=
  Spec.lacks_of_isSingleLine hc Spec.accepted_standard (by decide +kernel)

end Files

end TwoStage
