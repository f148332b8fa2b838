import TwoStage.Proofs.Dockerfile.Reading

/-!
# The user of the finished image

What the engine makes of the user of the final stage. It reads the file line by line and each line
word by word, so that a line feed at the end of the name or of the shell cuts off what the rules of
the fields looked at: the rules compare the text with its line feed to the name of the privileged
user and to the names of the shells, the engine sees it without. With a specification whose other
texts hold no line feed, the user is unprivileged and cannot log in unless this happens.

## Main definitions

- `Dockerfile.wordLines` — the words of the lines of a file
- `Dockerfile.Unprivileged` — files that neither run as the privileged user nor make a user who is
  privileged or can log in

## Main statements

- `Dockerfile.unprivileged_iff` — which accepted specifications have such a final stage
-/

namespace TwoStage

-- ════════════════════════════════════════════════════════════════════════
-- Lines in words
-- ════════════════════════════════════════════════════════════════════════

/-- The words that follow one of the options. -/
def argumentsOf (options : List String) : List String → List String
  | option :: argument :: rest =>
    if option ∈ options then argument :: argumentsOf options (argument :: rest)
    else argumentsOf options (argument :: rest)
  | _ => []

namespace Dockerfile

/-- The words of each line of a text. -/
def wordLines (s : String) : List (List String) :=
  (splitAtEach '\n' s.toList).map fun line => words (String.ofList line)

/-- The programs that add a user. -/
def userPrograms : List String := ["adduser", "useradd"]

/-- The options of these programs that name a shell. -/
def shellOptions : List String := ["-s", "--shell"]

/-- A line that does not run the image as the privileged user, and does not add a user who is
privileged or can log in. -/
structure UnprivilegedLine (line : List String) : Prop where
  user : ∀ name rest, line = "USER" :: name :: rest → name ≠ "root"
  added : ∀ program rest, line = "RUN" :: program :: rest → program ∈ userPrograms →
    rest.getLast? ≠ some "root"
  shell : ∀ program rest, line = "RUN" :: program :: rest → program ∈ userPrograms →
    ∀ shell ∈ argumentsOf shellOptions rest,
      (Path.ofText shell).name ∉ Identity.interactiveShells

/-- A text all lines of which are like this. -/
def Unprivileged (s : String) : Prop := ∀ line ∈ wordLines s, UnprivilegedLine line

/-- A line that is neither about a user nor a command is harmless. -/
theorem UnprivilegedLine.of_head? {line : List String} (huser : line.head? ≠ some "USER")
    (hrun : line.head? ≠ some "RUN") : UnprivilegedLine line := by
  refine ⟨?_, ?_, ?_⟩
  · rintro name rest rfl
    exact absurd rfl huser
  · rintro program rest rfl
    exact absurd rfl hrun
  · rintro program rest rfl
    exact absurd rfl hrun

/-- A command that adds no user is harmless. -/
theorem UnprivilegedLine.of_program {program : String} (h : program ∉ userPrograms)
    (rest : List String) : UnprivilegedLine ("RUN" :: program :: rest) := by
  refine ⟨?_, ?_, ?_⟩
  · intro name rest heq
    simp at heq
  · rintro program rest ⟨rfl⟩ hmem
    exact absurd hmem h
  · rintro program rest ⟨rfl⟩ hmem
    exact absurd hmem h

theorem unprivilegedLine_user_iff (name : String) :
    UnprivilegedLine ["USER", name] ↔ name ≠ "root" := by
  constructor
  · intro h
    exact h.user name [] rfl
  · intro hname
    refine ⟨?_, ?_, ?_⟩
    · rintro other rest ⟨rfl⟩
      exact hname
    · intro program rest heq
      simp at heq
    · intro program rest heq
      simp at heq

/-- The words before the shell in the line that adds a user. -/
def addUserWords : PackageManager → List String
  | .apk => ["RUN", "adduser", "-D", "-s"]
  | .apt => ["RUN", "useradd", "--create-home", "--shell"]

theorem unprivilegedLine_addUser_iff (manager : PackageManager) {shell : String}
    {rest : List String} (hrest : argumentsOf shellOptions (shell :: rest) = []) :
    UnprivilegedLine (addUserWords manager ++ shell :: rest) ↔
      (shell :: rest).getLast? ≠ some "root" ∧
        (Path.ofText shell).name ∉ Identity.interactiveShells := by
  have hargs : ∀ option1 option2, option1 ∉ shellOptions → option2 ∈ shellOptions →
      argumentsOf shellOptions (option1 :: option2 :: shell :: rest) = [shell] := by
    intro option1 option2 h1 h2
    rw [argumentsOf, if_neg h1, argumentsOf, if_pos h2, hrest]
  have hline : ∃ program option1 option2,
      addUserWords manager = ["RUN", program, option1, option2] ∧
      program ∈ userPrograms ∧ option1 ∉ shellOptions ∧ option2 ∈ shellOptions := by
    cases manager with
    | apk => exact ⟨_, _, _, rfl, by decide, by decide, by decide⟩
    | apt => exact ⟨_, _, _, rfl, by decide, by decide, by decide⟩
  obtain ⟨program, option1, option2, hwords, hprogram, h1, h2⟩ := hline
  have hlast : (option1 :: option2 :: shell :: rest).getLast? = (shell :: rest).getLast? := rfl
  rw [hwords, ← hlast]
  show UnprivilegedLine ("RUN" :: program :: option1 :: option2 :: shell :: rest) ↔ _
  constructor
  · intro h
    refine ⟨h.added program _ rfl hprogram, h.shell program _ rfl hprogram shell ?_⟩
    rw [hargs option1 option2 h1 h2]
    exact List.mem_singleton_self shell
  · rintro ⟨hroot, hshell⟩
    refine ⟨?_, ?_, ?_⟩
    · intro name rest heq
      simp at heq
    · rintro program rest ⟨rfl⟩ -
      exact hroot
    · rintro program rest ⟨rfl⟩ - other hmem
      rw [hargs option1 option2 h1 h2, List.mem_singleton] at hmem
      exact hmem ▸ hshell

/-- A word alone says nothing. -/
theorem unprivilegedLine_singleton (word : String) : UnprivilegedLine [word] := by
  refine ⟨?_, ?_, ?_⟩
  · rintro name rest ⟨⟩
  · rintro program rest ⟨⟩
  · rintro program rest ⟨⟩

theorem unprivilegedLine_nil : UnprivilegedLine [] :=
  .of_head? (by decide) (by decide)

/-- The lines that an instruction makes in a file are all unprivileged. -/
def UnprivilegedIn (line : String) : Prop :=
  ∀ piece ∈ splitAtEach '\n' line.toList, UnprivilegedLine (words (String.ofList piece))

theorem words_mem_wordLines {instructions : List Instruction} {instruction : Instruction}
    {piece : List Char} (hmem : instruction ∈ instructions)
    (hpiece : piece ∈ splitAtEach '\n' instruction.line.toList) :
    words (String.ofList piece) ∈ wordLines (text instructions) := by
  rw [wordLines, splitAtEach_text_eq_flatMap]
  refine List.mem_map.mpr ⟨piece, List.mem_append_left _ ?_, rfl⟩
  exact List.mem_flatMap.mpr ⟨instruction, hmem, hpiece⟩

theorem unprivileged_text_iff (instructions : List Instruction) :
    Unprivileged (text instructions) ↔
      ∀ instruction ∈ instructions, UnprivilegedIn instruction.line := by
  have hlast : UnprivilegedLine (words (String.ofList [])) := unprivilegedLine_nil
  rw [Unprivileged, wordLines, splitAtEach_text_eq_flatMap, List.forall_mem_map,
    List.forall_mem_append, List.forall_mem_flatMap]
  simp only [List.forall_mem_singleton, hlast, and_true]
  rfl

theorem unprivilegedIn_iff_of_not_mem {line : String} (h : '\n' ∉ line.toList) :
    UnprivilegedIn line ↔ UnprivilegedLine (words line) := by
  rw [UnprivilegedIn, splitAtEach_of_not_mem h, List.forall_mem_singleton, String.ofList_toList]

-- ════════════════════════════════════════════════════════════════════════
-- Instructions that are not about the user
-- ════════════════════════════════════════════════════════════════════════

/-- An instruction with another keyword is harmless. -/
theorem UnprivilegedLine.of_keyword {instruction : Instruction}
    (h : instruction.keyword ∈ ["FROM", "LABEL", "COPY", "ENTRYPOINT"]) :
    UnprivilegedLine (words instruction.line) := by
  have hall : ∀ keyword ∈ ["FROM", "LABEL", "COPY", "ENTRYPOINT"],
      keyword ∈ Instruction.keywords ∧ keyword ≠ "USER" ∧ keyword ≠ "RUN" := by decide
  obtain ⟨hkeyword, huser, hrun⟩ := hall _ h
  rw [Instruction.words_line hkeyword]
  exact .of_head? (by simpa using huser) (by simpa using hrun)

theorem unprivilegedLine_install (manager : PackageManager) (packages : List String) :
    UnprivilegedLine (words (Instruction.install manager packages).line) := by
  have hkeyword : (Instruction.install manager packages).keyword ∈ Instruction.keywords := by
    show "RUN" ∈ Instruction.keywords
    decide
  rw [Instruction.words_line hkeyword]
  cases manager with
  | apk =>
    have hprogram : ("apk add --no-cache " : String) = "apk" ++ (" " ++ "add --no-cache ") := by
      decide
    show UnprivilegedLine ("RUN" :: words ("apk add --no-cache " ++ joinWith " " packages))
    rw [hprogram, String.append_assoc, String.append_assoc, words_keyword (by decide) (by decide)]
    exact .of_program (by decide) _
  | apt =>
    have hprogram : ("apt-get update && apt-get install -y --no-install-recommends " : String) =
        "apt-get" ++ (" " ++ "update && apt-get install -y --no-install-recommends ") := by decide
    show UnprivilegedLine ("RUN" :: words
      ("apt-get update && apt-get install -y --no-install-recommends " ++ joinWith " " packages ++
        " && rm -rf /var/lib/apt/lists/*"))
    rw [hprogram]
    simp only [String.append_assoc]
    rw [words_keyword (by decide) (by decide)]
    exact .of_program (by decide) _

-- ════════════════════════════════════════════════════════════════════════
-- Instructions about the user
-- ════════════════════════════════════════════════════════════════════════

/-- A text at the end of a line counts up to its line feed. -/
theorem unprivilegedIn_append_iff {before s : String} (hbefore : '\n' ∉ before.toList)
    (hs : '\n' ∉ (withoutFinalNewline s).toList) :
    UnprivilegedIn (before ++ s) ↔ UnprivilegedLine (words (before ++ withoutFinalNewline s)) := by
  have hline : '\n' ∉ (before ++ withoutFinalNewline s).toList := by
    rw [mem_toList_append, not_or]
    exact ⟨hbefore, hs⟩
  rcases withoutFinalNewline_cases s with hsame | hends
  · rw [← hsame] at hline ⊢
    exact unprivilegedIn_iff_of_not_mem hline
  · have hlast : UnprivilegedLine (words (String.ofList [])) := unprivilegedLine_nil
    have hpieces : (before ++ s).toList =
        (before ++ withoutFinalNewline s).toList ++ '\n' :: [] := by
      conv_lhs => rw [hends]
      simp [String.toList_append]
    rw [UnprivilegedIn, hpieces, splitAtEach_append_cons hline, splitAtEach,
      List.forall_mem_cons, List.forall_mem_singleton, String.ofList_toList]
    exact and_iff_left hlast

theorem unprivilegedIn_user_iff {name : String} (h : isUserName name = true) :
    UnprivilegedIn (Instruction.user name).line ↔ withoutFinalNewline name ≠ "root" := by
  have hplain := PlainText.of_isUserName h
  have hshown := hplain.unspaced_withoutFinalNewline
  have hkeyword : ("USER " : String) = "USER" ++ " " := rfl
  rw [Instruction.line_user, unprivilegedIn_append_iff (by decide) hshown.newline_not_mem, hkeyword,
    String.append_assoc, words_keyword (by decide) (by decide),
    words_of_unspaced hshown hplain.withoutFinalNewline_ne,
    unprivilegedLine_user_iff]

/-- The line that adds a user, up to the shell. -/
def addUserStart : PackageManager → String
  | .apk => "RUN adduser -D -s"
  | .apt => "RUN useradd --create-home --shell"

theorem words_addUserStart (manager : PackageManager) :
    words (addUserStart manager) = addUserWords manager := by
  cases manager <;> decide +kernel

theorem addUserLine_eq (manager : PackageManager) (identity : Identity) :
    Instruction.addUserLine manager identity =
      addUserStart manager ++ " " ++ identity.shell ++ " " ++ identity.name := by
  cases manager with
  | apk =>
    have hstart : ("RUN adduser -D -s " : String) = "RUN adduser -D -s" ++ " " := by decide
    unfold Instruction.addUserLine addUserStart
    rw [hstart]
  | apt =>
    have hstart : ("RUN useradd --create-home --shell " : String) =
        "RUN useradd --create-home --shell" ++ " " := by decide
    unfold Instruction.addUserLine addUserStart
    rw [hstart]

/-- What the engine sees of a plain path starts with a slash. -/
theorem ne_of_isPlainPath {path other : String} (h : isPlainPath path = true)
    (hother : other.toList.head? ≠ some '/') : withoutFinalNewline path ≠ other := by
  rintro rfl
  rw [isPlainPath] at h
  split at h
  · next first rest hcs =>
    rw [withoutFinalNewline, String.toList_ofList, hcs] at hother
    exact hother rfl
  · cases h

/-- No further shell follows a path and one more word. -/
theorem argumentsOf_path {shell : String} (h : isPlainPath shell = true) {rest : List String}
    (hrest : rest.length ≤ 1) :
    argumentsOf shellOptions (withoutFinalNewline shell :: rest) = [] := by
  have hnot : withoutFinalNewline shell ∉ shellOptions := by
    rw [shellOptions, List.mem_cons, List.mem_singleton, not_or]
    exact ⟨ne_of_isPlainPath h (by decide), ne_of_isPlainPath h (by decide)⟩
  match rest, hrest with
  | [], _ => rfl
  | [name], _ =>
    rw [argumentsOf, if_neg hnot, argumentsOf]
    simp

theorem unprivilegedIn_addUser_iff {identity : Identity} (h : identity.WellFormed)
    (manager : PackageManager) :
    UnprivilegedIn (Instruction.addUser manager identity).line ↔
      ('\n' ∉ identity.shell.toList → withoutFinalNewline identity.name ≠ "root") ∧
        (Path.ofText (withoutFinalNewline identity.shell)).name ∉ Identity.interactiveShells := by
  have hpath := h.isPlainPath
  have hplain := PlainText.of_isUserName h.name
  have hshell := (PlainText.of_isPlainPath hpath).unspaced_withoutFinalNewline
  have hshellNe := (PlainText.of_isPlainPath hpath).withoutFinalNewline_ne
  have hname := hplain.unspaced_withoutFinalNewline
  have hstart : '\n' ∉ (addUserStart manager ++ " ").toList := by
    cases manager <;> decide +kernel
  have hbefore :
      '\n' ∉ (addUserStart manager ++ " " ++ withoutFinalNewline identity.shell).toList := by
    rw [mem_toList_append, not_or]
    exact ⟨hstart, hshell.newline_not_mem⟩
  have hwords : words (addUserStart manager ++ " " ++ withoutFinalNewline identity.shell) =
      addUserWords manager ++ [withoutFinalNewline identity.shell] := by
    rw [words_append_blank, words_addUserStart, words_of_unspaced hshell hshellNe]
  rw [Instruction.line_addUser, addUserLine_eq]
  rcases withoutFinalNewline_cases identity.shell with hsame | hends
  · have hargs : argumentsOf shellOptions
        [withoutFinalNewline identity.shell, withoutFinalNewline identity.name] = [] :=
      argumentsOf_path hpath (by simp)
    rw [← hsame] at hargs hbefore hwords hshell ⊢
    have hblank : '\n' ∉ (addUserStart manager ++ " " ++ identity.shell ++ " ").toList := by
      rw [mem_toList_append, not_or]
      exact ⟨hbefore, by decide⟩
    rw [unprivilegedIn_append_iff hblank hname.newline_not_mem, words_append_blank, hwords,
      words_of_unspaced hname hplain.withoutFinalNewline_ne, List.append_assoc,
      List.singleton_append, unprivilegedLine_addUser_iff manager hargs]
    simp [hshell.newline_not_mem]
  · -- the line ends behind the shell, and the name has one of its own
    have hsome : '\n' ∈ identity.shell.toList := by
      rw [hends, String.toList_append]
      exact List.mem_append_right _ (by decide)
    have hpieces : (addUserStart manager ++ " " ++ identity.shell ++ " " ++ identity.name).toList =
        (addUserStart manager ++ " " ++ withoutFinalNewline identity.shell).toList ++
          '\n' :: (" " ++ identity.name).toList := by
      conv_lhs => rw [hends]
      simp [String.toList_append]
    have hsecond : UnprivilegedIn (" " ++ identity.name) := by
      have hword : words (" " ++ withoutFinalNewline identity.name) =
          [withoutFinalNewline identity.name] := by
        rw [← String.empty_append (s := " "), words_append_blank,
          words_of_unspaced hname hplain.withoutFinalNewline_ne]
        rfl
      rw [unprivilegedIn_append_iff (by decide) hname.newline_not_mem, hword]
      exact unprivilegedLine_singleton _
    rw [UnprivilegedIn, hpieces, splitAtEach_append_cons hbefore, List.forall_mem_cons,
      String.ofList_toList, hwords,
      unprivilegedLine_addUser_iff manager (argumentsOf_path hpath (by simp))]
    have hroot : [withoutFinalNewline identity.shell].getLast? ≠ some "root" := by
      simpa using ne_of_isPlainPath hpath (by decide)
    constructor
    · rintro ⟨⟨-, hinteractive⟩, -⟩
      exact ⟨fun hnone => absurd hsome hnone, hinteractive⟩
    · rintro ⟨-, hinteractive⟩
      exact ⟨⟨hroot, hinteractive⟩, hsecond⟩

-- ════════════════════════════════════════════════════════════════════════
-- The final stage
-- ════════════════════════════════════════════════════════════════════════

end Dockerfile

/-- The same specification with another user. -/
def Spec.withIdentity (spec : Spec) (identity : Identity) : Spec :=
  { spec with final := { spec.final with identity } }

namespace Dockerfile

theorem withoutFinalNewline_ne_iff {name other : String} (hne : name ≠ other)
    (hother : withoutFinalNewline (other ++ "\n") = other) :
    withoutFinalNewline name ≠ other ↔ name ≠ other ++ "\n" := by
  constructor
  · rintro h rfl
    exact h hother
  · intro h heq
    rcases withoutFinalNewline_cases name with hsame | hends
    · exact hne (hsame.trans heq)
    · exact h (heq ▸ hends)

theorem unprivilegedIn_paragraph (base : BaseImage) {packages : List String}
    (h : ∀ instruction ∈ paragraph (base.install? packages), '\n' ∉ instruction.line.toList) :
    ∀ instruction ∈ paragraph (base.install? packages), UnprivilegedIn instruction.line := by
  intro instruction hmem
  rw [unprivilegedIn_iff_of_not_mem (h instruction hmem)]
  rw [BaseImage.install?] at hmem
  split at hmem
  · cases hmem
  · rw [paragraph, List.mem_cons, List.mem_singleton] at hmem
    rcases hmem with rfl | rfl
    · exact unprivilegedLine_install base.manager packages
    · exact unprivilegedLine_nil

/-- The final stage of an accepted specification, no other text of which holds a line feed, is
unprivileged unless a line feed hides the name of the privileged user or that of a shell. -/
theorem unprivileged_iff {spec : Spec} (hspec : spec.Accepted)
    (hlacks : (spec.withIdentity .standard).Lacks '\n') :
    Unprivileged (text spec.finalInstructions) ↔
      spec.final.identity.name ≠ "root\n" ∧
        (Path.ofText (withoutFinalNewline spec.final.identity.shell)).name ∉
          Identity.interactiveShells := by
  have hidentity := hspec.wellFormed.final.identity
  have hroot : withoutFinalNewline spec.final.identity.name ≠ "root" ↔
      spec.final.identity.name ≠ "root\n" :=
    withoutFinalNewline_ne_iff hidentity.unprivileged (by decide)
  have hlines := (not_mem_line_iff (Or.inl rfl) _).mpr (hlacks.openTexts_final (Or.inl rfl))
  have hblank : UnprivilegedIn Instruction.blank.line :=
    (unprivilegedIn_iff_of_not_mem (by decide)).mpr unprivilegedLine_nil
  rw [unprivileged_text_iff]
  simp only [Spec.withIdentity, Spec.finalInstructions, FinalStage.instructions, BaseImage.start,
    List.append_assoc, List.cons_append, List.nil_append, List.forall_mem_append,
    List.forall_mem_cons, List.forall_mem_map] at hlines ⊢
  obtain ⟨hstart, -, hinstall, -, -, -, hlabels, -, hcopy, -, hentry, -⟩ := hlines
  rw [unprivilegedIn_addUser_iff hidentity, unprivilegedIn_user_iff hidentity.name, hroot]
  constructor
  · rintro ⟨-, -, -, ⟨-, hshell⟩, hname, -⟩
    exact ⟨hname, hshell⟩
  · rintro ⟨hname, hshell⟩
    refine ⟨?_, hblank, ?_, ⟨fun _ => hname, hshell⟩, hname, hblank, ?_, ?_, ?_, hblank, ?_,
      by simp⟩
    · exact (unprivilegedIn_iff_of_not_mem hstart).mpr (.of_keyword (by simp [Instruction.keyword]))
    · exact unprivilegedIn_paragraph spec.final.base hinstall
    · intro binding hmem
      refine (unprivilegedIn_iff_of_not_mem (hlabels binding hmem)).mpr (.of_keyword ?_)
      simp [Instruction.keyword]
    · split
      · simp
      · rwa [List.forall_mem_singleton]
    · exact (unprivilegedIn_iff_of_not_mem hcopy).mpr (.of_keyword (by simp [Instruction.keyword]))
    · exact (unprivilegedIn_iff_of_not_mem hentry).mpr (.of_keyword (by simp [Instruction.keyword]))

theorem unprivileged_standard :
    Spec.standard.Accepted ∧ (Spec.standard.withIdentity .standard).Lacks '\n' ∧
      Unprivileged (text Spec.standard.finalInstructions) := by
  have hlacks : (Spec.standard.withIdentity .standard).Lacks '\n' :=
    Spec.lacks_standard (Or.inl rfl)
  refine ⟨Spec.accepted_standard, hlacks, ?_⟩
  exact (unprivileged_iff Spec.accepted_standard hlacks).mpr ⟨by decide, by decide +kernel⟩

/-- A user with the name of the privileged one and a line feed. -/
def hiddenRoot : Identity := ⟨"root\n", "/sbin/nologin"⟩

/-- The rules of the fields take the name for another one than that of the privileged user, and the
finished image runs as this user. -/
theorem not_unprivileged_of_newline :
    (Spec.standard.withIdentity hiddenRoot).Accepted ∧
      ["USER", "root"] ∈ wordLines (text (Spec.standard.withIdentity hiddenRoot).finalInstructions) ∧
      ¬ Unprivileged (text (Spec.standard.withIdentity hiddenRoot).finalInstructions) := by
  have haccepted : (Spec.standard.withIdentity hiddenRoot).Accepted :=
    Spec.accepted_of_parse (.obj [("final", .obj [("identity", .obj [("name", .str "root\n")])])])
      (by decide +kernel)
  have hmem : .user "root\n" ∈ (Spec.standard.withIdentity hiddenRoot).finalInstructions := by
    decide +kernel
  have hpiece : "USER root".toList ∈ splitAtEach '\n' (Instruction.user "root\n").line.toList := by
    decide
  have huser := words_mem_wordLines hmem hpiece
  refine ⟨haccepted, huser, fun h => ?_⟩
  have hline := h ["USER", "root"] huser
  exact (unprivilegedLine_user_iff "root").mp hline rfl

end Dockerfile

end TwoStage
