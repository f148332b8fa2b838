import TwoStage.Proofs.Schema
import TwoStage.Proofs.Spec.Accepted

/-!
# The language of configurations

Which configurations stand for a specification: those that conform to the schema and keep the rules
of the fields that they give. Conformance is told apart from the rules, since it decides which kind
of error a configuration of no specification meets.

## Main definitions

- `Verdict.Accepts` — a verdict that accepts, whatever the value
- `BaseImage.Rules` and those after it — the rules of the fields that a record gives
- `Spec.Rules` — those of a configuration

## Main statements

- `BaseImage.accepts_ofJson_iff` and those after it — the readers of records
- `Config.parse_language` — which configurations stand for a specification
- `Config.not_worded_of_longInteger` — a violation that cannot be worded
-/

namespace TwoStage

-- ════════════════════════════════════════════════════════════════════════
-- Accepting verdicts
-- ════════════════════════════════════════════════════════════════════════

/-- A verdict that accepts, whatever the value. -/
def Verdict.Accepts {α : Type} (x : Verdict α) : Prop := ∃ value, x = accepted value

section Accepting

open Verdict

variable {α β : Type} {name : String} {read : Json → Verdict α} {members : List (String × Json)}

theorem Verdict.accepts_map_iff {f : α → β} {x : Verdict α} : (f <$> x).Accepts ↔ x.Accepts := by
  constructor
  · rintro ⟨_, h⟩
    obtain ⟨value, hvalue, -⟩ := map_eq_accepted.mp h
    exact ⟨value, hvalue⟩
  · rintro ⟨value, h⟩
    exact ⟨f value, map_eq_accepted.mpr ⟨value, h, rfl⟩⟩

theorem Verdict.accepts_seq_iff {f : Verdict (α → β)} {x : Verdict α} :
    (f <*> x).Accepts ↔ f.Accepts ∧ x.Accepts := by
  constructor
  · rintro ⟨_, h⟩
    obtain ⟨g, value, hg, hvalue, -⟩ := seq_eq_accepted.mp h
    exact ⟨⟨g, hg⟩, value, hvalue⟩
  · rintro ⟨⟨g, hg⟩, value, hvalue⟩
    exact ⟨g value, seq_eq_accepted.mpr ⟨g, value, hg, hvalue, rfl⟩⟩

/-- A field that may be left out asks of a member what its reader asks. -/
theorem Read.accepts_optional_iff (usual : α) {P : Json → Prop}
    (h : ∀ inner, members.lookup name = some inner → ((read inner).Accepts ↔ P inner)) :
    (optional name usual read members).Accepts ↔ (Json.obj members).Given name P := by
  rw [optional]
  cases hlookup : members.lookup name with
  | none => exact iff_of_true ⟨usual, rfl⟩ (Json.given_obj_of_none hlookup)
  | some inner =>
    rw [Json.given_obj_of_some hlookup, ← h inner hlookup]
    exact exists_congr fun _ => within_eq_accepted

/-- A field that is there asks of its member what its reader asks. -/
theorem Read.accepts_required_iff {P : Json → Prop}
    (hthere : ∃ inner, members.lookup name = some inner)
    (h : ∀ inner, members.lookup name = some inner → ((read inner).Accepts ↔ P inner)) :
    (required name read members).Accepts ↔ (Json.obj members).Given name P := by
  obtain ⟨inner, hlookup⟩ := hthere
  rw [Json.given_obj_of_some hlookup, ← h inner hlookup, required, hlookup]
  exact exists_congr fun _ => within_eq_accepted

/-- A field of which the reader accepts all that can be given. -/
theorem Read.accepts_optional (usual : α)
    (h : ∀ inner, members.lookup name = some inner → (read inner).Accepts) :
    (optional name usual read members).Accepts :=
  (accepts_optional_iff usual fun inner hinner => iff_of_true (h inner hinner) trivial).mpr
    fun _ _ => trivial

theorem Read.accepts_required (hthere : ∃ inner, members.lookup name = some inner)
    (h : ∀ inner, members.lookup name = some inner → (read inner).Accepts) :
    (required name read members).Accepts :=
  (accepts_required_iff hthere fun inner hinner => iff_of_true (h inner hinner) trivial).mpr
    fun _ _ => trivial

end Accepting

-- ════════════════════════════════════════════════════════════════════════
-- Values by kind
-- ════════════════════════════════════════════════════════════════════════

section Values

variable {json : Json} {rules : List TextRule}

theorem Read.accepts_text (h : Schema.Conforms (.text false rules) json) : (text json).Accepts := by
  obtain ⟨s, rfl, -⟩ := h.exists_text
  exact ⟨s, rfl⟩

theorem Read.accepts_nullableText (h : Schema.Conforms (.text true rules) json) :
    (nullable text json).Accepts := by
  rcases h.null_or_text with rfl | ⟨s, rfl, -⟩
  · exact ⟨none, rfl⟩
  · exact ⟨some s, rfl⟩

theorem Read.accepts_flag (h : Schema.Conforms .flag json) : (flag json).Accepts := by
  obtain ⟨b, rfl⟩ := h.exists_flag
  exact ⟨b, rfl⟩

/-- An integer of any size that is not negative is a count. -/
theorem Read.accepts_count (h : Schema.Conforms .count json) (hintegral : json.Integral) :
    (count json).Accepts := by
  cases h with
  | @count n h =>
    obtain ⟨size, rfl⟩ := Int.eq_ofNat_of_zero_le h
    exact ⟨size, rfl⟩
  | wholeCount hx h => cases hintegral

theorem Read.accepts_texts {nonEmpty : Bool}
    (h : Schema.Conforms (.list nonEmpty (.text false rules)) json) :
    (list text json).Accepts := by
  obtain ⟨texts, rfl, -⟩ := h.exists_texts
  exact ⟨texts, textList_eq_accepted_iff.mpr rfl⟩

theorem Read.accepts_table (h : Schema.Conforms .table json) : (textTable json).Accepts := by
  obtain ⟨bindings, rfl⟩ := h.exists_table
  exact ⟨bindings, textTable_eq_accepted_iff.mpr rfl⟩

theorem PackageManager.accepts_nullable (h : Schema.Conforms (.choice ["apk", "apt"]) json) :
    (Read.nullable ofJson json).Accepts := by
  rcases h.null_or_choice with rfl | ⟨s, hs, rfl⟩
  · exact ⟨none, rfl⟩
  · simp only [List.mem_cons, List.not_mem_nil, or_false] at hs
    rcases hs with rfl | rfl
    · exact ⟨some .apk, rfl⟩
    · exact ⟨some .apt, rfl⟩

end Values

-- ════════════════════════════════════════════════════════════════════════
-- Rules
-- ════════════════════════════════════════════════════════════════════════

/-- The tag of a base image is not blank and pins a version; the digest is one throughout. -/
structure BaseImage.Rules (json : Json) : Prop where
  tag : json.Given "tag" (Json.OnText fun tag => strip tag ≠ "" ∧ strip tag ≠ "latest")
  digest : json.Given "digest" (Json.OnText fun digest => digest.toList ∈ digests)

/-- The packages of a set have names of packages. -/
def PackageSet.Rules (json : Json) : Prop :=
  json.Given "packages" (Json.OnTexts fun name => name.toList ∈ packageNames)

/-- The paths of sources are relative, never go up and name something below the root. -/
def SourceInput.Rules (json : Json) : Prop :=
  json.Given "paths" (Json.OnTexts fun path =>
    (Path.ofText path).isAbsolute = false ∧ ".." ∉ (Path.ofText path).parts ∧
      (Path.ofText path).parts ≠ [])

/-- Extra variables have names of variables, and values on one line. -/
def BuildEnvironment.Rules (json : Json) : Prop :=
  json.Given "extra" (Json.OnTable fun name value =>
    name.toList ∈ variableNames ∧ '\n' ∉ value.toList ∧ '\r' ∉ value.toList)

/-- The user is unprivileged; its shell is a plain path that never goes up, and not interactive. -/
structure Identity.Rules (json : Json) : Prop where
  name : json.Given "name" (Json.OnText fun name => name ≠ "root" ∧ name.toList ∈ userNames)
  shell : json.Given "shell" (Json.OnText fun shell =>
    shell.toList ∈ plainPaths ∧ ".." ∉ Path.pieces shell ∧
      (Path.ofText shell).name ∉ interactiveShells)

/-- The program of an entrypoint is a plain path that does not end in a slash. -/
def Entrypoint.Rules (json : Json) : Prop :=
  json.Given "path" (Json.OnText fun path =>
    path.toList ∈ plainPaths ∧ path.toList.getLast? ≠ some '/')

/-- The rules of the fields that a build stage gives. -/
structure BuildStage.Rules (json : Json) : Prop where
  base : json.Given "base" BaseImage.Rules
  toolchain : json.Given "toolchain" PackageSet.Rules
  sources : json.Given "sources" SourceInput.Rules
  env : json.Given "env" BuildEnvironment.Rules
  installRoot : json.Given "install_root" (Json.OnText fun path => path.toList ∈ plainPaths)
  binary : json.Given "binary" (Json.OnText fun name => name.toList ∈ binaryNames)

/-- The rules of the fields that a final stage gives. -/
structure FinalStage.Rules (json : Json) : Prop where
  base : json.Given "base" BaseImage.Rules
  runtime : json.Given "runtime" PackageSet.Rules
  identity : json.Given "identity" Identity.Rules
  entrypoint : json.Given "entrypoint" Entrypoint.Rules

/-- The rules of a configuration; the names of the stages, given or usual, differ. -/
structure Spec.Rules (json : Json) : Prop where
  build : json.Given "build" BuildStage.Rules
  final : json.Given "final" FinalStage.Rules
  names : Json.textOr BuildStage.standard.name (json.at? ["build", "name"]) ≠
    Json.textOr FinalStage.standard.name (json.at? ["final", "name"])

-- ════════════════════════════════════════════════════════════════════════
-- Fields under a rule
-- ════════════════════════════════════════════════════════════════════════

section Rules

variable {json : Json} {rules : List TextRule}

/-- The reader of a text under a rule asks what the rule asks. -/
theorem accepts_ruledText_iff {read : Json → Verdict String} {P : String → Prop}
    (hread : ∀ {json s}, read json = .accepted s ↔ json = .str s ∧ P s)
    (h : Schema.Conforms (.text false rules) json) : (read json).Accepts ↔ json.OnText P := by
  obtain ⟨s, rfl, -⟩ := h.exists_text
  rw [Json.onText_str]
  constructor
  · rintro ⟨value, hvalue⟩
    obtain ⟨hsame, hrule⟩ := hread.mp hvalue
    cases hsame
    exact hrule
  · exact fun hrule => ⟨s, hread.mpr ⟨rfl, hrule⟩⟩

theorem BaseImage.accepts_tagOfJson_iff (h : Schema.Conforms (.text false rules) json) :
    (tagOfJson json).Accepts ↔
      json.OnText fun tag => strip tag ≠ "" ∧ strip tag ≠ "latest" := by
  obtain ⟨s, rfl, -⟩ := h.exists_text
  simp [Verdict.Accepts, tagOfJson_eq_accepted_iff]

theorem BaseImage.accepts_digestOfJson_iff (h : Schema.Conforms (.text true rules) json) :
    (digestOfJson json).Accepts ↔ json.OnText fun digest => digest.toList ∈ digests := by
  rcases h.null_or_text with rfl | ⟨s, rfl, -⟩
  · exact iff_of_true ⟨none, rfl⟩ nofun
  · rw [Json.onText_str, ← isDigestChars_iff]
    constructor
    · rintro ⟨digest, hdigest⟩
      obtain ⟨hsame, hrule⟩ := digestOfJson_eq_accepted_iff.mp hdigest
      cases digest with
      | none => cases hsame
      | some given =>
        cases hsame
        exact hrule s rfl
    · exact fun hrule =>
        ⟨some s, digestOfJson_eq_accepted_iff.mpr ⟨rfl, by simpa [isDigestText] using hrule⟩⟩

theorem PackageSet.accepts_packagesOfJson_iff {nonEmpty : Bool}
    (h : Schema.Conforms (.list nonEmpty (.text false rules)) json) :
    (packagesOfJson json).Accepts ↔ json.OnTexts fun name => name.toList ∈ packageNames := by
  obtain ⟨texts, rfl, -⟩ := h.exists_texts
  simp [Verdict.Accepts, packagesOfJson_eq_accepted_iff, Json.ofStrings_inj,
    Json.onTexts_ofStrings, isPackageName_iff]

theorem SourceInput.accepts_pathsOfJson_iff
    (h : Schema.Conforms (.list true (.text false rules)) json) :
    (pathsOfJson json).Accepts ↔ json.OnTexts fun path =>
      (Path.ofText path).isAbsolute = false ∧ ".." ∉ (Path.ofText path).parts ∧
        (Path.ofText path).parts ≠ [] := by
  obtain ⟨texts, rfl, hne, -⟩ := h.exists_texts
  simp [Verdict.Accepts, pathsOfJson_eq_accepted_iff, Json.ofStrings_inj, Json.onTexts_ofStrings,
    staysInside, hne rfl, and_assoc]

/-- The schema asks of a working directory what its rule asks. -/
theorem SourceInput.accepts_workdirOfJson
    (h : Schema.Conforms (.text false [.shape .absolute]) json) :
    (workdirOfJson json).Accepts := by
  obtain ⟨s, rfl, hrules⟩ := h.exists_text
  have habsolute : s.toList ∈ absolutePaths := hrules _ (List.mem_singleton_self _)
  exact ⟨s, workdirOfJson_eq_accepted_iff.mpr ⟨rfl, head?_eq_slash_iff.mpr habsolute⟩⟩

theorem BuildEnvironment.accepts_extraOfJson_iff (h : Schema.Conforms .table json) :
    (extraOfJson json).Accepts ↔ json.OnTable fun name value =>
      name.toList ∈ variableNames ∧ '\n' ∉ value.toList ∧ '\r' ∉ value.toList := by
  have hsingle : ∀ value : String,
      isSingleLine value = true ↔ '\n' ∉ value.toList ∧ '\r' ∉ value.toList := by
    intro value
    rw [isSingleLine, Bool.not_eq_true', List.any_eq_false]
    constructor
    · intro h
      exact ⟨fun hmem => h _ hmem rfl, fun hmem => h _ hmem rfl⟩
    · rintro ⟨hn, hr⟩ c hc
      rw [Bool.or_eq_true, decide_eq_true_eq, decide_eq_true_eq]
      rintro (rfl | rfl)
      · exact hn hc
      · exact hr hc
  obtain ⟨bindings, rfl⟩ := h.exists_table
  simp [Verdict.Accepts, extraOfJson_eq_accepted_iff, Json.ofBindings_inj,
    Json.onTable_ofBindings, isVariableName_iff, hsingle]

theorem Identity.accepts_nameOfJson_iff (h : Schema.Conforms (.text false rules) json) :
    (nameOfJson json).Accepts ↔
      json.OnText fun name => name ≠ "root" ∧ name.toList ∈ userNames := by
  simp only [accepts_ruledText_iff nameOfJson_eq_accepted_iff h, isUserName_iff]

theorem Identity.accepts_shellOfJson_iff (h : Schema.Conforms (.text false rules) json) :
    (shellOfJson json).Accepts ↔ json.OnText fun shell =>
      shell.toList ∈ plainPaths ∧ ".." ∉ Path.pieces shell ∧
        (Path.ofText shell).name ∉ interactiveShells := by
  simp only [accepts_ruledText_iff shellOfJson_eq_accepted_iff h, objectionToShell?_eq_none_iff,
    isPlainPath_iff]

theorem Entrypoint.accepts_pathOfJson_iff (h : Schema.Conforms (.text false rules) json) :
    (pathOfJson json).Accepts ↔ json.OnText fun path =>
      path.toList ∈ plainPaths ∧ path.toList.getLast? ≠ some '/' := by
  simp only [accepts_ruledText_iff pathOfJson_eq_accepted_iff h, isPlainPath_iff]

theorem BuildStage.accepts_installRootOfJson_iff (h : Schema.Conforms (.text false rules) json) :
    (installRootOfJson json).Accepts ↔ json.OnText fun path => path.toList ∈ plainPaths := by
  simp only [accepts_ruledText_iff installRootOfJson_eq_accepted_iff h, isPlainPath_iff]

theorem BuildStage.accepts_binaryOfJson_iff (h : Schema.Conforms (.text false rules) json) :
    (binaryOfJson json).Accepts ↔ json.OnText fun name => name.toList ∈ binaryNames := by
  simp only [accepts_ruledText_iff binaryOfJson_eq_accepted_iff h, isBinaryName_iff]

end Rules

-- ════════════════════════════════════════════════════════════════════════
-- Records
-- ════════════════════════════════════════════════════════════════════════

section Records

open Verdict

variable {json : Json}

theorem BaseImage.accepts_ofJson_iff (h : Schema.baseImage.Conforms json) :
    (ofJson json).Accepts ↔ Rules json := by
  obtain ⟨members, rfl, hrequired, -, hfields⟩ := h.exists_members
  simp only [List.forall_mem_cons] at hrequired hfields
  obtain ⟨hgivenImage, hgivenTag, -⟩ := hrequired
  obtain ⟨himage, htag, hdigest, hmanager, -⟩ := hfields
  have himage := Read.accepts_required hgivenImage fun inner hinner =>
    Read.accepts_text (himage inner hinner)
  have htag := Read.accepts_required_iff hgivenTag fun inner hinner =>
    accepts_tagOfJson_iff (htag inner hinner)
  have hdigest := Read.accepts_optional_iff none fun inner hinner =>
    accepts_digestOfJson_iff (hdigest inner hinner)
  have hmanager := Read.accepts_optional none fun inner hinner =>
    PackageManager.accepts_nullable (hmanager inner hinner)
  rw [ofJson, Read.record, ofMembers, accepts_seq_iff, accepts_seq_iff, accepts_seq_iff,
    accepts_map_iff, htag, hdigest]
  constructor
  · rintro ⟨⟨⟨-, htag⟩, hdigest⟩, -⟩
    exact ⟨htag, hdigest⟩
  · rintro ⟨htag, hdigest⟩
    exact ⟨⟨⟨himage, htag⟩, hdigest⟩, hmanager⟩

theorem PackageSet.accepts_ofJson_iff (h : Schema.packageSet.Conforms json) (kind : String)
    (default : PackageSet) : (ofJson kind default json).Accepts ↔ Rules json := by
  obtain ⟨members, rfl, -, -, hfields⟩ := h.exists_members
  simp only [List.forall_mem_cons] at hfields
  obtain ⟨hpackages, -⟩ := hfields
  rw [ofJson, Read.record, accepts_map_iff]
  exact Read.accepts_optional_iff default.packages fun inner hinner =>
    accepts_packagesOfJson_iff (hpackages inner hinner)

theorem SourceInput.accepts_ofJson_iff (h : Schema.sourceInput.Conforms json) :
    (ofJson json).Accepts ↔ Rules json := by
  obtain ⟨members, rfl, -, -, hfields⟩ := h.exists_members
  simp only [List.forall_mem_cons] at hfields
  obtain ⟨hpaths, hworkdir, -⟩ := hfields
  have hpaths := Read.accepts_optional_iff standard.paths fun inner hinner =>
    accepts_pathsOfJson_iff (hpaths inner hinner)
  have hworkdir := Read.accepts_optional standard.workdir fun inner hinner =>
    accepts_workdirOfJson (hworkdir inner hinner)
  rw [ofJson, Read.record, accepts_seq_iff, accepts_map_iff, hpaths]
  exact and_iff_left hworkdir

theorem BuildEnvironment.accepts_ofJson_iff (h : Schema.buildEnvironment.Conforms json)
    (hintegral : json.Integral) : (ofJson json).Accepts ↔ Rules json := by
  obtain ⟨members, rfl, -, -, hfields⟩ := h.exists_members
  simp only [List.forall_mem_cons] at hfields
  obtain ⟨hincremental, hnetRetry, hlinker, hstatic, hextra, -⟩ := hfields
  have hincremental := Read.accepts_optional standard.incremental fun inner hinner =>
    Read.accepts_flag (hincremental inner hinner)
  have hnetRetry := Read.accepts_optional standard.netRetry fun inner hinner =>
    Read.accepts_count (hnetRetry inner hinner) (hintegral.member hinner)
  have hlinker := Read.accepts_optional standard.linker fun inner hinner =>
    Read.accepts_nullableText (hlinker inner hinner)
  have hstatic := Read.accepts_optional standard.staticRuntime fun inner hinner =>
    Read.accepts_flag (hstatic inner hinner)
  have hextra := Read.accepts_optional_iff standard.extra fun inner hinner =>
    accepts_extraOfJson_iff (hextra inner hinner)
  rw [ofJson, Read.record, accepts_seq_iff, accepts_seq_iff, accepts_seq_iff, accepts_seq_iff,
    accepts_map_iff, hextra]
  exact and_iff_right ⟨⟨⟨hincremental, hnetRetry⟩, hlinker⟩, hstatic⟩

theorem Identity.accepts_ofJson_iff (h : Schema.identity.Conforms json) :
    (ofJson json).Accepts ↔ Rules json := by
  obtain ⟨members, rfl, -, -, hfields⟩ := h.exists_members
  simp only [List.forall_mem_cons] at hfields
  obtain ⟨hname, hshell, -⟩ := hfields
  have hname := Read.accepts_optional_iff standard.name fun inner hinner =>
    accepts_nameOfJson_iff (hname inner hinner)
  have hshell := Read.accepts_optional_iff standard.shell fun inner hinner =>
    accepts_shellOfJson_iff (hshell inner hinner)
  rw [ofJson, Read.record, accepts_seq_iff, accepts_map_iff, hname, hshell]
  constructor
  · rintro ⟨hname, hshell⟩
    exact ⟨hname, hshell⟩
  · rintro ⟨hname, hshell⟩
    exact ⟨hname, hshell⟩

theorem Entrypoint.accepts_ofJson_iff (h : Schema.entrypoint.Conforms json) :
    (ofJson json).Accepts ↔ Rules json := by
  obtain ⟨members, rfl, -, -, hfields⟩ := h.exists_members
  simp only [List.forall_mem_cons] at hfields
  obtain ⟨hpath, -⟩ := hfields
  rw [ofJson, Read.record, accepts_map_iff]
  exact Read.accepts_optional_iff standard.path fun inner hinner =>
    accepts_pathOfJson_iff (hpath inner hinner)

theorem BuildStage.accepts_ofJson_iff (h : Schema.buildStage.Conforms json)
    (hintegral : json.Integral) : (ofJson json).Accepts ↔ Rules json := by
  obtain ⟨members, rfl, -, -, hfields⟩ := h.exists_members
  simp only [List.forall_mem_cons] at hfields
  obtain ⟨hname, hbase, htoolchain, hsources, henv, hcommand, hroot, hbinary, -⟩ := hfields
  have hname := Read.accepts_optional standard.name fun inner hinner =>
    Read.accepts_text (hname inner hinner)
  have hbase := Read.accepts_optional_iff standard.base fun inner hinner =>
    BaseImage.accepts_ofJson_iff (hbase inner hinner)
  have htoolchain := Read.accepts_optional_iff standard.toolchain fun inner hinner =>
    PackageSet.accepts_ofJson_iff (htoolchain inner hinner) "ToolchainDependencySet" .toolchain
  have hsources := Read.accepts_optional_iff standard.sources fun inner hinner =>
    SourceInput.accepts_ofJson_iff (hsources inner hinner)
  have henv := Read.accepts_optional_iff standard.env fun inner hinner =>
    BuildEnvironment.accepts_ofJson_iff (henv inner hinner) (hintegral.member hinner)
  have hcommand := Read.accepts_optional standard.command fun inner hinner =>
    Read.accepts_texts (hcommand inner hinner)
  have hroot := Read.accepts_optional_iff standard.installRoot fun inner hinner =>
    accepts_installRootOfJson_iff (hroot inner hinner)
  have hbinary := Read.accepts_optional_iff standard.binary fun inner hinner =>
    accepts_binaryOfJson_iff (hbinary inner hinner)
  simp only [ofJson, Read.record, accepts_seq_iff, accepts_map_iff]
  rw [hbase, htoolchain, hsources, henv, hroot, hbinary]
  constructor
  · rintro ⟨⟨⟨⟨⟨⟨⟨-, hbase⟩, htoolchain⟩, hsources⟩, henv⟩, -⟩, hroot⟩, hbinary⟩
    exact ⟨hbase, htoolchain, hsources, henv, hroot, hbinary⟩
  · rintro ⟨hbase, htoolchain, hsources, henv, hroot, hbinary⟩
    exact ⟨⟨⟨⟨⟨⟨⟨hname, hbase⟩, htoolchain⟩, hsources⟩, henv⟩, hcommand⟩, hroot⟩, hbinary⟩

theorem FinalStage.accepts_ofJson_iff (h : Schema.finalStage.Conforms json) :
    (ofJson json).Accepts ↔ Rules json := by
  obtain ⟨members, rfl, -, -, hfields⟩ := h.exists_members
  simp only [List.forall_mem_cons] at hfields
  obtain ⟨hname, hbase, hruntime, hidentity, hentrypoint, -⟩ := hfields
  have hname := Read.accepts_optional standard.name fun inner hinner =>
    Read.accepts_text (hname inner hinner)
  have hbase := Read.accepts_optional_iff standard.base fun inner hinner =>
    BaseImage.accepts_ofJson_iff (hbase inner hinner)
  have hruntime := Read.accepts_optional_iff standard.runtime fun inner hinner =>
    PackageSet.accepts_ofJson_iff (hruntime inner hinner) "RuntimeDependencySet" .runtime
  have hidentity := Read.accepts_optional_iff standard.identity fun inner hinner =>
    Identity.accepts_ofJson_iff (hidentity inner hinner)
  have hentrypoint := Read.accepts_optional_iff standard.entrypoint fun inner hinner =>
    Entrypoint.accepts_ofJson_iff (hentrypoint inner hinner)
  simp only [ofJson, Read.record, accepts_seq_iff, accepts_map_iff]
  rw [hbase, hruntime, hidentity, hentrypoint]
  constructor
  · rintro ⟨⟨⟨⟨-, hbase⟩, hruntime⟩, hidentity⟩, hentrypoint⟩
    exact ⟨hbase, hruntime, hidentity, hentrypoint⟩
  · rintro ⟨hbase, hruntime, hidentity, hentrypoint⟩
    exact ⟨⟨⟨⟨hname, hbase⟩, hruntime⟩, hidentity⟩, hentrypoint⟩

/-- A field for a text has the text that is given, or the usual one. -/
theorem Read.eq_textOr_of_optional {name usual s : String} {members : List (String × Json)}
    (h : optional name usual text members = .accepted s) :
    s = Json.textOr usual (members.lookup name) := by
  rcases optional_eq_accepted_iff.mp h with ⟨hnone, rfl⟩ | ⟨inner, hsome, hinner⟩
  · rw [hnone]
    rfl
  · rw [hsome, text_eq_accepted_iff.mp hinner, Json.textOr]

/-- The name of a stage is the one given in the configuration, or the usual one. -/
theorem BuildStage.name_eq_of_optional {members : List (String × Json)} {stage : BuildStage}
    (h : Read.optional "build" standard ofJson members = .accepted stage) :
    stage.name = Json.textOr standard.name ((Json.obj members).at? ["build", "name"]) := by
  rcases Read.optional_eq_accepted_iff.mp h with ⟨hnone, rfl⟩ | ⟨inner, hsome, hinner⟩
  · rw [Json.at?_obj_of_none hnone]
    rfl
  · obtain ⟨inside, rfl, hname, -⟩ := ofJson_eq_accepted_iff.mp hinner
    rw [Json.at?_obj_of_some hsome, Json.at?_singleton]
    exact Read.eq_textOr_of_optional hname

theorem FinalStage.name_eq_of_optional {members : List (String × Json)} {stage : FinalStage}
    (h : Read.optional "final" standard ofJson members = .accepted stage) :
    stage.name = Json.textOr standard.name ((Json.obj members).at? ["final", "name"]) := by
  rcases Read.optional_eq_accepted_iff.mp h with ⟨hnone, rfl⟩ | ⟨inner, hsome, hinner⟩
  · rw [Json.at?_obj_of_none hnone]
    rfl
  · obtain ⟨inside, rfl, hname, -⟩ := ofJson_eq_accepted_iff.mp hinner
    rw [Json.at?_obj_of_some hsome, Json.at?_singleton]
    exact Read.eq_textOr_of_optional hname

theorem Spec.accepts_ofJson_iff (h : Schema.pipeline.Conforms json) (hintegral : json.Integral) :
    (ofJson json).Accepts ↔ Rules json := by
  obtain ⟨members, rfl, -, -, hfields⟩ := h.exists_members
  simp only [List.forall_mem_cons] at hfields
  obtain ⟨-, himage, hlabels, hbuild, hfinal, -⟩ := hfields
  have himage := Read.accepts_optional standard.image fun inner hinner =>
    Read.accepts_text (himage inner hinner)
  have hlabels := Read.accepts_optional standard.labels fun inner hinner =>
    Read.accepts_table (hlabels inner hinner)
  have hbuild := Read.accepts_optional_iff standard.build fun inner hinner =>
    BuildStage.accepts_ofJson_iff (hbuild inner hinner) (hintegral.member hinner)
  have hfinal := Read.accepts_optional_iff standard.final fun inner hinner =>
    FinalStage.accepts_ofJson_iff (hfinal inner hinner)
  constructor
  · rintro ⟨spec, hspec⟩
    obtain ⟨hnames, _, ⟨rfl⟩, -, -, hbuildRead, hfinalRead⟩ := ofJson_eq_accepted_iff.mp hspec
    refine ⟨hbuild.mp ⟨_, hbuildRead⟩, hfinal.mp ⟨_, hfinalRead⟩, ?_⟩
    rwa [← BuildStage.name_eq_of_optional hbuildRead, ← FinalStage.name_eq_of_optional hfinalRead]
  · rintro ⟨hbuildRules, hfinalRules, hnames⟩
    obtain ⟨image, himageRead⟩ := himage
    obtain ⟨labels, hlabelsRead⟩ := hlabels
    obtain ⟨build, hbuildRead⟩ := hbuild.mpr hbuildRules
    obtain ⟨final, hfinalRead⟩ := hfinal.mpr hfinalRules
    rw [← BuildStage.name_eq_of_optional hbuildRead,
      ← FinalStage.name_eq_of_optional hfinalRead] at hnames
    exact ⟨⟨image, labels, build, final⟩, ofJson_eq_accepted_iff.mpr
      ⟨hnames, members, rfl, himageRead, hlabelsRead, hbuildRead, hfinalRead⟩⟩

end Records

-- ════════════════════════════════════════════════════════════════════════
-- The language
-- ════════════════════════════════════════════════════════════════════════

/-- Among the configurations without fractions, those that conform to the schema and keep the rules
stand for a specification, and no others do. Of the others, those that conform are refused for what
the readers found, and the rest for the first violation of the schema, if that can be worded. It
always can, unless an integer in the configuration is too long to be written. -/
theorem Config.parse_language {value : Json} (h : value.Integral) :
    ((∃ spec, parse value = .ok spec) ↔ Schema.pipeline.Conforms value ∧ Spec.Rules value) ∧
      (Schema.pipeline.Conforms value → ¬Spec.Rules value →
        ∃ found, parse value = .error (.faults found)) ∧
      (¬Schema.pipeline.Conforms value →
        ∃ place what, Schema.pipeline.violation? value = some (place, what) ∧
          parse value =
            .error (if what.isShowable then .violation place what else .longInteger)) ∧
      (value.isShowable = true → parse value ≠ .error .longInteger) := by
  refine ⟨?_, fun hconforms hbroken => ?_, parse_of_not_conforms, parse_ne_longInteger⟩
  · simp only [parse_eq_ok_iff, exists_and_left]
    exact and_congr_right fun hconforms => Spec.accepts_ofJson_iff hconforms h
  · rw [← Spec.accepts_ofJson_iff hconforms h] at hbroken
    cases hread : Spec.ofJson value with
    | accepted spec => exact absurd ⟨spec, hread⟩ hbroken
    | refused found => exact ⟨found, parse_of_refused hconforms hread⟩

theorem Config.conforms_and_keeps_rules_sample :
    Schema.pipeline.Conforms sample ∧ Spec.Rules sample := by
  have hintegral : sample.Integral := by
    simp [sample, Json.integral_obj_iff, Json.Integral.str, Json.Integral.int]
  exact (parse_language hintegral).1.mp ⟨sampleSpec, parse_sample⟩

/-- A configuration with an image that is no text, but an integer. -/
def Config.numbered (n : Nat) : Json := .obj [("image", .int n)]

/-- Such a configuration breaks the schema. If its integer is too long to be written, it is refused
for no violation. -/
theorem Config.parse_numbered {n : Nat} (h : 10 ^ Json.integerDigitLimit ≤ n) :
    (numbered n).Integral ∧ ¬Schema.pipeline.Conforms (numbered n) ∧
      parse (numbered n) = .error .longInteger := by
  have hviolation : Schema.pipeline.violation? (numbered n) =
      some ([.member "image"], .kind (.int n) ["string"]) := by
    simp [Schema.pipeline, numbered, Schema.violation?, Schema.strayNames, Schema.inFields,
      Schema.name, List.lookup_cons]
  have hlong : Json.isWritable n = false := Json.isWritable_eq_false_iff.mpr h
  refine ⟨?_, fun hconforms => ?_, ?_⟩
  · simp [numbered, Json.integral_obj_iff, Json.Integral.int]
  · rw [← Schema.violation?_eq_none_iff, hviolation] at hconforms
    cases hconforms
  · rw [parse, validate, hviolation]
    simp only [Violation.isShowable, Json.isShowable, hlong, Bool.false_eq_true, if_false]

/-- The least integer of too many digits. -/
theorem Config.not_worded_of_longInteger :
    (numbered (10 ^ Json.integerDigitLimit)).Integral ∧
      ¬Schema.pipeline.Conforms (numbered (10 ^ Json.integerDigitLimit)) ∧
      parse (numbered (10 ^ Json.integerDigitLimit)) = .error .longInteger :=
  parse_numbered le_rfl

end TwoStage
