import TwoStage.Config

/-!
# Readers and what they accept

For each reader, the values that it accepts and what it makes of them. Most readers take a value
only in the form in which it is written, so that reading and writing are inverse to each other; a
tag loses the blanks around it. A record is accepted where each of its fields is, and a field that
is left out has its usual value.

## Main statements

- `Verdict.seq_eq_accepted`, `Verdict.subjectTo_eq_accepted` — how verdicts are accepted
- `Read.optional_eq_accepted_iff`, `Read.required_eq_accepted_iff` — the fields of a record
- `Read.text_eq_accepted_iff` and those after it — values by kind
- `Spec.ofJson_eq_accepted_iff` and those before it — the records, field by field
-/

namespace TwoStage

-- ════════════════════════════════════════════════════════════════════════
-- Verdicts
-- ════════════════════════════════════════════════════════════════════════

namespace Verdict

variable {α β : Type}

theorem map_eq_accepted {f : α → β} {x : Verdict α} {result : β} :
    f <$> x = accepted result ↔ ∃ value, x = accepted value ∧ f value = result := by
  show map f x = accepted result ↔ _
  cases x with
  | accepted value => simp [map]
  | refused faults => simp [map]

/-- Two verdicts together are accepted where both are. -/
theorem seq_eq_accepted {f : Verdict (α → β)} {x : Verdict α} {result : β} :
    f <*> x = accepted result ↔
      ∃ g value, f = accepted g ∧ x = accepted value ∧ g value = result := by
  show ap f x = accepted result ↔ _
  cases f with
  | accepted g => cases x <;> simp [ap]
  | refused faults => cases x <;> simp [ap]

theorem within_eq_accepted {step : Step} {x : Verdict α} {value : α} :
    x.within step = accepted value ↔ x = accepted value := by
  cases x <;> simp [within]

/-- A value under a rule is accepted where the rule does not object to it. -/
theorem subjectTo_eq_accepted {x : Verdict α} {rule : α → Option Objection} {value : α} :
    x.subjectTo rule = accepted value ↔ x = accepted value ∧ rule value = none := by
  cases x with
  | refused faults => simp [subjectTo, andThen]
  | accepted given =>
    simp only [subjectTo, andThen, accepted.injEq]
    cases hrule : rule given with
    | none =>
      constructor
      · rintro ⟨rfl⟩
        exact ⟨rfl, hrule⟩
      · rintro ⟨rfl, -⟩
        rfl
    | some why =>
      constructor
      · intro h
        cases h
      · rintro ⟨rfl, hnone⟩
        rw [hrule] at hnone
        cases hnone

end Verdict

-- ════════════════════════════════════════════════════════════════════════
-- Fields and values by kind
-- ════════════════════════════════════════════════════════════════════════

namespace Read

variable {α : Type} {name : String} {read : Json → Verdict α} {write : α → Json}
  {members : List (String × Json)} {json : Json}

/-- A field that may be left out has its usual value or one that was read. -/
theorem optional_eq_accepted_iff {usual value : α} :
    optional name usual read members = .accepted value ↔
      (members.lookup name = none ∧ value = usual) ∨
        ∃ json, members.lookup name = some json ∧ read json = .accepted value := by
  rw [optional]
  cases members.lookup name with
  | none => simp [eq_comm]
  | some json => simp [Verdict.within_eq_accepted]

theorem optional_eq_accepted {usual value : α}
    (h : optional name usual read members = .accepted value) :
    value = usual ∨ ∃ json, read json = .accepted value := by
  rcases optional_eq_accepted_iff.mp h with ⟨-, husual⟩ | ⟨json, -, hjson⟩
  · exact Or.inl husual
  · exact Or.inr ⟨json, hjson⟩

theorem required_eq_accepted_iff {value : α} :
    required name read members = .accepted value ↔
      ∃ json, members.lookup name = some json ∧ read json = .accepted value := by
  rw [required]
  cases members.lookup name with
  | none => simp [Verdict.within_eq_accepted, Verdict.problem]
  | some json => simp [Verdict.within_eq_accepted]

theorem record_eq_accepted_iff {kind : String} {read : List (String × Json) → Verdict α}
    {value : α} :
    record kind read json = .accepted value ↔
      ∃ members, json = .obj members ∧ read members = .accepted value := by
  cases json <;> simp [record, Verdict.problem]

theorem text_eq_accepted_iff {s : String} : text json = .accepted s ↔ json = .str s := by
  cases json <;> simp [text, Verdict.problem]

/-- What may be null is read where it is written, if nothing else is written as null. -/
theorem nullable_eq_accepted_iff
    (hread : ∀ {json value}, read json = .accepted value ↔ json = write value)
    (hnull : ∀ value, write value ≠ .null) {value : Option α} :
    nullable read json = .accepted value ↔ json = value.elim .null write := by
  have hmap : ∀ given : Json, (read given).map some = .accepted value ↔
      ∃ found, given = write found ∧ some found = value := by
    intro given
    show some <$> read given = .accepted value ↔ _
    simp only [Verdict.map_eq_accepted, hread]
  cases json with
  | null =>
    cases value with
    | none => exact iff_of_true rfl rfl
    | some found => exact iff_of_false nofun (Ne.symm (hnull found))
  | _ =>
    rw [nullable, hmap]
    · cases value <;> simp
    · exact nofun

theorem items_eq_accepted_iff
    (hread : ∀ {json value}, read json = .accepted value ↔ json = write value)
    {items : List Json} {index : Nat} {values : List α} :
    Read.items read index items = .accepted values ↔ items = values.map write := by
  induction items generalizing index values with
  | nil =>
    cases values <;> simp [Read.items]
  | cons item rest ih =>
    simp only [Read.items, Verdict.seq_eq_accepted, Verdict.map_eq_accepted,
      Verdict.within_eq_accepted, hread, ih]
    constructor
    · rintro ⟨_, _, ⟨value, rfl, rfl⟩, rfl, rfl⟩
      rfl
    · intro h
      cases values with
      | nil => cases h
      | cons value values =>
        rw [List.map_cons, List.cons.injEq] at h
        exact ⟨_, values, ⟨value, h.1, rfl⟩, h.2, rfl⟩

theorem textList_eq_accepted_iff {texts : List String} :
    list text json = .accepted texts ↔ json = .ofStrings texts := by
  cases json with
  | arr items => simp [list, items_eq_accepted_iff text_eq_accepted_iff, Json.ofStrings]
  | _ => exact iff_of_false nofun nofun

theorem bindings_eq_accepted_iff
    (hread : ∀ {json value}, read json = .accepted value ↔ json = write value)
    {found : Bindings α} :
    bindings read members = .accepted found ↔ members = found.map fun (k, v) => (k, write v) := by
  induction members generalizing found with
  | nil =>
    cases found <;> simp [bindings]
  | cons member rest ih =>
    obtain ⟨name, given⟩ := member
    simp only [bindings, Verdict.seq_eq_accepted, Verdict.map_eq_accepted,
      Verdict.within_eq_accepted, hread, ih]
    constructor
    · rintro ⟨_, _, ⟨value, rfl, rfl⟩, rfl, rfl⟩
      rfl
    · intro h
      cases found with
      | nil => cases h
      | cons binding found =>
        rw [List.map_cons, List.cons.injEq, Prod.mk.injEq] at h
        obtain ⟨⟨rfl, hvalue⟩, hrest⟩ := h
        exact ⟨_, found, ⟨binding.2, hvalue, rfl⟩, hrest, rfl⟩

theorem textTable_eq_accepted_iff {table : Bindings String} :
    textTable json = .accepted table ↔ json = .ofBindings table := by
  cases json with
  | obj members =>
    rw [textTable, bindings_eq_accepted_iff text_eq_accepted_iff, Json.ofBindings, Json.obj.injEq]
  | _ => exact iff_of_false nofun nofun

theorem nullableText_eq_accepted_iff {value : Option String} :
    nullable text json = .accepted value ↔ json = value.elim .null .str :=
  nullable_eq_accepted_iff text_eq_accepted_iff nofun

end Read

-- ════════════════════════════════════════════════════════════════════════
-- Fields under a rule
-- ════════════════════════════════════════════════════════════════════════

section Rules

variable {json : Json} {s : String}

/-- No item of a list is objected to. -/
theorem map_find?_eq_none_iff {α : Type} {p : α → Bool} {object : α → Objection} {values : List α} :
    (values.find? fun value => !p value).map object = none ↔
      ∀ value ∈ values, p value = true := by
  simp

theorem PackageManager.ofJson_eq_accepted_iff {manager : PackageManager} :
    ofJson json = .accepted manager ↔ json = .str manager.name := by
  cases json with
  | str s =>
    rw [ofJson]
    by_cases hapk : s = "apk"
    · subst hapk
      cases manager <;> simp [name]
    · rw [if_neg hapk]
      by_cases hapt : s = "apt"
      · subst hapt
        cases manager <;> simp [name]
      · rw [if_neg hapt]
        cases manager <;> simp [name, hapk, hapt, Verdict.problem]
  | _ => exact iff_of_false nofun nofun

theorem PackageManager.nullable_eq_accepted_iff {manager : Option PackageManager} :
    Read.nullable ofJson json = .accepted manager ↔
      json = manager.elim .null fun manager => .str manager.name :=
  Read.nullable_eq_accepted_iff ofJson_eq_accepted_iff nofun

theorem BaseImage.tagOfJson_eq_accepted_iff :
    tagOfJson json = .accepted s ↔
      (∃ given, json = .str given ∧ s = strip given) ∧ s ≠ "" ∧ s ≠ "latest" := by
  have hmap : (Read.text json).map strip = .accepted s ↔
      ∃ given, json = .str given ∧ s = strip given := by
    show strip <$> Read.text json = .accepted s ↔ _
    simp only [Verdict.map_eq_accepted, Read.text_eq_accepted_iff, eq_comm]
  rw [tagOfJson, Verdict.subjectTo_eq_accepted, hmap]
  simp

theorem BaseImage.digestOfJson_eq_accepted_iff {digest : Option String} :
    digestOfJson json = .accepted digest ↔
      json = digest.elim .null .str ∧ ∀ given ∈ digest, isDigestText given = true := by
  rw [digestOfJson, Verdict.subjectTo_eq_accepted, Read.nullableText_eq_accepted_iff]
  cases digest <;> simp

theorem PackageSet.packagesOfJson_eq_accepted_iff {names : List String} :
    packagesOfJson json = .accepted names ↔
      json = .ofStrings names ∧ ∀ name ∈ names, isPackageName name = true := by
  rw [packagesOfJson, Verdict.subjectTo_eq_accepted, Read.textList_eq_accepted_iff,
    map_find?_eq_none_iff]

theorem SourceInput.pathsOfJson_eq_accepted_iff {paths : List String} :
    pathsOfJson json = .accepted paths ↔
      json = .ofStrings paths ∧ paths ≠ [] ∧ ∀ path ∈ paths, staysInside path = true := by
  rw [pathsOfJson, Verdict.subjectTo_eq_accepted, Read.textList_eq_accepted_iff]
  cases paths with
  | nil => simp
  | cons path rest =>
    rw [List.isEmpty_cons, if_neg Bool.false_ne_true, map_find?_eq_none_iff]
    simp

theorem SourceInput.workdirOfJson_eq_accepted_iff :
    workdirOfJson json = .accepted s ↔ json = .str s ∧ s.toList.head? = some '/' := by
  rw [workdirOfJson, Verdict.subjectTo_eq_accepted, Read.text_eq_accepted_iff]
  simp

theorem BuildEnvironment.objectionTo?_eq_none_iff {extra : Bindings String} :
    objectionTo? extra = none ↔
      ∀ binding ∈ extra, isVariableName binding.1 = true ∧ isSingleLine binding.2 = true := by
  induction extra with
  | nil => simp [objectionTo?]
  | cons binding rest ih =>
    obtain ⟨name, value⟩ := binding
    rw [objectionTo?, List.forall_mem_cons, ← ih]
    by_cases hname : isVariableName name = true
    · by_cases hvalue : isSingleLine value = true
      · simp [hname, hvalue]
      · simp [hname, hvalue]
    · simp [hname]

theorem BuildEnvironment.extraOfJson_eq_accepted_iff {extra : Bindings String} :
    extraOfJson json = .accepted extra ↔
      json = .ofBindings extra ∧
        ∀ binding ∈ extra, isVariableName binding.1 = true ∧ isSingleLine binding.2 = true := by
  rw [extraOfJson, Verdict.subjectTo_eq_accepted, Read.textTable_eq_accepted_iff,
    objectionTo?_eq_none_iff]

theorem Identity.nameOfJson_eq_accepted_iff :
    nameOfJson json = .accepted s ↔ json = .str s ∧ s ≠ "root" ∧ isUserName s = true := by
  rw [nameOfJson, Verdict.subjectTo_eq_accepted, Read.text_eq_accepted_iff]
  simp

theorem Identity.shellOfJson_eq_accepted_iff :
    shellOfJson json = .accepted s ↔ json = .str s ∧ objectionToShell? s = none := by
  rw [shellOfJson, Verdict.subjectTo_eq_accepted, Read.text_eq_accepted_iff]

theorem Identity.objectionToShell?_eq_none_iff :
    objectionToShell? s = none ↔
      isPlainPath s = true ∧ ".." ∉ Path.pieces s ∧ (Path.ofText s).name ∉ interactiveShells := by
  rw [objectionToShell?]
  by_cases hpath : isPlainPath s = true <;> by_cases hup : ".." ∈ Path.pieces s <;>
    simp [hpath, hup]

theorem Entrypoint.pathOfJson_eq_accepted_iff :
    pathOfJson json = .accepted s ↔
      json = .str s ∧ isPlainPath s = true ∧ s.toList.getLast? ≠ some '/' := by
  rw [pathOfJson, Verdict.subjectTo_eq_accepted, Read.text_eq_accepted_iff]
  simp

theorem BuildStage.installRootOfJson_eq_accepted_iff :
    installRootOfJson json = .accepted s ↔ json = .str s ∧ isPlainPath s = true := by
  rw [installRootOfJson, Verdict.subjectTo_eq_accepted, Read.text_eq_accepted_iff]
  simp

theorem BuildStage.binaryOfJson_eq_accepted_iff :
    binaryOfJson json = .accepted s ↔ json = .str s ∧ isBinaryName s = true := by
  rw [binaryOfJson, Verdict.subjectTo_eq_accepted, Read.text_eq_accepted_iff]
  simp

end Rules

-- ════════════════════════════════════════════════════════════════════════
-- Records
-- ════════════════════════════════════════════════════════════════════════

section Records

variable {json : Json}

theorem BaseImage.ofJson_eq_accepted_iff {base : BaseImage} :
    ofJson json = .accepted base ↔ ∃ members, json = .obj members ∧
      Read.required "image" Read.text members = .accepted base.image ∧
      Read.required "tag" tagOfJson members = .accepted base.tag ∧
      Read.optional "digest" none digestOfJson members = .accepted base.digest ∧
      Read.optional "package_manager" none (Read.nullable PackageManager.ofJson) members =
        .accepted base.packageManager := by
  simp only [ofJson, Read.record_eq_accepted_iff, ofMembers, Verdict.seq_eq_accepted,
    Verdict.map_eq_accepted]
  constructor
  · rintro ⟨members, rfl, _, _, ⟨_, _, ⟨_, _, ⟨_, himage, rfl⟩, htag, rfl⟩, hdigest, rfl⟩, hmanager,
      rfl⟩
    exact ⟨members, rfl, himage, htag, hdigest, hmanager⟩
  · rintro ⟨members, rfl, himage, htag, hdigest, hmanager⟩
    exact ⟨members, rfl, _, _, ⟨_, _, ⟨_, _, ⟨_, himage, rfl⟩, htag, rfl⟩, hdigest, rfl⟩, hmanager,
      rfl⟩

theorem PackageSet.ofJson_eq_accepted_iff {kind : String} {default set : PackageSet} :
    ofJson kind default json = .accepted set ↔ ∃ members, json = .obj members ∧
      Read.optional "packages" default.packages packagesOfJson members =
        .accepted set.packages := by
  simp only [ofJson, Read.record_eq_accepted_iff, Verdict.map_eq_accepted]
  constructor
  · rintro ⟨members, rfl, _, hpackages, rfl⟩
    exact ⟨members, rfl, hpackages⟩
  · rintro ⟨members, rfl, hpackages⟩
    exact ⟨members, rfl, _, hpackages, rfl⟩

theorem SourceInput.ofJson_eq_accepted_iff {sources : SourceInput} :
    ofJson json = .accepted sources ↔ ∃ members, json = .obj members ∧
      Read.optional "paths" standard.paths pathsOfJson members = .accepted sources.paths ∧
      Read.optional "workdir" standard.workdir workdirOfJson members =
        .accepted sources.workdir := by
  simp only [ofJson, Read.record_eq_accepted_iff, Verdict.seq_eq_accepted, Verdict.map_eq_accepted]
  constructor
  · rintro ⟨members, rfl, _, _, ⟨_, hpaths, rfl⟩, hworkdir, rfl⟩
    exact ⟨members, rfl, hpaths, hworkdir⟩
  · rintro ⟨members, rfl, hpaths, hworkdir⟩
    exact ⟨members, rfl, _, _, ⟨_, hpaths, rfl⟩, hworkdir, rfl⟩

theorem BuildEnvironment.ofJson_eq_accepted_iff {env : BuildEnvironment} :
    ofJson json = .accepted env ↔ ∃ members, json = .obj members ∧
      Read.optional "incremental" standard.incremental Read.flag members =
        .accepted env.incremental ∧
      Read.optional "net_retry" standard.netRetry Read.count members = .accepted env.netRetry ∧
      Read.optional "linker" standard.linker (Read.nullable Read.text) members =
        .accepted env.linker ∧
      Read.optional "crt_static" standard.staticRuntime Read.flag members =
        .accepted env.staticRuntime ∧
      Read.optional "extra" standard.extra extraOfJson members = .accepted env.extra := by
  simp only [ofJson, Read.record_eq_accepted_iff, Verdict.seq_eq_accepted, Verdict.map_eq_accepted]
  constructor
  · rintro ⟨members, rfl, _, _, ⟨_, _, ⟨_, _, ⟨_, _, ⟨_, hincremental, rfl⟩, hnetRetry, rfl⟩,
      hlinker, rfl⟩, hstatic, rfl⟩, hextra, rfl⟩
    exact ⟨members, rfl, hincremental, hnetRetry, hlinker, hstatic, hextra⟩
  · rintro ⟨members, rfl, hincremental, hnetRetry, hlinker, hstatic, hextra⟩
    exact ⟨members, rfl, _, _, ⟨_, _, ⟨_, _, ⟨_, _, ⟨_, hincremental, rfl⟩, hnetRetry, rfl⟩,
      hlinker, rfl⟩, hstatic, rfl⟩, hextra, rfl⟩

theorem Identity.ofJson_eq_accepted_iff {identity : Identity} :
    ofJson json = .accepted identity ↔ ∃ members, json = .obj members ∧
      Read.optional "name" standard.name nameOfJson members = .accepted identity.name ∧
      Read.optional "shell" standard.shell shellOfJson members = .accepted identity.shell := by
  simp only [ofJson, Read.record_eq_accepted_iff, Verdict.seq_eq_accepted, Verdict.map_eq_accepted]
  constructor
  · rintro ⟨members, rfl, _, _, ⟨_, hname, rfl⟩, hshell, rfl⟩
    exact ⟨members, rfl, hname, hshell⟩
  · rintro ⟨members, rfl, hname, hshell⟩
    exact ⟨members, rfl, _, _, ⟨_, hname, rfl⟩, hshell, rfl⟩

theorem Entrypoint.ofJson_eq_accepted_iff {entrypoint : Entrypoint} :
    ofJson json = .accepted entrypoint ↔ ∃ members, json = .obj members ∧
      Read.optional "path" standard.path pathOfJson members = .accepted entrypoint.path := by
  simp only [ofJson, Read.record_eq_accepted_iff, Verdict.map_eq_accepted]
  constructor
  · rintro ⟨members, rfl, _, hpath, rfl⟩
    exact ⟨members, rfl, hpath⟩
  · rintro ⟨members, rfl, hpath⟩
    exact ⟨members, rfl, _, hpath, rfl⟩

theorem BuildStage.ofJson_eq_accepted_iff {stage : BuildStage} :
    ofJson json = .accepted stage ↔ ∃ members, json = .obj members ∧
      Read.optional "name" standard.name Read.text members = .accepted stage.name ∧
      Read.optional "base" standard.base BaseImage.ofJson members = .accepted stage.base ∧
      Read.optional "toolchain" standard.toolchain
        (PackageSet.ofJson "ToolchainDependencySet" .toolchain) members =
        .accepted stage.toolchain ∧
      Read.optional "sources" standard.sources SourceInput.ofJson members =
        .accepted stage.sources ∧
      Read.optional "env" standard.env BuildEnvironment.ofJson members = .accepted stage.env ∧
      Read.optional "command" standard.command (Read.list Read.text) members =
        .accepted stage.command ∧
      Read.optional "install_root" standard.installRoot installRootOfJson members =
        .accepted stage.installRoot ∧
      Read.optional "binary" standard.binary binaryOfJson members = .accepted stage.binary := by
  simp only [ofJson, Read.record_eq_accepted_iff, Verdict.seq_eq_accepted, Verdict.map_eq_accepted]
  constructor
  · rintro ⟨members, rfl, _, _, ⟨_, _, ⟨_, _, ⟨_, _, ⟨_, _, ⟨_, _, ⟨_, _, ⟨_, hname, rfl⟩, hbase,
      rfl⟩, htoolchain, rfl⟩, hsources, rfl⟩, henv, rfl⟩, hcommand, rfl⟩, hroot, rfl⟩, hbinary, rfl⟩
    exact ⟨members, rfl, hname, hbase, htoolchain, hsources, henv, hcommand, hroot, hbinary⟩
  · rintro ⟨members, rfl, hname, hbase, htoolchain, hsources, henv, hcommand, hroot, hbinary⟩
    exact ⟨members, rfl, _, _, ⟨_, _, ⟨_, _, ⟨_, _, ⟨_, _, ⟨_, _, ⟨_, _, ⟨_, hname, rfl⟩, hbase,
      rfl⟩, htoolchain, rfl⟩, hsources, rfl⟩, henv, rfl⟩, hcommand, rfl⟩, hroot, rfl⟩, hbinary, rfl⟩

theorem FinalStage.ofJson_eq_accepted_iff {stage : FinalStage} :
    ofJson json = .accepted stage ↔ ∃ members, json = .obj members ∧
      Read.optional "name" standard.name Read.text members = .accepted stage.name ∧
      Read.optional "base" standard.base BaseImage.ofJson members = .accepted stage.base ∧
      Read.optional "runtime" standard.runtime
        (PackageSet.ofJson "RuntimeDependencySet" .runtime) members = .accepted stage.runtime ∧
      Read.optional "identity" standard.identity Identity.ofJson members =
        .accepted stage.identity ∧
      Read.optional "entrypoint" standard.entrypoint Entrypoint.ofJson members =
        .accepted stage.entrypoint := by
  simp only [ofJson, Read.record_eq_accepted_iff, Verdict.seq_eq_accepted, Verdict.map_eq_accepted]
  constructor
  · rintro ⟨members, rfl, _, _, ⟨_, _, ⟨_, _, ⟨_, _, ⟨_, hname, rfl⟩, hbase, rfl⟩, hruntime, rfl⟩,
      hidentity, rfl⟩, hentrypoint, rfl⟩
    exact ⟨members, rfl, hname, hbase, hruntime, hidentity, hentrypoint⟩
  · rintro ⟨members, rfl, hname, hbase, hruntime, hidentity, hentrypoint⟩
    exact ⟨members, rfl, _, _, ⟨_, _, ⟨_, _, ⟨_, _, ⟨_, hname, rfl⟩, hbase, rfl⟩, hruntime, rfl⟩,
      hidentity, rfl⟩, hentrypoint, rfl⟩

/-- A specification is accepted where each field is and its stages have different names. -/
theorem Spec.ofJson_eq_accepted_iff {spec : Spec} :
    ofJson json = .accepted spec ↔ spec.build.name ≠ spec.final.name ∧
      ∃ members, json = .obj members ∧
        Read.optional "image" standard.image Read.text members = .accepted spec.image ∧
        Read.optional "labels" standard.labels Read.textTable members = .accepted spec.labels ∧
        Read.optional "build" standard.build BuildStage.ofJson members = .accepted spec.build ∧
        Read.optional "final" standard.final FinalStage.ofJson members = .accepted spec.final := by
  have hrule : (if spec.build.name = spec.final.name then some Objection.sameStageNames else none) =
      none ↔ spec.build.name ≠ spec.final.name := by simp
  simp only [ofJson, Verdict.subjectTo_eq_accepted, hrule, Read.record_eq_accepted_iff,
    Verdict.seq_eq_accepted, Verdict.map_eq_accepted]
  rw [and_comm]
  refine and_congr_right fun _ => ?_
  constructor
  · rintro ⟨members, rfl, _, _, ⟨_, _, ⟨_, _, ⟨_, himage, rfl⟩, hlabels, rfl⟩, hbuild, rfl⟩, hfinal,
      rfl⟩
    exact ⟨members, rfl, himage, hlabels, hbuild, hfinal⟩
  · rintro ⟨members, rfl, himage, hlabels, hbuild, hfinal⟩
    exact ⟨members, rfl, _, _, ⟨_, _, ⟨_, _, ⟨_, himage, rfl⟩, hlabels, rfl⟩, hbuild, rfl⟩, hfinal,
      rfl⟩

end Records

end TwoStage
