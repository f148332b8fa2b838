import TwoStage.Proofs.Schema
import TwoStage.Proofs.Spec.Accepted
import TwoStage.Proofs.Text.Blank

/-!
# Writing and reading back

The readers of the fields and the schema are two accounts of a configuration. What the readers made
of a configuration that conforms is written in such a way that it conforms as well, and that the
readers make the same of it.

## Main definitions

- `Reproduces` — values that are written in their form and read as they were written

## Main statements

- `Reproduces.record_conforms`, `Reproduces.optional_eq` — records from their fields
- `BaseImage.reproduces` and those after it — the records
- `Config.parse_toJson` — specifications
-/

namespace TwoStage

/-- A value is written in the form of the schema and read as it was written. -/
structure Reproduces {α : Type} (schema : Schema) (read : Json → Verdict α) (write : α → Json)
    (value : α) : Prop where
  conforms : schema.Conforms (write value)
  read_write : read (write value) = .accepted value

namespace Reproduces

section Fields

variable {α : Type} {schema : Schema} {read : Json → Verdict α} {write : α → Json} {value : α}
  {json : Json} {name : String} {members : List (String × Json)}

/-- What was written as it is written again is read as before. -/
theorem of_eq (hread : read json = .accepted value) (hconforms : schema.Conforms json)
    (hwrite : json = write value) : Reproduces schema read write value := by
  subst hwrite
  exact ⟨hconforms, hread⟩

/-- A field reproduces if its usual value does and all that is read for it. -/
theorem of_optional {usual : α} (h : Read.optional name usual read members = .accepted value)
    (husual : Reproduces schema read write usual)
    (hread : ∀ inner, members.lookup name = some inner → read inner = .accepted value →
      Reproduces schema read write value) : Reproduces schema read write value := by
  rcases Read.optional_eq_accepted_iff.mp h with ⟨-, rfl⟩ | ⟨inner, hlookup, hinner⟩
  · exact husual
  · exact hread inner hlookup hinner

theorem optional_eq (h : Reproduces schema read write value) {usual : α}
    (hlookup : members.lookup name = some (write value)) :
    Read.optional name usual read members = .accepted value :=
  Read.optional_eq_accepted_iff.mpr (Or.inr ⟨_, hlookup, h.read_write⟩)

theorem required_eq (h : Reproduces schema read write value)
    (hlookup : members.lookup name = some (write value)) :
    Read.required name read members = .accepted value :=
  Read.required_eq_accepted_iff.mpr ⟨_, hlookup, h.read_write⟩

/-- A value that can be written, checked and read. -/
theorem of_check (hform : schema.violation? (write value) = none)
    (hread : read (write value) = .accepted value) : Reproduces schema read write value :=
  ⟨Schema.violation?_eq_none_iff.mp hform, hread⟩

end Fields

-- ════════════════════════════════════════════════════════════════════════
-- Values by kind
-- ════════════════════════════════════════════════════════════════════════

section Values

variable {json : Json} {rules : List TextRule}

theorem text {s : String} (h : ∀ rule ∈ rules, rule.Holds s) :
    Reproduces (.text false rules) Read.text .str s :=
  ⟨.text h, rfl⟩

theorem flag (b : Bool) : Reproduces .flag Read.flag .bool b := ⟨.flag b, rfl⟩

theorem count (n : Nat) : Reproduces .count Read.count (fun n => .int n) n :=
  ⟨.count (Int.natCast_nonneg n), rfl⟩

theorem nullableText (value : Option String) :
    Reproduces (.text true []) (Read.nullable Read.text) (·.elim .null .str) value := by
  cases value with
  | none => exact ⟨.noText, rfl⟩
  | some s => exact ⟨.text (by simp), rfl⟩

theorem table (bindings : Bindings String) :
    Reproduces .table Read.textTable .ofBindings bindings := by
  refine ⟨.table fun member hmember => ?_, Read.textTable_eq_accepted_iff.mpr rfl⟩
  obtain ⟨binding, -, rfl⟩ := List.mem_map.mp hmember
  exact ⟨binding.2, rfl⟩

/-- A tag is read without blanks around it, and there are none around what was read. -/
theorem tag {s : String} (h : BaseImage.tagOfJson json = .accepted s) :
    Reproduces (.text false [.nonEmpty, .not "latest"]) BaseImage.tagOfJson .str s := by
  obtain ⟨⟨given, -, rfl⟩, hne, hpinned⟩ := BaseImage.tagOfJson_eq_accepted_iff.mp h
  refine ⟨.text ?_, BaseImage.tagOfJson_eq_accepted_iff.mpr ⟨⟨_, rfl, ?_⟩, hne, hpinned⟩⟩
  · simp [TextRule.Holds, hne, hpinned]
  · rw [strip_strip]

end Values

end Reproduces

/-- A record of which each member has a field and conforms to the form of the field. -/
theorem Schema.conforms_record {required : List String} {fields : List (String × Schema)}
    {members : List (String × Json)} (hfields : (fields.map Prod.fst).Nodup)
    (hrequired : ∀ name ∈ required, ∃ value, members.lookup name = some value)
    (hmembers : ∀ member ∈ members, ∃ schema, (member.1, schema) ∈ fields ∧
      Conforms schema member.2) : Conforms (record required fields) (.obj members) := by
  refine .record hrequired (fun name hname => ?_) fun field hfield value hlookup => ?_
  · obtain ⟨member, hmember, rfl⟩ := List.mem_map.mp hname
    obtain ⟨schema, hschema, -⟩ := hmembers member hmember
    exact List.mem_map_of_mem hschema
  · obtain ⟨before, after, hsplit, -⟩ := List.lookup_eq_some_iff.mp hlookup
    have hmember : (field.1, value) ∈ members := by
      rw [hsplit]
      simp
    obtain ⟨schema, hschema, hconforms⟩ := hmembers _ hmember
    rwa [← List.inj_on_of_nodup_map hfields hschema hfield rfl]

/-- A record without members conforms if it needs none. -/
theorem Schema.conforms_nil {fields : List (String × Schema)} :
    Conforms (record [] fields) (.obj []) :=
  .record (by simp) (by simp) (by simp)

-- ════════════════════════════════════════════════════════════════════════
-- Records
-- ════════════════════════════════════════════════════════════════════════

section Records

variable {json : Json}

theorem BaseImage.reproduces {base : BaseImage} (h : Schema.baseImage.Conforms json)
    (hread : ofJson json = .accepted base) : Reproduces Schema.baseImage ofJson toJson base := by
  obtain ⟨_, rfl, himage, htag, hdigest, hmanager⟩ := ofJson_eq_accepted_iff.mp hread
  obtain ⟨_, ⟨rfl⟩, -, -, hfields⟩ := h.exists_members
  simp only [List.forall_mem_cons] at hfields
  obtain ⟨himageForm, -, hdigestForm, hmanagerForm, -⟩ := hfields
  obtain ⟨given, hgiven, himage⟩ := Read.required_eq_accepted_iff.mp himage
  obtain ⟨_, -, htag⟩ := Read.required_eq_accepted_iff.mp htag
  have himage : Reproduces Schema.name Read.text .str base.image :=
    .of_eq himage (himageForm given hgiven) (Read.text_eq_accepted_iff.mp himage)
  have htag := Reproduces.tag htag
  have hdigest : Reproduces (.text true [.shape .digest]) digestOfJson (·.elim .null .str)
      base.digest :=
    .of_optional hdigest ⟨.noText, rfl⟩ fun inner hinner hread =>
      .of_eq hread (hdigestForm inner hinner) (digestOfJson_eq_accepted_iff.mp hread).1
  have hmanager : Reproduces (.choice ["apk", "apt"]) (Read.nullable PackageManager.ofJson)
      (·.elim .null fun manager => .str manager.name) base.packageManager :=
    .of_optional hmanager ⟨.noChoice, rfl⟩ fun inner hinner hread =>
      .of_eq hread (hmanagerForm inner hinner) (PackageManager.nullable_eq_accepted_iff.mp hread)
  constructor
  · refine Schema.conforms_record (by decide) (by simp [List.lookup_cons]) ?_
    simp only [List.forall_mem_cons]
    exact ⟨⟨_, by simp, himage.conforms⟩, ⟨_, by simp, htag.conforms⟩,
      ⟨_, by simp, hdigest.conforms⟩, ⟨_, by simp, hmanager.conforms⟩, by simp⟩
  · exact ofJson_eq_accepted_iff.mpr ⟨_, rfl, himage.required_eq rfl, htag.required_eq rfl,
      hdigest.optional_eq rfl, hmanager.optional_eq rfl⟩

theorem PackageSet.reproduces {kind : String} {default set : PackageSet}
    (h : Schema.packageSet.Conforms json) (hread : ofJson kind default json = .accepted set)
    (hdefault : Reproduces (.list false Schema.name) packagesOfJson .ofStrings default.packages) :
    Reproduces Schema.packageSet (ofJson kind default) toJson set := by
  obtain ⟨_, rfl, hpackages⟩ := ofJson_eq_accepted_iff.mp hread
  obtain ⟨_, ⟨rfl⟩, -, -, hfields⟩ := h.exists_members
  simp only [List.forall_mem_cons] at hfields
  have hpackages : Reproduces (.list false Schema.name) packagesOfJson .ofStrings set.packages :=
    .of_optional hpackages hdefault fun inner hinner hread =>
      .of_eq hread (hfields.1 inner hinner) (packagesOfJson_eq_accepted_iff.mp hread).1
  constructor
  · refine Schema.conforms_record (by decide) (by simp) ?_
    simp only [List.forall_mem_cons]
    exact ⟨⟨_, by simp, hpackages.conforms⟩, by simp⟩
  · exact ofJson_eq_accepted_iff.mpr ⟨_, rfl, hpackages.optional_eq rfl⟩

theorem SourceInput.reproduces {sources : SourceInput} (h : Schema.sourceInput.Conforms json)
    (hread : ofJson json = .accepted sources) :
    Reproduces Schema.sourceInput ofJson toJson sources := by
  obtain ⟨_, rfl, hpaths, hworkdir⟩ := ofJson_eq_accepted_iff.mp hread
  obtain ⟨_, ⟨rfl⟩, -, -, hfields⟩ := h.exists_members
  simp only [List.forall_mem_cons] at hfields
  obtain ⟨hpathsForm, hworkdirForm, -⟩ := hfields
  have hpaths : Reproduces (.list true Schema.name) pathsOfJson .ofStrings sources.paths :=
    .of_optional hpaths (.of_check (by decide +kernel) (by rfl)) fun inner hinner hread =>
      .of_eq hread (hpathsForm inner hinner) (pathsOfJson_eq_accepted_iff.mp hread).1
  have hworkdir : Reproduces (.text false [.shape .absolute]) workdirOfJson .str sources.workdir :=
    .of_optional hworkdir (.of_check (by decide +kernel) (by rfl)) fun inner hinner hread =>
      .of_eq hread (hworkdirForm inner hinner) (workdirOfJson_eq_accepted_iff.mp hread).1
  constructor
  · refine Schema.conforms_record (by decide) (by simp) ?_
    simp only [List.forall_mem_cons]
    exact ⟨⟨_, by simp, hpaths.conforms⟩, ⟨_, by simp, hworkdir.conforms⟩, by simp⟩
  · exact ofJson_eq_accepted_iff.mpr ⟨_, rfl, hpaths.optional_eq rfl, hworkdir.optional_eq rfl⟩

theorem BuildEnvironment.reproduces {env : BuildEnvironment}
    (hread : ofJson json = .accepted env) :
    Reproduces Schema.buildEnvironment ofJson toJson env := by
  obtain ⟨_, rfl, -, -, -, -, hextra⟩ := ofJson_eq_accepted_iff.mp hread
  have hextra : Reproduces .table extraOfJson .ofBindings env.extra :=
    .of_optional hextra (.of_check (by decide +kernel) (by rfl)) fun inner hinner hread => by
      have hwrite := (extraOfJson_eq_accepted_iff.mp hread).1
      exact .of_eq hread (hwrite ▸ (Reproduces.table env.extra).conforms) hwrite
  constructor
  · refine Schema.conforms_record (by decide) (by simp) ?_
    simp only [List.forall_mem_cons]
    exact ⟨⟨_, by simp, (Reproduces.flag _).conforms⟩, ⟨_, by simp, (Reproduces.count _).conforms⟩,
      ⟨_, by simp, (Reproduces.nullableText _).conforms⟩,
      ⟨_, by simp, (Reproduces.flag _).conforms⟩, ⟨_, by simp, hextra.conforms⟩, by simp⟩
  · exact ofJson_eq_accepted_iff.mpr ⟨_, rfl, (Reproduces.flag _).optional_eq rfl,
      (Reproduces.count _).optional_eq rfl, (Reproduces.nullableText _).optional_eq rfl,
      (Reproduces.flag _).optional_eq rfl, hextra.optional_eq rfl⟩

theorem Identity.reproduces {identity : Identity} (h : Schema.identity.Conforms json)
    (hread : ofJson json = .accepted identity) :
    Reproduces Schema.identity ofJson toJson identity := by
  obtain ⟨_, rfl, hname, hshell⟩ := ofJson_eq_accepted_iff.mp hread
  obtain ⟨_, ⟨rfl⟩, -, -, hfields⟩ := h.exists_members
  simp only [List.forall_mem_cons] at hfields
  obtain ⟨hnameForm, hshellForm, -⟩ := hfields
  have hname : Reproduces (.text false [.nonEmpty, .not "root"]) nameOfJson .str identity.name :=
    .of_optional hname (.of_check (by decide +kernel) (by rfl)) fun inner hinner hread =>
      .of_eq hread (hnameForm inner hinner) (nameOfJson_eq_accepted_iff.mp hread).1
  have hshell : Reproduces Schema.plainPath shellOfJson .str identity.shell :=
    .of_optional hshell (.of_check (by decide +kernel) (by rfl)) fun inner hinner hread =>
      .of_eq hread (hshellForm inner hinner) (shellOfJson_eq_accepted_iff.mp hread).1
  constructor
  · refine Schema.conforms_record (by decide) (by simp) ?_
    simp only [List.forall_mem_cons]
    exact ⟨⟨_, by simp, hname.conforms⟩, ⟨_, by simp, hshell.conforms⟩, by simp⟩
  · exact ofJson_eq_accepted_iff.mpr ⟨_, rfl, hname.optional_eq rfl, hshell.optional_eq rfl⟩

theorem Entrypoint.reproduces {entrypoint : Entrypoint} (h : Schema.entrypoint.Conforms json)
    (hread : ofJson json = .accepted entrypoint) :
    Reproduces Schema.entrypoint ofJson toJson entrypoint := by
  obtain ⟨_, rfl, hpath⟩ := ofJson_eq_accepted_iff.mp hread
  obtain ⟨_, ⟨rfl⟩, -, -, hfields⟩ := h.exists_members
  simp only [List.forall_mem_cons] at hfields
  have hpath : Reproduces Schema.plainPath pathOfJson .str entrypoint.path :=
    .of_optional hpath (.of_check (by decide +kernel) (by rfl)) fun inner hinner hread =>
      .of_eq hread (hfields.1 inner hinner) (pathOfJson_eq_accepted_iff.mp hread).1
  constructor
  · refine Schema.conforms_record (by decide) (by simp) ?_
    simp only [List.forall_mem_cons]
    exact ⟨⟨_, by simp, hpath.conforms⟩, by simp⟩
  · exact ofJson_eq_accepted_iff.mpr ⟨_, rfl, hpath.optional_eq rfl⟩

theorem BuildStage.reproduces {stage : BuildStage} (h : Schema.buildStage.Conforms json)
    (hread : ofJson json = .accepted stage) :
    Reproduces Schema.buildStage ofJson toJson stage := by
  obtain ⟨_, rfl, hname, hbase, htoolchain, hsources, henv, hcommand, hroot, hbinary⟩ :=
    ofJson_eq_accepted_iff.mp hread
  obtain ⟨_, ⟨rfl⟩, -, -, hfields⟩ := h.exists_members
  simp only [List.forall_mem_cons] at hfields
  obtain ⟨hnameForm, hbaseForm, htoolchainForm, hsourcesForm, -, hcommandForm, hrootForm,
    hbinaryForm, -⟩ := hfields
  have hname : Reproduces Schema.name Read.text .str stage.name :=
    .of_optional hname (.of_check (by decide +kernel) rfl) fun inner hinner hread =>
      .of_eq hread (hnameForm inner hinner) (Read.text_eq_accepted_iff.mp hread)
  have hbase : Reproduces Schema.baseImage BaseImage.ofJson BaseImage.toJson stage.base :=
    .of_optional hbase (.of_check (by decide +kernel) (by rfl)) fun inner hinner hread =>
      BaseImage.reproduces (hbaseForm inner hinner) hread
  have hdefault : Reproduces (.list false Schema.name) PackageSet.packagesOfJson .ofStrings
      PackageSet.toolchain.packages := .of_check (by decide +kernel) (by rfl)
  have htoolchain : Reproduces Schema.packageSet
      (PackageSet.ofJson "ToolchainDependencySet" .toolchain) PackageSet.toJson stage.toolchain :=
    .of_optional htoolchain (PackageSet.reproduces Schema.conforms_nil rfl hdefault)
      fun inner hinner hread => PackageSet.reproduces (htoolchainForm inner hinner) hread hdefault
  have hsources : Reproduces Schema.sourceInput SourceInput.ofJson SourceInput.toJson
      stage.sources :=
    .of_optional hsources (SourceInput.reproduces Schema.conforms_nil rfl) fun inner hinner hread =>
      SourceInput.reproduces (hsourcesForm inner hinner) hread
  have henv : Reproduces Schema.buildEnvironment BuildEnvironment.ofJson BuildEnvironment.toJson
      stage.env :=
    .of_optional henv
      (BuildEnvironment.reproduces (show BuildEnvironment.ofJson (.obj []) = .accepted _ from rfl))
      fun inner hinner hread => BuildEnvironment.reproduces hread
  have hcommand : Reproduces (.list true (.text false [])) (Read.list Read.text) .ofStrings
      stage.command :=
    .of_optional hcommand (.of_check (by decide +kernel) (by rfl)) fun inner hinner hread =>
      .of_eq hread (hcommandForm inner hinner) (Read.textList_eq_accepted_iff.mp hread)
  have hroot : Reproduces Schema.plainPath installRootOfJson .str stage.installRoot :=
    .of_optional hroot (.of_check (by decide +kernel) (by rfl)) fun inner hinner hread =>
      .of_eq hread (hrootForm inner hinner) (installRootOfJson_eq_accepted_iff.mp hread).1
  have hbinary : Reproduces Schema.name binaryOfJson .str stage.binary :=
    .of_optional hbinary (.of_check (by decide +kernel) (by rfl)) fun inner hinner hread =>
      .of_eq hread (hbinaryForm inner hinner) (binaryOfJson_eq_accepted_iff.mp hread).1
  constructor
  · refine Schema.conforms_record (by decide) (by simp) ?_
    simp only [List.forall_mem_cons]
    exact ⟨⟨_, by simp, hname.conforms⟩, ⟨_, by simp, hbase.conforms⟩,
      ⟨_, by simp, htoolchain.conforms⟩, ⟨_, by simp, hsources.conforms⟩,
      ⟨_, by simp, henv.conforms⟩, ⟨_, by simp, hcommand.conforms⟩, ⟨_, by simp, hroot.conforms⟩,
      ⟨_, by simp, hbinary.conforms⟩, by simp⟩
  · exact ofJson_eq_accepted_iff.mpr ⟨_, rfl, hname.optional_eq rfl, hbase.optional_eq rfl,
      htoolchain.optional_eq rfl, hsources.optional_eq rfl, henv.optional_eq rfl,
      hcommand.optional_eq rfl, hroot.optional_eq rfl, hbinary.optional_eq rfl⟩

theorem FinalStage.reproduces {stage : FinalStage} (h : Schema.finalStage.Conforms json)
    (hread : ofJson json = .accepted stage) :
    Reproduces Schema.finalStage ofJson toJson stage := by
  obtain ⟨_, rfl, hname, hbase, hruntime, hidentity, hentrypoint⟩ :=
    ofJson_eq_accepted_iff.mp hread
  obtain ⟨_, ⟨rfl⟩, -, -, hfields⟩ := h.exists_members
  simp only [List.forall_mem_cons] at hfields
  obtain ⟨hnameForm, hbaseForm, hruntimeForm, hidentityForm, hentrypointForm, -⟩ := hfields
  have hname : Reproduces Schema.name Read.text .str stage.name :=
    .of_optional hname (.of_check (by decide +kernel) rfl) fun inner hinner hread =>
      .of_eq hread (hnameForm inner hinner) (Read.text_eq_accepted_iff.mp hread)
  have hbase : Reproduces Schema.baseImage BaseImage.ofJson BaseImage.toJson stage.base :=
    .of_optional hbase (.of_check (by decide +kernel) (by rfl)) fun inner hinner hread =>
      BaseImage.reproduces (hbaseForm inner hinner) hread
  have hdefault : Reproduces (.list false Schema.name) PackageSet.packagesOfJson .ofStrings
      PackageSet.runtime.packages := .of_check (by decide +kernel) (by rfl)
  have hruntime : Reproduces Schema.packageSet (PackageSet.ofJson "RuntimeDependencySet" .runtime)
      PackageSet.toJson stage.runtime :=
    .of_optional hruntime (PackageSet.reproduces Schema.conforms_nil rfl hdefault)
      fun inner hinner hread => PackageSet.reproduces (hruntimeForm inner hinner) hread hdefault
  have hidentity : Reproduces Schema.identity Identity.ofJson Identity.toJson stage.identity :=
    .of_optional hidentity (Identity.reproduces Schema.conforms_nil rfl) fun inner hinner hread =>
      Identity.reproduces (hidentityForm inner hinner) hread
  have hentrypoint : Reproduces Schema.entrypoint Entrypoint.ofJson Entrypoint.toJson
      stage.entrypoint :=
    .of_optional hentrypoint (Entrypoint.reproduces Schema.conforms_nil rfl)
      fun inner hinner hread => Entrypoint.reproduces (hentrypointForm inner hinner) hread
  constructor
  · refine Schema.conforms_record (by decide) (by simp) ?_
    simp only [List.forall_mem_cons]
    exact ⟨⟨_, by simp, hname.conforms⟩, ⟨_, by simp, hbase.conforms⟩,
      ⟨_, by simp, hruntime.conforms⟩, ⟨_, by simp, hidentity.conforms⟩,
      ⟨_, by simp, hentrypoint.conforms⟩, by simp⟩
  · exact ofJson_eq_accepted_iff.mpr ⟨_, rfl, hname.optional_eq rfl, hbase.optional_eq rfl,
      hruntime.optional_eq rfl, hidentity.optional_eq rfl, hentrypoint.optional_eq rfl⟩

/-- A specification of stages that reproduce, under any name of an image. -/
theorem Spec.reproduces {spec : Spec}
    (himage : Reproduces Schema.name Read.text .str spec.image)
    (hbuild : Reproduces Schema.buildStage BuildStage.ofJson BuildStage.toJson spec.build)
    (hfinal : Reproduces Schema.finalStage FinalStage.ofJson FinalStage.toJson spec.final)
    (hnames : spec.build.name ≠ spec.final.name) :
    Reproduces Schema.pipeline ofJson toJson spec := by
  have hlabels := Reproduces.table spec.labels
  constructor
  · refine Schema.conforms_record (by decide) (by simp) ?_
    simp only [List.forall_mem_cons]
    exact ⟨⟨_, by simp, himage.conforms⟩, ⟨_, by simp, hlabels.conforms⟩,
      ⟨_, by simp, hbuild.conforms⟩, ⟨_, by simp, hfinal.conforms⟩, by simp⟩
  · exact ofJson_eq_accepted_iff.mpr ⟨hnames, _, rfl, himage.optional_eq rfl,
      hlabels.optional_eq rfl, hbuild.optional_eq rfl, hfinal.optional_eq rfl⟩

end Records

-- ════════════════════════════════════════════════════════════════════════
-- Specifications
-- ════════════════════════════════════════════════════════════════════════

/-- What a configuration stands for, written as a configuration, passes the check and stands for the
same. So does what it becomes when the image gets another name. -/
theorem Config.parse_toJson {value : Json} {spec : Spec} (h : parse value = .ok spec) :
    (validate spec.toJson = .ok () ∧ parse spec.toJson = .ok spec) ∧
      ∀ image ≠ "", validate { spec with image := image }.toJson = .ok () ∧
        parse { spec with image := image }.toJson = .ok { spec with image := image } := by
  obtain ⟨hconforms, hread⟩ := parse_eq_ok_iff.mp h
  obtain ⟨hnames, members, rfl, himage, -, hbuild, hfinal⟩ := Spec.ofJson_eq_accepted_iff.mp hread
  obtain ⟨_, ⟨rfl⟩, -, -, hfields⟩ := hconforms.exists_members
  simp only [List.forall_mem_cons] at hfields
  obtain ⟨-, himageForm, -, hbuildForm, hfinalForm, -⟩ := hfields
  have himage : Reproduces Schema.name Read.text .str spec.image :=
    .of_optional himage (.of_check (by decide +kernel) rfl) fun inner hinner hread =>
      .of_eq hread (himageForm inner hinner) (Read.text_eq_accepted_iff.mp hread)
  have hbuild : Reproduces Schema.buildStage BuildStage.ofJson BuildStage.toJson spec.build :=
    .of_optional hbuild (BuildStage.reproduces Schema.conforms_nil rfl) fun inner hinner hread =>
      BuildStage.reproduces (hbuildForm inner hinner) hread
  have hfinal : Reproduces Schema.finalStage FinalStage.ofJson FinalStage.toJson spec.final :=
    .of_optional hfinal (FinalStage.reproduces Schema.conforms_nil rfl) fun inner hinner hread =>
      FinalStage.reproduces (hfinalForm inner hinner) hread
  have hparse : ∀ spec : Spec, Reproduces Schema.pipeline Spec.ofJson Spec.toJson spec →
      validate spec.toJson = .ok () ∧ parse spec.toJson = .ok spec := fun spec hspec =>
    ⟨validate_eq_ok_iff.mpr hspec.conforms, parse_eq_ok_iff.mpr ⟨hspec.conforms, hspec.read_write⟩⟩
  refine ⟨hparse spec (Spec.reproduces himage hbuild hfinal hnames), fun image hne => ?_⟩
  have hother : Reproduces Schema.name Read.text .str image :=
    .text (by simpa [TextRule.Holds] using hne)
  exact hparse _ (Spec.reproduces hother hbuild hfinal hnames)

theorem Config.parse_toJson_sample :
    (validate sampleSpec.toJson = .ok () ∧ parse sampleSpec.toJson = .ok sampleSpec) ∧
      parse { sampleSpec with image := "edge:9" }.toJson =
        .ok { sampleSpec with image := "edge:9" } :=
  ⟨(parse_toJson parse_sample).1, ((parse_toJson parse_sample).2 "edge:9" (by decide)).2⟩

end TwoStage
