import TwoStage.Proofs.Spec.Accepted
import TwoStage.Proofs.Spec.PlainText

/-!
# Well-formed specifications

What the rules of the fields promise of each part of an accepted specification.

## Main definitions

- `Spec.WellFormed` — what the rules promise of a specification, part by part

## Main statements

- `Spec.Accepted.wellFormed` — accepted specifications are well-formed
-/

namespace TwoStage

/-- The digest of a well-formed base image, if it has one, is a digest throughout. -/
structure BaseImage.WellFormed (base : BaseImage) : Prop where
  digest : ∀ digest, base.digest = some digest → isDigestText digest = true

/-- A set of packages with names that the pattern takes. -/
def PackageSet.WellFormed (set : PackageSet) : Prop :=
  ∀ name ∈ set.packages, isPackageName name = true

/-- The extra variables of a well-formed build environment have names that the pattern takes, and
values on one line. -/
def BuildEnvironment.WellFormed (env : BuildEnvironment) : Prop :=
  ∀ binding ∈ env.extra, isVariableName binding.1 = true ∧ isSingleLine binding.2 = true

/-- A well-formed identity is not called like the privileged user, and has no objectionable
shell. -/
structure Identity.WellFormed (identity : Identity) : Prop where
  name : isUserName identity.name = true
  unprivileged : identity.name ≠ "root"
  shell : objectionToShell? identity.shell = none

theorem Identity.WellFormed.isPlainPath {identity : Identity} (h : identity.WellFormed) :
    isPlainPath identity.shell = true := by
  have hrule := h.shell
  rw [objectionToShell?] at hrule
  split at hrule
  · cases hrule
  · next hfine =>
    rw [Bool.not_eq_true, Bool.or_eq_false_iff, Bool.not_eq_false'] at hfine
    exact hfine.1

/-- What the rules promise of a build stage. -/
structure BuildStage.WellFormed (stage : BuildStage) : Prop where
  base : stage.base.WellFormed
  toolchain : stage.toolchain.WellFormed
  env : stage.env.WellFormed
  installRoot : isPlainPath stage.installRoot = true
  binary : isBinaryName stage.binary = true

/-- What the rules promise of a final stage. -/
structure FinalStage.WellFormed (stage : FinalStage) : Prop where
  base : stage.base.WellFormed
  runtime : stage.runtime.WellFormed
  identity : stage.identity.WellFormed
  entrypoint : isPlainPath stage.entrypoint.path = true

/-- What the rules promise of a specification. -/
structure Spec.WellFormed (spec : Spec) : Prop where
  build : spec.build.WellFormed
  final : spec.final.WellFormed
  names_ne : spec.build.name ≠ spec.final.name

/-- What holds of the usual value of a field and of every value that is read for it holds of the
field. -/
theorem Read.of_optional {α : Type} {P : α → Prop} {name : String} {usual value : α}
    {read : Json → Verdict α} {members : List (String × Json)}
    (h : optional name usual read members = .accepted value) (husual : P usual)
    (hread : ∀ json, read json = .accepted value → P value) : P value := by
  rcases optional_eq_accepted h with rfl | ⟨json, hjson⟩
  · exact husual
  · exact hread json hjson

theorem BaseImage.wellFormed_of_ofJson {json : Json} {base : BaseImage}
    (h : ofJson json = .accepted base) : base.WellFormed := by
  obtain ⟨members, -, -, -, hdigest, -⟩ := ofJson_eq_accepted_iff.mp h
  constructor
  intro given hgiven
  refine Read.of_optional (P := fun value => value = some given → isDigestText given = true)
    hdigest nofun (fun json hjson hsome => ?_) hgiven
  rw [hsome] at hjson
  exact (digestOfJson_eq_accepted_iff.mp hjson).2 given rfl

theorem PackageSet.wellFormed_of_ofJson {kind : String} {default set : PackageSet} {json : Json}
    (hdefault : default.WellFormed) (h : ofJson kind default json = .accepted set) :
    set.WellFormed := by
  obtain ⟨members, -, hpackages⟩ := ofJson_eq_accepted_iff.mp h
  exact Read.of_optional (P := fun names => ∀ name ∈ names, isPackageName name = true)
    hpackages hdefault fun json hjson => (packagesOfJson_eq_accepted_iff.mp hjson).2

theorem BuildEnvironment.wellFormed_of_ofJson {json : Json} {env : BuildEnvironment}
    (h : ofJson json = .accepted env) : env.WellFormed := by
  obtain ⟨members, -, -, -, -, -, hextra⟩ := ofJson_eq_accepted_iff.mp h
  exact Read.of_optional (P := fun extra : Bindings String => ∀ binding ∈ extra,
    isVariableName binding.1 = true ∧ isSingleLine binding.2 = true) hextra (by simp [standard])
    fun json hjson => (extraOfJson_eq_accepted_iff.mp hjson).2

theorem Identity.wellFormed_of_ofJson {json : Json} {identity : Identity}
    (h : ofJson json = .accepted identity) : identity.WellFormed := by
  obtain ⟨members, -, hname, hshell⟩ := ofJson_eq_accepted_iff.mp h
  have hunprivileged : identity.name ≠ "root" ∧ isUserName identity.name = true :=
    Read.of_optional (P := fun name => name ≠ "root" ∧ isUserName name = true) hname (by decide)
      fun json hjson => (nameOfJson_eq_accepted_iff.mp hjson).2
  exact ⟨hunprivileged.2, hunprivileged.1,
    Read.of_optional (P := fun shell => objectionToShell? shell = none) hshell (by decide)
      fun json hjson => (shellOfJson_eq_accepted_iff.mp hjson).2⟩

theorem Entrypoint.isPlainPath_of_ofJson {json : Json} {entrypoint : Entrypoint}
    (h : ofJson json = .accepted entrypoint) : isPlainPath entrypoint.path = true := by
  obtain ⟨members, -, hpath⟩ := ofJson_eq_accepted_iff.mp h
  exact Read.of_optional (P := fun path => isPlainPath path = true) hpath (by decide)
    fun json hjson => (pathOfJson_eq_accepted_iff.mp hjson).2.1

theorem BuildStage.wellFormed_standard : standard.WellFormed where
  base := ⟨fun digest h => by cases h⟩
  toolchain := by
    rw [PackageSet.WellFormed]
    decide
  env := by simp [BuildEnvironment.WellFormed, standard, BuildEnvironment.standard]
  installRoot := by decide
  binary := by decide

theorem BuildStage.wellFormed_of_ofJson {json : Json} {stage : BuildStage}
    (h : ofJson json = .accepted stage) : stage.WellFormed := by
  obtain ⟨members, -, -, hbase, htoolchain, -, henv, -, hinstallRoot, hbinary⟩ :=
    ofJson_eq_accepted_iff.mp h
  have husual := wellFormed_standard
  refine ⟨?_, ?_, ?_, ?_, ?_⟩
  · exact Read.of_optional hbase husual.base fun _ => BaseImage.wellFormed_of_ofJson
  · exact Read.of_optional htoolchain husual.toolchain fun _ =>
      PackageSet.wellFormed_of_ofJson husual.toolchain
  · exact Read.of_optional henv husual.env fun _ => BuildEnvironment.wellFormed_of_ofJson
  · exact Read.of_optional (P := fun path => isPlainPath path = true) hinstallRoot
      husual.installRoot fun json hjson => (installRootOfJson_eq_accepted_iff.mp hjson).2
  · exact Read.of_optional (P := fun name => isBinaryName name = true) hbinary
      husual.binary fun json hjson => (binaryOfJson_eq_accepted_iff.mp hjson).2

theorem FinalStage.wellFormed_standard : standard.WellFormed where
  base := ⟨fun digest h => by cases h⟩
  runtime := by
    rw [PackageSet.WellFormed]
    decide
  identity := ⟨by decide, by decide, by decide⟩
  entrypoint := by decide

theorem FinalStage.wellFormed_of_ofJson {json : Json} {stage : FinalStage}
    (h : ofJson json = .accepted stage) : stage.WellFormed := by
  obtain ⟨members, -, -, hbase, hruntime, hidentity, hentrypoint⟩ := ofJson_eq_accepted_iff.mp h
  have husual := wellFormed_standard
  refine ⟨?_, ?_, ?_, ?_⟩
  · exact Read.of_optional hbase husual.base fun _ => BaseImage.wellFormed_of_ofJson
  · exact Read.of_optional hruntime husual.runtime fun _ =>
      PackageSet.wellFormed_of_ofJson husual.runtime
  · exact Read.of_optional hidentity husual.identity fun _ => Identity.wellFormed_of_ofJson
  · exact Read.of_optional (P := fun entrypoint : Entrypoint => isPlainPath entrypoint.path = true)
      hentrypoint husual.entrypoint fun _ => Entrypoint.isPlainPath_of_ofJson

/-- Accepted specifications are well-formed. -/
theorem Spec.Accepted.wellFormed {spec : Spec} (h : spec.Accepted) : spec.WellFormed := by
  obtain ⟨json, hjson⟩ := h.ofJson
  obtain ⟨hnames, members, -, -, -, hbuild, hfinal⟩ := Spec.ofJson_eq_accepted_iff.mp hjson
  refine ⟨?_, ?_, hnames⟩
  · exact Read.of_optional hbuild BuildStage.wellFormed_standard fun _ =>
      BuildStage.wellFormed_of_ofJson
  · exact Read.of_optional hfinal FinalStage.wellFormed_standard fun _ =>
      FinalStage.wellFormed_of_ofJson

end TwoStage
