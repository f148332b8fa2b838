import TwoStage.Proofs.Json.Overlay
import TwoStage.Proofs.Schema
import TwoStage.Proofs.Spec.Accepted

/-!
# Configurations over the stock specification

A configuration changes the stock specification in part. What is written of the result is the stock
specification with the configuration laid over it, up to the few values that are written otherwise
than they were given. The readers of the records and the schema name their fields apart from each
other; that they name the same ones is what no member gets lost by.

## Main definitions

- `Json.stripped`, `Json.whole` — how tags and numbers are written
- `Config.settled` — all that is written otherwise than it was given

## Main statements

- `BaseImage.settled_eq` and those after it — records, over what they have in their place
- `Config.settled_overlay` — configurations over the stock specification
- `Config.overlays_standard` — and what is kept, left out and ordered as given
-/

namespace TwoStage

/-- A text without the blanks around it, and any other value as it is. -/
def Json.stripped : Json → Json
  | .str s => .str (strip s)
  | value => value

/-- An integer in place of a number without fraction, and any other value as it is. -/
def Json.whole : Json → Json
  | .float x =>
    match x.toInt? with
    | some n => .int n
    | none => .float x
  | value => value

theorem Json.member?_stripped (value : Json) (name : String) :
    value.stripped.member? name = value.member? name := by
  cases value <;> rfl

theorem Json.member?_whole (value : Json) (name : String) :
    value.whole.member? name = value.member? name := by
  cases value with
  | float x =>
    rw [whole]
    cases x.toInt? <;> rfl
  | _ => rfl

section Fields

variable {α : Type} {name : String} {usual value : α} {read : Json → Verdict α}
  {members : List (String × Json)}

/-- A field is written as what lies in its place, once that is settled. -/
theorem Read.settled_eq (f : Json → Json) (write : α → Json)
    (h : optional name usual read members = .accepted value)
    (husual : f (write usual) = write usual)
    (hread : ∀ inner, members.lookup name = some inner → read inner = .accepted value →
      f ((write usual).overlay inner) = write value) :
    f ((write usual).overlaid (members.lookup name)) = write value := by
  rcases optional_eq_accepted_iff.mp h with ⟨hnone, rfl⟩ | ⟨inner, hsome, hinner⟩
  · rw [hnone]
    exact husual
  · rw [hsome]
    exact hread inner hsome hinner

/-- A field of which the reader takes what lies in its place is written as that. -/
theorem Read.overlaid_eq (write : α → Json)
    (h : optional name usual read members = .accepted value)
    (hread : ∀ inner, members.lookup name = some inner → read inner = .accepted value →
      (write usual).overlay inner = write value) :
    (write usual).overlaid (members.lookup name) = write value :=
  settled_eq id write h rfl hread

/-- A flag that conforms is written as it was given. -/
theorem Read.eq_of_flag {json : Json} {b : Bool} (h : Schema.Conforms .flag json)
    (hread : flag json = .accepted b) : json = .bool b := by
  obtain ⟨given, rfl⟩ := h.exists_flag
  rw [flag, Verdict.accepted.injEq] at hread
  rw [hread]

/-- A count that conforms is written as the integer that was given. -/
theorem Read.whole_eq_of_count {json : Json} {n : Nat} (h : Schema.Conforms .count json)
    (hread : count json = .accepted n) : json.whole = .int n := by
  have hinteger : integer json = .accepted (n : Int) := by
    rw [count] at hread
    cases hgiven : integer json with
    | refused found =>
      rw [hgiven] at hread
      cases hread
    | accepted given =>
      rw [hgiven] at hread
      cases given with
      | ofNat size =>
        cases hread
        rfl
      | negSucc size => cases hread
  cases h with
  | count => simpa [integer, Json.whole] using hinteger
  | @wholeCount x found hx =>
    rw [Json.whole, hx]
    cases x with
    | finite negative mantissa exponent =>
      simp only [integer, integerFloat, hx] at hinteger
      split at hinteger
      · rw [Verdict.accepted.inj hinteger]
      · cases hinteger
    | _ => cases hx

end Fields

-- ════════════════════════════════════════════════════════════════════════
-- Records
-- ════════════════════════════════════════════════════════════════════════

section Records

variable {json : Json}

/-- A base image given over one without a digest and a package manager. -/
theorem BaseImage.settled_eq {image tag : String} {base : BaseImage}
    (h : Schema.baseImage.Conforms json) (hread : ofJson json = .accepted base) :
    Json.adjust .stripped ["tag"] ((toJson ⟨image, tag, none, none⟩).overlay json) =
      base.toJson := by
  obtain ⟨members, rfl, himage, htag, hdigest, hmanager⟩ := ofJson_eq_accepted_iff.mp hread
  obtain ⟨_, ⟨rfl⟩, -, hknown, -⟩ := h.exists_members
  obtain ⟨given, hgivenImage, himage⟩ := Read.required_eq_accepted_iff.mp himage
  obtain ⟨givenTag, hgivenTag, htag⟩ := Read.required_eq_accepted_iff.mp htag
  obtain ⟨⟨unstripped, rfl, hstripped⟩, -⟩ := tagOfJson_eq_accepted_iff.mp htag
  have himage : (Json.str image).overlaid (members.lookup "image") = .str base.image := by
    rw [hgivenImage]
    exact Read.text_eq_accepted_iff.mp himage
  have htag : Json.stripped ((Json.str tag).overlaid (members.lookup "tag")) = .str base.tag := by
    rw [hgivenTag, hstripped]
    rfl
  have hdigest : Json.null.overlaid (members.lookup "digest") = base.digest.elim .null .str :=
    Read.overlaid_eq (fun digest : Option String => digest.elim .null .str) hdigest
      fun inner _ hread => (digestOfJson_eq_accepted_iff.mp hread).1
  have hmanager : Json.null.overlaid (members.lookup "package_manager") =
      base.packageManager.elim .null fun manager => .str manager.name :=
    Read.overlaid_eq (fun manager : Option PackageManager =>
      manager.elim .null fun manager => .str manager.name) hmanager
      fun inner _ hread => PackageManager.nullable_eq_accepted_iff.mp hread
  have hover : (toJson ⟨image, tag, none, none⟩).overlay (.obj members) = _ :=
    Json.overlay_of_known hknown
  rw [hover]
  simp [Json.adjust, himage, htag, hdigest, hmanager, toJson]

theorem PackageSet.overlaid_eq {kind : String} {default set : PackageSet}
    (h : Schema.packageSet.Conforms json) (hread : ofJson kind default json = .accepted set) :
    default.toJson.overlay json = set.toJson := by
  obtain ⟨members, rfl, hpackages⟩ := ofJson_eq_accepted_iff.mp hread
  obtain ⟨_, ⟨rfl⟩, -, hknown, -⟩ := h.exists_members
  have hpackages := Read.overlaid_eq .ofStrings hpackages fun inner _ hread =>
    (packagesOfJson_eq_accepted_iff.mp hread).1
  have hover : default.toJson.overlay (.obj members) = _ := Json.overlay_of_known hknown
  rw [hover]
  simp only [List.map_cons, List.map_nil, hpackages, toJson]

theorem SourceInput.overlaid_eq {sources : SourceInput} (h : Schema.sourceInput.Conforms json)
    (hread : ofJson json = .accepted sources) :
    standard.toJson.overlay json = sources.toJson := by
  obtain ⟨members, rfl, hpaths, hworkdir⟩ := ofJson_eq_accepted_iff.mp hread
  obtain ⟨_, ⟨rfl⟩, -, hknown, -⟩ := h.exists_members
  have hpaths := Read.overlaid_eq .ofStrings hpaths fun inner _ hread =>
    (pathsOfJson_eq_accepted_iff.mp hread).1
  have hworkdir := Read.overlaid_eq .str hworkdir fun inner _ hread =>
    (workdirOfJson_eq_accepted_iff.mp hread).1
  have hover : standard.toJson.overlay (.obj members) = _ := Json.overlay_of_known hknown
  rw [hover]
  simp only [List.map_cons, List.map_nil, hpaths, hworkdir, toJson]

theorem Identity.overlaid_eq {identity : Identity} (h : Schema.identity.Conforms json)
    (hread : ofJson json = .accepted identity) :
    standard.toJson.overlay json = identity.toJson := by
  obtain ⟨members, rfl, hname, hshell⟩ := ofJson_eq_accepted_iff.mp hread
  obtain ⟨_, ⟨rfl⟩, -, hknown, -⟩ := h.exists_members
  have hname := Read.overlaid_eq .str hname fun inner _ hread =>
    (nameOfJson_eq_accepted_iff.mp hread).1
  have hshell := Read.overlaid_eq .str hshell fun inner _ hread =>
    (shellOfJson_eq_accepted_iff.mp hread).1
  have hover : standard.toJson.overlay (.obj members) = _ := Json.overlay_of_known hknown
  rw [hover]
  simp only [List.map_cons, List.map_nil, hname, hshell, toJson]

theorem Entrypoint.overlaid_eq {entrypoint : Entrypoint} (h : Schema.entrypoint.Conforms json)
    (hread : ofJson json = .accepted entrypoint) :
    standard.toJson.overlay json = entrypoint.toJson := by
  obtain ⟨members, rfl, hpath⟩ := ofJson_eq_accepted_iff.mp hread
  obtain ⟨_, ⟨rfl⟩, -, hknown, -⟩ := h.exists_members
  have hpath := Read.overlaid_eq .str hpath fun inner _ hread =>
    (pathOfJson_eq_accepted_iff.mp hread).1
  have hover : standard.toJson.overlay (.obj members) = _ := Json.overlay_of_known hknown
  rw [hover]
  simp only [List.map_cons, List.map_nil, hpath, toJson]

theorem BuildEnvironment.settled_eq {env : BuildEnvironment}
    (h : Schema.buildEnvironment.Conforms json) (hread : ofJson json = .accepted env) :
    Json.adjust .whole ["net_retry"] (standard.toJson.overlay json) = env.toJson := by
  obtain ⟨members, rfl, hincremental, hnetRetry, hlinker, hstatic, hextra⟩ :=
    ofJson_eq_accepted_iff.mp hread
  obtain ⟨_, ⟨rfl⟩, -, hknown, hfields⟩ := h.exists_members
  simp only [List.forall_mem_cons] at hfields
  obtain ⟨hincrementalForm, hnetRetryForm, -, hstaticForm, -⟩ := hfields
  have hincremental := Read.overlaid_eq .bool hincremental fun inner hinner hread =>
    Read.eq_of_flag (hincrementalForm inner hinner) hread
  have hnetRetry : Json.whole ((Json.int standard.netRetry).overlaid (members.lookup "net_retry")) =
      .int env.netRetry :=
    Read.settled_eq .whole (fun n : Nat => .int n) hnetRetry rfl fun inner hinner hread =>
      Read.whole_eq_of_count (hnetRetryForm inner hinner) hread
  have hlinker : (standard.linker.elim Json.null .str).overlaid (members.lookup "linker") =
      env.linker.elim .null .str :=
    Read.overlaid_eq (fun linker : Option String => linker.elim .null .str) hlinker
      fun inner _ hread => Read.nullableText_eq_accepted_iff.mp hread
  have hstatic := Read.overlaid_eq .bool hstatic fun inner hinner hread =>
    Read.eq_of_flag (hstaticForm inner hinner) hread
  have hextra := Read.overlaid_eq .ofBindings hextra fun inner _ hread => by
    rw [(extraOfJson_eq_accepted_iff.mp hread).1]
    exact Json.overlay_nil
  have hover : standard.toJson.overlay (.obj members) = _ := Json.overlay_of_known hknown
  rw [hover]
  simp [Json.adjust, hincremental, hnetRetry, hlinker, hstatic, hextra, toJson]

theorem BuildStage.settled_eq {stage : BuildStage} (h : Schema.buildStage.Conforms json)
    (hread : ofJson json = .accepted stage) :
    Json.adjust .stripped ["base", "tag"]
      (Json.adjust .whole ["env", "net_retry"] (standard.toJson.overlay json)) = stage.toJson := by
  obtain ⟨members, rfl, hname, hbase, htoolchain, hsources, henv, hcommand, hroot, hbinary⟩ :=
    ofJson_eq_accepted_iff.mp hread
  obtain ⟨_, ⟨rfl⟩, -, hknown, hfields⟩ := h.exists_members
  simp only [List.forall_mem_cons] at hfields
  obtain ⟨-, hbaseForm, htoolchainForm, hsourcesForm, henvForm, -⟩ := hfields
  have hname := Read.overlaid_eq .str hname fun inner _ hread =>
    Read.text_eq_accepted_iff.mp hread
  have hbase := Read.settled_eq (Json.adjust .stripped ["tag"]) BaseImage.toJson hbase (by rfl)
    fun inner hinner hread => BaseImage.settled_eq (hbaseForm inner hinner) hread
  have htoolchain := Read.overlaid_eq PackageSet.toJson htoolchain fun inner hinner hread =>
    PackageSet.overlaid_eq (htoolchainForm inner hinner) hread
  have hsources := Read.overlaid_eq SourceInput.toJson hsources fun inner hinner hread =>
    SourceInput.overlaid_eq (hsourcesForm inner hinner) hread
  have henv := Read.settled_eq (Json.adjust .whole ["net_retry"]) BuildEnvironment.toJson henv
    (by rfl) fun inner hinner hread => BuildEnvironment.settled_eq (henvForm inner hinner) hread
  have hcommand := Read.overlaid_eq .ofStrings hcommand fun inner _ hread =>
    Read.textList_eq_accepted_iff.mp hread
  have hroot := Read.overlaid_eq .str hroot fun inner _ hread =>
    (installRootOfJson_eq_accepted_iff.mp hread).1
  have hbinary := Read.overlaid_eq .str hbinary fun inner _ hread =>
    (binaryOfJson_eq_accepted_iff.mp hread).1
  have hover : standard.toJson.overlay (.obj members) = _ := Json.overlay_of_known hknown
  rw [hover]
  simp [Json.adjust, hname, hbase, htoolchain, hsources, henv, hcommand, hroot, hbinary, toJson]

theorem FinalStage.settled_eq {stage : FinalStage} (h : Schema.finalStage.Conforms json)
    (hread : ofJson json = .accepted stage) :
    Json.adjust .stripped ["base", "tag"] (standard.toJson.overlay json) = stage.toJson := by
  obtain ⟨members, rfl, hname, hbase, hruntime, hidentity, hentrypoint⟩ :=
    ofJson_eq_accepted_iff.mp hread
  obtain ⟨_, ⟨rfl⟩, -, hknown, hfields⟩ := h.exists_members
  simp only [List.forall_mem_cons] at hfields
  obtain ⟨-, hbaseForm, hruntimeForm, hidentityForm, hentrypointForm, -⟩ := hfields
  have hname := Read.overlaid_eq .str hname fun inner _ hread =>
    Read.text_eq_accepted_iff.mp hread
  have hbase := Read.settled_eq (Json.adjust .stripped ["tag"]) BaseImage.toJson hbase (by rfl)
    fun inner hinner hread => BaseImage.settled_eq (hbaseForm inner hinner) hread
  have hruntime := Read.overlaid_eq PackageSet.toJson hruntime fun inner hinner hread =>
    PackageSet.overlaid_eq (hruntimeForm inner hinner) hread
  have hidentity := Read.overlaid_eq Identity.toJson hidentity fun inner hinner hread =>
    Identity.overlaid_eq (hidentityForm inner hinner) hread
  have hentrypoint := Read.overlaid_eq Entrypoint.toJson hentrypoint fun inner hinner hread =>
    Entrypoint.overlaid_eq (hentrypointForm inner hinner) hread
  have hover : standard.toJson.overlay (.obj members) = _ := Json.overlay_of_known hknown
  rw [hover]
  simp [Json.adjust, hname, hbase, hruntime, hidentity, hentrypoint, toJson]

end Records

-- ════════════════════════════════════════════════════════════════════════
-- Configurations
-- ════════════════════════════════════════════════════════════════════════

/-- What is written of a configuration otherwise than it was given: the tags without the blanks
around them, and the number of retries as an integer. -/
def Config.settled (value : Json) : Json :=
  Json.adjust .stripped ["build", "base", "tag"]
    (Json.adjust .whole ["build", "env", "net_retry"]
      (Json.adjust .stripped ["final", "base", "tag"] value))

namespace Config

section Settled

variable {value other : Json} {path : List String}

theorem isSome_at?_settled : ((settled value).at? path).isSome = (value.at? path).isSome := by
  rw [settled, Json.isSome_at?_adjust Json.member?_stripped,
    Json.isSome_at?_adjust Json.member?_whole, Json.isSome_at?_adjust Json.member?_stripped]

theorem at?_settled_congr (h : value.at? path = other.at? path) :
    (settled value).at? path = (settled other).at? path := by
  rw [settled, settled]
  refine Json.at?_adjust_congr Json.member?_stripped (Json.at?_adjust_congr Json.member?_whole ?_)
  exact Json.at?_adjust_congr Json.member?_stripped h

/-- There is nothing to settle in the stock specification. -/
theorem settled_standard : settled Spec.standard.toJson = Spec.standard.toJson := by
  rfl

end Settled

/-- What is written of the specification that a configuration stands for is the stock one with the
configuration laid over it, settled. -/
theorem settled_overlay {value : Json} {spec : Spec} (h : parse value = .ok spec) :
    settled (Spec.standard.toJson.overlay (value.without "$schema")) = spec.toJson := by
  obtain ⟨hconforms, hread⟩ := parse_eq_ok_iff.mp h
  obtain ⟨-, members, rfl, himage, hlabels, hbuild, hfinal⟩ := Spec.ofJson_eq_accepted_iff.mp hread
  obtain ⟨_, ⟨rfl⟩, -, hknown, hfields⟩ := hconforms.exists_members
  simp only [List.forall_mem_cons] at hfields
  obtain ⟨-, -, -, hbuildForm, hfinalForm, -⟩ := hfields
  obtain ⟨kept, hkept⟩ : ∃ kept, (Json.obj members).without "$schema" = .obj kept := ⟨_, rfl⟩
  have hlookup : ∀ name ≠ "$schema", members.lookup name = kept.lookup name := fun name hne => by
    rw [← Json.member?_obj, ← Json.member?_without_of_ne hne, hkept, Json.member?_obj]
  have hknown : ∀ name ∈ kept.map Prod.fst, name ∈ ["image", "labels", "build", "final"] := by
    intro name hname
    obtain ⟨hmember, hne⟩ := Json.mem_of_without hkept hname
    simpa [hne] using hknown name hmember
  have himage := Read.overlaid_eq .str himage fun inner _ hread =>
    Read.text_eq_accepted_iff.mp hread
  have hlabels := Read.overlaid_eq .ofBindings hlabels fun inner _ hread => by
    rw [Read.textTable_eq_accepted_iff.mp hread]
    exact Json.overlay_nil
  have hbuild := Read.settled_eq
    (fun value => Json.adjust .stripped ["base", "tag"]
      (Json.adjust .whole ["env", "net_retry"] value)) BuildStage.toJson hbuild (by rfl)
    fun inner hinner hread => BuildStage.settled_eq (hbuildForm inner hinner) hread
  have hfinal := Read.settled_eq (Json.adjust .stripped ["base", "tag"]) FinalStage.toJson hfinal
    (by rfl) fun inner hinner hread => FinalStage.settled_eq (hfinalForm inner hinner) hread
  have hover : Spec.standard.toJson.overlay (.obj kept) = _ := Json.overlay_of_known hknown
  rw [hlookup _ (by decide)] at himage hlabels hbuild hfinal
  rw [hkept, hover]
  simp [settled, Json.adjust, himage, hlabels, hbuild, hfinal, Spec.toJson]

section Consequences

variable {value : Json} {spec : Spec}

/-- Whatever a configuration gives has a counterpart in the specification. -/
theorem exists_at?_toJson (h : parse value = .ok spec) {path : List String} {given : Json}
    (hpath : path.head? ≠ some "$schema") (hgiven : value.at? path = some given) :
    ∃ kept, spec.toJson.at? path = some kept := by
  cases path with
  | nil => exact ⟨_, rfl⟩
  | cons name rest =>
    have hne : name ≠ "$schema" := by simpa using hpath
    rw [← Json.at?_without hne] at hgiven
    obtain ⟨kept, hkept⟩ := @Json.exists_at?_overlay Spec.standard.toJson _ _ _ hgiven
    rw [← settled_overlay h, ← Option.isSome_iff_exists, isSome_at?_settled, hkept]
    rfl

/-- Whatever a part of a configuration leaves out is as in the stock specification. -/
theorem at?_toJson_of_missing (h : parse value = .ok spec) {path : List String}
    {members : List (String × Json)} {name : String}
    (hpath : (path ++ [name]).head? ≠ some "$schema")
    (hgiven : value.at? path = some (.obj members)) (hmissing : members.lookup name = none) :
    spec.toJson.at? (path ++ [name]) = Spec.standard.toJson.at? (path ++ [name]) := by
  obtain ⟨kept, hkept, hlookup⟩ : ∃ kept, (value.without "$schema").at? path = some (.obj kept) ∧
      kept.lookup name = none := by
    cases path with
    | nil =>
      cases hgiven
      have hne : name ≠ "$schema" := by simpa using hpath
      refine ⟨_, rfl, ?_⟩
      show ((Json.obj members).without "$schema").member? name = none
      rw [Json.member?_without_of_ne hne, Json.member?_obj, hmissing]
    | cons first rest =>
      have hne : first ≠ "$schema" := by simpa using hpath
      exact ⟨members, (Json.at?_without hne).trans hgiven, hmissing⟩
  rw [← settled_overlay h, at?_settled_congr (Json.at?_overlay_of_missing hkept hlookup),
    settled_standard]

/-- The tables of texts are as they are given. -/
theorem at?_toJson_of_table (h : parse value = .ok spec) {path : List String}
    (hpath : path ∈ [["labels"], ["build", "env", "extra"]]) {members : List (String × Json)}
    (hgiven : value.at? path = some (.obj members)) :
    spec.toJson.at? path = some (.obj members) := by
  have hapart : ∀ target ∈ [["build", "base", "tag"], ["build", "env", "net_retry"],
      ["final", "base", "tag"]], ¬path <+: target ∧ ¬target <+: path := by
    simp only [List.mem_cons, List.not_mem_nil, or_false] at hpath
    rcases hpath with rfl | rfl <;> decide
  simp only [List.forall_mem_cons] at hapart
  obtain ⟨⟨habove, hbelow⟩, ⟨haboveRetry, hbelowRetry⟩, ⟨haboveTag, hbelowTag⟩, -⟩ := hapart
  have hover : (Spec.standard.toJson.overlay (value.without "$schema")).at? path =
      some (.obj members) := by
    have hboth : (value.without "$schema").at? path = some (.obj members) ∧
        Spec.standard.toJson.at? path = some (.obj []) := by
      simp only [List.mem_cons, List.not_mem_nil, or_false] at hpath
      rcases hpath with rfl | rfl <;>
        exact ⟨(Json.at?_without (by decide)).trans hgiven, rfl⟩
    rw [Json.at?_overlay_of_some hboth.1 hboth.2, Json.overlay_nil]
  rw [← settled_overlay h, settled, Json.at?_adjust_of_apart habove hbelow,
    Json.at?_adjust_of_apart haboveRetry hbelowRetry, Json.at?_adjust_of_apart haboveTag hbelowTag,
    hover]

end Consequences

/-- A configuration goes over the stock specification and nothing else happens to it: what is
written of the result is the one laid over the other, settled. Nothing that is given is dropped,
what a part leaves out is as in the stock specification, and the tables of texts are as given. -/
theorem overlays_standard {value : Json} {spec : Spec} (h : parse value = .ok spec) :
    spec.toJson = settled (Spec.standard.toJson.overlay (value.without "$schema")) ∧
      (∀ path given, path.head? ≠ some "$schema" → value.at? path = some given →
        ∃ kept, spec.toJson.at? path = some kept) ∧
      (∀ path members name, (path ++ [name]).head? ≠ some "$schema" →
        value.at? path = some (.obj members) → members.lookup name = none →
        spec.toJson.at? (path ++ [name]) = Spec.standard.toJson.at? (path ++ [name])) ∧
      ∀ path ∈ [["labels"], ["build", "env", "extra"]], ∀ members,
        value.at? path = some (.obj members) → spec.toJson.at? path = some (.obj members) :=
  ⟨(settled_overlay h).symm, fun _ _ hpath hgiven => exists_at?_toJson h hpath hgiven,
    fun _ _ _ hpath hgiven hmissing => at?_toJson_of_missing h hpath hgiven hmissing,
    fun _ hpath _ hgiven => at?_toJson_of_table h hpath hgiven⟩

theorem overlays_standard_sample :
    sampleSpec.toJson = settled (Spec.standard.toJson.overlay (sample.without "$schema")) ∧
      (∃ kept, sampleSpec.toJson.at? ["build", "env", "net_retry"] = some kept) ∧
      sampleSpec.toJson.at? ["build", "env", "linker"] = some (.str "lld") ∧
      sampleSpec.toJson.at? ["labels"] =
        some (.obj [("tier", .str "edge"), ("line", .str "a b")]) := by
  obtain ⟨hwritten, hkept, husual, htables⟩ := overlays_standard parse_sample
  refine ⟨hwritten, ?_, ?_, ?_⟩
  · exact hkept ["build", "env", "net_retry"] (.int 3) (by decide) (by rfl)
  · exact husual ["build", "env"] _ "linker" (by decide) rfl (by rfl)
  · exact htables ["labels"] (by simp) _ (by rfl)

end Config

end TwoStage
