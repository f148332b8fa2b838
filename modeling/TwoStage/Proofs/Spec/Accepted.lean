import TwoStage.Proofs.Spec.Fields

/-!
# Accepted specifications

What the rules of the fields promise of a specification that comes out of a configuration: a promise
of the reader of a part is one of the whole.

## Main definitions

- `Spec.Accepted` — specifications that some configuration stands for
- `Spec.StaysInside` — source paths that cannot lead out of the source root
- `Config.sample`, `Config.sampleSpec` — a configuration, and what it stands for

## Main statements

- `Spec.Accepted.names_ne` — the stages have different names
- `Spec.Accepted.sourcePaths` — there are source paths, and they stay inside
-/

namespace TwoStage

/-- A specification that some configuration stands for. -/
def Spec.Accepted (spec : Spec) : Prop := ∃ value, Config.parse value = .ok spec

/-- The paths of the sources cannot lead out of the source root. -/
def Spec.StaysInside (spec : Spec) : Prop :=
  ∀ path ∈ spec.build.sources.paths, SourceInput.staysInside path = true

/-- A source input that is accepted has a path, and none of its paths leads out of the source
root. -/
theorem SourceInput.staysInside_of_accepted {json : Json} {sources : SourceInput}
    (h : ofJson json = .accepted sources) :
    sources.paths ≠ [] ∧ ∀ path ∈ sources.paths, staysInside path = true := by
  obtain ⟨members, -, hpaths, -⟩ := ofJson_eq_accepted_iff.mp h
  rcases Read.optional_eq_accepted hpaths with husual | ⟨json, hpaths⟩
  · rw [husual]
    decide
  · exact (pathsOfJson_eq_accepted_iff.mp hpaths).2

namespace Spec.Accepted

variable {spec : Spec}

theorem ofJson (h : spec.Accepted) : ∃ json, Spec.ofJson json = .accepted spec := by
  obtain ⟨value, hparse⟩ := h
  rw [Config.parse] at hparse
  split at hparse
  · cases hparse
  · split at hparse
    · next hofJson =>
      cases hparse
      exact ⟨value, hofJson⟩
    · cases hparse

theorem names_ne (h : spec.Accepted) : spec.build.name ≠ spec.final.name := by
  obtain ⟨json, hjson⟩ := h.ofJson
  exact (Spec.ofJson_eq_accepted_iff.mp hjson).1

/-- There is a source path, and none of them leads out of the source root. -/
theorem sourcePaths (h : spec.Accepted) : spec.build.sources.paths ≠ [] ∧ spec.StaysInside := by
  obtain ⟨json, hjson⟩ := h.ofJson
  obtain ⟨-, members, -, -, -, hbuild, -⟩ := Spec.ofJson_eq_accepted_iff.mp hjson
  rw [Spec.StaysInside]
  rcases Read.optional_eq_accepted hbuild with husual | ⟨json, hbuild⟩
  · rw [husual]
    decide
  · obtain ⟨members, -, -, -, -, hsources, -⟩ := BuildStage.ofJson_eq_accepted_iff.mp hbuild
    rcases Read.optional_eq_accepted hsources with husual | ⟨json, hsources⟩
    · rw [husual]
      decide
    · exact SourceInput.staysInside_of_accepted hsources

theorem staysInside (h : spec.Accepted) : spec.StaysInside := h.sourcePaths.2

theorem paths_ne_nil (h : spec.Accepted) : spec.build.sources.paths ≠ [] := h.sourcePaths.1

end Spec.Accepted

namespace Config

/-- A configuration that can be evaluated tells which specification it stands for. -/
theorem parse_of_check {value : Json} {spec : Spec}
    (h : (match parse value with
      | .ok parsed => decide (parsed = spec)
      | .error _ => false) = true) : parse value = .ok spec := by
  split at h
  · next parsed hparse =>
    rw [decide_eq_true_eq] at h
    rw [hparse, h]
  · cases h

/-- A configuration that gives a few fields of each part. -/
def sample : Json :=
  .obj
    [("$schema", .str "pipeline.schema.json"),
     ("labels", .obj [("tier", .str "edge"), ("line", .str "a b")]),
     ("build", .obj
       [("base", .obj [("tag", .str " 1.77-alpine "), ("image", .str "rust")]),
        ("env", .obj [("extra", .obj [("RUSTFLAGS", .str "-C debuginfo=0")]),
          ("net_retry", .int 3)])]),
     ("final", .obj [("name", .str "runtime")])]

/-- The specification that the sample stands for. -/
def sampleSpec : Spec where
  image := Spec.standard.image
  labels := [("tier", "edge"), ("line", "a b")]
  build :=
    { BuildStage.standard with
      base := ⟨"rust", "1.77-alpine", none, none⟩
      env :=
        { BuildEnvironment.standard with
          netRetry := 3
          extra := [("RUSTFLAGS", "-C debuginfo=0")] } }
  final := { FinalStage.standard with name := "runtime" }

theorem parse_sample : parse sample = .ok sampleSpec := parse_of_check (by decide +kernel)

end Config

/-- A configuration that can be evaluated shows that its specification is accepted. -/
theorem Spec.accepted_of_parse {spec : Spec} (value : Json)
    (h : (match Config.parse value with
      | .ok parsed => decide (parsed = spec)
      | .error _ => false) = true) : spec.Accepted :=
  ⟨value, Config.parse_of_check h⟩

theorem Spec.accepted_standard : Spec.standard.Accepted :=
  Spec.accepted_of_parse (.obj []) (by decide +kernel)

end TwoStage
