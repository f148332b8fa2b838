import TwoStage.ConfigFile
import TwoStage.Proofs.Act.Keeps
import TwoStage.Proofs.Json.Shown
import TwoStage.Proofs.Pipeline.Outcome
import TwoStage.Proofs.Schema
import TwoStage.Proofs.Text.Utf8

/-!
# What a configuration file is answered with

A file that can be read gives a specification or a refusal of the configuration, whatever its text
is, but for two kinds of contents: bytes that are not UTF-8, and a text with an integer of more
digits than are read. These end with an error of the decoder or of the reader instead. What is read
can always be shown, so that no refusal fails for want of words.

## Main definitions

- `ConfigFile.Answers` — a specification, or a refusal of the configuration

## Main statements

- `ConfigFile.load_of_text`, `ConfigFile.load_of_fault` — what loading comes to, from the bytes
- `ConfigFile.load_answers_iff` — the contents that are answered
- `ConfigFile.not_answers_of_byte` — a byte that is not
-/

namespace TwoStage.ConfigFile

/-- A specification, or a refusal of the configuration in words. -/
def Answers (result : Except Error Spec) : Prop :=
  (∃ spec, result = .ok spec) ∨ ∃ why, why ≠ .longInteger ∧ result = .error (.config why)

theorem answers_ok (spec : Spec) : Answers (.ok spec) := Or.inl ⟨spec, rfl⟩

theorem answers_config {why : ConfigError} (h : why ≠ .longInteger) :
    Answers (.error (.config why)) :=
  Or.inr ⟨why, h, rfl⟩

theorem not_answers {e : Error} (h : ∀ why, e ≠ .config why) : ¬ Answers (.error e) := by
  rintro (⟨spec, hspec⟩ | ⟨why, -, hwhy⟩)
  · cases hspec
  · exact h why (Except.error.inj hwhy)

/-- What can be shown is parsed, or refused in words. -/
theorem answers_parse {value : Json} (h : value.isShowable = true) :
    Answers ((Config.parse value).mapError .config) := by
  cases hparse : Config.parse value with
  | ok spec => exact answers_ok spec
  | error why =>
    refine answers_config ?_
    rintro rfl
    exact Config.parse_ne_longInteger h hparse

/-- What the text of a file comes to. -/
def answer (path : Path) (text : String) : Except Error Spec :=
  match Json.read text with
  | .ok (.obj members) => (Config.parse (.obj members)).mapError .config
  | .ok _ => .error (.config (.notObject path.text))
  | .error (.malformed fault) => .error (.config (.notJson path.text fault))
  | .error why => .error (.notJson why)

theorem answers_answer_iff {path : Path} {text : String} :
    Answers (answer path text) ↔ ∀ length, Json.read text ≠ .error (.longInteger length) := by
  rw [answer]
  split
  · next members hread =>
    exact iff_of_true (answers_parse (Json.isShowable_of_read hread)) (by simp [hread])
  · next value hother hread => exact iff_of_true (answers_config nofun) (by simp [hread])
  · next fault hread => exact iff_of_true (answers_config nofun) (by simp [hread])
  · next why hmalformed hread =>
    cases why with
    | malformed fault => exact absurd rfl (hmalformed fault)
    | longInteger length =>
      exact iff_of_false (not_answers nofun) fun hshort => hshort length hread

variable {path : Path} {host : Host} {w : World} {bytes : ByteArray}

theorem readText_of_read (h : w.files.read host.cwd path = .ok bytes) :
    Act.readText path host w =
      (((Utf8.decode bytes).mapError .notUtf8).map unifyNewlines, w) := by
  rw [Act.readText, Act.bind_of_ok (Act.ask_of_ok h)]
  cases Utf8.decode bytes <;> rfl

/-- A file whose bytes are those of a text. -/
theorem load_of_text {text : String}
    (h : w.files.read host.cwd path = .ok (utf8Bytes text)) :
    load (some path) host w = (answer path (unifyNewlines text), w) := by
  have hdecode : Utf8.decode (utf8Bytes text) = .ok text := Utf8.decode_eq_ok_iff.mpr rfl
  have htext : Act.outcome (Act.readText path) host w = (.ok (.ok (unifyNewlines text)), w) := by
    rw [Act.outcome, readText_of_read h, hdecode]
    rfl
  rw [load, loadFrom, Act.bind_apply, readValue, Act.bind_of_ok htext, answer]
  dsimp only
  cases hread : Json.read (unifyNewlines text) with
  | ok value => cases value <;> rfl
  | error why => cases why <;> rfl

/-- A file whose bytes are not UTF-8. -/
theorem load_of_fault {fault : Utf8.Fault} (h : w.files.read host.cwd path = .ok bytes)
    (hdecode : Utf8.decode bytes = .error fault) :
    load (some path) host w = (.error (.notUtf8 fault), w) := by
  have htext : Act.outcome (Act.readText path) host w = (.ok (.error (.notUtf8 fault)), w) := by
    rw [Act.outcome, readText_of_read h, hdecode]
    rfl
  rw [load, loadFrom, Act.bind_apply, readValue, Act.bind_of_ok htext]
  rfl

/-- Loading a file that can be read changes nothing. It gives a specification or a refusal of the
configuration exactly where the bytes are UTF-8 and reading the text does not end at an integer of
too many digits; so it does for all bytes in UTF-8 without a run of so many digits. -/
theorem load_answers_iff (hread : w.files.read host.cwd path = .ok bytes) :
    (load (some path) host w).2 = w ∧
    (Answers (load (some path) host w).1 ↔
      ∃ text, bytes = utf8Bytes text ∧
        ∀ length, Json.read (unifyNewlines text) ≠ .error (.longInteger length)) ∧
    ∀ text, bytes = utf8Bytes text →
      (∀ length, ¬ Json.LongRun length (unifyNewlines text).toList) →
      Answers (load (some path) host w).1 := by
  cases hdecode : Utf8.decode bytes with
  | error fault =>
    have hnot : ∀ text, bytes ≠ utf8Bytes text := by
      intro text hbytes
      rw [Utf8.decode_eq_ok_iff.mpr hbytes] at hdecode
      cases hdecode
    rw [load_of_fault hread hdecode]
    exact ⟨rfl, iff_of_false (not_answers nofun) fun ⟨text, hbytes, _⟩ => hnot text hbytes,
      fun text hbytes => absurd hbytes (hnot text)⟩
  | ok text =>
    obtain rfl := Utf8.decode_eq_ok_iff.mp hdecode
    have hunique : ∀ other, utf8Bytes text = utf8Bytes other → other = text := by
      intro other hbytes
      rw [Utf8.decode_eq_ok_iff.mpr hbytes] at hdecode
      exact Except.ok.inj hdecode
    rw [load_of_text hread, answers_answer_iff]
    refine ⟨rfl, ⟨fun hshort => ⟨text, rfl, hshort⟩, ?_⟩, ?_⟩
    · rintro ⟨other, hbytes, hshort⟩
      exact hunique other hbytes ▸ hshort
    · intro other hbytes hruns length hlong
      rw [hunique other hbytes] at hruns
      exact hruns length (Json.longRun_of_read hlong)

/-- A world with a configuration file in its working directory. -/
def configured (bytes : List UInt8) : World :=
  { World.holding [] with
    files := (World.holding []).files.put ["work", fileName] (.file bytes.toByteArray) }

/-- A host at which no engine is asked for anything. -/
def idleHost : Host := .replying fun _ => .quiet 0 none

/-- An empty object is answered. -/
theorem load_answers_emptyObject :
    (configured [0x7b, 0x7d]).files.read idleHost.cwd (.ofText fileName) =
        .ok (utf8Bytes "\x7b\x7d") ∧
      Answers (load (some (.ofText fileName)) idleHost (configured [0x7b, 0x7d])).1 := by
  have hread : (configured [0x7b, 0x7d]).files.read idleHost.cwd (.ofText fileName) =
      .ok (utf8Bytes "\x7b\x7d") := by decide +kernel
  refine ⟨hread, (load_answers_iff hread).2.2 _ rfl ?_⟩
  rintro length ⟨hlong, digits, hdigits, rfl, -⟩
  have hlength : (unifyNewlines "\x7b\x7d").toList.length = 2 := by decide +kernel
  have hle := hdigits.length_le
  rw [hlength] at hle
  rw [Json.integerDigitLimit] at hlong
  omega

/-- A byte that starts no character ends with an error of the decoder. -/
theorem not_answers_of_byte :
    (load (some (.ofText fileName)) idleHost (configured [0xff])).1 =
        .error (.notUtf8 (.invalidStart 0xff 0)) ∧
      ¬ Answers (load (some (.ofText fileName)) idleHost (configured [0xff])).1 := by
  have hread : (configured [0xff]).files.read idleHost.cwd (.ofText fileName) =
      .ok [0xff].toByteArray := by decide +kernel
  have hfault : Utf8.decode [0xff].toByteArray = .error (.invalidStart 0xff 0) := by
    decide +kernel
  rw [load_of_fault hread hfault]
  exact ⟨rfl, not_answers nofun⟩

end TwoStage.ConfigFile
