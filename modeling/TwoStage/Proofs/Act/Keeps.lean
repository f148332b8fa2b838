import TwoStage.Act
import TwoStage.Proofs.FileTree.Enclosure
import TwoStage.Proofs.FileTree.Writing

/-!
# What operations keep, and how they fail

An operation changes the world also where it ends with an error, so that a property of the world is
kept by an operation only if it holds afterwards in either case. The errors that an operation can
end with are followed through its parts in the same way.

## Main definitions

- `Act.Keeps` — a property of the world holds after an operation if it held before
- `Act.FailsWith` — an operation ends with a value or with an error of some kind
- `World.Grounded` — a world whose directory for scratch directories stands on real ground

## Main statements

- `Act.Keeps.bind`, `Act.FailsWith.bind` — one operation after another
- `Act.writeText_cases`, `Act.makeDirectories_cases` — writing a file, making directories
- `Act.inScratch_apply` — an operation in a scratch directory, with the directory in view
- `World.Grounded.enclosed` — a scratch directory is enclosed from the start
-/

namespace TwoStage

/-- What a check finds in a result shows that there is one. -/
theorem exists_ok_of_any {ε α : Type} {x : Except ε α} {holds : α → Bool}
    (h : x.toOption.any holds = true) : ∃ value, x = .ok value ∧ holds value = true := by
  cases x with
  | error e => cases h
  | ok value => exact ⟨value, rfl, h⟩

theorem eq_ok_of_toOption {ε α : Type} {x : Except ε α} {value : α}
    (h : x.toOption = some value) : x = .ok value := by
  cases x with
  | error e => cases h
  | ok found => exact congrArg Except.ok (Option.some.inj h)

theorem eq_mk_of_fst {α β : Type} {x : α × β} {a : α} (h : x.1 = a) : x = (a, x.2) :=
  Prod.ext h rfl

namespace Act

variable {α β : Type} {I : World → Prop} {P : Error → Prop}

/-- The property `I` of the world holds after an operation if it held before, whether the operation
ends with a value or with an error. -/
def Keeps (I : World → Prop) (x : Act α) : Prop := ∀ host w, I w → I (x host w).2

/-- An operation ends with a value, or with an error of which `P` holds. -/
def FailsWith (P : Error → Prop) (x : Act α) : Prop :=
  ∀ host w e, (x host w).1 = .error e → P e

-- ════════════════════════════════════════════════════════════════════════
-- Single operations
-- ════════════════════════════════════════════════════════════════════════

theorem bind_apply (x : Act α) (f : α → Act β) (host : Host) (w : World) :
    (x >>= f) host w =
      match x host w with
      | (.ok value, w') => f value host w'
      | (.error e, w') => (.error e, w') := rfl

theorem bind_assoc {γ : Type} (x : Act α) (f : α → Act β) (g : β → Act γ) :
    x >>= f >>= g = x >>= fun value => f value >>= g := by
  funext host w
  simp only [bind_apply]
  cases x host w with
  | mk result w' => cases result <;> rfl

/-- What follows an operation matters only for the values that it gives. -/
theorem bind_congr {x : Act α} {f g : α → Act β}
    (h : ∀ host w value w', x host w = (.ok value, w') → f value host w' = g value host w') :
    x >>= f = x >>= g := by
  funext host w
  simp only [bind_apply]
  split
  · next value w' heq => exact h host w value w' heq
  · rfl

/-- One operation after another ends where the second one does, or with the error of the first. -/
theorem bind_cases {x : Act α} {f : α → Act β} {host : Host} {w w' : World}
    {result : Except Error β} (h : (x >>= f) host w = (result, w')) :
    (∃ value w₁, x host w = (.ok value, w₁) ∧ f value host w₁ = (result, w')) ∨
      ∃ e, x host w = (.error e, w') ∧ result = .error e := by
  rw [bind_apply] at h
  split at h
  · next value w₁ heq => exact Or.inl ⟨value, w₁, heq, h⟩
  · next e w₁ heq =>
    obtain ⟨rfl, rfl⟩ := Prod.mk.inj h
    exact Or.inr ⟨e, heq, rfl⟩

theorem bind_eq_ok {x : Act α} {f : α → Act β} {host : Host} {w w' : World} {result : β}
    (h : (x >>= f) host w = (.ok result, w')) :
    ∃ value w₁, x host w = (.ok value, w₁) ∧ f value host w₁ = (.ok result, w') := by
  rcases bind_cases h with hok | ⟨e, _, herr⟩
  · exact hok
  · cases herr

/-- One operation after another that succeeds. -/
theorem bind_of_ok {x : Act α} {f : α → Act β} {host : Host} {w w' : World} {value : α}
    (h : x host w = (.ok value, w')) : (x >>= f) host w = f value host w' := by
  rw [bind_apply, h]

theorem bind_of_error {x : Act α} {f : α → Act β} {host : Host} {w w' : World} {e : Error}
    (h : x host w = (.error e, w')) : (x >>= f) host w = (.error e, w') := by
  rw [bind_apply, h]

theorem outcome_eq_ok {x : Act α} {result : Except Error α} {host : Host} {w w' : World}
    (h : outcome x host w = (.ok result, w')) : x host w = (result, w') := by
  cases hx : x host w with
  | mk reached w₁ =>
    rw [outcome, hx] at h
    cases h
    rfl

/-- The world after a report: as before, but for the records. -/
theorem report_apply (record : LogRecord) (host : Host) (w : World) :
    ∃ records, report record host w = (.ok (), { w with records }) := by
  by_cases hwritten : record.isWritten w.level = true
  · exact ⟨w.records ++ [record], by simp [report, modify, hwritten]⟩
  · exact ⟨w.records, by simp [report, modify, hwritten]⟩

/-- A report leaves the files as they are. -/
theorem files_of_report {record : LogRecord} {host : Host} {w w' : World}
    {result : Except Error Unit} (h : report record host w = (result, w')) :
    w'.files = w.files := by
  obtain ⟨records, hr⟩ := report_apply record host w
  cases h.symm.trans hr
  rfl

/-- What an operation keeps holds in the world that it ends with. -/
theorem Keeps.of_eq {x : Act α} (hx : Keeps I x) {host : Host} {w w' : World}
    {result : Except Error α} (h : x host w = (result, w')) (hw : I w) : I w' := by
  have hafter := hx host w hw
  rw [h] at hafter
  exact hafter

theorem Keeps.pure (value : α) : Keeps I (Pure.pure value : Act α) := fun _ _ h => h

theorem Keeps.fail (e : Error) : Keeps I (Act.fail e : Act α) := fun _ _ h => h

theorem Keeps.ask (question : FileTree → Location → Path → Except FileFault α) (p : Path) :
    Keeps I (Act.ask question p) := fun _ _ h => h

theorem Keeps.world : Keeps I Act.world := fun _ _ h => h

theorem Keeps.report (hI : ∀ w records, I w → I { w with records }) (record : LogRecord) :
    Keeps I (Act.report record) := by
  intro host w h
  obtain ⟨records, hr⟩ := report_apply record host w
  rw [hr]
  exact hI w records h

theorem Keeps.bind {x : Act α} {f : α → Act β} (hx : Keeps I x) (hf : ∀ value, Keeps I (f value)) :
    Keeps I (x >>= f) := by
  intro host w h
  rw [bind_apply]
  split
  · next value w' heq => exact hf value host w' (hx.of_eq heq h)
  · next e w' heq => exact hx.of_eq heq h

/-- What changes of the files keep, if the change alone keeps it. -/
theorem Keeps.changeFiles {change : FileTree → Location → Except FileFault FileTree}
    (hI : ∀ w cwd files, change w.files cwd = .ok files → I w → I { w with files }) :
    Keeps I (Act.changeFiles change) := by
  intro host w h
  rw [Act.changeFiles]
  split
  · next files hfiles => exact hI w host.cwd files hfiles h
  · exact h

theorem Keeps.changeFilesPartly {change : FileTree → Location → FileTree × Option FileFault}
    (hI : ∀ w cwd, I w → I { w with files := (change w.files cwd).1 }) :
    Keeps I (Act.changeFilesPartly change) := by
  intro host w h
  have hafter := hI w host.cwd h
  rw [Act.changeFilesPartly]
  split
  · next heq =>
    rw [heq] at hafter
    exact hafter
  · next heq =>
    rw [heq] at hafter
    exact hafter

theorem Keeps.ofExcept (x : Except Error α) : Keeps I (Act.ofExcept x) := fun _ _ h => h

theorem FailsWith.pure (value : α) : FailsWith P (Pure.pure value : Act α) :=
  fun _ _ _ h => by cases h

theorem FailsWith.fail {e : Error} (h : P e) : FailsWith P (Act.fail e : Act α) := by
  intro host w e' he
  cases he
  exact h

theorem FailsWith.bind {x : Act α} {f : α → Act β} (hx : FailsWith P x)
    (hf : ∀ value, FailsWith P (f value)) : FailsWith P (x >>= f) := by
  intro host w e he
  rw [bind_apply] at he
  split at he
  · next value w' heq => exact hf value host w' e he
  · next e' w' heq =>
    cases he
    exact hx host w e (by rw [heq])

theorem FailsWith.report (record : LogRecord) : FailsWith P (Act.report record) := by
  intro host w e he
  obtain ⟨records, hr⟩ := report_apply record host w
  rw [hr] at he
  cases he

theorem FailsWith.ask (hP : ∀ fault, P (.file fault))
    (question : FileTree → Location → Path → Except FileFault α) (p : Path) :
    FailsWith P (Act.ask question p) := by
  intro host w e he
  rw [Act.ask] at he
  cases hq : question w.files host.cwd p with
  | ok value => simp [hq, Except.mapError] at he
  | error fault =>
    simp only [hq, Except.mapError, Except.error.injEq] at he
    exact he ▸ hP fault

theorem FailsWith.changeFiles (hP : ∀ fault, P (.file fault))
    (change : FileTree → Location → Except FileFault FileTree) :
    FailsWith P (Act.changeFiles change) := by
  intro host w e he
  rw [Act.changeFiles] at he
  split at he
  · cases he
  · next fault hfault =>
    cases he
    exact hP fault

theorem FailsWith.changeFilesPartly (hP : ∀ fault, P (.file fault))
    (change : FileTree → Location → FileTree × Option FileFault) :
    FailsWith P (Act.changeFilesPartly change) := by
  intro host w e he
  rw [Act.changeFilesPartly] at he
  split at he
  · cases he
  · next fault hfault =>
    cases he
    exact hP fault

-- ════════════════════════════════════════════════════════════════════════
-- Files
-- ════════════════════════════════════════════════════════════════════════

theorem ask_of_ok {question : FileTree → Location → Path → Except FileFault α} {p : Path}
    {host : Host} {w : World} {answer : α} (h : question w.files host.cwd p = .ok answer) :
    ask question p host w = (.ok answer, w) := by
  rw [ask, h]
  rfl

theorem ask_of_error {question : FileTree → Location → Path → Except FileFault α} {p : Path}
    {host : Host} {w : World} {fault : FileFault}
    (h : question w.files host.cwd p = .error fault) :
    ask question p host w = (.error (.file fault), w) := by
  rw [ask, h]
  rfl

theorem changeFiles_of_ok {change : FileTree → Location → Except FileFault FileTree} {host : Host}
    {w : World} {files : FileTree} (h : change w.files host.cwd = .ok files) :
    changeFiles change host w = (.ok (), { w with files }) := by
  rw [changeFiles, h]

theorem changeFilesPartly_of_ok {change : FileTree → Location → FileTree × Option FileFault}
    {host : Host} {w : World} {files : FileTree} (h : change w.files host.cwd = (files, none)) :
    changeFilesPartly change host w = (.ok (), { w with files }) := by
  rw [changeFilesPartly, h]

/-- A question that is answered says what holds of the files. -/
theorem ask_eq_ok {question : FileTree → Location → Path → Except FileFault α} {p : Path}
    {host : Host} {w w' : World} {answer : α} (h : ask question p host w = (.ok answer, w')) :
    w' = w ∧ question w.files host.cwd p = .ok answer := by
  rw [ask] at h
  obtain ⟨hresult, rfl⟩ := Prod.mk.inj h
  cases hasked : question w.files host.cwd p with
  | error fault => simp [hasked, Except.mapError] at hresult
  | ok value =>
    rw [hasked] at hresult
    exact ⟨rfl, congrArg Except.ok (Except.ok.inj hresult)⟩

theorem changeFiles_eq_ok {change : FileTree → Location → Except FileFault FileTree} {host : Host}
    {w w' : World} (h : changeFiles change host w = (.ok (), w')) :
    change w.files host.cwd = .ok w'.files := by
  rw [changeFiles] at h
  split at h
  · next files hfiles =>
    cases h
    exact hfiles
  · cases h

theorem changeFilesPartly_eq_ok {change : FileTree → Location → FileTree × Option FileFault}
    {host : Host} {w w' : World} (h : changeFilesPartly change host w = (.ok (), w')) :
    change w.files host.cwd = (w'.files, none) := by
  rw [changeFilesPartly] at h
  split at h
  · next files hfiles =>
    cases h
    exact hfiles
  · cases h

theorem writeText_of_ok {path : Path} {text : String} {host : Host} {w : World} {files : FileTree}
    (h : w.files.write host.cwd path (utf8Bytes text) = .ok files) :
    writeText path text host w = (.ok (), { w with files }) := by
  unfold writeText Act.changeFiles
  dsimp only
  rw [h]

theorem writeText_of_error {path : Path} {text : String} {host : Host} {w : World}
    {fault : FileFault} (h : w.files.write host.cwd path (utf8Bytes text) = .error fault) :
    writeText path text host w = (.error (.file fault), w) := by
  unfold writeText Act.changeFiles
  dsimp only
  rw [h]

/-- Writing a text succeeds where the path takes a file, and does nothing else. -/
theorem writeText_cases (path : Path) (text : String) (host : Host) (w : World) :
    (∃ w', writeText path text host w = (.ok (), w') ∧
        w.files.takesFile host.cwd path = true ∧ w'.calls = w.calls ∧
        ∃ bytes, w.files.write host.cwd path bytes = .ok w'.files) ∨
      ∃ fault, writeText path text host w = (.error (.file fault), w) ∧
        w.files.takesFile host.cwd path = false := by
  have htakes := w.files.isOk_write host.cwd path (utf8Bytes text)
  cases hwrite : w.files.write host.cwd path (utf8Bytes text) with
  | ok files =>
    rw [hwrite] at htakes
    exact Or.inl ⟨{ w with files }, writeText_of_ok hwrite, htakes.symm, rfl, utf8Bytes text, hwrite⟩
  | error fault =>
    rw [hwrite] at htakes
    exact Or.inr ⟨fault, writeText_of_error hwrite, htakes.symm⟩

/-- Writing a text that succeeds does this to the files, and nothing else. -/
theorem writeText_eq_ok {path : Path} {text : String} {host : Host} {w w' : World}
    (h : writeText path text host w = (.ok (), w')) :
    w.files.write host.cwd path (utf8Bytes text) = .ok w'.files ∧ w'.calls = w.calls := by
  cases hwrite : w.files.write host.cwd path (utf8Bytes text) with
  | ok files =>
    cases (writeText_of_ok hwrite).symm.trans h
    exact ⟨rfl, rfl⟩
  | error fault => cases (writeText_of_error hwrite).symm.trans h

/-- Making directories touches no file, whether all of them can be made or not. -/
theorem makeDirectories_cases (path : Path) (host : Host) (w : World) :
    ∃ result w', makeDirectories path host w = (result, w') ∧ w'.calls = w.calls ∧
      w.files.SameFiles w'.files ∧
      ((result = .ok () ∧ w.files.makeDirectories host.cwd path = .ok w'.files) ∨
        ∃ fault, result = .error (.file fault) ∧
          w.files.makeDirectories host.cwd path = .error fault) := by
  have hsame := w.files.sameFiles_makeDirectoriesPartly host.cwd path
  unfold makeDirectories Act.changeFilesPartly FileTree.makeDirectories
  dsimp only
  cases hmade : w.files.makeDirectoriesPartly host.cwd path with
  | mk files trouble =>
    rw [hmade] at hsame
    cases trouble with
    | none => exact ⟨_, _, rfl, rfl, hsame, Or.inl ⟨rfl, rfl⟩⟩
    | some fault => exact ⟨_, _, rfl, rfl, hsame, Or.inr ⟨fault, rfl, rfl⟩⟩

-- ════════════════════════════════════════════════════════════════════════
-- Scratch directories
-- ════════════════════════════════════════════════════════════════════════

theorem scratchPlace_injective (host : Host) (stem : String) :
    Function.Injective (scratchPlace host stem) := by
  intro m n h
  have hname : stem ++ toString m = stem ++ toString n := by
    simpa [scratchPlace] using h
  have hdigits : Nat.toDigits 10 m = Nat.toDigits 10 n := by
    rw [String.append_right_inj, Nat.toString_eq_repr, Nat.toString_eq_repr] at hname
    rw [← Nat.toList_repr, hname, Nat.toList_repr]
  rw [← Nat.ofDigitChars_ten_toDigits (n := m), hdigits, Nat.ofDigitChars_ten_toDigits]

/-- A new scratch directory stands where nothing stood before. -/
theorem makeScratch_apply (stem : String) (host : Host) (w : World) :
    ∃ n, w.files.isFree (scratchPlace host stem n) = true ∧
      makeScratch stem host w =
        (.ok (scratchPlace host stem n),
          { w with
            files := w.files.put (scratchPlace host stem n) .directory
            scratchCount := n + 1 }) := by
  refine ⟨_, FileTree.isFree_firstFree (host.scratch.length + 1)
    (scratchPlace_injective host stem) (fun n => ?_) w.scratchCount, rfl⟩
  simp [scratchPlace]

/-- An operation in a scratch directory: the directory is there while it runs, and gone with all
that is in it afterwards. -/
theorem inScratch_apply (stem : String) (body : Location → Act α) (host : Host) (w : World) :
    ∃ n, w.files.isFree (scratchPlace host stem n) = true ∧
      inScratch stem body host w =
        let after := body (scratchPlace host stem n) host
          { w with
            files := w.files.put (scratchPlace host stem n) .directory
            scratchCount := n + 1 }
        (after.1, { after.2 with
          files := after.2.files.removeBelow (scratchPlace host stem n) }) := by
  obtain ⟨n, hfree, hmake⟩ := makeScratch_apply stem host w
  refine ⟨n, hfree, ?_⟩
  rw [inScratch, bind_apply, hmake]
  rfl

end Act

/-- A world whose directory for scratch directories is reached without links, in a tree whose names
are plain. -/
structure World.Grounded (host : Host) (w : World) : Prop where
  leads : ∀ above, above <+: host.scratch → w.files.node? above = some .directory
  plain : Plain host.scratch
  named : ∀ entry ∈ w.files.entries, Plain entry.1

/-- A scratch directory is enclosed from the start. -/
theorem World.Grounded.enclosed {host : Host} {w : World} (h : w.Grounded host) {stem : String}
    {n : Nat} (hstem : 2 < stem.length)
    (hfree : w.files.isFree (Act.scratchPlace host stem n) = true) :
    (w.files.put (Act.scratchPlace host stem n) .directory).Enclosed
      (Act.scratchPlace host stem n) := by
  have hempty : Act.scratchPlace host stem n ≠ [] := by simp [Act.scratchPlace]
  have hplain : Plain (Act.scratchPlace host stem n) := by
    refine h.plain.append fun name hname => ?_
    have hlen : 2 < name.length := by
      rw [List.mem_singleton.mp hname, String.length_append]
      omega
    constructor
    · rintro rfl
      exact absurd hlen (by decide)
    · rintro rfl
      exact absurd hlen (by decide)
  refine ⟨fun above habove => ?_, fun below target hbelow => ?_, hplain, fun entry hmem => ?_⟩
  · by_cases hsame : above = Act.scratchPlace host stem n
    · rw [hsame, FileTree.node?_put_self _ hempty]
    · rw [FileTree.node?_put_of_ne _ hsame]
      rcases List.prefix_concat_iff.mp habove with heq | hpre
      · exact absurd heq hsame
      · exact h.leads above hpre
  · by_cases hsame : below = Act.scratchPlace host stem n
    · rw [hsame, FileTree.node?_put_self _ hempty]
      simp
    · rw [FileTree.node?_put_of_ne _ hsame, FileTree.node?_of_isFree hfree ?_ hbelow]
      · simp
      · rintro rfl
        exact hempty (List.prefix_nil.mp hbelow)
  · rcases FileTree.mem_putEntry hmem with hold | rfl
    · exact h.named entry hold
    · exact hplain

end TwoStage
