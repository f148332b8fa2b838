import TwoStage.Proofs.Cli.Markup
import TwoStage.Proofs.Cli.Requests
import TwoStage.Proofs.Json.Tame
import TwoStage.Proofs.Pipeline.Delivery

/-!
# Any file for a record

A request for the digest can be given any file to compare with. Where the file cannot be read, is
not UTF-8 or is not JSON, the request says so; where it holds an object, the digest in it is
compared if it is a text, and a missing one agrees with none. Two kinds of JSON are not held back: a
value that is no object, and an object whose digest is no text. There the request ends with an error
of its own making. What it says holds the path of the file and the digest in it, so that it can be
shown only if the tags in these are balanced.

## Main definitions

- `Cli.HoldsJson`, `Cli.Records` — what a file holds, and the digest that it records
- `Cli.WellShaped` — contents without one of these two kinds of JSON
- `Cli.Handles` — a request that ends as its options promise

## Main statements

- `Cli.recordedDigest_cases` — reading the digest from any file
- `Cli.digest_handles_iff` — which files are handled
- `Cli.digest_not_handles` — a list is not
-/

namespace TwoStage

open Act

/-- Reading a file fails only where the file system refuses something, or at a null character. -/
theorem FileTree.fault_of_read {t : FileTree} {cwd : Location} {p : Path} {fault : FileFault}
    (h : t.read cwd p = .error fault) :
    (∃ why path, fault = .refused why path) ∨ fault = .nullByte := by
  rw [read] at h
  split at h
  · cases h
  · cases h
    exact Or.inl ⟨_, _, rfl⟩
  · cases h
    exact Or.inl ⟨_, _, rfl⟩
  · next other hwalk =>
    cases h
    rw [walk] at hwalk
    split at hwalk
    · cases hwalk
      exact Or.inr rfl
    · split at hwalk
      · cases hwalk
        exact Or.inl ⟨_, _, rfl⟩
      · split at hwalk
        · cases hwalk
        · cases hwalk
          exact Or.inl ⟨_, _, rfl⟩

namespace Cli

/-- A file holds JSON in UTF-8, line ends being unified. -/
def HoldsJson (content : Except FileFault ByteArray) (value : Json) : Prop :=
  ∃ text, content = .ok (utf8Bytes text) ∧ Json.read (unifyNewlines text) = .ok value

/-- A file holds an object in which a digest is recorded as a text. -/
def Records (content : Except FileFault ByteArray) (recorded : String) : Prop :=
  ∃ members, HoldsJson content (.obj members) ∧
    members.lookup "source_sha256" = some (.str recorded)

/-- If a file holds JSON, it is an object, and if that has a digest, it is a text. -/
def WellShaped (content : Except FileFault ByteArray) : Prop :=
  ∀ value, HoldsJson content value → ∃ members, value = .obj members ∧
    ∀ found, members.lookup "source_sha256" = some found → ∃ recorded, found = .str recorded

/-- A request for the digest `got` of some sources, and for its comparison with a file, ends with an
exit code, all being shown: with zero exactly where the file records a digest that agrees, and
otherwise with one and a message behind the digest. -/
structure Handles (rules : Markup.Rules) (content : Except FileFault ByteArray) (got : String)
    (w : World) (ended : Except Error Int × World) : Prop where
  returns : ∃ code, Exits rules w ended code
  zero_iff : ended.1 = .ok 0 ↔ ∃ recorded, Records content recorded ∧ sameDigest got recorded = true
  refuses : ended.1 ≠ .ok 0 → ended.1 = .ok 1 ∧ ∃ message,
    ended.2.shown = w.shown ++ [.plain ("sha256:" ++ got ++ "\n"), .marked message]

theorem HoldsJson.unique {content : Except FileFault ByteArray} {value other : Json}
    (h : HoldsJson content value) (ho : HoldsJson content other) : value = other := by
  obtain ⟨text, hbytes, hread⟩ := h
  obtain ⟨text', hbytes', hread'⟩ := ho
  rw [hbytes] at hbytes'
  rw [← utf8Bytes_injective (Except.ok.inj hbytes'), hread] at hread'
  exact Except.ok.inj hread'

-- ════════════════════════════════════════════════════════════════════════
-- Reading the digest
-- ════════════════════════════════════════════════════════════════════════

section

variable {host : Host} {w : World}

/-- The digest that a value records. -/
def recordedIn : Json → Except Error Json
  | .obj members => .ok ((members.lookup "source_sha256").getD (.str ""))
  | _ => .error (.shape .noMembers)

/-- A file holds JSON, in which the digest is looked up, or it is not readable. -/
theorem recordedDigest_cases (lock : String) (host : Host) (w : World) :
    (∃ value, HoldsJson (w.files.read host.cwd (.ofText lock)) value ∧
      recordedDigest lock host w = (recordedIn value, w)) ∨
    (∀ value, ¬ HoldsJson (w.files.read host.cwd (.ofText lock)) value) ∧
      ∃ e, saysUnreadable e = true ∧ recordedDigest lock host w = (.error e, w) := by
  cases hcontent : w.files.read host.cwd (.ofText lock) with
  | error fault =>
    have hread : readText (.ofText lock) host w = (.error (.file fault), w) :=
      bind_of_error (ask_of_error hcontent)
    refine Or.inr ⟨by simp [HoldsJson], .file fault, ?_, bind_of_error hread⟩
    rcases FileTree.fault_of_read hcontent with ⟨why, path, rfl⟩ | rfl <;> rfl
  | ok bytes =>
    have hread := ConfigFile.readText_of_read hcontent
    cases hdecode : Utf8.decode bytes with
    | error fault =>
      rw [hdecode] at hread
      refine Or.inr ⟨?_, .notUtf8 fault, rfl, bind_of_error hread⟩
      rintro value ⟨text, hbytes, -⟩
      rw [Utf8.decode_eq_ok_iff.mpr (Except.ok.inj hbytes)] at hdecode
      cases hdecode
    | ok text =>
      obtain rfl := Utf8.decode_eq_ok_iff.mp hdecode
      rw [hdecode] at hread
      have hrecorded : recordedDigest lock host w = _ := bind_of_ok hread
      cases hvalue : Json.read (unifyNewlines text) with
      | error why =>
        rw [hvalue] at hrecorded
        refine Or.inr ⟨?_, .notJson why, rfl, hrecorded⟩
        rintro value ⟨other, hbytes, hother⟩
        rw [← utf8Bytes_injective (Except.ok.inj hbytes), hvalue] at hother
        cases hother
      | ok value =>
        rw [hvalue] at hrecorded
        refine Or.inl ⟨value, ⟨text, rfl, hvalue⟩, hrecorded.trans ?_⟩
        cases value <;> rfl

-- ════════════════════════════════════════════════════════════════════════
-- Comparing
-- ════════════════════════════════════════════════════════════════════════

theorem compareWithLock_of_unreadable {got lock : String} {e : Error}
    (hunreadable : saysUnreadable e = true) (h : recordedDigest lock host w = (.error e, w)) :
    compareWithLock got lock host w =
      showError ("cannot read " ++ lock ++ ": " ++ e.message) host w := by
  have hrecorded : outcome (recordedDigest lock) host w = (.ok (.error e), w) := by
    rw [outcome, h]
  rw [compareWithLock, bind_of_ok hrecorded]
  dsimp only
  rw [if_pos hunreadable]

theorem compareWithLock_of_noMembers {got lock : String}
    (h : recordedDigest lock host w = (.error (.shape .noMembers), w)) :
    compareWithLock got lock host w = (.error (.shape .noMembers), w) := by
  have hrecorded : outcome (recordedDigest lock) host w =
      (.ok (.error (.shape .noMembers)), w) := by
    rw [outcome, h]
  rw [compareWithLock, bind_of_ok hrecorded]
  rfl

theorem compareWithLock_of_notText {got lock : String} {found : Json}
    (hfound : ∀ recorded, found ≠ .str recorded)
    (h : recordedDigest lock host w = (.ok found, w)) :
    compareWithLock got lock host w = (.error (.shape .notText), w) := by
  have hrecorded : outcome (recordedDigest lock) host w = (.ok (.ok found), w) := by
    rw [outcome, h]
  rw [compareWithLock, bind_of_ok hrecorded]
  cases found with
  | str recorded => exact absurd rfl (hfound recorded)
  | _ => rfl

/-- An empty digest agrees with none. -/
theorem sameDigest_empty (got : String) : sameDigest got "" = false := by
  have hempty : bareDigest "" = "" := by decide +kernel
  rw [sameDigest, hempty]
  rfl

/-- A request that ends with one and a message is right where no recorded digest agrees. -/
theorem Handles.of_refusal {rules : Markup.Rules} {content : Except FileFault ByteArray}
    {got : String} {before : World} {ended : Except Error Int × World}
    (hshows : Shows rules before ended.2)
    (hnone : ∀ recorded, Records content recorded → sameDigest got recorded = false)
    (hcode : ended.1 = .ok 1)
    (hshown : ∃ message, ended.2.shown =
      before.shown ++ [.plain ("sha256:" ++ got ++ "\n"), .marked message]) :
    Handles rules content got before ended := by
  refine ⟨⟨1, hcode, hshows⟩, ?_, fun _ => ⟨hcode, hshown⟩⟩
  rw [hcode]
  refine iff_of_false (by simp) ?_
  rintro ⟨recorded, hrecords, hsame⟩
  rw [hnone recorded hrecords] at hsame
  cases hsame

section

variable {rules : Markup.Rules} {got lock : String} {before : World}
  (hshown : w.shown = before.shown ++ [.plain ("sha256:" ++ got ++ "\n")])
  (hshows : Shows rules before (compareWithLock got lock host w).2)

include hshown hshows

/-- A text is compared, if it is the one that is recorded wherever it agrees. -/
theorem Handles.of_text {recorded : String}
    (h : recordedDigest lock host w = (.ok (.str recorded), w))
    (honly : ∀ other, Records (w.files.read host.cwd (.ofText lock)) other → other = recorded)
    (hagrees : sameDigest got recorded = true →
      Records (w.files.read host.cwd (.ofText lock)) recorded) :
    Handles rules (w.files.read host.cwd (.ofText lock)) got before
      (compareWithLock got lock host w) := by
  rw [compareWithLock_of_text h] at hshows ⊢
  by_cases hsame : sameDigest got recorded = true
  · rw [if_pos hsame]
    exact ⟨⟨0, rfl, hshows⟩, iff_of_true rfl ⟨recorded, hagrees hsame, hsame⟩,
      fun hne => absurd rfl hne⟩
  · have hlast : ∃ message, w.shown ++ [comparison lock got recorded] =
        before.shown ++ [.plain ("sha256:" ++ got ++ "\n"), .marked message] := by
      rw [comparison, if_neg hsame, hshown, List.append_assoc]
      exact ⟨_, rfl⟩
    refine .of_refusal hshows (fun other hother => ?_) (by rw [if_neg hsame]) hlast
    rw [honly other hother]
    exact Bool.eq_false_iff.mpr hsame

theorem handles_of_wellShaped (h : WellShaped (w.files.read host.cwd (.ofText lock))) :
    Handles rules (w.files.read host.cwd (.ofText lock)) got before
      (compareWithLock got lock host w) := by
  rcases recordedDigest_cases lock host w with
    ⟨value, hholds, hrecorded⟩ | ⟨hnone, e, hunreadable, hrecorded⟩
  · obtain ⟨members, rfl, htext⟩ := h value hholds
    -- the members that records are looked up in are those of this object
    have hlookup : ∀ {other}, Records (w.files.read host.cwd (.ofText lock)) other →
        members.lookup "source_sha256" = some (.str other) := by
      rintro other ⟨found, hfound, hother⟩
      cases hholds.unique hfound
      exact hother
    rw [recordedIn] at hrecorded
    cases hfound : members.lookup "source_sha256" with
    | none =>
      rw [hfound] at hrecorded
      refine .of_text hshown hshows hrecorded (fun other hother => ?_) fun hsame => ?_
      · rw [hlookup hother] at hfound
        cases hfound
      · rw [sameDigest_empty] at hsame
        cases hsame
    | some found =>
      obtain ⟨recorded, rfl⟩ := htext found hfound
      rw [hfound] at hrecorded
      refine .of_text hshown hshows hrecorded (fun other hother => ?_)
        fun _ => ⟨members, hholds, hfound⟩
      rw [hlookup hother] at hfound
      cases hfound
      rfl
  · rw [compareWithLock_of_unreadable hunreadable hrecorded] at hshows ⊢
    have hlast : ∃ message,
        (showError ("cannot read " ++ lock ++ ": " ++ e.message) host w).2.shown =
          before.shown ++ [.plain ("sha256:" ++ got ++ "\n"), .marked message] := by
      refine ⟨tagged "red" "Error:" ++ " " ++ ("cannot read " ++ lock ++ ": " ++ e.message), ?_⟩
      show w.shown ++ [_] = _
      rw [hshown, List.append_assoc]
      rfl
    refine .of_refusal hshows (fun recorded hrecords => ?_) rfl hlast
    obtain ⟨members, hholds, -⟩ := hrecords
    exact absurd hholds (hnone _)

end

/-- What is not well shaped ends the comparison with an error in the form of data. -/
theorem shape_of_not_wellShaped {got lock : String}
    (h : ¬ WellShaped (w.files.read host.cwd (.ofText lock))) :
    ∃ fault, (compareWithLock got lock host w).1 = .error (.shape fault) := by
  rcases recordedDigest_cases lock host w with
    ⟨value, hholds, hrecorded⟩ | ⟨hnone, -⟩
  · by_cases hobject : ∃ members, value = .obj members
    · obtain ⟨members, rfl⟩ := hobject
      obtain ⟨found, hfound, hnotText⟩ : ∃ found,
          members.lookup "source_sha256" = some found ∧ ∀ recorded, found ≠ .str recorded := by
        by_contra hall
        push Not at hall
        refine h fun other hother => ?_
        cases hholds.unique hother
        exact ⟨members, rfl, hall⟩
      rw [recordedIn, hfound] at hrecorded
      rw [compareWithLock_of_notText hnotText hrecorded]
      exact ⟨.notText, rfl⟩
    · have hin : recordedIn value = .error (.shape .noMembers) := by
        cases value with
        | obj members => exact absurd ⟨members, rfl⟩ hobject
        | _ => rfl
      rw [hin] at hrecorded
      rw [compareWithLock_of_noMembers hrecorded]
      exact ⟨.noMembers, rfl⟩
  · exact absurd (fun value hvalue => absurd hvalue (hnone value)) h

end

/-- Where a specification is loaded and the sources are staged, a request for their digest and for
its comparison with a file handles that file exactly if it is well shaped and all that the request
shows can be shown, unless the text in it is one that readers do not take alike. A file that is not
well shaped ends the request with an error in the form of data. -/
theorem digest_handles_iff {source lock : String} {config : Option String} {spec : Spec}
    {context : StagedContext} {host : Host} {w : World} (hw : w.Grounded host)
    (hload : (loadSpec config none host w).1 = .ok spec)
    (hstage : (spec.stage (Path.ofText source) host w).1 = .ok context) (rules : Markup.Rules) :
    let content := w.files.read host.cwd (.ofText lock)
    let ended := (Request.digest source config (some lock)).perform host w
    (∀ text, content = .ok (utf8Bytes text) → Json.IsTame text) →
    (Handles rules content context.sourceDigest w ended ↔
      WellShaped content ∧ Shows rules w ended.2) ∧
    (¬ WellShaped content → ∃ fault, ended.1 = .error (.shape fault)) := by
  intro content ended _
  have hspec : spec.StaysInside := by
    obtain ⟨-, plain, -, haccepted, rfl⟩ := loadSpec_eq_ok (eq_mk_of_fst hload)
    exact haccepted.staysInside
  obtain ⟨v, hperform, hfiles, hshown⟩ :=
    performDigest_of_stage lock hspec hw hload (Prod.ext hstage rfl)
  simp only [content, ended, Request.perform]
  rw [hperform, ← hfiles]
  refine ⟨⟨fun hhandles => ?_, ?_⟩, shape_of_not_wellShaped⟩
  · obtain ⟨code, hcode, hshows⟩ := hhandles.returns
    refine ⟨?_, hshows⟩
    by_contra hshape
    obtain ⟨fault, hfault⟩ := shape_of_not_wellShaped hshape
    rw [hfault] at hcode
    cases hcode
  · rintro ⟨hshape, hshows⟩
    exact handles_of_wellShaped hshown hshows hshape

/-- The stock world with a file beside the sources. -/
def recordWorld (text : String) : World :=
  { World.stocked with
    files := World.stocked.files.put ["work", "image.lock.json"] (.file (utf8Bytes text)) }

/-- An object with a digest that is a text. -/
def textRecord : String := "\x7b\x22source_sha256\x22: \x22sha256:0\x22\x7d"

theorem read_textRecord : Json.read (unifyNewlines textRecord) =
    .ok (.obj [("source_sha256", .str "sha256:0")]) := by
  cbv

theorem check_recordWorld : ∀ text ∈ [textRecord, "[]"],
    (recordWorld text).Sound ConfigFile.idleHost ∧
    (loadSpec none none ConfigFile.idleHost (recordWorld text)).1.toOption = some Spec.standard ∧
    (Spec.standard.stage (.ofText ".") ConfigFile.idleHost (recordWorld text)).1.isOk = true ∧
    (recordWorld text).files.read ["work"] (.ofText "image.lock.json") =
      .ok (utf8Bytes text) ∧
    Json.IsTame text ∧
    ∀ item ∈ ((Request.digest "." none (some "image.lock.json")).perform ConfigFile.idleHost
      (recordWorld text)).2.shown.drop (recordWorld text).shown.length,
        item.isBalanced .literal = true := by
  decide +kernel

theorem isTame_of_recordWorld {text : String} (htext : text ∈ [textRecord, "[]"]) (other : String)
    (h : (recordWorld text).files.read ["work"] (.ofText "image.lock.json") =
      .ok (utf8Bytes other)) : Json.IsTame other := by
  obtain ⟨-, -, -, hread, htame, -⟩ := check_recordWorld text htext
  rwa [← utf8Bytes_injective (Except.ok.inj (hread.symm.trans h))]

/-- A record with a text is handled. -/
theorem digest_handles_text : ∃ context,
    (recordWorld textRecord).Grounded ConfigFile.idleHost ∧
    (loadSpec none none ConfigFile.idleHost (recordWorld textRecord)).1 = .ok Spec.standard ∧
    (Spec.standard.stage (.ofText ".") ConfigFile.idleHost (recordWorld textRecord)).1 =
      .ok context ∧
    Handles .literal ((recordWorld textRecord).files.read ["work"] (.ofText "image.lock.json"))
      context.sourceDigest (recordWorld textRecord)
      ((Request.digest "." none (some "image.lock.json")).perform ConfigFile.idleHost
        (recordWorld textRecord)) := by
  obtain ⟨hsound, hload, hstaged, hread, -, hshows⟩ := check_recordWorld textRecord (by simp)
  obtain ⟨context, u, hstage⟩ := Spec.standard.exists_context hstaged
  have hstages := congrArg Prod.fst hstage
  refine ⟨context, hsound.grounded, eq_ok_of_toOption hload, hstages, ?_⟩
  refine (digest_handles_iff hsound.grounded (eq_ok_of_toOption hload) hstages .literal
    (isTame_of_recordWorld (by simp))).1.mpr ⟨?_, hshows⟩
  have hholds : HoldsJson
      ((recordWorld textRecord).files.read ["work"] (.ofText "image.lock.json"))
      (.obj [("source_sha256", .str "sha256:0")]) :=
    ⟨textRecord, hread, read_textRecord⟩
  intro value hvalue
  obtain rfl := hholds.unique hvalue
  refine ⟨_, rfl, fun found hfound => ?_⟩
  cases hfound
  exact ⟨_, rfl⟩

/-- A list is not handled: the request ends with an error. -/
theorem digest_not_handles : ∃ context,
    (recordWorld "[]").Grounded ConfigFile.idleHost ∧
    (loadSpec none none ConfigFile.idleHost (recordWorld "[]")).1 = .ok Spec.standard ∧
    (Spec.standard.stage (.ofText ".") ConfigFile.idleHost (recordWorld "[]")).1 = .ok context ∧
    ¬ Handles .literal ((recordWorld "[]").files.read ["work"] (.ofText "image.lock.json"))
      context.sourceDigest (recordWorld "[]")
      ((Request.digest "." none (some "image.lock.json")).perform ConfigFile.idleHost
        (recordWorld "[]")) := by
  obtain ⟨hsound, hload, hstaged, -, -⟩ := check_recordWorld "[]" (by simp)
  obtain ⟨context, u, hstage⟩ := Spec.standard.exists_context hstaged
  refine ⟨context, hsound.grounded, eq_ok_of_toOption hload, congrArg Prod.fst hstage, ?_⟩
  intro hhandles
  obtain ⟨code, hcode, -⟩ := hhandles.returns
  have hends : ((Request.digest "." none (some "image.lock.json")).perform ConfigFile.idleHost
      (recordWorld "[]")).1.toOption = none := by
    decide +kernel
  rw [hcode] at hends
  cases hends

end Cli

end TwoStage
