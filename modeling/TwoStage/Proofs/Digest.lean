import TwoStage.Digest.Comparison
import TwoStage.Proofs.FileTree.Listing
import TwoStage.Proofs.Pipeline.Reference
import TwoStage.Proofs.Text.Blank
import TwoStage.Proofs.Text.Case
import TwoStage.Proofs.Text.Utf8

/-!
# What digests tell

The input for the digest of some files can be read in one way only, if no name has a zero character:
each name ends at the first zero byte, and each hash at the next line feed. So files with the same
digest are the same files, unless two of the byte strings that are hashed collide. Hashes are
spelled in small digits, with nothing around them, so that two of them agree only if they are equal.

## Main definitions

- `NoCollision` — byte strings of which different ones have different hashes
- `FileTree.hashed` — the byte strings that are hashed for the digest of some files

## Main statements

- `FileTree.digestInput_injective` — the input for a digest tells the names and the hashes
- `FileTree.eq_of_sha256_digestInput` — the digest tells the files
- `sameDigest_sha256` — spellings of hashes agree only where these are equal
-/

namespace TwoStage

/-- Different byte strings among these have different hashes. -/
def NoCollision (messages : List ByteArray) : Prop :=
  ∀ first ∈ messages, ∀ second ∈ messages, sha256 first = sha256 second → first = second

theorem noCollision_of_nodup {messages distinct : List ByteArray} (hsubset : messages ⊆ distinct)
    (hnodup : (distinct.map sha256).Nodup) : NoCollision messages :=
  fun _ hfirst _ hsecond heq => List.inj_on_of_nodup_map hnodup (hsubset hfirst) (hsubset hsecond) heq

/-- The byte strings that are hashed for the digest of some files: what is made of them all, and what
each of them holds. -/
def FileTree.hashed (files : List (String × ByteArray)) : List ByteArray :=
  digestInput files :: files.map Prod.snd

-- ════════════════════════════════════════════════════════════════════════
-- The input for a digest
-- ════════════════════════════════════════════════════════════════════════

namespace FileTree

theorem toList_digestEntry (name : String) (bytes : ByteArray) :
    (digestEntry name bytes).toList =
      (utf8Bytes name).toList ++ 0 :: ((utf8Bytes (sha256 bytes)).toList ++ [0x0a]) := by
  simp [digestEntry, toList_eq_data]

theorem toList_digestInput (files : List (String × ByteArray)) :
    (digestInput files).toList =
      files.flatMap fun file => (digestEntry file.1 file.2).toList := by
  have hfrom : ∀ input : ByteArray,
      (files.foldl (fun input file => input ++ digestEntry file.1 file.2) input).toList =
        input.toList ++ files.flatMap fun file => (digestEntry file.1 file.2).toList := by
    induction files with
    | nil => simp
    | cons file files ih =>
      intro input
      rw [List.foldl_cons, ih, List.flatMap_cons, ← List.append_assoc]
      simp [toList_eq_data]
  rw [digestInput, hfrom, toList_eq_data]
  rfl

/-- A list is told apart at the first place of a mark. -/
private theorem append_mark_inj {mark : UInt8} {before other after more : List UInt8}
    (hbefore : mark ∉ before) (hother : mark ∉ other)
    (h : before ++ mark :: after = other ++ mark :: more) : before = other ∧ after = more := by
  rcases List.append_eq_append_iff.mp h with ⟨_ | ⟨b, between⟩, hsplit, hrest⟩ |
    ⟨_ | ⟨b, between⟩, hsplit, hrest⟩
  · simp_all
  · obtain ⟨rfl, -⟩ := List.cons.inj hrest
    exact absurd (by simp [hsplit]) hother
  · simp_all
  · obtain ⟨rfl, -⟩ := List.cons.inj hrest
    exact absurd (by simp [hsplit]) hbefore

/-- What one file adds is told from what follows. -/
theorem digestEntry_append_inj {name other : String} (hname : '\x00' ∉ name.toList)
    (hother : '\x00' ∉ other.toList) {bytes held : ByteArray} {rest more : List UInt8}
    (h : (digestEntry name bytes).toList ++ rest = (digestEntry other held).toList ++ more) :
    name = other ∧ sha256 bytes = sha256 held ∧ rest = more := by
  have hnull : ∀ {name : String}, '\x00' ∉ name.toList → (0 : UInt8) ∉ (utf8Bytes name).toList :=
    fun hname hmem => hname (mem_of_mem_utf8Bytes (c := '\x00') (by decide) hmem)
  have hline : ∀ bytes : ByteArray, (0x0a : UInt8) ∉ (utf8Bytes (sha256 bytes)).toList :=
    fun bytes hmem =>
      not_mem_sha256 (by decide) bytes (mem_of_mem_utf8Bytes (c := '\n') (by decide) hmem)
  have htext : ∀ {s other : String}, (utf8Bytes s).toList = (utf8Bytes other).toList → s = other := by
    intro s other heq
    refine utf8Bytes_injective ?_
    rw [← toByteArray_toList (utf8Bytes s), heq, toByteArray_toList]
  rw [toList_digestEntry, toList_digestEntry] at h
  simp only [List.append_assoc, List.cons_append, List.nil_append] at h
  obtain ⟨hnames, hbehind⟩ := append_mark_inj (hnull hname) (hnull hother) h
  obtain ⟨hhashes, hrest⟩ := append_mark_inj (hline bytes) (hline held) hbehind
  exact ⟨htext hnames, htext hhashes, hrest⟩

/-- The input for a digest tells the files, if different contents have different hashes. -/
theorem digestInput_injective {files other : List (String × ByteArray)}
    (hfiles : ∀ file ∈ files, '\x00' ∉ file.1.toList)
    (hother : ∀ file ∈ other, '\x00' ∉ file.1.toList)
    (hhashes : ∀ file ∈ files, ∀ held ∈ other, sha256 file.2 = sha256 held.2 → file.2 = held.2)
    (h : digestInput files = digestInput other) : files = other := by
  have hbytes := congrArg ByteArray.toList h
  rw [toList_digestInput, toList_digestInput] at hbytes
  clear h
  -- an entry is never empty
  have hne : ∀ (file : String × ByteArray) rest,
      (digestEntry file.1 file.2).toList ++ rest ≠ [] := by
    intro file rest hnil
    rw [toList_digestEntry] at hnil
    simp at hnil
  induction files generalizing other with
  | nil =>
    cases other with
    | nil => rfl
    | cons held other => exact absurd hbytes.symm (hne held _)
  | cons file files ih =>
    cases other with
    | nil => exact absurd hbytes (hne file _)
    | cons held other =>
      obtain ⟨hname, hnames⟩ := List.forall_mem_cons.mp hfiles
      obtain ⟨hname', hnames'⟩ := List.forall_mem_cons.mp hother
      obtain ⟨hsame, hhash, hrest⟩ := digestEntry_append_inj hname hname' hbytes
      have hfirst : file = held := Prod.ext hsame
        (hhashes file List.mem_cons_self held List.mem_cons_self hhash)
      have hothers : files = other := ih hnames hnames'
        (fun one hone another hanother =>
          hhashes one (List.mem_cons_of_mem _ hone) another (List.mem_cons_of_mem _ hanother)) hrest
      rw [hfirst, hothers]

/-- Files with the same digest are the same, unless something that is hashed for it collides. -/
theorem eq_of_sha256_digestInput {files other : List (String × ByteArray)}
    (hfiles : ∀ file ∈ files, '\x00' ∉ file.1.toList)
    (hother : ∀ file ∈ other, '\x00' ∉ file.1.toList)
    (hcollision : NoCollision (hashed files ++ hashed other))
    (h : sha256 (digestInput files) = sha256 (digestInput other)) : files = other := by
  refine digestInput_injective hfiles hother (fun file hfile held hheld hhash => ?_)
    (hcollision _ (by simp [hashed]) _ (by simp [hashed]) h)
  have hmem : file.2 ∈ files.map Prod.snd := List.mem_map_of_mem hfile
  have hmem' : held.2 ∈ other.map Prod.snd := List.mem_map_of_mem hheld
  exact hcollision _ (by simp [hashed, hmem]) _ (by simp [hashed, hmem']) hhash

end FileTree

-- ════════════════════════════════════════════════════════════════════════
-- Spellings of hashes
-- ════════════════════════════════════════════════════════════════════════

/-- A text of small digits in base sixteen has no capital letters. -/
theorem lowerFrom_eq_self (before : List Char) {cs : List Char}
    (h : ∀ c ∈ cs, ∃ digit < 16, c = hexDigit digit) : lowerFrom before cs = cs := by
  have hdigit : ∀ digit < 16,
      (hexDigit digit).toNat < 0x80 ∧ (hexDigit digit).toLower = hexDigit digit := by decide
  have hascii : ∀ c ∈ cs, c.toNat < 0x80 ∧ c.toLower = c := by
    intro c hc
    obtain ⟨digit, hlt, rfl⟩ := h c hc
    exact hdigit digit hlt
  rw [lowerFrom_of_ascii fun c hc => (hascii c hc).1]
  exact (List.map_congr_left fun c hc => (hascii c hc).2).trans (List.map_id _)

/-- A hash is spelled as digests are compared. -/
theorem bareDigest_sha256 (message : ByteArray) : bareDigest (sha256 message) = sha256 message := by
  have hblank : ∀ digit < 16, isBlank (hexDigit digit) = false := by decide
  have hstrip : stripChars (sha256 message).toList = (sha256 message).toList := by
    refine stripChars_eq_self fun c hc => ?_
    obtain ⟨digit, hdigit, rfl⟩ := mem_sha256 hc
    exact hblank digit hdigit
  have hstart : afterStart? "sha256:".toList (sha256 message).toList = none := by
    refine Option.eq_none_iff_forall_ne_some.mpr fun rest hrest => ?_
    refine not_mem_sha256 (c := ':') (by decide) message ?_
    rw [afterStart?_eq_some_iff.mp hrest]
    exact List.mem_append_left _ (by decide)
  rw [bareDigest, hstrip, hstart, Option.getD_none, lower, String.toList_ofList,
    lowerFrom_eq_self [] fun c hc => mem_sha256 hc, String.ofList_toList]

/-- Hashes agree only where they are equal. -/
theorem sameDigest_sha256 (first second : ByteArray) :
    sameDigest (sha256 first) (sha256 second) = true ↔ sha256 first = sha256 second := by
  have hne : (sha256 second).isEmpty = false := by
    rw [String.isEmpty_eq_false_iff]
    intro hempty
    have hlength := length_sha256 second
    rw [hempty] at hlength
    cases hlength
  rw [sameDigest, bareDigest_sha256, bareDigest_sha256, hne]
  simp

end TwoStage
