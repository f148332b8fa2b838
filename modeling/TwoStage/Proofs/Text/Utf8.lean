import Mathlib.Tactic.SplitIfs
import TwoStage.Text.Utf8

/-!
# Reading what was written in UTF-8

The bytes of a text read back as the text, and bytes that read as a text are the bytes of it.

## Main definitions

- `Utf8.Begins` — bytes with which a character begins, whatever good bytes follow

## Main statements

- `Utf8.decode_eq_ok_iff` — bytes read as a text exactly where they are the bytes of it
- `mem_of_mem_utf8Bytes` — what a byte below 128 stands for
-/

namespace TwoStage

-- ════════════════════════════════════════════════════════════════════════
-- Bytes as a list
-- ════════════════════════════════════════════════════════════════════════

private theorem toListLoop_eq (bytes : ByteArray) (i : Nat) (done : List UInt8) :
    ByteArray.toList.loop bytes i done = done.reverse ++ bytes.data.toList.drop i := by
  fun_induction ByteArray.toList.loop bytes i done with
  | case1 i done h ih =>
    have hi : i < bytes.data.toList.length := h
    have hget : bytes.get! i = bytes.data.toList[i] := by
      rw [ByteArray.get!, getElem!_pos bytes.data i h, Array.getElem_toList]
    rw [ih, List.drop_eq_getElem_cons hi, hget, List.reverse_cons, List.append_assoc,
      List.singleton_append]
  | case2 i done h =>
    have hi : bytes.data.toList.length ≤ i := Nat.le_of_not_lt h
    rw [List.drop_eq_nil_of_le hi, List.append_nil]

theorem toList_eq_data (bytes : ByteArray) : bytes.toList = bytes.data.toList := by
  rw [ByteArray.toList, toListLoop_eq]
  rfl

theorem toList_toByteArray (bytes : List UInt8) : bytes.toByteArray.toList = bytes := by
  rw [toList_eq_data, List.toList_data_toByteArray]

theorem toByteArray_toList (bytes : ByteArray) : bytes.toList.toByteArray = bytes := by
  apply ByteArray.ext
  rw [List.data_toByteArray, toList_eq_data]

theorem utf8Bytes_ofList (cs : List Char) :
    utf8Bytes (String.ofList cs) = (cs.flatMap String.utf8EncodeChar).toByteArray :=
  String.toByteArray_ofList

namespace Utf8

-- ════════════════════════════════════════════════════════════════════════
-- The bytes of one character
-- ════════════════════════════════════════════════════════════════════════

/-- The bytes `read` begin a character of which `bits` are the bits so far: whatever bytes within
the bounds follow, `more` of them, they complete the encoding of the character. -/
def Begins : (more bits low high : Nat) → (read : List UInt8) → Prop
  | 0, bits, _, _, read => String.utf8EncodeChar (Char.ofNat bits) = read
  | more + 1, bits, low, high, read =>
    ∀ b : UInt8, low ≤ b.toNat → b.toNat ≤ high →
      Begins more (bits * 64 + (b.toNat - 0x80)) 0x80 0xbf (read ++ [b])

/-- The number of a character that is made from its number. -/
private theorem val_ofNat {n : Nat} (h : n < 0xd800 ∨ 0xdfff < n ∧ n < 0x110000) :
    (Char.ofNat n).val.toNat = n := by
  have hvalid : n.isValidChar := h
  rw [Char.ofNat, dif_pos hvalid]
  rfl

private theorem ofNat_eq {n : Nat} {b : UInt8} (h : n = b.toNat) : UInt8.ofNat n = b := by
  rw [h, UInt8.ofNat_toNat]

theorem utf8EncodeChar_one {b : UInt8} (h : b.toNat < 0x80) :
    String.utf8EncodeChar (Char.ofNat b.toNat) = [b] := by
  rw [String.utf8EncodeChar, val_ofNat (by omega)]
  rw [if_pos (by omega), ofNat_eq rfl]

theorem utf8EncodeChar_two {b b₁ : UInt8} (h : 0xc2 ≤ b.toNat ∧ b.toNat < 0xe0)
    (h₁ : 0x80 ≤ b₁.toNat ∧ b₁.toNat ≤ 0xbf) :
    String.utf8EncodeChar (Char.ofNat ((b.toNat - 0xc0) * 64 + (b₁.toNat - 0x80))) = [b, b₁] := by
  rw [String.utf8EncodeChar, val_ofNat (by omega)]
  rw [if_neg (by omega), if_pos (by omega), ofNat_eq (b := b) (by omega),
    ofNat_eq (b := b₁) (by omega)]

theorem utf8EncodeChar_three {b b₁ b₂ : UInt8} (h : 0xe0 ≤ b.toNat ∧ b.toNat < 0xf0)
    (h₁ : 0x80 ≤ b₁.toNat ∧ b₁.toNat ≤ 0xbf) (h₂ : 0x80 ≤ b₂.toNat ∧ b₂.toNat ≤ 0xbf)
    (hlow : b.toNat = 0xe0 → 0xa0 ≤ b₁.toNat) (hhigh : b.toNat = 0xed → b₁.toNat ≤ 0x9f) :
    String.utf8EncodeChar (Char.ofNat
      (((b.toNat - 0xe0) * 64 + (b₁.toNat - 0x80)) * 64 + (b₂.toNat - 0x80))) = [b, b₁, b₂] := by
  rw [String.utf8EncodeChar, val_ofNat (by omega)]
  rw [if_neg (by omega), if_neg (by omega), if_pos (by omega), ofNat_eq (b := b) (by omega),
    ofNat_eq (b := b₁) (by omega), ofNat_eq (b := b₂) (by omega)]

theorem utf8EncodeChar_four {b b₁ b₂ b₃ : UInt8} (h : 0xf0 ≤ b.toNat ∧ b.toNat ≤ 0xf4)
    (h₁ : 0x80 ≤ b₁.toNat ∧ b₁.toNat ≤ 0xbf) (h₂ : 0x80 ≤ b₂.toNat ∧ b₂.toNat ≤ 0xbf)
    (h₃ : 0x80 ≤ b₃.toNat ∧ b₃.toNat ≤ 0xbf)
    (hlow : b.toNat = 0xf0 → 0x90 ≤ b₁.toNat) (hhigh : b.toNat = 0xf4 → b₁.toNat ≤ 0x8f) :
    String.utf8EncodeChar (Char.ofNat
      ((((b.toNat - 0xf0) * 64 + (b₁.toNat - 0x80)) * 64 + (b₂.toNat - 0x80)) * 64 +
        (b₃.toNat - 0x80))) = [b, b₁, b₂, b₃] := by
  rw [String.utf8EncodeChar, val_ofNat (by omega)]
  rw [if_neg (by omega), if_neg (by omega), if_neg (by omega), ofNat_eq (b := b) (by omega),
    ofNat_eq (b := b₁) (by omega), ofNat_eq (b := b₂) (by omega), ofNat_eq (b := b₃) (by omega)]

/-- A first byte begins a character. -/
theorem begins_lead {b : UInt8} {lead : Lead} (h : lead? b = some lead) :
    Begins lead.more lead.bits lead.low lead.high [b] := by
  unfold lead? at h
  dsimp only at h
  split_ifs at h
  all_goals obtain rfl := Option.some.inj h
  · exact utf8EncodeChar_one ‹_›
  · exact fun b₁ hlow hhigh => utf8EncodeChar_two (by omega) ⟨hlow, hhigh⟩
  · intro b₁ hlow hhigh b₂ hlow₂ hhigh₂
    dsimp only at hlow hhigh
    exact utf8EncodeChar_three (by omega) (by omega) ⟨hlow₂, hhigh₂⟩ (by omega) (by omega)
  · intro b₁ hlow hhigh b₂ hlow₂ hhigh₂
    dsimp only at hlow hhigh
    exact utf8EncodeChar_three (by omega) (by omega) ⟨hlow₂, hhigh₂⟩ (by omega) (by omega)
  · intro b₁ hlow hhigh b₂ hlow₂ hhigh₂
    dsimp only at hlow hhigh
    exact utf8EncodeChar_three (by omega) (by omega) ⟨hlow₂, hhigh₂⟩ (by omega) (by omega)
  all_goals
    intro b₁ hlow hhigh b₂ hlow₂ hhigh₂ b₃ hlow₃ hhigh₃
    dsimp only at hlow hhigh
    exact utf8EncodeChar_four (by omega) (by omega) ⟨hlow₂, hhigh₂⟩ ⟨hlow₃, hhigh₃⟩ (by omega)
      (by omega)

-- ════════════════════════════════════════════════════════════════════════
-- What is read is what was written
-- ════════════════════════════════════════════════════════════════════════

/-- The bytes `read` are those of the character being read, if there is one. -/
def Waits (read : List UInt8) : Option Partial → Prop
  | none => read = []
  | some p => p.more ≠ 0 ∧ Begins p.more p.bits p.low p.high read

/-- Decoding that succeeds gives characters of which the bytes are the encodings. -/
theorem flatMap_of_decodeFrom {bytes read : List UInt8} {offset : Nat} {pending : Option Partial}
    {done cs : List Char} (hwaits : Waits read pending)
    (h : decodeFrom offset pending done bytes = .ok cs) :
    ∃ more, cs = done.reverse ++ more ∧ read ++ bytes = more.flatMap String.utf8EncodeChar := by
  induction bytes generalizing read offset pending done with
  | nil =>
    cases pending with
    | none =>
      cases h
      exact ⟨[], (List.append_nil _).symm, by rw [show read = [] from hwaits]; rfl⟩
    | some p => cases h
  | cons b rest ih =>
    -- a character that is complete goes before what the rest gives
    have hcomplete : ∀ {c : Char} {read : List UInt8} {offset : Nat},
        String.utf8EncodeChar c = read → decodeFrom offset none (c :: done) rest = .ok cs →
        ∃ more, cs = done.reverse ++ more ∧
          read ++ rest = more.flatMap String.utf8EncodeChar := by
      intro c read offset hc hrest
      obtain ⟨more, hcs, hmore⟩ := ih (show Waits [] none from rfl) hrest
      refine ⟨c :: more, by rw [hcs, List.reverse_cons, List.append_assoc]; rfl, ?_⟩
      rw [List.flatMap_cons, hc, ← hmore, List.nil_append]
    cases pending with
    | none =>
      obtain rfl : read = [] := hwaits
      rw [decodeFrom] at h
      cases hlead : lead? b with
      | none => simp only [hlead, reduceCtorEq] at h
      | some lead =>
        have hbegins := begins_lead hlead
        simp only [hlead] at h
        split_ifs at h with hmore
        · rw [hmore] at hbegins
          exact hcomplete hbegins h
        · have hwaits : Waits [b] (some ⟨b, offset, 1, lead.bits, lead.more, lead.low, lead.high⟩) :=
            ⟨hmore, hbegins⟩
          exact ih hwaits h
    | some p =>
      obtain ⟨hmore, hbegins⟩ := hwaits
      obtain ⟨n, hn⟩ := Nat.exists_eq_succ_of_ne_zero hmore
      rw [hn] at hbegins
      rw [decodeFrom] at h
      rw [List.append_cons]
      split_ifs at h with hbounds hlast
      · rw [Bool.and_eq_true, decide_eq_true_eq, decide_eq_true_eq] at hbounds
        have hnext := hbegins b hbounds.1 hbounds.2
        obtain rfl : n = 0 := by omega
        exact hcomplete hnext h
      · rw [Bool.and_eq_true, decide_eq_true_eq, decide_eq_true_eq] at hbounds
        have hnext := hbegins b hbounds.1 hbounds.2
        have hwaits : Waits (read ++ [b]) (some ⟨p.first, p.offset, p.count + 1,
            p.bits * 64 + (b.toNat - 0x80), p.more - 1, 0x80, 0xbf⟩) := by
          refine ⟨by dsimp only; omega, ?_⟩
          rw [show p.more - 1 = n by omega]
          exact hnext
        exact ih hwaits h

theorem decodeFrom_lead {b : UInt8} {lead : Lead} (h : lead? b = some lead) (hmore : lead.more ≠ 0)
    (offset : Nat) (done : List Char) (rest : List UInt8) :
    decodeFrom offset none done (b :: rest) =
      decodeFrom (offset + 1)
        (some ⟨b, offset, 1, lead.bits, lead.more, lead.low, lead.high⟩) done rest := by
  simp only [decodeFrom, h, if_neg hmore]

/-- The last byte of a character completes it. -/
theorem decodeFrom_last {p : Partial} {b : UInt8} (hmore : p.more = 1)
    (hbounds : p.low ≤ b.toNat ∧ b.toNat ≤ p.high) (offset : Nat) (done : List Char)
    (rest : List UInt8) :
    decodeFrom offset (some p) done (b :: rest) =
      decodeFrom (offset + 1) none (Char.ofNat (p.bits * 64 + (b.toNat - 0x80)) :: done) rest := by
  simp only [decodeFrom, hbounds, decide_true, Bool.and_self, if_true, hmore]

/-- A byte within a character goes on with it. -/
theorem decodeFrom_within {p : Partial} {b : UInt8} (hmore : p.more ≠ 1)
    (hbounds : p.low ≤ b.toNat ∧ b.toNat ≤ p.high) (offset : Nat) (done : List Char)
    (rest : List UInt8) :
    decodeFrom offset (some p) done (b :: rest) =
      decodeFrom (offset + 1) (some ⟨p.first, p.offset, p.count + 1,
        p.bits * 64 + (b.toNat - 0x80), p.more - 1, 0x80, 0xbf⟩) done rest := by
  simp only [decodeFrom, hbounds, decide_true, Bool.and_self, if_true, if_neg hmore]

theorem lead?_two {b : UInt8} (h : 0xc2 ≤ b.toNat ∧ b.toNat < 0xe0) :
    lead? b = some ⟨b.toNat - 0xc0, 1, 0x80, 0xbf⟩ := by
  unfold lead?
  dsimp only
  rw [if_neg (by omega), if_neg (by omega), if_pos (by omega)]

theorem lead?_three {b : UInt8} (h : 0xe0 ≤ b.toNat ∧ b.toNat < 0xf0) :
    ∃ low high, lead? b = some ⟨b.toNat - 0xe0, 2, low, high⟩ ∧
      (low = 0x80 ∨ low = 0xa0 ∧ b.toNat = 0xe0) ∧
      (high = 0xbf ∨ high = 0x9f ∧ b.toNat = 0xed) := by
  unfold lead?
  dsimp only
  rw [if_neg (by omega), if_neg (by omega), if_neg (by omega)]
  split_ifs
  · exact ⟨_, _, rfl, by omega, by omega⟩
  · exact ⟨_, _, rfl, by omega, by omega⟩
  · exact ⟨_, _, rfl, by omega, by omega⟩
  all_goals omega

theorem lead?_four {b : UInt8} (h : 0xf0 ≤ b.toNat ∧ b.toNat ≤ 0xf4) :
    ∃ low high, lead? b = some ⟨b.toNat - 0xf0, 3, low, high⟩ ∧
      (low = 0x80 ∨ low = 0x90 ∧ b.toNat = 0xf0) ∧
      (high = 0xbf ∨ high = 0x8f ∧ b.toNat = 0xf4) := by
  unfold lead?
  dsimp only
  rw [if_neg (by omega), if_neg (by omega), if_neg (by omega), if_neg (by omega),
    if_neg (by omega), if_neg (by omega)]
  split_ifs
  · exact ⟨_, _, rfl, by omega, by omega⟩
  · exact ⟨_, _, rfl, by omega, by omega⟩
  · exact ⟨_, _, rfl, by omega, by omega⟩
  all_goals omega

/-- The encoding of a character reads as the character. -/
theorem decodeFrom_utf8EncodeChar (c : Char) (offset : Nat) (done : List Char)
    (rest : List UInt8) :
    ∃ offset', decodeFrom offset none done (String.utf8EncodeChar c ++ rest) =
      decodeFrom offset' none (c :: done) rest := by
  have hc : Char.ofNat c.val.toNat = c := Char.ofNat_toNat c
  have hvalid : c.val.toNat < 0xd800 ∨ 0xdfff < c.val.toNat ∧ c.val.toNat < 0x110000 := c.valid
  unfold String.utf8EncodeChar
  generalize c.val.toNat = v at hc hvalid
  dsimp only
  split_ifs with h₁ h₂ h₃
  · have hb := UInt8.toNat_ofNat_of_lt' (show v < 256 by omega)
    refine ⟨offset + 1, ?_⟩
    rw [List.singleton_append, decodeFrom]
    have hlead : lead? (UInt8.ofNat v) = some ⟨v, 0, 0, 0⟩ := by
      unfold lead?
      dsimp only
      rw [hb, if_pos (by omega)]
    simp only [hlead, if_true, hc]
  · have hb := UInt8.toNat_ofNat_of_lt' (show v / 64 % 32 + 192 < 256 by omega)
    have hb₁ := UInt8.toNat_ofNat_of_lt' (show v % 64 + 128 < 256 by omega)
    generalize UInt8.ofNat (v / 64 % 32 + 192) = b at hb
    generalize UInt8.ofNat (v % 64 + 128) = b₁ at hb₁
    refine ⟨offset + 1 + 1, ?_⟩
    rw [List.cons_append, List.singleton_append, decodeFrom_lead (lead?_two (by omega)) (by simp),
      decodeFrom_last rfl (by dsimp only; omega)]
    dsimp only
    rw [show (b.toNat - 0xc0) * 64 + (b₁.toNat - 0x80) = v by omega, hc]
  · have hb := UInt8.toNat_ofNat_of_lt' (show v / 4096 % 16 + 224 < 256 by omega)
    have hb₁ := UInt8.toNat_ofNat_of_lt' (show v / 64 % 64 + 128 < 256 by omega)
    have hb₂ := UInt8.toNat_ofNat_of_lt' (show v % 64 + 128 < 256 by omega)
    generalize UInt8.ofNat (v / 4096 % 16 + 224) = b at hb
    generalize UInt8.ofNat (v / 64 % 64 + 128) = b₁ at hb₁
    generalize UInt8.ofNat (v % 64 + 128) = b₂ at hb₂
    obtain ⟨low, high, hlead, hlow, hhigh⟩ := lead?_three (b := b) (by omega)
    refine ⟨offset + 1 + 1 + 1, ?_⟩
    rw [List.cons_append, List.cons_append, List.singleton_append,
      decodeFrom_lead hlead (by simp), decodeFrom_within (by simp) (by dsimp only; omega),
      decodeFrom_last rfl (by dsimp only; omega)]
    dsimp only
    rw [show ((b.toNat - 0xe0) * 64 + (b₁.toNat - 0x80)) * 64 + (b₂.toNat - 0x80) = v by omega, hc]
  · have hb := UInt8.toNat_ofNat_of_lt' (show v / 262144 % 8 + 240 < 256 by omega)
    have hb₁ := UInt8.toNat_ofNat_of_lt' (show v / 4096 % 64 + 128 < 256 by omega)
    have hb₂ := UInt8.toNat_ofNat_of_lt' (show v / 64 % 64 + 128 < 256 by omega)
    have hb₃ := UInt8.toNat_ofNat_of_lt' (show v % 64 + 128 < 256 by omega)
    generalize UInt8.ofNat (v / 262144 % 8 + 240) = b at hb
    generalize UInt8.ofNat (v / 4096 % 64 + 128) = b₁ at hb₁
    generalize UInt8.ofNat (v / 64 % 64 + 128) = b₂ at hb₂
    generalize UInt8.ofNat (v % 64 + 128) = b₃ at hb₃
    obtain ⟨low, high, hlead, hlow, hhigh⟩ := lead?_four (b := b) (by omega)
    refine ⟨offset + 1 + 1 + 1 + 1, ?_⟩
    rw [List.cons_append, List.cons_append, List.cons_append, List.singleton_append,
      decodeFrom_lead hlead (by simp), decodeFrom_within (by simp) (by dsimp only; omega),
      decodeFrom_within (by simp) (by dsimp only; omega),
      decodeFrom_last rfl (by dsimp only; omega)]
    dsimp only
    rw [show (((b.toNat - 0xf0) * 64 + (b₁.toNat - 0x80)) * 64 + (b₂.toNat - 0x80)) * 64 +
      (b₃.toNat - 0x80) = v by omega, hc]

/-- The encodings of some characters read as the characters. -/
theorem decodeFrom_flatMap (cs : List Char) (offset : Nat) (done : List Char) :
    decodeFrom offset none done (cs.flatMap String.utf8EncodeChar) = .ok (done.reverse ++ cs) := by
  induction cs generalizing offset done with
  | nil => rw [List.append_nil]; rfl
  | cons c cs ih =>
    obtain ⟨offset', hfirst⟩ :=
      decodeFrom_utf8EncodeChar c offset done (cs.flatMap String.utf8EncodeChar)
    rw [List.flatMap_cons, hfirst, ih, List.reverse_cons, List.append_assoc, List.singleton_append]

/-- Bytes read as a text exactly where they are the bytes of it. -/
theorem decode_eq_ok_iff {bytes : ByteArray} {s : String} :
    decode bytes = .ok s ↔ bytes = utf8Bytes s := by
  rw [decode]
  constructor
  · intro h
    cases hdecode : decodeFrom 0 none [] bytes.toList with
    | error fault => rw [hdecode] at h; cases h
    | ok cs =>
      obtain ⟨more, hcs, hbytes⟩ := flatMap_of_decodeFrom (show Waits [] none from rfl) hdecode
      rw [List.reverse_nil, List.nil_append] at hcs
      rw [List.nil_append] at hbytes
      rw [hdecode] at h
      rw [← Except.ok.inj h, hcs, utf8Bytes_ofList, ← hbytes, toByteArray_toList]
  · rintro rfl
    have hs := utf8Bytes_ofList s.toList
    rw [String.ofList_toList] at hs
    rw [hs, toList_toByteArray, decodeFrom_flatMap]
    exact congrArg Except.ok String.ofList_toList

end Utf8

theorem utf8Bytes_injective {s other : String} (h : utf8Bytes s = utf8Bytes other) : s = other := by
  have hdecode := Utf8.decode_eq_ok_iff.mpr h
  rw [Utf8.decode_eq_ok_iff.mpr rfl] at hdecode
  exact Except.ok.inj hdecode

-- ════════════════════════════════════════════════════════════════════════
-- Small bytes
-- ════════════════════════════════════════════════════════════════════════

/-- All bytes of a character are above 127, unless it is one of the first 128 characters itself. -/
theorem toNat_of_mem_utf8EncodeChar {b : UInt8} {c : Char} (hb : b.toNat < 0x80)
    (h : b ∈ String.utf8EncodeChar c) : b.toNat = c.toNat := by
  have hval : c.val.toNat = c.toNat := rfl
  rw [String.utf8EncodeChar, hval] at h
  split_ifs at h <;> simp only [List.mem_cons, List.not_mem_nil, or_false] at h <;>
    rcases h with rfl | rfl | rfl | rfl <;> rw [UInt8.toNat_ofNat'] at hb ⊢ <;> omega

/-- A byte of one of the first 128 characters stands for this one. -/
theorem mem_of_mem_utf8Bytes {c : Char} (hc : c.toNat < 0x80) {s : String}
    (h : UInt8.ofNat c.toNat ∈ (utf8Bytes s).toList) : c ∈ s.toList := by
  have hs := utf8Bytes_ofList s.toList
  rw [String.ofList_toList] at hs
  rw [hs, toList_toByteArray, List.mem_flatMap] at h
  obtain ⟨d, hd, hbyte⟩ := h
  have hnat : (UInt8.ofNat c.toNat).toNat = c.toNat := by
    rw [UInt8.toNat_ofNat']
    omega
  have hsame := toNat_of_mem_utf8EncodeChar (by omega) hbyte
  rw [hnat] at hsame
  obtain rfl : c = d := Char.ext (UInt32.toNat_inj.mp hsame)
  exact hd

end TwoStage
