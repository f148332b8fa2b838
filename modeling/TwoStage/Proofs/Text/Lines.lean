import TwoStage.Proofs.Text.Blank
import TwoStage.Proofs.Text.Pieces

/-!
# A text and its lines

A text is its lines one after the other, each with its end. Only the last line may stand there
without an end, and it is not empty then. This settles what the lines of a text are, however it is
read, and whatever its lines end with. The same lines with a line feed between any two of them are a
text of these lines again, as long as the last one is not empty.

## Main definitions

- `Unbroken` — characters none of which ends a line
- `EndsLine` — what ends a line
- `MadeOf` — the lines that characters are made of

## Main statements

- `splitLines_eq_iff` — a text is split into the lines that it is made of
- `splitLines_joinWith` — lines that are joined are split again
- `not_blank_of_getLast?_splitLines` — the last line of a text without blanks at its ends
-/

namespace TwoStage

/-- Characters none of which ends a line. -/
def Unbroken (cs : List Char) : Prop := ∀ c ∈ cs, isLineBreak c = false

/-- What ends a line in front of other characters: a carriage return with its line feed, or one
line break that is not such a carriage return. -/
inductive EndsLine : List Char → List Char → Prop
  | pair (rest : List Char) : EndsLine ['\r', '\n'] rest
  | single {c : Char} {rest : List Char} (hbreak : isLineBreak c = true)
      (halone : c = '\r' → rest.head? ≠ some '\n') : EndsLine [c] rest

/-- The lines that characters are made of. -/
inductive MadeOf : List Char → List (List Char) → Prop
  | nothing : MadeOf [] []
  | last {line : List Char} (hline : Unbroken line) (hne : line ≠ []) : MadeOf line [line]
  | line {line ending rest : List Char} {lines : List (List Char)} (hline : Unbroken line)
      (hends : EndsLine ending rest) (hrest : MadeOf rest lines) :
      MadeOf (line ++ (ending ++ rest)) (line :: lines)

theorem unbroken_nil : Unbroken [] := List.forall_mem_nil _

theorem unbroken_cons {c : Char} {cs : List Char} :
    Unbroken (c :: cs) ↔ isLineBreak c = false ∧ Unbroken cs := List.forall_mem_cons

/-- Every character that ends a line is white space. -/
theorem isBlank_of_isLineBreak {c : Char} (h : isLineBreak c = true) : isBlank c = true := by
  have hall : ['\n', '\r', '\x0b', '\x0c', '\x1c', '\x1d', '\x1e', '\u0085', '\u2028',
      '\u2029'].all isBlank = true := by
    decide
  exact List.all_eq_true.mp hall c (of_decide_eq_true h)

-- ════════════════════════════════════════════════════════════════════════
-- Splitting
-- ════════════════════════════════════════════════════════════════════════

section Splitting

variable {current line ending rest cs : List Char} {lines : List (List Char)}

/-- A character that ends no line belongs to the line that is read. -/
theorem splitLinesFrom_cons_of_not_break {c : Char} (h : isLineBreak c = false) :
    splitLinesFrom current (c :: rest) = splitLinesFrom (c :: current) rest := by
  have hreturn : c ≠ '\r' := by
    rintro rfl
    exact absurd h (by decide)
  rw [splitLinesFrom, if_neg (by simp [h])]
  exact fun _ heq _ => hreturn heq

theorem splitLinesFrom_append (hline : Unbroken line) :
    splitLinesFrom current (line ++ rest) = splitLinesFrom (line.reverse ++ current) rest := by
  induction line generalizing current with
  | nil => rfl
  | cons c line ih =>
    obtain ⟨hc, hline⟩ := unbroken_cons.mp hline
    rw [List.cons_append, splitLinesFrom_cons_of_not_break hc, ih hline, List.reverse_cons,
      List.append_assoc, List.singleton_append]

/-- The end of a line closes the line that is read. -/
theorem splitLinesFrom_ending (hends : EndsLine ending rest) :
    splitLinesFrom current (ending ++ rest) = current.reverse :: splitLinesFrom [] rest := by
  cases hends with
  | pair => rfl
  | single hbreak halone =>
    rw [List.singleton_append, splitLinesFrom, if_pos hbreak]
    rintro more rfl rfl
    exact halone rfl rfl

/-- Characters are split into the lines that they are made of. -/
theorem MadeOf.splitLinesFrom_eq (h : MadeOf cs lines) : splitLinesFrom [] cs = lines := by
  induction h with
  | nothing => rfl
  | @last line hline hne =>
    have hread : splitLinesFrom [] (line ++ []) = splitLinesFrom (line.reverse ++ []) [] :=
      splitLinesFrom_append hline
    rw [List.append_nil, List.append_nil] at hread
    rw [hread, splitLinesFrom, if_neg (by simpa using hne), List.reverse_reverse]
  | line hline hends _ ih =>
    rw [splitLinesFrom_append hline, splitLinesFrom_ending hends, ih, List.append_nil,
      List.reverse_reverse]

/-- What has been read of a line and the characters behind it are made of the lines that are
read. -/
theorem madeOf_splitLinesFrom (hcurrent : Unbroken current) :
    MadeOf (current.reverse ++ cs) (splitLinesFrom current cs) := by
  have hreverse : ∀ {current : List Char}, Unbroken current → Unbroken current.reverse :=
    fun hcurrent c hc => hcurrent c (List.mem_reverse.mp hc)
  fun_induction splitLinesFrom current cs with
  | case1 current hempty =>
    rw [List.isEmpty_iff.mp hempty]
    exact .nothing
  | case2 current hne =>
    rw [List.append_nil]
    exact .last (hreverse hcurrent) (by simpa using hne)
  | case3 current rest ih => exact .line (hreverse hcurrent) (.pair rest) (ih unbroken_nil)
  | case4 current c rest hpair hbreak ih =>
    have halone : c = '\r' → rest.head? ≠ some '\n' := by
      intro hc hrest
      obtain ⟨more, rfl⟩ := List.head?_eq_some_iff.mp hrest
      exact hpair more hc rfl
    exact .line (hreverse hcurrent) (.single hbreak halone) (ih unbroken_nil)
  | case5 current c rest _ hbreak ih =>
    have hmore : Unbroken (c :: current) :=
      unbroken_cons.mpr ⟨Bool.eq_false_iff.mpr hbreak, hcurrent⟩
    simpa using ih hmore

/-- Characters are split into lines if and only if they are made of them. -/
theorem splitLinesFrom_eq_iff : splitLinesFrom [] cs = lines ↔ MadeOf cs lines := by
  constructor
  · rintro rfl
    exact madeOf_splitLinesFrom unbroken_nil
  · exact MadeOf.splitLinesFrom_eq

end Splitting

/-- A text is split into the lines that it is made of. -/
theorem splitLines_eq_iff {s : String} {lines : List String} :
    splitLines s = lines ↔ MadeOf s.toList (lines.map String.toList) := by
  rw [← splitLinesFrom_eq_iff, splitLines]
  constructor
  · rintro rfl
    simp
  · intro h
    simp [h]

-- ════════════════════════════════════════════════════════════════════════
-- Lines
-- ════════════════════════════════════════════════════════════════════════

section Lines

variable {cs : List Char} {lines : List (List Char)}

/-- No line holds a line break. -/
theorem MadeOf.unbroken (h : MadeOf cs lines) : ∀ line ∈ lines, Unbroken line := by
  induction h with
  | nothing => exact List.forall_mem_nil _
  | last hline _ => exact List.forall_mem_singleton.mpr hline
  | line hline _ _ ih => exact List.forall_mem_cons.mpr ⟨hline, ih⟩

theorem MadeOf.eq_nil_iff (h : MadeOf cs lines) : lines = [] ↔ cs = [] := by
  cases h with
  | nothing => exact ⟨fun _ => rfl, fun _ => rfl⟩
  | last _ hne => simpa using hne
  | line _ hends _ => cases hends <;> simp

theorem EndsLine.exists_getLast? {ending rest : List Char} (h : EndsLine ending rest) :
    ∃ c, ending.getLast? = some c ∧ isLineBreak c = true := by
  cases h with
  | pair => exact ⟨'\n', rfl, rfl⟩
  | @single c _ hbreak _ => exact ⟨c, rfl, hbreak⟩

/-- A last character that ends no line is the last one of the last line. -/
theorem MadeOf.exists_getLast? (h : MadeOf cs lines) {c : Char} (hlast : cs.getLast? = some c)
    (hc : isLineBreak c = false) : ∃ line, lines.getLast? = some line ∧ line.getLast? = some c := by
  induction h with
  | nothing => cases hlast
  | @last line => exact ⟨line, rfl, hlast⟩
  | @line line ending rest lines _ hends _ ih =>
    by_cases hnil : rest = []
    · -- the characters would end with the end of a line
      obtain ⟨d, hd, hbreak⟩ := hends.exists_getLast?
      rw [hnil, List.append_nil, List.getLast?_append, hd, Option.some_or] at hlast
      cases hlast
      rw [hbreak] at hc
      cases hc
    · rw [← List.append_assoc, List.getLast?_append_of_ne_nil _ hnil] at hlast
      obtain ⟨last, hlines, hline⟩ := ih hlast
      refine ⟨last, ?_, hline⟩
      rw [List.getLast?_cons, hlines, Option.getD_some]

/-- Lines with a line feed between any two are made of these lines, unless the last is empty. -/
theorem madeOf_intercalate (hlines : ∀ line ∈ lines, Unbroken line)
    (hlast : lines.getLast? ≠ some []) : MadeOf (['\n'].intercalate lines) lines := by
  induction lines with
  | nil => exact .nothing
  | cons line lines ih =>
    obtain ⟨hline, hlines⟩ := List.forall_mem_cons.mp hlines
    cases lines with
    | nil =>
      rw [List.intercalate_singleton]
      exact .last hline (by simpa using hlast)
    | cons next lines =>
      rw [List.getLast?_cons_cons] at hlast
      rw [List.intercalate_cons_cons, List.append_assoc]
      exact .line hline (.single rfl (by simp)) (ih hlines hlast)

end Lines

section Texts

variable {s line : String} {lines : List String}

theorem madeOf_splitLines (s : String) : MadeOf s.toList ((splitLines s).map String.toList) :=
  splitLines_eq_iff.mp rfl

theorem unbroken_of_mem_splitLines (h : line ∈ splitLines s) : Unbroken line.toList :=
  (madeOf_splitLines s).unbroken _ (List.mem_map_of_mem h)

/-- Only the empty text has no lines. -/
theorem splitLines_eq_nil_iff : splitLines s = [] ↔ s = "" := by
  rw [← String.toList_eq_nil_iff, ← (madeOf_splitLines s).eq_nil_iff, List.map_eq_nil_iff]

/-- Lines that are joined by line feeds are split again, unless the last one is empty. -/
theorem splitLines_joinWith (hlines : ∀ line ∈ lines, Unbroken line.toList)
    (hlast : lines.getLast? ≠ some "") : splitLines (joinWith "\n" lines) = lines := by
  rw [splitLines_eq_iff, toList_joinWith]
  apply madeOf_intercalate
  · exact List.forall_mem_map.mpr hlines
  · rw [List.getLast?_map]
    intro h
    obtain ⟨line, hline, hnil⟩ := Option.map_eq_some_iff.mp h
    rw [String.toList_eq_nil_iff.mp hnil] at hline
    exact hlast hline

/-- Joined lines hold no line breaks but the line feeds between them. -/
theorem eq_newline_of_mem_joinWith (hlines : ∀ line ∈ lines, Unbroken line.toList) {c : Char}
    (hmem : c ∈ (joinWith "\n" lines).toList) (hbreak : isLineBreak c = true) : c = '\n' := by
  rcases mem_joinWith hmem with hc | ⟨line, hline, hc⟩
  · exact List.mem_singleton.mp hc
  · rw [hlines line hline c hc] at hbreak
    cases hbreak

/-- The last line of a text without blanks at its ends is not blank. -/
theorem not_blank_of_getLast?_splitLines (h : (splitLines (strip s)).getLast? = some line) :
    ¬ Blank line := by
  have hne : (strip s).toList ≠ [] := by
    intro hnil
    rw [splitLines_eq_nil_iff.mpr (String.toList_eq_nil_iff.mp hnil)] at h
    cases h
  obtain ⟨c, hc⟩ := Option.ne_none_iff_exists'.mp (mt List.getLast?_eq_none_iff.mp hne)
  have hblank : isBlank c = false := isBlank_getLast?_strip hc
  have hbreak : isLineBreak c = false :=
    Bool.eq_false_iff.mpr fun hbreak => by simp [isBlank_of_isLineBreak hbreak] at hblank
  obtain ⟨last, hlast, hmem⟩ := (madeOf_splitLines (strip s)).exists_getLast? hc hbreak
  rw [List.getLast?_map, h, Option.map_some, Option.some.injEq] at hlast
  intro hline
  have hcline : c ∈ line.toList := hlast ▸ List.mem_of_getLast? hmem
  rw [hline c hcline] at hblank
  cases hblank

end Texts

end TwoStage
