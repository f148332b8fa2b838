import TwoStage.Cli.Arguments
import TwoStage.Proofs.Text.Pieces

/-!
# Words that are left as they are

A grammar that takes options it does not know for operands leaves most words as they are. Not so a
word in which it finds an option: one that names an option, with or without a value behind `=`, and
one that starts with a single dash and holds a letter of an option somewhere.

## Main definitions

- `Grammar.Leaves` — words that a grammar leaves as they are
- `Grammar.Gives` — words in which a grammar finds an option with a value

## Main statements

- `Grammar.meaning_letters`, `Grammar.meaning_long` — what words with dashes come to
- `Arguments.readFrom_append` — words that are left are operands, in order
- `Arguments.exists_value_of_gives` — an option that is found is there in the end
-/

namespace TwoStage.Cli

namespace Grammar

variable {g : Grammar}

/-- A word that a grammar leaves as it is: it is an operand, or taken for one. -/
def Leaves (g : Grammar) (word : String) : Prop :=
  word ≠ "--" ∧ (g.meaning word = .operand ∨ g.meaning word = .options [] [word])

/-- A word in which a grammar finds an option with a value, be it in the word or behind it. -/
def Gives (g : Grammar) (word name : String) : Prop :=
  word ≠ "--" ∧
    ((∃ found unknown, g.meaning word = .pending found name unknown) ∨
      ∃ found unknown value, g.meaning word = .options found unknown ∧ (name, some value) ∈ found)

-- ════════════════════════════════════════════════════════════════════════
-- Single words
-- ════════════════════════════════════════════════════════════════════════

theorem meaning_of_head? {word : String} (h : word.toList.head? ≠ some '-') :
    g.meaning word = .operand := by
  rw [meaning]
  split
  · next hword =>
    rw [hword] at h
    exact absurd rfl h
  · rfl

/-- What stands before the first mark is all there is, or that much of it. -/
theorem cutAt_fst_cases (mark : Char) (cs : List Char) :
    (cutAt mark cs).1 = cs ∨ ∃ after, (cutAt mark cs).1 ++ mark :: after = cs := by
  rcases cutAt_cases mark cs with ⟨hcut, -⟩ | ⟨before, after, hcs, -, hcut⟩
  · left
    rw [hcut]
  · right
    rw [hcut]
    exact ⟨after, hcs.symm⟩

/-- A word names an option in front of `=`, or names none. -/
theorem byName?_eq_none {word : String} (h : ∀ switch ∈ g.switches, word ≠ "--" ++ switch.name ∧
    ¬ ("--" ++ switch.name ++ "=").toList <+: word.toList) :
    g.byName? (String.ofList (cutAt '=' word.toList).1) = none := by
  refine List.find?_eq_none.mpr fun switch hswitch => ?_
  obtain ⟨hne, hstart⟩ := h switch hswitch
  rw [decide_eq_true_eq, ← String.toList_inj, String.toList_ofList]
  intro hsame
  rcases cutAt_fst_cases '=' word.toList with hcut | ⟨after, hcut⟩
  · exact hne (String.toList_inj.mp (hsame.trans hcut).symm)
  · refine hstart ⟨after, ?_⟩
    rw [← hsame] at hcut
    rw [String.toList_append, List.append_assoc]
    exact hcut

/-- A word that starts with a single dash is read letter by letter. -/
theorem meaning_letters {word : String} {c : Char} {rest : List Char}
    (hword : word.toList = '-' :: c :: rest) (hc : c ≠ '-') :
    g.meaning word = g.readLetters [] [] (c :: rest) := by
  -- the name of an option starts with two dashes
  have hname : g.byName? (String.ofList (cutAt '=' word.toList).1) = none := by
    refine byName?_eq_none fun switch _ => ⟨?_, ?_⟩
    · rintro rfl
      rw [String.toList_append] at hword
      exact hc (List.cons.inj (List.cons.inj hword).2).1.symm
    · rw [hword, String.toList_append, String.toList_append]
      rintro ⟨after, hstart⟩
      exact hc (List.cons.inj (List.cons.inj hstart).2).1.symm
  have hdashed : g.meaning word = g.readDashed word := by simp only [meaning, hword]
  rw [hdashed, readDashed]
  dsimp only
  rw [hname, hword]
  dsimp only
  split
  · next heq => exact absurd (List.cons.inj (List.cons.inj heq).2).1 hc
  · next heq => rw [(List.cons.inj heq).2]
  · next heq => cases heq

/-- A word that starts with two dashes and names no option is left. -/
theorem meaning_long {word : String} {rest : List Char} (hword : word.toList = '-' :: '-' :: rest)
    (hlenient : g.lenient = true)
    (hname : ∀ switch ∈ g.switches, word ≠ "--" ++ switch.name ∧
      ¬ ("--" ++ switch.name ++ "=").toList <+: word.toList) :
    g.meaning word = .options [] [word] := by
  have hdashed : g.meaning word = g.readDashed word := by simp only [meaning, hword]
  rw [hdashed, readDashed]
  dsimp only
  rw [byName?_eq_none hname, hword]
  exact if_pos hlenient

/-- Letters that are not known are put aside. -/
theorem readLetters_append (hlenient : g.lenient = true) {before : List Char}
    (h : ∀ c ∈ before, g.byLetter? c = none) (found : List (String × Option String))
    (stray rest : List Char) :
    g.readLetters found stray (before ++ rest) =
      g.readLetters found (before.reverse ++ stray) rest := by
  induction before generalizing stray with
  | nil => rfl
  | cons c before ih =>
    obtain ⟨hc, hbefore⟩ := List.forall_mem_cons.mp h
    rw [List.cons_append, readLetters, hc]
    dsimp only
    rw [if_pos hlenient, ih hbefore, List.reverse_cons, List.append_assoc]
    rfl

/-- Letters none of which is known are left as they are. -/
theorem readLetters_of_unknown (hlenient : g.lenient = true) {letters : List Char}
    (h : ∀ c ∈ letters, g.byLetter? c = none) (hne : letters ≠ []) :
    g.readLetters [] [] letters = .options [] [String.ofList ('-' :: letters)] := by
  have hread := readLetters_append hlenient h [] [] []
  rw [List.append_nil, List.append_nil, readLetters, List.reverse_reverse, strayLetters] at hread
  rw [hread, if_neg]
  simpa using hne

/-- The first letter of an option with a value takes what follows it, or the next word. -/
theorem readLetters_of_known (hlenient : g.lenient = true) {before : List Char}
    (h : ∀ c ∈ before, g.byLetter? c = none) {letter : Char} {switch : Switch}
    (hletter : g.byLetter? letter = some switch) (hvalue : switch.takesValue = true)
    (rest : List Char) :
    g.readLetters [] [] (before ++ letter :: rest) =
      if rest.isEmpty then .pending [] switch.name (strayLetters before)
      else .options [(switch.name, some (String.ofList rest))] (strayLetters before) := by
  rw [readLetters_append hlenient h, readLetters, hletter]
  dsimp only
  rw [if_pos hvalue, List.append_nil, List.reverse_reverse]
  rfl

end Grammar

-- ════════════════════════════════════════════════════════════════════════
-- Words one after another
-- ════════════════════════════════════════════════════════════════════════

namespace Arguments

variable {g : Grammar}

theorem add_add (a : Arguments) (operands more : List String) :
    (a.add [] operands).add [] more = a.add [] (operands ++ more) := by
  simp [add]

/-- Words that are left are operands, in order. -/
theorem readFrom_append (hmixed : g.mixed = true) {before : List String}
    (h : ∀ word ∈ before, g.Leaves word) (a : Arguments) (rest : List String) :
    readFrom g a (before ++ rest) = readFrom g (a.add [] before) rest := by
  induction before generalizing a with
  | nil => simp [add]
  | cons word before ih =>
    obtain ⟨⟨hne, hmeaning⟩, hbefore⟩ := List.forall_mem_cons.mp h
    have hstep : readFrom g a (word :: (before ++ rest)) =
        readFrom g (a.add [] [word]) (before ++ rest) := by
      rw [readFrom, if_neg hne]
      rcases hmeaning with hoperand | hunknown
      · rw [hoperand]
        exact if_pos hmixed
      · rw [hunknown]
    rw [List.cons_append, hstep, ih hbefore, add_add]
    rfl

theorem read_of_leaves (hmixed : g.mixed = true) {words : List String}
    (h : ∀ word ∈ words, g.Leaves word) : read g words = some ⟨[], words⟩ := by
  have hread := readFrom_append hmixed h ⟨[], []⟩ []
  rw [List.append_nil] at hread
  rw [read, hread]
  rfl

/-- No option that was read is lost. -/
theorem options_prefix_of_readFrom {a b : Arguments} {words : List String}
    (h : readFrom g a words = some b) : a.options <+: b.options := by
  fun_induction readFrom g a words with
  | case1 a =>
    cases h
    exact List.prefix_rfl
  | case2 a rest =>
    cases h
    exact List.prefix_append _ _
  | case3 a word rest hne hmeaning => cases h
  | case4 a word rest hne hmeaning hmixed ih => exact (List.prefix_append _ _).trans (ih h)
  | case5 a word rest hne hmeaning hmixed =>
    cases h
    exact List.prefix_append _ _
  | case6 a word rest hne found unknown hmeaning ih => exact (List.prefix_append _ _).trans (ih h)
  | case7 a word hne found name unknown hmeaning => cases h
  | case8 a word hne found name unknown value rest hmeaning ih =>
    exact (List.prefix_append _ _).trans (ih h)

theorem readFrom_of_nonsense {word : String} (hne : word ≠ "--")
    (hmeaning : g.meaning word = .nonsense) (a : Arguments) (rest : List String) :
    readFrom g a (word :: rest) = none := by
  rw [readFrom, if_neg hne, hmeaning]

/-- An option that is found in a word is there in the end. -/
theorem exists_value_of_gives {word name : String} (h : g.Gives word name) {a b : Arguments}
    {rest : List String} (hread : readFrom g a (word :: rest) = some b) :
    ∃ value, (name, some value) ∈ b.options := by
  obtain ⟨hne, hmeaning⟩ := h
  rw [readFrom, if_neg hne] at hread
  rcases hmeaning with ⟨found, unknown, hpending⟩ | ⟨found, unknown, value, hoptions, hmem⟩
  · rw [hpending] at hread
    cases rest with
    | nil => cases hread
    | cons value rest =>
      refine ⟨value, (options_prefix_of_readFrom hread).subset ?_⟩
      simp [add]
  · rw [hoptions] at hread
    refine ⟨value, (options_prefix_of_readFrom hread).subset ?_⟩
    simp [add, hmem]

end Arguments

end TwoStage.Cli
