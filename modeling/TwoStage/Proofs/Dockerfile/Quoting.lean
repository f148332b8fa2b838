import TwoStage.Proofs.Dockerfile.Operands

/-!
# Words in double quotes

Between double quotes a backslash takes the character behind it as it is, a `$` without a backslash
starts the name of a variable, and the first quote without one ends the word. A scanner that goes by
these rules from left to right undoes quoting, whatever text follows. What is written bare in the
line of a variable means the same to it as in quotes.

## Main definitions

- `Dockerfile.Piece` — a character, or the place where a variable is expanded
- `Dockerfile.scanWord` — scans a word from its opening quote on
- `Dockerfile.assigned?`, `Dockerfile.binding?` — reads the line of a variable

## Main statements

- `Dockerfile.scanWord_quote` — quoting is undone
- `Dockerfile.binding?_line` — a variable and its value are read back
- `Dockerfile.quoting_undone` — both, and that nothing else is written in the same way
-/

namespace TwoStage.Dockerfile

/-- What a scanner meets between double quotes. -/
inductive Piece where
  | char (c : Char)
  /-- A variable is expanded here. -/
  | expansion
  deriving Repr, DecidableEq

/-- The pieces of a text in which nothing is expanded. -/
def literally (s : String) : List Piece := s.toList.map .char

/-- Scans up to the first quote that no backslash stands before: the pieces, and what follows that
quote. -/
def scanFrom : List Char → Option (List Piece × List Char)
  | [] => none
  | '\x22' :: rest => some ([], rest)
  | '\\' :: c :: rest => (scanFrom rest).map fun (pieces, left) => (.char c :: pieces, left)
  | c :: rest =>
    (scanFrom rest).map fun (pieces, left) =>
      ((if c = '$' then .expansion else .char c) :: pieces, left)

/-- Scans a word from its opening quote on: its pieces, and the text that follows. -/
def scanWord (s : String) : Option (List Piece × String) :=
  match s.toList with
  | '\x22' :: rest => (scanFrom rest).map fun (pieces, left) => (pieces, String.ofList left)
  | _ => none

/-- The name in the line of a variable, up to the first equals sign, and what follows that sign. -/
def assigned? (line : String) : Option (String × String) :=
  (afterStart? "ENV ".toList line.toList).bind fun operand =>
    let (name, rest) := cutAt '=' operand
    rest.map fun rest => (String.ofList name, String.ofList rest)

/-- Whether a text starts with a double quote. -/
def startsQuoted (s : String) : Bool := s.toList.head? = some '\x22'

/-- The pieces of a value: of a word in quotes that ends where the value does, or of a bare word,
which is taken as it is. -/
def valuePieces? (value : String) : Option (List Piece) :=
  if startsQuoted value then
    (scanWord value).bind fun (pieces, left) => if left.isEmpty then some pieces else none
  else some (literally value)

/-- Reads the line of a variable: its name, and the pieces of its value. -/
def binding? (line : String) : Option (String × List Piece) :=
  (assigned? line).bind fun (name, value) => (valuePieces? value).map fun pieces => (name, pieces)

/-- The characters that mean something outside of quotes. -/
def isMark (c : Char) : Bool := isBlank c || c ∈ ['\x22', '\x27', '\\', '$', '#']

-- ════════════════════════════════════════════════════════════════════════
-- Scanning what was quoted
-- ════════════════════════════════════════════════════════════════════════

theorem literally_injective : Function.Injective literally := by
  intro s s' h
  have hinj : Function.Injective Piece.char := fun c c' hc => Piece.char.inj hc
  exact String.toList_injective (hinj.list_map h)

/-- A reader that refuses expansions reads the characters that are scanned. -/
theorem scanFrom_of_unquoteFrom {done cs value left : List Char}
    (h : unquoteFrom done cs = some (value, left)) :
    ∃ more, value = done.reverse ++ more ∧ scanFrom cs = some (more.map .char, left) := by
  fun_induction unquoteFrom done cs with
  | case1 done => cases h
  | case2 done rest =>
    cases h
    exact ⟨[], by rw [List.append_nil], by rw [scanFrom, List.map_nil]⟩
  | case3 done c rest ih =>
    obtain ⟨more, rfl, hscan⟩ := ih h
    refine ⟨c :: more, by simp, ?_⟩
    rw [scanFrom, hscan]
    rfl
  | case4 => cases h
  | case5 done c rest hquote hescape hplain ih =>
    obtain ⟨more, rfl, hscan⟩ := ih h
    refine ⟨c :: more, by simp, ?_⟩
    have hdollar : c ≠ '$' := by
      rintro rfl
      exact hplain rfl
    rw [scanFrom, hscan, if_neg hdollar]
    · rfl
    · exact hquote
    · exact hescape

/-- Quoted characters are scanned one by one, up to the closing quote. -/
theorem scanFrom_flatMap (cs left : List Char) :
    scanFrom (cs.flatMap quoteChar ++ '\x22' :: left) = some (cs.map .char, left) := by
  obtain ⟨more, hmore, hscan⟩ := scanFrom_of_unquoteFrom (unquoteFrom_flatMap cs [] left)
  rw [hscan, ← List.append_cancel_left hmore]

theorem toList_quote (s : String) :
    (quote s).toList = '\x22' :: (s.toList.flatMap quoteChar ++ ['\x22']) := by
  rw [quote, String.toList_ofList, quoteChars, List.cons_append]

/-- Quoting is undone by scanning, whatever follows. -/
theorem scanWord_quote (value following : String) :
    scanWord (quote value ++ following) = some (literally value, following) := by
  have htext : (quote value ++ following).toList =
      '\x22' :: (value.toList.flatMap quoteChar ++ '\x22' :: following.toList) := by
    simp [toList_quote]
  rw [scanWord, htext]
  show (scanFrom (value.toList.flatMap quoteChar ++ '\x22' :: following.toList)).map _ = _
  rw [scanFrom_flatMap, Option.map_some]
  show some (_, String.ofList following.toList) = _
  rw [String.ofList_toList, literally]

theorem quote_injective : Function.Injective quote := by
  intro value value' h
  have hscan := scanWord_quote value ""
  rw [h, scanWord_quote value' ""] at hscan
  exact (literally_injective (Prod.mk.inj (Option.some.inj hscan)).1).symm

-- ════════════════════════════════════════════════════════════════════════
-- Lines of variables
-- ════════════════════════════════════════════════════════════════════════

/-- What needs no quotes means nothing but itself. -/
theorem isMark_of_isBareChar {c : Char} (h : isBareChar c = true) : isMark c = false :=
  forall_ascii (P := fun c => isBareChar c = true → isMark c = false) (by decide)
    (toNat_lt_of_isAlphanum_or (by simp) h) h

/-- A value is written bare, without marks, or in quotes. -/
theorem envValue_cases (value : String) :
    (envValue value = value ∧ ∀ c ∈ value.toList, isMark c = false) ∨
      envValue value = quote value := by
  rw [envValue]
  split
  · next hbare =>
    rw [Bool.and_eq_true, List.all_eq_true] at hbare
    exact Or.inl ⟨rfl, fun c hc => isMark_of_isBareChar (hbare.2 c hc)⟩
  · exact Or.inr rfl

theorem startsQuoted_quote (s : String) : startsQuoted (quote s) = true := by
  simp [startsQuoted, toList_quote]

theorem not_startsQuoted {s : String} (h : ∀ c ∈ s.toList, isMark c = false) :
    startsQuoted s = false := by
  rw [startsQuoted, decide_eq_false_iff_not]
  intro hhead
  have hquote := h _ (List.mem_of_head? hhead)
  exact absurd hquote (by decide)

/-- A value is read back from what is written for it. -/
theorem valuePieces?_envValue (value : String) :
    valuePieces? (envValue value) = some (literally value) := by
  rcases envValue_cases value with ⟨hbare, hplain⟩ | hquoted
  · rw [hbare, valuePieces?, not_startsQuoted hplain]
    rfl
  · have hscan := scanWord_quote value ""
    rw [String.append_empty] at hscan
    rw [hquoted, valuePieces?, startsQuoted_quote, if_pos rfl, hscan]
    rfl

/-- The name of a variable and what is written for its value, told apart at the first equals
sign. -/
theorem assigned?_line {name : String} (h : '=' ∉ name.toList) (value : String) :
    assigned? (Instruction.env name value).line = some (name, envValue value) := by
  have htext : (Instruction.env name value).line.toList =
      "ENV ".toList ++ (name.toList ++ '=' :: (envValue value).toList) := by
    rw [Instruction.line_env, assignment]
    simp
  rw [assigned?, afterStart?_eq_some_iff.mpr htext, Option.bind_some, cutAt_append_cons h]
  simp

/-- A variable and its value are read back. -/
theorem binding?_line {name : String} (h : '=' ∉ name.toList) (value : String) :
    binding? (Instruction.env name value).line = some (name, literally value) := by
  rw [binding?, assigned?_line h, Option.bind_some]
  show (valuePieces? (envValue value)).map _ = _
  rw [valuePieces?_envValue]
  rfl

/-- For one name, two values are never written in the same way, be there equals signs in the name or
not. -/
theorem env_line_injective (name : String) :
    Function.Injective fun value => (Instruction.env name value).line := by
  intro value value' h
  have hvalue : envValue value = envValue value' := by
    apply String.toList_injective
    simpa [Instruction.line_env, assignment] using congrArg String.toList h
  have hread := valuePieces?_envValue value
  rw [hvalue, valuePieces?_envValue value'] at hread
  exact (literally_injective (Option.some.inj hread)).symm

/-- A scanner that starts at the opening quote reads a quoted text as exactly that text, without an
expansion, and leaves exactly what follows. The line of a variable, whose name has no equals sign, is
read back by cutting it at the first one and taking what follows as a word in quotes, or bare if it
does not start with a quote; a bare one has no quote, backslash, `$`, `#` or white space. Hence
neither two texts are quoted in the same way, nor are two such variables written in the same way. -/
theorem quoting_undone :
    (∀ value following : String,
      scanWord (quote value ++ following) = some (literally value, following)) ∧
    (∀ name value : String, '=' ∉ name.toList →
      binding? (Instruction.env name value).line = some (name, literally value) ∧
      ∃ written, assigned? (Instruction.env name value).line = some (name, written) ∧
        (startsQuoted written = false → ∀ c ∈ written.toList, isMark c = false)) ∧
    Function.Injective quote ∧
    (∀ name name' value value' : String, '=' ∉ name.toList → '=' ∉ name'.toList →
      (Instruction.env name value).line = (Instruction.env name' value').line →
        name = name' ∧ value = value') ∧
    ∀ name : String, Function.Injective fun value => (Instruction.env name value).line := by
  refine ⟨scanWord_quote, fun name value hname => ⟨binding?_line hname value, envValue value,
    assigned?_line hname value, fun hbare => ?_⟩, quote_injective,
    fun name name' value value' hname hname' hline => ?_, env_line_injective⟩
  · rcases envValue_cases value with ⟨hwritten, hplain⟩ | hquoted
    · rwa [hwritten]
    · rw [hquoted, startsQuoted_quote] at hbare
      cases hbare
  · have hread := binding?_line hname value
    rw [hline, binding?_line hname' value'] at hread
    obtain ⟨hnames, hvalues⟩ := Prod.mk.inj (Option.some.inj hread)
    exact ⟨hnames.symm, (literally_injective hvalues).symm⟩

/-- A value with all three escaped characters, and one that is written bare. -/
theorem quoting_undone_sample :
    '=' ∉ "K".toList ∧
    binding? (Instruction.env "K" "a\\\x22$b").line = some ("K", literally "a\\\x22$b") ∧
    (Instruction.env "K" "a\\\x22$b").line = "ENV K=\x22a\\\\\\\x22\\$b\x22" ∧
    binding? (Instruction.env "K" "a=b").line = some ("K", literally "a=b") ∧
    (Instruction.env "K" "a=b").line = "ENV K=a=b" := by
  have hname : '=' ∉ "K".toList := by decide
  exact ⟨hname, (quoting_undone.2.1 "K" "a\\\x22$b" hname).1, by decide +kernel,
    (quoting_undone.2.1 "K" "a=b" hname).1, by decide +kernel⟩

end TwoStage.Dockerfile
