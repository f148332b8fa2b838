import TwoStage.Dockerfile.Quoting
import TwoStage.Proofs.Spec.PlainText
import TwoStage.Proofs.Text.Pieces

/-!
# Words of a shell

How a shell reads a line: blanks keep its words apart, a text in single quotes is taken as it is, a
backslash takes the next character as it is, and in double quotes it does so before the characters
that mean something there. An unquoted `*`, `?` or `[` makes a word that stands for file names, and
`&&` joins two commands. Whatever else a shell would expand, or take for the end of a command or for
a redirection, is refused, so that a line that is read holds nothing but its words.

The reader goes through the characters one by one. `Reads` says what it makes of a piece of a line,
whatever stands before it, and is closed under putting a space between two pieces; words that need
no quotes, and words that are quoted, come out as they went in.

## Main definitions

- `ShellToken` — a word, a word that stands for file names, or `&&`
- `Shell.step`, `Shell.run` — what one character does, and what a text does
- `shellTokens` — what a shell reads in a text
- `Shell.Reads` — what it reads in a piece of a line
- `Shell.BareWord` — words that need no quotes

## Main statements

- `Shell.Reads.space` — two pieces with a space between them
- `Shell.reads_bareWords`, `Shell.shellTokens_shellWords` — words without quotes, and the words of
  a command, are read back
-/

namespace TwoStage

/-- What a shell reads in a line. -/
inductive ShellToken where
  | word (text : String)
  /-- A word that stands for the files with matching names. -/
  | pattern (text : String)
  /-- Joins a command to the one before, which has to succeed. -/
  | andThen
  deriving Repr, DecidableEq

namespace Shell

/-- How the next character of a word is quoted. -/
inductive Quoting where
  | bare
  | escaped
  | single
  | double
  | escapedInDouble
  deriving Repr, DecidableEq

/-- Where the reader is in a line. The characters of a word stand in reverse. -/
inductive Place where
  | between
  /-- Behind the first half of `&&`. -/
  | ampersand
  | inWord (quoting : Quoting) (isPattern : Bool) (current : List Char)
  deriving Repr, DecidableEq

/-- Where the reader is, and what it has read, last token first. -/
structure State where
  place : Place
  tokens : List ShellToken
  deriving Repr, DecidableEq

/-- The token of a word that ends. -/
def tokenOf (isPattern : Bool) (current : List Char) : ShellToken :=
  let text := String.ofList current.reverse
  if isPattern then .pattern text else .word text

theorem tokenOf_reverse (s : String) : tokenOf false s.toList.reverse = .word s := by
  simp [tokenOf]

/-- Whether a character keeps words apart. -/
def isGap (c : Char) : Bool := c = ' ' || c = '\t'

/-- The characters that a shell expands, or at which a command ends or is redirected. -/
def refused : List Char := ['$', '\x60', '|', ';', '<', '>', '(', ')', '\n']

/-- The characters that make a word stand for file names. -/
def wildcards : List Char := ['*', '?', '[']

/-- The characters that a backslash protects in double quotes. -/
def protectedInDouble : List Char := ['$', '\x60', '\x22', '\\']

/-- What a character outside of quotes does to a word, if it does not end it. -/
def extend (isPattern : Bool) (current : List Char) (c : Char) : Option Place :=
  if c = '\x27' then some (.inWord .single isPattern current)
  else if c = '\x22' then some (.inWord .double isPattern current)
  else if c = '\\' then some (.inWord .escaped isPattern current)
  else if c ∈ refused then none
  else some (.inWord .bare (isPattern || c ∈ wildcards) (c :: current))

/-- What one character does. -/
def step (state : State) (c : Char) : Option State :=
  let ⟨place, tokens⟩ := state
  match place with
  | .between =>
    if isGap c then some state
    else if c = '&' then some ⟨.ampersand, tokens⟩
    -- a comment, or the directory of a user
    else if c = '#' || c = '~' then none
    else (extend false [] c).map fun place => ⟨place, tokens⟩
  | .ampersand => if c = '&' then some ⟨.between, .andThen :: tokens⟩ else none
  | .inWord .bare isPattern current =>
    if isGap c then some ⟨.between, tokenOf isPattern current :: tokens⟩
    else if c = '&' then some ⟨.ampersand, tokenOf isPattern current :: tokens⟩
    else (extend isPattern current c).map fun place => ⟨place, tokens⟩
  | .inWord .escaped isPattern current =>
    if c = '\n' then none else some ⟨.inWord .bare isPattern (c :: current), tokens⟩
  | .inWord .single isPattern current =>
    if c = '\x27' then some ⟨.inWord .bare isPattern current, tokens⟩
    else some ⟨.inWord .single isPattern (c :: current), tokens⟩
  | .inWord .double isPattern current =>
    if c = '\x22' then some ⟨.inWord .bare isPattern current, tokens⟩
    else if c = '\\' then some ⟨.inWord .escapedInDouble isPattern current, tokens⟩
    else if c = '$' || c = '\x60' then none
    else some ⟨.inWord .double isPattern (c :: current), tokens⟩
  | .inWord .escapedInDouble isPattern current =>
    if c = '\n' then none
    else if c ∈ protectedInDouble then some ⟨.inWord .double isPattern (c :: current), tokens⟩
    else some ⟨.inWord .double isPattern (c :: '\\' :: current), tokens⟩

/-- What a text does, character by character. -/
def run (state : State) (cs : List Char) : Option State := cs.foldlM step state

/-- What has been read at the end of a line. A quote that is still open, a single `&` and a
backslash at the end are refused. -/
def finish (state : State) : Option (List ShellToken) :=
  match state.place with
  | .between => some state.tokens.reverse
  | .inWord .bare isPattern current => some (tokenOf isPattern current :: state.tokens).reverse
  | _ => none

end Shell

/-- What a shell reads in a text. -/
def shellTokens (s : String) : Option (List ShellToken) :=
  (Shell.run ⟨.between, []⟩ s.toList).bind Shell.finish

namespace Shell

@[simp]
theorem run_nil (state : State) : run state [] = some state := rfl

@[simp]
theorem run_cons (state : State) (c : Char) (cs : List Char) :
    run state (c :: cs) = (step state c).bind fun next => run next cs := rfl

theorem run_append (state : State) (before after : List Char) :
    run state (before ++ after) = (run state before).bind fun next => run next after :=
  List.foldlM_append

-- ════════════════════════════════════════════════════════════════════════
-- Pieces of a line
-- ════════════════════════════════════════════════════════════════════════

/-- What is read in a piece of a line, whatever was read before: the piece may be followed by a
space, or by the end of the line. -/
def Reads (s : String) (tokens : List ShellToken) : Prop :=
  ∀ done, ∃ state, run ⟨.between, done⟩ s.toList = some state ∧
    step state ' ' = some ⟨.between, tokens.reverse ++ done⟩ ∧
    finish state = some (done.reverse ++ tokens)

/-- A line of one piece. -/
theorem Reads.shellTokens_eq {s : String} {tokens : List ShellToken} (h : Reads s tokens) :
    shellTokens s = some tokens := by
  obtain ⟨state, hrun, -, hfinish⟩ := h []
  rw [shellTokens, hrun, Option.bind_some, hfinish]
  rfl

theorem reads_empty : Reads "" [] := by
  intro done
  exact ⟨⟨.between, done⟩, rfl, rfl, by simp [finish]⟩

theorem reads_andThen : Reads "&&" [.andThen] := by
  intro done
  exact ⟨⟨.between, .andThen :: done⟩, rfl, rfl, by simp [finish]⟩

/-- A piece that ends in a word, outside of quotes. -/
theorem reads_of_inWord {s : String} {isPattern : Bool} {current : List Char}
    (h : ∀ done, run ⟨.between, done⟩ s.toList = some ⟨.inWord .bare isPattern current, done⟩) :
    Reads s [tokenOf isPattern current] := by
  intro done
  refine ⟨⟨.inWord .bare isPattern current, done⟩, h done, rfl, ?_⟩
  simp [finish]

/-- A space keeps what is read before it and behind it apart. -/
theorem Reads.space {before after : String} {first second : List ShellToken}
    (hbefore : Reads before first) (hafter : Reads after second) :
    Reads (before ++ " " ++ after) (first ++ second) := by
  intro done
  obtain ⟨state, hrun, hspace, -⟩ := hbefore done
  obtain ⟨last, hlast, hstep, hfinish⟩ := hafter (first.reverse ++ done)
  have hcs : (before ++ " " ++ after).toList = before.toList ++ ' ' :: after.toList := by simp
  refine ⟨last, ?_, ?_, ?_⟩
  · rw [hcs, run_append, hrun, Option.bind_some, run_cons, hspace, Option.bind_some, hlast]
  · rw [hstep, List.reverse_append, List.append_assoc]
  · rw [hfinish, List.reverse_append, List.reverse_reverse, List.append_assoc]

/-- Words with a space between any two are read one after the other, however each is written. -/
theorem reads_joinWith {write : String → String} {words : List String}
    (h : ∀ word ∈ words, Reads (write word) [.word word]) :
    Reads (joinWith " " (words.map write)) (words.map .word) := by
  induction words with
  | nil => exact reads_empty
  | cons first rest ih =>
    rw [List.forall_mem_cons] at h
    cases rest with
    | nil => exact h.1
    | cons next rest =>
      rw [List.map_cons, List.map_cons, joinWith_cons_cons]
      exact h.1.space (ih h.2)

-- ════════════════════════════════════════════════════════════════════════
-- Words without quotes
-- ════════════════════════════════════════════════════════════════════════

/-- Whether a character outside of quotes stands for itself. -/
def isOrdinary (c : Char) : Bool :=
  !isGap c && c ∉ ['&', '\x27', '\x22', '\\'] && c ∉ refused && c ∉ wildcards

/-- A word of characters that stand for themselves; at its start some more do not. -/
structure BareWord (s : String) : Prop where
  ordinary : ∀ c ∈ s.toList, isOrdinary c = true
  ne_nil : s.toList ≠ []
  starts : s.toList.head? ≠ some '#' ∧ s.toList.head? ≠ some '~'

instance (s : String) : Decidable (BareWord s) :=
  have : Decidable (∀ c ∈ s.toList, isOrdinary c = true) := List.decidableBAll _ s.toList
  decidable_of_iff ((∀ c ∈ s.toList, isOrdinary c = true) ∧ s.toList ≠ [] ∧
    s.toList.head? ≠ some '#' ∧ s.toList.head? ≠ some '~')
    ⟨fun h => ⟨h.1, h.2.1, h.2.2⟩, fun h => ⟨h.ordinary, h.ne_nil, h.starts⟩⟩

theorem extend_of_isOrdinary {c : Char} (h : isOrdinary c = true) (isPattern : Bool)
    (current : List Char) :
    extend isPattern current c = some (.inWord .bare isPattern (c :: current)) := by
  simp only [isOrdinary, Bool.and_eq_true, decide_eq_true_eq, List.mem_cons, List.not_mem_nil,
    or_false, not_or] at h
  obtain ⟨⟨⟨-, -, hsingle, hdouble, hbackslash⟩, hrefused⟩, hwild⟩ := h
  rw [extend, if_neg hsingle, if_neg hdouble, if_neg hbackslash, if_neg hrefused]
  simp [hwild]

theorem step_bare {c : Char} (h : isOrdinary c = true) (isPattern : Bool) (current : List Char)
    (tokens : List ShellToken) :
    step ⟨.inWord .bare isPattern current, tokens⟩ c =
      some ⟨.inWord .bare isPattern (c :: current), tokens⟩ := by
  have hextend := extend_of_isOrdinary h isPattern current
  simp only [isOrdinary, Bool.and_eq_true, Bool.not_eq_true', decide_eq_true_eq, List.mem_cons,
    not_or] at h
  obtain ⟨⟨⟨hgap, hampersand, -⟩, -⟩, -⟩ := h
  simp [step, hgap, hampersand, hextend]

theorem step_between {c : Char} (h : isOrdinary c = true) (hstart : c ≠ '#' ∧ c ≠ '~')
    (tokens : List ShellToken) :
    step ⟨.between, tokens⟩ c = some ⟨.inWord .bare false [c], tokens⟩ := by
  have hextend := extend_of_isOrdinary h false []
  simp only [isOrdinary, Bool.and_eq_true, Bool.not_eq_true', decide_eq_true_eq, List.mem_cons,
    not_or] at h
  obtain ⟨⟨⟨hgap, hampersand, -⟩, -⟩, -⟩ := h
  simp [step, hgap, hampersand, hstart.1, hstart.2, hextend]

/-- Characters that stand for themselves go on in the word. -/
theorem run_bare {cs : List Char} (h : ∀ c ∈ cs, isOrdinary c = true) (isPattern : Bool)
    (current : List Char) (tokens : List ShellToken) :
    run ⟨.inWord .bare isPattern current, tokens⟩ cs =
      some ⟨.inWord .bare isPattern (cs.reverse ++ current), tokens⟩ := by
  induction cs generalizing current with
  | nil => rfl
  | cons c cs ih =>
    rw [List.forall_mem_cons] at h
    rw [run_cons, step_bare h.1, Option.bind_some, ih h.2, List.reverse_cons, List.append_assoc]
    rfl

theorem BareWord.run_eq {s : String} (h : BareWord s) (tokens : List ShellToken) :
    run ⟨.between, tokens⟩ s.toList = some ⟨.inWord .bare false s.toList.reverse, tokens⟩ := by
  obtain ⟨first, rest, hcs⟩ := List.exists_cons_of_ne_nil h.ne_nil
  have hstart : first ≠ '#' ∧ first ≠ '~' := by simpa [hcs] using h.starts
  have hordinary := h.ordinary
  rw [hcs, List.forall_mem_cons] at hordinary
  rw [hcs, run_cons, step_between hordinary.1 hstart, Option.bind_some, run_bare hordinary.2,
    List.reverse_cons]

/-- A word that needs no quotes is a word. -/
theorem BareWord.reads {s : String} (h : BareWord s) : Reads s [.word s] := by
  rw [← tokenOf_reverse]
  exact reads_of_inWord h.run_eq

/-- With a star behind it, the word stands for file names. -/
theorem BareWord.reads_star {s : String} (h : BareWord s) :
    Reads (s ++ "*") [.pattern (s ++ "*")] := by
  have hpattern : ShellToken.pattern (s ++ "*") = tokenOf true ('*' :: s.toList.reverse) := by
    simp [tokenOf]
  rw [hpattern]
  refine reads_of_inWord fun done => ?_
  rw [String.toList_append, run_append, h.run_eq]
  rfl

/-- Words that need no quotes, with a space between any two. -/
theorem reads_bareWords (words : List String) (h : ∀ word ∈ words, BareWord word) :
    Reads (joinWith " " words) (words.map .word) := by
  have hreads : Reads (joinWith " " (words.map id)) (words.map .word) :=
    reads_joinWith fun word hword => (h word hword).reads
  rwa [List.map_id] at hreads

theorem isOrdinary_of_isPlainChar {c : Char} (h : isPlainChar c = true) : isOrdinary c = true :=
  forall_ascii (P := fun c => isPlainChar c = true → isOrdinary c = true) (by decide)
    (toNat_lt_of_isPlainChar h) h

/-- A plain text on one line needs no quotes, unless it starts like a comment or with the directory
of a user. -/
theorem bareWord_of_plainText {s : String} (h : PlainText s) (hline : '\n' ∉ s.toList)
    (hstart : s.toList.head? ≠ some '#' ∧ s.toList.head? ≠ some '~') : BareWord s := by
  refine ⟨fun c hc => isOrdinary_of_isPlainChar ?_, by simpa using h.ne_empty, hstart⟩
  refine (h.isPlainChar_or hc).resolve_right ?_
  rintro rfl
  exact hline hc

theorem bareWord_of_startsAndGoesOn {s : String} {start goOn : Char → Bool} (h : PlainText s)
    (hline : '\n' ∉ s.toList)
    (hpattern : startsAndGoesOn start goOn (dropFinalNewline s.toList) = true)
    (hhash : start '#' = false) (htilde : start '~' = false) : BareWord s := by
  obtain ⟨first, rest, hcs, hfirst⟩ := exists_cons_of_startsAndGoesOn hpattern
  have hne : ∀ c, start c = false → first ≠ c := by
    rintro c hc rfl
    cases hc.symm.trans hfirst
  exact bareWord_of_plainText h hline (by simpa [hcs] using ⟨hne '#' hhash, hne '~' htilde⟩)

theorem bareWord_of_isPackageName {s : String} (h : isPackageName s = true)
    (hline : '\n' ∉ s.toList) : BareWord s :=
  bareWord_of_startsAndGoesOn (.of_isPackageName h) hline h (by decide) (by decide)

theorem bareWord_of_isUserName {s : String} (h : isUserName s = true)
    (hline : '\n' ∉ s.toList) : BareWord s := by
  have hpattern := h
  rw [isUserName, Bool.and_eq_true] at hpattern
  exact bareWord_of_startsAndGoesOn (.of_isUserName h) hline hpattern.1 (by decide) (by decide)

theorem bareWord_of_isPlainPath {s : String} (h : isPlainPath s = true)
    (hline : '\n' ∉ s.toList) : BareWord s := by
  have hsame : dropFinalNewline s.toList = s.toList := by
    rcases dropFinalNewline_cases s.toList with hsame | hends
    · exact hsame
    · rw [hends] at hline
      simp at hline
  have hplain := PlainText.of_isPlainPath h
  rw [isPlainPath, hsame] at h
  split at h
  · next first rest hcs => exact bareWord_of_plainText hplain hline (by simp [hcs])
  · cases h

-- ════════════════════════════════════════════════════════════════════════
-- Quoted words
-- ════════════════════════════════════════════════════════════════════════

/-- A character in single quotes is read as itself: a single quote closes them, stands in double
quotes, and opens them again. -/
theorem run_shellChar (c : Char) (isPattern : Bool) (current : List Char)
    (tokens : List ShellToken) :
    run ⟨.inWord .single isPattern current, tokens⟩ (Dockerfile.shellChar c) =
      some ⟨.inWord .single isPattern (c :: current), tokens⟩ := by
  rw [Dockerfile.shellChar]
  split
  · next hquote =>
    subst hquote
    rfl
  · next hne => simp [step, hne]

theorem run_flatMap_shellChar (cs : List Char) (isPattern : Bool) (current : List Char)
    (tokens : List ShellToken) :
    run ⟨.inWord .single isPattern current, tokens⟩ (cs.flatMap Dockerfile.shellChar) =
      some ⟨.inWord .single isPattern (cs.reverse ++ current), tokens⟩ := by
  induction cs generalizing current with
  | nil => rfl
  | cons c cs ih =>
    rw [List.flatMap_cons, run_append, run_shellChar, Option.bind_some, ih, List.reverse_cons,
      List.append_assoc]
    rfl

/-- Characters that need no quotes stand for themselves. -/
theorem isOrdinary_of_isShellSafe {c : Char} (h : Dockerfile.isShellSafe c = true) :
    isOrdinary c = true ∧ c ≠ '#' ∧ c ≠ '~' :=
  forall_ascii (P := fun c => Dockerfile.isShellSafe c = true →
    isOrdinary c = true ∧ c ≠ '#' ∧ c ≠ '~') (by decide) (toNat_lt_of_isAlphanum_or (by simp) h) h

/-- A word for a shell is read back. -/
theorem reads_shellWord (s : String) : Reads (Dockerfile.shellWord s) [.word s] := by
  rw [Dockerfile.shellWord]
  split
  · next hsafe =>
    rw [Bool.and_eq_true, Bool.not_eq_true', List.isEmpty_eq_false_iff, List.all_eq_true] at hsafe
    obtain ⟨hne, hsafe⟩ := hsafe
    obtain ⟨first, rest, hcs⟩ := List.exists_cons_of_ne_nil hne
    have hfirst : first ∈ s.toList := by simp [hcs]
    refine BareWord.reads ⟨fun c hc => (isOrdinary_of_isShellSafe (hsafe c hc)).1, hne, ?_⟩
    simpa [hcs] using (isOrdinary_of_isShellSafe (hsafe first hfirst)).2
  · rw [← tokenOf_reverse]
    refine reads_of_inWord fun done => ?_
    have hopen : step ⟨.between, done⟩ '\x27' = some ⟨.inWord .single false [], done⟩ := rfl
    have hclose : run ⟨.inWord .single false s.toList.reverse, done⟩ ['\x27'] =
        some ⟨.inWord .bare false s.toList.reverse, done⟩ := rfl
    rw [String.toList_ofList, List.cons_append, run_cons, hopen, Option.bind_some, run_append,
      run_flatMap_shellChar, List.append_nil, Option.bind_some, hclose]

/-- The words of a command are read back. -/
theorem shellTokens_shellWords (argv : List String) :
    shellTokens (Dockerfile.shellWords argv) = some (argv.map .word) :=
  (reads_joinWith fun word _ => reads_shellWord word).shellTokens_eq

example : shellTokens (Dockerfile.shellWords ["sh", "-c", "make && make test", ""]) =
    some [.word "sh", .word "-c", .word "make && make test", .word ""] := by decide

end Shell

end TwoStage
