import TwoStage.Proofs.Bindings
import TwoStage.Proofs.Json.Quoted
import TwoStage.Proofs.Text.Blank

/-!
# Reading what was written

A value is read back from its text in either layout. The blanks between the parts of a text do not
matter, so that the arrays and objects of both layouts are read by one lemma each; all other values
end where something follows that they cannot go on with.

## Main definitions

- `Json.Reads` — characters that are read as a value, whatever follows
- `Json.Exact` — values that are read back as they were written

## Main statements

- `Json.reads_arr`, `Json.reads_obj` — arrays and objects, whatever the blanks between their parts
- `Json.reads_int` — integers of not too many digits
- `Json.Exact.read_compact`, `Json.Exact.read_indented` — reading back
- `Json.Exact.space_le_of_mem_compact` — no control characters on one line
- `Json.Exact.unifyNewlines_indented` — reading line ends, too
-/

namespace TwoStage.Json

-- ════════════════════════════════════════════════════════════════════════
-- What follows what
-- ════════════════════════════════════════════════════════════════════════

/-- A text of blanks. -/
def Spaces (s : String) : Prop := ∀ c ∈ s.toList, isSpace c = true

/-- What can stand behind a value: nothing that a number could go on with. -/
def CanFollow (rest : List Char) : Prop :=
  ∀ c ∈ rest.head?, isSpace c = true ∨ c ∈ [',', ']', '\x7d']

/-- What a value can begin with: neither a blank nor the end of an array. -/
def Begins (cs : List Char) : Prop :=
  ∃ first more, cs = first :: more ∧ isSpace first = false ∧ first ≠ ']' ∧ first ≠ '\x7d'

/-- Characters that are read as a value, whatever follows. -/
structure Reads (value : Json) (cs : List Char) : Prop where
  begins : Begins cs
  reads : ∀ fuel rest, 2 * cs.length ≤ fuel → CanFollow rest →
    valueFrom fuel (cs ++ rest) = .ok (value, rest)

theorem Begins.append {cs : List Char} (h : Begins cs) (rest : List Char) :
    Begins (cs ++ rest) := by
  obtain ⟨first, more, rfl, hfirst⟩ := h
  exact ⟨first, more ++ rest, rfl, hfirst⟩

theorem skipSpace_append {gap : String} (h : Spaces gap) {c : Char} (hc : isSpace c = false)
    (rest : List Char) : skipSpace (gap.toList ++ c :: rest) = c :: rest := by
  rw [skipSpace, List.dropWhile_append_of_pos h, List.dropWhile_cons_of_neg (by simp [hc])]

theorem Begins.skipSpace_append {cs : List Char} (h : Begins cs) {gap : String} (hgap : Spaces gap) :
    skipSpace (gap.toList ++ cs) = cs := by
  obtain ⟨first, more, rfl, hfirst, -⟩ := h
  exact Json.skipSpace_append hgap hfirst more

theorem canFollow_append {gap : String} (h : Spaces gap) {c : Char} (hc : c ∈ [',', ']', '\x7d'])
    (rest : List Char) : CanFollow (gap.toList ++ c :: rest) := by
  intro d hd
  cases hgap : gap.toList with
  | nil =>
    rw [hgap] at hd
    cases hd
    exact Or.inr hc
  | cons first more =>
    rw [hgap] at hd
    cases hd
    exact Or.inl (h _ (by rw [hgap]; exact List.mem_cons_self))

/-- Texts that are joined: the first of them, or the first of them with the others behind it. -/
theorem toList_joinWith_cons_cons (gap first next : String) (rest : List String) :
    (joinWith ("," ++ gap) (first :: next :: rest)).toList =
      first.toList ++ ',' :: (gap.toList ++ (joinWith ("," ++ gap) (next :: rest)).toList) := by
  simp [joinWith_cons_cons]

theorem begins_joinWith {first : String} (h : Begins first.toList) (gap : String)
    (rest : List String) :
    Begins (joinWith ("," ++ gap) (first :: rest)).toList := by
  cases rest with
  | nil => simpa [toList_joinWith] using h
  | cons next rest =>
    rw [toList_joinWith_cons_cons]
    exact h.append _

theorem spaces_blank : Spaces " " := by
  simp [Spaces, isSpace]

theorem skipSpace_colon (cs : List Char) : skipSpace (':' :: cs) = ':' :: cs := rfl

theorem skipSpace_comma (cs : List Char) : skipSpace (',' :: cs) = ',' :: cs := rfl

/-- A member with its value written by `write`. -/
def writeMember (ascii : Bool) (write : Json → String) (member : String × Json) : String :=
  quoted ascii member.1 ++ ": " ++ write member.2

theorem toList_writeMember (ascii : Bool) (write : Json → String) (member : String × Json) :
    (writeMember ascii write member).toList =
      '\x22' :: (member.1.toList.flatMap (stringChar ascii) ++
        '\x22' :: ':' :: ' ' :: (write member.2).toList) := by
  simp [writeMember, toList_quoted]

theorem begins_writeMember (ascii : Bool) (write : Json → String) (member : String × Json) :
    Begins (writeMember ascii write member).toList :=
  ⟨_, _, toList_writeMember ascii write member, by decide, by decide, by decide⟩

/-- A member is read up to what follows its value. -/
theorem membersFrom_writeMember {ascii : Bool} {write : Json → String} {name : String}
    {value : Json} (h : Reads value (write value).toList) (tail : List Char)
    (htail : CanFollow tail) (done : Bindings Json) {fuel : Nat}
    (hfuel : 2 * (writeMember ascii write (name, value)).toList.length ≤ fuel) :
    (∀ rest, skipSpace tail = '\x7d' :: rest →
      membersFrom (fuel + 1) done ((writeMember ascii write (name, value)).toList ++ tail) =
        .ok (obj (done.put name value), rest)) ∧
    (∀ rest, skipSpace tail = ',' :: rest →
      membersFrom (fuel + 1) done ((writeMember ascii write (name, value)).toList ++ tail) =
        membersFrom fuel (done.put name value) (skipSpace rest)) := by
  rw [toList_writeMember] at hfuel ⊢
  simp only [List.length_cons, List.length_append] at hfuel
  simp only [List.cons_append, List.append_assoc]
  have hspace : skipSpace (' ' :: ((write value).toList ++ tail)) = (write value).toList ++ tail :=
    (h.begins.append tail).skipSpace_append spaces_blank
  have hvalue := h.reads fuel tail (by omega) htail
  constructor
  · intro rest hrest
    simp only [membersFrom, stringFrom_flatMap, skipSpace_colon, hspace, hvalue, hrest,
      List.reverse_nil, List.nil_append, String.ofList_toList]
  · intro rest hrest
    simp only [membersFrom, stringFrom_flatMap, skipSpace_colon, hspace, hvalue, hrest,
      List.reverse_nil, List.nil_append, String.ofList_toList]

section Layout

variable {gap closing : String} (hgap : Spaces gap) (hclosing : Spaces closing)

include hgap hclosing

/-- The items of an array, whatever the blanks between them. -/
theorem itemsFrom_joinWith {write : Json → String} {items : List Json} (hne : items ≠ [])
    (h : ∀ item ∈ items, Reads item (write item).toList) (done : List Json) (rest : List Char)
    (fuel : Nat)
    (hfuel : 2 * ((joinWith ("," ++ gap) (items.map write)).toList.length + 1) ≤ fuel) :
    itemsFrom fuel done ((joinWith ("," ++ gap) (items.map write)).toList ++
      (closing.toList ++ ']' :: rest)) = .ok (arr (done.reverse ++ items), rest) := by
  induction items generalizing done fuel with
  | nil => exact absurd rfl hne
  | cons item more ih =>
    obtain ⟨fuel, rfl⟩ : ∃ less, fuel = less + 1 := ⟨fuel - 1, by omega⟩
    have hitem := (h item List.mem_cons_self).reads fuel
    cases more with
    | nil =>
      simp only [List.map_cons, List.map_nil, toList_joinWith, List.intercalate_singleton]
        at hfuel ⊢
      rw [itemsFrom, hitem _ (by omega) (canFollow_append hclosing (by simp) rest)]
      dsimp only
      rw [skipSpace_append hclosing (by decide)]
      simp
    | cons next more =>
      have hmore : ∀ other ∈ next :: more, Reads other (write other).toList :=
        fun other hmem => h other (List.mem_cons_of_mem _ hmem)
      have hbegins := begins_joinWith (hmore next List.mem_cons_self).begins gap (more.map write)
      rw [List.map_cons, List.map_cons, toList_joinWith_cons_cons, ← List.map_cons] at hfuel ⊢
      rw [← List.map_cons] at hbegins
      simp only [List.length_append, List.length_cons] at hfuel
      simp only [List.append_assoc, List.cons_append]
      have hrest := ih (List.cons_ne_nil _ _) hmore (item :: done) fuel (by omega)
      rw [itemsFrom, hitem _ (by omega) (by simp [CanFollow])]
      dsimp only
      rw [skipSpace_comma]
      show itemsFrom fuel (item :: done) (skipSpace (gap.toList ++ _)) = _
      rw [(hbegins.append _).skipSpace_append hgap, hrest]
      simp

/-- The members of an object, whatever the blanks between them. -/
theorem membersFrom_joinWith (ascii : Bool) {write : Json → String} {members : List (String × Json)}
    (hne : members ≠ []) (h : ∀ member ∈ members, Reads member.2 (write member.2).toList)
    (done : Bindings Json) (hnames : ((done ++ members).map Prod.fst).Nodup) (rest : List Char)
    (fuel : Nat)
    (hfuel : 2 * ((joinWith ("," ++ gap) (members.map (writeMember ascii write))).toList.length + 1)
      ≤ fuel) :
    membersFrom fuel done
      ((joinWith ("," ++ gap) (members.map (writeMember ascii write))).toList ++
        (closing.toList ++ '\x7d' :: rest)) = .ok (obj (done ++ members), rest) := by
  induction members generalizing done fuel with
  | nil => exact absurd rfl hne
  | cons member more ih =>
    obtain ⟨name, value⟩ := member
    obtain ⟨fuel, rfl⟩ : ∃ less, fuel = less + 1 := ⟨fuel - 1, by omega⟩
    have hvalue : Reads value (write value).toList := h (name, value) List.mem_cons_self
    have hput : done.put name value = done ++ [(name, value)] := by
      refine Bindings.put_of_not_mem value fun hmem => ?_
      rw [List.map_append, List.map_cons, List.nodup_append] at hnames
      exact hnames.2.2 name hmem name List.mem_cons_self rfl
    cases more with
    | nil =>
      simp only [List.map_cons, List.map_nil, toList_joinWith, List.intercalate_singleton]
        at hfuel ⊢
      have hmember : 2 * (writeMember ascii write (name, value)).toList.length ≤ fuel := by omega
      have hlast := (membersFrom_writeMember hvalue _ (canFollow_append hclosing (by simp) rest)
        done hmember).1 rest (skipSpace_append hclosing (by decide) _)
      rw [hlast, hput]
    | cons next more =>
      have hmore : ∀ other ∈ next :: more, Reads other.2 (write other.2).toList :=
        fun other hmem => h other (List.mem_cons_of_mem _ hmem)
      have hbegins := begins_joinWith (begins_writeMember ascii write next) gap
        (more.map (writeMember ascii write))
      rw [List.map_cons, List.map_cons, toList_joinWith_cons_cons, ← List.map_cons] at hfuel ⊢
      rw [← List.map_cons] at hbegins
      simp only [List.length_append, List.length_cons] at hfuel
      simp only [List.append_assoc, List.cons_append]
      have hrest := ih (List.cons_ne_nil _ _) hmore (done ++ [(name, value)])
        (by rwa [List.append_assoc]) fuel (by omega)
      have hmember : 2 * (writeMember ascii write (name, value)).toList.length ≤ fuel := by omega
      rw [(membersFrom_writeMember hvalue _ (by simp [CanFollow]) done hmember).2 _
        (skipSpace_comma _), (hbegins.append _).skipSpace_append hgap, hput, hrest,
        List.append_assoc]
      rfl

/-- An array of which each item is read. -/
theorem reads_arr {start : String} (hstart : Spaces start) {write : Json → String}
    {items : List Json} (h : ∀ item ∈ items, Reads item (write item).toList) (hne : items ≠ []) :
    Reads (arr items)
      ("[" ++ start ++ joinWith ("," ++ gap) (items.map write) ++ closing ++ "]").toList := by
  obtain ⟨item, more, rfl⟩ := List.exists_cons_of_ne_nil hne
  have hbegins := begins_joinWith (h item List.mem_cons_self).begins gap (more.map write)
  rw [← List.map_cons] at hbegins
  have hitems := itemsFrom_joinWith hgap hclosing hne h []
  generalize (joinWith ("," ++ gap) ((item :: more).map write)) = inner at hbegins hitems
  have htext : ("[" ++ start ++ inner ++ closing ++ "]").toList =
      '[' :: (start.toList ++ (inner.toList ++ (closing.toList ++ [']']))) := by simp
  rw [htext]
  refine ⟨⟨'[', _, rfl, by decide, by decide, by decide⟩, fun fuel rest hfuel _ => ?_⟩
  simp only [List.length_cons, List.length_append, List.length_nil] at hfuel
  obtain ⟨fuel, rfl⟩ : ∃ less, fuel = less + 1 := ⟨fuel - 1, by omega⟩
  have hread := hitems rest fuel (by omega)
  have hskip := (hbegins.append (closing.toList ++ ']' :: rest)).skipSpace_append hstart
  obtain ⟨first, tail, hinner, -, hfirst⟩ := hbegins
  simp only [List.cons_append, List.append_assoc, List.nil_append]
  rw [valueFrom, hskip]
  split
  · next heq =>
    rw [hinner, List.cons_append, List.cons.injEq] at heq
    exact absurd heq.1 hfirst.1
  · rw [hread]
    rfl

/-- An object of which each value is read, its names being distinct. -/
theorem reads_obj (ascii : Bool) {start : String} (hstart : Spaces start) {write : Json → String}
    {members : List (String × Json)}
    (h : ∀ member ∈ members, Reads member.2 (write member.2).toList)
    (hnames : (members.map Prod.fst).Nodup) (hne : members ≠ []) :
    Reads (obj members)
      ("\x7b" ++ start ++ joinWith ("," ++ gap) (members.map (writeMember ascii write)) ++
        closing ++ "\x7d").toList := by
  obtain ⟨member, more, rfl⟩ := List.exists_cons_of_ne_nil hne
  have hbegins := begins_joinWith (begins_writeMember ascii write member) gap
    (more.map (writeMember ascii write))
  rw [← List.map_cons] at hbegins
  have hmembers := membersFrom_joinWith hgap hclosing ascii hne h [] hnames
  generalize (joinWith ("," ++ gap) ((member :: more).map (writeMember ascii write))) = inner
    at hbegins hmembers
  have htext : ("\x7b" ++ start ++ inner ++ closing ++ "\x7d").toList =
      '\x7b' :: (start.toList ++ (inner.toList ++ (closing.toList ++ ['\x7d']))) := by simp
  rw [htext]
  refine ⟨⟨'\x7b', _, rfl, by decide, by decide, by decide⟩, fun fuel rest hfuel _ => ?_⟩
  simp only [List.length_cons, List.length_append, List.length_nil] at hfuel
  obtain ⟨fuel, rfl⟩ : ∃ less, fuel = less + 1 := ⟨fuel - 1, by omega⟩
  have hread := hmembers rest fuel (by omega)
  have hskip := (hbegins.append (closing.toList ++ '\x7d' :: rest)).skipSpace_append hstart
  obtain ⟨first, tail, hinner, -, hfirst⟩ := hbegins
  simp only [List.cons_append, List.append_assoc, List.nil_append]
  rw [valueFrom, hskip]
  split
  · next heq =>
    rw [hinner, List.cons_append, List.cons.injEq] at heq
    exact absurd heq.1 hfirst.2
  · rw [hread]
    rfl

end Layout

-- ════════════════════════════════════════════════════════════════════════
-- Values that hold no other
-- ════════════════════════════════════════════════════════════════════════

theorem CanFollow.cases {rest : List Char} (h : CanFollow rest) :
    rest = [] ∨ ∃ c more, rest = c :: more ∧ c ∈ [' ', '\t', '\n', '\r', ',', ']', '\x7d'] := by
  cases rest with
  | nil => exact Or.inl rfl
  | cons c more =>
    refine Or.inr ⟨c, more, rfl, ?_⟩
    have hc := h c rfl
    simp only [isSpace, Bool.or_eq_true, decide_eq_true_eq] at hc
    simp only [List.mem_cons] at hc ⊢
    tauto

theorem reads_str (ascii : Bool) (s : String) : Reads (str s) (quoted ascii s).toList := by
  rw [toList_quoted]
  refine ⟨⟨'\x22', _, rfl, by decide, by decide, by decide⟩, fun fuel rest hfuel _ => ?_⟩
  simp only [List.length_cons, List.cons_append] at hfuel
  obtain ⟨fuel, rfl⟩ : ∃ less, fuel = less + 1 := ⟨fuel - 1, by omega⟩
  simp only [List.cons_append, List.append_assoc, List.nil_append]
  rw [valueFrom, stringFrom_flatMap]
  simp

theorem reads_nil_arr : Reads (arr []) ("[]" : String).toList := by
  refine ⟨⟨'[', _, rfl, by decide, by decide, by decide⟩, fun fuel rest hfuel _ => ?_⟩
  obtain ⟨fuel, rfl⟩ : ∃ less, fuel = less + 1 := ⟨fuel - 1, by simp at hfuel; omega⟩
  rfl

theorem reads_nil_obj : Reads (obj []) ("\x7b\x7d" : String).toList := by
  refine ⟨⟨'\x7b', _, rfl, by decide, by decide, by decide⟩, fun fuel rest hfuel _ => ?_⟩
  obtain ⟨fuel, rfl⟩ : ∃ less, fuel = less + 1 := ⟨fuel - 1, by simp at hfuel; omega⟩
  rfl

theorem valueFrom_scalar {first : Char} (h : first ∉ ['\x22', '[', '\x7b']) (fuel : Nat)
    (more : List Char) : valueFrom (fuel + 1) (first :: more) = scalarFrom (first :: more) := by
  simp only [List.mem_cons, List.not_mem_nil, or_false, not_or] at h
  rw [valueFrom]
  · exact fun _ heq => h.1 (List.cons.inj heq).1
  · exact fun _ heq => h.2.1 (List.cons.inj heq).1
  · exact fun _ heq => h.2.2 (List.cons.inj heq).1

/-- A value that holds no other is read by the reader of such values. -/
theorem reads_scalar {text : String} {value : Json} {first : Char} {more : List Char}
    (htext : text.toList = first :: more)
    (hfirst : isSpace first = false ∧ first ∉ [']', '\x7d', '\x22', '[', '\x7b'])
    (h : ∀ rest, CanFollow rest → scalarFrom (text.toList ++ rest) = .ok (value, rest)) :
    Reads value text.toList := by
  obtain ⟨hspace, hmem⟩ := hfirst
  simp only [List.mem_cons, List.not_mem_nil, or_false, not_or] at hmem
  refine ⟨⟨first, more, htext, hspace, hmem.1, hmem.2.1⟩, fun fuel rest hfuel hrest => ?_⟩
  have hread := h rest hrest
  rw [htext, List.cons_append] at hread ⊢
  rw [htext, List.length_cons] at hfuel
  obtain ⟨fuel, rfl⟩ : ∃ less, fuel = less + 1 := ⟨fuel - 1, by omega⟩
  rw [valueFrom_scalar (by simp [hmem]), hread]

theorem reads_null : Reads null ("null" : String).toList :=
  reads_scalar rfl (by decide) fun _ _ => rfl

theorem reads_bool (b : Bool) : Reads (bool b) (if b then "true" else "false" : String).toList := by
  cases b
  · exact reads_scalar rfl (by decide) fun _ _ => rfl
  · exact reads_scalar rfl (by decide) fun _ _ => rfl

section Numbers

theorem isDecimal_of_isDigit {c : Char} (h : c.isDigit = true) : isDecimal c = true := h

/-- Nothing that can follow a value goes on with a number. -/
theorem CanFollow.not_number {rest : List Char} (h : CanFollow rest) :
    (∀ c ∈ rest.head?, isDecimal c = false) ∧ fractionFrom rest = (none, rest) ∧
      exponentFrom rest = (none, rest) := by
  rcases h.cases with rfl | ⟨c, more, rfl, hc⟩
  · exact ⟨by simp, rfl, rfl⟩
  · have hall : ∀ c ∈ [' ', '\t', '\n', '\r', ',', ']', '\x7d'],
        isDecimal c = false ∧ c ≠ '.' ∧ (c = 'e' || c = 'E') = false := by simp [isDecimal]
    obtain ⟨hdecimal, hpoint, hexponent⟩ := hall c hc
    refine ⟨by simpa using hdecimal, ?_, ?_⟩
    · rw [fractionFrom]
      exact fun _ heq => hpoint (List.cons.inj heq).1
    · simp only [exponentFrom, hexponent, Bool.false_eq_true, if_false]

theorem takeWhile_digits {digits rest : List Char} (h : ∀ c ∈ digits, isDecimal c = true)
    (hrest : ∀ c ∈ rest.head?, isDecimal c = false) :
    (digits ++ rest).takeWhile isDecimal = digits ∧
      (digits ++ rest).dropWhile isDecimal = rest := by
  rw [List.takeWhile_append_of_pos h, List.dropWhile_append_of_pos h]
  cases rest with
  | nil => simp
  | cons c more =>
    have hc : isDecimal c = false := hrest c rfl
    simp [hc]

/-- Only zero starts with the digit zero. -/
theorem toDigits_cases (n : Nat) :
    n = 0 ∨ ∃ first more, Nat.toDigits 10 n = first :: more ∧ first ≠ '0' := by
  induction n using Nat.strongRecOn with
  | ind n ih =>
    by_cases hsmall : n < 10
    · rw [Nat.toDigits_of_lt_base hsmall]
      have hall : ∀ n < 10, n = 0 ∨ n.digitChar ≠ '0' := by decide
      exact (hall n hsmall).imp_right fun hne => ⟨_, [], rfl, hne⟩
    · obtain hzero | ⟨first, more, hdigits, hne⟩ := ih (n / 10) (by omega)
      · omega
      · rw [Nat.toDigits_of_base_le (by decide) (by omega), hdigits]
        exact Or.inr ⟨first, _, rfl, hne⟩

theorem wholeFrom_toDigits (n : Nat) {rest : List Char} (hrest : CanFollow rest) :
    wholeFrom (Nat.toDigits 10 n ++ rest) = some (Nat.toDigits 10 n, rest) := by
  rcases toDigits_cases n with rfl | ⟨first, more, hdigits, hne⟩
  · rfl
  · have hall : ∀ c ∈ Nat.toDigits 10 n, isDecimal c = true :=
      fun c hc => isDecimal_of_isDigit (Nat.isDigit_of_mem_toDigits (by decide) (by decide) hc)
    obtain ⟨htake, hdrop⟩ := takeWhile_digits hall hrest.not_number.1
    rw [wholeFrom]
    · simp only [htake, hdrop]
      rw [hdigits]
      rfl
    · intro tail heq
      rw [hdigits] at heq
      exact hne (List.cons.inj heq).1

theorem numberFrom_toDigits (start : List Char) (negative : Bool) {n : Nat}
    (h : (Nat.toDigits 10 n).length ≤ integerDigitLimit) {rest : List Char}
    (hrest : CanFollow rest) :
    numberFrom start negative (Nat.toDigits 10 n ++ rest) =
      .ok (int (if negative then -n else n), rest) := by
  have hvalue : decimalValue (Nat.toDigits 10 n) = n := Nat.ofDigitChars_ten_toDigits
  obtain ⟨-, hfraction, hexponent⟩ := hrest.not_number
  rw [numberFrom, wholeFrom_toDigits n hrest]
  dsimp only
  rw [hfraction]
  dsimp only
  rw [hexponent]
  dsimp only
  rw [if_neg (by omega), hvalue]

theorem exists_toDigits_eq_cons (n : Nat) :
    ∃ first more, Nat.toDigits 10 n = first :: more ∧ first.isDigit = true := by
  obtain ⟨first, more, hdigits⟩ :=
    List.exists_cons_of_ne_nil (Nat.toDigits_ne_nil (n := n) (b := 10))
  refine ⟨first, more, hdigits, ?_⟩
  have hmem : first ∈ Nat.toDigits 10 n := hdigits ▸ List.mem_cons_self
  exact Nat.isDigit_of_mem_toDigits (by decide) (by decide) hmem

theorem ne_of_isDigit {c d : Char} (hc : c.isDigit = true) (hd : d.isDigit = false) : d ≠ c := by
  rintro rfl
  rw [hc] at hd
  cases hd

/-- No word starts with a digit, and none with a sign and a digit. -/
theorem wordFrom?_digit {first : Char} (h : first.isDigit = true) (more : List Char) :
    wordFrom? (first :: more) = none ∧ wordFrom? ('-' :: first :: more) = none := by
  have hn : 'n' ≠ first := ne_of_isDigit h rfl
  have ht : 't' ≠ first := ne_of_isDigit h rfl
  have hf : 'f' ≠ first := ne_of_isDigit h rfl
  have hN : 'N' ≠ first := ne_of_isDigit h rfl
  have hI : 'I' ≠ first := ne_of_isDigit h rfl
  have hminus : '-' ≠ first := ne_of_isDigit h rfl
  simp [wordFrom?, wordValues, hn, ht, hf, hN, hI, hminus]

/-- An integer of not too many digits is read as itself. -/
theorem reads_int {n : Int} (h : (Nat.toDigits 10 n.natAbs).length ≤ integerDigitLimit) :
    Reads (int n) (toString n).toList := by
  obtain ⟨first, more, hdigits, hfirst⟩ := exists_toDigits_eq_cons n.natAbs
  cases n with
  | ofNat n =>
    replace h : (Nat.toDigits 10 n).length ≤ integerDigitLimit := h
    replace hdigits : Nat.toDigits 10 n = first :: more := hdigits
    have htext : (toString (Int.ofNat n)).toList = Nat.toDigits 10 n := Nat.toList_repr
    have hbegins : isSpace first = false ∧ first ∉ [']', '\x7d', '\x22', '[', '\x7b'] := by
      constructor
      · by_contra hspace
        simp only [isSpace, Bool.or_eq_true, decide_eq_true_eq, Bool.not_eq_false] at hspace
        rcases hspace with ((rfl | rfl) | rfl) | rfl <;> cases hfirst
      · have hall : ∀ c ∈ [']', '\x7d', '\x22', '[', '\x7b'], c.isDigit = false := by simp
        exact fun hmem => ne_of_isDigit hfirst (hall first hmem) rfl
    refine reads_scalar (htext.trans hdigits) hbegins fun rest hrest => ?_
    have hread := numberFrom_toDigits (Nat.toDigits 10 n ++ rest) false h hrest
    have hsign : '-' ≠ first := ne_of_isDigit hfirst rfl
    rw [htext]
    rw [hdigits, List.cons_append] at hread ⊢
    rw [scalarFrom, (wordFrom?_digit hfirst _).1]
    · exact hread
    · exact fun _ heq => hsign (List.cons.inj heq).1.symm
  | negSucc n =>
    replace h : (Nat.toDigits 10 (n + 1)).length ≤ integerDigitLimit := h
    replace hdigits : Nat.toDigits 10 (n + 1) = first :: more := hdigits
    have htext : (toString (Int.negSucc n)).toList = '-' :: Nat.toDigits 10 (n + 1) := by
      show ("-" ++ (n + 1).repr).toList = _
      rw [String.toList_append, Nat.toList_repr]
      rfl
    refine reads_scalar htext (by decide) fun rest hrest => ?_
    have hread := numberFrom_toDigits ('-' :: (Nat.toDigits 10 (n + 1) ++ rest)) true h hrest
    rw [htext]
    rw [hdigits, List.cons_append] at hread ⊢
    rw [List.cons_append, scalarFrom, (wordFrom?_digit hfirst _).2]
    exact hread

end Numbers

-- ════════════════════════════════════════════════════════════════════════
-- Both layouts
-- ════════════════════════════════════════════════════════════════════════

/-- Values that are read back as they were written: no number in binary64 is in them, no integer has
more digits than are read, and the names of an object are distinct. -/
inductive Exact : Json → Prop
  | null : Exact null
  | bool (b : Bool) : Exact (bool b)
  | int {n : Int} (h : (Nat.toDigits 10 n.natAbs).length ≤ integerDigitLimit) : Exact (int n)
  | str (s : String) : Exact (str s)
  | arr {items : List Json} (h : ∀ item ∈ items, Exact item) : Exact (arr items)
  | obj {members : List (String × Json)} (hnames : (members.map Prod.fst).Nodup)
      (h : ∀ member ∈ members, Exact member.2) : Exact (obj members)

theorem compactItems_eq_map (items : List Json) : compactItems items = items.map compact := by
  induction items with
  | nil => rfl
  | cons item rest ih => rw [compactItems, ih, List.map_cons]

theorem compactMembers_eq_map (members : List (String × Json)) :
    compactMembers members = members.map (writeMember false compact) := by
  induction members with
  | nil => rfl
  | cons member rest ih => rw [compactMembers, ih, List.map_cons, writeMember]

theorem indentedItems_eq_map (level : Nat) (items : List Json) :
    indentedItems level items = items.map (indentedAt (level + 1)) := by
  induction items with
  | nil => rfl
  | cons item rest ih => rw [indentedItems, ih, List.map_cons]

theorem indentedMembers_eq_map (level : Nat) (members : List (String × Json)) :
    indentedMembers level members = members.map (writeMember true (indentedAt (level + 1))) := by
  induction members with
  | nil => rfl
  | cons member rest ih => rw [indentedMembers, ih, List.map_cons, writeMember]

theorem spaces_empty : Spaces "" := by simp [Spaces]

theorem spaces_freshLine (level : Nat) : Spaces (freshLine level) := by
  intro c hc
  rw [freshLine, String.toList_ofList, List.mem_cons, List.mem_replicate] at hc
  rcases hc with rfl | ⟨-, rfl⟩ <;> rfl

theorem Exact.reads_compact {value : Json} (h : Exact value) :
    Reads value value.compact.toList := by
  induction h with
  | null => exact reads_null
  | bool b => exact reads_bool b
  | int h => exact reads_int h
  | str s => exact reads_str false s
  | @arr items h ih =>
    rw [compact, compactItems_eq_map]
    by_cases hne : items = []
    · rw [hne]
      exact reads_nil_arr
    · have hread := reads_arr spaces_blank spaces_empty spaces_empty ih hne
      simpa using hread
  | @obj members hnames h ih =>
    rw [compact, compactMembers_eq_map]
    by_cases hne : members = []
    · rw [hne]
      exact reads_nil_obj
    · have hread := reads_obj spaces_blank spaces_empty false spaces_empty ih hnames hne
      simpa using hread

theorem Exact.reads_indentedAt {value : Json} (h : Exact value) (level : Nat) :
    Reads value (indentedAt level value).toList := by
  induction h generalizing level with
  | null => exact reads_null
  | bool b => exact reads_bool b
  | int h => exact reads_int h
  | str s => exact reads_str true s
  | @arr items h ih =>
    by_cases hne : items = []
    · rw [hne]
      exact reads_nil_arr
    · have hread := reads_arr (spaces_freshLine (level + 1)) (spaces_freshLine level)
        (spaces_freshLine (level + 1)) (fun item hitem => ih item hitem (level + 1)) hne
      rw [indentedAt, block, indentedItems_eq_map]
      · exact hread
      · exact hne
  | @obj members hnames h ih =>
    by_cases hne : members = []
    · rw [hne]
      exact reads_nil_obj
    · have hread := reads_obj (spaces_freshLine (level + 1)) (spaces_freshLine level) true
        (spaces_freshLine (level + 1)) (fun member hmember => ih member hmember (level + 1)) hnames
        hne
      rw [indentedAt, block, indentedMembers_eq_map]
      · exact hread
      · exact hne

/-- A text that is read as a value, with nothing but blanks behind it. -/
theorem read_append_of_reads {value : Json} {s gap : String} (h : Reads value s.toList)
    (hgap : Spaces gap) : read (s ++ gap) = .ok value := by
  obtain ⟨first, more, hs, hspace, -⟩ := h.begins
  have hfollow : CanFollow gap.toList := fun c hc => Or.inl (hgap c (List.mem_of_mem_head? hc))
  have hfuel : 2 * s.toList.length ≤ 2 * (s ++ gap).toList.length + 2 := by
    rw [String.toList_append, List.length_append]
    omega
  have hread := h.reads (2 * (s ++ gap).toList.length + 2) gap.toList hfuel hfollow
  rw [← String.toList_append] at hread
  -- no value starts with a byte order mark
  have hbom : first ≠ '\ufeff' := by
    rintro rfl
    rw [String.toList_append, hs] at hread
    cases hread
  have hskip : skipSpace (s ++ gap).toList = (s ++ gap).toList := by
    rw [String.toList_append, hs, List.cons_append, skipSpace,
      List.dropWhile_cons_of_neg (by simp [hspace])]
  have hrest : skipSpace gap.toList = [] := List.dropWhile_eq_nil_iff.mpr hgap
  have hchars : readChars (s ++ gap).toList = .ok value := by
    rw [readChars]
    · rw [hskip, hread]
      dsimp only
      rw [hrest]
    · intro tail heq
      rw [String.toList_append, hs] at heq
      exact hbom (List.cons.inj heq).1
  rw [read, hchars]

/-- A text that is read as a value, with nothing around it. -/
theorem read_of_reads {value : Json} {s : String} (h : Reads value s.toList) :
    read s = .ok value := by
  rw [← String.append_empty (s := s)]
  exact read_append_of_reads h spaces_empty

/-- A value on one line is read back. -/
theorem Exact.read_compact {value : Json} (h : Exact value) : read value.compact = .ok value :=
  read_of_reads h.reads_compact

/-- A value with one item a line is read back. -/
theorem Exact.read_indented {value : Json} (h : Exact value) : read value.indented = .ok value :=
  read_of_reads (h.reads_indentedAt 0)

-- ════════════════════════════════════════════════════════════════════════
-- Control characters
-- ════════════════════════════════════════════════════════════════════════

theorem space_le_of_mem_int {n : Int} {c : Char} (h : c ∈ (toString n).toList) :
    0x20 ≤ c.toNat := by
  have hdigits : ∀ n, c ∈ Nat.toDigits 10 n → 0x20 ≤ c.toNat := by
    intro n hmem
    have hdigit := Nat.isDigit_of_mem_toDigits (by decide) (by decide) hmem
    rw [Char.isDigit, Bool.and_eq_true, decide_eq_true_eq] at hdigit
    exact Nat.le_trans (by decide) (UInt32.le_iff_toNat_le.mp hdigit.1)
  cases n with
  | ofNat n =>
    have htext : (toString (Int.ofNat n)).toList = Nat.toDigits 10 n := Nat.toList_repr
    rw [htext] at h
    exact hdigits n h
  | negSucc n =>
    have htext : toString (Int.negSucc n) = "-" ++ (n + 1).repr := rfl
    rw [htext, mem_toList_append, Nat.toList_repr] at h
    rcases h with hsign | hmem
    · have hc : c = '-' := by simpa using hsign
      exact hc ▸ (by decide)
    · exact hdigits (n + 1) hmem

/-- A value on one line holds no control character. -/
theorem Exact.space_le_of_mem_compact {value : Json} (h : Exact value) {c : Char}
    (hc : c ∈ value.compact.toList) : 0x20 ≤ c.toNat := by
  have hall : ["null", "true", "false", "[", "]", "\x7b", "\x7d", ", ", ": "].all
      (fun text => text.toList.all fun c => 0x20 ≤ c.toNat) = true := by decide
  have hfixed : ∀ text ∈ ["null", "true", "false", "[", "]", "\x7b", "\x7d", ", ", ": "],
      ∀ c ∈ (text : String).toList, 0x20 ≤ c.toNat := fun text htext c hc =>
    of_decide_eq_true (List.all_eq_true.mp (List.all_eq_true.mp hall text htext) c hc)
  induction h with
  | null => exact hfixed "null" (by decide) c hc
  | bool b =>
    cases b with
    | false => exact hfixed "false" (by decide) c hc
    | true => exact hfixed "true" (by decide) c hc
  | int h => exact space_le_of_mem_int hc
  | str s => exact space_le_of_mem_quoted hc
  | @arr items h ih =>
    rw [compact, compactItems_eq_map, mem_toList_append, mem_toList_append] at hc
    rcases hc with (hopen | hitems) | hclose
    · exact hfixed "[" (by decide) c hopen
    · rcases mem_joinWith hitems with hcomma | ⟨text, htext, hmem⟩
      · exact hfixed ", " (by decide) c hcomma
      · obtain ⟨item, hitem, rfl⟩ := List.mem_map.mp htext
        exact ih item hitem hmem
    · exact hfixed "]" (by decide) c hclose
  | @obj members hnames h ih =>
    rw [compact, compactMembers_eq_map, mem_toList_append, mem_toList_append] at hc
    rcases hc with (hopen | hmembers) | hclose
    · exact hfixed "\x7b" (by decide) c hopen
    · rcases mem_joinWith hmembers with hcomma | ⟨text, htext, hmem⟩
      · exact hfixed ", " (by decide) c hcomma
      · obtain ⟨member, hmember, rfl⟩ := List.mem_map.mp htext
        rw [writeMember, mem_toList_append, mem_toList_append] at hmem
        rcases hmem with (hname | hcolon) | hvalue
        · exact space_le_of_mem_quoted hname
        · exact hfixed ": " (by decide) c hcolon
        · exact ih member hmember hvalue
    · exact hfixed "\x7d" (by decide) c hclose

-- ════════════════════════════════════════════════════════════════════════
-- Line ends
-- ════════════════════════════════════════════════════════════════════════

theorem return_not_mem_block {opening closing : String} (hopening : '\r' ∉ opening.toList)
    (hclosing : '\r' ∉ closing.toList) (level : Nat) {parts : List String}
    (hparts : ∀ part ∈ parts, '\r' ∉ part.toList) :
    '\r' ∉ (block opening closing level parts).toList := by
  have hline : ∀ level, '\r' ∉ (freshLine level).toList := by
    intro level hmem
    rw [freshLine, String.toList_ofList, List.mem_cons, List.mem_replicate] at hmem
    rcases hmem with heq | ⟨-, heq⟩ <;> cases heq
  rw [block]
  simp only [mem_toList_append, not_or]
  refine ⟨⟨⟨⟨hopening, hline _⟩, fun hmem => ?_⟩, hline _⟩, hclosing⟩
  rcases mem_joinWith hmem with hseparator | ⟨part, hpart, hmem⟩
  · rcases mem_toList_append.mp hseparator with hcomma | hfresh
    · exact absurd hcomma (by decide)
    · exact hline _ hfresh
  · exact hparts part hpart hmem

/-- A value with one item a line holds no carriage return. -/
theorem Exact.return_not_mem_indentedAt {value : Json} (h : Exact value) (level : Nat) :
    '\r' ∉ (indentedAt level value).toList := by
  have hquoted : ∀ s, '\r' ∉ (quoted true s).toList := fun s hmem =>
    absurd (space_le_of_mem_quoted hmem) (by decide)
  induction h generalizing level with
  | null =>
    have hword : '\r' ∉ ("null" : String).toList := by decide
    exact hword
  | bool b =>
    have hwords : ∀ b : Bool, '\r' ∉ (if b then "true" else "false" : String).toList := by decide
    exact hwords b
  | int _ => exact fun hmem => absurd (space_le_of_mem_int hmem) (by decide)
  | str s => exact hquoted s
  | @arr items h ih =>
    by_cases hne : items = []
    · have hempty : '\r' ∉ ("[]" : String).toList := by decide
      rw [hne]
      exact hempty
    · rw [indentedAt, indentedItems_eq_map]
      · refine return_not_mem_block (by decide) (by decide) level fun part hpart => ?_
        obtain ⟨item, hitem, rfl⟩ := List.mem_map.mp hpart
        exact ih item hitem (level + 1)
      · exact hne
  | @obj members hnames h ih =>
    by_cases hne : members = []
    · have hempty : '\r' ∉ ("\x7b\x7d" : String).toList := by decide
      rw [hne]
      exact hempty
    · rw [indentedAt, indentedMembers_eq_map]
      · refine return_not_mem_block (by decide) (by decide) level fun part hpart => ?_
        obtain ⟨member, hmember, rfl⟩ := List.mem_map.mp hpart
        rw [writeMember, mem_toList_append, mem_toList_append, not_or, not_or]
        exact ⟨⟨hquoted _, by decide⟩, ih member hmember (level + 1)⟩
      · exact hne

/-- A value with one item a line is read as it was written. -/
theorem Exact.unifyNewlines_indented {value : Json} (h : Exact value) :
    unifyNewlines value.indented = value.indented :=
  unifyNewlines_eq_self (h.return_not_mem_indentedAt 0)

theorem exact_ofStrings (texts : List String) : Exact (ofStrings texts) := by
  refine .arr fun item hitem => ?_
  obtain ⟨text, -, rfl⟩ := List.mem_map.mp hitem
  exact .str text

theorem exact_ofBindings {bindings : Bindings String} (h : (bindings.map Prod.fst).Nodup) :
    Exact (ofBindings bindings) := by
  refine .obj (by simpa [Function.comp_def] using h) fun member hmember => ?_
  obtain ⟨binding, -, rfl⟩ := List.mem_map.mp hmember
  exact .str binding.2

end TwoStage.Json
