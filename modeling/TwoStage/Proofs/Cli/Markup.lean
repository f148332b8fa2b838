import Mathlib.Data.List.TakeWhile
import TwoStage.Cli.Perform

/-!
# Tags in what is shown

Lines and tables are shown with tags for their colours, and texts that users choose stand between
these: the path of a record, or a digest in it. A tag that closes what was not opened ends the
request that shows it with an error of the terminal. So an exit code is one that is seen only if the
tags of all that is shown are balanced. What styles there are, and how they are named, is a matter of
the terminal.

## Main definitions

- `Markup.tags` — the tags of a text
- `Markup.Rules`, `Markup.Rules.follows` — how the terminal goes from tag to tag
- `Display.isBalanced` — what can be shown
- `Markup.IsColor` — the names that tags open a colour with
- `Cli.Shows`, `Cli.Exits` — a request that comes to an exit code, and shows all on its way

## Main statements

- `Markup.Rules.balances_tagged` — a coloured text is balanced if no bracket opens in it
-/

namespace TwoStage

namespace Markup

/-- Whether a character behind a bracket makes it a tag. -/
def startsTag (c : Char) : Bool := ('a' ≤ c && c ≤ 'z') || c = '#' || c = '/' || c = '@'

/-- The tags of a text, without their brackets. `escapes` counts the backslashes before the next
character; an odd number of them before a bracket makes its tag a part of the text. `inside` holds
whether the last open bracket has such a number, and the characters behind it, last one first. -/
def tags : (escapes : Nat) → (inside : Option (Bool × List Char)) → List Char → List (List Char)
  | _, _, [] => []
  | escapes, inside, c :: rest =>
    if c = '[' then tags 0 (some (escapes % 2 = 1, [])) rest
    else if c = ']' then
      match inside with
      | some (false, last :: before) => (last :: before).reverse :: tags 0 none rest
      | _ => tags 0 none rest
    else
      let escapes := if c = '\\' then escapes + 1 else 0
      match inside with
      | some (escaped, []) =>
        tags escapes (if startsTag c then some (escaped, [c]) else none) rest
      | some (escaped, name) => tags escapes (some (escaped, c :: name)) rest
      | none => tags escapes none rest

/-- A tag: its name and what stands behind an equals sign. -/
structure Tag where
  name : List Char
  parameters : List Char

/-- The tag that the characters between two brackets make. -/
def Tag.ofChars (cs : List Char) : Tag :=
  ⟨cs.takeWhile (· ≠ '='), (cs.dropWhile (· ≠ '=')).tail⟩

/-- The last open tag of a name, and the others. -/
def take? (name : List Char) : List Tag → Option (Tag × List Tag)
  | [] => none
  | tag :: below =>
    if tag.name = name then some (tag, below)
    else (take? name below).map fun (found, others) => (found, tag :: others)

/-- What the terminal knows of tags: the normal form of a name, and which parameters of an action
make sense. -/
structure Rules where
  normal : List Char → List Char
  makesSense : List Char → Bool

/-- The tags that are open after the last one of a name is closed, or the last one of all if no name
is given; none if there is no such tag, or it is an action that makes no sense. -/
def Rules.close? (rules : Rules) (name : List Char) (opened : List Tag) : Option (List Tag) := do
  let (tag, others) ←
    if name.isEmpty then opened.head?.map (·, opened.tail) else take? (rules.normal name) opened
  if tag.name.head? = some '@' && !tag.parameters.isEmpty && !rules.makesSense tag.parameters then
    none
  else some others

/-- Whether each tag that closes something finds it open. -/
def Rules.follows (rules : Rules) : (opened : List Tag) → (tags : List (List Char)) → Bool
  | _, [] => true
  | opened, cs :: rest =>
    match Tag.ofChars cs with
    | ⟨'/' :: name, _⟩ =>
      match rules.close? (stripChars name) opened with
      | some opened => rules.follows opened rest
      | none => false
    | ⟨name, parameters⟩ => rules.follows (⟨rules.normal name, parameters⟩ :: opened) rest

/-- Whether the tags of a text are balanced. -/
def Rules.balances (rules : Rules) (text : String) : Bool :=
  rules.follows [] (tags 0 none text.toList)

end Markup

/-- Whether the tags in all that is shown are balanced; a plain text has none. -/
def Display.isBalanced (rules : Markup.Rules) : Display → Bool
  | .plain _ | .verbatim _ => true
  | .marked text => rules.balances text
  | .table title headers rows => (title :: (headers ++ rows.flatten)).all rules.balances

/-- Rules by which every name is a style of its own, and no action makes sense. -/
def Markup.Rules.literal : Markup.Rules := ⟨id, fun _ => false⟩

namespace Cli

/-- All that was shown between two worlds could be shown. -/
def Shows (rules : Markup.Rules) (before after : World) : Prop :=
  ∀ item ∈ after.shown.drop before.shown.length, item.isBalanced rules = true

/-- A request that started in the world `w` comes to an exit code, all that it shows being shown. -/
structure Exits (rules : Markup.Rules) (w : World) (ended : Except Error Int × World)
    (code : Int) : Prop where
  ends : ended.1 = .ok code
  shows : Shows rules w ended.2

theorem shows_iff {rules : Markup.Rules} {before after : World} {more : List Display}
    (h : after.shown = before.shown ++ more) :
    Shows rules before after ↔ ∀ item ∈ more, item.isBalanced rules = true := by
  rw [Shows, h, List.drop_left]

end Cli

-- ════════════════════════════════════════════════════════════════════════
-- Texts in colours
-- ════════════════════════════════════════════════════════════════════════

namespace Markup

theorem tags_open (escapes : Nat) (inside : Option (Bool × List Char)) (rest : List Char) :
    tags escapes inside ('[' :: rest) = tags 0 (some (escapes % 2 = 1, [])) rest := by
  rw [tags.eq_def]
  exact if_pos rfl

/-- A text in which no bracket opens has no tag. -/
theorem tags_append_of_not_mem {text : List Char} (h : '[' ∉ text) (escapes : Nat)
    (rest : List Char) : ∃ escapes', tags escapes none (text ++ rest) = tags escapes' none rest := by
  induction text generalizing escapes with
  | nil => exact ⟨escapes, rfl⟩
  | cons c text ih =>
    rw [List.mem_cons, not_or] at h
    obtain ⟨hc, htext⟩ := h
    rw [List.cons_append, tags.eq_def]
    dsimp only
    rw [if_neg (Ne.symm hc)]
    by_cases hclose : c = ']'
    · rw [if_pos hclose]
      exact ih htext 0
    · rw [if_neg hclose]
      exact ih htext _

theorem tags_of_not_mem {text : List Char} (h : '[' ∉ text) (escapes : Nat) :
    tags escapes none text = [] := by
  obtain ⟨escapes', htags⟩ := tags_append_of_not_mem h escapes []
  rw [List.append_nil] at htags
  rw [htags, tags]

/-- Behind the first character of a tag, all up to the closing bracket belongs to it. -/
theorem tags_inside {name : List Char} (hname : ∀ c ∈ name, c ≠ '[' ∧ c ≠ ']') (escaped : Bool)
    (last : Char) (before : List Char) (escapes : Nat) (rest : List Char) :
    tags escapes (some (escaped, last :: before)) (name ++ ']' :: rest) =
      if escaped then tags 0 none rest
      else ((last :: before).reverse ++ name) :: tags 0 none rest := by
  induction name generalizing last before escapes with
  | nil =>
    rw [List.nil_append, tags.eq_def, List.append_nil]
    cases escaped <;> simp
  | cons c name ih =>
    obtain ⟨hc, hname⟩ := List.forall_mem_cons.mp hname
    rw [List.cons_append, tags.eq_def]
    dsimp only
    rw [if_neg hc.1, if_neg hc.2, ih hname]
    simp

/-- A tag is found where its bracket opens, unless it is a part of the text there. -/
theorem tags_tag {first : Char} (hfirst : startsTag first = true) {name : List Char}
    (hname : ∀ c ∈ first :: name, c ≠ '[' ∧ c ≠ ']') (escapes : Nat) (rest : List Char) :
    tags escapes none ('[' :: (first :: name ++ ']' :: rest)) =
      if escapes % 2 = 1 then tags 0 none rest else (first :: name) :: tags 0 none rest := by
  obtain ⟨hc, hname⟩ := List.forall_mem_cons.mp hname
  rw [tags_open, List.cons_append, tags.eq_def]
  dsimp only
  rw [if_neg hc.1, if_neg hc.2, if_pos hfirst, tags_inside hname]
  simp

theorem Tag.ofChars_of_not_mem {cs : List Char} (h : '=' ∉ cs) : Tag.ofChars cs = ⟨cs, []⟩ := by
  have hall : ∀ c ∈ cs, decide (c ≠ '=') = true := by
    intro c hc
    exact decide_eq_true (by rintro rfl; exact h hc)
  rw [ofChars, List.takeWhile_eq_self_iff.mpr hall, List.dropWhile_eq_nil_iff.mpr hall,
    List.tail_nil]

/-- A name that a tag opens a colour with: the terminal reads all of it, and no parameters. -/
structure IsColor (first : Char) (name : List Char) : Prop where
  starts : startsTag first = true
  opens : first ≠ '/'
  plain : ∀ c ∈ first :: name, c ≠ '[' ∧ c ≠ ']' ∧ c ≠ '='
  stripped : stripChars (first :: name) = first :: name

theorem exists_isColor {color : String} (h : color ∈ ["red", "green"]) :
    ∃ first name, color.toList = first :: name ∧ IsColor first name := by
  revert color
  simp only [List.forall_mem_cons]
  refine ⟨⟨'r', ['e', 'd'], rfl, ?_⟩, ⟨'g', ['r', 'e', 'e', 'n'], rfl, ?_⟩, by simp⟩
  · exact ⟨rfl, by decide, by simp, rfl⟩
  · exact ⟨rfl, by decide, by simp, rfl⟩

namespace IsColor

variable {first : Char} {name : List Char} (h : IsColor first name)
include h

/-- In a coloured text the tag in front is found, and the one behind unless a backslash takes it for
a part of the text. -/
theorem tags_tagged {text after : List Char} (htext : '[' ∉ text) (hafter : '[' ∉ after) :
    ∃ closing, (closing = [] ∨ closing = ['/' :: first :: name]) ∧
      tags 0 none ('[' :: (first :: name ++ ']' :: (text ++
        '[' :: ('/' :: (first :: name) ++ ']' :: after)))) = (first :: name) :: closing := by
  have hends : ∀ c ∈ '/' :: first :: name, c ≠ '[' ∧ c ≠ ']' :=
    List.forall_mem_cons.mpr ⟨by decide, fun c hc => ⟨(h.plain c hc).1, (h.plain c hc).2.1⟩⟩
  obtain ⟨escapes, hskip⟩ :=
    tags_append_of_not_mem htext 0 ('[' :: ('/' :: (first :: name) ++ ']' :: after))
  rw [tags_tag h.starts (List.forall_mem_cons.mp hends).2, if_neg (by decide), hskip,
    tags_tag rfl hends, tags_of_not_mem hafter]
  by_cases hodd : escapes % 2 = 1
  · exact ⟨[], Or.inl rfl, by rw [if_pos hodd]⟩
  · exact ⟨[_], Or.inr rfl, by rw [if_neg hodd]⟩

/-- The tag that opens can be closed behind, or left open. -/
theorem follows (rules : Rules) {closing : List (List Char)}
    (hclosing : closing = [] ∨ closing = ['/' :: first :: name]) :
    rules.follows [] ((first :: name) :: closing) = true := by
  have hopen : Tag.ofChars (first :: name) = ⟨first :: name, []⟩ :=
    Tag.ofChars_of_not_mem fun hmem => (h.plain _ hmem).2.2 rfl
  have hclose : Tag.ofChars ('/' :: first :: name) = ⟨'/' :: first :: name, []⟩ := by
    refine Tag.ofChars_of_not_mem fun hmem => ?_
    rcases List.mem_cons.mp hmem with heq | hmem
    · exact absurd heq (by decide)
    · exact (h.plain _ hmem).2.2 rfl
  rw [Rules.follows, hopen]
  split
  · next heq => exact absurd (List.cons.inj (Tag.mk.inj heq).1).1 h.opens
  · next heq =>
    obtain ⟨rfl, rfl⟩ := Tag.mk.inj heq
    rcases hclosing with rfl | rfl
    · rw [Rules.follows]
    · rw [Rules.follows, hclose]
      simp [h.stripped, Rules.close?, take?, Rules.follows]

end IsColor

/-- A coloured text, with what is behind it, is balanced if no bracket opens in either. -/
theorem Rules.balances_tagged {color : String} (hcolor : color ∈ ["red", "green"])
    {text after : String} (htext : '[' ∉ text.toList) (hafter : '[' ∉ after.toList)
    (rules : Rules) : rules.balances (Cli.tagged color text ++ after) = true := by
  obtain ⟨first, name, hname, hname'⟩ := exists_isColor hcolor
  obtain ⟨closing, hclosing, htags⟩ := hname'.tags_tagged htext hafter
  have hchars : (Cli.tagged color text ++ after).toList =
      '[' :: (first :: name ++ ']' :: (text.toList ++
        '[' :: ('/' :: (first :: name) ++ ']' :: after.toList))) := by
    simp [Cli.tagged, hname]
  rw [balances, hchars, htags]
  exact hname'.follows rules hclosing

end Markup

end TwoStage
