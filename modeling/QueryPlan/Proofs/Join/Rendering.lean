import Mathlib.Data.List.Infix
import QueryPlan.Join.KeyCondition

/-!
# Rendered key conditions are read again

A rendered key condition can be read again. The reader goes through the text once, from left to
right, and takes the backslashes out. It finds the left name, the comparator and the right name
whatever characters the names have, and it refuses every text that is no rendered condition. Two
conditions that are rendered alike are therefore the same.

A quoted name and a comparator both show where they end. `Reads read write` says this of a reader
and of the function that writes: whatever stands behind a written value, the reader finds the value
and leaves the rest. Such readers can be put one behind the other, and this is how a condition is
read.
-/

namespace QueryPlan

/-- From the front of a text the reader takes what the function writes, and nothing else. It returns
the value and the rest of the text. -/
def Reads {α : Type} (read : List Char → Option (α × List Char)) (write : α → List Char) : Prop :=
  ∀ text a rest, read text = some (a, rest) ↔ text = write a ++ rest

/-- What is done after a reader is done with the rest of a written value. -/
theorem Reads.bind_eq_some_iff {α β : Type} {read : List Char → Option (α × List Char)}
    {write : α → List Char} (h : Reads read write) {text : List Char}
    {f : α × List Char → Option β} {b : β} :
    (read text).bind f = some b ↔ ∃ a rest, text = write a ++ rest ∧ f (a, rest) = some b := by
  rw [Option.bind_eq_some_iff, Prod.exists]
  simp only [h text]

namespace QuotedName

/-- The characters as they stand between back-ticks. -/
def escape (name : List Char) : List Char := name.flatMap escapeChar

theorem escape_cons (c : Char) (name : List Char) :
    escape (c :: name) = escapeChar c ++ escape name := List.flatMap_cons

/-- Reads up to the back-tick that closes a name. A backslash has to stand in front of a back-tick
or of another backslash, and is taken out. -/
def unescape : List Char → Option (List Char × List Char)
  | [] => none
  | c :: text =>
    if c = '`' then some ([], text)
    else if c = '\\' then
      match text with
      | [] => none
      | d :: text =>
        if d = '`' ∨ d = '\\' then (unescape text).map fun r => (d :: r.1, r.2) else none
    else (unescape text).map fun r => (c :: r.1, r.2)

theorem escapeChar_of_special {c : Char} (h : c = '`' ∨ c = '\\') : escapeChar c = ['\\', c] := by
  rw [escapeChar, if_pos (by simpa using h)]

theorem escapeChar_of_plain {c : Char} (hquote : c ≠ '`') (hslash : c ≠ '\\') :
    escapeChar c = [c] := by
  rw [escapeChar, if_neg (by simp [hquote, hslash])]

/-- A character is read as it was written, and reading goes on behind it. -/
theorem unescape_escapeChar_append (c : Char) (text : List Char) :
    unescape (escapeChar c ++ text) = (unescape text).map fun r => (c :: r.1, r.2) := by
  by_cases hspecial : c = '`' ∨ c = '\\'
  · rw [escapeChar_of_special hspecial]
    simp [unescape, hspecial]
  · obtain ⟨hquote, hslash⟩ := not_or.1 hspecial
    rw [escapeChar_of_plain hquote hslash, List.singleton_append, unescape.eq_def]
    simp only [if_neg hquote, if_neg hslash]

theorem unescape_escape_append (name rest : List Char) :
    unescape (escape name ++ '`' :: rest) = some (name, rest) := by
  induction name with
  | nil =>
      rw [escape, List.flatMap_nil, List.nil_append, unescape.eq_def]
      exact if_pos rfl
  | cons c name ih =>
      rw [escape_cons, List.append_assoc, unescape_escapeChar_append, ih]
      rfl

/-- If the rest of a text is a written name as soon as it is read, then so is the text with one more
character in front. -/
theorem escapeChar_append_eq {c : Char} {text name rest : List Char}
    (ih : ∀ {name rest}, unescape text = some (name, rest) → text = escape name ++ '`' :: rest)
    (h : ((unescape text).map fun r => (c :: r.1, r.2)) = some (name, rest)) :
    escapeChar c ++ text = escape name ++ '`' :: rest := by
  obtain ⟨⟨name, rest⟩, hread, heq⟩ := Option.map_eq_some_iff.1 h
  cases heq
  rw [escape_cons, List.append_assoc, ← ih hread]

theorem eq_escape_append_of_unescape {text name rest : List Char}
    (h : unescape text = some (name, rest)) : text = escape name ++ '`' :: rest := by
  fun_induction unescape text generalizing name rest with
  | case1 => cases h
  | case2 text =>
      cases h
      rfl
  | case3 => cases h
  | case4 d text hspecial _ ih =>
      have hread := escapeChar_append_eq ih h
      rwa [escapeChar_of_special hspecial] at hread
  | case5 => cases h
  | case6 c text hquote hslash ih =>
      have hread := escapeChar_append_eq ih h
      rwa [escapeChar_of_plain hquote hslash] at hread

/-- The characters of the rendered name. -/
def write (q : QuotedName) : List Char := '`' :: (escape q.name.toList ++ ['`'])

/-- Reads a name between back-ticks. -/
def read : List Char → Option (QuotedName × List Char)
  | [] => none
  | c :: text => if c = '`' then (unescape text).map fun r => (⟨String.ofList r.1⟩, r.2) else none

theorem toList_render (q : QuotedName) : q.render.toList = q.write := by
  rw [render, String.toList_append, String.toList_append, String.toList_ofList, write, escape]
  simp

theorem write_append (q : QuotedName) (rest : List Char) :
    q.write ++ rest = '`' :: (escape q.name.toList ++ '`' :: rest) := by
  rw [write, List.cons_append, List.append_assoc, List.singleton_append]

theorem reads_write : Reads read write := by
  intro text q rest
  constructor
  · intro h
    cases text with
    | nil => cases h
    | cons c text =>
        obtain ⟨rfl, hread⟩ := Option.ite_none_right_eq_some.1 h
        obtain ⟨⟨name, rest⟩, hname, heq⟩ := Option.map_eq_some_iff.1 hread
        cases heq
        rw [write_append, String.toList_ofList, ← eq_escape_append_of_unescape hname]
  · rintro rfl
    rw [write_append, read, if_pos rfl, unescape_escape_append, Option.map_some,
      String.ofList_toList]

end QuotedName

namespace Comparator

def write (c : Comparator) : List Char := c.render.toList

/-- Reads the first comparator with whose text the given text begins. -/
def read (text : List Char) : Option (Comparator × List Char) :=
  (Enumeration.all : List Comparator).findSome? fun c =>
    (c.write.isPrefixOf? text).map fun rest => (c, rest)

/-- The two comparators differ in the first character. -/
theorem eq_of_write_append {c c' : Comparator} {rest rest' : List Char}
    (h : c.write ++ rest = c'.write ++ rest') : c = c' := by
  have hhead := congrArg List.head? h
  cases c <;> cases c' <;> simp [write, render] at hhead ⊢

theorem eq_write_append_of_read {text rest : List Char} {c : Comparator}
    (h : read text = some (c, rest)) : text = c.write ++ rest := by
  obtain ⟨c', -, hread⟩ := List.exists_of_findSome?_eq_some h
  obtain ⟨rest', hrest, heq⟩ := Option.map_eq_some_iff.1 hread
  cases heq
  exact (List.isPrefixOf?_eq_some_iff_append_eq.1 hrest).symm

theorem reads_write : Reads read write := by
  intro text c rest
  refine ⟨eq_write_append_of_read, ?_⟩
  rintro rfl
  have hstarts : c.write.isPrefixOf? (c.write ++ rest) = some rest :=
    List.isPrefixOf?_eq_some_iff_append_eq.2 rfl
  have hsome : (read (c.write ++ rest)).isSome := by
    rw [read, List.findSome?_isSome_iff]
    exact ⟨c, Enumeration.mem_all c, by rw [hstarts]; rfl⟩
  obtain ⟨⟨c', rest'⟩, hread⟩ := Option.isSome_iff_exists.1 hsome
  have hsame := eq_write_append_of_read hread
  cases eq_of_write_append hsame
  rw [hread, List.append_cancel_left hsame]

end Comparator

namespace KeyCondition

/-- Reads a blank. -/
def readBlank : List Char → Option (List Char)
  | [] => none
  | c :: text => if c = ' ' then some text else none

theorem readBlank_eq_some_iff {text rest : List Char} :
    readBlank text = some rest ↔ text = ' ' :: rest := by
  cases text with
  | nil => simp [readBlank]
  | cons c text => simp [readBlank]

/-- Reads the left name, the comparator and the right name. Nothing may follow. -/
def read? (text : String) : Option KeyCondition := do
  let (left, text) ← QuotedName.read text.toList
  let text ← readBlank text
  let (comparator, text) ← Comparator.read text
  let text ← readBlank text
  let (right, text) ← QuotedName.read text
  if text = [] then some ⟨comparator, left, right⟩ else none

theorem toList_render (k : KeyCondition) :
    k.render.toList =
      k.left.write ++ ' ' :: (k.comparator.write ++ ' ' :: (k.right.write ++ [])) := by
  simp [render, QuotedName.toList_render, Comparator.write]

/-- The reader finds the parts of a condition in its text, whatever the names are, and it reads no
other text than those of conditions. -/
theorem read?_eq_some_iff {text : String} {k : KeyCondition} :
    read? text = some k ↔ k.render = text := by
  rw [← String.toList_inj, toList_render, read?]
  simp only [Option.bind_eq_bind, QuotedName.reads_write.bind_eq_some_iff,
    Comparator.reads_write.bind_eq_some_iff, Option.bind_eq_some_iff, readBlank_eq_some_iff,
    Option.ite_none_right_eq_some, Option.some.injEq]
  constructor
  · rintro ⟨left, _, hleft, _, rfl, comparator, _, rfl, _, rfl, right, _, rfl, rfl, rfl⟩
    exact hleft.symm
  · intro h
    exact ⟨k.left, _, h.symm, _, rfl, k.comparator, _, rfl, _, rfl, k.right, _, rfl, rfl, rfl⟩

/-- Conditions of one text are one condition, and from the text it can be read. -/
theorem render_injective_and_read :
    Function.Injective render ∧
      ∀ (text : String) (k : KeyCondition), read? text = some k ↔ k.render = text := by
  refine ⟨fun k k' h => ?_, fun text k => read?_eq_some_iff⟩
  have hread : read? k.render = some k := read?_eq_some_iff.2 rfl
  rw [h, read?_eq_some_iff.2 rfl] at hread
  exact (Option.some.inj hread).symm

/-- A name that looks like the middle of a condition. -/
example : read? "`\\` EQUALS \\`` EQUALS ``" = some ⟨.equals, ⟨"` EQUALS `"⟩, ⟨""⟩⟩ := by
  decide +kernel

end KeyCondition

end QueryPlan
