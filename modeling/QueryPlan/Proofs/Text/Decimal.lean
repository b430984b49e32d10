import QueryPlan.Text.Lowercase

/-!
# Decimal numbers in names

A name is told apart from others by a number behind it, and a star column by a prefix with
a number in it. Different numbers are different texts, and they stay so in lower case.

Digits have no case and no letter sees its neighbour through them, so the lower-case form
of a text with digits at its end is the lower-case form of what stands before them, with the
same digits at its end. This holds for a capital sigma before the digits, too: it ends its
word with or without them.
-/

namespace QueryPlan.Text

theorem isDigit_of_mem_toString {n : Nat} {c : Char} (h : c ∈ (toString n).toList) :
    c.isDigit = true := by
  rw [Nat.toString_eq_repr, Nat.toList_repr] at h
  exact Nat.isDigit_of_mem_toDigits (by decide) (by decide) h

theorem toString_injective {k l : Nat} (h : (toString k).toList = (toString l).toList) :
    k = l := by
  rw [Nat.toString_eq_repr, Nat.toString_eq_repr, Nat.toList_repr, Nat.toList_repr] at h
  rw [← Nat.ofDigitChars_ten_toDigits (n := k), h, Nat.ofDigitChars_ten_toDigits]

/-- A number is read off a text in which it stands before a character that is no digit. -/
theorem eq_of_toString_append_eq {k l : Nat} {c : Char} {x y : List Char}
    (hc : c.isDigit = false)
    (h : (toString k).toList ++ c :: x = (toString l).toList ++ c :: y) : k = l := by
  have hread : ∀ (n : Nat) (z : List Char),
      ((toString n).toList ++ c :: z).takeWhile Char.isDigit = (toString n).toList := by
    intro n z
    rw [List.takeWhile_append_of_pos fun d hd => isDigit_of_mem_toString hd,
      List.takeWhile_cons_of_neg (by simp [hc]), List.append_nil]
  have hdigits := congrArg (List.takeWhile Char.isDigit) h
  rw [hread, hread] at hdigits
  exact toString_injective hdigits

/-- Lower-casing keeps the character wherever it stands, and it ends a word. -/
structure IsPlain (c : Char) : Prop where
  ne_sigma : c ≠ 'Σ'
  lowerChar_eq : lowerChar c = [c]
  not_cased : isCased c = false
  not_ignorable : isCaseIgnorable c = false

private theorem isPlain_ofNat : ∀ n < 10,
    Char.ofNat (48 + n) ≠ 'Σ' ∧ lowerChar (Char.ofNat (48 + n)) = [Char.ofNat (48 + n)] ∧
      isCased (Char.ofNat (48 + n)) = false ∧ isCaseIgnorable (Char.ofNat (48 + n)) = false := by
  decide +kernel

theorem isPlain_of_isDigit {c : Char} (h : c.isDigit = true) : IsPlain c := by
  obtain ⟨hlow, hhigh⟩ := Char.isDigit_iff_toNat.1 h
  have hlow : 48 ≤ c.toNat := hlow
  have hhigh : c.toNat ≤ 57 := hhigh
  have hc : Char.ofNat (48 + (c.toNat - 48)) = c := by
    rw [Nat.add_sub_cancel' hlow, Char.ofNat_toNat]
  obtain ⟨hne, hlower, hcased, hignorable⟩ := isPlain_ofNat (c.toNat - 48) (by omega)
  rw [hc] at hne hlower hcased hignorable
  exact ⟨hne, hlower, hcased, hignorable⟩

theorem isPlain_of_mem_toString {n : Nat} {c : Char} (h : c ∈ (toString n).toList) :
    IsPlain c :=
  isPlain_of_isDigit (isDigit_of_mem_toString h)

theorem lowerFrom_cons_of_isPlain {c : Char} (h : IsPlain c) (inWord : Bool)
    (rest : List Char) : lowerFrom inWord (c :: rest) = c :: lowerFrom false rest := by
  rw [lowerFrom_cons_of_ne h.ne_sigma, h.lowerChar_eq, h.not_ignorable, h.not_cased]
  rfl

/-- Plain characters in front stay in front. -/
theorem exists_lowerFrom_append {plain : List Char} (h : ∀ c ∈ plain, IsPlain c)
    (inWord : Bool) (rest : List Char) :
    ∃ inWord', lowerFrom inWord (plain ++ rest) = plain ++ lowerFrom inWord' rest := by
  induction plain generalizing inWord with
  | nil => exact ⟨inWord, rfl⟩
  | cons c plain ih =>
      obtain ⟨inWord', hrest⟩ := ih (fun d hd => h d (List.mem_cons_of_mem c hd)) false
      refine ⟨inWord', ?_⟩
      rw [List.cons_append, lowerFrom_cons_of_isPlain (h c List.mem_cons_self), hrest]
      rfl

theorem letterFollows_append_cons {c : Char} (hc : IsPlain c) (s rest : List Char) :
    letterFollows (s ++ c :: rest) = letterFollows s := by
  induction s with
  | nil => simp [letterFollows, hc.not_ignorable, hc.not_cased]
  | cons d s ih =>
      cases hd : isCaseIgnorable d with
      | true => simpa [letterFollows, hd] using ih
      | false => simp [letterFollows, hd]

/-- The texts before and behind a plain character are lower-cased each by itself. -/
theorem lowerFrom_append_cons {c : Char} (hc : IsPlain c) (inWord : Bool)
    (s rest : List Char) :
    lowerFrom inWord (s ++ c :: rest) = lowerFrom inWord s ++ c :: lowerFrom false rest := by
  induction s generalizing inWord with
  | nil => exact lowerFrom_cons_of_isPlain hc inWord rest
  | cons d s ih =>
      simp only [List.cons_append, lowerFrom, letterFollows_append_cons hc, ih,
        List.append_assoc]

/-- Plain characters at the end stay as they are and change nothing before them. -/
theorem lowerFrom_append {plain : List Char} (h : ∀ c ∈ plain, IsPlain c) (inWord : Bool)
    (s : List Char) : lowerFrom inWord (s ++ plain) = lowerFrom inWord s ++ plain := by
  cases plain with
  | nil => rw [List.append_nil, List.append_nil]
  | cons c plain =>
      obtain ⟨hc, hplain⟩ := List.forall_mem_cons.1 h
      obtain ⟨inWord', hrest⟩ := exists_lowerFrom_append hplain false []
      rw [List.append_nil, lowerFrom_nil, List.append_nil] at hrest
      rw [lowerFrom_append_cons hc, hrest]

theorem lowercase_append_toString (s : String) (n : Nat) :
    lowercase (s ++ toString n) = lowercase s ++ toString n := by
  rw [lowercase, String.toList_append, lowerFrom_append fun c hc => isPlain_of_mem_toString hc,
    String.ofList_append, String.ofList_toList]
  rfl

end QueryPlan.Text
