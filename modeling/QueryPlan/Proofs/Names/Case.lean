import QueryPlan.Proofs.Names
import QueryPlan.Proofs.Schema

/-!
# Names in another case

Whether a name is like another one is a question of their keys alone, and so is whether a number
makes it free: the key of a name with a number behind it is the key of the name with the number
behind it, even where the lower-case form of a letter hangs on what follows it, as that of a
capital sigma does. So lists of names with the same keys are told apart in the same way. The same
places get a number, and each of them the same one.
-/

namespace QueryPlan

namespace Names

variable {a b : String} {names names' : List String} {numbers : List (Option Nat)}

/-- The name with the number behind it, if it gets one. -/
def withNumber (name : String) : Option Nat → String
  | none => name
  | some k => numbered name k

theorem withNumber_eq_self_iff {number : Option Nat} :
    withNumber a number = a ↔ number = none := by
  cases number with
  | none => simp [withNumber]
  | some k =>
      have hne : numbered a k ≠ a := fun heq => fold_numbered_ne a k (congrArg fold heq)
      simp [withNumber, hne]

theorem fold_withNumber_eq (h : fold a = fold b) (number : Option Nat) :
    fold (withNumber a number) = fold (withNumber b number) := by
  cases number with
  | none => exact h
  | some k => simp only [withNumber, fold_numbered, h]

/-- The places that get no number are those at which nothing is changed. -/
theorem getElem?_zipWith_withNumber_eq_iff (hlength : numbers.length = names.length) {i : Nat} :
    (List.zipWith withNumber names numbers)[i]? = names[i]? ↔
      ∀ number ∈ numbers[i]?, number = none := by
  cases hnumber : numbers[i]? with
  | none =>
      have hend : names.length ≤ i := hlength ▸ List.getElem?_eq_none_iff.1 hnumber
      simp [List.getElem?_zipWith, hnumber, List.getElem?_eq_none hend]
  | some number =>
      have hlt : i < names.length := hlength ▸ (List.getElem?_eq_some_iff.1 hnumber).1
      simp [List.getElem?_zipWith, hnumber, List.getElem?_eq_getElem hlt, withNumber_eq_self_iff]

theorem freeNumber?_eq_of_fold_eq (h : fold a = fold b) (inTheWay : List String) :
    freeNumber? inTheWay a = freeNumber? inTheWay b := by
  simp only [freeNumber?, fold_numbered, h]

/-- Names that are alike are chosen with the same number. -/
theorem exists_choose_eq_withNumber (h : fold a = fold b) (given chosen : List String) :
    ∃ number, choose given chosen a = withNumber a number ∧
      choose given chosen b = withNumber b number := by
  by_cases hold : fold a ∈ chosen
  · obtain ⟨k, hk, hchoose⟩ : ∃ k, freeNumber? (given ++ chosen) a = some k ∧
        choose given chosen a = numbered a k := choose_of_mem hold
    obtain ⟨l, hl, hchoose'⟩ : ∃ l, freeNumber? (given ++ chosen) b = some l ∧
        choose given chosen b = numbered b l := choose_of_mem (h ▸ hold)
    obtain rfl : l = k := by
      rw [freeNumber?_eq_of_fold_eq h, hl] at hk
      exact Option.some.inj hk
    exact ⟨some l, hchoose, hchoose'⟩
  · exact ⟨none, choose_of_notMem hold, choose_of_notMem (h ▸ hold)⟩

/-- From left to right the same keys have been chosen in both lists, so the next names, which are
alike, get the same number. -/
theorem exists_numbers_from (h : names.map fold = names'.map fold) (given chosen : List String) :
    ∃ numbers : List (Option Nat), numbers.length = names.length ∧
      disambiguateFrom given chosen names = List.zipWith withNumber names numbers ∧
      disambiguateFrom given chosen names' = List.zipWith withNumber names' numbers ∧
      (disambiguateFrom given chosen names).map fold =
        (disambiguateFrom given chosen names').map fold := by
  induction names generalizing names' chosen with
  | nil =>
      cases List.map_eq_nil_iff.1 h.symm
      exact ⟨[], rfl, rfl, rfl, rfl⟩
  | cons a names ih =>
      cases names' with
      | nil => cases h
      | cons b names' =>
          obtain ⟨hab, hrest⟩ := List.cons.inj h
          obtain ⟨number, ha, hb⟩ := exists_choose_eq_withNumber hab given chosen
          have hkey : fold (withNumber a number) = fold (withNumber b number) :=
            fold_withNumber_eq hab number
          obtain ⟨numbers, hlength, hnames, hnames', hkeys⟩ :=
            ih hrest (fold (withNumber a number) :: chosen)
          refine ⟨number :: numbers, congrArg Nat.succ hlength, ?_, ?_, ?_⟩
          · rw [disambiguateFrom, ha, hnames, List.zipWith_cons_cons]
          · rw [disambiguateFrom, hb, ← hkey, hnames', List.zipWith_cons_cons]
          · rw [disambiguateFrom, disambiguateFrom, ha, hb, List.map_cons, List.map_cons, ← hkey,
              hkeys]

theorem exists_numbers (h : names.map fold = names'.map fold) :
    ∃ numbers : List (Option Nat), numbers.length = names.length ∧
      disambiguate names = List.zipWith withNumber names numbers ∧
      disambiguate names' = List.zipWith withNumber names' numbers ∧
      (disambiguate names).map fold = (disambiguate names').map fold := by
  rw [disambiguate, disambiguate, ← h]
  exact exists_numbers_from h (names.map fold) []

end Names

namespace Schema

/-- The rows have fields of the same types, and the names differ by case at most. -/
structure SameUpToCase (s t : Schema) : Prop where
  names_eq : s.names.map Names.fold = t.names.map Names.fold
  types_eq : s.types = t.types

theorem SameUpToCase.join {left left' right right' : Schema} (hleft : left.SameUpToCase left')
    (hright : right.SameUpToCase right') (joinType : JoinType) :
    (join left right joinType).SameUpToCase (join left' right' joinType) := by
  constructor
  · rw [names_join, names_join]
    split
    · have hnames : (left.names ++ right.names).map Names.fold =
          (left'.names ++ right'.names).map Names.fold := by
        rw [List.map_append, List.map_append, hleft.names_eq, hright.names_eq]
      obtain ⟨numbers, -, -, -, hkeys⟩ := Names.exists_numbers hnames
      exact hkeys
    · exact hleft.names_eq
  · rw [types_join, types_join, hleft.types_eq, hright.types_eq]

end Schema

namespace Names

/-- Names that differ by case at most are told apart in the same way: the same places get a number,
each of them the same one, and what comes out differs by case at most again. So do the rows of two
joins whose inputs have the same types under names that differ by case at most. -/
theorem disambiguate_and_join_blind_to_case :
    (∀ names names' : List String, names.map fold = names'.map fold →
      (∀ i : Nat, (disambiguate names)[i]? = names[i]? ↔ (disambiguate names')[i]? = names'[i]?) ∧
      (∃ numbers : List (Option Nat), numbers.length = names.length ∧
        disambiguate names = List.zipWith withNumber names numbers ∧
        disambiguate names' = List.zipWith withNumber names' numbers) ∧
      (disambiguate names).map fold = (disambiguate names').map fold) ∧
    ∀ (left left' right right' : Schema) (joinType : JoinType),
      left.SameUpToCase left' → right.SameUpToCase right' →
        (left.join right joinType).SameUpToCase (left'.join right' joinType) := by
  refine ⟨fun names names' h => ?_, fun _ _ _ _ joinType hleft hright => hleft.join hright joinType⟩
  obtain ⟨numbers, hlength, hnames, hnames', hkeys⟩ := exists_numbers h
  have hlength' : numbers.length = names'.length := by
    rw [hlength, ← List.length_map fold, h, List.length_map]
  refine ⟨fun i => ?_, ⟨numbers, hlength, hnames, hnames'⟩, hkeys⟩
  rw [hnames, hnames', getElem?_zipWith_withNumber_eq_iff hlength,
    getElem?_zipWith_withNumber_eq_iff hlength']

/-- Names with a capital sigma at their end, and one with a letter that lower case makes longer. -/
def spelled : List String := ["ΟΔΟΣ", "οδος", "İ", "Οδος"]

/-- The same names, spelled in another way. -/
def respelled : List String := ["οδος", "ΟΔΟΣ", "i̇", "ΟΔΟΣ"]

/-- A row of texts. -/
def textRow (names : List String) : Schema := ⟨names.map fun name => ⟨name, .utf8⟩⟩

theorem disambiguate_and_join_blind_to_case_respelled :
    (spelled.map fold = respelled.map fold ∧
      (∀ i : Nat, (disambiguate spelled)[i]? = spelled[i]? ↔
        (disambiguate respelled)[i]? = respelled[i]?) ∧
      (∃ numbers : List (Option Nat), numbers.length = spelled.length ∧
        disambiguate spelled = List.zipWith withNumber spelled numbers ∧
        disambiguate respelled = List.zipWith withNumber respelled numbers) ∧
      (disambiguate spelled).map fold = (disambiguate respelled).map fold) ∧
    (textRow spelled).SameUpToCase (textRow respelled) ∧
      ((textRow spelled).join (textRow respelled) .inner).SameUpToCase
        ((textRow respelled).join (textRow respelled) .inner) := by
  have hnames : spelled.map fold = respelled.map fold := by decide +kernel
  have hrow : (textRow spelled).SameUpToCase (textRow respelled) := ⟨by decide +kernel, rfl⟩
  exact ⟨⟨hnames, disambiguate_and_join_blind_to_case.1 spelled respelled hnames⟩, hrow,
    disambiguate_and_join_blind_to_case.2 _ _ _ _ .inner hrow ⟨rfl, rfl⟩⟩

example : disambiguate ["ΟΔΟΣ", "οδος"] = ["ΟΔΟΣ", "οδος0"] ∧
    disambiguate ["οδος", "ΟΔΟΣ"] = ["οδος", "ΟΔΟΣ0"] := by
  decide +kernel

end Names

end QueryPlan
