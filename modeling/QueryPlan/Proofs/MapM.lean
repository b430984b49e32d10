import Mathlib.Data.List.Forall2

/-!
# A computation on every member of a list

A computation that may fail is carried out on the members of a list, from the first one on. It
succeeds if it does so on every member, and otherwise the first member on which it fails decides.
-/

namespace QueryPlan

variable {α β ε : Type} {f g : α → Except ε β} {as : List α} {bs : List β} {e : ε}

theorem forall₂_of_mapM_eq_ok (h : as.mapM f = .ok bs) :
    List.Forall₂ (fun a b => f a = .ok b) as bs := by
  induction as generalizing bs with
  | nil =>
      cases h
      exact .nil
  | cons a as ih =>
      rw [List.mapM_cons] at h
      cases ha : f a with
      | error e =>
          rw [ha] at h
          cases h
      | ok b =>
          cases has : as.mapM f with
          | error e =>
              rw [ha, has] at h
              cases h
          | ok bs =>
              rw [ha, has] at h
              cases h
              exact .cons ha (ih has)

theorem exists_mem_of_mapM_eq_ok {b : β} (h : as.mapM f = .ok bs) (hb : b ∈ bs) :
    ∃ a ∈ as, f a = .ok b := by
  have hall := forall₂_of_mapM_eq_ok h
  clear h
  induction hall with
  | nil => cases hb
  | cons hab _ ih =>
      rcases List.mem_cons.1 hb with rfl | hb
      · exact ⟨_, List.mem_cons_self, hab⟩
      · obtain ⟨a, ha, hfa⟩ := ih hb
        exact ⟨a, List.mem_cons_of_mem _ ha, hfa⟩

/-- The first member that fails decides. -/
theorem mapM_eq_error_iff : as.mapM f = .error e ↔
    ∃ (i : Nat) (a : α), as[i]? = some a ∧ f a = .error e ∧
      ∀ j < i, ∀ b, as[j]? = some b → ∃ c, f b = .ok c := by
  induction as with
  | nil =>
      constructor
      · nofun
      · rintro ⟨i, a, ha, -⟩
        cases ha
  | cons first as ih =>
      rw [List.mapM_cons]
      cases hfirst : f first with
      | error e' =>
          constructor
          · rintro ⟨⟩
            exact ⟨0, first, rfl, hfirst, fun j hj => absurd hj (Nat.not_lt_zero j)⟩
          · rintro ⟨i, a, ha, hfail, hbefore⟩
            cases i with
            | zero =>
                cases ha
                rw [hfirst] at hfail
                cases hfail
                rfl
            | succ i =>
                obtain ⟨c, hc⟩ := hbefore 0 (Nat.succ_pos i) first rfl
                rw [hfirst] at hc
                cases hc
      | ok c =>
          have hrest : (do
              let b ← (Except.ok c : Except ε β)
              let bs ← as.mapM f
              pure (b :: bs)) = .error e ↔ as.mapM f = .error e := by
            cases as.mapM f with
            | error e' => exact Iff.rfl
            | ok bs => exact iff_of_false nofun nofun
          rw [hrest, ih]
          constructor
          · rintro ⟨i, a, ha, hfail, hbefore⟩
            refine ⟨i + 1, a, ha, hfail, fun j hj b hb => ?_⟩
            cases j with
            | zero =>
                cases hb
                exact ⟨c, hfirst⟩
            | succ j => exact hbefore j (Nat.lt_of_succ_lt_succ hj) b hb
          · rintro ⟨i, a, ha, hfail, hbefore⟩
            cases i with
            | zero =>
                cases ha
                rw [hfirst] at hfail
                cases hfail
            | succ i =>
                exact ⟨i, a, ha, hfail, fun j hj b hb =>
                  hbefore (j + 1) (Nat.succ_lt_succ hj) b hb⟩

theorem exists_mapM_eq_ok_iff : (∃ bs, as.mapM f = .ok bs) ↔ ∀ a ∈ as, ∃ b, f a = .ok b := by
  constructor
  · rintro ⟨bs, h⟩
    have hall := forall₂_of_mapM_eq_ok h
    clear h
    induction hall with
    | nil => exact fun a ha => absurd ha List.not_mem_nil
    | cons hab _ ih => exact List.forall_mem_cons.2 ⟨⟨_, hab⟩, ih⟩
  · intro hall
    cases h : as.mapM f with
    | ok bs => exact ⟨bs, rfl⟩
    | error e =>
        obtain ⟨i, a, ha, hfail, -⟩ := mapM_eq_error_iff.1 h
        obtain ⟨b, hb⟩ := hall a (List.mem_of_getElem? ha)
        rw [hfail] at hb
        cases hb

theorem mapM_congr_of_mem (h : ∀ a ∈ as, f a = g a) : as.mapM f = as.mapM g := by
  induction as with
  | nil => rfl
  | cons a as ih =>
      rw [List.forall_mem_cons] at h
      rw [List.mapM_cons, List.mapM_cons, h.1, ih h.2]

/-- Where it is told beforehand which members fail, the first of them decides. -/
theorem mapM_eq_error_iff_find? (fails : α → Bool) (error : α → ε)
    (hfail : ∀ a, fails a = true → f a = .error (error a))
    (hok : ∀ a, fails a = false → ∃ b, f a = .ok b) :
    as.mapM f = .error e ↔ ∃ a, as.find? fails = some a ∧ e = error a := by
  induction as with
  | nil => exact iff_of_false nofun (by simp)
  | cons a as ih =>
      rw [List.mapM_cons]
      cases hfirst : fails a with
      | true =>
          rw [hfail a hfirst, List.find?_cons_of_pos hfirst]
          constructor
          · rintro ⟨⟩
            exact ⟨a, rfl, rfl⟩
          · rintro ⟨_, ⟨⟩, rfl⟩
            rfl
      | false =>
          obtain ⟨b, hb⟩ := hok a hfirst
          rw [hb, List.find?_cons_of_neg (by rw [hfirst]; exact Bool.false_ne_true), ← ih]
          cases as.mapM f with
          | error e' => exact Iff.rfl
          | ok bs => exact iff_of_false nofun nofun

theorem map_mapM {γ : Type} (f : α → Except ε β) (h : β → γ) (as : List α) :
    (as.mapM f).map (List.map h) = as.mapM fun a => (f a).map h := by
  induction as with
  | nil => rfl
  | cons a as ih =>
      rw [List.mapM_cons, List.mapM_cons, ← ih]
      cases f a with
      | error e => rfl
      | ok b => cases as.mapM f <;> rfl

end QueryPlan
