import QueryPlan.Form.Expr
import QueryPlan.Proofs.Form.Basic

/-!
# Expressions that are read back

Two kinds of leaves of an expression may fail to be read back from what is stored: a reference with
an ordinal that is out of range, and a double that is not finite. An expression in which there is
no such leaf is read back, and only such an expression is.

The reader counts the levels of the data, and an expression is stored on as many levels as its
stored form has. Each part of it is stored at least one level further down, and so the levels that
are left over for a part always suffice for it. This is an induction on the expression.
-/

namespace QueryPlan

open Storable

/-- A double must be finite, and all other constants are in range. -/
def Scalar.InRange : Scalar → Prop
  | .float64 x => x.isFinite = true
  | _ => True

namespace Expr

mutual
/-- Every ordinal in the expression is below the bound, and every double is finite. -/
def InRange : Expr → Prop
  | .row r => r.ordinal < ordinalBound
  | .side c => c.side < ordinalBound ∧ c.ordinal < ordinalBound
  | .literal v => v.InRange
  | .binary _ left right => left.InRange ∧ right.InRange
  | .unary _ operand => operand.InRange
  | .call _ args _ => AllInRange args
  | .and es | .or es => AllInRange es
/-- Every member is in range. -/
def AllInRange : List Expr → Prop
  | [] => True
  | e :: es => e.InRange ∧ AllInRange es
end

end Expr

namespace Storable

theorem restored_scalar {v : Scalar} : Restored v ↔ v.InRange := by
  cases v with
  | float64 x =>
      exact (map_ofData?_eq_some_iff fun _ _ => Scalar.float64.inj).trans restored_double
  | null => exact iff_of_true rfl trivial
  | bool b =>
      exact iff_of_true (congrArg (Option.map Scalar.bool) (ofData?_toData_bool b)) trivial
  | int64 n =>
      exact iff_of_true (congrArg (Option.map Scalar.int64) (ofData?_toData_int64 n)) trivial
  | utf8 s =>
      exact iff_of_true (congrArg (Option.map Scalar.utf8) (ofData?_toData_string s)) trivial
  | date n =>
      exact iff_of_true (congrArg (Option.map Scalar.date) (ofData?_toData_int32 n)) trivial

/-- What is not finite is stored as null, and no double is read from that. -/
example : (ofData? (toData (Scalar.float64 ⟨0x7FF0000000000000⟩)) : Option Scalar) = none := by
  decide

theorem restored_rowRef {r : RowRef} : Restored r ↔ r.ordinal < ordinalBound := by
  have hread (ordinal type : Data) :
      (ofData? (.object [("index", ordinal), ("data_type", type)]) : Option RowRef) =
        (do some ⟨← ofData? ordinal, ← ofData? type⟩) := rfl
  have hstored : toData r = .object [("index", toData r.ordinal), ("data_type", toData r.type)] :=
    rfl
  rw [← restored_nat]
  obtain ⟨ordinal, type⟩ := r
  simp [Restored, hstored, hread, Option.bind_eq_some_iff]

theorem restored_sideRef {c : SideRef} :
    Restored c ↔ c.side < ordinalBound ∧ c.ordinal < ordinalBound := by
  have hread (side ordinal name type : Data) :
      (ofData? (.object [("input", side), ("index", ordinal), ("name", name),
        ("data_type", type)]) : Option SideRef) =
        (do some ⟨← ofData? side, ← ofData? ordinal, ← ofData? name, ← ofData? type⟩) := rfl
  have hstored : toData c = .object [("input", toData c.side), ("index", toData c.ordinal),
      ("name", toData c.name), ("data_type", toData c.type)] := rfl
  rw [← restored_nat, ← restored_nat]
  obtain ⟨side, ordinal, name, type⟩ := c
  simp [Restored, hstored, hread, Option.bind_eq_some_iff]

end Storable

namespace Expr

variable {levels : Nat}

theorem restore?_row (contents : Data) :
    restore? (levels + 1) (.tag "InputRef" contents) = (ofData? contents).map .row := rfl

theorem restore?_side (contents : Data) :
    restore? (levels + 1) (.tag "Column" contents) = (ofData? contents).map .side := rfl

theorem restore?_literal (contents : Data) :
    restore? (levels + 1) (.tag "Literal" contents) = (ofData? contents).map .literal := rfl

theorem restore?_binary (op left right : Data) :
    restore? (levels + 1)
      (.tag "BinaryOp" (.object [("op", op), ("left", left), ("right", right)])) =
      (do some (.binary (← ofData? op) (← restore? levels left) (← restore? levels right))) := rfl

theorem restore?_unary (op operand : Data) :
    restore? (levels + 1) (.tag "UnaryOp" (.object [("op", op), ("operand", operand)])) =
      (do some (.unary (← ofData? op) (← restore? levels operand))) := rfl

theorem restore?_call (function result : Data) (args : List Data) :
    restore? (levels + 1) (.tag "Function" (.object [("name", function), ("args", .array args),
      ("return_type", result)])) =
      (do some (.call (← ofData? function) (← args.mapM (restore? levels)) (← ofData? result))) :=
  rfl

theorem restore?_and (items : List Data) :
    restore? (levels + 1) (.tag "And" (.array items)) =
      (items.mapM (restore? levels)).map .and := rfl

theorem restore?_or (items : List Data) :
    restore? (levels + 1) (.tag "Or" (.array items)) =
      (items.mapM (restore? levels)).map .or := rfl

theorem store_ne_null (e : Expr) : e.store ≠ .null := by
  cases e <;> nofun

mutual
/-- An expression is read back from as many levels as its stored form has. -/
theorem restore?_store_iff : ∀ (e : Expr) (levels : Nat), e.store.depth ≤ levels →
    (restore? levels e.store = some e ↔ e.InRange)
  | e, 0, h => absurd h (Nat.not_le_of_lt e.store.depth_pos)
  | .row r, levels + 1, _ => by
      rw [store, restore?_row, map_ofData?_eq_some_iff fun _ _ => row.inj, restored_rowRef, InRange]
  | .side c, levels + 1, _ => by
      rw [store, restore?_side, map_ofData?_eq_some_iff fun _ _ => side.inj, restored_sideRef,
        InRange]
  | .literal v, levels + 1, _ => by
      rw [store, restore?_literal, map_ofData?_eq_some_iff fun _ _ => literal.inj, restored_scalar,
        InRange]
  | .binary op left right, levels + 1, h => by
      rw [store] at h ⊢
      simp only [Data.depth_tag, Data.depth, Data.depthOfMembers] at h
      have hleft := restore?_store_iff left levels (by omega)
      have hright := restore?_store_iff right levels (by omega)
      rw [restore?_binary, InRange, ← hleft, ← hright]
      simp [Option.bind_eq_some_iff]
  | .unary op operand, levels + 1, h => by
      rw [store] at h ⊢
      simp only [Data.depth_tag, Data.depth, Data.depthOfMembers] at h
      have hoperand := restore?_store_iff operand levels (by omega)
      rw [restore?_unary, InRange, ← hoperand]
      simp [Option.bind_eq_some_iff]
  | .call function args result, levels + 1, h => by
      rw [store] at h ⊢
      simp only [Data.depth_tag, Data.depth, Data.depthOfMembers] at h
      have hargs := mapM_restore?_storeAll_iff args levels (by omega)
      rw [restore?_call, InRange, ← hargs]
      simp [Option.bind_eq_some_iff]
  | .and es, levels + 1, h => by
      rw [store] at h ⊢
      simp only [Data.depth_tag, Data.depth] at h
      have hes := mapM_restore?_storeAll_iff es levels (by omega)
      rw [restore?_and, InRange, ← hes]
      simp
  | .or es, levels + 1, h => by
      rw [store] at h ⊢
      simp only [Data.depth_tag, Data.depth] at h
      have hes := mapM_restore?_storeAll_iff es levels (by omega)
      rw [restore?_or, InRange, ← hes]
      simp
theorem mapM_restore?_storeAll_iff : ∀ (es : List Expr) (levels : Nat),
    Data.depthOfItems (storeAll es) ≤ levels →
      ((storeAll es).mapM (restore? levels) = some es ↔ AllInRange es)
  | [], _, _ => by simp [storeAll, AllInRange]
  | e :: es, levels, h => by
      rw [storeAll, Data.depthOfItems] at h
      have hfirst := restore?_store_iff e levels (by omega)
      have hrest := mapM_restore?_storeAll_iff es levels (by omega)
      rw [storeAll, List.mapM_cons, AllInRange, ← hfirst, ← hrest]
      simp [Option.bind_eq_some_iff]
end

end Expr

namespace Storable

theorem restored_expr {e : Expr} : Restored e ↔ e.InRange :=
  e.restore?_store_iff e.store.depth (Nat.le_refl _)

end Storable

end QueryPlan
