import ScriptHost.Proofs.Fields
import ScriptHost.Proofs.Provenance.Data
import ScriptHost.Script.Purity

/-!
# Constants keep to an origin

The value that can be read off an expression is made of the literals in it.
-/

namespace ScriptHost.Script

variable {o : Origin}

/-- An expression at another position. -/
@[simp, grind =]
theorem Expr.traced_withPosition (e : Expr) (pos : Position) :
    (e.withPosition pos).Traced o ↔ e.Traced o := by
  cases e <;> simp [withPosition]

/-- The statements of a block. -/
theorem Stmt.traced_asBlock {s : Stmt} (hs : s.Traced o) : IsTraced o s.asBlock.1 := by
  unfold asBlock
  split <;> simp_all

grind_pattern Stmt.traced_asBlock => s.asBlock, s.Traced o

mutual

/-- The value of a constant expression. -/
theorem Expr.traced_constant? : (e : Expr) → e.Traced o → ∀ d, e.constant? = some d → d.Traced o
  | .literal d _, he, _, hd => by
    cases hd
    simpa using he
  | .array items _, he, _, hd => by
    obtain ⟨ds, hds, rfl⟩ := Option.map_eq_some_iff.mp hd
    simpa using traced_constants? items (by simpa using he) ds hds
  | .map fields _, he, _, hd => by
    obtain ⟨fs, hfs, rfl⟩ := Option.map_eq_some_iff.mp hd
    have hfields := traced_constantFields? fields (by simpa using he) fs hfs
    simpa using fun k d hkd => hfields (k, d) (Fields.mem_ofList hkd)
  | .interpolated segments _, _, _, hd => by
    obtain ⟨ds, -, rfl⟩ := Option.map_eq_some_iff.mp hd
    simp
  | .var .., _, _, hd | .this _, _, _, hd | .call .., _, _, hd | .operator .., _, _, hd
  | .all .., _, _, hd | .any .., _, _, hd | .coalesce .., _, _, hd | .block .., _, _, hd
  | .chain .., _, _, hd => nomatch hd

/-- The values of constant expressions. -/
theorem traced_constants? : (es : List Expr) → (∀ e ∈ es, e.Traced o) →
    ∀ ds, constants? es = some ds → ∀ d ∈ ds, d.Traced o
  | [], _, ds, hds => by
    cases hds
    simp
  | e :: rest, hes, ds, hds => by
    obtain ⟨he, hrest⟩ := List.forall_mem_cons.mp hes
    rw [constants?] at hds
    split at hds
    · next d ds' hd hds' =>
      cases hds
      exact List.forall_mem_cons.mpr ⟨e.traced_constant? he d hd,
        traced_constants? rest hrest ds' hds'⟩
    · cases hds

/-- The values of constant fields. -/
theorem traced_constantFields? : (fields : List (String × Expr)) →
    (∀ p ∈ fields, p.2.Traced o) → ∀ fs, constantFields? fields = some fs →
      ∀ p ∈ fs, p.2.Traced o
  | [], _, fs, hfs => by
    cases hfs
    simp
  | (k, e) :: rest, hfields, fs, hfs => by
    obtain ⟨he, hrest⟩ := List.forall_mem_cons.mp hfields
    rw [constantFields?] at hfs
    split at hfs
    · next d fs' hd hfs' =>
      cases hfs
      exact List.forall_mem_cons.mpr ⟨e.traced_constant? he d hd,
        traced_constantFields? rest hrest fs' hfs'⟩
    · cases hfs

end

/-- The value of an expression that is as good as a value. -/
@[grind →]
theorem Expr.traced_value? {e : Expr} (he : e.Traced o) {d : Datum} (hd : e.value? = some d) :
    d.Traced o := by
  unfold value? at hd
  split at hd
  · cases hd
    simp
  · cases hd
    simp
  · exact e.traced_constant? he d hd

end ScriptHost.Script
