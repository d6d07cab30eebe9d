import Mathlib
import ScriptHost.Proofs.Definitions

/-!
# Texts behind the lines of a bridge

The lines of a bridge define one function for each host function and nothing else, provided that the
names are identifiers. What follows them is read as it would be alone, but for these functions.
-/

namespace ScriptHost

open ScriptHost.Script ScriptHost.Script.Grammar ScriptHost.Script.Parser

variable {ω : Type}

/-- The limits of a configuration that nobody changed are open. -/
theorem Config.isOpen_default : ({} : Config).IsOpen := ⟨rfl, rfl, rfl, rfl, .inr (by decide)⟩

/-! ## Registered functions -/

/-- Setting a new key adds one field. -/
theorem Fields.insert_perm {α : Type} {key : String} {fields : List (String × α)}
    (hnew : Fields.contains key fields = false) (value : α) :
    (Fields.insert key value fields).Perm ((key, value) :: fields) := by
  induction fields with
  | nil => exact .refl _
  | cons field rest ih =>
    obtain ⟨k, v⟩ := field
    rw [Fields.insert]
    split
    · exact .refl _
    · split
      · next heq =>
        subst heq
        simp [Fields.contains, Fields.get?] at hnew
      · next hne =>
        have hrest : Fields.contains key rest = false := by
          rwa [Fields.contains, Fields.get?, if_neg (Ne.symm hne)] at hnew
        exact ((ih hrest).cons (k, v)).trans (.swap _ _ _)

namespace Bridge

variable {registrations : List (Registration ω)} {b : Bridge ω}

/-- A bridge has the functions that it had at first and those that were registered. -/
theorem perm_of_go {functions : List (String × HostFunction ω)}
    (h : build.go functions registrations = .ok b) :
    b.functions.Perm (functions ++ registrations.map fun r => (r.name, r.function)) := by
  induction registrations generalizing functions with
  | nil =>
    cases h
    simp
  | cons r rest ih =>
    rw [build.go] at h
    split at h
    · cases h
    · split at h
      · cases h
      · next hnew =>
        have hinsert := Fields.insert_perm (Bool.not_eq_true _ ▸ hnew) r.function
        have hrest := (ih h).trans (hinsert.append_right _)
        exact hrest.trans List.perm_middle.symm

/-- A bridge that could be built has one function for each registration. -/
theorem perm_of_build (hbuild : build registrations = .ok b) :
    b.functions.Perm (registrations.map fun r => (r.name, r.function)) := perm_of_go hbuild

/-- What holds of the names of all registrations holds of all names of the bridge. -/
theorem forall_names_iff (hbuild : build registrations = .ok b) (holds : String → Prop) :
    (∀ f ∈ b.functions, holds f.1) ↔ ∀ r ∈ registrations, holds r.name := by
  simp only [(perm_of_build hbuild).mem_iff, List.forall_mem_map]

/-! ## Reading on -/

/-- Behind the lines of a bridge a text is read as the script that its pieces make, with the
functions that stand for the host functions in front. -/
theorem ofText?_pieces {limits : Limits} (hlimits : limits.IsOpen)
    (hnodup : (b.stubs.map Prod.fst).Nodup)
    (hnames : ∀ p ∈ b.stubs, isIdentifier p.1 = true ∧ isReserved p.1 = false)
    {ps : List Piece} (hvalid : ps.all Piece.isValid = true) (hapart : areApart ps none = true)
    {text : String} (htext : text.toList = b.pieces.flatMap Piece.chars ++ ps.flatMap Piece.chars) :
    ∃ functions placed n, List.Forall₂ (IsStub .expr) b.stubs functions ∧
      placed.map Placed.token = ps.filterMap Piece.token? ++ [.eof] ∧
      ∀ (body : List Stmt) (final : ParserState) (rest : List Placed),
        Loops (nextInScript (within (n + 12))
            { limits, maxLevel := limits.maxExprDepth, isTop := true }) []
          (({ tokens := [], functions := functions.reverse } : ParserState).facing placed) body
          (final.facing rest) →
        Program.ofText? limits text =
          .ok ⟨body, final.functions.reverse, final.closures.reverse⟩ := by
  obtain ⟨l, hfunctions, hlines⟩ := exists_linesEnd hlimits hnodup hnames
    (8 * (tokens limits.maxStringSize text).length + 4)
  have hreaches := hlines.reaches htext (passesDefinitions_nextInScript _ _ [])
  have hlength := length_tokens_le hvalid
  obtain ⟨placed, signed, pos, hplaced, hscan⟩ := tokensFrom_pieces hvalid l.signed l.pos
  have hfrom := hscan [] (by exact hapart) (l.spare + 2 * (ps.flatMap Piece.chars).length + 1)
    (by omega)
  have hcount : placed.length = (ps.filterMap Piece.token?).length := by
    rw [← hplaced, List.length_map]
  obtain ⟨k, hk⟩ : ∃ k,
      l.spare + 2 * (ps.flatMap Piece.chars).length + 1 - placed.length = k + 1 :=
    ⟨l.spare + 2 * (ps.flatMap Piece.chars).length - placed.length, by omega⟩
  rw [List.append_nil, hk] at hfrom
  rw [LinesEnd.state, LinesEnd.tokens, hfrom] at hreaches
  refine ⟨l.functions, placed ++ tokensFrom 0 (k + 1) ⟨signed, [], false⟩ ⟨[], pos⟩,
    8 * (tokens limits.maxStringSize text).length + 4, hfunctions, ?_,
    fun body final rest hloops => ?_⟩
  · rw [List.map_append, hplaced]
    rfl
  · exact Batch.ofText?_ok (hreaches.loops hloops).repeated

/-! ## The lines alone -/

/-- A host function that does nothing. -/
def idle (arity : ℕ) : HostFunction Unit :=
  { arity, run := fun _ world => { outcome := .ok .null, world } }

end Bridge

end ScriptHost
