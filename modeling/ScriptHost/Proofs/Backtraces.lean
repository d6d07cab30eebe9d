import Mathlib
import ScriptHost.Proofs.Backtraces.Statements
import ScriptHost.Proofs.Provenance

/-!
# Backtraces

A fault goes out through the top level of a script and through the functions whose calls it has
left. It has one position in the code of each of them. The backtrace shows these positions in this
order, but with the names one place further: a function stands beside the position of its call,
which is in the code of its caller, and the top level stands beside the position of the fault, which
is in the code of the function called last.
-/

namespace ScriptHost

open Script

variable {ω α : Type}

namespace Script

namespace Fault

/-- The functions whose calls a fault has left, the outermost first. -/
def calls : Fault → List String
  | inCall name _ inner _ => name :: inner.calls
  | thrown .. | raised .. => []

/-- The positions of the calls that a fault has left, the outermost first, and the position at which
it arose. -/
def positions : Fault → List Position
  | inCall _ _ inner pos => pos :: inner.positions
  | thrown _ pos | raised _ pos => [pos]

/-- The backtrace has the calls and, if the fault has a position, the top level; their names stand
beside the positions in turn. -/
theorem frames_eq (x : Fault) : x.frames = List.zipWith frameText
    (x.calls ++ if x.innermost.position.isNone then [] else ["<main>"]) x.positions := by
  induction x using frames.induct with
  | case1 name source inner pos ih => rw [frames, ih]; rfl
  | case2 payload pos hpos | case3 payload pos hpos | case4 cause pos hpos | case5 cause pos hpos =>
    simp [frames, calls, positions, innermost, position, hpos]

end Fault

/-- The code that a name in a backtrace stands for. Native functions that call back have none of
their own, and the text that a script runs is not known before. -/
def Engine.codeNamed (e : Engine ω) (body : List Stmt) (name : String) : Set Position :=
  {pos | name = "<main>" ∧ pos ∈ positionsOf body ∨ pos ∈ e.codeOf name ∨ name ∈ callers ∨
    name = "eval"}

/-- Names stand beside positions in the code that they stand for. -/
def Engine.Locates (e : Engine ω) (body : List Stmt) : List String → List Position → Prop :=
  List.Forall₂ fun name (pos : Position) => pos.LiesIn (e.codeNamed body name)

/-- The positions of a fault lie in the code that it arose in and in the functions whose calls it
has left, in turn. -/
theorem Fault.ArisesIn.locates {e : Engine ω} {body : List Stmt} {code : Set Position} {x : Fault}
    (hx : x.ArisesIn e.codeOf code) {outer : String} (hcode : code ⊆ e.codeNamed body outer) :
    e.Locates body (outer :: x.calls) x.positions := by
  induction hx generalizing outer with
  | thrown payload hpos => exact .cons (fun h => hcode (hpos h)) .nil
  | raised cause hpos => exact .cons (fun h => hcode (hpos h)) .nil
  | call hpos _ ih => exact .cons (fun h => hcode (hpos h)) (ih fun _ h => .inr (.inl h))
  | callback hname hpos _ ih =>
    exact .cons (fun h => hcode (hpos h)) (ih fun _ _ => .inr (.inr (.inl hname)))
  | text hpos _ ih => exact .cons (fun h => hcode (hpos h)) (ih fun _ _ => .inr (.inr (.inr rfl)))

end Script

namespace Prepared

/-- A failure of an execution in a fault of its own is the fault in which the run has ended. -/
theorem IsFaithful.execution_error {h : Host ω} {p : Prepared} (hp : p.IsFaithful h)
    {entry : Entry α} {s : Store ω} {x : Fault} {script : String}
    (hfails : (entry.perform h p s).1 = some (.error (.execution x script))) :
    p.FailsInside h (encodeBindings entry.vars) s.world (.execution x script) ∨
      p.EndsIn h (encodeBindings entry.vars) s.world x := by
  rcases hp.error_cases hfails with
    ⟨_, _, ⟨⟩⟩ | ⟨_, _, ⟨⟩⟩ | ⟨_, hx, ⟨⟩⟩ | ⟨_, _, ⟨⟩⟩ | ⟨-, hinside⟩
  · exact .inr hx
  · exact .inl hinside

/-- **A backtrace shows names and positions one place apart.** Let the execution of a prepared
script fail at run time, in the script itself and not in another one that a host function has run.
Then the fault has one position in the top level of the script and one in each function whose call
it has left, in this order. The backtrace has these positions in the same order, but the names from
the second one on, and the top level comes last, if the fault has a position. -/
theorem backtrace_displaced (h : Host ω) (p : Prepared) (hp : p.IsFaithful h) (entry : Entry α)
    (s : Store ω) (x : Fault) (script : String)
    (hfails : (entry.perform h p s).1 = some (.error (.execution x script)))
    (hown : ¬p.FailsInside h (encodeBindings entry.vars) s.world (.execution x script)) :
    ∃ program, p.program h = .ok program ∧
      x.ArisesIn (h.engine program).codeOf {pos | pos ∈ positionsOf program.body} ∧
      (h.engine program).Locates program.body ("<main>" :: x.calls) x.positions ∧
      (Failure.execution x script).details.backtrace.getD [] = List.zipWith Fault.frameText
        (x.calls ++ if x.innermost.position.isNone then [] else ["<main>"]) x.positions := by
  obtain ⟨program, m, hprogram, hrun⟩ := (hp.execution_error hfails).resolve_left hown
  have harises := Engine.arisesIn_run (congrArg Prod.fst hrun)
  refine ⟨program, hprogram, harises,
    harises.locates fun _ hpos => .inl ⟨rfl, hpos⟩, ?_⟩
  rw [← Fault.frames_eq, Failure.details]
  dsimp only
  split
  · next hempty => exact (List.isEmpty_iff.mp hempty).symm
  · rfl

/-- The call of a function that throws: the function stands beside its call in line 4, and the top
level beside line 2 inside of the function. -/
theorem backtrace_displaced_call :
    let h : Host Unit := { bridge := ⟨[]⟩ }
    let p := h.prepare "fn f() \x7b\n throw 1\n\x7d\nf()"
    p.IsFaithful h ∧ ∃ x, (Entry.run.perform h p { world := () }).1 =
        some (.error (.execution x p.source)) ∧
      (Failure.execution x p.source).details.backtrace =
        some ["at f (line 4)", "at <main> (line 2)"] ∧
      ∃ program, p.program h = .ok program ∧
        (h.engine program).Locates program.body ["<main>", "f"] [⟨4, 1⟩, ⟨2, 2⟩] := by
  intro h p
  have hp : p.IsFaithful h := isFaithful_afresh h p.source
  have hends : failsIn (fun
      | .execution x script => script == p.source && x.calls == ["f"] &&
        x.positions == [⟨4, 1⟩, ⟨2, 2⟩] && (Failure.execution x script).details.backtrace ==
          some ["at f (line 4)", "at <main> (line 2)"]
      | _ => false) (Entry.run.perform h p { world := () }).1 = true := by decide +kernel
  obtain ⟨f, hfails, htest⟩ := exists_of_failsIn hends
  split at htest
  · next x script =>
    simp only [Bool.and_eq_true, beq_iff_eq] at htest
    obtain ⟨⟨⟨rfl, hcalls⟩, hpositions⟩, hbacktrace⟩ := htest
    have hown : ¬p.FailsInside h [] () (.execution x p.source) := by
      rintro ⟨-, entry, hentry, -⟩
      cases hentry
    obtain ⟨program, hprogram, -, hplaces, -⟩ :=
      backtrace_displaced h p hp .run { world := () } x p.source hfails hown
    rw [hcalls, hpositions] at hplaces
    exact ⟨hp, x, hfails, hbacktrace, program, hprogram, hplaces⟩
  · cases htest

end Prepared

end ScriptHost
