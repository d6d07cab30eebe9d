import Mathlib
import ScriptHost.Proofs.VariableScripts

/-!
# Bindings

The variables of an execution are a list of names with values, in which a name may come more than
once; any text is a name. A script that reads one variable is given the last value of its name,
however it was prepared. Neither the bindings of other names nor the hidden ones of its own matter,
nor does the order in which different names are bound.
-/

namespace ScriptHost

open Script

/-! ## The value of a name -/

section

variable {x y : String} {v : Value} {vars vars' before after : List (String × Value)}

/-- The value of a name is the last of the bindings of this name. -/
theorem boundTo?_eq_getLast? (x : String) (vars : List (String × Value)) :
    boundTo? x vars = (vars.filter (·.1 == x)).getLast?.map Prod.snd := by
  rw [boundTo?, ← List.head?_filter, List.filter_reverse, List.head?_reverse]

/-- Bindings of other names do not matter. -/
theorem boundTo?_congr (hsame : vars'.filter (·.1 == x) = vars.filter (·.1 == x)) :
    boundTo? x vars' = boundTo? x vars := by
  rw [boundTo?_eq_getLast?, boundTo?_eq_getLast?, hsame]

/-- A binding that is followed by another one of its name does not matter. -/
theorem boundTo?_hidden (hlater : y ∈ after.map Prod.fst) :
    boundTo? x (before ++ after) = boundTo? x (before ++ (y, v) :: after) := by
  rw [boundTo?_eq_getLast?, boundTo?_eq_getLast?, List.filter_append, List.filter_append]
  by_cases hxy : y = x
  · subst hxy
    obtain ⟨later, hmem, hname⟩ := List.mem_map.mp hlater
    have hkept : after.filter (·.1 == y) ≠ [] := by
      have hfound : later ∈ after.filter (·.1 == y) := by simp [hmem, hname]
      exact List.ne_nil_of_mem hfound
    rw [List.filter_cons_of_pos (by simp), List.getLast?_append_of_ne_nil _ hkept,
      List.getLast?_append_of_ne_nil _ (List.cons_ne_nil _ _), List.getLast?_cons_of_ne_nil hkept]
  · rw [List.filter_cons_of_neg (by simpa using hxy)]

end

/-! ## Scripts prepared either way -/

section

variable {ω : Type} {h : Host ω} {script : String} {p : Prepared}

/-- A script of a host: one that is compiled when it runs, or one that was compiled ahead while the
store kept nothing but what texts compile to. -/
def Host.Prepares (h : Host ω) (script : String) (p : Prepared) : Prop :=
  p = h.prepare script ∨ ∃ s : Store ω, s.IsFaithful h ∧ (h.compile script s).1 = .ok p

/-- Either way its program is that of its full text. -/
theorem Host.Prepares.isFaithful (hp : h.Prepares script p) :
    p.IsFaithful h ∧ p.source = h.sourceOf script := by
  rcases hp with rfl | ⟨s, hs, hcompile⟩
  · exact ⟨Prepared.isFaithful_afresh h _, rfl⟩
  · rw [h.compile_eq hs] at hcompile
    cases hprogram : h.compileText (h.sourceOf script) with
    | error f =>
      rw [hprogram] at hcompile
      cases hcompile
    | ok program =>
      rw [hprogram] at hcompile
      obtain rfl : _ = p := Except.ok.inj hcompile
      refine ⟨fun q hq => ?_, rfl⟩
      obtain rfl : program = q := Option.some.inj hq
      exact hprogram

end

namespace Prepared

variable {ω : Type} {h : Host ω} {registrations : List (Registration ω)}

/-- **Binding is exact.** Whatever is bound to other names and in whatever order, the script that is
one name gives what the chosen rules make of the last value bound to it; a name of the bridge gives
what they make of the function. Bindings of different names may change places, and a binding that a
later one hides may be left out. The script can be compiled ahead, and whether it was does not
matter. The names of the bridge have to be identifiers, and limits have to leave room for its
lines. -/
theorem execute_bound (hbuild : Bridge.build registrations = .ok h.bridge)
    (hident : ∀ r ∈ registrations, isIdentifier r.name = true) (hlimits : h.config.IsOpen)
    (hdepth : h.config.maxExprDepth ≠ 1) {x : String} (hx : isIdentifier x = true)
    (hfree : isReserved x = false) {vars : List (String × Value)} {v : Value}
    (hbound : boundTo? x vars = some v) :
    (∀ s : Store ω, s.IsFaithful h → ∃ p, (h.compile x s).1 = .ok p) ∧
    ∀ p, h.Prepares x p → ∀ (options : ExecutionOptions) (s : Store ω),
      let answer (vars : List (String × Value)) := noticed (p.execute h vars options s)
      ((∀ r ∈ registrations, r.name ≠ x) →
        answer vars = (((h.chain options).decode (encode v)).map .ok, s.world)) ∧
      ((∃ r ∈ registrations, r.name = x) →
        answer vars = (((h.chain options).decode (.fnPtr x [])).map .ok, s.world)) ∧
      (∀ vars', vars'.Perm vars →
        (∀ name, vars'.filter (·.1 == name) = vars.filter (·.1 == name)) →
        answer vars' = answer vars) ∧
      ∀ before name w after, vars = before ++ (name, w) :: after → name ∈ after.map Prod.fst →
        answer (before ++ after) = answer vars := by
  have hperm := Bridge.perm_of_build hbuild
  have hident' := (Bridge.forall_names_iff hbuild (isIdentifier · = true)).mpr hident
  have hnames : x ∈ h.bridge.names ↔ ∃ r ∈ registrations, r.name = x := by
    rw [Bridge.names, Fields.keys, List.mem_map]
    simp [hperm.mem_iff]
  constructor
  · intro s hs
    obtain ⟨program, -, hcompiled, -⟩ :=
      compileText_name hbuild hident' hlimits hdepth hx hfree
    rw [h.compile_eq hs, hcompiled]
    exact ⟨_, rfl⟩
  · intro p hp options s answer
    obtain ⟨hfaithful, hsource⟩ := hp.isFaithful
    have hanswer {others : List (String × Value)} (hother : boundTo? x others = some v) :
        answer others = (((h.chain options).decode
          (if x ∈ h.bridge.names then .fnPtr x [] else encode v)).map .ok, s.world) :=
      evaluate_name hbuild hident' hlimits hdepth hx hfree hfaithful hsource hother options _ s
    refine ⟨fun hother => ?_, fun hfunction => ?_, fun vars' _ hsame => ?_, ?_⟩
    · have hvariable : x ∉ h.bridge.names := by
        rw [hnames]
        rintro ⟨r, hr, hrx⟩
        exact hother r hr hrx
      rw [hanswer hbound, if_neg hvariable]
    · rw [hanswer hbound, if_pos (hnames.mpr hfunction)]
    · rw [hanswer hbound, hanswer ((boundTo?_congr (hsame x)).trans hbound)]
    · rintro before name w after rfl hlater
      rw [hanswer hbound, hanswer ((boundTo?_hidden hlater).trans hbound)]

/-- The later of two values of a name counts, with or without the first one. -/
theorem execute_bound_twice :
    let h : Host Unit := { bridge := ⟨[("f", Bridge.idle 1)]⟩ }
    let answer (vars : List (String × Value)) :=
      noticed ((h.prepare "x").execute h vars {} { world := () })
    answer [("x", .int 1), ("two words", .null), ("x", .string "late")] =
        (some (.ok (.string "late")), ()) ∧
      answer [("two words", .null), ("x", .string "late")] =
        answer [("x", .int 1), ("two words", .null), ("x", .string "late")] := by
  intro h answer
  have hbuild : Bridge.build [⟨"f", Bridge.idle 1⟩] = .ok h.bridge := rfl
  have hdecode : (h.chain {}).decode (encode (.string "late")) = some (.string "late") :=
    decode_eq_decoded (.string "late")
  have hbound : boundTo? "x" [("x", .int 1), ("two words", .null), ("x", .string "late")] =
      some (.string "late") := rfl
  obtain ⟨-, hrun⟩ := execute_bound hbuild (by decide +kernel) Config.isOpen_default (by decide)
    (x := "x") (by decide +kernel) (by decide +kernel) hbound
  obtain ⟨hvalue, -, -, hdropped⟩ := hrun (h.prepare "x") (.inl rfl) {} { world := () }
  have hlate := hvalue (by decide)
  rw [hdecode] at hlate
  exact ⟨hlate, hdropped [] "x" (.int 1) _ rfl (by simp)⟩

/-- A value that is bound to the name of a host function is not read. -/
theorem execute_function_name :
    let h : Host Unit := { bridge := ⟨[("x", Bridge.idle 0)]⟩ }
    let answer := noticed ((h.prepare "x").execute h [("x", .int 7)] {} { world := () })
    (h.chain {}).decode (encode (.int 7)) = some (.int 7) ∧
      answer = (some (.ok (.callable "x")), ()) ∧ answer ≠ (some (.ok (.int 7)), ()) := by
  intro h answer
  have hbuild : Bridge.build [⟨"x", Bridge.idle 0⟩] = .ok h.bridge := rfl
  have hdecode : (h.chain {}).decode (.fnPtr "x" []) = some (.callable "x") :=
    decode_eq_decoded (.fnPtr "x" [])
  have hfunction : "x" ∈ h.bridge.names := by decide
  have hanswer : answer = (((h.chain {}).decode (.fnPtr "x" [])).map .ok, ()) := by
    have hbound : boundTo? "x" [("x", .int 7)] = some (.int 7) := rfl
    have hname := evaluate_name hbuild (by decide +kernel) Config.isOpen_default (by decide)
      (x := "x") (by decide +kernel) (by decide +kernel) (isFaithful_afresh h _) rfl hbound {}
      (decoding (h.chain {})) { world := () }
    rwa [if_pos hfunction] at hname
  rw [hanswer, hdecode]
  refine ⟨decode_eq_decoded (.int 7), rfl, fun hsame => ?_⟩
  cases hsame

end Prepared

end ScriptHost
