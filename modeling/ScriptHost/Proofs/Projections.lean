import ScriptHost.Proofs.Logging

/-!
# Results of host types and plain results

A result that is asked for as a value of a host type is a plain result, turned into JSON and read by
the schema of the type. Single runs decode it by the rules of the host whatever the configuration
says, batches by the rules that the configuration chooses; where these are the same, both agree with
plain evaluation and with each other.
-/

namespace ScriptHost

open Script

variable {ω α β : Type}

/-! ## Reading values one by one -/

section Traversal

variable {ε : Type} {f : α → Except ε β}

/-- A list has answers if each of its elements has, and these are the answers. -/
theorem mapM_eq_ok_iff {as : List α} {bs : List β} :
    as.mapM f = .ok bs ↔ List.Forall₂ (fun a b => f a = .ok b) as bs := by
  induction as generalizing bs with
  | nil => cases bs <;> simp [pure, Except.pure]
  | cons a as ih =>
    rw [List.mapM_cons]
    cases ha : f a with
    | error e => cases bs <;> simp [bind, Except.bind, ha]
    | ok b =>
      cases has : as.mapM f with
      | error e => cases bs <;> simp [bind, Except.bind, ha, ← ih, has]
      | ok cs => cases bs <;> simp [bind, Except.bind, pure, Except.pure, ha, ← ih, has]

/-- A list is refused for the first of its elements that is. -/
theorem mapM_eq_error_iff {as : List α} {e : ε} :
    as.mapM f = .error e ↔ ∃ front a back, as = front ++ a :: back ∧
      (∀ c ∈ front, ∃ b, f c = .ok b) ∧ f a = .error e := by
  induction as with
  | nil => simp [pure, Except.pure]
  | cons a as ih =>
    rw [List.mapM_cons]
    cases ha : f a with
    | error e' =>
      constructor
      · intro h
        obtain rfl : e' = e := Except.error.inj h
        exact ⟨[], a, as, rfl, by simp, ha⟩
      · rintro ⟨front, c, back, hsplit, hfront, hc⟩
        cases front with
        | nil =>
          obtain ⟨rfl, -⟩ := List.cons.inj hsplit
          obtain rfl : e' = e := Except.error.inj (ha.symm.trans hc)
          rfl
        | cons d front =>
          obtain ⟨rfl, -⟩ := List.cons.inj hsplit
          obtain ⟨b, hb⟩ := hfront a List.mem_cons_self
          rw [ha] at hb
          cases hb
    | ok b =>
      have hrest : (as.mapM f >>= fun bs => pure (b :: bs)) = .error e ↔ as.mapM f = .error e := by
        cases as.mapM f <;> simp [bind, Except.bind, pure, Except.pure]
      refine hrest.trans (ih.trans ⟨?_, ?_⟩)
      · rintro ⟨front, c, back, rfl, hfront, hc⟩
        exact ⟨a :: front, c, back, rfl, by simpa [ha] using hfront, hc⟩
      · rintro ⟨front, c, back, hsplit, hfront, hc⟩
        cases front with
        | nil =>
          obtain ⟨rfl, -⟩ := List.cons.inj hsplit
          rw [ha] at hc
          cases hc
        | cons d front =>
          obtain ⟨-, rfl⟩ := List.cons.inj hsplit
          exact ⟨front, c, back, rfl, fun u hu => hfront u (List.mem_cons_of_mem d hu), hc⟩

end Traversal

/-! ## What is made of an outcome -/

section Outcomes

variable {k : α → Except Failure β}

/-- An outcome turns into a result if it is one that does. -/
theorem map_bind_eq_ok_iff {o : Option (Except Failure α)} {b : β} :
    o.map (·.bind k) = some (.ok b) ↔ ∃ a, o = some (.ok a) ∧ k a = .ok b := by
  match o with
  | none => simp
  | some (.error f) => simp [Except.bind]
  | some (.ok a) => simp [Except.bind]

/-- An outcome turns into a failure if it is one, or a result that does. -/
theorem map_bind_eq_error_iff {o : Option (Except Failure α)} {f : Failure} :
    o.map (·.bind k) = some (.error f) ↔
      o = some (.error f) ∨ ∃ a, o = some (.ok a) ∧ k a = .error f := by
  match o with
  | none => simp
  | some (.error g) => simp [Except.bind]
  | some (.ok a) => simp [Except.bind]

end Outcomes

/-- A value of a host type is what is read from the JSON of a host value. -/
theorem Target.ofValue_eq_ok_iff {t : Target} {v : Value} {a : Typed} :
    t.ofValue v = .ok a ↔ t.schema.read v.toJson = .ok a := by
  rw [ofValue]
  split
  next b hb => simp [hb]
  next misfit hmisfit => simp [hmisfit]

namespace Prepared

/-! ## Single runs -/

/-- A projection that goes through another one gives what is made of the result of that one. -/
theorem outcome_bind {q : Projection β} {r : Projection α} {k : α → Except Failure β}
    (hread : ∀ d, q.read d = (r.read d).map (·.bind k)) (h : Host ω) (p : Prepared)
    (vars : Bindings) (s : Store ω) :
    p.outcome h vars q s =
      ((p.outcome h vars r s).1.map (·.bind k), (p.outcome h vars r s).2) := by
  rw [outcome, outcome]
  cases p.program h with
  | error f => rfl
  | ok program =>
    dsimp only
    split
    next d after hrun => exact Prod.ext (hread d) rfl
    next f after hrun => rfl
    next after hrun => rfl

/-- A value of a host type is what is read from the host value that the rules of the host make of
the result. -/
theorem evalInto_noticed {h : Host ω} {options : ExecutionOptions}
    (hlog : options.log = h.config.logScripts) (hchain : h.chain options = h.rules) (p : Prepared)
    (t : Target) (vars : List (String × Value)) (s : Store ω) :
    noticed (p.evalInto h t vars s) =
      ((p.execute h vars options s).1.map (·.bind t.ofValue),
        (p.execute h vars options s).2.world) := by
  have hread (d : Datum) : (t.projection h.rules).read d =
      ((decoding h.rules).read d).map (·.bind t.ofValue) := by
    rw [decoding, Option.map_map]
    rfl
  have hplain := evaluate_noticed h p (encodeBindings vars) options (decoding h.rules) s
  rw [← hchain] at hread hplain
  obtain ⟨hanswer, hworld⟩ := Prod.mk.inj hplain
  have hdefault : h.config.defaultOptions.log = options.log := hlog.symm
  rw [evalInto, execute, evaluate_noticed, ← hchain, outcome_bind hread, hdefault]
  exact Prod.ext (congrArg (Option.map _) hanswer.symm) hworld.symm

end Prepared

/-! ## Batches -/

/-- One row of a batch is read as the result of a single run is. -/
theorem Batch.read_row (t : Target) (c : Chain) (d : Datum) :
    t.ofOutcome ((projection c).read (.array [d])) =
      ((t.projection c).read d).map (Except.map fun a => [a]) := by
  show t.ofOutcome (([d].mapM c.decode).map .ok) =
    ((c.decode d).map t.ofValue).map (Except.map fun a => [a])
  rw [List.mapM_cons, List.mapM_nil]
  cases c.decode d with
  | none => rfl
  | some v =>
    show some ([v].mapM t.ofValue) = some ((t.ofValue v).map fun a => [a])
    rw [List.mapM_cons, List.mapM_nil]
    cases t.ofValue v <;> rfl

/-- **Results of host types agree with plain results**, where the configuration asks for the rules
of the host or the host has no rules but the built-in ones. A run gives a value of a host type
exactly if it gives a host value whose JSON is read as it; a failure of the run is the same either
way, and a host value that cannot be read is refused. A batch gives values of a host type exactly if
it gives host values that are read as them one by one; a failure is the same either way, and the
first value that cannot be read is refused. One row of a batch is read as a single run is. -/
theorem evalInto_agrees {h : Host ω} (hrules : h.config.translate = true ∨ h.rules = Chain.builtin)
    (t : Target) :
    (∀ (p : Prepared) (vars : List (String × Value)) (s : Store ω),
      (∀ a, (p.evalInto h t vars s).1 = some (.ok a) ↔
        ∃ v, (p.eval h vars s).1 = some (.ok v) ∧ t.schema.read v.toJson = .ok a) ∧
      (∀ f, (p.evalInto h t vars s).1 = some (.error f) ↔
        (p.eval h vars s).1 = some (.error f) ∨
          ∃ v, (p.eval h vars s).1 = some (.ok v) ∧ t.ofValue v = .error f) ∧
      (p.evalInto h t vars s).2.world = (p.eval h vars s).2.world) ∧
    (∀ (b : Batch) (names : List String) (rows : List Row) (s : Store ω),
      (∀ as, (b.evalInto h t names rows s).1 = some (.ok as) ↔
        ∃ vs, (b.eval h names rows s).1 = some (.ok vs) ∧
          List.Forall₂ (fun v a => t.schema.read v.toJson = .ok a) vs as) ∧
      (∀ f, (b.evalInto h t names rows s).1 = some (.error f) ↔
        (b.eval h names rows s).1 = some (.error f) ∨
          ∃ front v back, (b.eval h names rows s).1 = some (.ok (front ++ v :: back)) ∧
            (∀ u ∈ front, ∃ a, t.schema.read u.toJson = .ok a) ∧ t.ofValue v = .error f) ∧
      (b.evalInto h t names rows s).2 = (b.eval h names rows s).2) ∧
    ∀ d, t.ofOutcome ((Batch.projection (h.chain h.config.defaultOptions)).read (.array [d])) =
      ((t.projection h.rules).read d).map (Except.map fun a => [a]) := by
  have hchain : h.chain h.config.defaultOptions = h.rules := by
    rw [Host.chain]
    rcases hrules with htranslate | hbuiltin
    · exact if_pos htranslate
    · rw [hbuiltin, ite_self]
  refine ⟨fun p vars s => ?_, fun b names rows s => ?_, fun d => ?_⟩
  · have hinto := p.evalInto_noticed rfl hchain t vars s
    obtain ⟨hanswer, hworld⟩ := Prod.mk.inj hinto
    refine ⟨fun a => ?_, fun f => ?_, hworld⟩
    · rw [hanswer, map_bind_eq_ok_iff]
      simp only [Target.ofValue_eq_ok_iff]
      rfl
    · rw [hanswer, map_bind_eq_error_iff]
      rfl
  · rw [Batch.evalInto_eq]
    refine ⟨fun as => ?_, fun f => ?_, rfl⟩
    · refine map_bind_eq_ok_iff.trans ?_
      simp only [mapM_eq_ok_iff, Target.ofValue_eq_ok_iff]
    · refine map_bind_eq_error_iff.trans (or_congr_right ?_)
      simp only [mapM_eq_error_iff, Target.ofValue_eq_ok_iff]
      constructor
      · rintro ⟨vs, hvs, front, v, back, rfl, hfront, hv⟩
        exact ⟨front, v, back, hvs, hfront, hv⟩
      · rintro ⟨front, v, back, hvs, hfront, hv⟩
        exact ⟨_, hvs, front, v, back, rfl, hfront, hv⟩
  · rw [hchain, Batch.read_row]

/-- Arrays are told by their length. -/
def lengthRule : Rule := fun
  | .array items => .resolved (.int items.length)
  | d => .pass d

/-- A host with a rule of its own, in a single run and in a batch of one row. -/
theorem evalInto_agrees_length :
    let h : Host Unit := { bridge := .empty, rules := Chain.builtin.append lengthRule }
    let s : Store Unit := { world := () }
    let t : Target := ⟨"i64", .int64⟩
    ((h.prepare "[1, 2]").evalInto h t [] s).1 = some (.ok (.int 2)) ∧
      (Batch.evalInto h { result := "[1, 2]" } t [] [[]] s).1 = some (.ok [.int 2]) := by
  intro h s t
  obtain ⟨hsingle, hbatch, -⟩ := evalInto_agrees (h := h) (.inl rfl) t
  have heval : endsIn (·.int? == some 2) ((h.prepare "[1, 2]").eval h [] s).1 = true := by
    decide +kernel
  have hrow : endsIn (·.mapM Value.int? == some [2])
      (Batch.eval h { result := "[1, 2]" } [] [[]] s).1 = true := by decide +kernel
  constructor
  · obtain ⟨v, hvalue, hv⟩ := exists_of_endsIn heval
    rw [Value.eq_of_int? (beq_iff_eq.mp hv)] at hvalue
    exact ((hsingle _ [] s).1 _).mpr ⟨_, hvalue, rfl⟩
  · obtain ⟨values, hvalues, htest⟩ := exists_of_endsIn hrow
    rw [Value.eq_of_mapM_int? (beq_iff_eq.mp htest)] at hvalues
    exact ((hbatch _ [] [[]] s).1 _).mpr ⟨_, hvalues, .cons rfl .nil⟩

/-- The integer, if the answer is the JSON of one. -/
def Typed.jsonInt? : Typed → Option Int
  | json (.int i) => some i
  | _ => none

/-- Only the JSON of an integer gives it. -/
theorem Typed.eq_of_jsonInt? {t : Typed} {i : Int} (h : t.jsonInt? = some i) :
    t = json (.int i) := by
  unfold jsonInt? at h
  split at h
  · rw [Option.some.inj h]
  · cases h

/-- Where the configuration asks for the built-in rules, a value of a host type is still decoded by
the rules of the host: an array is a number, and as a plain result it is an array. -/
theorem Prepared.evalInto_untranslated :
    let h : Host Unit :=
      { bridge := .empty, rules := Chain.builtin.append lengthRule, config := { translate := false } }
    let s : Store Unit := { world := () }
    let p := h.prepare "[1, 2]"
    let t : Target := ⟨"serde_json::value::Value", .any⟩
    ∃ v, (p.eval h [] s).1 = some (.ok v) ∧
      t.schema.read v.toJson = .ok (.json (.array [.int 1, .int 2])) ∧
      (p.evalInto h t [] s).1 = some (.ok (.json (.int 2))) := by
  intro h s p t
  have heval : endsIn (·.ints? == some [1, 2]) (p.eval h [] s).1 = true := by decide +kernel
  have hinto : endsIn (·.jsonInt? == some 2) (p.evalInto h t [] s).1 = true := by decide +kernel
  obtain ⟨v, hvalue, hv⟩ := exists_of_endsIn heval
  obtain ⟨typed, hanswer, htyped⟩ := exists_of_endsIn hinto
  rw [Value.eq_of_ints? (beq_iff_eq.mp hv)] at hvalue
  rw [Typed.eq_of_jsonInt? (beq_iff_eq.mp htyped)] at hanswer
  exact ⟨_, hvalue, rfl, hanswer⟩

end ScriptHost
