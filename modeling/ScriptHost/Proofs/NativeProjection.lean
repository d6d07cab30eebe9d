import ScriptHost.Projection.Native
import ScriptHost.Proofs.Decoding
import ScriptHost.Proofs.Projections

/-!
# Results of script types and decoded results

A result that is asked for as a value of a script type is told from others by its type alone; the
built-in rules decode it by a list of tests, with a text for what they do not know. For the types of
scalars that scripts and hosts share the two agree: a result is a value of the type exactly if the
built-in rules make the same scalar of it.
-/

namespace ScriptHost

open Script

/-- A type of scalars that the host has as well. -/
inductive ScalarType where
  /-- 64-bit integers. -/
  | int
  /-- Floating-point numbers. -/
  | float
  /-- Truth values. -/
  | bool
  /-- The empty value. -/
  | unit
  /-- Decimal numbers. -/
  | decimal
  /-- Integers of any size. -/
  | bigInt
  /-- Days. -/
  | date
  /-- Times of the day. -/
  | time
  /-- Times of a day. -/
  | dateTime
  /-- Host objects. -/
  | handle
  deriving DecidableEq, Repr

namespace ScalarType

/-- The scalars of a type. -/
def Scalar : ScalarType → Type
  | int => Int
  | float => Float
  | bool => Bool
  | unit => Unit
  | decimal => Decimal
  | bigInt => Int
  | date => Date
  | time => Time
  | dateTime => DateTime
  | handle => Nat

/-- The type that a script value is asked to have. -/
def native : ScalarType → NativeType
  | int => .int
  | float => .float
  | bool => .bool
  | unit => .unit
  | decimal => .decimal
  | bigInt => .bigInt
  | date => .date
  | time => .time
  | dateTime => .dateTime
  | handle => .handle

/-- A scalar in a script. -/
def datum : (t : ScalarType) → t.Scalar → Datum
  | int, i => .int i
  | float, x => .float x
  | bool, b => .bool b
  | unit, _ => .unit
  | decimal, d => .decimal d
  | bigInt, i => .bigInt i
  | date, d => .date d
  | time, t => .time t
  | dateTime, t => .dateTime t
  | handle, id => .handle id

/-- A scalar on the host's side. -/
def value : (t : ScalarType) → t.Scalar → Value
  | int, i => .int i
  | float, x => .float x
  | bool, b => .bool b
  | unit, _ => .null
  | decimal, d => .decimal d
  | bigInt, i => .bigInt i
  | date, d => .date d
  | time, t => .time t
  | dateTime, t => .dateTime t
  | handle, id => .handle id

variable {t : ScalarType}

/-! ## Values told by their type -/

/-- The values of a type are its scalars. -/
theorem holds_iff {d : Datum} : t.native.holds d = true ↔ ∃ x, d = t.datum x := by
  constructor
  · intro hholds
    cases t <;> cases d <;> cases hholds <;> first | exact ⟨_, rfl⟩ | exact ⟨(), rfl⟩
  · rintro ⟨x, rfl⟩
    cases t <;> rfl

/-! ## Values told by the rules -/

/-- The scalar rule makes a scalar of its content alone. -/
theorem decodeScalar?_eq_value_iff {d : Datum} {x : t.Scalar} :
    decodeScalar? d = some (t.value x) ↔ d.unshared = t.datum x := by
  rw [decodeScalar?]
  generalize d.unshared = content
  constructor
  · intro hvalue
    cases t <;> cases content <;> cases hvalue <;> rfl
  · rintro rfl
    cases t <;> rfl

/-- What is made of containers, function pointers and unknown values is no scalar of these types. -/
theorem value_ne (x : t.Scalar) :
    (∀ items, t.value x ≠ .list items) ∧ (∀ fields, t.value x ≠ .map fields) ∧
      (∀ name, t.value x ≠ .callable name) ∧ ∀ s, t.value x ≠ .string s := by
  refine ⟨fun _ hsame => ?_, fun _ hsame => ?_, fun _ hsame => ?_, fun _ hsame => ?_⟩ <;>
    cases t <;> cases hsame

/-- Nor do all rules together make a scalar of anything but its content. -/
theorem decode_eq_value_iff {d : Datum} {x : t.Scalar} :
    Chain.builtin.decode d = some (t.value x) ↔ d.unshared = t.datum x := by
  rw [← decodeScalar?_eq_value_iff, Chain.decode_eq_decodeBy, Chain.decodeBy_builtin]
  cases hscalar : decodeScalar? d with
  | some v => rfl
  | none =>
    obtain ⟨hlist, hmap, hcallable, hstring⟩ := value_ne x
    refine iff_of_false ?_ nofun
    dsimp only
    split
    · rw [mapM_decode]
      exact fun hsame => hlist _ (Option.some.inj hsame).symm
    · intro hsame
      obtain ⟨fields, -, hfields⟩ := Option.map_eq_some_iff.mp hsame
      exact hmap fields hfields.symm
    · exact fun hsame => hlist _ (Option.some.inj hsame).symm
    · exact fun hsame => hcallable _ (Option.some.inj hsame).symm
    · exact fun hsame => hstring _ (Option.some.inj hsame).symm

/-- What the rules make of a value is a scalar if its content is. -/
theorem decoded_eq_value_iff {d : Datum} {x : t.Scalar} :
    decoded d = t.value x ↔ d.unshared = t.datum x := by
  rw [← decode_eq_value_iff, decode_eq_decoded, Option.some.injEq]

end ScalarType

/-! ## Values that are asked for -/

/-- A shared cell is of the type of its content. -/
theorem Script.Datum.typeName_unshared (d : Datum) : d.unshared.typeName = d.typeName := by
  induction d using Datum.unshared.induct with
  | case1 d ih => exact ih
  | case2 d hd =>
    have hcontent : d.unshared = d := by
      unfold Datum.unshared
      split
      · exact absurd rfl (hd _)
      · rfl
    rw [hcontent]

namespace NativeType

/-- A value asked for as one of a type: the value itself, or the names of both types. -/
def cast (t : NativeType) (d : Datum) : Except Failure Datum :=
  if t.holds d then .ok d else .error (.projection t.name d.typeName)

/-- A result asked for as a value of a type is its content, asked for as one. -/
theorem read_eq_cast (t : NativeType) (d : Datum) :
    t.projection.read d = some (t.cast d.unshared) := by
  show (if t.holds d.unshared then _ else _) = _
  rw [cast, d.typeName_unshared]
  split <;> rfl

variable {t : ScalarType} {d r : Datum} {f : Failure}

/-- Scalars of a type are given as they are. -/
theorem cast_eq_ok_iff : t.native.cast d = .ok r ↔ ∃ x, r = t.datum x ∧ d = t.datum x := by
  rw [cast]
  split
  next hholds =>
    obtain ⟨x, rfl⟩ := t.holds_iff.mp hholds
    constructor
    · intro hr
      exact ⟨x, (Except.ok.inj hr).symm, rfl⟩
    · rintro ⟨y, rfl, hy⟩
      rw [hy]
  next hother =>
    refine iff_of_false nofun ?_
    rintro ⟨x, -, hx⟩
    exact hother (t.holds_iff.mpr ⟨x, hx⟩)

/-- All other values are refused. -/
theorem cast_eq_error_iff : t.native.cast d = .error f ↔
    (∀ x, d ≠ t.datum x) ∧ f = .projection t.native.name d.typeName := by
  rw [cast]
  split
  next hholds =>
    obtain ⟨x, hx⟩ := t.holds_iff.mp hholds
    exact iff_of_false nofun fun hrefused => hrefused.1 x hx
  next hother =>
    have hnone (x : t.Scalar) : d ≠ t.datum x := fun hx => hother (t.holds_iff.mpr ⟨x, hx⟩)
    rw [Except.error.injEq, and_iff_right hnone]
    exact eq_comm

/-- Texts of either type are given as they are. -/
theorem cast_text {n : NativeType} (hn : n ∈ [text, sharedText]) (h : n.cast d = .ok r) :
    ∃ s, r = .string s ∧ d = .string s := by
  rw [cast] at h
  split at h
  next hholds =>
    obtain ⟨s, rfl⟩ : ∃ s, d = .string s := by
      have hn : n = text ∨ n = sharedText := by simpa using hn
      rcases hn with rfl | rfl <;> cases d <;> cases hholds <;> exact ⟨_, rfl⟩
    exact ⟨s, (Except.ok.inj h).symm, rfl⟩
  next => cases h

end NativeType

/-! ## Results of one value -/

section Results

variable {t : ScalarType} {d : Datum}

/-- A script value is of a type exactly if the built-in rules make the same scalar of it. -/
theorem read_eq_ok_iff {x : t.Scalar} : t.native.projection.read d = some (.ok (t.datum x)) ↔
    Chain.builtin.decode d = some (t.value x) := by
  rw [NativeType.read_eq_cast, Option.some.injEq, NativeType.cast_eq_ok_iff, t.decode_eq_value_iff]
  constructor
  · rintro ⟨y, hsame, hcontent⟩
    rw [hcontent, hsame]
  · intro hcontent
    exact ⟨x, rfl, hcontent⟩

/-- A script value of which they make anything else is refused. -/
theorem read_eq_error (hother : ∀ x, Chain.builtin.decode d ≠ some (t.value x)) :
    t.native.projection.read d = some (.error (.projection t.native.name d.typeName)) := by
  have hcontent (x : t.Scalar) : d.unshared ≠ t.datum x :=
    fun hx => hother x (t.decode_eq_value_iff.mpr hx)
  rw [NativeType.read_eq_cast, ← d.typeName_unshared,
    NativeType.cast_eq_error_iff.mpr ⟨hcontent, rfl⟩]

end Results

/-- A text that is given as such is decoded as such. -/
theorem decode_of_read_text {n : NativeType} (hn : n ∈ [.text, .sharedText]) {d r : Datum}
    (h : n.projection.read d = some (.ok r)) :
    ∃ text, r = .string text ∧ Chain.builtin.decode d = some (.string text) := by
  rw [NativeType.read_eq_cast, Option.some.injEq] at h
  obtain ⟨text, rfl, hcontent⟩ := NativeType.cast_text hn h
  refine ⟨text, rfl, ?_⟩
  rw [← Chain.decode_unshared, hcontent]
  exact decode_eq_decoded (.string text)

/-! ## Runs -/

namespace Prepared

variable {ω : Type} (h : Host ω) (p : Prepared) (vars : List (String × Value)) (s : Store ω)

/-- Results as they are. -/
def asIs : Projection Datum where
  read d := some (.ok d)
  describe := Datum.literal

/-- A run that is asked for a type gives what its script value gives. -/
theorem evalAs_noticed (t : NativeType) : noticed (p.evalAs h t vars s) =
    ((p.outcome h (encodeBindings vars) asIs s).1.map (·.bind fun d => t.cast d.unshared),
      (p.outcome h (encodeBindings vars) asIs s).2.world) := by
  have hread (d : Datum) :
      t.projection.read d = (asIs.read d).map (·.bind fun d => t.cast d.unshared) :=
    t.read_eq_cast d
  rw [evalAs, evaluate_eq_outcome, outcome_bind hread]
  rfl

/-- A run without rules of the host's own gives what the built-in rules make of its script value. -/
theorem execute_noticed (log : Bool) : noticed (p.execute h vars ⟨log, false⟩ s) =
    ((p.outcome h (encodeBindings vars) asIs s).1.map (·.bind fun d => .ok (decoded d)),
      (p.outcome h (encodeBindings vars) asIs s).2.world) := by
  have hread (d : Datum) : (decoding Chain.builtin).read d =
      (asIs.read d).map (·.bind fun d => .ok (decoded d)) := by
    show ((Chain.builtin.decode d).map .ok : Option (Except Failure Value)) =
      some (.ok (decoded d))
    rw [decode_eq_decoded]
    rfl
  have hchain : h.chain ⟨log, false⟩ = Chain.builtin := rfl
  rw [execute, evaluate_eq_outcome, hchain, outcome_bind hread]
  rfl

variable {h p vars s} {log : Bool} {t : ScalarType} {f : Failure}

/-- Such a run gives a scalar if its script value is one. -/
theorem execute_eq_value_iff {x : t.Scalar} :
    (p.execute h vars ⟨log, false⟩ s).1 = some (.ok (t.value x)) ↔
      ∃ d, (p.outcome h (encodeBindings vars) asIs s).1 = some (.ok d) ∧
        d.unshared = t.datum x := by
  have hplain := (Prod.mk.inj (p.execute_noticed h vars s log)).1
  rw [hplain, map_bind_eq_ok_iff]
  simp only [Except.ok.injEq, t.decoded_eq_value_iff]

/-- It fails if there is no script value, since every value is decoded. -/
theorem execute_eq_error_iff : (p.execute h vars ⟨log, false⟩ s).1 = some (.error f) ↔
    (p.outcome h (encodeBindings vars) asIs s).1 = some (.error f) := by
  have hplain := (Prod.mk.inj (p.execute_noticed h vars s log)).1
  rw [hplain, map_bind_eq_error_iff, or_iff_left]
  rintro ⟨d, -, hvalue⟩
  cases hvalue

/-- A run that is asked for any type gives the content of its script value. -/
theorem evalAs_any_eq_ok_iff {content : Datum} :
    (p.evalAs h .any vars s).1 = some (.ok content) ↔
      ∃ d, (p.outcome h (encodeBindings vars) asIs s).1 = some (.ok d) ∧
        d.unshared = content := by
  have hany := (Prod.mk.inj (p.evalAs_noticed h vars s .any)).1
  rw [hany, map_bind_eq_ok_iff]
  simp only [NativeType.cast, NativeType.holds, if_true, Except.ok.injEq]

/-- A run gives a scalar of a type if the run without rules of the host's own gives the same. -/
theorem evalAs_eq_ok_iff (log : Bool) {r : Datum} :
    (p.evalAs h t.native vars s).1 = some (.ok r) ↔
      ∃ x, r = t.datum x ∧ (p.execute h vars ⟨log, false⟩ s).1 = some (.ok (t.value x)) := by
  have htyped := (Prod.mk.inj (p.evalAs_noticed h vars s t.native)).1
  rw [htyped, map_bind_eq_ok_iff]
  simp only [NativeType.cast_eq_ok_iff, execute_eq_value_iff]
  constructor
  · rintro ⟨d, hd, x, hr, hx⟩
    exact ⟨x, hr, d, hd, hx⟩
  · rintro ⟨x, hr, d, hd, hx⟩
    exact ⟨d, hd, x, hr, hx⟩

/-- It fails if that run does, or if its script value is no scalar of the type. -/
theorem evalAs_eq_error_iff (log : Bool) :
    (p.evalAs h t.native vars s).1 = some (.error f) ↔
      (p.execute h vars ⟨log, false⟩ s).1 = some (.error f) ∨
        ∃ d, (p.evalAs h .any vars s).1 = some (.ok d) ∧
          (∀ x, (p.execute h vars ⟨log, false⟩ s).1 ≠ some (.ok (t.value x))) ∧
          f = .projection t.native.name d.typeName := by
  have htyped := (Prod.mk.inj (p.evalAs_noticed h vars s t.native)).1
  rw [htyped, map_bind_eq_error_iff, execute_eq_error_iff]
  simp only [NativeType.cast_eq_error_iff, evalAs_any_eq_ok_iff, ne_eq, execute_eq_value_iff]
  refine or_congr_right ⟨?_, ?_⟩
  · rintro ⟨d, hd, hnone, hf⟩
    refine ⟨d.unshared, ⟨d, hd, rfl⟩, ?_, hf⟩
    rintro x ⟨d', hd', hx⟩
    obtain rfl : d = d' := Except.ok.inj (Option.some.inj (hd.symm.trans hd'))
    exact hnone x hx
  · rintro ⟨_, ⟨d, hd, rfl⟩, hnone, hf⟩
    exact ⟨d, hd, fun x hx => hnone x ⟨d, hd, hx⟩, hf⟩

/-- A text that a run gives is the text that the run without rules of the host's own gives. -/
theorem execute_of_evalAs_text (log : Bool) {n : NativeType} (hn : n ∈ [.text, .sharedText])
    {r : Datum} (hr : (p.evalAs h n vars s).1 = some (.ok r)) :
    ∃ text, r = .string text ∧
      (p.execute h vars ⟨log, false⟩ s).1 = some (.ok (.string text)) := by
  have htyped := (Prod.mk.inj (p.evalAs_noticed h vars s n)).1
  have hplain := (Prod.mk.inj (p.execute_noticed h vars s log)).1
  rw [htyped, map_bind_eq_ok_iff] at hr
  obtain ⟨d, hd, hcast⟩ := hr
  obtain ⟨text, rfl, hcontent⟩ := NativeType.cast_text hn hcast
  have hdecoded : decoded d = .string text := by
    rw [← decoded_unshared, hcontent]
    rfl
  refine ⟨text, rfl, ?_⟩
  rw [hplain, hd, ← hdecoded]
  rfl

end Prepared

/-- **Results of script types agree with decoded results.** A script value, with cells in it or not,
is given as a scalar of a type exactly if the built-in rules decode it as the same scalar, and it is
refused with its own type otherwise; a text that is given is decoded as that text. So a run that is
asked for a type gives a scalar exactly if the run without rules of the host's own gives the same
one. It fails as that run does or because its script value is no such scalar, meets no end exactly
if that run meets none, and does the same to the world. -/
theorem Prepared.evalAs_agrees {ω : Type} :
    (∀ (t : ScalarType) (d : Datum),
      (∀ x, t.native.projection.read d = some (.ok (t.datum x)) ↔
        Chain.builtin.decode d = some (t.value x)) ∧
      ((∀ x, Chain.builtin.decode d ≠ some (t.value x)) →
        t.native.projection.read d =
          some (.error (.projection t.native.name d.typeName)))) ∧
    (∀ n ∈ [NativeType.text, NativeType.sharedText], ∀ d r, n.projection.read d = some (.ok r) →
      ∃ text, r = .string text ∧ Chain.builtin.decode d = some (.string text)) ∧
    ∀ (h : Host ω) (p : Prepared) (vars : List (String × Value)) (log : Bool) (s : Store ω),
      let plain := p.execute h vars ⟨log, false⟩ s
      (∀ t : ScalarType, let typed := p.evalAs h t.native vars s
        (∀ r, typed.1 = some (.ok r) ↔
          ∃ x, r = t.datum x ∧ plain.1 = some (.ok (t.value x))) ∧
        (∀ f, typed.1 = some (.error f) ↔ plain.1 = some (.error f) ∨
          ∃ d, (p.evalAs h .any vars s).1 = some (.ok d) ∧
            (∀ x, plain.1 ≠ some (.ok (t.value x))) ∧
            f = .projection t.native.name d.typeName) ∧
        (typed.1 = none ↔ plain.1 = none) ∧ typed.2.world = plain.2.world) ∧
      ∀ n ∈ [NativeType.text, NativeType.sharedText], ∀ r, (p.evalAs h n vars s).1 = some (.ok r) →
        ∃ text, r = .string text ∧ plain.1 = some (.ok (.string text)) := by
  refine ⟨fun t d => ⟨fun x => read_eq_ok_iff, read_eq_error⟩,
    fun n hn d r hread => decode_of_read_text hn hread, fun h p vars log s => ?_⟩
  refine ⟨fun t => ⟨fun r => evalAs_eq_ok_iff log, fun f => evalAs_eq_error_iff log, ?_⟩,
    fun n hn r hr => execute_of_evalAs_text log hn hr⟩
  obtain ⟨htyped, htypedWorld⟩ := Prod.mk.inj (p.evalAs_noticed h vars s t.native)
  obtain ⟨hplain, hplainWorld⟩ := Prod.mk.inj (p.execute_noticed h vars s log)
  refine ⟨?_, htypedWorld.trans hplainWorld.symm⟩
  rw [htyped, hplain, Option.map_eq_none_iff, Option.map_eq_none_iff]

/-- The content of a shared cell is told like any integer, and a small integer of another type is
refused with the name of that type. -/
theorem Prepared.evalAs_agrees_cell :
    NativeType.int.projection.read (.shared (.int 7)) = some (.ok (.int 7)) ∧
      NativeType.int.projection.read (.sized .u8 7) = some (.error (.projection "i64" "u8")) := by
  obtain ⟨hread, -⟩ := evalAs_agrees (ω := Unit)
  have hcell : Chain.builtin.decode (.shared (.int 7)) = some (.int 7) :=
    decode_eq_decoded (.shared (.int 7))
  have hsmall : Chain.builtin.decode (.sized .u8 7) = some (.string "7") :=
    decode_eq_decoded (.sized .u8 7)
  refine ⟨((hread .int _).1 (7 : ℤ)).mpr hcell, (hread .int _).2 fun x hx => ?_⟩
  rw [hsmall] at hx
  cases hx

end ScriptHost
