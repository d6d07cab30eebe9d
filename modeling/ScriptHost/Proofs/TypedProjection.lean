import Mathlib
import ScriptHost.Projection.Native
import ScriptHost.Projection.Target
import ScriptHost.Proofs.CalendarText
import ScriptHost.Proofs.DecimalText
import ScriptHost.Proofs.Places
import ScriptHost.Proofs.VariableScripts

/-!
# Projection inverts binding

A value of a host type that is bound to a variable and asked for as that type again is the value
that was bound. On its way it is a host value, a script value, a host value again and JSON, where
dates and decimal numbers are texts.
-/

namespace ScriptHost

open Script

/-- Host types whose values can be bound and asked for again. -/
inductive HostType where
  /-- Integers of 64 bits. -/
  | int64
  /-- Truth values. -/
  | bool
  /-- Texts. -/
  | text
  /-- Integers that may be missing. -/
  | optional
  /-- Sequences of integers. -/
  | list
  /-- Mappings from texts to integers. -/
  | mapping
  /-- Finite floating-point numbers. -/
  | double
  /-- Decimal numbers, which are bound exactly as they are. -/
  | decimal
  /-- Days. -/
  | date
  /-- Times of the day. -/
  | time
  /-- Times of a day. -/
  | dateTime

namespace HostType

/-- An integer of 64 bits. -/
abbrev Word : Type := { i : ℤ // fitsInt64 i = true }

/-- The values of a type. -/
def Carrier : HostType → Type
  | int64 => Word
  | bool => Bool
  | text => String
  | optional => Option Word
  | list => List Word
  | mapping => { fields : List (String × Word) // Fields.Sorted fields }
  | double => { x : Float // Double.isFinite x = true }
  | decimal => Decimal
  | date => Date
  | time => Time
  | dateTime => DateTime

/-- What a value is bound as. -/
def value : (t : HostType) → t.Carrier → Value
  | int64, i => .int i.1
  | bool, b => .bool b
  | text, s => .string s
  | optional, none => .null
  | optional, some i => .int i.1
  | list, items => .list (items.map fun i => .int i.1)
  | mapping, fields => .map (fields.1.map fun p => (p.1, .int p.2.1))
  | double, x => .float x.1
  | decimal, d => .exact (.decimal d)
  | date, d => .date d
  | time, t => .time t
  | dateTime, t => .dateTime t

/-- What a type is asked for as. -/
def target : HostType → Target
  | int64 => ⟨"i64", .int64⟩
  | bool => ⟨"bool", .bool⟩
  | text => ⟨"alloc::string::String", .text⟩
  | optional => ⟨"core::option::Option<i64>", .optional .int64⟩
  | list => ⟨"alloc::vec::Vec<i64>", .list .int64⟩
  | mapping =>
    ⟨"alloc::collections::btree::map::BTreeMap<alloc::string::String, i64>", .mapping .int64⟩
  | double => ⟨"f64", .double⟩
  | decimal => ⟨NativeType.decimal.name, .decimal⟩
  | date => ⟨NativeType.date.name, .date⟩
  | time => ⟨NativeType.time.name, .time⟩
  | dateTime => ⟨NativeType.dateTime.name, .dateTime⟩

/-- The answer that is a value of a type; a decimal zero has no sign in it. -/
def answer : (t : HostType) → t.Carrier → Typed
  | int64, i => .int i.1
  | bool, b => .bool b
  | text, s => .text s
  | optional, none => .absent
  | optional, some i => .present (.int i.1)
  | list, items => .list (items.map fun i => .int i.1)
  | mapping, fields => .mapping (fields.1.map fun p => (p.1, .int p.2.1))
  | double, x => .double x.1
  | decimal, d => .decimal d.unsignZero
  | date, d => .date d
  | time, t => .time t
  | dateTime, t => .dateTime t

/-! ## Reading -/

/-- An integer of 64 bits is read. -/
theorem read_word (i : Word) : Schema.int64.read (.int i.1) = .ok (.int i.1) :=
  if_pos i.2

/-- A sequence of integers that has gone through a script, as JSON. -/
theorem toJson_words (items : List Word) :
    ((Value.list (items.map fun i => .int i.1)).normal true).toJson =
      .array (items.map fun i => .int i.1) := by
  rw [Value.normal, Value.normalItems_eq_map, Value.toJson_list, List.map_map, List.map_map]
  rfl

/-- A mapping to integers that has gone through a script, as JSON. -/
theorem toJson_fields (fields : List (String × Word)) :
    ((Value.map (fields.map fun p => (p.1, .int p.2.1))).normal true).toJson =
      .object (fields.map fun p => (p.1, .int p.2.1)) := by
  rw [Value.normal, Value.normalFields_eq_map, Value.toJson_map, List.map_map, List.map_map]
  rfl

/-- Integers are read one by one. -/
theorem mapM_read_words (items : List Word) :
    (items.map fun i => Json.int i.1).mapM Schema.int64.read =
      .ok (items.map fun i => .int i.1) := by
  induction items with
  | nil => rfl
  | cons i items ih =>
    rw [List.map_cons, List.mapM_cons, ih, read_word]
    rfl

/-- Fields are read one by one. -/
theorem mapM_read_fields (fields : List (String × Word)) :
    ((fields.map fun p => (p.1, Json.int p.2.1)).mapM fun p =>
        (Schema.int64.read p.2).map fun t => (p.1, t)) =
      .ok (fields.map fun p => (p.1, .int p.2.1)) := by
  induction fields with
  | nil => rfl
  | cons p fields ih =>
    rw [List.map_cons, List.mapM_cons, ih, read_word]
    rfl

/-- A decimal number is read from its text. -/
theorem read_decimal (d : Decimal) :
    Schema.decimal.read (.string d.text) = .ok (.decimal d.unsignZero) := by
  simp only [Schema.read, Schema.readDecimal, Decimal.ofText_text]

/-- What a reader reads from a text is read from the text as JSON. -/
theorem readText_ok {ε α : Type} {reader : String → Except ε α} {s : String} {a : α}
    (h : reader s = .ok a) (reason : ε → String) (make : α → Typed) (expected : String) :
    Schema.readText reader reason make expected (.string s) = .ok (make a) := by
  simp only [Schema.readText, h]

/-- **The JSON of a value is read back as the value.** -/
theorem read_value (t : HostType) (a : t.Carrier) :
    t.target.schema.read ((t.value a).normal true).toJson = .ok (t.answer a) := by
  cases t with
  | int64 => exact read_word a
  | bool => rfl
  | text => rfl
  | optional =>
    cases a with
    | none => rfl
    | some i =>
      show (Schema.int64.read (.int i.1)).map Typed.present = _
      rw [read_word]
      rfl
  | list =>
    refine (congrArg (Schema.list .int64).read (toJson_words a)).trans ?_
    exact congrArg (Except.map Typed.list) (mapM_read_words a)
  | mapping =>
    refine (congrArg (Schema.mapping .int64).read (toJson_fields a.1)).trans ?_
    exact congrArg (Except.map Typed.mapping) (mapM_read_fields a.1)
  | double =>
    show Schema.double.read (if Double.isFinite a.1 then .float a.1 else .null) = _
    rw [if_pos a.2]
    rfl
  | decimal => exact read_decimal a
  | date => exact readText_ok (Date.ofText_text a) _ _ _
  | time => exact readText_ok (Time.ofText_text a) _ _ _
  | dateTime => exact readText_ok (DateTime.ofText_text a) _ _ _

/-- The encoding of a value is projected to the value. -/
theorem projection_encode (t : HostType) (a : t.Carrier) :
    (t.target.projection Chain.builtin).read (encode (t.value a)) = some (.ok (t.answer a)) := by
  show (Chain.builtin.decode (encode (t.value a))).map t.target.ofValue = _
  rw [decode_encode, Option.map_some, Target.ofValue, read_value]

end HostType

variable {ω : Type} {h : Host ω} {registrations : List (Registration ω)}

/-- **Projection inverts binding.** A value that is bound to a variable and asked for by the name of
the variable, as the type that it has, is the value that was bound; only a decimal zero loses its
sign. The names of the bridge have to be identifiers, and none of them may be that of the
variable. -/
theorem Prepared.evalInto_variable (hbuild : Bridge.build registrations = .ok h.bridge)
    (hident : ∀ r ∈ registrations, isIdentifier r.name = true) (hlimits : h.config.IsOpen)
    (hdepth : h.config.maxExprDepth ≠ 1) (hrules : h.rules = Chain.builtin) {x : String}
    (hx : isIdentifier x = true) (hfree : isReserved x = false)
    (hvariable : ∀ r ∈ registrations, r.name ≠ x) {p : Prepared} (hp : p.IsFaithful h)
    (hsource : p.source = h.sourceOf x) {vars : List (String × Value)} (t : HostType)
    (a : t.Carrier) (hbound : boundTo? x vars = some (t.value a)) (s : Store ω) :
    (p.evalInto h t.target vars s).1 = some (.ok (t.answer a)) := by
  have hperm := Bridge.perm_of_build hbuild
  have hident' : ∀ f ∈ h.bridge.functions, isIdentifier f.1 = true := by
    simpa [hperm.mem_iff] using hident
  have hother : x ∉ h.bridge.names := by
    intro hmem
    obtain ⟨f, hf, rfl⟩ := List.mem_map.mp hmem
    obtain ⟨r, hr, rfl⟩ := List.mem_map.mp (hperm.mem_iff.mp hf)
    exact hvariable r hr rfl
  have hevaluated := Prepared.evaluate_variable hbuild hident' hlimits hdepth hx hfree hother hp
    hsource hbound h.config.defaultOptions (t.target.projection h.rules) s
  rw [hrules, t.projection_encode] at hevaluated
  rw [evalInto, hrules]
  exact congrArg Prod.fst hevaluated

/-- The last of two values of a name, a decimal number with a trailing zero, next to a host function
of another name. -/
theorem Prepared.evalInto_variable_decimal :
    let h : Host Unit := { bridge := ⟨[("f", Bridge.idle 1)]⟩ }
    ((h.prepare "x").evalInto h HostType.decimal.target
        [("x", .int 1), ("x", .exact (.decimal ⟨false, 150, 2, by decide, by decide⟩))]
        { world := () }).1 =
      some (.ok (.decimal ⟨false, 150, 2, by decide, by decide⟩)) := by
  intro h
  have hbuild : Bridge.build [⟨"f", Bridge.idle 1⟩] = .ok h.bridge := rfl
  exact Prepared.evalInto_variable hbuild (by decide +kernel) Config.isOpen_default (by decide) rfl
    (x := "x") (by decide +kernel) (by decide +kernel) (by decide)
    (Prepared.isFaithful_afresh h _) rfl .decimal ⟨false, 150, 2, by decide, by decide⟩ rfl _

/-- A variable with the name of a host function is not read: the name stands for the function. -/
theorem Prepared.evalInto_function_name :
    let h : Host Unit := { bridge := ⟨[("x", Bridge.idle 0)]⟩ }
    let answer := ((h.prepare "x").evalInto h HostType.int64.target [("x", .int 7)]
      { world := () }).1
    answer = some (.error (.projection "i64"
        "Callable(\"x\") (invalid type: string \"x\", expected i64)")) ∧
      answer ≠ some (.ok (.int 7)) := by
  intro h answer
  have hends : failsIn (·.projection? ==
      some ("i64", "Callable(\"x\") (invalid type: string \"x\", expected i64)"))
      answer = true := by decide +kernel
  obtain ⟨f, hf, htest⟩ := exists_of_failsIn hends
  rw [hf, Failure.eq_of_projection? (beq_iff_eq.mp htest)]
  exact ⟨rfl, by simp⟩

end ScriptHost
