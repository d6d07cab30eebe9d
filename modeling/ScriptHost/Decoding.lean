import ScriptHost.Encoding
import ScriptHost.Script.DatumText

/-!
# Decoding of script values

A chain of rules that turns script values into host values. Each rule resolves a value or passes one
on; what no rule resolves is decoded as a scalar, taken apart element by element through the whole
chain, or shown as text. Rules may pass on larger values than they were given, so decoding ends only
if they do not keep doing so.
-/

namespace ScriptHost

namespace Script

mutual

/-- The nesting of a value. -/
def Datum.height : Datum → Nat
  | .array items => heightItems items + 1
  | .map fields => heightFields fields + 1
  | .shared content => content.height + 1
  | _ => 1

/-- The greatest nesting of an item. -/
def heightItems : List Datum → Nat
  | [] => 0
  | d :: rest => max d.height (heightItems rest)

/-- The greatest nesting of a field. -/
def heightFields : List (String × Datum) → Nat
  | [] => 0
  | (_, d) :: rest => max d.height (heightFields rest)

end

end Script

open Script

/-- What a rule makes of a value. -/
inductive Verdict where
  /-- The host value. -/
  | resolved (v : Value)
  /-- A script value for the next rule. -/
  | pass (d : Datum)

/-- A rule. -/
abbrev Rule := Datum → Verdict

/-- Rules in the order in which they are asked. -/
structure Chain where
  /-- The rules. -/
  rules : List Rule

/-- The rule that decodes scalars. -/
def scalarRule : Rule := fun d =>
  match decodeScalar? d with
  | some v => .resolved v
  | none => .pass d

namespace Chain

/-- The chain with the scalar rule alone. -/
def builtin : Chain := ⟨[scalarRule]⟩

/-- The chain with one more rule at its end. -/
def append (chain : Chain) (t : Rule) : Chain := ⟨chain.rules ++ [t]⟩

/-- The number of rules. -/
def size (chain : Chain) : Nat := chain.rules.length

/-- Ask the rules in order until one resolves the value. -/
def ask : List Rule → Datum → Verdict
  | [], d => .pass d
  | t :: rest, d =>
    match t d with
    | .resolved v => .resolved v
    | .pass d => ask rest d

/-- Decode with an element decoder: what the rules resolve, else scalars, containers element by
element, function pointers by name, and all else as text. -/
def decodeBy (chain : Chain) (element : Datum → Option Value) (d : Datum) : Option Value :=
  match ask chain.rules d with
  | .resolved v => some v
  | .pass d =>
    match decodeScalar? d with
    | some v => some v
    | none =>
      match d.unshared with
      | .array items => (items.mapM element).map .list
      | .map fields => (fields.mapM fun p => (element p.2).map (p.1, ·)).map .map
      | .blob bytes => some (.list (bytes.map fun (b : Nat) => .int b))
      | .fnPtr name _ => some (.callable name)
      | d => some (.string d.text)

/-- Decode a value with elements nested less than `bound` deep. -/
def decodeWithin (chain : Chain) : (bound : Nat) → Datum → Option Value
  | 0, _ => none
  | bound + 1, d => chain.decodeBy (chain.decodeWithin bound) d

/-- An element decoder that answers more makes a list of elements answer more. -/
theorem mapM_mono {α β : Type} {f g : α → Option β} (hle : ∀ a b, f a = some b → g a = some b)
    {as : List α} {bs : List β} (h : as.mapM f = some bs) : as.mapM g = some bs := by
  induction as generalizing bs with
  | nil => exact h
  | cons a as ih =>
    rw [List.mapM_cons] at h ⊢
    obtain ⟨b, hb, h⟩ := Option.bind_eq_some_iff.mp h
    obtain ⟨rest, hrest, h⟩ := Option.bind_eq_some_iff.mp h
    exact Option.bind_eq_some_iff.mpr ⟨b, hle a b hb, Option.bind_eq_some_iff.mpr ⟨rest, ih hrest, h⟩⟩

/-- An element decoder that answers more makes a chain answer more. -/
theorem decodeBy_mono (chain : Chain) {f g : Datum → Option Value}
    (hle : ∀ d v, f d = some v → g d = some v) {d : Datum} {v : Value}
    (h : chain.decodeBy f d = some v) : chain.decodeBy g d = some v := by
  unfold decodeBy at h ⊢
  split at h
  · exact h
  · split at h
    · exact h
    · split at h
      · obtain ⟨vs, hvs, rfl⟩ := Option.map_eq_some_iff.mp h
        rw [mapM_mono hle hvs]
        rfl
      · obtain ⟨vs, hvs, rfl⟩ := Option.map_eq_some_iff.mp h
        rw [mapM_mono (fun p q hp => ?_) hvs]
        · rfl
        · obtain ⟨w, hw, rfl⟩ := Option.map_eq_some_iff.mp hp
          rw [hle p.2 w hw]
          rfl
      all_goals exact h

section

variable (chain : Chain)

/-- Decode a value with elements nested at any depth. -/
def decodeUnbounded (d : Datum) : Option Value :=
  -- The recursion is named by a tactic so that no position in the text gets into the definition.
  chain.decodeBy (by apply decodeUnbounded) d
partial_fixpoint monotonicity by
  intro f g hle d
  have hanswers (d : Datum) (v : Value) (hd : f d = some v) : g d = some v := by
    have hd' := hle d
    rw [hd] at hd'
    generalize g d = answer at hd' ⊢
    cases hd'
    rfl
  dsimp only
  cases h : chain.decodeBy f d with
  | none => exact .bot
  | some v =>
    rw [chain.decodeBy_mono hanswers h]
    exact .refl

end

/-- How much deeper than the value itself elements are looked for at first. -/
def reserve : Nat := 100000

/-- Decode a value; `none` if the rules keep passing on deeper values. Unless they pass on very deep
ones, a bound suffices, and decoding with a bound can be computed by reduction alone. -/
def decode (chain : Chain) (d : Datum) : Option Value :=
  match chain.decodeWithin (d.height + reserve) d with
  | some v => some v
  | none => chain.decodeUnbounded d

/-- What is found within the first bound is the host value. -/
theorem decode_of_decodeWithin {chain : Chain} {d : Datum} {v : Value}
    (h : chain.decodeWithin (d.height + reserve) d = some v) : chain.decode d = some v := by
  rw [decode, h]

/-- The text of a chain in logs. -/
def describe (chain : Chain) : String :=
  "TranslatorChain \x7b translators: " ++ toString chain.size ++ " \x7d"

end Chain

end ScriptHost
