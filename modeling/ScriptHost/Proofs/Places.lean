import Mathlib
import ScriptHost.Proofs.Fields
import ScriptHost.Value.Json

/-!
# Places in a value

A part of a host value or of a JSON value is found by the keys and numbers that lead to it. The JSON
of a host value has the same places, and at each of them the JSON of what stands there.
-/

namespace ScriptHost

/-- What leads from a value to one of its parts: a key of a mapping or the number of an item. -/
inductive Label where
  /-- A key. -/
  | key (k : String)
  /-- A number, from 0. -/
  | index (i : ℕ)
  deriving DecidableEq

/-- The text of a label. -/
def Label.text : Label → String
  | key k => k
  | index i => toString i

namespace Value

/-- The value under the exact marks around it. -/
def underMarks : Value → Value
  | exact inner => inner.underMarks
  | v => v

/-- The part at a label; exact marks do not hide it. -/
def part? (v : Value) : Label → Option Value
  | .key k => v.underMarks.get? k
  | .index i => v.underMarks.asList?.bind (·[i]?)

/-- What stands at a place. -/
def at? : List Label → Value → Option Value
  | [], v => some v
  | label :: place, v => (v.part? label).bind (at? place)

/-- What stands at a place behind another. -/
theorem at?_append (place inner : List Label) (v : Value) :
    v.at? (place ++ inner) = (v.at? place).bind (at? inner) := by
  induction place generalizing v with
  | nil => rfl
  | cons label place ih =>
    rw [List.cons_append, at?, at?, Option.bind_assoc]
    exact Option.bind_congr fun w _ => ih w

end Value

namespace Json

/-- The part at a label. -/
def part? : Json → Label → Option Json
  | object fields, .key k => Fields.get? k fields
  | array items, .index i => items[i]?
  | _, _ => none

/-- What stands at a place. -/
def at? : List Label → Json → Option Json
  | [], j => some j
  | label :: place, j => (j.part? label).bind (at? place)

end Json

namespace Value

/-! ## The JSON of a value, part by part -/

/-- The JSON of items is the JSON of each of them. -/
theorem toJson_list (items : List Value) : (list items).toJson = .array (items.map toJson) := by
  have hitems : toJsonItems items = items.map toJson := by
    induction items with
    | nil => rfl
    | cons v rest ih => rw [toJsonItems, List.map_cons, ih]
  rw [toJson, hitems]

/-- The JSON of fields is the JSON of each value under its key. -/
theorem toJson_map (fields : List (String × Value)) :
    (map fields).toJson = .object (fields.map fun p => (p.1, p.2.toJson)) := by
  have hfields : toJsonFields fields = fields.map fun p => (p.1, p.2.toJson) := by
    induction fields with
    | nil => rfl
    | cons field rest ih => rw [toJsonFields, List.map_cons, ih]
  rw [toJson, hfields]

/-- Exact marks do not show in JSON. -/
theorem toJson_underMarks : ∀ v : Value, v.underMarks.toJson = v.toJson
  | exact inner => toJson_underMarks inner
  | null | bool _ | int _ | float _ | decimal _ | bigInt _ | string _ | date _ | time _
  | dateTime _ | list _ | map _ | handle _ | callable _ => rfl

/-- Under the marks there are none. -/
theorem underMarks_ne_exact : ∀ v inner : Value, v.underMarks ≠ exact inner
  | exact v, inner => underMarks_ne_exact v inner
  | null, _ | bool _, _ | int _, _ | float _, _ | decimal _, _ | bigInt _, _ | string _, _
  | date _, _ | time _, _ | dateTime _, _ | list _, _ | map _, _ | handle _, _
  | callable _, _ => nofun

/-- What is neither a mapping nor a sequence has no parts, and its JSON has none. -/
theorem toJson_part?_scalar {v : Value} (hlist : ∀ items, v ≠ list items)
    (hmap : ∀ fields, v ≠ map fields) (hexact : ∀ inner, v ≠ exact inner) (label : Label) :
    v.toJson.part? label = none ∧ v.get? label.text = none ∧ v.asList? = none := by
  cases v with
  | list items => exact absurd rfl (hlist items)
  | map fields => exact absurd rfl (hmap fields)
  | exact inner => exact absurd rfl (hexact inner)
  | float x =>
    rw [toJson]
    split <;> exact ⟨rfl, rfl, rfl⟩
  | bigInt i =>
    rw [toJson]
    split <;> exact ⟨rfl, rfl, rfl⟩
  | _ => exact ⟨rfl, rfl, rfl⟩

/-- The JSON of a value has its parts, as JSON. -/
theorem toJson_part? (v : Value) (label : Label) :
    v.toJson.part? label = (v.part? label).map toJson := by
  have hmarks := underMarks_ne_exact v
  rw [← toJson_underMarks v]
  unfold part?
  generalize v.underMarks = w at hmarks ⊢
  by_cases hlist : ∃ items, w = list items
  · obtain ⟨items, rfl⟩ := hlist
    rw [toJson_list]
    cases label with
    | key k => rfl
    | index i => exact List.getElem?_map
  by_cases hmap : ∃ fields, w = map fields
  · obtain ⟨fields, rfl⟩ := hmap
    rw [toJson_map]
    cases label with
    | key k => exact Fields.get?_map toJson k fields
    | index i => rfl
  · have hnone := toJson_part?_scalar (fun items h => hlist ⟨items, h⟩)
      (fun fields h => hmap ⟨fields, h⟩) hmarks label
    rw [hnone.1]
    cases label with
    | key k => exact congrArg (Option.map toJson) hnone.2.1.symm
    | index i =>
      dsimp only
      rw [hnone.2.2]
      rfl

/-- **The JSON of a value has the same places**, and at each the JSON of what stands there. -/
theorem toJson_at? (place : List Label) (v : Value) :
    v.toJson.at? place = (v.at? place).map toJson := by
  induction place generalizing v with
  | nil => rfl
  | cons label place ih =>
    rw [Json.at?, at?, toJson_part?]
    cases v.part? label with
    | none => rfl
    | some w => exact ih w

end Value

end ScriptHost
