import Mathlib
import ScriptHost.Proofs.Encoding

/-!
# Values that come from a script

What a chain decodes with some bound is what it decodes without any. The built-in chain decodes
every script value, with any bound that its nesting keeps, and it looks into shared cells. A value
made of what both sides know comes back as it was when it is encoded again.
-/

namespace ScriptHost

open Script

namespace Script

/-- An item is nested at most as much as all items. -/
theorem height_le_heightItems {items : List Datum} {d : Datum} (h : d ∈ items) :
    d.height ≤ heightItems items := by
  induction items with
  | nil => cases h
  | cons first rest ih =>
    rw [heightItems]
    rcases List.mem_cons.mp h with rfl | h
    · exact le_max_left _ _
    · exact (ih h).trans (le_max_right _ _)

/-- A field is nested at most as much as all fields. -/
theorem height_le_heightFields {fields : List (String × Datum)} {p : String × Datum}
    (h : p ∈ fields) : p.2.height ≤ heightFields fields := by
  induction fields with
  | nil => cases h
  | cons first rest ih =>
    rw [heightFields]
    rcases List.mem_cons.mp h with rfl | h
    · exact le_max_left _ _
    · exact (ih h).trans (le_max_right _ _)

/-- Shared cells are one more nesting. -/
theorem height_unshared_le : ∀ d : Datum, d.unshared.height ≤ d.height
  | .shared d => (height_unshared_le d).trans (Nat.le_succ _)
  | .unit | .bool _ | .int _ | .float _ | .decimal _ | .bigInt _ | .string _ | .char _ | .date _
  | .time _ | .dateTime _ | .array _ | .blob _ | .map _ | .fnPtr .. | .range .. | .rangeInclusive ..
  | .steps .. | .handle _ | .failure _ | .sized .. | .single _ | .foreign _ => le_rfl

/-- There is no cell inside the content of a cell. -/
theorem unshared_unshared : ∀ d : Datum, d.unshared.unshared = d.unshared
  | .shared d => unshared_unshared d
  | .unit | .bool _ | .int _ | .float _ | .decimal _ | .bigInt _ | .string _ | .char _ | .date _
  | .time _ | .dateTime _ | .array _ | .blob _ | .map _ | .fnPtr .. | .range .. | .rangeInclusive ..
  | .steps .. | .handle _ | .failure _ | .sized .. | .single _ | .foreign _ => rfl

end Script

/-! ## Decoding with a bound and without -/

/-- If every answer for an element is given from some bound on, so is every answer for a list. -/
theorem exists_mapM {α β : Type} {f : α → Option β} {g : ℕ → α → Option β}
    (hmono : ∀ m n, m ≤ n → ∀ a b, g m a = some b → g n a = some b)
    (h : ∀ a b, f a = some b → ∃ n, g n a = some b) {as : List α} {bs : List β}
    (has : as.mapM f = some bs) : ∃ n, as.mapM (g n) = some bs := by
  induction as generalizing bs with
  | nil => exact ⟨0, has⟩
  | cons a as ih =>
    rw [List.mapM_cons] at has
    obtain ⟨b, hb, has⟩ := Option.bind_eq_some_iff.mp has
    obtain ⟨rest, hrest, has⟩ := Option.bind_eq_some_iff.mp has
    obtain ⟨m, hm⟩ := h a b hb
    obtain ⟨n, hn⟩ := ih hrest
    refine ⟨max m n, ?_⟩
    rw [List.mapM_cons, hmono m _ (le_max_left m n) a b hm,
      Chain.mapM_mono (hmono n _ (le_max_right m n)) hn]
    exact has

namespace Chain

variable {c : Chain} {bound : ℕ} {d : Datum} {v : Value}

/-- A greater bound changes no host value. -/
theorem decodeWithin_mono {bound' : ℕ} (hle : bound ≤ bound')
    (h : c.decodeWithin bound d = some v) : c.decodeWithin bound' d = some v := by
  induction bound generalizing bound' d v with
  | zero => cases h
  | succ n ih =>
    obtain ⟨n', rfl⟩ : ∃ n', bound' = n' + 1 := ⟨bound' - 1, by omega⟩
    exact c.decodeBy_mono (fun _ _ hd => ih (by omega) hd) h

/-- What is found within a bound is found without it. -/
theorem decodeUnbounded_of_decodeWithin (h : c.decodeWithin bound d = some v) :
    c.decodeUnbounded d = some v := by
  induction bound generalizing d v with
  | zero => cases h
  | succ n ih =>
    rw [decodeUnbounded]
    exact c.decodeBy_mono (fun _ _ hd => ih hd) h

/-- Bounds for the elements of a value give a bound for the value. -/
theorem exists_decodeBy {f : Datum → Option Value}
    (h : ∀ d v, f d = some v → ∃ bound, c.decodeWithin bound d = some v)
    (hd : c.decodeBy f d = some v) : ∃ bound, c.decodeBy (c.decodeWithin bound) d = some v := by
  unfold decodeBy at hd ⊢
  split at hd
  · exact ⟨0, hd⟩
  · split at hd
    · exact ⟨0, hd⟩
    · split at hd
      · obtain ⟨vs, hvs, rfl⟩ := Option.map_eq_some_iff.mp hd
        obtain ⟨n, hn⟩ := exists_mapM (g := c.decodeWithin)
          (fun _ _ hle _ _ => decodeWithin_mono hle) h hvs
        exact ⟨n, by rw [hn]; rfl⟩
      · obtain ⟨vs, hvs, rfl⟩ := Option.map_eq_some_iff.mp hd
        have hfield (p : String × Datum) (q : String × Value)
            (hp : (f p.2).map (p.1, ·) = some q) :
            ∃ n, (c.decodeWithin n p.2).map (p.1, ·) = some q := by
          obtain ⟨w, hw, rfl⟩ := Option.map_eq_some_iff.mp hp
          obtain ⟨n, hn⟩ := h p.2 w hw
          exact ⟨n, by rw [hn]; rfl⟩
        have hmono (m n : ℕ) (hle : m ≤ n) (p : String × Datum) (q : String × Value)
            (hp : (c.decodeWithin m p.2).map (p.1, ·) = some q) :
            (c.decodeWithin n p.2).map (p.1, ·) = some q := by
          obtain ⟨w, hw, rfl⟩ := Option.map_eq_some_iff.mp hp
          rw [decodeWithin_mono hle hw]
          rfl
        obtain ⟨n, hn⟩ := exists_mapM
          (g := fun n (p : String × Datum) => (c.decodeWithin n p.2).map (p.1, ·)) hmono hfield hvs
        exact ⟨n, by rw [hn]; rfl⟩
      all_goals exact ⟨0, hd⟩

/-- The first bound does not matter. -/
theorem decode_eq_decodeUnbounded (c : Chain) (d : Datum) : c.decode d = c.decodeUnbounded d := by
  rw [decode]
  cases h : c.decodeWithin (d.height + reserve) d with
  | none => rfl
  | some v => rw [decodeUnbounded_of_decodeWithin h]

/-- **Decoding is its own element decoder.** A value is decoded by its rules, and its elements are
decoded in the same way. -/
theorem decode_eq_decodeBy (c : Chain) (d : Datum) : c.decode d = c.decodeBy c.decode d := by
  rw [funext c.decode_eq_decodeUnbounded]
  exact decodeUnbounded.eq_1 c d

/-- A host value is found exactly if it is found within some bound. -/
theorem decode_eq_some_iff :
    c.decode d = some v ↔ ∃ bound, c.decodeWithin bound d = some v := by
  rw [decode_eq_decodeUnbounded]
  constructor
  · refine decodeUnbounded.partial_correctness c
      (fun d v => ∃ bound, c.decodeWithin bound d = some v) (fun f hf d v hd => ?_) d v
    obtain ⟨n, hn⟩ := exists_decodeBy hf hd
    exact ⟨n + 1, hn⟩
  · rintro ⟨bound, h⟩
    exact decodeUnbounded_of_decodeWithin h

end Chain

/-! ## Every value is decoded -/

/-- Two functions that have the same answers for all elements have them for the list. -/
theorem mapM_agree {α β : Type} {f g : α → Option β} {as : List α}
    (h : ∀ a ∈ as, ∃ b, f a = some b ∧ g a = some b) :
    ∃ bs, as.mapM f = some bs ∧ as.mapM g = some bs := by
  induction as with
  | nil => exact ⟨[], rfl, rfl⟩
  | cons a as ih =>
    obtain ⟨b, hf, hg⟩ := h a List.mem_cons_self
    obtain ⟨bs, hfs, hgs⟩ := ih fun c hc => h c (List.mem_cons_of_mem a hc)
    exact ⟨b :: bs, by simp [hf, hfs], by simp [hg, hgs]⟩

namespace Chain

/-- Bounds that the nesting of values keeps do not matter, and shared cells neither. -/
theorem decodeWithin_agree (bound bound' : ℕ) {d d' : Datum} (hd : d.height ≤ bound)
    (hd' : d'.height ≤ bound') (hsame : d.unshared = d'.unshared) :
    ∃ v, builtin.decodeWithin bound d = some v ∧ builtin.decodeWithin bound' d' = some v := by
  induction bound generalizing bound' d d' with
  | zero => exact absurd d.height_pos (by omega)
  | succ n ih =>
    have hpos := d'.height_pos
    obtain ⟨n', rfl⟩ : ∃ n', bound' = n' + 1 := ⟨bound' - 1, by omega⟩
    rw [decodeWithin, decodeWithin, decodeBy_builtin, decodeBy_builtin]
    have hscalar : decodeScalar? d = decodeScalar? d' := by rw [decodeScalar?, decodeScalar?, hsame]
    have hunshared := height_unshared_le d
    have hunshared' := height_unshared_le d'
    rw [← hsame] at hunshared'
    rw [← hsame, ← hscalar]
    cases decodeScalar? d with
    | some v => exact ⟨v, rfl, rfl⟩
    | none =>
      dsimp only
      cases hcontent : d.unshared with
      | array items =>
        rw [hcontent, Datum.height] at hunshared hunshared'
        have hitem : ∀ d ∈ items, ∃ v, builtin.decodeWithin n d = some v ∧
            builtin.decodeWithin n' d = some v := by
          intro d hd
          have hheight := height_le_heightItems hd
          exact ih n' (by omega) (by omega) rfl
        obtain ⟨vs, hvs, hvs'⟩ := mapM_agree hitem
        exact ⟨.list vs, by simp [hvs], by simp [hvs']⟩
      | map fields =>
        rw [hcontent, Datum.height] at hunshared hunshared'
        have hfield : ∀ p ∈ fields, ∃ q, (builtin.decodeWithin n p.2).map (p.1, ·) = some q ∧
            (builtin.decodeWithin n' p.2).map (p.1, ·) = some q := by
          intro p hp
          have hheight := height_le_heightFields hp
          have hwithin : p.2.height ≤ n := by omega
          obtain ⟨v, hv, hv'⟩ := ih n' hwithin (show p.2.height ≤ n' by omega) rfl
          exact ⟨(p.1, v), by simp [hv], by simp [hv']⟩
        obtain ⟨vs, hvs, hvs'⟩ := mapM_agree hfield
        exact ⟨.map vs, by simp [hvs], by simp [hvs']⟩
      | _ => exact ⟨_, rfl, rfl⟩

/-- Every value is decoded. -/
theorem exists_decode (d : Datum) : ∃ v, builtin.decode d = some v := by
  have hheight : d.height ≤ d.height + reserve := Nat.le_add_right _ _
  obtain ⟨v, hv, -⟩ := decodeWithin_agree _ _ hheight hheight rfl
  exact ⟨v, decode_of_decodeWithin hv⟩

/-- A shared cell is decoded like its content. -/
theorem decode_unshared (d : Datum) : builtin.decode d.unshared = builtin.decode d := by
  obtain ⟨v, hv, hv'⟩ := decodeWithin_agree (d.unshared.height + reserve) (d.height + reserve)
    (Nat.le_add_right _ _) (Nat.le_add_right _ _) (unshared_unshared d)
  rw [decode_of_decodeWithin hv, decode_of_decodeWithin hv']

end Chain

/-- The host value of a script value, by the built-in rules. -/
def decoded (d : Datum) : Value := (Chain.builtin.decode d).getD .null

/-- The built-in chain gives the host value. -/
theorem decode_eq_decoded (d : Datum) : Chain.builtin.decode d = some (decoded d) := by
  obtain ⟨v, hv⟩ := Chain.exists_decode d
  rw [decoded, hv]
  rfl

/-- A shared cell has the host value of its content. -/
theorem decoded_unshared (d : Datum) : decoded d.unshared = decoded d := by
  rw [decoded, decoded, Chain.decode_unshared]

/-- What a script gets back for a host value that it has been given. -/
theorem decoded_encode (v : Value) : decoded (encode v) = v.normal true := by
  rw [decoded, decode_encode]
  rfl

/-- Values are decoded one by one. -/
theorem mapM_decode (ds : List Datum) :
    ds.mapM Chain.builtin.decode = some (ds.map decoded) := by
  induction ds with
  | nil => rfl
  | cons d ds ih => simp [decode_eq_decoded, ih]

/-! ## Values that both sides know -/

namespace Script

mutual

/-- Whether a value is made of empty values, truth values, integers, floating-point numbers, texts,
dates, times, objects of the host, arrays and maps. -/
def Datum.isPlain : Datum → Bool
  | .unit | .bool _ | .int _ | .float _ | .string _ | .date _ | .time _ | .dateTime _
  | .handle _ => true
  | .array items => arePlain items
  | .map fields => areFieldsPlain fields
  | _ => false

/-- Whether all items are so made. -/
def arePlain : List Datum → Bool
  | [] => true
  | d :: rest => d.isPlain && arePlain rest

/-- Whether all fields are so made. -/
def areFieldsPlain : List (String × Datum) → Bool
  | [] => true
  | (_, d) :: rest => d.isPlain && areFieldsPlain rest

end

end Script

mutual

/-- A plain value is the encoding of its host value, within any bound that its nesting keeps. -/
theorem encode_decodeWithin : ∀ (d : Datum), d.isPlain = true → ∀ bound, d.height ≤ bound →
    ∃ v, Chain.builtin.decodeWithin bound d = some v ∧ encode v = d
  | .unit, _, n + 1, _ => ⟨.null, Chain.decodeWithin_scalar rfl, rfl⟩
  | .bool b, _, n + 1, _ => ⟨.bool b, Chain.decodeWithin_scalar rfl, rfl⟩
  | .int i, _, n + 1, _ => ⟨.int i, Chain.decodeWithin_scalar rfl, rfl⟩
  | .float x, _, n + 1, _ => ⟨.float x, Chain.decodeWithin_scalar rfl, rfl⟩
  | .string s, _, n + 1, _ => ⟨.string s, Chain.decodeWithin_scalar rfl, rfl⟩
  | .date d, _, n + 1, _ => ⟨.date d, Chain.decodeWithin_scalar rfl, rfl⟩
  | .time t, _, n + 1, _ => ⟨.time t, Chain.decodeWithin_scalar rfl, rfl⟩
  | .dateTime t, _, n + 1, _ => ⟨.dateTime t, Chain.decodeWithin_scalar rfl, rfl⟩
  | .handle id, _, n + 1, _ => ⟨.handle id, Chain.decodeWithin_scalar rfl, rfl⟩
  | .array items, hplain, n + 1, hheight => by
    rw [Datum.height, Nat.add_le_add_iff_right] at hheight
    rw [Datum.isPlain] at hplain
    obtain ⟨vs, hvs, hitems⟩ := encode_mapM_items items hplain n hheight
    refine ⟨.list vs, ?_, congrArg Datum.array hitems⟩
    rw [Chain.decodeWithin, Chain.decodeBy_builtin]
    show (items.mapM (Chain.builtin.decodeWithin n)).map Value.list = _
    rw [hvs]
    rfl
  | .map fields, hplain, n + 1, hheight => by
    rw [Datum.height, Nat.add_le_add_iff_right] at hheight
    rw [Datum.isPlain] at hplain
    obtain ⟨vs, hvs, hfields⟩ := encode_mapM_fields fields hplain n hheight
    refine ⟨.map vs, ?_, congrArg Datum.map hfields⟩
    rw [Chain.decodeWithin, Chain.decodeBy_builtin]
    show (fields.mapM fun p => (Chain.builtin.decodeWithin n p.2).map (p.1, ·)).map Value.map = _
    rw [hvs]
    rfl

/-- `encode_decodeWithin` for every item. -/
theorem encode_mapM_items : ∀ (items : List Datum), arePlain items = true → ∀ bound,
    heightItems items ≤ bound →
      ∃ vs, items.mapM (Chain.builtin.decodeWithin bound) = some vs ∧ encodeItems true vs = items
  | [], _, _, _ => ⟨[], rfl, rfl⟩
  | d :: rest, hplain, bound, hheight => by
    rw [heightItems, max_le_iff] at hheight
    rw [arePlain, Bool.and_eq_true] at hplain
    obtain ⟨v, hv, hd⟩ := encode_decodeWithin d hplain.1 bound hheight.1
    obtain ⟨vs, hvs, hrest⟩ := encode_mapM_items rest hplain.2 bound hheight.2
    refine ⟨v :: vs, by simp [hv, hvs], ?_⟩
    rw [encodeItems, hrest]
    exact congrArg (· :: rest) hd

/-- `encode_decodeWithin` for every field. -/
theorem encode_mapM_fields : ∀ (fields : List (String × Datum)), areFieldsPlain fields = true →
    ∀ bound, heightFields fields ≤ bound →
      ∃ vs, fields.mapM (fun p => (Chain.builtin.decodeWithin bound p.2).map (p.1, ·)) = some vs ∧
        encodeFields true vs = fields
  | [], _, _, _ => ⟨[], rfl, rfl⟩
  | (k, d) :: rest, hplain, bound, hheight => by
    rw [heightFields, max_le_iff] at hheight
    rw [areFieldsPlain, Bool.and_eq_true] at hplain
    obtain ⟨v, hv, hd⟩ := encode_decodeWithin d hplain.1 bound hheight.1
    obtain ⟨vs, hvs, hrest⟩ := encode_mapM_fields rest hplain.2 bound hheight.2
    refine ⟨(k, v) :: vs, by simp [hv, hvs], ?_⟩
    rw [encodeFields, hrest]
    exact congrArg (fun d => (k, d) :: rest) hd

end

/-- **A plain value comes back as it was.** Its host value is encoded as the value itself. -/
theorem encode_decoded {d : Datum} (h : d.isPlain = true) : encode (decoded d) = d := by
  obtain ⟨v, hv, hencode⟩ := encode_decodeWithin d h _ (Nat.le_add_right d.height Chain.reserve)
  rw [decoded, Chain.decode_of_decodeWithin hv]
  exact hencode

end ScriptHost
