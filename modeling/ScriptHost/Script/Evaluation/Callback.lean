import ScriptHost.Script.Evaluation.Basic

/-!
# Functions that call back

Functions on arrays and maps that take a function pointer. A callback gets as many arguments as it
has parameters: the item alone as its object, the item as an argument, or the index as well. What a
callback counts as operations is forgotten after it.
-/

namespace ScriptHost.Script.Evaluation

variable {ω : Type}

/-- A function pointer that a native function calls back. -/
structure Callback where
  /-- The function that calls back. -/
  caller : String
  /-- The name that the pointer carries. -/
  name : String
  /-- The curried arguments. -/
  curried : List Capture
  /-- Where the caller is called. -/
  pos : Position

namespace Callback

/-- Call back once, with an object or without; gives the value and what is left of the object. -/
def once (c : Callback) (e : Engine ω) (ev : Evaluator ω) (self : Option Datum)
    (args : List Datum) : Run ω Effect := fun m =>
  let nested := if (closure? e c.name).isSome then m.level else m.level + 1
  let slots := args.map Slot.own
  let run : Run ω Effect :=
    match self with
    | some d => (callPointerOn e ev c.name c.curried slots .place c.pos).asEffect d
    | none => return (← callPointer e ev c.name c.curried slots c.pos, none)
  match run { m with level := nested } with
  | (o, after) => (o, { after with operations := m.operations, level := m.level })

/-- Whether a fault says that the function of a callback is not there. -/
def isMissing (c : Callback) : Fault → Bool
  | .raised (.functionNotFound signature) _ => signature.startsWith c.name
  | _ => false

/-- The first of some runs that does not end because the function is not there; every other fault
is a fault inside the caller. -/
def firstPresent (c : Callback) : List (Run ω Effect) → Run ω Effect
  | [] => .raise (.functionNotFound c.name) c.pos
  | r :: rest => fun m =>
    match r m with
    | (.fault f, after) =>
      if c.isMissing f && !rest.isEmpty then firstPresent c rest m
      else (.fault (.inCall c.caller "" f c.pos), after)
    | o => o

/-- Call back on an item with further arguments. The item is the object, or the argument at `place`
if the function has a parameter for it; the extra arguments are passed if it has parameters for
them too. -/
def onItem (c : Callback) (e : Engine ω) (ev : Evaluator ω) (item : Option Datum)
    (args extras : List Datum) (place : Nat) : Run ω Effect :=
  let withItem (args : List Datum) : List Datum :=
    match item with
    | some d => args.insertIdx place d
    | none => args
  let hasItem := item.isSome
  let wanted := (closure? e c.name).map fun f => f.params.length - c.curried.length
  if wanted == some args.length then c.once e ev item args
  else if hasItem && wanted == some (args.length + 1) then c.once e ev none (withItem args)
  else if wanted == some (args.length + extras.length) then c.once e ev item (args ++ extras)
  else if hasItem && wanted == some (args.length + extras.length + 1) then
    c.once e ev none (withItem args ++ extras)
  else
    c.firstPresent
      ([c.once e ev item args] ++
        (if hasItem then [c.once e ev none (withItem args)] else []) ++
        [c.once e ev item (args ++ extras)] ++
        (if hasItem then [c.once e ev none (withItem args ++ extras)] else []))

/-- Call back on the item of an array; gives the value and what is left of the item. -/
def onElement (c : Callback) (e : Engine ω) (ev : Evaluator ω) (index : Nat) (d : Datum) :
    Run ω (Datum × Datum) := do
  let (v, left) ← c.onItem e ev (some d) [] [.int index] 0
  pure (v, left.getD d)

/-- A truth value; all else is false. -/
def isTrue (d : Datum) : Bool :=
  match d.unshared with
  | .bool b => b
  | _ => false

/-- Visit items in order until an answer stops the visit; gives the answers and what is left of
the visited items. -/
def visit (call : Nat → Datum → Run ω (Datum × Datum)) (stop : Datum → Bool) :
    Nat → List Datum → Run ω (List Datum × List Datum)
  | _, [] => pure ([], [])
  | n, d :: rest => do
    let (v, left) ← call n d
    if stop v then pure ([v], [left])
    else
      let (vs, ds) ← visit call stop (n + 1) rest
      pure (v :: vs, left :: ds)

/-- Combine items one after the other with what came before. -/
def combine (c : Callback) (e : Engine ω) (ev : Evaluator ω) :
    List (Nat × Datum) → Datum → Run ω Datum
  | [], acc => pure acc
  | (i, d) :: rest, acc => do
    let (v, _) ← c.onItem e ev none [acc, d] [.int i] 1
    combine c e ev rest v

/-- The order that a callback gives two items; items that it gives no order stay in place. -/
def order (c : Callback) (e : Engine ω) (ev : Evaluator ω) (a b : Datum) : Run ω Ordering :=
  fun m =>
    match c.once e ev none [a, b] m with
    | (.value (.int i, _), m) => (.value (compare i 0), m)
    | (.value (.bool b, _), m) => (.value (if b then .lt else .gt), m)
    | (.exhausted, m) => (.exhausted, m)
    | (.jump j, m) => (.jump j, m)
    | (_, m) => (.value .eq, m)

/-- Put an item into the reversed sorted items, after all that are not greater. -/
def insertSorted (compare : Datum → Datum → Run ω Ordering) (d : Datum) :
    List Datum → Run ω (List Datum)
  | [] => pure [d]
  | last :: before => do
    match ← compare d last with
    | .lt => pure (last :: (← insertSorted compare d before))
    | _ => pure (d :: last :: before)

/-- Sort items; equal items keep their order. -/
def sort (compare : Datum → Datum → Run ω Ordering) (items : List Datum) : Run ω (List Datum) := do
  let sorted ← items.foldlM (fun done d => insertSorted compare d done) []
  pure sorted.reverse

/-- Drop every item that a callback takes for the same as the one before it. -/
def dedup (same : Datum → Datum → Run ω Bool) : Datum → List Datum → Run ω (List Datum)
  | last, [] => pure [last]
  | last, d :: rest => do
    if ← same last d then dedup same last rest
    else pure (last :: (← dedup same d rest))

end Callback

/-- The natural order of two items of one type. -/
def naturalOrder : Datum → Datum → Ordering
  | .int a, .int b => compare a b
  | .float a, .float b => if a < b then .lt else if b < a then .gt else .eq
  | .decimal a, .decimal b => a.compare b
  | .string a, .string b => compare a b
  | .char a, .char b => compare a b
  | .bool a, .bool b => compare a b
  | _, _ => .eq

/-- The items in their natural order, or why they have none. -/
def sortNaturally (descending : Bool) (items : List Datum) : Except Cause (List Datum) :=
  match items with
  | [] | [_] => .ok items
  | d :: rest =>
    if rest.any fun other => Operator.typeIndex other != Operator.typeIndex d then
      .error (.functionNotFound "sort() cannot be called with elements of different types")
    else
      .ok (items.mergeSort fun a b =>
        naturalOrder a b != (if descending then .lt else .gt))

/-- Where a search begins. -/
def searchStart (size : Nat) (start : Int) : Nat :=
  if 0 ≤ start then start.toNat else size - start.natAbs

/-- A call of a function on an array that calls back. -/
def arrayCallback (e : Engine ω) (ev : Evaluator ω) (c : Callback) (items rest : List Datum) :
    Option (Run ω Effect) :=
  let each (stop : Datum → Bool) (f : List Datum → List Datum → Effect) : Option (Run ω Effect) :=
    some do
      let (vs, left) ← Callback.visit (c.onElement e ev) stop 0 items
      pure (f vs (left ++ items.drop left.length))
  let never (_ : Datum) : Bool := false
  let kept (vs ds : List Datum) (wanted : Bool) : List Datum :=
    ((vs.zip ds).filter fun p => Callback.isTrue p.1 == wanted).map (·.2)
  let found (start : Int) (stop : Datum → Bool) (f : List Datum → Datum) : Option (Run ω Effect) :=
    let n := searchStart items.length start
    some do
      let (vs, left) ← Callback.visit (c.onElement e ev) stop n (items.drop n)
      pure (f vs, some (.array (items.take n ++ left ++ items.drop (n + left.length))))
  let position (start : Int) (vs : List Datum) : Int :=
    if vs.getLast?.any Callback.isTrue then searchStart items.length start + vs.length - 1 else -1
  let item (start : Int) (vs : List Datum) : Datum :=
    let i := position start vs
    if i < 0 then .unit else items.getD i.toNat .unit
  let ordered : Option (Run ω (List Datum)) := some (Callback.sort (c.order e ev) items)
  match c.caller, rest with
  | "map", [] => each never fun vs left => (.array vs, some (.array left))
  | "for_each", [] => each never fun _ left => (.unit, some (.array left))
  | "filter", [] => each never fun vs left => (.array (kept vs items true), some (.array left))
  | "some", [] =>
    each Callback.isTrue fun vs left =>
      (.bool (vs.getLast?.any Callback.isTrue), some (.array left))
  | "all", [] =>
    each (!Callback.isTrue ·) fun vs left =>
      (.bool (vs.getLast?.all Callback.isTrue), some (.array left))
  | "retain", [] =>
    each never fun vs left => (.array (kept vs left false), some (.array (kept vs left true)))
  | "drain", [] =>
    each never fun vs left => (.array (kept vs left true), some (.array (kept vs left false)))
  | "index_of", [] => found 0 Callback.isTrue fun vs => .int (position 0 vs)
  | "index_of", [.int s] => found s Callback.isTrue fun vs => .int (position s vs)
  | "find", [] => found 0 Callback.isTrue (item 0)
  | "find", [.int s] => found s Callback.isTrue (item s)
  | "find_map", [] => found 0 (!·.isUnit) fun vs => vs.getLastD .unit
  | "find_map", [.int s] => found s (!·.isUnit) fun vs => vs.getLastD .unit
  | "reduce", [] => some do return (← c.combine e ev (indexed items) .unit, none)
  | "reduce", [d] => some do return (← c.combine e ev (indexed items) d, none)
  | "reduce_rev", [] => some do return (← c.combine e ev (indexed items).reverse .unit, none)
  | "reduce_rev", [d] => some do return (← c.combine e ev (indexed items).reverse d, none)
  | "sort", [] => ordered.map fun r => do return (.unit, some (.array (← r)))
  | "order_by", [] => ordered.map fun r => do return (.array (← r), none)
  | "dedup", [] =>
    match items with
    | [] => some (pure (.unit, some (.array [])))
    | d :: rest =>
      let same (a b : Datum) : Run ω Bool := fun m =>
        match c.onItem e ev none [a, b] [] 0 m with
        | (.value (v, _), m) => (.value (Callback.isTrue v), m)
        | (.exhausted, m) => (.exhausted, m)
        | (.jump j, m) => (.jump j, m)
        | (.fault _, m) => (.value false, m)
      some do return (.unit, some (.array (← Callback.dedup same d rest)))
  | _, _ => none
where
  /-- Items with their positions. -/
  indexed (items : List Datum) : List (Nat × Datum) := (List.range items.length).zip items

/-- A call of a function on a map that calls back. -/
def mapCallback (e : Engine ω) (ev : Evaluator ω) (c : Callback)
    (fields : List (String × Datum)) : Option (Run ω Effect) :=
  let parted (f : List (String × Datum) → List (String × Datum) → Effect) :
      Option (Run ω Effect) := some do
    let vs ← fields.mapM fun (k, d) => do
      return Callback.isTrue (← c.onItem e ev (some d) [.string k] [] 1).1
    let part (wanted : Bool) : List (String × Datum) :=
      ((vs.zip fields).filter fun p => p.1 == wanted).map (·.2)
    pure (f (part true) (part false))
  match c.caller with
  | "filter" => parted fun yes _ => (.map yes, none)
  | "drain" => parted fun yes no => (.map yes, some (.map no))
  | "retain" => parted fun yes no => (.map no, some (.map yes))
  | _ => none

/-- A call of a function that calls back, if the arguments ask for one. -/
def callingBack? (e : Engine ω) (ev : Evaluator ω) (name : String) (args : List Datum)
    (pos : Position) : Option (Run ω Effect) :=
  match args with
  | .array items :: .fnPtr f curried :: rest =>
    arrayCallback e ev ⟨name, f, curried, pos⟩ items rest
  | .array a :: .array b :: [.fnPtr f curried] =>
    if name != "zip" then none
    else
      let c : Callback := ⟨name, f, curried, pos⟩
      some do
        let vs ← ((List.range a.length).zip (a.zip b)).mapM fun (i, x, y) => do
          return (← c.onItem e ev (some x) [y] [.int i] 0).1
        pure (.array vs, none)
  | [.map fields, .fnPtr f curried] => mapCallback e ev ⟨name, f, curried, pos⟩ fields
  | [.array items] =>
    let sorted (descending : Bool) (f : List Datum → Effect) : Option (Run ω Effect) :=
      some ((ofResult (sortNaturally descending items) pos).bind fun ds => pure (f ds))
    let inPlace (ds : List Datum) : Effect := (.unit, some (.array ds))
    let copy (ds : List Datum) : Effect := (.array ds, none)
    match name with
    | "sort" => sorted false inPlace
    | "sort_desc" => sorted true inPlace
    | "order" => sorted false copy
    | "order_desc" => sorted true copy
    | "dedup" =>
      match items with
      | [] => some (pure (inPlace []))
      | d :: rest =>
        let same (a b : Datum) : Run ω Bool := pure ((Library.equal a b).toOption.getD false)
        some do return inPlace (← Callback.dedup same d rest)
    | _ => none
  | _ => none

end ScriptHost.Script.Evaluation
