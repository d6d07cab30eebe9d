import ScriptHost.Script.Evaluation.Native

/-!
# Paths into values

What a path of properties, method calls and indexes reaches from a value, and what an assignment at
the end of a path does. Parts of arrays and maps are places: methods change them where they are, and
the changes stay even if a later step fails. Other parts are copies.
-/

namespace ScriptHost.Script.Evaluation

variable {ω : Type}

/-- A step of a path with its arguments evaluated. -/
inductive Step where
  /-- A property. -/
  | property (name : String) (opPos pos : Position)
  /-- A method call; `firstPos` is where the first argument stands. -/
  | method (name : String) (args : List Datum) (firstPos opPos pos : Position)
  /-- An index. -/
  | index (key : Datum) (opPos pos : Position)

/-- A path of steps; each is optional or not. -/
abbrev Path := List (Bool × Step)

/-- A part of a value. -/
structure Part where
  /-- The part. -/
  value : Datum
  /-- Whether it is a place. -/
  isPlace : Bool
  /-- Whether it was not there before. -/
  isNew : Bool
  /-- The whole with another value in the place of the part. -/
  write : Datum → Except Cause Datum

/-- A part that is a place. -/
def Part.place (value : Datum) (rebuild : Datum → Datum) : Part :=
  ⟨value, true, false, fun d => .ok (rebuild d)⟩

/-- A part that is a copy. -/
def Part.copy (value : Datum) (write : Datum → Except Cause Datum) : Part :=
  ⟨value, false, false, write⟩

/-- The bits of a range within 64, as the lowest and the number of bits. -/
def bitSpan? (low high : Int) : Except Cause (Nat × Nat) :=
  let outside (i : Int) : Bool := i < 0 || 64 ≤ i
  if outside low then .error (.bitBounds 64 low)
  else if outside high then .error (.bitBounds 64 high)
  else .ok (low.toNat, (high - low + 1).toNat)

/-- The bits of an integer as a part. -/
def bitsPart (i : Int) (low high : Int) : Except Cause Part :=
  match bitSpan? low high with
  | .error c => .error c
  | .ok (shift, width) =>
    let mask : Nat := 2 ^ width - 1
    let bits : Nat := (i % 2 ^ 64).toNat
    let value := Operator.wrapInt ((bits >>> shift) &&& mask : Nat)
    .ok (.copy (.int value) fun
      | .int new =>
        let kept := bits &&& (2 ^ 64 - 1 - (mask <<< shift))
        .ok (.int (Operator.wrapInt (kept ||| (((new % 2 ^ 64).toNat &&& mask) <<< shift) : Nat)))
      | d => .error (.typeMismatch "integer" d.typeName))

/-- The characters of a range of a text, as a part. -/
def textPart (s : String) (low high : Int) (ordinal : Int → Nat) : Part :=
  let cs := s.toList
  let start := ordinal low
  let width := ordinal high - start
  .copy (.string (String.ofList ((cs.drop start).take width))) fun d =>
    .ok (.string (String.ofList (cs.take start) ++ d.text ++
      String.ofList (cs.drop (start + width))))

/-- The part of a value at an index. With `insert` a key that a map lacks is put there. -/
def indexPart (e : Engine ω) (insert : Bool) (whole key : Datum) (pos opPos : Position) :
    Run ω Part := do
  tick e .none
  match whole, key with
  | .array items, .int i =>
    match (Library.index? items.length i) with
    | some n => pure (.place (items.getD n .unit) fun d => .array (items.set n d))
    | none => .raise (.arrayBounds items.length i) pos
  | .array _, key => mismatch "i64" key pos
  | .blob bytes, .int i =>
    match Library.index? bytes.length i with
    | some n =>
      pure (.copy (.int (bytes.getD n 0 : Nat)) fun
        | .int b => .ok (.blob (bytes.set n (Library.byteOf b)))
        | d => .error (.typeMismatch "INT" d.typeName))
    | none => .raise (.arrayBounds bytes.length i) pos
  | .blob _, key => mismatch "i64" key pos
  | .map fields, .string k =>
    match Fields.get? k fields with
    | some d => pure (.place d fun d => .map (Fields.insert k d fields))
    | none =>
      if insert then
        pure { Part.place .unit (fun d => .map (Fields.insert k d fields)) with isNew := true }
      else if e.limits.failOnInvalidMapProperty then .raise (.propertyNotFound k) pos
      else pure (.copy .unit fun _ => .ok whole)
  | .map _, key => mismatch "string" key pos
  | .int i, .range a b =>
    ofResult (if b ≤ a then .ok (.copy (.int 0) fun _ => .ok whole) else bitsPart i a (b - 1)) pos
  | .int i, .rangeInclusive a b =>
    ofResult (if b < a then .ok (.copy (.int 0) fun _ => .ok whole) else bitsPart i a b) pos
  | .int i, .int n =>
    match Library.index? 64 n with
    | some n =>
      let bit : Nat := 2 ^ n
      let bits : Nat := (i % 2 ^ 64).toNat
      pure (.copy (.bool (bits &&& bit != 0)) fun
        | .bool true => .ok (.int (Operator.wrapInt (bits ||| bit : Nat)))
        | .bool false => .ok (.int (Operator.wrapInt (bits &&& (2 ^ 64 - 1 - bit) : Nat)))
        | d => .error (.typeMismatch "bool" d.typeName))
    | none => .raise (.bitBounds 64 n) pos
  | .int _, key => mismatch "i64" key pos
  | .string s, .range a b => pure (textPart s a b (ordinal s))
  | .string s, .rangeInclusive a b => pure (textPart s a (b + 1) (ordinal s))
  | .string s, .int i =>
    let cs := s.toList
    match Library.index? cs.length i with
    | some n =>
      pure (.copy (.char (cs.getD n ' ')) fun
        | .char c => .ok (.string (String.ofList (cs.set n c)))
        | d => .error (.typeMismatch "char" d.typeName))
    | none => .raise (.stringBounds cs.length i) pos
  | .string _, key => mismatch "i64" key pos
  | whole, key => do
    tick e opPos
    .raise (.indexer (whole.scriptTypeName ++ " [" ++ key.scriptTypeName ++ "]")) opPos
where
  /-- A position in a text, counted from the end if it is negative. -/
  ordinal (s : String) (i : Int) : Nat :=
    if 0 ≤ i then i.toNat else s.length - i.natAbs

/-- A property of a value that is no map. -/
def getProperty (e : Engine ω) (name : String) (whole : Datum) (opPos pos : Position) :
    Run ω Datum := do
  tick e pos
  match Library.property? name whole with
  | some d => pure d
  | none => do
    tick e opPos
    .raise (.member ("Unknown property '" ++ name ++ "' - a getter is not registered for type '" ++
      whole.scriptTypeName ++ "'")) pos

/-- No property of a value that is no map can be set. -/
def setProperty {α : Type} (e : Engine ω) (name : String) (whole d : Datum)
    (opPos pos : Position) : Run ω α := do
  tick e pos
  tick e opPos
  .raise (.member ("No writable property '" ++ name ++
    "' - a setter is not registered for type '" ++ whole.scriptTypeName ++ "' to handle '" ++
    d.scriptTypeName ++ "'")) pos

/-! ## Methods -/

/-- Call a method of the value at hand. A map may hold the method; a function pointer is called by
`call`, and takes more arguments by `curry`; `call` with a function pointer as its first argument
calls that as a method. -/
def callStep (e : Engine ω) (ev : Evaluator ω) (name : String) (args : List Datum)
    (access : Access) (firstPos pos : Position) : Focus ω Datum := fun d m =>
  let slots := args.map Slot.own
  let noPointer (d : Datum) (pos : Position) : Focus ω Datum :=
    .raise (.typeMismatch "Fn" d.scriptTypeName) pos
  let run : Focus ω Datum :=
    match name, d, args with
    | "call", .fnPtr f curried, _ => .lift (callPointer e ev f curried slots pos)
    | "call", _, .fnPtr f curried :: _ => callPointerOn e ev f curried (slots.drop 1) access pos
    | "call", d, [] => noPointer d pos
    | "call", _, a :: _ => noPointer a firstPos
    | "curry", .fnPtr f curried, _ => pure (.fnPtr f (curried ++ args.map .value))
    | "curry", d, _ => noPointer d pos
    | "is_shared", _, [] => pure (.bool false)
    | _, .map fields, _ =>
      match Fields.get? name fields with
      | some (.fnPtr f curried) => callPointerOn e ev f curried slots access pos
      | _ => callMethod e ev name slots access pos
    | _, _, _ => callMethod e ev name slots access pos
  run d m

/-! ## Following a path -/

/-- How a function may use a place. -/
def placeAccess (isConstant : Bool) : Access := if isConstant then .constant else .place

/-- Put a part back into the whole that is at hand. -/
def putBack (p : Part) (whole d : Datum) : Datum :=
  match p.write d with
  | .ok w => w
  | .error _ => whole

/-- Go on with a part of the value at hand. -/
def inside {α : Type} (p : Part) (place copy : Focus ω α) : Focus ω α :=
  if p.isPlace then .part p.value (putBack p) place else .lost p.value copy

/-- What a path reaches from the value at hand. -/
def follow (e : Engine ω) (ev : Evaluator ω) (access : Access) : Path → Focus ω Datum
  | [] => .target
  | (isOptional, step) :: rest => do
    let whole ← .target
    if isOptional && whole.isUnit then pure .unit
    else
      match step with
      | .index key opPos pos => do
        let p ← Focus.lift (indexPart e false whole key pos opPos)
        inside p (follow e ev access rest) (follow e ev .copy rest)
      | .property name opPos pos =>
        match whole with
        | .map _ => do
          let p ← Focus.lift (indexPart e false whole (.string name) pos opPos)
          inside p (follow e ev access rest) (follow e ev .copy rest)
        | whole => do
          let d ← Focus.lift (getProperty e name whole opPos pos)
          .lost d (follow e ev .copy rest)
      | .method name args firstPos _ pos => do
        let d ← callStep e ev name args access firstPos pos
        .lost d (follow e ev .copy rest)

/-! ## Assignment -/

/-- The value that an assignment with an operator leaves. -/
def combined (e : Engine ω) (ev : Evaluator ω) (op : String) (old new : Datum) (pos : Position) :
    Run ω Datum :=
  let assignOp := op ++ "="
  match Operator.binary? op old new with
  | some r => do
    let d ← ofResult r pos
    checkSize e d pos
    pure d
  | none => do
    match (Library.answer? assignOp [old, new]).bind (·.self) with
    | some d => do
      match old with
      | .array _ | .blob _ => pure ()
      | _ => tick e pos
      checkSize e d pos
      pure d
    | none => do
      tick e pos
      return (← ev.native op [old, new] .copy pos).1

/-- The value that an assignment leaves. -/
def assigned (e : Engine ω) (ev : Evaluator ω) (op : Option String) (old new : Datum)
    (pos : Position) : Run ω Datum :=
  match op with
  | none => pure new
  | some op => combined e ev op old new pos

/-- Assign to the end of a path from the value at hand; `root` names the variable and its place. -/
def assignAt (e : Engine ω) (ev : Evaluator ω) (access : Access) (root : String × Position)
    (op : Option String) (assignPos : Position) (new : Datum) : Path → Focus ω Unit
  | [] => pure ()
  | (isOptional, step) :: rest => do
    let whole ← .target
    if isOptional && whole.isUnit then pure ()
    else
      match rest with
      | [] => last whole step
      | _ =>
        match step with
        | .index key opPos pos => do
          let p ← Focus.lift (indexPart e false whole key pos opPos)
          inside p (assignAt e ev access root op assignPos new rest)
            (assignAt e ev .copy root op assignPos new rest)
        | .property name opPos pos =>
          match whole with
          | .map _ => do
            let p ← Focus.lift (indexPart e false whole (.string name) pos opPos)
            inside p (assignAt e ev access root op assignPos new rest)
              (assignAt e ev .copy root op assignPos new rest)
          | whole => do
            let d ← Focus.lift (getProperty e name whole opPos pos)
            .lost d (assignAt e ev .copy root op assignPos new rest)
        | .method name args firstPos _ pos => do
          let d ← callStep e ev name args access firstPos pos
          .lost d (assignAt e ev .copy root op assignPos new rest)
where
  /-- Assign to a part; gives what the part is now. -/
  store (p : Part) : Focus ω Datum := do
    if access == .constant && !p.isNew then .raise (.constant root.1) root.2
    else
      let d ← Focus.lift (assigned e ev op p.value new assignPos)
      match p.write d with
      | .ok w => do
        .put w
        pure d
      | .error c => .raise c assignPos
  /-- Assign to the part that the last step reaches. -/
  last (whole : Datum) : Step → Focus ω Unit
    | .property name opPos pos =>
      match whole with
      | .map _ => do
        let p ← Focus.lift (indexPart e true whole (.string name) pos opPos)
        if p.isNew then Focus.put (putBack p whole .unit)
        let _ ← store p
        Focus.lift (checkSize e (← .target) assignPos)
      | whole => do
        let d ←
          match op with
          | none => pure new
          | some op => do
            let old ← Focus.lift (getProperty e name whole opPos pos)
            Focus.lift (combined e ev op old new assignPos)
        Focus.lift (setProperty e name whole d opPos pos)
    | .index key opPos pos =>
      match whole with
      | .array _ | .blob _ | .map _ | .int _ | .string _ => do
        let p ← Focus.lift (indexPart e true whole key pos opPos)
        if p.isNew then Focus.put (putBack p whole .unit)
        Focus.lift (checkSize e (← store p) assignPos)
      | whole => do
        Focus.lift (tick e .none)
        .raise (.indexer (whole.scriptTypeName ++ " [" ++ key.scriptTypeName ++ "] = " ++
          new.scriptTypeName)) opPos
    | .method .. => pure ()

end ScriptHost.Script.Evaluation
