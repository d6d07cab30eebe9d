import ScriptHost.Script.Evaluation.Callback

/-!
# Calls of native functions

A native call is one operation. It is answered by the dispatcher of host functions, by a function
that calls back, or by the library; a value that it gives or leaves behind keeps to the limits on
sizes.
-/

namespace ScriptHost.Script.Evaluation

variable {ω : Type}

/-- Call a function of the host: the arguments are decoded, and the answer is encoded. -/
def callHost (e : Engine ω) (name : String) (args : List Datum) (pos : Position) : Run ω Datum :=
  match args.mapM Chain.builtin.decode with
  | none => .exhausted
  | some values => fun m =>
    let reply := e.bridge.call name values m.world
    let m := { m with world := reply.world, log := reply.log.reverse ++ m.log }
    match reply.outcome with
    | .ok v => (.value (encode v), m)
    | .error f => (.fault (.thrown (.failure f) pos), m)

/-- Write what a script prints to the log. -/
def report (name : String) (d : Datum) (pos : Position) : Run ω Datum :=
  match name, d with
  | "print", .string s => do
    .log [.printed s]
    pure .unit
  | "debug", .string s => do
    .log [.debugged s pos.line?]
    pure .unit
  | _, d => pure d

/-- Finish a call: its value and the changed first argument are checked. -/
def finish (e : Engine ω) (name : String) (access : Access) (pos : Position) (effect : Effect) :
    Run ω Effect := do
  checkSize e effect.1 pos
  match effect.2, access with
  | some d, .place => checkSize e d pos
  | _, _ => pure ()
  pure (← report name effect.1 pos, if access == .constant then none else effect.2)

/-- Words that are calls of their own and no methods. -/
def freeStanding : List String := ["Fn", "eval", "is_def_var", "call", "curry"]

/-- A message of a script itself. -/
def complain {α : Type} (message : String) (pos : Position) : Run ω α :=
  .fault (.thrown (.string message) pos)

/-- Call a native function; gives its value and the changed first argument, if it has changed. -/
def callNative (e : Engine ω) (ev : Evaluator ω) (name : String) (args : List Datum)
    (access : Access) (pos : Position) : Run ω Effect :=
  match name, args with
  | "type_of", [d] => pure (.string d.scriptTypeName, none)
  | _, _ => do
    tick e pos
    match name, args with
    | "exit", [] => .jump (.exit .unit)
    | "exit", [d] => .jump (.exit d)
    | _, _ =>
      if name == hostBinding then
        match args with
        | [.string f, .array ds] => finish e name access pos (← callHost e f ds pos, none)
        | _ => missing
      else
        match callingBack? e ev name args pos with
        | some r => finish e name access pos (← r)
        | none =>
          match Library.answer? name args with
          | none => missing
          | some ⟨_, some _⟩ =>
            if access == .constant then .raise (.constantObject name) pos else answered
          | some _ => answered
where
  /-- No function takes these arguments. -/
  missing : Run ω Effect :=
    if freeStanding.contains name && args.length == 1 then
      complain ("'" ++ name ++ "' should not be called in method style. Try " ++ name ++ "(...);")
        pos
    else .raise (.functionNotFound (Library.signature name args)) pos
  /-- The answer of the library. -/
  answered : Run ω Effect :=
    match Library.answer? name args with
    | some ⟨.ok d, self⟩ => finish e name access pos (d, self)
    | some ⟨.error c, _⟩ => .raise c pos
    | none => missing

end ScriptHost.Script.Evaluation
