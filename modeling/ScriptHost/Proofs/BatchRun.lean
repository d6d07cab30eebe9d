import Mathlib
import ScriptHost.Batch
import ScriptHost.Proofs.Asking
import ScriptHost.Proofs.Simplification

/-!
# Running the script of a batch

The script of a batch calls a function or none before the first row, and then does the work on each
row in turn, up to the first host function that fails. It leaves one result for each row; nothing
else is left of a round of the loop but what the host functions did.
-/

namespace ScriptHost.Batch

open Script Evaluation Grammar

variable {ω α β : Type}

/-- What a batch asks the host: what is called before the first row, and the questions of each row
in turn, whose answers are the results. -/
def questions (b : Bridge ω) (setup : Option String) (work : α → Asking ω β) (rows : List α) :
    Asking ω (List β) := do
  match setup with
  | none => pure ()
  | some f => discard (b.ask f [])
  rows.mapM work

variable {e : Engine ω} {m : Machine ω} {names : List String} {setup : Option String}
  {body : List Stmt} {work : List (String × Datum) → Asking ω Datum} {n : ℕ} {rows row : Datum}
  {fields : List (String × Datum)} {done : List Datum}

/-- A map that answers for its keys: if it holds a function under the name of the method that is
asked, then that method. -/
def Answers (fields : List (String × Datum)) : Prop :=
  ∀ f curried, Fields.get? "get" fields = some (.fnPtr f curried) → f = "get" ∧ curried = []

/-- The value of a key in a map. -/
def value (fields : List (String × Datum)) (key : String) : Datum :=
  (Fields.get? key fields).getD .unit

/-- The machine in the function for a row. -/
def inWork (m : Machine ω) (names : List String) (body : List Stmt)
    (fields : List (String × Datum)) : Machine ω :=
  entered ⟨closureName 0, names, body⟩ ((names.map (value fields)).map .own) m

/-- An engine that has the functions of a bridge and the work on a row, and that finds the methods
of the script among the native ones. -/
structure Runs (e : Engine ω) (names : List String) (setup : Option String) (body : List Stmt)
    (work : List (String × Datum) → Asking ω Datum) : Prop where
  /-- There are no limits. -/
  unlimited : e.Unlimited
  /-- The work on a row is the only closure. -/
  closures : e.closures = [⟨closureName 0, names, body⟩]
  /-- There is work on a row. -/
  nonempty : body ≠ []
  /-- The work on a row asks the host for its result. -/
  work : ∀ (n : ℕ) (m : Machine ω) (fields : List (String × Datum)), m.level = 0 →
    (Evaluation.statements (Evaluator.within e (n + 5)) body).Asks (inWork m names body fields)
      (work fields)
  /-- What is called before the first row is a host function. -/
  setup : ∀ f ∈ setup, isReserved f = false ∧
    ∃ g, function? e f 0 = some g ∧ IsStub .callOnly (f, 0) g
  /-- No function takes the place of the dispatcher. -/
  dispatch : function? e hostBinding 2 = none
  /-- The rows are a variable. -/
  rows : isFunctionWord e rowsName false = false
  /-- A row is asked for its values by the native function. -/
  get : function? e "get" 1 = none
  /-- A result is appended by the native function. -/
  push : function? e "push" 1 = none

/-- The variables outside of the loop. -/
def outside (names : List String) (rows : Datum) : List Variable :=
  [⟨"host_batch_fn", false, .own (.fnPtr (closureName 0) [])⟩,
    ⟨"host_batch_vars", false, .own (.array (names.map .string))⟩, ⟨rowsName, false, .own rows⟩]

/-- The machine with the variables of the loop. -/
def looping (m : Machine ω) (names : List String) (rows row : Datum) (results : List Datum) :
    Machine ω :=
  { m with
    locals := ⟨"host_batch_row", false, .own row⟩ ::
      ⟨"host_batch_out", false, .own (.array results)⟩ :: outside names rows }

/-- The row at hand is a variable of the loop. -/
theorem holds_row (m : Machine ω) (names : List String) (rows row : Datum) (results : List Datum) :
    Holds e (looping m names rows row results) "host_batch_row" true row := ⟨rfl, rfl⟩

/-- The results are a variable of the loop. -/
theorem holds_out (m : Machine ω) (names : List String) (rows row : Datum) (results : List Datum) :
    Holds e (looping m names rows row results) "host_batch_out" true (.array results) :=
  ⟨rfl, rfl⟩

/-- The work on a row is a variable of the loop. -/
theorem holds_work (m : Machine ω) (names : List String) (rows row : Datum)
    (results : List Datum) : Holds e (looping m names rows row results) "host_batch_fn" true
      (.fnPtr (closureName 0) []) := ⟨rfl, rfl⟩

/-- The names are a variable of the loop. -/
theorem holds_names (m : Machine ω) (names : List String) (rows row : Datum)
    (results : List Datum) : Holds e (looping m names rows row results) "host_batch_vars" true
      (.array (names.map .string)) := ⟨rfl, rfl⟩

/-- An argument is the value of the name at its position. -/
theorem argument_get_gives (h : Runs e names setup body work) (hfields : Answers fields) {i : ℕ}
    {a : Expr} (ha : IsArgument i a) (hi : i < names.length) :
    (argument e (Evaluator.within e (n + 2)) a).Gives (looping m names rows (.map fields) done)
      (value fields names[i]) (looping m names rows (.map fields) done) := by
  obtain ⟨row, dot, name, place, bracket, index⟩ := ha
  have hrow := holds_row (e := e) m names rows (.map fields) done
  have hnames := holds_names (e := e) m names rows (.map fields) done
  have hsize : i < (names.map Datum.string).length := by rwa [List.length_map]
  have hindex := chain_gives (n := n) h.unlimited hnames place
    (path_index_gives _ bracket index _) (follow_index_gives h.unlimited hsize bracket index _)
  rw [setVariable_self hnames.lookup, List.getElem_map] at hindex
  have hclosure : closure? e "get" = none := by
    rw [closure?, h.closures]
    have hname : ¬(closureName 0 == "get") = true := by decide +kernel
    exact List.find?_cons_of_neg hname
  have hpath := path_method_gives h.unlimited "get" (List.cons_ne_nil _ _)
    (.cons (argument_gives rfl hindex) .nil) dot name
  have hget := chain_gives h.unlimited hrow row hpath (follow_method_gives
    (callStep_get_gives h.unlimited _ h.get hfields hclosure _ name _) dot)
  rw [setVariable_self hrow.lookup] at hget
  exact argument_gives rfl hget

/-- The function for a row holds the value of each name. -/
theorem holds_variable {x : String} (hx : x ∈ names) (m : Machine ω)
    (fields : List (String × Datum)) (body : List Stmt) :
    Holds e (inWork m names body fields) x true (value fields x) := by
  have hlocals : (inWork m names body fields).locals = (names.map fun name =>
      (⟨name, false, .own (value fields name)⟩ : Variable)).reverse := by
    simp only [inWork, entered, List.map_map, List.zip_eq_zipWith, List.zipWith_map_right,
      List.zipWith_self]
    rfl
  have hsome : ((inWork m names body fields).lookup? x).isSome := by
    rw [Machine.lookup?, hlocals, List.find?_isSome]
    exact ⟨_, List.mem_reverse.mpr (List.mem_map_of_mem hx), beq_self_eq_true x⟩
  obtain ⟨v, hv⟩ := Option.isSome_iff_exists.mp hsome
  refine ⟨rfl, ?_⟩
  rw [hv]
  rw [Machine.lookup?, hlocals] at hv
  obtain ⟨name, _, rfl⟩ := List.mem_map.mp (List.mem_reverse.mp (List.mem_of_find?_eq_some hv))
  have hname := List.find?_some hv
  obtain rfl : name = x := by simpa using hname
  rfl

/-- The call of the work on a row asks for its result. -/
theorem expression_work_asks (h : Runs e names setup body work) (hfields : Answers fields)
    (hne : names ≠ []) (hlevel : m.level = 0) {call : Expr} (hcall : IsWork names.length call) :
    ((Evaluator.within e (n + 6)).expression call).Asks (looping m names rows (.map fields) done)
      (work fields) := by
  obtain ⟨hargs, work, dot, name⟩ := hcall
  rename_i work' args
  let m' := looping m names rows (.map fields) done
  have hlength : names.length = args.length := by simpa using hargs.length_eq
  have hvalues (s : ω × List LogEvent) : List.Forall₂ (fun a d =>
      (argument e (Evaluator.within e (n + 5)) a).Gives (m'.hosting s) d (m'.hosting s)) args
        (names.map (value fields)) := by
    refine List.forall₂_iff_get.mpr ⟨by rw [List.length_map, hlength], fun i hi hi' => ?_⟩
    have harg := hargs.get (by rwa [List.length_range, hlength]) hi
    simp only [List.get_eq_getElem, List.getElem_range, List.getElem_map] at harg ⊢
    exact argument_get_gives (m := m.hosting s) h hfields harg (by rwa [hlength])
  have hargsne : args ≠ [] := by
    rintro rfl
    exact hne (List.length_eq_zero_iff.mp hlength)
  have hpath : (path e (Evaluator.within e (n + 5)) [.method "call" args false dot name]).Asks m'
      ((fun _ => _) <$> (pure () : Asking ω Unit)) :=
    .of_gives fun s => path_method_gives h.unlimited "call" hargsne (hvalues s) dot name
  have hclosure : closure? e (closureName 0) = some ⟨closureName 0, names, body⟩ := by
    rw [closure?, h.closures]
    exact List.find?_cons_of_pos (beq_self_eq_true _)
  have hroom : m'.level < e.limits.maxCallLevels := by
    have hcalls := h.unlimited.calls
    have hzero : m'.level = 0 := hlevel
    omega
  have hbody := h.work n m' fields hlevel
  intro s
  have hresult := chain_ends h.unlimited (holds_work (e := e) m names rows (.map fields) done) work
    hpath (fun _ s => follow_method_ends (callStep_call_asks h.unlimited hclosure (by simp)
      h.nonempty hroom hbody _ name s) dot) s
  have hself : ((work' fields s).map fun p => (p.1, Datum.fnPtr (closureName 0) [],
      m'.hosting p.2)).map
      (fun r => (r.1, r.2.2.setVariable "host_batch_fn" r.2.1)) =
        (work' fields s).map fun p => (p.1, m'.hosting p.2) := by
    cases work' fields s with
    | error f => rfl
    | ok p =>
      have hwork := holds_work (e := e) (m.hosting p.2) names rows (.map fields) done
      exact congrArg (fun m => Except.ok (p.1, m)) (setVariable_self hwork.lookup)
  exact hself ▸ hresult

/-- A round of the loop appends the result of its row. -/
theorem statement_push_ends (h : Runs e names setup body work) (hfields : Answers fields)
    (hne : names ≠ []) (hlevel : m.level = 0) {call : Expr} (hcall : IsWork names.length call)
    (w : Places) (s : ω × List LogEvent) :
    ((Evaluator.within e (n + 8)).statement (.expr (push w call))).Ends
      ((looping m names rows (.map fields) done).hosting s)
      ((work fields s).map fun p =>
        (.unit, (looping m names rows (.map fields) (done ++ [p.1])).hosting p.2)) := by
  let m' := looping m names rows (.map fields) done
  have hvalue : call.value? = none := by
    obtain ⟨-, _, _, _⟩ := hcall
    rfl
  have hargument : (arguments e (Evaluator.within e (n + 6)) [call]).Asks m'
      ((fun d => [d]) <$> work fields) := by
    have hcalled : (argument e (Evaluator.within e (n + 6)) call).Asks m' (id <$> work fields) := by
      rw [argument, hvalue, id_map]
      exact expression_work_asks (n := n) h hfields hne hlevel hcall
    rw [Evaluation.arguments, List.mapM_cons]
    exact hcalled.before (b := fun d => [d]) fun d s => .bind (.pure _ _) (.pure _ (m'.hosting s))
  have hout := holds_out (e := e) m names rows (.map fields) done
  have hpush := chain_ends h.unlimited hout w.pushed
    (path_method_asks h.unlimited "push" (List.cons_ne_nil _ _) hargument w.dot w.push)
    (t := fun d s => .ok (.unit, .array (done ++ [d]), m'.hosting s))
    (fun d s => follow_method_gives (callStep_push_gives h.unlimited done d h.push _ w.push
      (m'.hosting s)) w.dot) s
  refine .after (tick_gives h.unlimited _ _) ?_
  have hfinal := hpush.before (g := fun d => pure d.unshared)
    (k := fun p => (.unit, p.2)) fun d m'' heq => ?_
  · have hsame : ((work fields s >>= fun c => (Except.ok (ε := Failure × ω) (Datum.unit,
        Datum.array (done ++ [c.1]), m'.hosting c.2)).map fun r =>
          (r.1, r.2.2.setVariable "host_batch_out" r.2.1)).map fun p => (Datum.unit, p.2)) =
        (work fields s).map fun p =>
          (.unit, (looping m names rows (.map fields) (done ++ [p.1])).hosting p.2) := by
      cases work fields s <;> rfl
    exact hsame ▸ hfinal
  · cases hq : work fields s with
    | error f =>
      rw [hq] at heq
      cases heq
    | ok p =>
      rw [hq] at heq
      cases heq
      exact .pure _ _

/-- The machine with the variables after the loop. -/
def collected (m : Machine ω) (names : List String) (rows : Datum) (results : List Datum) :
    Machine ω :=
  { m with locals := ⟨"host_batch_out", false, .own (.array results)⟩ :: outside names rows }

/-- The loop appends the results of all rows, up to the first failure. -/
theorem statement_loop_ends (h : Runs e names setup body work) (hne : names ≠ [])
    (hlevel : m.level = 0) {items : List (List (String × Datum))}
    (hitems : ∀ fields ∈ items, Answers fields) {call : Expr} (hcall : IsWork names.length call)
    (w : Places) (hlocals : m.locals = (collected m names (.array (items.map .map)) []).locals)
    (s : ω × List LogEvent) :
    ((Evaluator.within e (n + 9)).statement (.forLoop "host_batch_row" none
      (.var rowsName false w.rows) [.expr (push w call)] w.body w.loop)).Ends (m.hosting s)
        ((items.mapM work s).map fun p =>
          (.unit, (collected m names (.array (items.map .map)) p.1).hosting p.2)) := by
  let rows : Datum := .array (items.map .map)
  have hlookup : (m.hosting s).lookup? rowsName = some ⟨rowsName, false, .own rows⟩ := by
    show m.lookup? rowsName = _
    rw [Machine.lookup?, hlocals]
    rfl
  have hfirst : (looping m names rows .unit []).hosting s =
      (m.hosting s).declare "host_batch_row" false (.own .unit) := by
    have hbefore : (m.hosting s).locals = (collected m names rows []).locals := hlocals
    rw [Machine.declare, hbefore]
    rfl
  have hround : ∀ (done : List (List (String × Datum))) (t : List Datum × ω × List LogEvent),
      ∀ fields ∈ items, (Evaluation.statements (Evaluator.within e (n + 8))
        [.expr (push w call)]).Ends
          (setAt 0 (.map fields) ((looping m names rows
            ((done.getLast?.map Datum.map).getD .unit) t.1).hosting t.2))
          (((work fields t.2).map fun p => (t.1 ++ [p.1], p.2)).map fun u =>
            (.unit, (looping m names rows (((done ++ [fields]).getLast?.map Datum.map).getD .unit)
              u.1).hosting u.2)) := by
    intro done t fields hmem
    have hpush : ((Evaluator.within e (n + 8)).statement (.expr (push w call))).Ends
        ((looping m names rows (.map fields) t.1).hosting t.2) _ :=
      statement_push_ends h (hitems fields hmem) hne hlevel hcall w t.2
    rw [List.getLast?_concat]
    have hsame : ((work fields t.2).map fun p => (t.1 ++ [p.1], p.2)).map
        (fun u => (Datum.unit, (looping m names rows (.map fields) u.1).hosting u.2)) =
          (work fields t.2).map fun p =>
            (.unit, (looping m names rows (.map fields) (t.1 ++ [p.1])).hosting p.2) := by
      cases work fields t.2 <;> rfl
    rw [← hsame] at hpush
    exact hpush
  have hloop := forLoop_ends h.unlimited (n := n + 8) (m := m.hosting s) (s := ([], s))
    w.body w.loop
    (fun done t => (looping m names rows ((done.getLast?.map Datum.map).getD .unit)
      t.1).hosting t.2)
    (fun t fields => (work fields t.2).map fun p => (t.1 ++ [p.1], p.2))
    (var_gives h.unlimited ⟨h.rows, hlookup⟩ w.rows) (List.cons_ne_nil (.expr (push w call)) [])
    hfirst (fun _ _ => (rfl : _ = 5)) hround
  rw [foldlM_collect] at hloop
  have hsize : (m.hosting s).locals.length = 4 := by
    show m.locals.length = 4
    rw [hlocals]
    rfl
  rw [hsize] at hloop
  have hsame : ((items.mapM work s).map fun p => ([] ++ p.1, p.2)).map (fun t =>
      (Datum.unit, ((looping m names rows ((items.getLast?.map Datum.map).getD .unit) t.1).hosting
        t.2).rewind 4)) =
      (items.mapM work s).map fun p => (.unit, (collected m names rows p.1).hosting p.2) := by
    cases items.mapM work s <;> rfl
  exact hsame ▸ hloop

/-- Statements after a statement. -/
theorem statements_cons {ev : Evaluator ω} {rest : List Stmt} (hrest : rest ≠ []) (s : Stmt) :
    Evaluation.statements ev (s :: rest) =
      ev.statement s >>= fun _ => Evaluation.statements ev rest := by
  obtain ⟨next, rest, rfl⟩ := List.exists_cons_of_ne_nil hrest
  rfl

/-- What is called before the first row is asked once. -/
theorem statements_setup_ends (h : Runs e names setup body work) (hlevel : m.level = 0)
    (w : Places) {rest : List Stmt} (hrest : rest ≠ []) {q : Asking ω β}
    {t : β × ω × List LogEvent → Datum × Machine ω}
    (hends : ∀ s, (Evaluation.statements (Evaluator.within e (n + 9)) rest).Ends (m.hosting s)
      ((q s).map t)) (s : ω × List LogEvent) :
    (Evaluation.statements (Evaluator.within e (n + 9))
      (setupStatements .callOnly w.setup setup ++ rest)).Ends (m.hosting s)
        (((do
          match setup with
          | none => pure ()
          | some f => discard (e.bridge.ask f [])
          q : Asking ω β) s).map t) := by
  cases setup with
  | none => exact hends s
  | some f =>
    obtain ⟨hfree, g, hfunction, hg⟩ := h.setup f rfl
    have hroom : m.level < e.limits.maxCallLevels := by
      have hcalls := h.unlimited.calls
      omega
    have hnothing (s : ω × List LogEvent) : (callArguments e (Evaluator.within e (n + 8)) []).Gives
        (m.hosting s) [] (m.hosting s) := .pure [] _
    have hfound : function? e f ([] : List Expr).length = some g := hfunction
    have hcall := call_asks (n := n + 5) h.unlimited h.dispatch hfree hfound hg hnothing
      hroom w.setup
    have hstatement : ((Evaluator.within e (n + 9)).statement
        (.callOnly (.call f [] false w.setup))).Asks m (encode <$> e.bridge.ask f []) :=
      statement_asks h.unlimited hcall
    have hboth := hstatement.bind_ends
      (g := fun _ => Evaluation.statements (Evaluator.within e (n + 9)) rest)
      (t := fun _ s => (q s).map t) (fun _ s => hends s) s
    have hsame : (e.bridge.ask f [] s >>= fun c => (q c.2).map t) =
        ((discard (e.bridge.ask f []) >>= fun _ => q : Asking ω β) s).map t := by
      show _ = ((e.bridge.ask f [] s >>= fun c => Except.ok (PUnit.unit, c.2)) >>=
        fun c => q c.2).map t
      cases e.bridge.ask f [] s <;> rfl
    rw [← hsame, setupStatements, List.singleton_append, statements_cons hrest]
    exact hboth

/-- The statements of a batch ask what the batch asks and give the results. -/
theorem statements_ends (h : Runs e names setup body work) (hne : names ≠ []) (hlevel : m.level = 0)
    {items : List (List (String × Datum))} (hitems : ∀ fields ∈ items, Answers fields)
    {call : Expr} (hcall : IsWork names.length call) (w : Places) (q r : Position)
    (hlocals : m.locals = [⟨rowsName, false, .own (.array (items.map .map))⟩])
    (s : ω × List LogEvent) :
    (Evaluation.statements (Evaluator.within e (n + 9)) (statements .callOnly w setup
      (.literal (.array (names.map .string)) q) (.literal (.array []) r) call)).Ends (m.hosting s)
        ((questions e.bridge setup work items s).map fun p =>
          (.array p.1, (collected m names (.array (items.map .map)) p.1).hosting p.2)) := by
  -- The machines between the statements.
  let m₁ := m.declare "host_batch_vars" false (.own (.array (names.map .string)))
  let m₂ := m₁.declare "host_batch_fn" false (.own (.fnPtr (closureName 0) []))
  let m₃ := m₂.declare "host_batch_out" false (.own (.array []))
  have hlocals₃ : m₃.locals = (collected m₃ names (.array (items.map .map)) []).locals := by
    show _ :: _ :: _ :: m.locals = _
    rw [hlocals]
    rfl
  have hnames := declare_gives h.unlimited "host_batch_vars"
    (literal_gives (n := n + 7) h.unlimited (.array (names.map .string)) q (m.hosting s)) w.names
  rw [statements, statements_cons (by simp)]
  refine .after hnames ?_
  refine statements_setup_ends (m := m₁) h hlevel w (List.cons_ne_nil _ _) (fun s => ?_) s
  have hwork := declare_gives h.unlimited "host_batch_fn"
    (literal_gives (n := n + 7) h.unlimited (.fnPtr (closureName 0) []) w.closure (m₁.hosting s))
    w.work
  have hresults := declare_gives h.unlimited "host_batch_out"
    (literal_gives (n := n + 7) h.unlimited (.array []) r (m₂.hosting s)) w.results
  refine .after hwork (.after hresults ?_)
  have hloop := statement_loop_ends (m := m₃) (n := n) h hne hlevel hitems hcall w hlocals₃ s
  have hlast (results : List Datum) (u : ω × List LogEvent) :
      ((Evaluator.within e (n + 9)).statement
      (.expr (.var "host_batch_out" true w.last))).Gives
        ((collected m₃ names (.array (items.map .map)) results).hosting u) (.array results)
        ((collected m₃ names (.array (items.map .map)) results).hosting u) :=
    statement_gives h.unlimited
      (.bind (var_gives h.unlimited ⟨rfl, rfl⟩ w.last) (.pure (Datum.array results) _))
  cases hq : items.mapM work s with
  | error f =>
    rw [hq] at hloop
    exact fun j => (hloop j).bind _
  | ok p =>
    rw [hq] at hloop
    exact .after hloop (hlast p.1 p.2)

/-- **An engine asks what the batch asks.** It ends with the results of all rows, or in a fault that
carries the first failure. -/
theorem run_ends (h : Runs e names setup body work) (hne : names ≠ []) (hlevel : m.level = 0)
    {items : List (List (String × Datum))} (hitems : ∀ fields ∈ items, Answers fields)
    {call : Expr} (hcall : IsWork names.length call) (w : Places) (q r : Position)
    (hlocals : m.locals = [⟨rowsName, false, .own (.array (items.map .map))⟩]) :
    match questions e.bridge setup work items (m.world, m.log) with
    | .ok (results, s) => ∃ after, e.run Engine.ample (statements .callOnly w setup
        (.literal (.array (names.map .string)) q) (.literal (.array []) r) call) m =
          (.value (.array results), after) ∧ after.world = s.1
    | .error (f, world) => ∃ x after, e.run Engine.ample (statements .callOnly w setup
        (.literal (.array (names.map .string)) q) (.literal (.array []) r) call) m =
          (.fault x, after) ∧ Failure.carried? x = some f ∧ after.world = world := by
  obtain ⟨n, hn⟩ : ∃ n, Engine.ample = n + 9 := ⟨10 ^ 15 - 9, by decide⟩
  have hends := statements_ends (n := n) h hne hlevel hitems hcall w q r hlocals (m.world, m.log)
  rw [← hn] at hends
  cases hq : questions e.bridge setup work items (m.world, m.log) with
  | ok p =>
    rw [hq] at hends
    obtain ⟨k, hk⟩ := hends m.operations
    have hrun : Evaluation.statements (Evaluator.within e Engine.ample) (statements .callOnly w
        setup
        (.literal (.array (names.map .string)) q) (.literal (.array []) r) call) m = _ := hk
    exact ⟨_, by rw [Engine.run, hrun], rfl⟩
  | error p =>
    rw [hq] at hends
    obtain ⟨x, after, hx, hcarried, hworld⟩ := hends m.operations
    have hrun : Evaluation.statements (Evaluator.within e Engine.ample) (statements .callOnly w
        setup
        (.literal (.array (names.map .string)) q) (.literal (.array []) r) call) m = _ := hx
    exact ⟨x, after, by rw [Engine.run, hrun], hcarried, hworld⟩

end ScriptHost.Batch
