import Mathlib
import ScriptHost.Proofs.BatchRun
import ScriptHost.Proofs.Encoding
import ScriptHost.Proofs.Histories

/-!
# The results of a batch

A batch does what its parts ask of the host: the call before the first row, and the work on each row
in turn. If the result is a variable of the rows, that is nothing, and there is one result for each
row: the value of the variable there, or the empty value if the row has none. This holds as long as
no host function is called like a method that the script relies on.
-/

namespace ScriptHost

open Script

variable {ω : Type}

/-- No limit is met by the script of a batch. -/
structure Config.IsRoomy (c : Config) : Prop where
  /-- Operations are not limited. -/
  operations : c.maxOperations = 0
  /-- Texts are not limited. -/
  strings : c.maxStringSize = 0
  /-- Arrays are not limited. -/
  arrays : c.maxArraySize = 0
  /-- Maps are not limited. -/
  maps : c.maxMapSize = 0
  /-- Expressions of the script may be nested. -/
  depth : 16 ≤ c.maxExprDepth
  /-- Expressions of functions may be nested. -/
  functionDepth : 9 ≤ c.maxFunctionExprDepth
  /-- Calls may be nested. -/
  calls : 2 ≤ c.maxCallLevels

/-- The limits are roomy unless they are set. -/
theorem Config.isRoomy_default (flag : Bool) :
    IsRoomy { failOnInvalidMapProperty := flag } := by
  cases flag <;> constructor <;> decide

/-- The names of a bridge do not get in the way of a batch: scripts can define functions of these
names, and no function is taken for the rows or for a method of the script. -/
structure Bridge.SuitsBatches (b : Bridge ω) : Prop where
  /-- Scripts can define functions of these names. -/
  names : ∀ p ∈ b.stubs, isIdentifier p.1 = true
  /-- No function is taken for the method that reads a row. -/
  get : ("get", 1) ∉ b.stubs
  /-- No function is taken for the method that adds a result. -/
  push : ("push", 1) ∉ b.stubs
  /-- No function is taken for the rows. -/
  rows : ∀ p ∈ b.stubs, p.1 ≠ Batch.rowsName

namespace Batch

/-- The value of a variable in a row, for the script. -/
def cell (x : String) (row : Row) : Datum := ((Fields.get? x row).map encode).getD .unit

/-- The encoding of a row has the encodings of its values. -/
theorem get?_encodeFields (x : String) (row : Row) :
    Fields.get? x (encodeFields true row) = (Fields.get? x row).map encode := by
  induction row with
  | nil => rfl
  | cons p row ih =>
    obtain ⟨key, v⟩ := p
    rw [encodeFields, Fields.get?, Fields.get?]
    split
    · rfl
    · exact ih

/-- An encoding is not shared. -/
theorem unshared_encodeWith (lower : Bool) : ∀ v, (encodeWith lower v).unshared = encodeWith lower v
  | .null | .bool _ | .int _ | .float _ | .string _ | .date _ | .time _ | .dateTime _ | .list _
  | .map _ | .handle _ => rfl
  | .decimal d => by
    rw [encodeWith, lowerDecimal]
    split
    · split <;> rfl
    · rfl
  | .bigInt i => by
    rw [encodeWith, lowerBigInt]
    split
    · split <;> rfl
    · rfl
  | .exact v => unshared_encodeWith false v
  | .callable name => by
    rw [encodeWith]
    split <;> rfl

/-- The encodings of rows. -/
theorem encodeItems_rows (rows : List Row) :
    encodeItems true (rows.map .map) = (rows.map (encodeFields true)).map .map := by
  induction rows with
  | nil => rfl
  | cons row rows ih =>
    rw [List.map_cons, encodeItems, ih]
    rfl

/-- An engine that has a function for each function of a bridge, and no others. -/
structure HasStubs (e : Engine ω) (b : Bridge ω) : Prop where
  /-- There are no limits. -/
  unlimited : e.Unlimited
  /-- Calls may be nested. -/
  calls : 2 ≤ e.limits.maxCallLevels
  /-- The functions of the host are those of the bridge. -/
  bridge : e.bridge = b
  /-- There is a function for each of them. -/
  stubs : ∀ p ∈ b.stubs, ∃ g, Evaluation.function? e p.1 p.2 = some g ∧ IsStub .callOnly p g
  /-- There are no others. -/
  only : ∀ name arity, (name, arity) ∉ b.stubs → Evaluation.function? e name arity = none

variable {h : Host ω} {names : List String} {setup : Option String} {isWork : List Stmt → Prop}
  {namesValue results : Expr} {p : Program}

/-- A simplified script has a function for each function of the bridge. -/
theorem hasStubs_of_isScript (hconfig : h.config.IsRoomy)
    (hp : IsScript .callOnly h.bridge names setup isWork namesValue results p) :
    HasStubs (h.engine p) h.bridge where
  unlimited := by
    refine ⟨hconfig.operations, ?_, le_trans (by decide) hconfig.calls⟩
    simp [hasSizeLimit, Host.engine, hconfig.strings, hconfig.arrays, hconfig.maps]
  calls := hconfig.calls
  bridge := rfl
  stubs := fun _ => exists_stub hp.functions
  only := fun _ _ => no_stub hp.functions

/-- The full text of a batch without statements. -/
theorem sourceOf_body (h : Host ω) (names : List String) (b : Batch) :
    h.sourceOf (b.body names) = h.bridge.preamble ++ b.body names := by
  obtain ⟨rest, hrest⟩ : ∃ rest, b.body names = "let host_batch_vars = [" ++ rest := by
    unfold body
    simp only [String.append_assoc]
    exact ⟨_, rfl⟩
  have hfirst : "let host_batch_vars = [".toList = 'l' :: "et host_batch_vars = [".toList := by
    decide +kernel
  have hchars : (b.body names).toList = 'l' :: (
      "et host_batch_vars = [".toList ++ rest.toList) := by
    rw [hrest, String.toList_append, hfirst, List.cons_append]
  rw [Host.sourceOf, startsWith_brace hchars (by decide)]
  rfl

/-- A variable name is not reserved. -/
theorem isReserved_of_isVariableName {name : String} (h : isVariableName name = true) :
    isReserved name = false := by
  rw [isVariableName] at h
  split at h
  · cases h
  · simp only [Bool.and_eq_true, Bool.not_eq_true', Bool.or_eq_false_iff] at h
    exact h.2.1

variable {registrations : List (Registration ω)} {b : Batch} {pieces : List Piece}

/-- The script of a batch is compiled. -/
theorem compileText_body (hbuild : Bridge.build registrations = .ok h.bridge)
    (hconfig : h.config.IsRoomy) (hbridge : h.bridge.SuitsBatches) (hne : names ≠ [])
    (hnodup : names.Nodup) (hnames : ∀ n ∈ names, isIdentifier n = true ∧ isVariableName n = true)
    (hsize : names.length ≤ 2 ^ 63) (hspells : b.Spells setup pieces)
    (hread : ReadsWork names (pieces.filterMap Piece.token?) isWork) :
    ∃ p q r, h.compileText (h.sourceOf (b.body names)) = .ok p ∧
      IsScript .callOnly h.bridge names setup isWork (.literal (.array (names.map .string)) q)
        (.literal (.array []) r) p := by
  obtain ⟨hstubs, hfree⟩ := Bridge.build_stubs hbuild
  obtain ⟨p, es, q, r, hread, hes, hp⟩ := exists_script hstubs
    (fun s hs => ⟨hbridge.names s hs, (hfree s hs).1⟩) hne hnodup
    (fun n hn => ⟨(hnames n hn).1, isReserved_of_isVariableName (hnames n hn).2⟩) hsize hspells
    hread
    hconfig.strings hconfig.arrays hconfig.depth hconfig.functionDepth
  refine ⟨p.simplified, q, r, ?_, hp.simplified (fun f hf => (hspells.setup_name f hf).2) hes⟩
  rw [sourceOf_body, Host.compileText, hread]

/-- Statements are the work on a row if they ask for its result, on every engine that has the
functions of the bridge. -/
def DoesWork (b : Bridge ω) (names : List String) (work : List (String × Datum) → Asking ω Datum)
    (body : List Stmt) : Prop :=
  body ≠ [] ∧ ∀ (e : Engine ω), HasStubs e b → ∀ (n : ℕ) (m : Machine ω)
    (fields : List (String × Datum)), m.level = 0 →
      (Evaluation.statements (Evaluator.within e (n + 5)) body).Asks (inWork m names body fields)
        (work fields)

/-- **A batch asks the host what its setup and its rows ask.** After any operations on a new host,
it has the decoded answers of all rows as its results, or it fails with the first failure, which
names the script. -/
theorem eval_questions (hbuild : Bridge.build registrations = .ok h.bridge)
    (hconfig : h.config.IsRoomy) (hbridge : h.bridge.SuitsBatches) (hne : names ≠ [])
    (hnodup : names.Nodup) (hnames : ∀ n ∈ names, isIdentifier n = true ∧ isVariableName n = true)
    (hsize : names.length ≤ 2 ^ 63) (hspells : b.Spells setup pieces)
    (hread : ReadsWork names (pieces.filterMap Piece.token?) isWork)
    (hsetup : ∀ f ∈ setup, (f, 0) ∈ h.bridge.stubs)
    {work : List (String × Datum) → Asking ω Datum}
    (hwork : ∀ body, isWork body → DoesWork h.bridge names work body) {rows : List Row}
    (hrows : ∀ row ∈ rows, Answers (encodeFields true row)) (world : ω) (log : List LogEvent)
    (ops : List Operation) :
    noticed (b.eval h names rows (Operation.applyAll h { world, log } ops)) =
      match questions h.bridge setup work (rows.map (encodeFields true))
        ((Operation.applyAll h { world, log } ops).world, []) with
      | .ok (results, s) =>
        ((results.mapM (h.chain h.config.defaultOptions).decode).map .ok, s.1)
      | .error (f, world) =>
        (some (.error (f.inScript (h.sourceOf (b.body names)))), world) := by
  obtain ⟨p, q, r, hcompiled, hp⟩ := compileText_body hbuild hconfig hbridge hne hnodup hnames hsize
    hspells hread
  obtain ⟨body, hbody, hclosures⟩ := hp.closures
  obtain ⟨w, call, hcall, hstatements⟩ := hp.body
  have hstubs := hasStubs_of_isScript hconfig hp
  have hruns : Runs (h.engine p) names setup body work :=
    { unlimited := hstubs.unlimited
      closures := hclosures
      nonempty := (hwork body hbody).1
      work := (hwork body hbody).2 _ hstubs
      setup := fun f hf => ⟨(hspells.setup_name f hf).2, hstubs.stubs _ (hsetup f hf)⟩
      dispatch := hstubs.only _ _ fun hmem => ((Bridge.build_stubs hbuild).2 _ hmem).2 rfl
      rows := by
        simp only [Evaluation.isFunctionWord, Bool.not_false, Bool.true_and, List.any_eq_false,
          beq_iff_eq]
        exact fun f hf => hbridge.rows (f.name, f.params.length)
          (map_stubs hp.functions ▸ List.mem_map_of_mem hf)
      get := hstubs.only _ _ hbridge.get
      push := hstubs.only _ _ hbridge.push }
  have hscript : script b names = .ok (b.body names) := by
    have hvalid : names.find? (!isVariableName ·) = none :=
      List.find?_eq_none.mpr fun n hn => by simp [(hnames n hn).2]
    rw [script, hvalid]
  have hitems : ∀ fields ∈ rows.map (encodeFields true), Answers fields := by
    intro fields hfields
    obtain ⟨row, hrow, rfl⟩ := List.mem_map.mp hfields
    exact hrows row hrow
  let s := Operation.applyAll h { world, log } ops
  let vars : Bindings := [(rowsName, encode (.list (rows.map .map)))]
  have hstart : (vars.machine s.world).locals =
      [⟨rowsName, false, .own (.array ((rows.map (encodeFields true)).map .map))⟩] := by
    rw [← encodeItems_rows]
    rfl
  have hrun := run_ends hruns hne rfl hitems hcall w q r hstart
  rw [← hstatements] at hrun
  have hbatch := Batch.execute_noticed (.applyAll world log) b names rows
    h.config.defaultOptions hscript (s := s) (t := s) rfl
  refine hbatch.trans ?_
  have hquestions : questions (h.engine p).bridge setup work (rows.map (encodeFields true))
      ((vars.machine s.world).world, (vars.machine s.world).log) =
        questions h.bridge setup work (rows.map (encodeFields true)) (s.world, []) := rfl
  rw [hquestions] at hrun
  cases hq : questions h.bridge setup work (rows.map (encodeFields true)) (s.world, []) with
  | ok a =>
    rw [hq] at hrun
    obtain ⟨after, hvalue, hworld⟩ := hrun
    refine (Prepared.evaluate_value hcompiled (s := s) hvalue h.config.defaultOptions
      (projection (h.chain h.config.defaultOptions))).trans ?_
    rw [hworld]
    rfl
  | error a =>
    rw [hq] at hrun
    obtain ⟨x, after, hfault, hcarried, hworld⟩ := hrun
    refine (Prepared.evaluate_carried hcompiled (s := s) hfault hcarried h.config.defaultOptions
      (projection (h.chain h.config.defaultOptions))).trans ?_
    rw [hworld]

/-! ## Variables -/

variable {x : String}

/-- The value of a variable in an encoded row. -/
theorem value_encodeFields (x : String) (row : Row) :
    (value (encodeFields true row) x).unshared = cell x row := by
  rw [value, get?_encodeFields, cell]
  cases Fields.get? x row with
  | none => rfl
  | some v => exact unshared_encodeWith true v

/-- A variable is a word. -/
theorem spells_variable (hx : isIdentifier x = true) : Spells ⟨none, none, x⟩ none [.word x] where
  setup_chars := rfl
  work_chars := by
    have hplain : x.startsWith "\x7b" = false := by
      obtain ⟨c, cs, hchars, hc, -⟩ := isIdentifier_chars hx
      refine startsWith_brace hchars ?_
      rintro rfl
      cases hc
    simp [Piece.chars, line, hplain]
  setup_name := by simp
  isValid := by simp [Piece.isValid, isWord, hx]
  areApart := by rfl

/-- A variable is read as such. -/
theorem readsWork_variable (hx : x ∈ names) (hident : isIdentifier x = true)
    (hfree : isReserved x = false) : ReadsWork names ([Piece.word x].filterMap Piece.token?)
      fun body => ∃ q, body = [.expr (.var x true q)] := by
  intro n s ps hs hdeclared hps
  have hword : [Piece.word x].filterMap Piece.token? = [.name x] := by
    simp [Piece.token?, wordToken_name hident hfree]
  rw [hword] at hps
  obtain ⟨p, rest, rfl, hrest⟩ := map_token_eq_cons.mp hps
  obtain rfl := List.map_eq_nil_iff.mp hrest
  exact ⟨_, ⟨p, rfl⟩, .last (Grammar.reads_known (n := n + 12) (k := 7) hs (hdeclared x hx) p)⟩

/-- A variable asks the host nothing. -/
theorem doesWork_variable (hx : x ∈ names) (b : Bridge ω) (body : List Stmt)
    (hbody : ∃ q, body = [.expr (.var x true q)]) :
    DoesWork b names (fun fields => pure (value fields x).unshared) body := by
  obtain ⟨q, rfl⟩ := hbody
  refine ⟨List.cons_ne_nil _ _, fun e he n m fields _ => ?_⟩
  refine Evaluation.statement_asks he.unlimited (.of_gives fun s => ?_)
  have hvalue := Evaluation.var_gives (n := n + 3) he.unlimited
    (holds_variable (e := e) hx (m.hosting s) fields [.expr (.var x true q)]) q
  exact .bind hvalue (.pure _ _)

variable {h : Host ω} {registrations : List (Registration ω)}

/-- **A batch binds the variables of every row by their names.** After any operations on a new host,
a batch whose result is a variable has one result for each row: the decoded value of the variable in
the row, or the decoded empty value if the row has none. Rows may lack variables and may have
further ones; a row that holds a function under the name of the method that reads rows has to hold
that method. -/
theorem eval_variable (hbuild : Bridge.build registrations = .ok h.bridge)
    (hconfig : h.config.IsRoomy) (hbridge : h.bridge.SuitsBatches) (hnodup : names.Nodup)
    (hnames : ∀ n ∈ names, isIdentifier n = true ∧ isVariableName n = true) (hx : x ∈ names)
    (hsize : names.length ≤ 2 ^ 63) {rows : List Row}
    (hrows : ∀ row ∈ rows, Answers (encodeFields true row)) (world : ω) (log : List LogEvent)
    (ops : List Operation) :
    (eval h ⟨none, none, x⟩ names rows (Operation.applyAll h { world, log } ops)).1 =
      ((rows.map (cell x)).mapM (h.chain h.config.defaultOptions).decode).map .ok := by
  have hx' := hnames x hx
  have hevaluated := eval_questions (b := ⟨none, none, x⟩) hbuild hconfig hbridge
    (List.ne_nil_of_mem hx) hnodup hnames hsize (spells_variable hx'.1)
    (readsWork_variable hx hx'.1 (isReserved_of_isVariableName hx'.2)) (by simp)
    (doesWork_variable hx h.bridge) hrows world log ops
  refine (congrArg Prod.fst hevaluated).trans ?_
  have hquestions (s : ω × List LogEvent) : questions h.bridge none
      (fun fields => (pure (value fields x).unshared : Asking ω Datum))
        (rows.map (encodeFields true)) s = .ok (rows.map (cell x), s) := by
    have hcells : ((rows.map (encodeFields true)).map fun fields => (value fields x).unshared) =
        rows.map (cell x) := by
      rw [List.map_map]
      exact List.map_congr_left fun row _ => value_encodeFields x row
    rw [questions, List.mapM_pure, hcells]
    rfl
  rw [hquestions]

/-- A row with the variable and one without it, next to a host function of another name. -/
theorem eval_variable_two :
    (eval ({ bridge := ⟨[("f", ⟨1, fun args world => ⟨.ok (.list args), world, []⟩⟩)]⟩ } :
        Host Unit)
      ⟨none, none, "x"⟩ ["x"] [[("x", .int 7), ("y", .null)], []] { world := () }).1 =
        some (.ok [.int 7, .null]) := by
  let f : HostFunction Unit := ⟨1, fun args world => ⟨.ok (.list args), world, []⟩⟩
  have hfree : nameProblem? "f" = none := by decide +kernel
  have hbuild : Bridge.build [⟨"f", f⟩] = .ok ⟨[("f", f)]⟩ := by
    simp only [Bridge.build, Bridge.build.go, hfree]
    rfl
  have hbridge : Bridge.SuitsBatches (⟨[("f", f)]⟩ : Bridge Unit) := by
    constructor <;> simp only [Bridge.stubs, List.map] <;> decide +kernel
  have hrows : ∀ row ∈ [[("x", Value.int 7), ("y", .null)], []],
      Answers (encodeFields true row) := by
    intro row hrow name curried hget
    rw [get?_encodeFields] at hget
    fin_cases hrow <;> simp [Fields.get?] at hget
  have hresults : ([.int 7, .unit] : List Datum).mapM Chain.builtin.decode =
      some [.int 7, .null] := by
    have hseven : Chain.builtin.decode (.int 7) = some (.int 7) := decode_encode (.int 7)
    have hnull : Chain.builtin.decode .unit = some .null := decode_encode .null
    simp [hseven, hnull]
  have heval := eval_variable (h := { bridge := ⟨[("f", f)]⟩ }) hbuild
    (Config.isRoomy_default false) hbridge (x := "x")
    (by decide : ["x"].Nodup) (by decide +kernel) (by decide) (by decide) hrows () [] []
  exact heval.trans (congrArg (Option.map Except.ok) hresults)

end Batch

end ScriptHost
