import Mathlib
import ScriptHost.Proofs.Closing.Expressions

/-!
# Statements in front of another end

Every rule of statements reads in front of a closing parenthesis what it reads in front of the end
of a text. All rules do, by induction on how deep they refer to each other.
-/

namespace ScriptHost.Script.Grammar

open ScriptHost.Script.Parser

variable {k : Stop} {ts : List Placed} {g g' : Grammar} {c c' : Context}

/-! ## Parsers that do not look at tokens -/

theorem isBlind_checkedPatterns (cases : List Case) (values : List Expr) :
    (checkedPatterns cases values).IsBlind := by
  unfold checkedPatterns
  refine .foldlM (fun patterns e => ?_) _ _
  split
  · exact .fail _ _
  · dsimp only
    split
    · split
      · exact .fail _ _
      · exact .pure _
    · exact .pure _

theorem isBlind_declareInBlock (name : String) (isConstant : Bool) :
    (declareInBlock name isConstant).IsBlind := by
  intro s ts
  have hfacing : (s.facing ts).declared = s.declared ∧ (s.facing ts).outer = s.outer := ⟨rfl, rfl⟩
  simp only [declareInBlock, hfacing]
  split_ifs
  · cases s.declared.findIdx? (·.name == name) <;> rfl
  · rfl

theorem isBlind_keepFunction (f : Function) (pos : Position) : (keepFunction f pos).IsBlind := by
  intro s ts
  have hfacing : (s.facing ts).functions = s.functions := rfl
  simp only [keepFunction, hfacing]
  split_ifs <;> rfl

theorem isBlind_assignment (op : Option String) (opPos : Position) (place value : Expr) :
    (assignment op opPos place value).IsBlind := by
  unfold assignment
  dsimp only
  split
  · exact .fail _ _
  · split
    · exact .pure _
    · split
      · refine (IsBlind.declaration? _).bind fun found => ?_
        split
        · exact .fail _ _
        · exact .pure _
      · exact .pure _
    · split
      · exact .fail _ _
      · exact .pure _
      · exact .pure _
      · exact .fail _ _
    all_goals first
      | exact .fail _ _
      | split <;> exact .fail _ _

/-! ## Blocks -/

theorem transfers_nextInBlock (hg : g.Transfers k g') (hc : c.Roomier c') (body : List Stmt)
    (ts : List Placed) :
    Parser.Transfers k ts (nextInBlock g c body) (nextInBlock g' c' body) Same := by
  unfold nextInBlock
  refine .peek (fun token pos us => ?_) fun _ _ _ => .missing _ _ _
  dsimp only
  split
  · exact .next_cons fun _ => .pure rfl
  · exact .missing _ _ _
  · refine (hg.statement hc _ _).same fun s us => ?_
    split
    · exact .pure rfl
    · refine .peek (fun token pos us => ?_) fun token pos hstop => ?_
      · dsimp only
        split
        · exact .next_cons fun _ => .pure rfl
        · exact .next_cons fun _ => .pure rfl
        · split
          · exact .pure rfl
          · split
            · exact .fail _ _
            · exact .missing _ _ _
      · rcases hstop with rfl | rfl <;>
        · dsimp only
          split
          · exact .pure rfl
          · exact .missing _ _ _

theorem transfers_blockRule (hg : g.Transfers k g') (hc : c.Roomier c') (ts : List Placed) :
    Parser.Transfers k ts (blockRule g c) (blockRule g' c') Same := by
  unfold blockRule
  refine .expect fun pos us _ => .deeper (hc.at_ pos) fun hd => .inBlock ?_
  exact .same (.repeated_same (fun body us => transfers_nextInBlock hg hd.below body us) [])
    fun body us => .pure rfl

theorem transfers_notBlock (what : String) (ts : List Placed) :
    Parser.Transfers k ts (notBlock what) (notBlock what) Same := by
  unfold notBlock
  refine .peek (fun token pos us => ?_) fun token pos hstop => ?_
  · split
    · exact .fail _ _
    · exact .pure rfl
  · rcases hstop with rfl | rfl <;> exact .pure rfl

theorem transfers_notAssignment (ts : List Placed) :
    Parser.Transfers k ts notAssignment notAssignment Same := by
  unfold notAssignment
  refine .peek (fun token pos us => ?_) fun token pos hstop => ?_
  · split
    · exact .fail _ _
    · exact .pure rfl
  · rcases hstop with rfl | rfl <;> exact .pure rfl

theorem transfers_condition (hg : g.Transfers k g') (hc : c.Roomier c') (ts : List Placed) :
    Parser.Transfers k ts (condition g c) (condition g' c') Same := by
  unfold condition
  exact (transfers_notBlock _ ts).same fun _ us => (hg.expression hc us).same fun e us =>
    .blind (.asCondition e) fun e => (transfers_notAssignment us).same fun _ us => .pure rfl

/-! ## Choices -/

theorem transfers_choiceRule (hg : g.Transfers k g') (hc : c.Roomier c') (t : Placed)
    (ts : List Placed) :
    Parser.Transfers k (t :: ts) (choiceRule g c) (choiceRule g' c') Same := by
  unfold choiceRule
  have hd := hc.at_ t.pos
  refine .next_cons fun _ => (transfers_condition hg hd ts).same fun e us =>
    (hg.block hd us).same fun body us => .accept (.inl (by decide)) (fun pos us _ => ?_)
      fun _ _ => .pure rfl
  refine .peek (fun token pos us => ?_) fun token pos hstop => ?_
  · dsimp only
    split
    · exact .same ((hg.choice hd _ us).same fun s us => .pure rfl) fun other us => .pure rfl
    · exact (hg.block hd _).same fun body us => .pure rfl
  · rcases hstop with rfl | rfl <;> exact (hg.block hd _).same fun body us => .pure rfl

theorem transfers_caseValue (hg : g.Transfers k g') (hc : c.Roomier c') (ts : List Placed) :
    Parser.Transfers k ts (caseValue g c) (caseValue g' c') Same := by
  intro s a t hcomplete h
  simp only [caseValue] at h
  split at h
  · next b after heq =>
    cases h
    obtain ⟨_, us, hus, rfl, htokens, hq⟩ :=
      hg.expression hc ts { s with barEnds := true } a _ hcomplete heq
    refine ⟨_, us, hus, rfl, htokens, ?_⟩
    have hrun : g'.expression c' { s.facing (k.closed ts) with barEnds := true } = _ := hq
    simp only [caseValue, hrun]
    rfl
  · cases h

theorem transfers_caseValues (hg : g.Transfers k g') (hc : c.Roomier c') (ts : List Placed) :
    Parser.Transfers k ts (caseValues g c) (caseValues g' c') Same := by
  unfold caseValues
  refine .repeated_same (fun values us => (transfers_caseValue hg hc us).same fun e us => ?_) []
  exact .accept (.inl (by decide)) (fun _ _ _ => .pure rfl) fun _ _ => .pure rfl

theorem transfers_selection (hg : g.Transfers k g') (hc : c.Roomier c') (t : Placed)
    (ts : List Placed) :
    Parser.Transfers k (t :: ts) (selection g c) (selection g' c') Same := by
  have hd := hc.at_ t.pos
  unfold selection
  refine .next_cons fun _ => (hg.expression hd ts).same fun subject us => .expect fun _ us _ =>
    .repeated_same (fun (cases, otherwise) us => ?_) _
  refine .peek (fun token pos us => ?_) fun _ _ _ => .missing _ _ _
  dsimp only
  split
  · exact .next_cons fun _ => .pure rfl
  · exact .missing _ _ _
  · exact .fail _ _
  · cases token.isMark "_"
    case' true =>
      simp only [pure_bind, if_true]
      refine .next_cons fun _ => .accept (.inl (by decide)) (fun _ us _ => .fail_bind _ _ _)
        fun _ _ => .expect fun _ us hus => ?_
      obtain ⟨u, us, rfl⟩ := List.exists_cons_of_ne_nil (hus rfl)
      refine (hg.statement hd u us).same fun s us => ?_
    case' false =>
      simp only [pure_bind, Bool.false_eq_true, if_false]
      refine (transfers_caseValues hg hd _).same fun values us => .accept (.inl (by decide))
        (fun _ us _ => (transfers_condition hg hd us).same fun guard us => ?_) fun _ _ => ?_
      all_goals
        refine .expect fun _ us hus => ?_
        obtain ⟨u, us, rfl⟩ := List.exists_cons_of_ne_nil (hus rfl)
        refine (hg.statement hd u us).same fun s us =>
          .blind (isBlind_checkedPatterns _ _) fun patterns => ?_
    all_goals
      refine .peek (fun token pos us => ?_) fun _ _ _ => .missing _ _ _
      dsimp only
      split
      · exact .next_cons fun _ => .pure rfl
      · exact .pure rfl
      · exact .missing _ _ _
      · exact .fail _ _
      · split
        · exact .pure rfl
        · exact .missing _ _ _

/-! ## Loops -/

theorem transfers_whileLoop (hg : g.Transfers k g') (hc : c.Roomier c') (t : Placed)
    (ts : List Placed) :
    Parser.Transfers k (t :: ts) (whileLoop g c) (whileLoop g' c') Same := by
  unfold whileLoop
  refine .next_cons fun _ => ?_
  dsimp only
  split
  · exact (transfers_condition hg hc ts).same fun e us =>
      (hg.block (hc.loop t.pos) us).same fun body us => .pure rfl
  · exact .same (.pure rfl) fun e us =>
      (hg.block (hc.loop t.pos) us).same fun body us => .pure rfl

theorem transfers_doLoop (hg : g.Transfers k g') (hc : c.Roomier c') (t : Placed)
    (ts : List Placed) :
    Parser.Transfers k (t :: ts) (doLoop g c) (doLoop g' c') Same := by
  unfold doLoop
  refine .next_cons fun _ => (hg.block (hc.loop t.pos) ts).same fun body us =>
    .next (fun token pos us _ => ?_) fun pos => ?_
  · dsimp only
    split
    · exact .same (.pure rfl) fun goOn us =>
        (transfers_condition hg (hc.at_ t.pos) us).same fun e us => .pure rfl
    · split
      · exact .same (.pure rfl) fun goOn us =>
          (transfers_condition hg (hc.at_ t.pos) us).same fun e us => .pure rfl
      · exact .fail_bind _ _ _
  · exact (FailsAtEnd.fail _ _).bind _

theorem transfers_loopNames (ts : List Placed) :
    Parser.Transfers k ts loopNames loopNames Same := by
  unfold loopNames
  refine .accept (.inl (by decide)) (fun _ us _ => ?_) fun _ _ => ?_
  · dsimp only
    refine Transfers.declaredName.same fun name us => .accept_required (fun _ us _ => ?_) ?_
    · dsimp only
      refine Transfers.declaredName.same fun counter us => ?_
      split
      · exact .fail _ _
      · refine .accept_required (fun _ us _ => .pure rfl) ?_
        rintro _ _ _ ⟨⟩
    · rintro _ _ _ ⟨⟩
  · exact Transfers.declaredName.same fun name us => .pure rfl

theorem transfers_forLoop (hg : g.Transfers k g') (hc : c.Roomier c') (t : Placed)
    (ts : List Placed) :
    Parser.Transfers k (t :: ts) (forLoop g c) (forLoop g' c') Same := by
  unfold forLoop
  refine .next_cons fun _ => (transfers_loopNames ts).same fun names us => .expect fun _ us _ =>
    (transfers_notBlock _ us).same fun _ us => (hg.expression (hc.at_ t.pos) us).same
      fun items us => ?_
  split
  · exact .fail _ _
  · refine .get fun s s' hdeclared => ?_
    rw [hdeclared]
    dsimp only
    split
    · exact .blind (.declare _ _) fun _ => .blind (.declare _ _) fun _ =>
        (hg.block (hc.loop t.pos) us).same fun body us => .blind (.forget _) fun _ => .pure rfl
    · exact .blind (.declare _ _) fun _ =>
        (hg.block (hc.loop t.pos) us).same fun body us => .blind (.forget _) fun _ => .pure rfl

/-! ## Declarations -/

theorem transfers_declaration (hg : g.Transfers k g') (hc : c.Roomier c') (isConstant : Bool)
    (t : Placed) (ts : List Placed) :
    Parser.Transfers k (t :: ts) (declaration g c isConstant) (declaration g' c' isConstant)
      Same := by
  unfold declaration
  refine .next_cons fun _ => Transfers.declaredName.same fun name us =>
    .accept (.inl (by decide)) (fun _ us _ => ?_) fun _ _ => ?_
  · refine .same (.deeper (hc.at_ t.pos) fun hd => hg.expression hd us) fun value us => ?_
    exact .blind (isBlind_declareInBlock _ _) fun replaces => .pure rfl
  · refine .same (.pure rfl) fun value us => ?_
    exact .blind (isBlind_declareInBlock _ _) fun replaces => .pure rfl

theorem transfers_moduleUse (hg : g.Transfers k g') (hc : c.Roomier c') (t : Placed)
    (ts : List Placed) :
    Parser.Transfers k (t :: ts) (moduleUse g c) (moduleUse g' c') Same := by
  unfold moduleUse
  refine .next_cons fun _ => (hg.expression (hc.at_ t.pos) ts).same fun path us =>
    .accept (.inl (by decide)) (fun _ us _ => ?_) fun _ _ => .pure rfl
  exact Transfers.declaredName.same fun name us => .pure rfl

theorem transfers_release (hg : g.Transfers k g') (hc : c.Roomier c') (t : Placed)
    (ts : List Placed) :
    Parser.Transfers k (t :: ts) (release g c) (release g' c') Same := by
  unfold release
  have hd := hc.at_ t.pos
  refine .next_cons fun _ => .peek (fun token pos us => ?_)
    fun _ _ _ => .of_failsAtEnd (FailsAtEnd.declaredName.bind _)
  dsimp only
  split
  · exact .deeper hd fun he => transfers_declaration hg he false _ us
  · split
    · exact .deeper hd fun he => transfers_declaration hg he true _ us
    · refine Transfers.declaredName.same fun name us => .accept (.inl (by decide))
        (fun _ us _ => ?_) fun _ _ => .pure rfl
      exact Transfers.declaredName.same fun name us => .pure rfl

/-! ## Functions -/

theorem transfers_parameters (function : String) (ts : List Placed) :
    Parser.Transfers k ts (parameters function) (parameters function) Same := by
  have hrepeated : Parser.Transfers k ts (parameters function) (parameters function)
      fun a b us => a = b ∧ ((Token.mark ")").isOpen = true → us ≠ []) :=
    .repeated (I := Same)
      (fun params _ us hparams => hparams ▸ transfers_nextParameter _ _ _ _ params us) rfl
  exact hrepeated.mono fun _ _ us h => h.1

theorem transfers_functionName (ts : List Placed) :
    Parser.Transfers k ts functionName functionName Same := by
  unfold functionName
  refine .next (fun token pos us _ => ?_) fun _ => .fail _ _
  dsimp only
  split
  · exact .pure rfl
  · exact .fail _ _
  · exact .fail _ _

theorem transfers_parameterList (function : String) (ts : List Placed) :
    Parser.Transfers k ts (parameterList function) (parameterList function) Same := by
  unfold parameterList
  refine .peek (fun token pos us => ?_) fun _ _ _ => .fail _ _
  dsimp only
  split
  · exact .next_cons fun _ => transfers_parameters function us
  · split
    · exact .next_cons fun _ => .pure rfl
    · exact .fail _ _

theorem transfers_function (hg : g.Transfers k g') (c : Context) (ts : List Placed) :
    Parser.Transfers k ts (function g c) (function g' c) Same := by
  unfold function
  refine (transfers_functionName ts).same fun name us =>
    (transfers_parameterList name us).same fun params us =>
      .peek (fun token pos us => ?_) fun _ _ _ => .fail _ _
  dsimp only
  split
  · exact .deeper (.refl c) fun hd => (hg.block hd _).same fun body us => .pure rfl
  · exact .fail _ _

theorem transfers_definition (hg : g.Transfers k g') (hc : c.Roomier c') (t : Placed)
    (ts : List Placed) :
    Parser.Transfers k (t :: ts) (definition g c) (definition g' c') Same := by
  simp only [definition, hc.limits]
  refine .accept (.inl (by decide)) (fun _ us _ => ?_) fun _ _ => ?_
  all_goals
    refine .next (fun token pos us _ => ?_) fun _ => .fail _ _
    dsimp only
    split
    · exact .fail _ _
    · exact .same (transfers_enclosed (transfers_function hg _ us)) fun f us =>
        .blind (isBlind_keepFunction _ _) fun _ => .pure rfl

/-! ## Statements -/

theorem transfers_expressionStatement (hg : g.Transfers k g') (hc : c.Roomier c') (t : Placed)
    (ts : List Placed) :
    Parser.Transfers k (t :: ts) (expressionStatement g c) (expressionStatement g' c') Same := by
  unfold expressionStatement
  refine .peek_cons ((hg.expression (hc.at_ t.pos) _).same fun e us =>
    .peek (fun token pos us => ?_) fun token pos hstop => ?_)
  · dsimp only
    split
    · exact .pure rfl
    · exact .next_cons fun _ => (hg.expression (hc.at_ pos) us).same fun value us =>
        .blind_same (isBlind_assignment _ _ _ _)
  · rcases hstop with rfl | rfl <;> exact .pure rfl

theorem transfers_departure (hg : g.Transfers k g') (hc : c.Roomier c') {t : Placed}
    (ht : t.token.isOpen = true) (ts : List Placed) :
    Parser.Transfers k (t :: ts) (departure g c) (departure g' c') Same := by
  simp only [departure, hc.isTop]
  refine .next_cons fun hopen => ?_
  obtain ⟨⟨token, pos⟩, us, rfl⟩ := List.exists_cons_of_ne_nil (hopen ht)
  refine .peek_cons ?_
  dsimp only
  split
  · exact .pure rfl
  · exact .pure rfl
  · exact .pure rfl
  · exact .deeper hc fun hd => (hg.expression hd _).same fun e us => .pure rfl

theorem transfers_leave (hg : g.Transfers k g') (hc : c.Roomier c') {t : Placed}
    (ht : t.token.isOpen = true) (ts : List Placed) :
    Parser.Transfers k (t :: ts) (leave g c) (leave g' c') Same := by
  unfold leave
  refine .next_cons fun hopen => ?_
  obtain ⟨⟨token, pos⟩, us, rfl⟩ := List.exists_cons_of_ne_nil (hopen ht)
  refine .peek_cons ?_
  dsimp only
  split
  · exact .pure rfl
  · exact .pure rfl
  · exact .pure rfl
  · exact .deeper hc fun hd => (hg.expression hd _).same fun e us => .pure rfl

theorem transfers_guarded (hg : g.Transfers k g') (hc : c.Roomier c') (t : Placed)
    (ts : List Placed) :
    Parser.Transfers k (t :: ts) (guarded g c) (guarded g' c') Same := by
  unfold guarded
  have hd := hc.at_ t.pos
  refine .next_cons fun _ => (hg.block hd ts).same fun body us =>
    .accept_required (fun _ us _ => ?_) ?_
  · refine .accept (.inl (by decide)) (fun _ us _ => ?_) fun _ _ => ?_
    · refine .get fun s s' hdeclared => ?_
      rw [hdeclared]
      refine Transfers.declaredName.same fun name us => .accept_required (fun _ us _ => ?_) ?_
      · refine .blind (.declare _ _) fun _ => .same (.pure rfl) fun name us => ?_
        exact (hg.block hd us).same fun handler us => .blind (.forget _) fun _ => .pure rfl
      · rintro _ _ _ ⟨⟩
    · refine .get fun s s' hdeclared => ?_
      rw [hdeclared]
      refine .same (.pure rfl) fun name us => ?_
      exact (hg.block hd us).same fun handler us => .blind (.forget _) fun _ => .pure rfl
  · rintro _ _ _ ⟨⟩

theorem transfers_statementRule (hg : g.Transfers k g') (hc : c.Roomier c') (t : Placed)
    (ts : List Placed) :
    Parser.Transfers k (t :: ts) (statementRule g c) (statementRule g' c') Same := by
  obtain ⟨token, pos⟩ := t
  have hd : Context.Roomier { c with pos } { c' with pos, isTop := c.isTop, inLoop := c.inLoop } :=
    ⟨hc.limits, rfl, rfl, hc.inFunction, rfl, hc.room⟩
  unfold statementRule
  refine .peek_cons ?_
  dsimp only
  rw [hc.isTop, hc.inLoop]
  split
  · exact .pure rfl
  · exact .next_cons fun _ => .pure rfl
  · exact .deeper hd fun he => (hg.block he _).same fun body us => .pure rfl
  · split
    · exact transfers_definition hg hd _ _
    · exact .fail _ _
  · split
    · exact transfers_definition hg hd _ _
    · exact .fail _ _
  · exact .deeper hd fun he => hg.choice he _ _
  · exact .deeper hd fun he => transfers_selection hg he _ _
  · exact .deeper hd fun he => transfers_whileLoop hg he _ _
  · exact .deeper hd fun he => transfers_whileLoop hg he _ _
  · exact .deeper hd fun he => transfers_doLoop hg he _ _
  · exact .deeper hd fun he => transfers_forLoop hg he _ _
  · split
    · exact .next_cons fun _ => .pure rfl
    · exact .fail _ _
  · split
    · exact transfers_leave hg hd rfl _
    · exact .fail _ _
  · exact transfers_departure hg hd rfl _
  · exact transfers_departure hg hd rfl _
  · exact .deeper hd fun he => transfers_guarded hg he _ _
  · exact .deeper hd fun he => transfers_declaration hg he false _ _
  · exact .deeper hd fun he => transfers_declaration hg he true _ _
  · exact .deeper hd fun he => transfers_moduleUse hg he _ _
  · split
    · exact .deeper hd fun he => transfers_release hg he _ _
    · exact .fail _ _
  · exact .deeper hd fun he => transfers_expressionStatement hg he _ _

/-! ## All rules -/

/-- **All rules read in front of a closing parenthesis what they read in front of the end**, however
deep they refer to each other. -/
theorem transfers_within (k : Stop) {n m : ℕ} (hle : n ≤ m) :
    (within n).Transfers k (within m) := by
  induction n generalizing m with
  | zero => constructor <;> intros <;> exact .fail _ _
  | succ n ih =>
    obtain ⟨m, rfl⟩ := Nat.exists_eq_add_of_le' (Nat.one_le_of_lt hle)
    have hg := ih (Nat.le_of_succ_le_succ hle)
    exact {
      statement := transfers_statementRule hg
      block := transfers_blockRule hg
      expression := transfers_expressionRule hg
      operand := transfers_operandRule hg
      operators := transfers_operatorsRule hg
      primary := transfers_primaryRule hg
      index := transfers_indexRule hg
      choice := transfers_choiceRule hg
      expression_end := expressionRule_failsAtEnd hg
      operand_end := operandRule_failsAtEnd _ }

end ScriptHost.Script.Grammar
