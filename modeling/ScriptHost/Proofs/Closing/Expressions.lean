import Mathlib
import ScriptHost.Proofs.Closing.Parsers
import ScriptHost.Script.Program

/-!
# Expressions in front of another end

Every rule of expressions reads in front of a closing parenthesis what it reads in front of the end
of a text, if the rules that it refers to do. No expression begins at the end.
-/

namespace ScriptHost.Script.Grammar

open ScriptHost.Script.Parser

/-- The rules of a grammar read in front of the end of a text what those of another one read in
front of what stands in its place. -/
structure Transfers (k : Stop) (g g' : Grammar) : Prop where
  /-- Statements that begin before the end do. -/
  statement : ∀ {c c' : Context}, c.Roomier c' → ∀ t ts,
    Parser.Transfers k (t :: ts) (g.statement c) (g'.statement c') Same
  /-- Blocks do. -/
  block : ∀ {c c' : Context}, c.Roomier c' → ∀ ts,
    Parser.Transfers k ts (g.block c) (g'.block c') Same
  /-- Expressions do. -/
  expression : ∀ {c c' : Context}, c.Roomier c' → ∀ ts,
    Parser.Transfers k ts (g.expression c) (g'.expression c') Same
  /-- Operands do. -/
  operand : ∀ {c c' : Context}, c.Roomier c' → ∀ ts,
    Parser.Transfers k ts (g.operand c) (g'.operand c') Same
  /-- Operators do. -/
  operators : ∀ {c c' : Context}, c.Roomier c' → ∀ least e ts,
    Parser.Transfers k ts (g.operators c least e) (g'.operators c' least e) Same
  /-- Operands without operators do. -/
  primary : ∀ {c c' : Context}, c.Roomier c' → ∀ afterDot ts,
    Parser.Transfers k ts (g.primary c afterDot) (g'.primary c' afterDot) Same
  /-- Indices do. -/
  index : ∀ {c c' : Context}, c.Roomier c' → ∀ e isOptional checked ts,
    Parser.Transfers k ts (g.index c e isOptional checked) (g'.index c' e isOptional checked) Same
  /-- Choices that begin before the end do. -/
  choice : ∀ {c c' : Context}, c.Roomier c' → ∀ t ts,
    Parser.Transfers k (t :: ts) (g.choice c) (g'.choice c') Same
  /-- No expression begins at the end. -/
  expression_end : ∀ c, (g.expression c).FailsAtEnd
  /-- No operand begins at the end. -/
  operand_end : ∀ c, (g.operand c).FailsAtEnd

variable {k : Stop} {ts : List Placed} {g g' : Grammar} {c c' : Context}

/-! ## Parsers that do not look at tokens -/

theorem isBlind_endsCase (t : Token) : (endsCase t).IsBlind := fun _ _ => rfl

theorem isBlind_capturing : capturing.IsBlind := fun _ _ => rfl

theorem isBlind_notCapturing : notCapturing.IsBlind := fun _ _ => rfl

theorem isBlind_keepClosure (params : List String) (body : List Stmt) :
    (keepClosure params body).IsBlind := fun _ _ => rfl

theorem isBlind_nextPrecedence (t : Placed) : (nextPrecedence t).IsBlind := by
  unfold nextPrecedence
  obtain ⟨token, pos⟩ := t
  cases token with
  | reserved s =>
    dsimp only
    split_ifs
    · exact .pure 0
    · exact .fail _ pos
  | _ => exact .pure _

theorem isBlind_combined (op : Token) (pos : Position) (lhs rhs : Expr) :
    (combined op pos lhs rhs).IsBlind := by
  have hjoined (make : Expr → Expr → Expr) : IsBlind (do
      pure (make (← asCondition lhs) (← asCondition rhs))) :=
    (IsBlind.asCondition lhs).bind fun _ => (IsBlind.asCondition rhs).bind fun _ => .pure _
  unfold combined
  split
  · exact hjoined fun lhs rhs => joinAny lhs rhs pos
  · exact hjoined fun lhs rhs => joinAll lhs rhs pos
  all_goals exact .pure _

theorem isBlind_firstLink (isOptional : Bool) (opPos : Position) (e : Expr) :
    (firstLink isOptional opPos e).IsBlind := by
  unfold firstLink
  split
  · exact .pure _
  · exact .fail _ _
  · split
    · exact .fail _ _
    · exact .pure _
  · exact .fail _ _

theorem isBlind_linksAfterDot (isOptional : Bool) (opPos : Position) (e : Expr) :
    (linksAfterDot isOptional opPos e).IsBlind := by
  cases e with
  | chain root links => exact (isBlind_firstLink isOptional opPos root).bind fun _ => .pure _
  | _ => exact (isBlind_firstLink isOptional opPos _).bind fun _ => .pure _

theorem isBlind_key (fields : List (String × Expr)) (s : String) (pos : Position) :
    (fieldKey.key fields s pos).IsBlind := by
  unfold fieldKey.key
  split
  · exact .fail _ _
  · exact .pure _

/-- No bar ends an expression at another mark. -/
theorem endsCase_of_isMark {t : Token} (ht : t.isMark "|" = false) : endsCase t = pure false := by
  funext s
  rw [endsCase, ht, Bool.and_false]
  rfl

/-- A stop is no operator. -/
theorem nextPrecedence_stop {token : Token} (htoken : token = .eof ∨ token = .mark ")")
    (pos : Position) : nextPrecedence ⟨token, pos⟩ = pure 0 := by
  rcases htoken with rfl | rfl <;> rfl

/-! ## Operators -/

/-- No operand begins at the end. -/
theorem operandRule_failsAtEnd (g : Grammar) (c : Context) : (operandRule g c).FailsAtEnd := by
  unfold operandRule
  refine .peek fun pos => .blind (isBlind_endsCase _) fun ends => ?_
  split <;> exact .fail _ _

theorem transfers_operandRule (hg : g.Transfers k g') (hc : c.Roomier c') (ts : List Placed) :
    Parser.Transfers k ts (operandRule g c) (operandRule g' c') Same := by
  cases ts with
  | nil => exact .of_failsAtEnd (operandRule_failsAtEnd g c)
  | cons t us =>
    obtain ⟨token, pos⟩ := t
    unfold operandRule
    refine .peek_cons (.blind (isBlind_endsCase token) fun ends => ?_)
    split
    · exact .fail _ _
    · dsimp only
      split
      · exact .next_cons fun _ => .deeper (hc.at_ pos) fun hd =>
          (hg.operand hd us).same fun e _ => .pure rfl
      · refine .next_cons fun _ => .deeper (hc.at_ pos) fun hd =>
          (hg.operand hd us).same fun e _ => ?_
        split <;> exact .pure rfl
      · exact .next_cons fun _ => .deeper (hc.at_ pos) fun hd =>
          (hg.operand hd us).same fun e _ => .pure rfl
      · exact .fail _ _
      · exact hg.primary (hc.at_ pos) false _

/-- Asking how strongly the next token binds. -/
theorem transfers_precedence {α : Type} {f f' : ℕ → Parser α} {R : α → α → List Placed → Prop}
    (h : ∀ n, Parser.Transfers k ts (f n) (f' n) R) :
    Parser.Transfers k ts (peek >>= fun t => nextPrecedence t >>= f)
      (peek >>= fun t => nextPrecedence t >>= f') R := by
  cases ts with
  | nil =>
    refine .peek_nil ?_
    rw [nextPrecedence_stop (.inl rfl), nextPrecedence_stop k.isStop]
    exact h 0
  | cons t us => exact .peek_cons (.blind (isBlind_nextPrecedence t) h)

theorem transfers_operatorsRule (hg : g.Transfers k g') (hc : c.Roomier c') (least : ℕ)
    (lhs : Expr) (ts : List Placed) :
    Parser.Transfers k ts (operatorsRule g c least lhs) (operatorsRule g' c' least lhs) Same := by
  unfold operatorsRule
  refine .repeated (I := fun x y _ => x.1.Roomier y.1 ∧ x.2 = y.2)
    (fun (d, lhs) (d', lhs') us ⟨hd, hlhs⟩ => ?_) ⟨hc.at_ _, rfl⟩
  obtain rfl : lhs = lhs' := hlhs
  refine .peek (fun token pos us => .blind (isBlind_endsCase token) fun ends => ?_)
    fun token pos hstop => ?_
  · split
    · exact .pure rfl
    · refine .blind (isBlind_nextPrecedence _) fun strength => ?_
      dsimp only
      split
      · exact .pure rfl
      · refine .next_cons fun _ => (hg.operand hd us).same fun rhs us =>
          transfers_precedence fun following => ?_
        split
        case' isTrue => refine (hg.operators hd strength rhs us).same fun rhs us => ?_
        case' isFalse => refine .same (.pure rfl) fun rhs us => ?_
        all_goals
          refine .deeper hd fun he =>
            .blind (isBlind_combined token pos lhs rhs) fun e => .pure ?_
          exact ⟨he.at_ pos, rfl⟩
  · -- Neither the end nor a closing parenthesis goes on.
    have hbar : token.isMark "|" = false := by rcases hstop with rfl | rfl <;> rfl
    have hright : bindsRight token = false := by rcases hstop with rfl | rfl <;> rfl
    have hlast : (decide (0 < least) || 0 == least && !false) = true := by cases least <;> simp
    have hend : bindsRight .eof = false := rfl
    simp only [endsCase_of_isMark (t := .eof) rfl, endsCase_of_isMark hbar,
      nextPrecedence_stop (.inl rfl), nextPrecedence_stop hstop, hright, hend, pure_bind,
      Bool.false_eq_true, if_false, if_pos hlast]
    exact .pure rfl

/-- No expression begins at the end. -/
theorem expressionRule_failsAtEnd (hg : g.Transfers k g') (c : Context) :
    (expressionRule g c).FailsAtEnd := by
  unfold expressionRule
  exact .deeper fun d => .peek fun pos => (hg.operand_end _).bind _

theorem transfers_expressionRule (hg : g.Transfers k g') (hc : c.Roomier c') (ts : List Placed) :
    Parser.Transfers k ts (expressionRule g c) (expressionRule g' c') Same := by
  cases ts with
  | nil => exact .of_failsAtEnd (expressionRule_failsAtEnd hg c)
  | cons t us =>
    unfold expressionRule
    exact .deeper hc fun hd => .peek_cons ((hg.operand (hd.at_ t.pos) _).same fun lhs us =>
      hg.operators (hd.at_ t.pos) 1 lhs us)

/-! ## Calls, indices and properties -/

theorem transfers_nextArgument (hg : g.Transfers k g') (hc : c.Roomier c') (name : String)
    (args : List Expr) (ts : List Placed) :
    Parser.Transfers k ts (nextArgument g c name args) (nextArgument g' c' name args) Same := by
  unfold nextArgument
  cases ts with
  | nil => exact .of_failsAtEnd (.peek fun pos => by exact ((hg.expression_end c).bind _).bind _)
  | cons t us =>
    refine .peek_cons ?_
    dsimp only
    split
    case' isTrue => refine .same (.pure rfl) fun args us => ?_
    case' isFalse =>
      refine .same ((hg.expression hc _).same fun e us => .pure rfl) fun args us => ?_
    all_goals
      refine .peek (fun token pos us => ?_) fun _ _ _ => .missing _ _ _
      dsimp only
      split
      · exact .next_cons fun _ => .pure rfl
      · exact .next_cons fun _ => .pure rfl
      · exact .missing _ _ _
      · exact .fail _ _
      · exact .missing _ _ _

theorem transfers_arguments (hg : g.Transfers k g') (hc : c.Roomier c') (name : String)
    (ts : List Placed) :
    Parser.Transfers k ts (arguments g c name) (arguments g' c' name) Same := by
  unfold arguments
  refine .peek (fun token pos us => ?_) fun _ _ _ => .missing _ _ _
  dsimp only
  split
  · exact .missing _ _ _
  · exact .fail _ _
  · exact .next_cons fun _ => .pure rfl
  · exact .deeper hc fun hd =>
      .repeated_same (fun args us => transfers_nextArgument hg hd name args us) []

theorem transfers_indexRule (hg : g.Transfers k g') (hc : c.Roomier c') (container : Expr)
    (isOptional checked : Bool) (ts : List Placed) :
    Parser.Transfers k ts (indexRule g c container isOptional checked)
      (indexRule g' c' container isOptional checked) Same := by
  simp only [indexRule, hc.pos]
  refine .deeper hc fun hd => (hg.expression hd ts).same fun key us => ?_
  split
  · exact .fail _ _
  · refine .peek (fun token pos us => ?_) fun _ _ _ => .missing _ _ _
    dsimp only
    split
    · refine .next_cons fun _ => .peek (fun token pos us => ?_) fun token pos hstop => ?_
      · dsimp only
        split
        · exact .next_cons fun _ => .deeper (hc.at_ pos) fun hd =>
            (hg.index hd _ _ _ _).same fun rest us => .pure rfl
        · exact .pure rfl
      · rcases hstop with rfl | rfl <;> exact .pure rfl
    · exact .fail _ _
    · exact .missing _ _ _

theorem transfers_afterDot (hg : g.Transfers k g') (hc : c.Roomier c') (pos : Position)
    (isOptional isOpen : Bool) (e : Expr) (t : Placed) (ts : List Placed) :
    Parser.Transfers k (t :: ts) (afterDot g c pos isOptional isOpen e)
      (afterDot g' c' pos isOptional isOpen e) Same := by
  unfold afterDot
  have hd := hc.at_ pos
  refine .next_cons fun _ => .peek (fun token _ us => ?_) fun token _ hstop => ?_
  · dsimp only
    split
    · exact .blind isBlind_notCapturing fun _ => .deeper hd fun he =>
        (hg.primary he true _).same fun rhs us =>
          .blind (isBlind_linksAfterDot _ _ _) fun links => .pure rfl
    · exact .deeper hd fun he => (hg.primary he true _).same fun rhs us =>
        .blind (isBlind_linksAfterDot _ _ _) fun links => .pure rfl
  · rcases hstop with rfl | rfl <;>
    · exact .deeper hd fun he => (hg.primary he true _).same fun rhs us =>
        .blind (isBlind_linksAfterDot _ _ _) fun links => .pure rfl

theorem transfers_nextSuffix (hg : g.Transfers k g') (hc : c.Roomier c') (x : Bool × Expr)
    (ts : List Placed) :
    Parser.Transfers k ts (nextSuffix g c x) (nextSuffix g' c' x) Same := by
  obtain ⟨isOpen, e⟩ := x
  unfold nextSuffix
  refine .peek (fun token pos us => ?_) fun token pos hstop => ?_
  · dsimp only
    split
    · refine .next_cons fun _ => .peek (fun token pos us => ?_) fun _ _ _ => .missing _ _ _
      dsimp only
      split
      · exact .next_cons fun _ => .pure rfl
      · split
        · exact .next_cons fun _ =>
            (transfers_arguments hg (hc.at_ _) _ _).same fun _ _ => .pure rfl
        · exact .missing _ _ _
    · exact .next_cons fun _ => (transfers_arguments hg (hc.at_ _) _ _).same fun _ _ => .pure rfl
    · exact .next_cons fun _ => .pure rfl
    · exact .next_cons fun _ => .deeper (hc.at_ _) fun hd =>
        (hg.index hd _ _ _ _).same fun _ _ => .pure rfl
    · exact .next_cons fun _ => .deeper (hc.at_ _) fun hd =>
        (hg.index hd _ _ _ _).same fun _ _ => .pure rfl
    · exact transfers_afterDot hg hc _ _ _ _ _ _
    · exact transfers_afterDot hg hc _ _ _ _ _ _
    · exact .pure rfl
  · rcases hstop with rfl | rfl <;> exact .pure rfl

theorem transfers_suffixes (hg : g.Transfers k g') (hc : c.Roomier c') (root : Expr)
    (ts : List Placed) : Parser.Transfers k ts (suffixes g c root) (suffixes g' c' root) Same :=
  .repeated_same (fun x us => transfers_nextSuffix hg hc x us) _

/-! ## Literals and groups -/

theorem transfers_group (hg : g.Transfers k g') (hc : c.Roomier c') (pos : Position)
    (ts : List Placed) :
    Parser.Transfers k (⟨.mark "(", pos⟩ :: ts) (group g c) (group g' c') Same := by
  unfold group
  refine .next_cons fun hopen => .accept (.inr (hopen rfl)) (fun _ _ _ => .pure rfl) fun _ _ => ?_
  exact (hg.expression (hc.at_ pos) ts).same fun e us => .expect fun _ _ _ => .pure rfl

theorem transfers_nextItem (hg : g.Transfers k g') (hc : c.Roomier c') (start : Position)
    (items : List Expr) (ts : List Placed) :
    Parser.Transfers k ts (nextItem g c start items) (nextItem g' c' start items) Same := by
  simp only [nextItem, hc.limits]
  refine .peek (fun token pos us => ?_) fun token pos _ => ?_
  · dsimp only
    split
    · exact .fail _ _
    · split
      · exact .next_cons fun _ => .pure rfl
      · exact .missing _ _ _
      · refine .deeper hc fun hd => (hg.expression hd _).same fun e us =>
          .peek (fun token pos us => ?_) fun _ _ _ => .missing _ _ _
        dsimp only
        split
        · exact .next_cons fun _ => .pure rfl
        · exact .pure rfl
        · exact .missing _ _ _
        · exact .fail _ _
        · exact .missing _ _ _
  · split
    · exact .fail _ _
    · exact .missing _ _ _

theorem transfers_arrayLiteral (hg : g.Transfers k g') (hc : c.Roomier c') (t : Placed)
    (ts : List Placed) :
    Parser.Transfers k (t :: ts) (arrayLiteral g c) (arrayLiteral g' c') Same := by
  unfold arrayLiteral
  exact .next_cons fun _ =>
    .repeated_same (fun items us => transfers_nextItem hg (hc.at_ t.pos) t.pos items us) []

theorem transfers_fieldKey (fields : List (String × Expr)) (ts : List Placed) :
    Parser.Transfers k ts (fieldKey fields) (fieldKey fields) Same := by
  unfold fieldKey
  refine .next (fun token pos us _ => ?_) fun pos => .fail _ _
  dsimp only
  split
  · exact .blind_same (isBlind_key _ _ _)
  · exact .blind_same (isBlind_key _ _ _)
  · exact .fail _ _
  · split
    · exact .fail _ _
    · split
      · exact .missing _ _ _
      · exact .fail _ _
  · exact .fail _ _
  · exact .missing _ _ _
  · split
    · exact .missing _ _ _
    · exact .fail _ _

theorem transfers_mapLiteral (hg : g.Transfers k g') (hc : c.Roomier c') (t : Placed)
    (ts : List Placed) :
    Parser.Transfers k (t :: ts) (mapLiteral g c) (mapLiteral g' c') Same := by
  unfold mapLiteral
  refine .next_cons fun _ => .repeated_same (fun fields us =>
    .peek (fun token pos us => ?_) fun _ _ _ => .missing _ _ _) []
  dsimp only
  split
  · exact .next_cons fun _ => .pure rfl
  · exact .missing _ _ _
  · refine (transfers_fieldKey fields _).same fun key us => .expect fun _ us _ => ?_
    cases us with
    | nil =>
      refine .of_failsAtEnd (.peek fun pos => ?_)
      split
      · exact .fail _ _
      · exact .deeper fun d => (hg.expression_end d).bind _
    | cons u us =>
      refine .peek_cons ?_
      split
      · exact .fail _ _
      · next hsmall =>
        rw [← hc.limits] at hsmall
        rw [if_neg hsmall]
        refine .deeper (hc.at_ t.pos) fun hd => (hg.expression hd _).same fun e us => ?_
        refine .peek (fun token pos us => ?_) fun _ _ _ => .missing _ _ _
        dsimp only
        split
        · exact .next_cons fun _ => .pure rfl
        · exact .pure rfl
        · exact .missing _ _ _
        · exact .fail _ _
        · exact .missing _ _ _

theorem transfers_interpolatedText (hg : g.Transfers k g') (hc : c.Roomier c') (t : Placed)
    (ts : List Placed) :
    Parser.Transfers k (t :: ts) (interpolatedText g c) (interpolatedText g' c') Same := by
  unfold interpolatedText
  refine .deeper hc fun {d d'} hd => .next_cons fun _ => .repeated_same (fun segments us => ?_) _
  rw [hd.pos]
  refine (hg.block hd us).same fun body us => .next (fun token pos us _ => ?_) fun _ => .fail _ _
  dsimp only
  split
  · exact .pure rfl
  · exact .pure rfl
  · exact .fail _ _
  · exact .fail _ _

/-! ## Closures -/

theorem transfers_nextParameter (close function closing separating : String)
    (params : List String) (ts : List Placed) :
    Parser.Transfers k ts (nextParameter close function closing separating params)
      (nextParameter close function closing separating params)
      (Transfers.Steps Same fun a b us =>
        a = b ∧ ((Token.mark close).isOpen = true → us ≠ [])) := by
  unfold nextParameter
  refine .next (fun token pos us hopen => ?_) fun _ => .fail _ _
  dsimp only
  split
  · split
    · exact .fail _ _
    · refine .blind (.declare _ _) fun _ => .next (fun token pos us hopen => ?_) fun _ => .fail _ _
      dsimp only
      split
      · next hclose =>
        rw [Token.eq_mark hclose] at hopen
        exact .pure ⟨rfl, hopen⟩
      · split
        · exact .pure rfl
        · exact .fail _ _
        · exact .missing _ _ _
  · exact .fail _ _
  · split
    · next hclose =>
      rw [Token.eq_mark hclose] at hopen
      exact .pure ⟨rfl, hopen⟩
    · exact .missing _ _ _

/-- The parameters of a closure are followed by something. -/
theorem transfers_closureParameters (ts : List Placed) :
    Parser.Transfers k ts closureParameters closureParameters
      fun a b us => a = b ∧ us ≠ [] := by
  have hrepeated : Parser.Transfers k ts closureParameters closureParameters
      fun a b us => a = b ∧ ((Token.mark "|").isOpen = true → us ≠ []) :=
    .repeated (I := Same)
      (fun params _ us hparams => hparams ▸ transfers_nextParameter _ _ _ _ params us) rfl
  exact hrepeated.mono fun _ _ us ⟨hparams, hne⟩ => ⟨hparams, hne rfl⟩

/-- Parsers with variables of their own. -/
theorem transfers_enclosed {α : Type} {p q : Parser α} (hp : Parser.Transfers k ts p q Same) :
    Parser.Transfers k ts (enclosed p) (enclosed q) Same := by
  intro s a t hcomplete h
  simp only [enclosed] at h
  split at h
  · cases h
  · next b after heq =>
    cases h
    obtain ⟨_, us, hus, rfl, htokens, hq⟩ := hp
      { s with declared := [], outer := 0, captured := [], capturing := true, barEnds := false }
      b _ hcomplete heq
    refine ⟨_, us, hus, rfl, htokens, ?_⟩
    have hrun : q { s.facing (k.closed ts) with
        declared := [], outer := 0, captured := [], capturing := true, barEnds := false } = _ := hq
    simp only [enclosed, hrun]
    rfl

theorem transfers_closure (hg : g.Transfers k g') (hc : c.Roomier c') (t : Placed)
    (ts : List Placed) : Parser.Transfers k (t :: ts) (closure g c) (closure g' c') Same := by
  unfold closure
  refine .deeper hc.closure fun hd => .deeper hd fun he => ?_
  refine .same (transfers_enclosed (.next_cons fun hopen => ?_)) fun r us => ?_
  · have hbody (params : List String) (us : List Placed) (hne : us ≠ []) {d d' : Context}
        (hd : d.Roomier d') : Parser.Transfers k us
          (do
            let body ← g.statement d
            pure (params, body.asBlock.1))
          (do
            let body ← g'.statement d'
            pure (params, body.asBlock.1)) Same := by
      obtain ⟨u, us, rfl⟩ := List.exists_cons_of_ne_nil hne
      exact (hg.statement hd u us).same fun body us => .pure rfl
    dsimp only
    split
    · next hbars =>
      rw [Token.eq_mark hbars] at hopen
      exact hbody [] ts (hopen rfl) he
    · exact (transfers_closureParameters ts).bind fun params _ us ⟨hparams, hne⟩ =>
        hparams ▸ hbody params us hne he
  · dsimp only
    rw [hc.pos]
    refine .blind (isBlind_keepClosure _ _) fun name => ?_
    split
    · exact .pure rfl
    · exact .blind (.mapM (fun p => (IsBlind.refer _ _).bind fun known => .pure _) _)
        fun shared => .pure rfl

/-! ## Operands -/

/-- A stop does not make a call of what stands before it. -/
theorem isCall_stop {token : Token} (htoken : token = .eof ∨ token = .mark ")") :
    (token.isMark "(" || token.isMark "!" || token.isMark "()") = false := by
  rcases htoken with rfl | rfl <;> rfl

theorem transfers_named (name : String) (pos : Position) (t : Placed) (ts : List Placed) :
    Parser.Transfers k (t :: ts) (named name pos) (named name pos) Same := by
  unfold named
  refine .next_cons fun _ => .peek (fun token pos us => ?_) fun token pos hstop => ?_
  · dsimp only
    split
    · exact .blind isBlind_capturing fun _ => .pure rfl
    · exact .blind (.refer _ _) fun known => .pure rfl
  · simp only [isCall_stop (.inl rfl), isCall_stop hstop, Bool.false_eq_true, if_false]
    exact .blind (.refer _ _) fun known => .pure rfl

theorem transfers_reservedWord (hc : c.Roomier c') (word : String) (afterDot : Bool)
    (pos : Position) (t : Placed) (ts : List Placed) :
    Parser.Transfers k (t :: ts) (reservedWord c word afterDot pos)
      (reservedWord c' word afterDot pos) Same := by
  simp only [reservedWord, hc.inFunction]
  have hword (us : List Placed) : Parser.Transfers k us
      (if word == "this" then
        if c.inFunction then pure (.this pos)
        else fail (.symbol "'this' can only be used in functions") pos
      else fail (.reserved word) pos)
      (if word == "this" then
        if c.inFunction then pure (.this pos)
        else fail (.symbol "'this' can only be used in functions") pos
      else fail (.reserved word) pos : Parser Expr) Same := by
    split
    · split
      · exact .pure rfl
      · exact .fail _ _
    · exact .fail _ _
  refine .next_cons fun _ => .peek (fun token pos us => ?_) fun token pos hstop => ?_
  · generalize (if afterDot then methodWords else callableWords) = words
    dsimp only
    split
    · exact .pure rfl
    · exact hword _
  · simp only [isCall_stop (.inl rfl), isCall_stop hstop, Bool.false_and, Bool.false_eq_true,
      if_false]
    exact hword _

/-- No operand begins at the end. -/
theorem primaryRule_failsAtEnd (g : Grammar) (c : Context) (afterDot : Bool) :
    (primaryRule g c afterDot).FailsAtEnd := by
  unfold primaryRule
  refine .peek fun pos => .blind (isBlind_endsCase _) fun ends => ?_
  split
  · exact .fail _ _
  · exact (FailsAtEnd.fail _ _).bind _

theorem transfers_primaryRule (hg : g.Transfers k g') (hc : c.Roomier c') (afterDot : Bool)
    (ts : List Placed) :
    Parser.Transfers k ts (primaryRule g c afterDot) (primaryRule g' c' afterDot) Same := by
  cases ts with
  | nil => exact .of_failsAtEnd (primaryRule_failsAtEnd g c afterDot)
  | cons t us =>
    obtain ⟨token, pos⟩ := t
    have hd := hc.at_ pos
    have hrest (root : Expr) (us : List Placed) := transfers_suffixes hg hd root us
    unfold primaryRule
    refine .peek_cons (.blind (isBlind_endsCase token) fun ends => ?_)
    split
    · exact .fail _ _
    · dsimp only
      split
      · exact .fail_bind _ _ _
      · exact .same (.next_cons fun _ => .pure rfl) hrest
      · exact .same (.next_cons fun _ => .pure rfl) hrest
      · exact .same (.next_cons fun _ => .pure rfl) hrest
      · exact .same (.next_cons fun _ => .pure rfl) hrest
      · exact .same (.next_cons fun _ => .pure rfl) hrest
      · exact .same (.next_cons fun _ => .pure rfl) hrest
      · exact .same (.next_cons fun _ => .pure rfl) hrest
      · exact .deeper hd fun he => (hg.block he _).same fun body us => .same (.pure rfl) hrest
      · exact .deeper hd fun he => .same (transfers_group hg he pos us) hrest
      · exact .deeper hd fun he => .same ((hg.choice he _ _).same fun s us => .pure rfl) hrest
      · exact .same ((hg.statement hd _ _).same fun s us => .pure rfl) hrest
      · exact .same ((hg.statement hd _ _).same fun s us => .pure rfl) hrest
      · exact .same ((hg.statement hd _ _).same fun s us => .pure rfl) hrest
      · exact .same ((hg.statement hd _ _).same fun s us => .pure rfl) hrest
      · exact .same ((hg.statement hd _ _).same fun s us => .pure rfl) hrest
      · exact .same (transfers_closure hg hd _ us) hrest
      · exact .same (transfers_closure hg hd _ us) hrest
      · exact .same (transfers_interpolatedText hg hd _ us) hrest
      · exact .deeper hd fun he => .same (transfers_arrayLiteral hg he _ us) hrest
      · exact .deeper hd fun he => .same (transfers_mapLiteral hg he _ us) hrest
      · exact .same (transfers_named _ pos _ us) hrest
      · exact .same (transfers_reservedWord hd _ afterDot pos _ us) hrest
      · exact .fail_bind _ _ _
      · exact .fail_bind _ _ _

end ScriptHost.Script.Grammar
