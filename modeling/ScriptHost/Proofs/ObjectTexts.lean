import Mathlib
import ScriptHost.Execution
import ScriptHost.Proofs.BridgeTexts
import ScriptHost.Proofs.Closing.Groups
import ScriptHost.Proofs.Closing.Scanner

/-!
# Texts that begin with a brace

A host puts a text that begins with a brace in parentheses, behind the mark of object maps. If the
text is one expression behind that mark, it is compiled to this expression, unless it ends in a
comment that goes on over the closing parenthesis; then the parenthesis is missing.
-/

namespace ScriptHost.Script

open ScriptHost.Script.Parser ScriptHost.Script.Grammar

/-! ## Where a text ends -/

/-- Whether tokens end with the end of their text, behind a token that belongs to nothing after
it. -/
def endsWhole (placed : List Placed) : Bool :=
  match placed.reverse with
  | ⟨.eof, _⟩ :: t :: _ => !t.token.isOpen
  | _ => false

/-- Whether a closing parenthesis behind a text is a token of its own. -/
def closesAlone (limit : ℕ) (text : String) : Bool :=
  (tokens limit (text ++ ")")).length == (tokens limit text).length + 1

/-- Tokens that end with the end of their text are complete in front of it. -/
theorem exists_complete {limit : ℕ} {text : String} {placed rest : List Placed}
    (htokens : tokens limit text = placed ++ rest) (hrest : rest ≠ [])
    (hends : endsWhole (tokens limit text) = true) :
    ∃ ts q, rest = ts ++ [⟨.eof, q⟩] ∧ IsComplete (placed ++ ts) := by
  rw [← List.dropLast_append_getLast hrest, ← List.append_assoc] at htokens
  have hinner := tokensFrom_ne_eof htokens
  rw [endsWhole, htokens, List.reverse_concat] at hends
  split at hends
  · next q t before hreverse =>
    obtain ⟨hlast, hbefore⟩ := List.cons.inj hreverse
    refine ⟨rest.dropLast, q, ?_, fun u hu => ?_, hinner⟩
    · rw [← hlast, List.dropLast_append_getLast hrest]
    · rw [← List.head?_reverse, hbefore] at hu
      cases hu
      simpa using hends
  · cases hends

/-! ## Scanning -/

/-- The mark of object maps is scanned. -/
theorem scanToken_object (signed : Bool) (cs : List Char) (pos : Position) :
    scanToken 0 ⟨signed, [], false⟩ ⟨'#' :: '\x7b' :: cs, pos⟩ =
      ⟨⟨.mark "#\x7b", pos.advance⟩, ⟨signed, [], false⟩,
        ⟨cs, (Piece.mark "#\x7b").past pos⟩⟩ :=
  Piece.scanToken_mark (by decide : (Piece.mark "#\x7b").isValid = true) 0 (fun _ _ => rfl)
    signed pos

/-- The mark of object maps is a token. -/
theorem tokensFrom_object (fuel : ℕ) (signed : Bool) (cs : List Char) (pos : Position) :
    tokensFrom 0 (fuel + 1) ⟨signed, [], false⟩ ⟨'#' :: '\x7b' :: cs, pos⟩ =
      ⟨.mark "#\x7b", pos.advance⟩ ::
        tokensFrom 0 fuel ⟨false, [], false⟩ ⟨cs, (Piece.mark "#\x7b").past pos⟩ :=
  tokensFrom_succ ⟨Token.noConfusion, fun _ => Token.noConfusion⟩ (scanToken_object signed cs pos)

/-- A blank in front of an object map does nothing. -/
theorem tokensFrom_blankObject (fuel : ℕ) (signed : Bool) (cs : List Char) (pos : Position) :
    tokensFrom 0 (fuel + 1) ⟨signed, [], false⟩ ⟨' ' :: '#' :: '\x7b' :: cs, pos⟩ =
      tokensFrom 0 (fuel + 1) ⟨true, [], false⟩ ⟨'#' :: '\x7b' :: cs, pos.advance⟩ := by
  have hscan : scanToken 0 ⟨signed, [], false⟩ ⟨' ' :: '#' :: '\x7b' :: cs, pos⟩ =
      ⟨⟨.mark "#\x7b", pos.advance.advance⟩, ⟨signed, [], false⟩,
        ⟨cs, (Piece.mark "#\x7b").past pos.advance⟩⟩ :=
    (Piece.scanToken_blank (by decide : (Piece.blank ' ').isValid = true) 0 _ signed pos).trans
      (scanToken_object signed cs pos.advance)
  rw [tokensFrom_object]
  exact tokensFrom_succ ⟨Token.noConfusion, fun _ => Token.noConfusion⟩ hscan

/-- A parenthesis in front of an object map is a token. -/
theorem tokensFrom_openObject (fuel : ℕ) (signed : Bool) (cs : List Char) (pos : Position) :
    tokensFrom 0 (fuel + 1) ⟨signed, [], false⟩ ⟨'(' :: '#' :: '\x7b' :: cs, pos⟩ =
      ⟨.mark "(", pos.advance⟩ ::
        tokensFrom 0 fuel ⟨true, [], false⟩ ⟨'#' :: '\x7b' :: cs, pos.advance⟩ := by
  have hscan : scanToken 0 ⟨signed, [], false⟩ ⟨'(' :: '#' :: '\x7b' :: cs, pos⟩ =
      ⟨⟨.mark "(", pos.advance⟩, ⟨signed, [], false⟩, ⟨'#' :: '\x7b' :: cs, pos.advance⟩⟩ :=
    Piece.scanToken_mark (by decide : (Piece.mark "(").isValid = true) 0
      (by rintro _ ⟨⟩; rfl) signed pos
  exact tokensFrom_succ ⟨Token.noConfusion, fun _ => Token.noConfusion⟩ hscan

/-- An object map in parentheses has the tokens that it has alone, and those of the parentheses; the
closing one may be part of a comment. -/
theorem tokensFrom_parentheses {spare : ℕ} {signed : Bool} {cs : List Char} {pos q : Position}
    {ts : List Placed} (hcomplete : IsComplete ts)
    (h : tokensFrom 0 (spare + 2 * (cs.length + 3) + 1) ⟨signed, [], false⟩
      ⟨' ' :: '#' :: '\x7b' :: cs, pos⟩ = ts ++ [⟨.eof, q⟩]) :
    ∃ k : Stop, ((∃ p r, k = .parenthesis q p r) ∨ ∃ r, k = .bare q r) ∧
      tokensFrom 0 (spare + 2 * (cs.length + 4) + 1) ⟨signed, [], false⟩
        ⟨' ' :: '#' :: '\x7b' :: (cs ++ [')']), pos⟩ = k.closed ts ∧
      tokensFrom 0 (spare + 2 * (cs.length + 4) + 1) ⟨signed, [], false⟩
        ⟨'(' :: '#' :: '\x7b' :: (cs ++ [')']), pos⟩ =
          ⟨.mark "(", pos.advance⟩ :: k.closed ts := by
  have hopen : ∀ t ∈ ts.getLast?, t.token ≠ .mark "(" ∧ t.token ≠ .mark "*" := by
    refine fun t ht => ⟨fun hmark => ?_, fun hmark => ?_⟩ <;>
    · have hlast := hcomplete.last t ht
      rw [hmark] at hlast
      cases hlast
  rw [tokensFrom_blankObject] at h
  rw [tokensFrom_blankObject, tokensFrom_openObject]
  rcases tokensFrom_closed h hopen with ⟨p, r, hclosed⟩ | ⟨r, hclosed⟩
  · exact ⟨.parenthesis q p r, .inl ⟨p, r, rfl⟩, hclosed _ (by omega),
      congrArg (List.cons _) (hclosed _ (by omega))⟩
  · exact ⟨.bare q r, .inr ⟨r, rfl⟩, hclosed _ (by omega),
      congrArg (List.cons _) (hclosed _ (by omega))⟩

/-- The first token of an object map is its mark. -/
theorem exists_cons_of_object {fuel : ℕ} {signed : Bool} {cs : List Char} {pos q : Position}
    {ts : List Placed} (h : tokensFrom 0 (fuel + 1) ⟨signed, [], false⟩
      ⟨' ' :: '#' :: '\x7b' :: cs, pos⟩ = ts ++ [⟨.eof, q⟩]) :
    ∃ o us, ts = ⟨.mark "#\x7b", o⟩ :: us := by
  rw [tokensFrom_blankObject, tokensFrom_object] at h
  cases ts with
  | nil => cases h
  | cons t us => exact ⟨_, us, congrArg (· :: us) (List.cons.inj h).1.symm⟩

end ScriptHost.Script

namespace ScriptHost.Bridge

open ScriptHost.Script ScriptHost.Script.Grammar ScriptHost.Script.Parser

variable {ω : Type} {b : Bridge ω} {limits : Limits} {l : LinesEnd} {n : ℕ} {cs : List Char}
  {plain wrapped : String} {level : ℕ} {p : Program}

/-! ## Reading -/

/-- An object map that is one expression is read behind the lines of a bridge. -/
theorem LinesEnd.Follows.expression (hl : l.Follows b limits n)
    (hplain : plain.toList = b.pieces.flatMap Piece.chars ++ ' ' :: '#' :: '\x7b' :: cs)
    (hread : Program.ofExpression? limits level plain = .ok p) {o q : Position}
    {us : List Placed}
    (htokens : l.tokens (' ' :: '#' :: '\x7b' :: cs) = ⟨.mark "#\x7b", o⟩ :: us ++ [⟨.eof, q⟩])
    (hcomplete : IsComplete (l.placed ++ ⟨.mark "#\x7b", o⟩ :: us))
    (hn : 8 * (Script.tokens limits.maxStringSize plain).length + 8 ≤ n + 12) {m k : ℕ}
    (hm : 8 * (Script.tokens limits.maxStringSize plain).length + 8 ≤ m) (hk : k ≤ level) :
    ∃ (e : Expr) (final : ParserState),
      p = ⟨[.expr e], final.functions.reverse, final.closures.reverse⟩ ∧
      (within m).expression
          { limits, maxLevel := limits.maxExprDepth, isTop := true, pos := o, level := k }
          (({ tokens := [], functions := l.functions.reverse } : ParserState).facing
            (⟨.mark "#\x7b", o⟩ :: us ++ [⟨.eof, q⟩])) =
        .ok (e, final.facing [⟨.eof, q⟩]) := by
  have hstate : l.state (' ' :: '#' :: '\x7b' :: cs) =
      ({ tokens := [], functions := l.functions.reverse } : ParserState).facing
        (⟨.mark "#\x7b", o⟩ :: us ++ [⟨.eof, q⟩]) := by
    rw [LinesEnd.state, htokens]
    rfl
  have hreaches := hl.reaches hplain (passesDefinitions_nextOrExpression _ (within m) _ k)
  rw [hstate] at hreaches
  refine Program.expression_of_ofExpression? hread hk ?_ hcomplete hn hm rfl hreaches
  rw [hl.tokens_eq hplain, htokens, List.append_assoc]

/-- An object map that is one expression is a script that is this expression. -/
theorem ofText?_object (hlimits : limits.IsOpen) (hnodup : (b.stubs.map Prod.fst).Nodup)
    (hnames : ∀ p ∈ b.stubs, isIdentifier p.1 = true ∧ isReserved p.1 = false)
    (hplain : plain.toList = b.pieces.flatMap Piece.chars ++ ' ' :: '#' :: '\x7b' :: cs)
    (hends : endsWhole (tokens limits.maxStringSize plain) = true) (hlevel : 1 ≤ level)
    (hread : Program.ofExpression? limits level plain = .ok p) :
    Program.ofText? limits plain = .ok p := by
  obtain ⟨l, -, hl⟩ := exists_linesEnd hlimits hnodup hnames
    (8 * (tokens limits.maxStringSize plain).length + 4)
  obtain ⟨ts, q, htokens, hcomplete⟩ :=
    exists_complete (hl.tokens_eq hplain) (l.tokens_ne_nil _) hends
  obtain ⟨o, us, rfl⟩ := exists_cons_of_object htokens
  obtain ⟨e, final, rfl, hexpression⟩ := hl.expression hplain hread htokens hcomplete (by omega)
    (by omega : _ ≤ 8 * (tokens limits.maxStringSize plain).length + 15) hlevel
  have hroom := room_of_expression hexpression
  have hloops := loops_expression
    (c := { limits, maxLevel := limits.maxExprDepth, isTop := true })
    ⟨hroom.imp_right fun h => by simp only at h ⊢; omega, hlimits.arrays⟩ (.inr rfl) hexpression
    (by simp)
  have hreaches := hl.reaches hplain (passesDefinitions_nextInScript _ _ [])
  rw [LinesEnd.state, htokens] at hreaches
  exact Batch.ofText?_ok (hreaches.loops hloops).repeated

/-- The tokens of an object map that is followed by a parenthesis, and of one in parentheses. -/
theorem LinesEnd.Follows.parentheses (hl : l.Follows b limits n)
    (hplain : plain.toList = b.pieces.flatMap Piece.chars ++ ' ' :: '#' :: '\x7b' :: cs)
    {ts : List Placed} {q : Position}
    (htokens : l.tokens (' ' :: '#' :: '\x7b' :: cs) = ts ++ [⟨.eof, q⟩])
    (hcomplete : IsComplete ts) :
    ∃ o r, (closesAlone limits.maxStringSize plain = true ∧ ∃ p,
        l.tokens ('(' :: '#' :: '\x7b' :: (cs ++ [')'])) =
          ⟨.mark "(", o⟩ :: (Stop.parenthesis q p r).closed ts) ∨
      (closesAlone limits.maxStringSize plain = false ∧
        l.tokens ('(' :: '#' :: '\x7b' :: (cs ++ [')'])) =
          ⟨.mark "(", o⟩ :: (Stop.bare q r).closed ts) := by
  have hlength (c : Char) : (c :: '#' :: '\x7b' :: (cs ++ [')'])).length = cs.length + 4 := by simp
  obtain ⟨k, hk, hlonger, hinside⟩ := tokensFrom_parentheses hcomplete htokens
  rw [← hlength, ← LinesEnd.tokens] at hlonger hinside
  have halone : closesAlone limits.maxStringSize plain =
      ((l.placed ++ k.closed ts).length ==
        (l.placed ++ (ts ++ [(⟨.eof, q⟩ : Placed)])).length + 1) := by
    have hclosed : (plain ++ ")").toList =
        b.pieces.flatMap Piece.chars ++ ' ' :: '#' :: '\x7b' :: (cs ++ [')']) := by
      rw [String.toList_append, hplain, List.append_assoc]
      rfl
    rw [closesAlone, hl.tokens_eq hclosed, hl.tokens_eq hplain, htokens, hlonger]
  rcases hk with ⟨p, r, rfl⟩ | ⟨r, rfl⟩
  · refine ⟨_, r, .inl ⟨?_, p, hinside⟩⟩
    rw [halone]
    simp [Stop.closed, Stop.parenthesis, Nat.add_assoc]
  · refine ⟨_, r, .inr ⟨?_, hinside⟩⟩
    rw [halone]
    simp [Stop.closed, Stop.bare]

/-- An object map in parentheses is the same script, if the closing parenthesis is a token of its
own; otherwise the parenthesis is missing. -/
theorem ofText?_parentheses (hlimits : limits.IsOpen) (hnodup : (b.stubs.map Prod.fst).Nodup)
    (hnames : ∀ p ∈ b.stubs, isIdentifier p.1 = true ∧ isReserved p.1 = false)
    (hplain : plain.toList = b.pieces.flatMap Piece.chars ++ ' ' :: '#' :: '\x7b' :: cs)
    (hends : endsWhole (tokens limits.maxStringSize plain) = true) (hlevel : 3 ≤ level)
    (hread : Program.ofExpression? limits level plain = .ok p)
    (hwrapped : wrapped.toList =
      b.pieces.flatMap Piece.chars ++ '(' :: '#' :: '\x7b' :: (cs ++ [')'])) :
    (closesAlone limits.maxStringSize plain = true → Program.ofText? limits wrapped = .ok p) ∧
      (closesAlone limits.maxStringSize plain = false →
        ∃ r, Program.ofText? limits wrapped = .error (unclosedGroup, r)) := by
  obtain ⟨l, -, hl⟩ := exists_linesEnd hlimits hnodup hnames
    (8 * (tokens limits.maxStringSize wrapped).length + 4)
  obtain ⟨ts, q, htokens, hcomplete⟩ :=
    exists_complete (hl.tokens_eq hplain) (l.tokens_ne_nil _) hends
  obtain ⟨o, us, rfl⟩ := exists_cons_of_object htokens
  obtain ⟨i, r, halternatives⟩ := hl.parentheses hplain htokens hcomplete.append
  let c : Context := { limits, maxLevel := limits.maxExprDepth, isTop := true }
  let s : ParserState := { tokens := [], functions := l.functions.reverse }
  let m := 8 * (tokens limits.maxStringSize wrapped).length + 12
  have hreaches := hl.reaches hwrapped (passesDefinitions_nextInScript _ _ [])
  have hfewer : (tokens limits.maxStringSize plain).length ≤
      (tokens limits.maxStringSize wrapped).length := by
    rw [hl.tokens_eq hplain, hl.tokens_eq hwrapped, htokens]
    rcases halternatives with ⟨-, p, hinside⟩ | ⟨-, hinside⟩
    · rw [hinside]
      simp [Stop.closed, Stop.parenthesis]
    · rw [hinside]
      simp [Stop.closed, Stop.bare]
  obtain ⟨e, final, rfl, hexpression⟩ := hl.expression hplain hread htokens hcomplete (by omega)
    (by omega : _ ≤ m) hlevel
  have hc : c.Roomy 3 := ⟨(room_of_expression hexpression).imp_right fun h => by
    simp only [c] at h ⊢; omega, hlimits.arrays⟩
  -- The expression in front of what stands in place of the end.
  have hinstead {k : Stop} (hk : k.pos = q) :
      (within m).expression { c with pos := i, level := 3 }
          (s.facing (k.closed (⟨.mark "#\x7b", o⟩ :: us))) =
        .ok (e, final.facing (k.closed [])) := by
    subst hk
    obtain ⟨_, vs, -, rfl, hleft, hother⟩ := (transfers_within k le_rfl).expression (.refl _) _
      s e _ hcomplete.append hexpression
    obtain rfl : vs = [] := by simpa [Stop.ended] using hleft
    exact expression_at hother i
  have hstate {ts : List Placed}
      (h : l.tokens ('(' :: '#' :: '\x7b' :: (cs ++ [')'])) = ⟨.mark "(", i⟩ :: ts) :
      l.state ('(' :: '#' :: '\x7b' :: (cs ++ [')'])) = s.facing (⟨.mark "(", i⟩ :: ts) := by
    rw [LinesEnd.state, h]
    rfl
  have hd : Context.Roomy { c with pos := i, level := 1 } 2 := hc.deeper.congr rfl rfl rfl
  rcases halternatives with ⟨halone, p, hinside⟩ | ⟨halone, hinside⟩
  · refine ⟨fun _ => ?_, fun hnot => Bool.noConfusion (hnot.symm.trans halone)⟩
    have hwhole := expression_parentheses hd rfl (hinstead (k := .parenthesis q p r) rfl)
    rw [hstate hinside] at hreaches
    exact Batch.ofText?_ok (hreaches.loops (loops_expression (c := c) (hc.mono (by decide))
      (.inl rfl) hwhole (List.cons_ne_nil _ _))).repeated
  · refine ⟨fun hyes => Bool.noConfusion (hyes.symm.trans halone), fun _ => ⟨r, ?_⟩⟩
    have hwhole := expression_unclosed hd rfl (hinstead (k := .bare q r) rfl)
    rw [hstate hinside] at hreaches
    exact Program.ofText?_error (hreaches.repeated_error
      (nextInScript_error (c := c) (hc.mono (by decide)) (.inl rfl) hwhole []))

end ScriptHost.Bridge

namespace ScriptHost

open ScriptHost.Script ScriptHost.Script.Grammar

variable {ω α : Type}

/-- Prepared texts of one script run alike; only failures tell the texts apart. -/
theorem Prepared.outcome_eq_ok_iff {h : Host ω} {p q : Prepared} (heq : p.program h = q.program h)
    (vars : Bindings) (projection : Projection α) (s s' : Store ω) (a : α) :
    p.outcome h vars projection s = (some (.ok a), s') ↔
      q.outcome h vars projection s = (some (.ok a), s') := by
  rw [outcome, outcome, heq]
  split
  · exact Iff.rfl
  · next program _ =>
    simp only [run]
    cases ((h.engine program).run Engine.ample program.body (vars.machine s.world)).1 with
    | value d => exact Iff.rfl
    | fault f => simp
    | exhausted => exact Iff.rfl

namespace Host

variable {h : Host ω} {registrations : List (Registration ω)} {script : String} {p : Program}

/-- The full text of a script that is an object map without its mark. A blank stands where a
parenthesis would stand, so that positions are the same. -/
def objectSource (h : Host ω) (script : String) : String := h.bridge.preamble ++ (" #" ++ script)

/-- **Parentheses around an object map change nothing, unless a comment hides the closing one.** A
text that begins with a brace and is one expression as an object map is compiled to this expression,
and gives what it gives alone; if the text ends in a comment that goes on over the closing
parenthesis, the parenthesis is missing. The expression needs room for two more levels, and may not
end in a word or mark that asks what follows. -/
theorem compileText_object (hbuild : Bridge.build registrations = .ok h.bridge)
    (hident : ∀ f ∈ h.bridge.functions, isIdentifier f.1 = true) (hlimits : h.config.IsOpen)
    (hscript : script.startsWith "\x7b" = true)
    (hread : Program.ofExpression? h.config.toLimits 3 (h.objectSource script) = .ok p)
    (hends : endsWhole (tokens h.config.maxStringSize (h.objectSource script)) = true) :
    h.compileText (h.objectSource script) = .ok p.simplified ∧
      (closesAlone h.config.maxStringSize (h.objectSource script) = true →
        h.compileText (h.sourceOf script) = .ok p.simplified ∧
          ∀ {α : Type} (vars : Bindings) (projection : Projection α) (s s' : Store ω) (a : α),
            (h.prepare script).outcome h vars projection s = (some (.ok a), s') ↔
              (⟨h.objectSource script, none⟩ : Prepared).outcome h vars projection s =
                (some (.ok a), s')) ∧
      (closesAlone h.config.maxStringSize (h.objectSource script) = false →
        ∃ pos, h.compileText (h.sourceOf script) =
          .error (.compile unclosedGroup pos (h.sourceOf script))) := by
  obtain ⟨cs, hcs⟩ := String.startsWith_string_iff.mp hscript
  have hchars : script.toList = '\x7b' :: cs := hcs.symm
  have hnames := Bridge.names_of_build hbuild hident
  have hnodup := (Bridge.build_stubs hbuild).1
  have hplain : (h.objectSource script).toList =
      h.bridge.pieces.flatMap Piece.chars ++ ' ' :: '#' :: '\x7b' :: cs := by
    rw [objectSource, String.toList_append, String.toList_append, Bridge.pieces_chars, hchars]
    rfl
  have hwrapped : (h.sourceOf script).toList =
      h.bridge.pieces.flatMap Piece.chars ++ '(' :: '#' :: '\x7b' :: (cs ++ [')']) := by
    rw [sourceOf, if_pos hscript, String.toList_append, String.toList_append,
      String.toList_append, Bridge.pieces_chars, hchars]
    rfl
  obtain ⟨hclosed, hunclosed⟩ :=
    Bridge.ofText?_parentheses hlimits hnodup hnames hplain hends le_rfl hread hwrapped
  have halone : h.compileText (h.objectSource script) = .ok p.simplified := by
    rw [compileText, Bridge.ofText?_object hlimits hnodup hnames hplain hends (by decide) hread]
  refine ⟨halone, fun hcloses => ?_, fun hcloses => ?_⟩
  · have hsame : h.compileText (h.sourceOf script) = .ok p.simplified := by
      rw [compileText, hclosed hcloses]
    have hprogram : (h.prepare script).program h =
        (⟨h.objectSource script, none⟩ : Prepared).program h := hsame.trans halone.symm
    exact ⟨hsame, fun vars projection s s' a =>
      Prepared.outcome_eq_ok_iff hprogram vars projection s s' a⟩
  · obtain ⟨pos, hmissing⟩ := hunclosed hcloses
    exact ⟨pos, by rw [compileText, hmissing]⟩

/-- A result that is no failure is there. -/
theorem exists_of_isOk {ε α : Type} {r : Except ε α} (h : r.isOk = true) : ∃ a, r = .ok a := by
  cases r with
  | error e => cases h
  | ok a => exact ⟨a, rfl⟩

/-- One field, alone and in front of a comment: the same expression behind the mark of object maps,
and only the first one is a script. -/
theorem compileText_object_comment :
    let h : Host Unit := { bridge := .empty }
    (∃ p, Program.ofExpression? h.config.toLimits 3 (h.objectSource "\x7ba: 1\x7d") = .ok p ∧
        h.compileText (h.sourceOf "\x7ba: 1\x7d") = .ok p.simplified) ∧
      ∃ p pos, Program.ofExpression? h.config.toLimits 3 (h.objectSource "\x7ba: 1\x7d // one") =
          .ok p ∧
        h.compileText (h.sourceOf "\x7ba: 1\x7d // one") =
          .error (.compile unclosedGroup pos (h.sourceOf "\x7ba: 1\x7d // one")) := by
  intro h
  have hbuild : Bridge.build [] = .ok h.bridge := rfl
  constructor
  · have hok : (Program.ofExpression? h.config.toLimits 3
        (h.objectSource "\x7ba: 1\x7d")).isOk = true := by decide +kernel
    obtain ⟨p, hread⟩ := exists_of_isOk hok
    obtain ⟨-, hcloses, -⟩ := compileText_object hbuild (by simp [h, Bridge.empty])
      Config.isOpen_default (by decide +kernel) hread (by decide +kernel)
    exact ⟨p, hread, (hcloses (by decide +kernel)).1⟩
  · have hok : (Program.ofExpression? h.config.toLimits 3
        (h.objectSource "\x7ba: 1\x7d // one")).isOk = true := by decide +kernel
    obtain ⟨p, hread⟩ := exists_of_isOk hok
    obtain ⟨-, -, hopen⟩ := compileText_object hbuild (by simp [h, Bridge.empty])
      Config.isOpen_default (by decide +kernel) hread (by decide +kernel)
    obtain ⟨pos, hmissing⟩ := hopen (by decide +kernel)
    exact ⟨p, pos, hread, hmissing⟩

end Host

end ScriptHost
