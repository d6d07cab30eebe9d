import Mathlib
import ScriptHost.Host
import ScriptHost.Proofs.Keeping
import ScriptHost.Proofs.Preamble
import ScriptHost.Proofs.Simplification

/-!
# The functions of a script

Whatever a script says, if it is compiled at all, its functions begin with one for each function of
the bridge. The lines of the bridge are read first, and what follows can only add functions. A
bridge may have a name that is no identifier; then no script is compiled.
-/

namespace ScriptHost.Script

open ScriptHost.Script.Parser

namespace Grammar

variable {c : Context} {s t final : ParserState} {body done : List Stmt} {n fuel : ℕ}

/-- The statements and functions at any point of a script are traced. -/
theorem traced_of_reaches {o : Origin} {before : List Stmt}
    (h : Reaches (nextInScript (within n) c) before s body t) (hs : s.Traced o)
    (hbefore : ∀ x ∈ before, x.Traced o) : t.Traced o ∧ ∀ x ∈ body, x.Traced o := by
  induction h with
  | refl => exact ⟨hs, hbefore⟩
  | more hstep _ _ ih =>
    obtain ⟨hnext, ht, -⟩ := keeps_nextInScript (keepsAll_within n) c hbefore _ _ _ hs hstep
    exact ih ht hnext

/-- The functions at any point of a script are functions of the script. -/
theorem functions_of_reaches {o : Origin} (h : Reaches (nextInScript (within n) c) [] s body t)
    (hdone : scriptRule (within n) c s = .ok (done, final)) (hs : s.Traced o) :
    t.functions <:+ final.functions := by
  obtain ⟨fuel, hrest⟩ := h.untilDone hdone
  obtain ⟨ht, hbody⟩ := traced_of_reaches h hs (by simp)
  exact (Keeps.untilDone (fun _ hx => keeps_nextInScript (keepsAll_within n) c hx) fuel hbody t done
    final ht hrest).2.2

/-- No script goes on with the word for a function and a fault. -/
theorem untilDone_fault (htop : c.isTop = true) {problem : ParseProblem} (p q : Position) :
    untilDone (nextInScript (within (n + 1)) c) fuel body
      (s.facing [⟨.mark "fn", p⟩, ⟨.fault problem, q⟩]) ≠ .ok (done, final) := by
  intro h
  cases fuel with
  | zero => cases h
  | succ fuel =>
    have hstatement : (within (n + 1)).statement c
        (s.facing [⟨.mark "fn", p⟩, ⟨.fault problem, q⟩]) = .error (.functionName, q) := by
      rw [within_statement, statementRule, bind_ok (peek_facing ..)]
      simp only [htop]
      rfl
    have hstep : nextInScript (within (n + 1)) c body
        (s.facing [⟨.mark "fn", p⟩, ⟨.fault problem, q⟩]) = .error (.functionName, q) := by
      rw [nextInScript, bind_ok (peek_facing ..)]
      show ((within (n + 1)).statement c _ >>= fun r => _) = _
      rw [hstatement]
      rfl
    have hnone : (nextInScript (within (n + 1)) c body _ >>= fun r => _) = .ok (done, final) := h
    rw [hstep] at hnone
    cases hnone

end Grammar

/-! ## The lines of a bridge -/

/-- A script that is read has been read by the rule for scripts. -/
theorem Program.ofText?_eq_ok {limits : Limits} {text : String} {p : Program}
    (h : Program.ofText? limits text = .ok p) :
    ∃ body final, Grammar.scriptRule
        (Grammar.within (8 * (tokens limits.maxStringSize text).length + 16))
        { limits, maxLevel := limits.maxExprDepth, isTop := true }
        { tokens := tokens limits.maxStringSize text } = .ok (body, final) ∧
      p.functions = final.functions.reverse := by
  simp only [Program.ofText?] at h
  split at h
  · cases h
  · next body final hrule =>
    cases h
    exact ⟨body, final, hrule, rfl⟩

/-- A text whose tokens are no script is no script. -/
theorem Program.ofText?_error {limits : Limits} {text : String} {complaint : Complaint}
    (h : Grammar.scriptRule (Grammar.within (8 * (tokens limits.maxStringSize text).length + 16))
      { limits, maxLevel := limits.maxExprDepth, isTop := true }
      { tokens := tokens limits.maxStringSize text } = .error complaint) :
    Program.ofText? limits text = .error complaint := by
  simp only [Program.ofText?, h]

/-- There is always a next token. -/
theorem tokensFrom_eq_cons (limit fuel : ℕ) (state : ScanState) (cursor : Cursor) :
    ∃ u l, tokensFrom limit (fuel + 1) state cursor = u :: l := by
  rw [tokensFrom]
  dsimp only
  split
  · exact ⟨_, [], rfl⟩
  · exact ⟨_, [], rfl⟩
  · exact ⟨_, _, rfl⟩

end ScriptHost.Script

namespace ScriptHost

/-- Operations and sizes are not limited, and functions may have the expressions that the lines of a
bridge have. -/
structure Limits.IsOpen (c : Limits) : Prop where
  /-- Operations are not limited. -/
  operations : c.maxOperations = 0
  /-- Texts are not limited. -/
  strings : c.maxStringSize = 0
  /-- Arrays are not limited. -/
  arrays : c.maxArraySize = 0
  /-- Maps are not limited. -/
  maps : c.maxMapSize = 0
  /-- Expressions of functions may be nested. -/
  functionDepth : c.maxFunctionExprDepth = 0 ∨ 9 ≤ c.maxFunctionExprDepth

end ScriptHost

namespace ScriptHost.Bridge

open ScriptHost.Script ScriptHost.Script.Grammar ScriptHost.Script.Parser

variable {ω : Type} {b : Bridge ω} {limits : Limits} {text : String} {rest : List Char}
  {p : Program}

/-- Where the lines of a bridge end. -/
structure LinesEnd where
  /-- The functions that the lines define. -/
  functions : List Function
  /-- The tokens of the lines. -/
  placed : List Placed
  /-- Whether a sign behind the lines belongs to a number. -/
  signed : Bool
  /-- The position of their end. -/
  pos : Position
  /-- What the lines leave of the bound of the scanner. -/
  spare : ℕ

/-- The tokens behind the lines. -/
def LinesEnd.tokens (l : LinesEnd) (rest : List Char) : List Placed :=
  tokensFrom 0 (l.spare + 2 * rest.length + 1) ⟨l.signed, [], false⟩ ⟨rest, l.pos⟩

/-- The state behind the lines. -/
def LinesEnd.state (l : LinesEnd) (rest : List Char) : ParserState :=
  { tokens := l.tokens rest, functions := l.functions.reverse }

/-- There is a token behind the lines. -/
theorem LinesEnd.tokens_ne_nil (l : LinesEnd) (rest : List Char) : l.tokens rest ≠ [] := by
  obtain ⟨u, us, hus⟩ :=
    tokensFrom_eq_cons 0 (l.spare + 2 * rest.length) ⟨l.signed, [], false⟩ ⟨rest, l.pos⟩
  rw [tokens, hus]
  exact List.cons_ne_nil u us

/-- Texts that begin with the lines of a bridge have their tokens first, and whatever goes on behind
definitions goes on behind the lines. -/
structure LinesEnd.Follows (l : LinesEnd) (b : Bridge ω) (limits : Limits) (n : ℕ) : Prop where
  /-- The tokens of the lines come first. -/
  tokens_eq : ∀ {text : String} {rest : List Char},
    text.toList = b.pieces.flatMap Piece.chars ++ rest →
      Script.tokens limits.maxStringSize text = l.placed ++ l.tokens rest
  /-- The lines are passed. -/
  reaches : ∀ {text : String} {rest : List Char},
    text.toList = b.pieces.flatMap Piece.chars ++ rest →
      ∀ {σ α : Type} {step : σ → Parser (σ ⊕ α)} {x : σ},
        PassesDefinitions (within (n + 12))
          { limits, maxLevel := limits.maxExprDepth, isTop := true } step x →
        Reaches step x { tokens := Script.tokens limits.maxStringSize text } x (l.state rest)

/-- The lines of a bridge end somewhere, with one function for each of them. -/
theorem exists_linesEnd (hlimits : limits.IsOpen) (hnodup : (b.stubs.map Prod.fst).Nodup)
    (hnames : ∀ p ∈ b.stubs, isIdentifier p.1 = true ∧ isReserved p.1 = false) (n : ℕ) :
    ∃ l : LinesEnd, List.Forall₂ (IsStub .expr) b.stubs l.functions ∧ l.Follows b limits n := by
  obtain ⟨placed, signed, pos, spare, hplaced, hscan⟩ :=
    tokens_append (b.pieces_isValid fun p hp => (hnames p hp).1)
  rw [b.pieces_tokens hnames] at hplaced
  obtain ⟨functions, hfunctions, hreaches⟩ := reaches_stubs (n := n) (s := { tokens := [] })
    (c := { limits, maxLevel := limits.maxExprDepth, isTop := true }) rfl hlimits.arrays
    hlimits.functionDepth hnodup (by simp) hplaced
  let l : LinesEnd := ⟨functions, placed, signed, pos, spare⟩
  have htokens {text : String} {rest : List Char}
      (htext : text.toList = b.pieces.flatMap Piece.chars ++ rest) :
      tokens limits.maxStringSize text = l.placed ++ l.tokens rest := by
    rw [hlimits.strings]
    exact hscan rest (b.pieces_areApart _) text htext
  refine ⟨l, hfunctions, htokens, fun {text rest} htext => ?_⟩
  intro σ α step x hpass
  obtain ⟨u, us, hus⟩ := List.exists_cons_of_ne_nil (l.tokens_ne_nil rest)
  have hstart := hreaches hpass u us
  rw [List.append_nil, ← hus] at hstart
  rw [htokens htext]
  exact hstart

/-- A script behind the lines of a bridge has one function for each of them. -/
theorem functions_of_lines (hlimits : limits.IsOpen) (hnodup : (b.stubs.map Prod.fst).Nodup)
    (hnames : ∀ p ∈ b.stubs, isIdentifier p.1 = true ∧ isReserved p.1 = false)
    (htext : text.toList = b.pieces.flatMap Piece.chars ++ rest)
    (hread : Program.ofText? limits text = .ok p) :
    ∃ functions, functions <+: p.functions ∧ List.Forall₂ (IsStub .expr) b.stubs functions := by
  obtain ⟨body, final, hrule, hfinal⟩ := Program.ofText?_eq_ok hread
  obtain ⟨l, hfunctions, hlines⟩ := exists_linesEnd hlimits hnodup hnames
    (8 * (tokens limits.maxStringSize text).length + 4)
  have hkept := functions_of_reaches (o := ⟨fun _ => True, fun _ => True⟩)
    (hlines.reaches htext (passesDefinitions_nextInScript _ _ [])) hrule ⟨by simp, by simp⟩
  refine ⟨l.functions, ?_, hfunctions⟩
  rw [hfinal, ← List.reverse_suffix, List.reverse_reverse]
  exact hkept

/-- A name that a bridge accepts is scanned as a word; it is the name of a function or a fault. -/
theorem wordToken_of_nameProblem? {name : String} (hname : nameProblem? name = none) :
    (∃ c cs, name.toList = c :: cs ∧ isWordStart c = true ∧ cs.all isWordPart = true) ∧
      isReserved name = false ∧
      (isIdentifier name = false → wordToken name = .fault (.identifier name)) := by
  rw [nameProblem?] at hname
  split at hname
  · cases hname
  · next c cs hchars =>
    split_ifs at hname with hstart hpart hlines hreserved
    simp only [Bool.not_eq_true, Bool.not_eq_eq_eq_not, Bool.not_true,
      Bool.or_eq_false_iff] at hstart hpart hlines hreserved
    have hfree := hreserved.1
    refine ⟨⟨c, cs, hchars, by simpa using hstart, by simpa using hpart⟩, hfree, fun hident => ?_⟩
    have hline : (name == "_") = false := by
      refine beq_eq_false_iff_ne.mpr ?_
      rintro rfl
      cases hchars
      cases hlines
    simp only [isReserved, Bool.or_eq_false_iff] at hfree
    simp only [wordToken, hline, hfree.1.1.1, hfree.1.1.2, hfree.1.2, hident, Bool.or_false,
      Bool.false_eq_true, if_false]

/-- A definition of a function whose name is no identifier is scanned up to the name. -/
theorem tokensFrom_badName {name : String} (hname : nameProblem? name = none)
    (hident : isIdentifier name = false) (signed : Bool) (pos : Position) :
    ∃ p q, ∀ {rest : List Char}, (∀ c ∈ rest.head?, isWordPart c = false) → ∀ fuel,
      tokensFrom 0 (fuel + 2) ⟨signed, [], false⟩ ⟨"fn ".toList ++ (name.toList ++ rest), pos⟩ =
        [⟨.mark "fn", p⟩, ⟨.fault (.identifier name), q⟩] := by
  obtain ⟨⟨c, cs, hchars, hc, hcs⟩, -, hfault⟩ := wordToken_of_nameProblem? hname
  have hfn : wordToken "fn" = .mark "fn" := rfl
  let behind : Position := (Piece.blank ' ').past ((Piece.word "fn").past pos)
  refine ⟨pos.advance, behind.advance, fun {rest} hrest fuel => ?_⟩
  have hapart : ∀ c ∈ (' ' :: (name.toList ++ rest)).head?, isWordPart c = false := by
    rintro _ ⟨⟩
    rfl
  have hword := Piece.scanToken_word (by decide +kernel : isWord "fn" = true) 0 hapart signed pos
  have hblank := Piece.scanToken_blank (by decide : (Piece.blank ' ').isValid = true) 0
    (name.toList ++ rest) (Token.mark "fn").allowsSign ((Piece.word "fn").past pos)
  rw [hfn] at hword
  have hbad := Piece.scanToken_chars hchars hc hcs 0 hrest (Token.mark "fn").allowsSign behind
  refine (tokensFrom_succ ⟨Token.noConfusion, fun _ => Token.noConfusion⟩ hword).trans
    (congrArg (List.cons _) ?_)
  rw [tokensFrom, hblank, hbad, hfault hident]

/-- No script is read behind a line that defines a function whose name is no identifier. -/
theorem ofText?_ne_ok (hlimits : limits.IsOpen) (hnodup : (b.stubs.map Prod.fst).Nodup)
    (hnames : ∀ p ∈ b.stubs, isIdentifier p.1 = true ∧ isReserved p.1 = false)
    {name : String} (hname : nameProblem? name = none) (hident : isIdentifier name = false)
    (hrest : ∀ c ∈ rest.head?, isWordPart c = false)
    (htext : text.toList =
      b.pieces.flatMap Piece.chars ++ ("fn ".toList ++ (name.toList ++ rest))) :
    Program.ofText? limits text ≠ .ok p := by
  intro hread
  obtain ⟨body, final, hrule, -⟩ := Program.ofText?_eq_ok hread
  obtain ⟨l, -, hlines⟩ := exists_linesEnd hlimits hnodup hnames
    (8 * (tokens limits.maxStringSize text).length + 4)
  obtain ⟨fuel', hdone⟩ :=
    (hlines.reaches htext (passesDefinitions_nextInScript _ _ [])).untilDone hrule
  obtain ⟨fuel, hfuel⟩ : ∃ k,
      l.spare + 2 * ("fn ".toList ++ (name.toList ++ rest)).length + 1 = k + 2 := by
    have hlength : 3 ≤ ("fn ".toList ++ (name.toList ++ rest)).length := by simp
    exact Nat.exists_eq_add_of_le' (by omega)
  obtain ⟨p, q, htokens⟩ := tokensFrom_badName hname hident l.signed l.pos
  rw [LinesEnd.state, LinesEnd.tokens, hfuel, htokens hrest] at hdone
  exact untilDone_fault (s := { tokens := [], functions := l.functions.reverse }) rfl p q hdone

/-- A line that the scanner stops in, with the lines before it: the name of its function is no
identifier. -/
structure BadLine (b : Bridge ω) where
  /-- The functions before that of the line. -/
  before : Bridge ω
  /-- The name of the function of the line. -/
  name : String
  /-- What follows the name. -/
  rest : List Char
  /-- The lines before it have different names. -/
  nodup : (before.stubs.map Prod.fst).Nodup
  /-- The lines before it have identifiers for names. -/
  names : ∀ p ∈ before.stubs, isIdentifier p.1 = true ∧ isReserved p.1 = false
  /-- A bridge accepts the name. -/
  accepted : nameProblem? name = none
  /-- The name is no identifier. -/
  bad : isIdentifier name = false
  /-- A parenthesis follows the name. -/
  paren : rest.head? = some '('
  /-- The lines of the bridge are those before it and from it on. -/
  chars_eq : b.pieces.flatMap Piece.chars =
    before.pieces.flatMap Piece.chars ++ ("fn ".toList ++ (name.toList ++ rest))

/-- The first bad name of a bridge that could be built has a bad line. -/
theorem exists_badLine {registrations : List (Registration ω)}
    (hbuild : build registrations = .ok b)
    (hbad : ¬ ∀ f ∈ b.functions, isIdentifier f.1 = true) : Nonempty (BadLine b) := by
  obtain ⟨hnodup, hgood⟩ := build_stubs hbuild
  cases hfirst : b.functions.find? fun f => !isIdentifier f.1 with
  | none => exact absurd (by simpa using List.find?_eq_none.mp hfirst) hbad
  | some f =>
    obtain ⟨hident, before, after, hsplit, hbefore⟩ := List.find?_eq_some_iff_append.mp hfirst
    have hmem {g : String × HostFunction ω} (hg : g ∈ before) : g ∈ b.functions := by
      rw [hsplit]
      exact List.mem_append_left _ hg
    have hstubs : b.stubs = (⟨before⟩ : Bridge ω).stubs ++ (⟨f :: after⟩ : Bridge ω).stubs := by
      simp [stubs, hsplit]
    refine ⟨⟨⟨before⟩, f.1, (headerPieces f.2.arity ++ (stubMiddle f.1 ++ (parameterPieces f.2.arity
      ++ stubTail)) ++ (⟨after⟩ : Bridge ω).pieces).flatMap Piece.chars, ?_, ?_,
      (build_go List.Pairwise.nil (by simp) hbuild).2 f (List.mem_of_find?_eq_some hfirst),
      by simpa using hident, ?_, ?_⟩⟩
    · rw [hstubs, List.map_append] at hnodup
      exact (List.nodup_append.mp hnodup).1
    · intro p hp
      obtain ⟨g, hg, rfl⟩ := List.mem_map.mp hp
      exact ⟨by simpa using hbefore g hg, (hgood _ (List.mem_map_of_mem (hmem hg))).1⟩
    · simp only [List.flatMap_append, List.append_assoc, List.head?_append,
        (headerPieces_areApart f.2.arity).2, Option.some_or]
    · simp [pieces, stubs, hsplit, stubPieces, stubHead, Piece.chars]

/-- What follows a bad name is no part of it. -/
theorem BadLine.rest_apart (l : BadLine b) (more : List Char) :
    ∀ c ∈ (l.rest ++ more).head?, isWordPart c = false := by
  intro c hc
  rw [List.head?_append, l.paren, Option.some_or, Option.mem_def, Option.some.injEq] at hc
  subst hc
  rfl

/-- **A name that is no identifier spoils every script of its bridge.** If any script is read behind
the lines of a bridge that could be built, all names of the bridge are identifiers. -/
theorem isIdentifier_of_preamble {registrations : List (Registration ω)}
    (hbuild : build registrations = .ok b) (hlimits : limits.IsOpen) {script : String}
    (hread : Program.ofText? limits (b.preamble ++ script) = .ok p) :
    ∀ f ∈ b.functions, isIdentifier f.1 = true := by
  by_contra hbad
  obtain ⟨l⟩ := exists_badLine hbuild hbad
  refine absurd hread (ofText?_ne_ok hlimits l.nodup l.names l.accepted l.bad
    (l.rest_apart script.toList) ?_)
  rw [String.toList_append, ← pieces_chars, l.chars_eq]
  simp only [List.append_assoc]

/-- The names of a bridge whose scripts are read can be scanned and defined. -/
theorem names_of_build {registrations : List (Registration ω)}
    (hbuild : build registrations = .ok b) (hident : ∀ f ∈ b.functions, isIdentifier f.1 = true) :
    ∀ p ∈ b.stubs, isIdentifier p.1 = true ∧ isReserved p.1 = false := by
  intro p hp
  obtain ⟨f, hf, rfl⟩ := List.mem_map.mp hp
  exact ⟨hident f hf, ((build_stubs hbuild).2 _ hp).1⟩

/-- **The functions of a script begin with those of the bridge.** Whatever is read behind the
lines of a bridge that could be built, the functions that stand for the host functions come
first. -/
theorem functions_of_preamble {registrations : List (Registration ω)}
    (hbuild : build registrations = .ok b) (hlimits : limits.IsOpen) {script : String}
    (hread : Program.ofText? limits (b.preamble ++ script) = .ok p) :
    ∃ functions, functions <+: p.functions ∧ List.Forall₂ (IsStub .expr) b.stubs functions := by
  have hnames := names_of_build hbuild (isIdentifier_of_preamble hbuild hlimits hread)
  have htext : (b.preamble ++ script).toList =
      b.pieces.flatMap Piece.chars ++ script.toList := by
    rw [String.toList_append, pieces_chars]
  exact functions_of_lines hlimits (build_stubs hbuild).1 hnames htext hread

end ScriptHost.Bridge

namespace ScriptHost.Host

open ScriptHost.Script

variable {ω : Type} {h : Host ω} {registrations : List (Registration ω)} {script : String}
  {program : Program}

/-- **A compiled script calls host functions through functions of their names.** For every function
of the bridge the script has one of its name and arity, which does nothing but call the
dispatcher. -/
theorem exists_function (hbuild : Bridge.build registrations = .ok h.bridge)
    (hlimits : h.config.IsOpen)
    (hcompiled : h.compileText (h.sourceOf script) = .ok program) {stub : String × ℕ}
    (hstub : stub ∈ h.bridge.stubs) :
    ∃ f, Evaluation.function? (h.engine program) stub.1 stub.2 = some f ∧
      IsStub .callOnly stub f := by
  rw [compileText] at hcompiled
  split at hcompiled
  · next p hread =>
    cases hcompiled
    obtain ⟨functions, ⟨more, hfunctions⟩, hstubs⟩ :=
      Bridge.functions_of_preamble hbuild hlimits hread
    obtain ⟨f, hfound, hf⟩ := exists_stub (Simplification.stubs_simplified hstubs) hstub
    refine ⟨f, ?_, hf⟩
    have hall : (h.engine p.simplified).functions = (functions.map fun f =>
        { f with body := simplified simplificationBound f.body }) ++ more.map fun f =>
          { f with body := simplified simplificationBound f.body } := by
      rw [← List.map_append, hfunctions]
      rfl
    rw [Evaluation.function?, hall, List.find?_append, hfound]
    rfl
  · cases hcompiled

end ScriptHost.Host
