import Mathlib
import ScriptHost.Bridge
import ScriptHost.Proofs.Fields
import ScriptHost.Proofs.Pieces
import ScriptHost.Proofs.Statements

/-!
# Reading the lines of the host functions

Every script begins with one definition for each function of the bridge. These lines are read as
functions of the same names and numbers of parameters, and leave nothing else behind.
-/

namespace ScriptHost.Script

/-! ## Pieces with commas between them -/

/-- A function that goes through appending goes through joining. -/
theorem map_intercalate {α β : Type} (f : List α → List β) (hnil : f [] = [])
    (happend : ∀ as bs, f (as ++ bs) = f as ++ f bs) (sep : List α) (items : List (List α)) :
    f (sep.intercalate items) = (f sep).intercalate (items.map f) := by
  induction items with
  | nil => exact hnil
  | cons item items ih =>
    cases items with
    | nil => simp
    | cons other items =>
      rw [List.intercalate_cons_cons, happend, happend, ih]
      simp [List.intercalate_cons_cons]

/-- A comma with a blank after it. -/
def comma : List Piece := [.mark ",", .blank ' ']

/-- The characters of joined pieces. -/
theorem chars_intercalate (items : List (List Piece)) :
    (comma.intercalate items).flatMap Piece.chars =
      (", ".toList).intercalate (items.map (·.flatMap Piece.chars)) :=
  map_intercalate (·.flatMap Piece.chars) rfl (fun _ _ => List.flatMap_append) comma items

/-- The tokens of joined pieces. -/
theorem tokens_intercalate (items : List (List Piece)) :
    (comma.intercalate items).filterMap Piece.token? =
      [.mark ","].intercalate (items.map (·.filterMap Piece.token?)) :=
  map_intercalate (·.filterMap Piece.token?) rfl (fun _ _ => List.filterMap_append) comma items

/-- Joined pieces are valid if all are. -/
theorem isValid_intercalate {items : List (List Piece)}
    (h : ∀ ps ∈ items, ps.all Piece.isValid = true) :
    (comma.intercalate items).all Piece.isValid = true := by
  induction items with
  | nil => rfl
  | cons ps items ih =>
    have hfirst := h ps List.mem_cons_self
    cases items with
    | nil => simpa using hfirst
    | cons qs items =>
      have hrest := ih fun rs hrs => h rs (List.mem_cons_of_mem ps hrs)
      rw [List.intercalate_cons_cons, List.all_append, List.all_append, hfirst, hrest]
      rfl

/-- Joined pieces are apart if each is apart from a comma and from what follows the last. -/
theorem areApart_intercalate {items : List (List Piece)} {next : Option Char}
    (hcomma : ∀ ps ∈ items, areApart ps (some ',') = true)
    (hnext : ∀ ps ∈ items, areApart ps next = true) :
    areApart (comma.intercalate items) next = true := by
  induction items with
  | nil => rfl
  | cons ps items ih =>
    cases items with
    | nil => simpa using hnext ps List.mem_cons_self
    | cons qs items =>
      have hrest := ih (fun rs hrs => hcomma rs (List.mem_cons_of_mem ps hrs))
        fun rs hrs => hnext rs (List.mem_cons_of_mem ps hrs)
      have hfirst := hcomma ps List.mem_cons_self
      rw [List.intercalate_cons_cons, List.append_assoc, areApart_append, areApart_append, hrest]
      have hseparator (following : Option Char) : areApart comma following = true := by
        cases following <;> rfl
      rw [hseparator, Bool.and_true, Bool.and_true]
      exact hfirst

/-- Joined pieces begin as the first of them. -/
theorem head?_intercalate {ps : List Piece} (items : List (List Piece)) {c : Char}
    (hc : (ps.flatMap Piece.chars).head? = some c) :
    ((comma.intercalate (ps :: items)).flatMap Piece.chars).head? = some c := by
  cases items with
  | nil => rwa [List.intercalate_singleton]
  | cons qs items =>
    rw [List.intercalate_cons_cons, List.flatMap_append, List.flatMap_append, List.append_assoc,
      List.head?_append, hc]
    rfl

/-- A token with its position in front of others. -/
theorem map_token_eq_cons {ps : List Placed} {t : Token} {ts : List Token} :
    ps.map Placed.token = t :: ts ↔ ∃ p qs, ps = ⟨t, p⟩ :: qs ∧ qs.map Placed.token = ts := by
  rw [List.map_eq_cons_iff]
  constructor
  · rintro ⟨⟨token, p⟩, qs, rfl, rfl, h⟩
    exact ⟨p, qs, rfl, h⟩
  · rintro ⟨p, qs, rfl, h⟩
    exact ⟨⟨t, p⟩, qs, rfl, rfl, h⟩

/-! ## Parameters -/

/-- The parameter of a host function at a position. -/
def parameterName (i : ℕ) : String := "a" ++ toString i

/-- The parameters of a host function. -/
def parameterNames (arity : ℕ) : List String := (List.range arity).map parameterName

/-- The characters of a parameter. -/
theorem parameterName_toList (i : ℕ) :
    (parameterName i).toList = 'a' :: Nat.toDigits 10 i := by
  rw [parameterName, String.toList_append]
  have hdigits : (toString i).toList = Nat.toDigits 10 i := by
    simp [toString, Nat.repr]
  rw [hdigits]
  rfl

/-- Different positions have different parameters. -/
theorem parameterNames_nodup (arity : ℕ) : (parameterNames arity).Nodup := by
  refine List.Nodup.map (fun i j h => ?_) List.nodup_range
  have hchars : (parameterName i).toList = (parameterName j).toList := by rw [h]
  rw [parameterName_toList, parameterName_toList, List.cons.injEq] at hchars
  have hvalue := congrArg (fun cs => Nat.ofDigitChars 10 cs 0) hchars.2
  simpa using hvalue

/-- A parameter is an identifier. -/
theorem isIdentifier_parameterName (i : ℕ) : isIdentifier (parameterName i) = true := by
  have hdigit : ∀ c ∈ Nat.toDigits 10 i, c.isDigit = true := fun c hc =>
    Nat.isDigit_of_mem_toDigits (by decide) (by decide) hc
  rw [isIdentifier, parameterName_toList]
  have hrest : (Nat.toDigits 10 i).all isWordPart = true :=
    List.all_eq_true.mpr fun c hc => isWordPart_of_isDigit (hdigit c hc)
  rw [List.dropWhile_cons_of_neg (by decide)]
  simp only [hrest]
  rfl

/-- No parameter is a reserved word: these have no digits. -/
theorem isReserved_parameterName (i : ℕ) : isReserved (parameterName i) = false := by
  have hwords : ∀ w ∈ "global" :: (keywords ++ callableWords ++ reservedWords),
      w.toList.any Char.isDigit = false := by
    have hcheck : ("global" :: (keywords ++ callableWords ++ reservedWords)).all
        (fun w => !w.toList.any Char.isDigit) = true := by decide +kernel
    simpa using List.all_eq_true.mp hcheck
  have hdigit : (parameterName i).toList.any Char.isDigit = true := by
    rw [parameterName_toList]
    cases hdigits : Nat.toDigits 10 i with
    | nil => exact absurd hdigits Nat.toDigits_ne_nil
    | cons c cs =>
      have hc : c.isDigit = true :=
        Nat.isDigit_of_mem_toDigits (by decide) (by decide) (hdigits ▸ List.mem_cons_self)
      simp [hc]
  by_contra h
  have hmem : parameterName i ∈ "global" :: (keywords ++ callableWords ++ reservedWords) := by
    simp only [isReserved, Bool.not_eq_false, Bool.or_eq_true, List.contains_iff_mem,
      beq_iff_eq] at h
    simp only [List.mem_cons, List.mem_append]
    exact h.symm
  rw [hwords _ hmem] at hdigit
  cases hdigit

/-- The parameters of a host function as pieces. -/
def parameterPieces (arity : ℕ) : List Piece :=
  comma.intercalate ((List.range arity).map fun i => [.word (parameterName i)])

/-- The characters of the parameters. -/
theorem parameterPieces_chars (arity : ℕ) :
    (parameterPieces arity).flatMap Piece.chars =
      (joined ", " ((List.range arity).map fun i => "a" ++ toString i)).toList := by
  rw [parameterPieces, chars_intercalate, joined, String.toList_intercalate]
  simp [Function.comp_def, Piece.chars, parameterName]

/-- The parameters are valid pieces. -/
theorem parameterPieces_isValid (arity : ℕ) :
    (parameterPieces arity).all Piece.isValid = true := by
  refine isValid_intercalate fun ps hps => ?_
  obtain ⟨i, -, rfl⟩ := List.mem_map.mp hps
  simp [Piece.isValid, isWord, isIdentifier_parameterName]

/-- The parameters are apart in front of a character that is no part of a word. -/
theorem parameterPieces_areApart (arity : ℕ) {c : Char} (hc : isWordPart c = false) :
    areApart (parameterPieces arity) (some c) = true := by
  refine areApart_intercalate (fun ps hps => ?_) fun ps hps => ?_
  · obtain ⟨i, -, rfl⟩ := List.mem_map.mp hps
    rfl
  · obtain ⟨i, -, rfl⟩ := List.mem_map.mp hps
    simp [areApart, Piece.endsBefore, hc]

/-- The tokens of the parameters. -/
theorem parameterPieces_tokens (arity : ℕ) :
    (parameterPieces arity).filterMap Piece.token? =
      [.mark ","].intercalate ((parameterNames arity).map fun x => [.name x]) := by
  rw [parameterPieces, tokens_intercalate]
  simp [Function.comp_def, Piece.token?, parameterNames,
    wordToken_name (isIdentifier_parameterName _) (isReserved_parameterName _)]

/-! ## Lines -/

/-- The parameters in parentheses. -/
def headerPieces : ℕ → List Piece
  | 0 => [.mark "()"]
  | n + 1 => .mark "(" :: (parameterPieces (n + 1) ++ [.mark ")"])

/-- The begin of the line of a host function, up to its name. -/
def stubHead (name : String) : List Piece := [.word "fn", .blank ' ', .word name]

/-- What stands between the parameters and the arguments of the dispatcher. -/
def stubMiddle (name : String) : List Piece :=
  [.blank ' ', .mark "\x7b", .blank ' ', .word hostBinding, .mark "(", .quoted name, .mark ",",
    .blank ' ', .mark "["]

/-- The end of the line of a host function. -/
def stubTail : List Piece := [.mark "]", .mark ")", .blank ' ', .mark "\x7d", .blank '\n']

/-- The line of a host function. -/
def stubPieces (name : String) (arity : ℕ) : List Piece :=
  stubHead name ++ (headerPieces arity ++ (stubMiddle name ++ (parameterPieces arity ++ stubTail)))

/-- The tokens of the parameters in parentheses. -/
def headerTokens : ℕ → List Token
  | 0 => [.mark "()"]
  | n + 1 =>
    .mark "(" :: ([.mark ","].intercalate ((parameterNames (n + 1)).map fun x => [.name x]) ++
      [.mark ")"])

/-- The tokens of the end of the line of a host function. -/
def stubEnd : List Token := [.mark "]", .mark ")", .mark "\x7d"]

/-- The tokens of the line of a host function. -/
def stubTokens (name : String) (arity : ℕ) : List Token :=
  .mark "fn" :: .name name :: (headerTokens arity ++ .mark "\x7b" :: .name hostBinding ::
    .mark "(" :: .string name :: .mark "," :: .mark "[" ::
    ([.mark ","].intercalate ((parameterNames arity).map fun x => [.name x]) ++ stubEnd))

/-- The characters of a line. -/
theorem stubPieces_chars (name : String) (arity : ℕ) :
    (stubPieces name arity).flatMap Piece.chars = (stub name arity).toList := by
  have hheader : (headerPieces arity).flatMap Piece.chars =
      "(".toList ++ ((joined ", " ((List.range arity).map fun i => "a" ++ toString i)).toList ++
        ")".toList) := by
    cases arity with
    | zero => rfl
    | succ n =>
      rw [headerPieces, List.flatMap_cons, List.flatMap_append, parameterPieces_chars]
      rfl
  have hhead : (stubHead name).flatMap Piece.chars = "fn ".toList ++ name.toList := by
    simp [stubHead, Piece.chars]
  have hmiddle : ")".toList ++ (stubMiddle name).flatMap Piece.chars =
      ") \x7b ".toList ++ (hostBinding.toList ++ ("(\"".toList ++ (name.toList ++
        "\", [".toList))) := by
    simp [stubMiddle, Piece.chars]
  have htail : stubTail.flatMap Piece.chars = "]) \x7d\n".toList := rfl
  rw [stubPieces]
  simp only [List.flatMap_append, hhead, hheader, parameterPieces_chars, htail, List.append_assoc]
  rw [← List.append_assoc ")".toList, hmiddle]
  unfold stub
  simp only [String.toList_append, List.append_assoc]

/-- The characters of a word may stand in a quoted text. -/
theorem isPlain_chars {w : String} {c : Char} {cs : List Char} (hchars : w.toList = c :: cs)
    (hc : isWordStart c = true) (hcs : cs.all isWordPart = true) : w.toList.all isPlain = true := by
  have hplain {d : Char} (hd : isWordPart d = true) : isPlain d = true := by
    by_contra h
    simp only [isPlain, Bool.and_eq_true, bne_iff_ne, not_and_or, not_not] at h
    rcases h with (rfl | rfl) | rfl
    all_goals cases hd
  rw [hchars, List.all_cons, hplain (isWordPart_of_isWordStart hc), Bool.true_and]
  exact List.all_eq_true.mpr fun d hd => hplain (List.all_eq_true.mp hcs d hd)

/-- The characters of an identifier may stand in a quoted text. -/
theorem isPlain_of_isIdentifier {w : String} (hw : isIdentifier w = true) :
    w.toList.all isPlain = true := by
  obtain ⟨c, cs, hchars, hc, hcs⟩ := isIdentifier_chars hw
  exact isPlain_chars hchars hc hcs

/-- A line is made of valid pieces. -/
theorem stubPieces_isValid {name : String} (hname : isIdentifier name = true) (arity : ℕ) :
    (stubPieces name arity).all Piece.isValid = true := by
  have hheader : (headerPieces arity).all Piece.isValid = true := by
    cases arity with
    | zero => rfl
    | succ n =>
      rw [headerPieces, List.all_cons, List.all_append, parameterPieces_isValid]
      rfl
  have hword : (Piece.word name).isValid = true := by simp [Piece.isValid, isWord, hname]
  have hquoted : (Piece.quoted name).isValid = true := isPlain_of_isIdentifier hname
  simp only [stubPieces, stubHead, stubMiddle, List.all_append, hheader, parameterPieces_isValid,
    List.all_cons, hword, hquoted]
  rfl

/-- Some parameters begin with a letter. -/
theorem parameterPieces_head? (n : ℕ) :
    ((parameterPieces (n + 1)).flatMap Piece.chars).head? = some 'a' := by
  rw [parameterPieces, List.range_succ_eq_map, List.map_cons]
  exact head?_intercalate _ (by simp [Piece.chars, parameterName_toList])

/-- Parameters in parentheses are apart from a blank and begin with a parenthesis. -/
theorem headerPieces_areApart (arity : ℕ) :
    areApart (headerPieces arity) (some ' ') = true ∧
      ((headerPieces arity).flatMap Piece.chars).head? = some '(' := by
  cases arity with
  | zero => exact ⟨rfl, rfl⟩
  | succ n =>
    have hclose := parameterPieces_areApart (n + 1) (by decide : isWordPart ')' = false)
    refine ⟨?_, rfl⟩
    rw [headerPieces, areApart, areApart_append, List.flatMap_append, List.head?_append,
      parameterPieces_head?, Bool.and_eq_true, Bool.and_eq_true]
    exact ⟨rfl, hclose, rfl⟩

/-- The pieces of a line are apart, whatever follows. -/
theorem stubPieces_areApart (name : String) (arity : ℕ) (next : Option Char) :
    areApart (stubPieces name arity) next = true := by
  obtain ⟨hheader, hhead⟩ := headerPieces_areApart arity
  have hparameters := parameterPieces_areApart arity (by decide : isWordPart ']' = false)
  have hfirst (following : Option Char) :
      areApart (stubHead name) ((some '(').or following) = true := by
    rw [stubHead, areApart, areApart, Bool.and_eq_true, Bool.and_eq_true]
    exact ⟨rfl, by simp [Piece.endsBefore], rfl⟩
  have hmiddle (following : Option Char) : areApart (stubMiddle name) following = true := by
    cases following <;> rfl
  have hlast : areApart stubTail next = true := by
    cases next <;> rfl
  simp only [stubPieces, areApart_append, List.flatMap_append, List.head?_append, Option.or_assoc,
    hhead, hfirst, hmiddle, hlast, Bool.and_true, Bool.true_and, Bool.and_eq_true]
  exact ⟨hheader, hparameters⟩

/-- The tokens of a line. -/
theorem stubPieces_tokens {name : String} (hname : isIdentifier name = true)
    (hfree : isReserved name = false) (arity : ℕ) :
    (stubPieces name arity).filterMap Piece.token? = stubTokens name arity := by
  have hheader : (headerPieces arity).filterMap Piece.token? = headerTokens arity := by
    cases arity with
    | zero => rfl
    | succ n =>
      rw [headerPieces, headerTokens, List.filterMap_cons_some (f := Piece.token?) rfl,
        List.filterMap_append, parameterPieces_tokens]
      rfl
  have hfirst : (stubHead name).filterMap Piece.token? = [.mark "fn", .name name] := by
    simp only [stubHead, List.filterMap_cons, Piece.token?, wordToken_name hname hfree]
    rfl
  rw [stubPieces, stubTokens]
  simp only [List.filterMap_append, hheader, hfirst, parameterPieces_tokens]
  rfl

/-! ## Reading the lines -/

/-- An expression that gathers variables in an array. -/
inductive Gathers : List String → Expr → Prop where
  /-- An array of the variables. -/
  | array {names : List String} {items : List Expr}
      (h : List.Forall₂ (fun x e => ∃ p, e = .var x true p) names items) (p : Position) :
      Gathers names (.array items p)
  /-- The value of an array without items. -/
  | empty (p : Position) : Gathers [] (.literal (.array []) p)

/-- An expression that calls the dispatcher for a host function with variables. -/
inductive IsDispatch (name : String) (params : List String) : Expr → Prop where
  /-- The dispatcher gets the name of the function and an array. -/
  | call {array : Expr} (h : Gathers params array) (p q : Position) :
      IsDispatch name params (.call hostBinding [.literal (.string name) p, array] false q)

/-- The function of a script that stands for a host function: all it does is to call the
dispatcher, as a statement of some kind. -/
def IsStub (kind : Expr → Stmt) (p : String × ℕ) (f : Function) : Prop :=
  ∃ e, IsDispatch p.1 (parameterNames p.2) e ∧ f = ⟨p.1, parameterNames p.2, [kind e]⟩

/-- The name of the function that stands for a host function. -/
theorem IsStub.name {kind : Expr → Stmt} {p : String × ℕ} {f : Function} (h : IsStub kind p f) :
    f.name = p.1 := by
  obtain ⟨e, -, rfl⟩ := h
  rfl

/-- The number of parameters of the function that stands for a host function. -/
theorem IsStub.arity {kind : Expr → Stmt} {p : String × ℕ} {f : Function} (h : IsStub kind p f) :
    f.params.length = p.2 := by
  obtain ⟨e, -, rfl⟩ := h
  simp [parameterNames]

/-- The names and numbers of parameters of the functions that stand for host functions. -/
theorem map_stubs {kind : Expr → Stmt} {stubs : List (String × ℕ)} {functions : List Function}
    (h : List.Forall₂ (IsStub kind) stubs functions) :
    functions.map (fun f => (f.name, f.params.length)) = stubs := by
  induction h with
  | nil => rfl
  | cons hfirst _ ih => rw [List.map_cons, ih, hfirst.name, hfirst.arity]

/-- Among functions that stand for host functions there is the one for each of them. -/
theorem exists_stub {kind : Expr → Stmt} {stubs : List (String × ℕ)} {functions : List Function}
    (h : List.Forall₂ (IsStub kind) stubs functions) {p : String × ℕ} (hp : p ∈ stubs) :
    ∃ f, functions.find? (fun f => f.name == p.1 && f.params.length == p.2) = some f ∧
      IsStub kind p f := by
  induction h with
  | nil => cases hp
  | @cons q f stubs functions hf _ ih =>
    by_cases hq : q = p
    · subst hq
      exact ⟨f, by simp [hf.name, hf.arity], hf⟩
    · have hother : (f.name == p.1 && f.params.length == p.2) = false := by
        rw [hf.name, hf.arity, Bool.and_eq_false_iff, beq_eq_false_iff_ne, beq_eq_false_iff_ne]
        by_contra hsame
        push Not at hsame
        exact hq (Prod.ext hsame.1 hsame.2)
      rw [List.find?_cons_of_neg (by simp [hother])]
      exact ih ((List.mem_cons.mp hp).resolve_left (Ne.symm hq))

/-- Among functions that stand for host functions there is none for any other name. -/
theorem no_stub {kind : Expr → Stmt} {stubs : List (String × ℕ)} {functions : List Function}
    (h : List.Forall₂ (IsStub kind) stubs functions) {p : String × ℕ} (hp : p ∉ stubs) :
    functions.find? (fun f => f.name == p.1 && f.params.length == p.2) = none := by
  refine List.find?_eq_none.mpr fun f hf hmatch => hp ?_
  simp only [Bool.and_eq_true, beq_iff_eq] at hmatch
  rw [← map_stubs h, show p = (f.name, f.params.length) from Prod.ext hmatch.1.symm hmatch.2.symm]
  exact List.mem_map_of_mem hf

namespace Grammar

open ScriptHost.Script.Parser ParserState

variable {n k : ℕ} {c : Context} {s : ParserState} {u : Placed} {l : List Placed}

/-- The parameters in parentheses are the head of a function. -/
theorem exists_header {arity : ℕ} {ps : List Placed}
    (hps : ps.map Placed.token = headerTokens arity) : Header ps (parameterNames arity) := by
  cases arity with
  | zero =>
    obtain ⟨p, rest, rfl, hrest⟩ := map_token_eq_cons.mp hps
    obtain rfl := List.map_eq_nil_iff.mp hrest
    exact .none p
  | succ n =>
    obtain ⟨p, rest, rfl, hrest⟩ := map_token_eq_cons.mp hps
    obtain ⟨qs, last, rfl, hqs, hlast⟩ := List.map_eq_append_iff.mp hrest
    obtain ⟨q, others, rfl, hothers⟩ := map_token_eq_cons.mp hlast
    obtain rfl := List.map_eq_nil_iff.mp hothers
    exact .some (by simp [parameterNames]) (parameterNames_nodup _) hqs p q

/-- The declared variables are in sight. -/
theorem declared_declaringAll (s : ParserState) {names : List String} {x : String}
    (hx : x ∈ names) :
    (s.declaringAll names).declared.any (·.name == x) = true := by
  rw [declaringAll_eq]
  simpa using .inl hx

/-- The parameters in brackets are an array of them. -/
theorem reads_parameters (hs : s.Calm) {arity : ℕ}
    (hknown : ∀ x ∈ parameterNames arity, s.declared.any (·.name == x) = true)
    {ps : List Placed} (p q : Position)
    (hps : ps.map Placed.token =
      [.mark ","].intercalate ((parameterNames arity).map fun x => [.name x])) :
    ∃ e, Reads (n + 6) 4 s (⟨.mark "[", p⟩ :: (ps ++ [⟨.mark "]", q⟩])) e ∧
      Gathers (parameterNames arity) e := by
  cases arity with
  | zero =>
    obtain rfl := List.map_eq_nil_iff.mp hps
    exact ⟨_, (reads_emptyArray (n := n + 3) (k := 0) hs p q).mono (by decide), .array .nil p⟩
  | succ m =>
    obtain ⟨es, hlisted, hkinds⟩ := exists_listed (n := n + 3) (k := 1) (s := s)
      (by simp [parameterNames] : parameterNames (m + 1) ≠ []) (fun x e => ∃ r, e = .var x true r)
      (fun x hx qs hqs => by
        obtain ⟨r, rest, rfl, hrest⟩ := map_token_eq_cons.mp hqs
        obtain rfl := List.map_eq_nil_iff.mp hrest
        exact ⟨_, reads_known hs (hknown x hx) r, r, rfl⟩) hps
    exact ⟨_, reads_array hs hlisted p q, .array hkinds p⟩

/-- The line of a host function defines a function that calls the dispatcher. -/
theorem statement_stub (htop : c.isTop = true) (hlimit : c.limits.maxArraySize = 0)
    (hroom : c.limits.maxFunctionExprDepth = 0 ∨ 9 ≤ c.limits.maxFunctionExprDepth)
    {name : String} {arity : ℕ}
    (hnew : (s.functions.any fun f => f.name == name && f.params.length == arity) = false)
    {ps : List Placed} (hps : ps.map Placed.token = stubTokens name arity) :
    ∃ o f ts, ps = ⟨.mark "fn", o⟩ :: ts ∧ IsStub .expr (name, arity) f ∧ ∀ u l,
      (within (n + 12)).statement c (s.facing (ps ++ u :: l)) = .ok (.noop o,
        ({ s with functions := f :: s.functions } : ParserState).facing (u :: l)) := by
  obtain ⟨o, ts₁, rfl, h₁⟩ := map_token_eq_cons.mp hps
  obtain ⟨p, ts₂, rfl, h₂⟩ := map_token_eq_cons.mp h₁
  obtain ⟨header, ts₃, rfl, hheader, h₃⟩ := List.map_eq_append_iff.mp h₂
  obtain ⟨r, ts₄, rfl, h₄⟩ := map_token_eq_cons.mp h₃
  obtain ⟨p₁, ts₅, rfl, h₅⟩ := map_token_eq_cons.mp h₄
  obtain ⟨p₂, ts₆, rfl, h₆⟩ := map_token_eq_cons.mp h₅
  obtain ⟨p₃, ts₇, rfl, h₇⟩ := map_token_eq_cons.mp h₆
  obtain ⟨p₄, ts₈, rfl, h₈⟩ := map_token_eq_cons.mp h₇
  obtain ⟨p₅, ts₉, rfl, h₉⟩ := map_token_eq_cons.mp h₈
  obtain ⟨qs, ts₁₀, rfl, hqs, h₁₀⟩ := List.map_eq_append_iff.mp h₉
  obtain ⟨p₆, ts₁₁, rfl, h₁₁⟩ := map_token_eq_cons.mp h₁₀
  obtain ⟨p₇, ts₁₂, rfl, h₁₂⟩ := map_token_eq_cons.mp h₁₁
  obtain ⟨w, ts₁₃, rfl, h₁₃⟩ := map_token_eq_cons.mp h₁₂
  obtain rfl := List.map_eq_nil_iff.mp h₁₃
  have hcalm : (s.fresh.declaringAll (parameterNames arity)).inner.Calm := by
    rw [declaringAll_eq]
    exact ⟨rfl, rfl⟩
  obtain ⟨array, harray, hgathers⟩ := reads_parameters (n := n) hcalm
    (fun x hx => declared_declaringAll s.fresh hx) p₅ p₆ hqs
  have hcall := reads_call (n := n + 6) hcalm
    (.cons p₄ (reads_string (n := n + 3) (k := 3) hcalm name p₃) (.last harray)) hostBinding
    p₁ p₂ p₇
  refine ⟨o, ⟨name, parameterNames arity, [.expr (.call hostBinding
    [.literal (.string name) p₃, array] false p₁)]⟩, _, rfl, ⟨_, .call hgathers p₃ p₁, rfl⟩,
    fun u l => ?_⟩
  have hdefinition := statement_definition (n := n + 10) (k := 7) htop hlimit hroom
    (exists_header hheader) (by simpa [parameterNames] using hnew) o p r w (.last hcall) (u := u)
    (l := l)
  simpa using hdefinition

/-- A repetition that goes on unchanged behind the definition of a function. -/
def PassesDefinitions {σ α : Type} (g : Grammar) (c : Context) (step : σ → Parser (σ ⊕ α))
    (x : σ) : Prop :=
  ∀ (s s' : ParserState) (o p : Position) (ts : List Placed),
    g.statement c (s.facing (⟨.mark "fn", o⟩ :: ts)) = .ok (.noop p, s') →
      step x (s.facing (⟨.mark "fn", o⟩ :: ts)) = .ok (.inl x, s')

/-- A script goes on behind the definition of a function. -/
theorem passesDefinitions_nextInScript (g : Grammar) (c : Context) (body : List Stmt) :
    PassesDefinitions g c (nextInScript g c) body :=
  fun _ _ _ _ _ h => nextInScript_noop Token.noConfusion h rfl body

/-- **The lines of the host functions are read as functions that call the dispatcher.** Whatever
goes on behind definitions goes on behind the lines as it would without them, but for these
functions. -/
theorem reaches_stubs (htop : c.isTop = true) (hlimit : c.limits.maxArraySize = 0)
    (hroom : c.limits.maxFunctionExprDepth = 0 ∨ 9 ≤ c.limits.maxFunctionExprDepth)
    {stubs : List (String × ℕ)} (hnodup : (stubs.map Prod.fst).Nodup)
    (hnew : ∀ f ∈ s.functions, f.name ∉ stubs.map Prod.fst) {ps : List Placed}
    (hps : ps.map Placed.token = stubs.flatMap fun p => stubTokens p.1 p.2) :
    ∃ functions : List Function, List.Forall₂ (IsStub .expr) stubs functions ∧
      ∀ {σ α : Type} {step : σ → Parser (σ ⊕ α)} {x : σ},
        PassesDefinitions (within (n + 12)) c step x → ∀ (u : Placed) (l : List Placed),
        Reaches step x (s.facing (ps ++ u :: l)) x
          (({ s with functions := functions.reverse ++ s.functions } : ParserState).facing
            (u :: l)) := by
  induction stubs generalizing s ps with
  | nil =>
    obtain rfl := List.map_eq_nil_iff.mp hps
    exact ⟨[], .nil, fun _ u l => .refl _ _⟩
  | cons stub stubs ih =>
    obtain ⟨name, arity⟩ := stub
    obtain ⟨first, others, rfl, hfirst, hothers⟩ := List.map_eq_append_iff.mp hps
    obtain ⟨hname, hnodup'⟩ := List.nodup_cons.mp hnodup
    have hfree : (s.functions.any fun f => f.name == name && f.params.length == arity) = false := by
      refine List.any_eq_false.mpr fun f hf hsame => ?_
      obtain ⟨hsame, -⟩ := Bool.and_eq_true_iff.mp hsame
      exact hnew f hf (List.mem_cons.mpr (.inl (beq_iff_eq.mp hsame)))
    obtain ⟨o, f, ts, rfl, hf, hstub⟩ := statement_stub (n := n) htop hlimit hroom hfree hfirst
    obtain ⟨functions, hfunctions, hrest⟩ := ih (s := { s with functions := f :: s.functions })
      hnodup' (fun g hg => by
        rcases List.mem_cons.mp hg with rfl | hg
        · rw [hf.name]
          exact hname
        · exact fun hmem => hnew g hg (List.mem_cons_of_mem _ hmem)) hothers
    refine ⟨f :: functions, .cons hf hfunctions, fun hpass u l => ?_⟩
    have hreaches := hrest hpass u l
    obtain ⟨v, vs, hvs⟩ := List.exists_cons_of_ne_nil (List.append_ne_nil_of_right_ne_nil others
      (List.cons_ne_nil u l))
    rw [List.append_assoc, hvs]
    rw [hvs] at hreaches
    refine .more (hpass _ _ _ _ _ (hstub v vs)) ?_ (by simpa using hreaches)
    simp only [facing_tokens, List.length_append, List.length_cons]
    omega

end Grammar

end ScriptHost.Script

/-! ## Bridges -/

namespace ScriptHost.Bridge

open ScriptHost.Script

variable {ω : Type}

/-- The names and arities of the functions. -/
def stubs (b : Bridge ω) : List (String × ℕ) := b.functions.map fun p => (p.1, p.2.arity)

/-- The pieces of all lines. -/
def pieces (b : Bridge ω) : List Piece := b.stubs.flatMap fun p => stubPieces p.1 p.2

/-- The characters of all lines. -/
theorem pieces_chars (b : Bridge ω) : b.pieces.flatMap Piece.chars = b.preamble.toList := by
  obtain ⟨functions⟩ := b
  rw [pieces, stubs, preamble, String.toList_intercalate]
  induction functions with
  | nil => rfl
  | cons p functions ih =>
    rw [List.map_cons, List.flatMap_cons, List.flatMap_append, ih, stubPieces_chars]
    cases functions with
    | nil => simp
    | cons q functions => simp [List.intercalate_cons_cons]

/-- The lines are made of valid pieces. -/
theorem pieces_isValid (b : Bridge ω) (hnames : ∀ p ∈ b.stubs, isIdentifier p.1 = true) :
    b.pieces.all Piece.isValid = true := by
  refine List.all_eq_true.mpr fun piece hpiece => ?_
  obtain ⟨p, hp, hpiece⟩ := List.mem_flatMap.mp hpiece
  exact List.all_eq_true.mp (stubPieces_isValid (hnames p hp) p.2) piece hpiece

/-- The pieces of the lines are apart, whatever follows. -/
theorem pieces_areApart (b : Bridge ω) (next : Option Char) : areApart b.pieces next = true := by
  rw [pieces]
  induction b.stubs with
  | nil => rfl
  | cons p stubs ih => rw [List.flatMap_cons, areApart_append, stubPieces_areApart, ih,
      Bool.true_and]

/-- The tokens of the lines. -/
theorem pieces_tokens (b : Bridge ω)
    (hnames : ∀ p ∈ b.stubs, isIdentifier p.1 = true ∧ isReserved p.1 = false) :
    b.pieces.filterMap Piece.token? = b.stubs.flatMap fun p => stubTokens p.1 p.2 := by
  rw [pieces]
  generalize b.stubs = stubs at hnames ⊢
  induction stubs with
  | nil => rfl
  | cons p stubs ih =>
    obtain ⟨hident, hfree⟩ := hnames p List.mem_cons_self
    rw [List.flatMap_cons, List.flatMap_cons, List.filterMap_append, stubPieces_tokens hident hfree,
      ih fun q hq => hnames q (List.mem_cons_of_mem p hq)]

/-- Only functions with good names are registered, and each name once. -/
theorem build_go {registrations : List (Registration ω)}
    {functions : List (String × HostFunction ω)} {b : Bridge ω}
    (hsorted : Fields.Sorted functions) (hnames : ∀ p ∈ functions, nameProblem? p.1 = none)
    (h : build.go functions registrations = .ok b) :
    Fields.Sorted b.functions ∧ ∀ p ∈ b.functions, nameProblem? p.1 = none := by
  induction registrations generalizing functions with
  | nil =>
    cases h
    exact ⟨hsorted, hnames⟩
  | cons r rest ih =>
    rw [build.go] at h
    split at h
    · cases h
    · next hgood =>
      split at h
      · cases h
      · refine ih (hsorted.insert _ _) (fun p hp => ?_) h
        rcases Fields.mem_insert hp with rfl | hp
        · exact hgood
        · exact hnames p hp

/-- The names of a bridge that could be built are different, and no reserved words. -/
theorem build_stubs {registrations : List (Registration ω)} {b : Bridge ω}
    (h : build registrations = .ok b) :
    (b.stubs.map Prod.fst).Nodup ∧
      ∀ p ∈ b.stubs, isReserved p.1 = false ∧ p.1 ≠ hostBinding := by
  obtain ⟨hsorted, hnames⟩ := build_go List.Pairwise.nil (by simp) h
  constructor
  · rw [stubs, List.map_map]
    refine List.Pairwise.map _ (fun p q hlt heq => ?_) hsorted
    have hsame : p.1 = q.1 := heq
    rw [hsame] at hlt
    exact String.lt_irrefl _ hlt
  · intro p hp
    obtain ⟨f, hf, rfl⟩ := List.mem_map.mp hp
    have hgood := hnames f hf
    rw [nameProblem?] at hgood
    split at hgood
    · cases hgood
    · split_ifs at hgood with _ _ _ hreserved
      rw [Bool.not_eq_true, Bool.or_eq_false_iff, beq_eq_false_iff_ne] at hreserved
      exact hreserved

end ScriptHost.Bridge
