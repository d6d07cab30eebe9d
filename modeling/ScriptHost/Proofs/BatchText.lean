import Mathlib
import ScriptHost.Batch
import ScriptHost.Proofs.Preamble

/-!
# The text of a batch

The script of a batch as pieces and as tokens. Before the first row there is nothing or a call
without arguments; the pieces of the work on a row are given.
-/

namespace ScriptHost.Batch

open Script

/-- A text that begins with another character does not begin with a brace. -/
theorem startsWith_brace {s : String} {c : Char} {cs : List Char} (hchars : s.toList = c :: cs)
    (hc : c ≠ '\x7b') : s.startsWith "\x7b" = false := by
  rw [String.startsWith_string_eq_false_iff, hchars]
  intro h
  have hbrace : "\x7b".toList = ['\x7b'] := rfl
  rw [hbrace, List.cons_prefix_cons] at h
  exact hc h.1.symm

/-! ## Pieces -/

/-- The names of the variables in quotes. -/
def quotedPieces (names : List String) : List Piece :=
  comma.intercalate (names.map fun n => [.quoted n])

/-- The names of the variables as parameters. -/
def namePieces (names : List String) : List Piece :=
  comma.intercalate (names.map fun n => [.word n])

/-- The value of a variable in a row. -/
def argumentPieces (i : ℕ) : List Piece :=
  [.word "host_batch_row", .mark ".", .word "get", .mark "(", .word "host_batch_vars", .mark "[",
    .number i, .mark "]", .mark ")"]

/-- The values of the variables in a row. -/
def argumentsPieces (size : ℕ) : List Piece :=
  comma.intercalate ((List.range size).map argumentPieces)

/-- What stands in front of the names in quotes. -/
def beforeQuoted : List Piece :=
  [.word "let", .blank ' ', .word "host_batch_vars", .blank ' ', .mark "=", .blank ' ', .mark "["]

/-- What stands between the names in quotes and the first statement. -/
def afterQuoted : List Piece := [.mark "]", .mark ";", .blank '\n']

/-- The call before the first row, on a line of its own. -/
def setupPieces : Option String → List Piece
  | none => []
  | some f => [.word f, .mark "()", .mark ";", .blank '\n']

/-- What stands in front of the names as parameters. -/
def beforeNames : List Piece :=
  [.word "let", .blank ' ', .word "host_batch_fn", .blank ' ', .mark "=", .blank ' ', .mark "|"]

/-- What stands between the parameters and the work on a row. -/
def beforeWork : List Piece := [.mark "|", .blank ' ', .mark "\x7b", .blank '\n']

/-- What stands between the work on a row and the values of the row. -/
def beforeArguments : List Piece :=
  [.blank '\n', .mark "\x7d", .mark ";", .blank '\n', .word "let", .blank ' ',
    .word "host_batch_out", .blank ' ', .mark "=", .blank ' ', .mark "[", .mark "]", .mark ";",
    .blank '\n', .word "for", .blank ' ', .word "host_batch_row", .blank ' ', .word "in",
    .blank ' ',
    .word "host_batch_rows", .blank ' ', .mark "\x7b", .blank '\n', .blank ' ', .blank ' ',
    .blank ' ', .blank ' ', .word "host_batch_out", .mark ".", .word "push", .mark "(",
    .word "host_batch_fn", .mark ".", .word "call", .mark "("]

/-- What stands after the values of a row. -/
def afterArguments : List Piece :=
  [.mark ")", .mark ")", .mark ";", .blank '\n', .mark "\x7d", .blank '\n', .word "host_batch_out"]

/-- The script of a batch with a call before the first row or none, and with work on a row. -/
def pieces (names : List String) (setup : Option String) (work : List Piece) : List Piece :=
  beforeQuoted ++ (quotedPieces names ++ (afterQuoted ++ (setupPieces setup ++ (beforeNames ++
    (namePieces names ++ (beforeWork ++ (work ++ (beforeArguments ++
      (argumentsPieces names.length ++ afterArguments)))))))))

/-- A batch has a call before the first row or none, and work on a row in these pieces. -/
structure Spells (b : Batch) (setup : Option String) (work : List Piece) : Prop where
  /-- The call is all there is before the first row. -/
  setup_chars : (setupPieces setup).flatMap Piece.chars = (line b.setup).toList
  /-- The work on a row is what the batch has for it. -/
  work_chars : work.flatMap Piece.chars =
    (line b.perRow ++ ((if b.result.startsWith "\x7b" then "#" else "") ++ b.result)).toList
  /-- The function that is called may be a function of the script. -/
  setup_name : ∀ f ∈ setup, isIdentifier f = true ∧ isReserved f = false
  /-- The work on a row is made of valid pieces. -/
  isValid : work.all Piece.isValid = true
  /-- The pieces of the work on a row are apart. -/
  areApart : areApart work (some '\n') = true

/-- The characters of the names in quotes. -/
theorem quotedPieces_chars (names : List String) :
    (quotedPieces names).flatMap Piece.chars =
      (joined ", " (names.map fun n => "\"" ++ n ++ "\"")).toList := by
  rw [quotedPieces, chars_intercalate, joined, String.toList_intercalate]
  simp [Function.comp_def, Piece.chars]

/-- The characters of the parameters. -/
theorem namePieces_chars (names : List String) :
    (namePieces names).flatMap Piece.chars = (joined ", " names).toList := by
  rw [namePieces, chars_intercalate, joined, String.toList_intercalate]
  simp [Function.comp_def, Piece.chars]

/-- The characters of the values of a row. -/
theorem argumentsPieces_chars (size : ℕ) :
    (argumentsPieces size).flatMap Piece.chars = (joined ", " ((List.range size).map fun i =>
      "host_batch_row.get(host_batch_vars[" ++ toString i ++ "])")).toList := by
  have hargument (i : ℕ) : (argumentPieces i).flatMap Piece.chars =
      ("host_batch_row.get(host_batch_vars[" ++ toString i ++ "])").toList := by
    have hdigits : (toString i).toList = Nat.toDigits 10 i := by simp [toString, Nat.repr]
    rw [String.toList_append, String.toList_append, hdigits]
    rfl
  rw [argumentsPieces, chars_intercalate, joined, String.toList_intercalate]
  simp only [List.map_map, Function.comp_def, hargument]

variable {b : Batch} {names : List String} {setup : Option String} {work : List Piece}

/-- The characters of the script. -/
theorem pieces_chars (h : b.Spells setup work) (names : List String) :
    (pieces names setup work).flatMap Piece.chars = (b.body names).toList := by
  have hfirst : beforeQuoted.flatMap Piece.chars = "let host_batch_vars = [".toList := by
    decide +kernel
  have hsecond : afterQuoted.flatMap Piece.chars = "];\n".toList := by decide +kernel
  have hthird : beforeNames.flatMap Piece.chars = "let host_batch_fn = |".toList := by
    decide +kernel
  have hfourth : beforeWork.flatMap Piece.chars = "| \x7b\n".toList := by decide +kernel
  have hfifth : beforeArguments.flatMap Piece.chars = ("\n\x7d;\n" ++
      "let host_batch_out = [];\nfor host_batch_row in " ++ rowsName ++ " \x7b\n" ++
      "    host_batch_out.push(host_batch_fn.call(").toList := by decide +kernel
  have hlast : afterArguments.flatMap Piece.chars = "));\n\x7d\nhost_batch_out".toList := by
    decide +kernel
  rw [pieces]
  simp only [List.flatMap_append, quotedPieces_chars, namePieces_chars, argumentsPieces_chars,
    h.setup_chars, h.work_chars, hfirst, hsecond, hthird, hfourth, hfifth, hlast]
  unfold body
  simp only [String.toList_append, List.append_assoc]

/-- The script is made of valid pieces. -/
theorem pieces_isValid (h : b.Spells setup work) (hnames : ∀ n ∈ names, isIdentifier n = true)
    (hsize : names.length ≤ 2 ^ 63) : (pieces names setup work).all Piece.isValid = true := by
  have hsetup : (setupPieces setup).all Piece.isValid = true := by
    cases setup with
    | none => rfl
    | some f =>
      have hword : (Piece.word f).isValid = true := by
        simp [Piece.isValid, isWord, (h.setup_name f rfl).1]
      rw [setupPieces, List.all_cons, hword]
      rfl
  have hquoted : (quotedPieces names).all Piece.isValid = true := by
    refine isValid_intercalate fun ps hps => ?_
    obtain ⟨n, hn, rfl⟩ := List.mem_map.mp hps
    rw [List.all_cons, List.all_nil, Bool.and_true]
    exact isPlain_of_isIdentifier (hnames n hn)
  have hparams : (namePieces names).all Piece.isValid = true := by
    refine isValid_intercalate fun ps hps => ?_
    obtain ⟨n, hn, rfl⟩ := List.mem_map.mp hps
    simp [Piece.isValid, isWord, hnames n hn]
  have hargs : (argumentsPieces names.length).all Piece.isValid = true := by
    refine isValid_intercalate fun ps hps => ?_
    obtain ⟨i, hi, rfl⟩ := List.mem_map.mp hps
    have hnumber : (Piece.number i).isValid = true :=
      decide_eq_true ((List.mem_range.mp hi).trans_le hsize)
    simp only [argumentPieces, List.all_cons, hnumber]
    rfl
  have hfixed : beforeQuoted.all Piece.isValid = true ∧ afterQuoted.all Piece.isValid = true ∧
      beforeNames.all Piece.isValid = true ∧ beforeWork.all Piece.isValid = true ∧
      beforeArguments.all Piece.isValid = true ∧ afterArguments.all Piece.isValid = true := by
    decide +kernel
  obtain ⟨h₁, h₂, h₃, h₄, h₅, h₆⟩ := hfixed
  simp only [pieces, List.all_append, h₁, h₂, h₃, h₄, h₅, h₆, hquoted, hparams, hargs, hsetup,
    h.isValid, Bool.and_true]

/-- The value of a variable is apart from what is no part of a word. -/
theorem argumentPieces_areApart (i : ℕ) {c : Char} (hc : c ∈ [',', ')']) :
    areApart (argumentPieces i) (some c) = true := by
  have hsplit : argumentPieces i =
      [.word "host_batch_row", .mark ".", .word "get", .mark "(", .word "host_batch_vars",
        .mark "["] ++
        [.number i, .mark "]", .mark ")"] := rfl
  have hfront (next : Option Char) : areApart [.word "host_batch_row", .mark ".", .word "get",
      .mark "(", .word "host_batch_vars", .mark "["] next = true := by
    cases next <;> rfl
  rw [hsplit, areApart_append, hfront, Bool.true_and]
  fin_cases hc <;> rfl

/-- The names in quotes are apart from the end of the array. -/
theorem quotedPieces_areApart (names : List String) :
    areApart (quotedPieces names) (some ']') = true := by
  refine areApart_intercalate (fun ps hps => ?_) fun ps hps => ?_
  all_goals
    obtain ⟨n, -, rfl⟩ := List.mem_map.mp hps
    rfl

/-- What stands in front of the parameters is apart from a word. -/
theorem beforeNames_areApart {c : Char} (hc : isWordStart c = true) :
    areApart beforeNames (some c) = true := by
  have hends : (Piece.mark "|").endsBefore c = true := by
    have hne : ∀ d ∈ ['|', '=', '>'], c ≠ d := by
      rintro d hd rfl
      fin_cases hd <;> cases hc
    simp [Piece.endsBefore, pieceMarks, hne '|', hne '=', hne '>']
  have hsplit : beforeNames = beforeNames.dropLast ++ [.mark "|"] := rfl
  have hfront : areApart beforeNames.dropLast (some '|') = true := by decide +kernel
  rw [hsplit, areApart_append, Bool.and_eq_true]
  exact ⟨hfront, by simpa [areApart] using hends⟩

/-- The pieces of the script are apart. -/
theorem pieces_areApart (h : b.Spells setup work) (hnames : ∀ n ∈ names, isIdentifier n = true)
    (hne : names ≠ []) : areApart (pieces names setup work) none = true := by
  have hparams : areApart (namePieces names) (some '|') = true := by
    refine areApart_intercalate (fun ps hps => ?_) fun ps hps => ?_
    all_goals
      obtain ⟨n, -, rfl⟩ := List.mem_map.mp hps
      rfl
  have hargs : areApart (argumentsPieces names.length) (some ')') = true := by
    refine areApart_intercalate (fun ps hps => ?_) fun ps hps => ?_
    all_goals
      obtain ⟨i, -, rfl⟩ := List.mem_map.mp hps
      exact argumentPieces_areApart i (by decide)
  obtain ⟨n, rest, rfl⟩ := List.exists_cons_of_ne_nil hne
  obtain ⟨c, cs, hchars, hc, -⟩ := isIdentifier_chars (hnames n List.mem_cons_self)
  have hbar : ((namePieces (n :: rest)).flatMap Piece.chars).head? = some c :=
    head?_intercalate _ (by simp [Piece.chars, hchars])
  have hparenthesis : ((argumentsPieces (n :: rest).length).flatMap Piece.chars).head? =
      some 'h' := by
    rw [argumentsPieces, List.length_cons, List.range_succ_eq_map, List.map_cons]
    exact head?_intercalate _ rfl
  have hfirst (next : Option Char) : areApart beforeQuoted next = true := by
    cases next <;> rfl
  have hsecond (next : Option Char) : areApart afterQuoted next = true := by
    cases next <;> rfl
  have hsetup (next : Option Char) : areApart (setupPieces setup) next = true := by
    cases setup with
    | none => rfl
    | some f => cases next <;> rfl
  have hthird (next : Option Char) : areApart beforeNames ((some c).or next) = true :=
    beforeNames_areApart hc
  have hfourth (next : Option Char) : areApart beforeWork next = true := by
    cases next <;> rfl
  have hfifth (next : Option Char) : areApart beforeArguments ((some 'h').or next) = true := by
    show areApart beforeArguments (some 'h') = true
    decide +kernel
  rw [pieces]
  simp only [areApart_append, List.flatMap_append, List.head?_append, Option.or_assoc, hbar,
    hparenthesis, hfirst, hsecond, hsetup, hthird, hfourth, hfifth, Bool.true_and, Bool.and_eq_true]
  exact ⟨quotedPieces_areApart _, hparams, h.areApart, hargs, rfl⟩

/-- The tokens of the names in quotes. -/
theorem quotedPieces_tokens (names : List String) :
    (quotedPieces names).filterMap Piece.token? =
      [.mark ","].intercalate (names.map fun n => [.string n]) := by
  rw [quotedPieces, tokens_intercalate]
  simp [Function.comp_def, Piece.token?]

/-- The tokens of the parameters. -/
theorem namePieces_tokens {names : List String}
    (hnames : ∀ n ∈ names, isIdentifier n = true ∧ isReserved n = false) :
    (namePieces names).filterMap Piece.token? =
      [.mark ","].intercalate (names.map fun n => [.name n]) := by
  rw [namePieces, tokens_intercalate, List.map_map]
  congr 1
  refine List.map_congr_left fun n hn => ?_
  obtain ⟨hident, hfree⟩ := hnames n hn
  simp [Piece.token?, wordToken_name hident hfree]

/-- The tokens of the value of a variable in a row. -/
def argumentTokens (i : ℕ) : List Token :=
  [.name "host_batch_row", .mark ".", .name "get", .mark "(", .name "host_batch_vars", .mark "[",
    .int i, .mark "]", .mark ")"]

/-- The tokens of the values of a row. -/
theorem argumentsPieces_tokens (size : ℕ) :
    (argumentsPieces size).filterMap Piece.token? =
      [.mark ","].intercalate ((List.range size).map argumentTokens) := by
  rw [argumentsPieces, tokens_intercalate, List.map_map]
  rfl

/-- The tokens of the declaration of the names. -/
def namesTokens (names : List String) : List Token :=
  .mark "let" :: .name "host_batch_vars" :: .mark "=" :: .mark "[" ::
    ([.mark ","].intercalate (names.map fun n => [.string n]) ++ [.mark "]", .mark ";"])

/-- The tokens of the call before the first row. -/
def setupTokens : Option String → List Token
  | none => []
  | some f => [.name f, .mark "()", .mark ";"]

/-- The tokens of the declaration of the work on a row. -/
def workTokens (names : List String) (work : List Token) : List Token :=
  .mark "let" :: .name "host_batch_fn" :: .mark "=" :: .mark "|" ::
    ([.mark ","].intercalate (names.map fun n => [.name n]) ++ .mark "|" :: .mark "\x7b" ::
      (work ++ [.mark "\x7d", .mark ";"]))

/-- The tokens of the declaration of the results. -/
def resultsTokens : List Token :=
  [.mark "let", .name "host_batch_out", .mark "=", .mark "[", .mark "]", .mark ";"]

/-- The tokens of the loop over the rows. -/
def loopTokens (size : ℕ) : List Token :=
  .mark "for" :: .name "host_batch_row" :: .mark "in" :: .name rowsName ::
    .mark "\x7b" :: .name "host_batch_out" :: .mark "." :: .name "push" :: .mark "(" ::
    .name "host_batch_fn" :: .mark "." :: .reserved "call" :: .mark "(" ::
    ([.mark ","].intercalate ((List.range size).map argumentTokens) ++
      [.mark ")", .mark ")", .mark ";", .mark "\x7d"])

/-- The tokens of the script. -/
def scriptTokens (names : List String) (setup : Option String) (work : List Token) : List Token :=
  namesTokens names ++ (setupTokens setup ++ (workTokens names work ++ (resultsTokens ++
    (loopTokens names.length ++ [.name "host_batch_out"]))))

/-- The script is read as these tokens. -/
theorem pieces_tokens (h : b.Spells setup work)
    (hnames : ∀ n ∈ names, isIdentifier n = true ∧ isReserved n = false) :
    (pieces names setup work).filterMap Piece.token? =
      scriptTokens names setup (work.filterMap Piece.token?) := by
  have hsetup : (setupPieces setup).filterMap Piece.token? = setupTokens setup := by
    cases setup with
    | none => rfl
    | some f =>
      obtain ⟨hident, hfree⟩ := h.setup_name f rfl
      simp [setupPieces, setupTokens, Piece.token?, wordToken_name hident hfree]
  have hfirst : beforeQuoted.filterMap Piece.token? =
      [.mark "let", .name "host_batch_vars", .mark "=", .mark "["] := rfl
  have hsecond : afterQuoted.filterMap Piece.token? = [.mark "]", .mark ";"] := rfl
  have hthird : beforeNames.filterMap Piece.token? =
      [.mark "let", .name "host_batch_fn", .mark "=", .mark "|"] := rfl
  have hfourth : beforeWork.filterMap Piece.token? = [.mark "|", .mark "\x7b"] := rfl
  have hfifth : beforeArguments.filterMap Piece.token? =
      .mark "\x7d" :: .mark ";" :: (resultsTokens ++ [.mark "for", .name "host_batch_row",
        .mark "in", .name rowsName, .mark "\x7b", .name "host_batch_out", .mark ".",
        .name "push", .mark "(", .name "host_batch_fn", .mark ".", .reserved "call", .mark "("]) :=
    rfl
  have hlast : afterArguments.filterMap Piece.token? =
      [.mark ")", .mark ")", .mark ";", .mark "\x7d", .name "host_batch_out"] := rfl
  rw [pieces, scriptTokens]
  simp only [List.filterMap_append, quotedPieces_tokens, namePieces_tokens hnames,
    argumentsPieces_tokens, hsetup, hfirst, hsecond, hthird, hfourth, hfifth, hlast]
  simp only [namesTokens, workTokens, loopTokens, List.cons_append, List.append_assoc,
    List.nil_append]

end ScriptHost.Batch
