import ScriptHost.Script.Token
import ScriptHost.Text.Classes

/-!
# From text to tokens

A scanner reads one token at a cursor; `tokens` runs it over a whole text. Inside a text between
back-quotes, a dollar sign before a brace opens an interpolated block; the scanner keeps the brace
depth of every open block, so that the brace which closes one leads back into the text around it.
-/

namespace ScriptHost.Script

/-- A place in a text that is being scanned. -/
structure Cursor where
  /-- The characters that are left. -/
  rest : List Char
  /-- The position of the last character that was taken. -/
  pos : Position

namespace Cursor

/-- Take one character. -/
def next? (c : Cursor) : Option (Char × Cursor) :=
  match c.rest with
  | [] => none
  | ch :: rest => some (ch, ⟨rest, c.pos.advance⟩)

/-- Take some characters without line breaks. -/
def skip (c : Cursor) (n : Nat) : Cursor :=
  ⟨c.rest.drop n, { c.pos with column := c.pos.column + n }⟩

/-- Move to the next line. -/
def newLine (c : Cursor) : Cursor := { c with pos := c.pos.nextLine }

/-- The next character, without taking it. -/
def peek? (c : Cursor) : Option Char := c.rest.head?

end Cursor

/-! ## Blanks and comments -/

/-- What the scanner is in when it looks for the next token. -/
inductive Gap where
  /-- Between tokens. -/
  | blank
  /-- In a comment up to the end of the line. -/
  | line
  /-- In so many nested comments. -/
  | block (depth : Nat)

/-- Skip blanks and comments. -/
def skipGap : Gap → Position → List Char → Cursor
  | .blank, pos, '/' :: '/' :: rest => skipGap .line pos.advance.advance rest
  | .blank, pos, '/' :: '*' :: rest => skipGap (.block 1) pos.advance.advance rest
  | .blank, pos, c :: rest =>
    if c = '\n' then skipGap .blank pos.nextLine rest
    else if Text.isBlank c then skipGap .blank pos.advance rest
    else ⟨c :: rest, pos⟩
  | .line, pos, '\r' :: '\n' :: rest => skipGap .blank pos.nextLine rest
  | .line, pos, c :: rest =>
    if c = '\n' then skipGap .blank pos.nextLine rest else skipGap .line pos.advance rest
  | .block depth, pos, '/' :: '*' :: rest =>
    skipGap (.block (depth + 1)) pos.advance.advance rest
  | .block depth, pos, '*' :: '/' :: rest =>
    skipGap (if depth ≤ 1 then .blank else .block (depth - 1)) pos.advance.advance rest
  | .block depth, pos, c :: rest =>
    skipGap (.block depth) (if c = '\n' then pos.nextLine else pos.advance) rest
  | _, pos, [] => ⟨[], pos⟩

/-! ## Numbers -/

/-- The value of a hexadecimal digit. -/
def hexValue? (c : Char) : Option Nat :=
  if c.isDigit then some (c.toNat - '0'.toNat)
  else if 'a' ≤ c && c ≤ 'f' then some (c.toNat - 'a'.toNat + 10)
  else if 'A' ≤ c && c ≤ 'F' then some (c.toNat - 'A'.toNat + 10)
  else none

/-- The value of a run of decimal digits. -/
def digitsValue (cs : List Char) : Nat := cs.foldl (fun n c => n * 10 + (c.toNat - '0'.toNat)) 0

/-- The nearest floating-point number to `digits · 10 ^ exponent`. -/
def nearestDecimal (digits : Nat) (exponent : Int) : Float :=
  if digits == 0 || exponent < -5000 then 0.0
  else if 5000 < exponent then 1.0 / 0.0
  else Float.ofScientific digits (exponent < 0) exponent.natAbs

/-- Read a floating-point number: digits, places, and an exponent; `none` if any part is
missing its digits. -/
def floatOfText? (cs : List Char) : Option Float :=
  let (negative, cs) := match cs with
    | '-' :: r => (true, r)
    | '+' :: r => (false, r)
    | r => (false, r)
  let whole := cs.takeWhile Char.isDigit
  let rest := cs.dropWhile Char.isDigit
  let (places, rest) := match rest with
    | '.' :: r => (r.takeWhile Char.isDigit, r.dropWhile Char.isDigit)
    | r => ([], r)
  if whole.isEmpty && places.isEmpty then none
  else
    let mantissa := digitsValue (whole ++ places)
    let build (exponent : Int) : Float :=
      let x := nearestDecimal mantissa (exponent - places.length)
      if negative then -x else x
    match rest with
    | [] => some (build 0)
    | e :: r =>
      if e = 'e' || e = 'E' then
        let (negativeExponent, r) := match r with
          | '-' :: r => (true, r)
          | '+' :: r => (false, r)
          | r => (false, r)
        if r.isEmpty || !r.all Char.isDigit then none
        else
          let n := digitsValue r
          some (build (if negativeExponent then -(n : Int) else n))
      else none

/-- Read a signed 64-bit integer in decimal digits. -/
def intOfText? (cs : List Char) : Option Int :=
  let (negative, digits) := match cs with
    | '-' :: r => (true, r)
    | '+' :: r => (false, r)
    | r => (false, r)
  if digits.isEmpty || !digits.all Char.isDigit then none
  else
    let i : Int := if negative then -(digitsValue digits : Int) else digitsValue digits
    if -(2 ^ 63 : Int) ≤ i && i < (2 ^ 63 : Int) then some i else none

/-- Read digits of a power-of-two base as the bits of a 64-bit integer. -/
def bitsOfText? (base : Nat) (cs : List Char) : Option Int :=
  if cs.isEmpty then none
  else
    let digits := cs.mapM fun c => (hexValue? c).filter (· < base)
    match digits with
    | none => none
    | some ds =>
      let n := ds.foldl (fun n d => n * base + d) 0
      if 2 ^ 64 ≤ n then none
      else some (if n < 2 ^ 63 then n else (n : Int) - 2 ^ 64)

/-- The digits that a number literal takes, without separators, and what is left. -/
structure NumberScan where
  /-- The digits, signs, point and exponent mark, last first. -/
  taken : List Char
  /-- What is left. -/
  cursor : Cursor

/-- What a number literal has had so far. -/
structure NumberShape where
  /-- The base, if it is marked. -/
  base : Option Nat := none
  /-- A point or an exponent. -/
  point : Bool := false
  /-- An exponent. -/
  exponent : Bool := false

/-- Whether a character is a digit of a literal. -/
def NumberShape.takes (shape : NumberShape) (c : Char) : Bool :=
  match shape.base with
  | some 16 => (hexValue? c).isSome
  | _ => c.isDigit

/-- Scan the rest of a number literal. -/
def scanNumber : (fuel : Nat) → NumberShape → NumberScan → NumberShape × NumberScan
  | 0, shape, s => (shape, s)
  | fuel + 1, shape, s =>
    match s.cursor.rest with
    | [] => (shape, s)
    | c :: rest =>
      let one := s.cursor.skip 1
      if c = '_' then scanNumber fuel shape { s with cursor := one }
      else if shape.takes c then scanNumber fuel shape ⟨c :: s.taken, one⟩
      else if c = '.' && !shape.point && shape.base.isNone then
        match rest with
        | [] => scanNumber fuel { shape with point := true } ⟨'0' :: '.' :: s.taken, one⟩
        | d :: _ =>
          if d.isDigit then scanNumber fuel { shape with point := true } ⟨'.' :: s.taken, one⟩
          else if d = '_' || d = '.' || d.isAlpha then (shape, s)
          else scanNumber fuel { shape with point := true } ⟨'0' :: '.' :: s.taken, one⟩
      else if c = 'e' && !shape.exponent && shape.base.isNone then
        let shape' := { shape with point := true, exponent := true }
        match rest with
        | d :: _ =>
          if d.isDigit then scanNumber fuel shape' ⟨'e' :: s.taken, one⟩
          else if d = '+' || d = '-' then
            scanNumber fuel shape' ⟨d :: 'e' :: s.taken, s.cursor.skip 2⟩
          else (shape, s)
        | [] => (shape, s)
      else
        let base? : Option Nat :=
          if c = 'x' || c = 'X' then some 16
          else if c = 'o' || c = 'O' then some 8
          else if c = 'b' || c = 'B' then some 2
          else none
        match base?, s.taken with
        | some base, ['0'] => scanNumber fuel { shape with base := some base } ⟨c :: s.taken, one⟩
        | _, _ => (shape, s)

/-- The token of a number literal. -/
def numberToken (negative : Bool) (shape : NumberShape) (taken : List Char) : Token :=
  let cs := (if negative then ['-'] else []) ++ taken.reverse
  match shape.base with
  | some base =>
    let digits := cs.drop 2
    match bitsOfText? base digits with
    | some i => .int i
    | none => .fault (.number (String.ofList digits))
  | none =>
    match intOfText? cs with
    | some i => .int i
    | none =>
      match floatOfText? cs with
      | some x => .float x (String.ofList cs)
      | none => .fault (.number (String.ofList cs))

/-! ## Texts -/

/-- How a quoted text is read. -/
structure QuoteStyle where
  /-- The closing mark. -/
  mark : Char
  /-- Line breaks stand for themselves, and nothing is escaped. -/
  verbatim : Bool
  /-- A backslash at the end of a line continues the text on the next line. -/
  continues : Bool
  /-- A dollar sign before a brace opens a block. -/
  interpolates : Bool

/-- What a scan of a quoted text found. -/
structure TextScan where
  /-- The text. -/
  text : String
  /-- Whether it ends at a block. -/
  atBlock : Bool
  /-- The position of its first character. -/
  first : Position
  /-- Whether the text of the script ended first. -/
  open_ : Bool
  /-- What is left. -/
  cursor : Cursor

/-- Read hexadecimal digits of an escape. -/
def scanHex : Nat → (seen : List Char) → Nat → Cursor →
    Except (ParseProblem × Position) (Nat × List Char × Cursor)
  | 0, seen, value, c => .ok (value, seen, c)
  | n + 1, seen, value, c =>
    match c.next? with
    | none => .error (.escape (String.ofList seen), c.pos)
    | some (ch, c) =>
      match hexValue? ch with
      | none => .error (.escape (String.ofList (seen ++ [ch])), c.pos)
      | some d => scanHex n (seen ++ [ch]) (value * 16 + d) c

/-- The greatest text within a limit of bytes; a limit of zero is none. -/
def withinLimit (limit size : Nat) : Bool := limit == 0 || size ≤ limit

/-- Scan a quoted text after its opening mark. `escaped` tells that a backslash came before,
`skipUntil` the column up to which blanks of a continued line are dropped. -/
def scanText (style : QuoteStyle) (limit : Nat) (start : Position) :
    (fuel : Nat) → (acc : List Char) → (size : Nat) → (escaped : Bool) → (first : Position) →
      (skipUntil : Nat) → Cursor → Except (ParseProblem × Position) TextScan
  | 0, _, _, _, _, _, _ => .error (.openString, start)
  | fuel + 1, acc, size, escaped, first, skipUntil, c =>
    let finish (atBlock open_ : Bool) (c : Cursor) : Except (ParseProblem × Position) TextScan :=
      if withinLimit limit size then .ok ⟨String.ofList acc.reverse, atBlock, first, open_, c⟩
      else .error (.longString limit, start)
    match c.next? with
    | none =>
      if style.verbatim || (style.continues && escaped) then finish false true c
      else .error (.openString, start)
    | some (ch, c) =>
      let push (d : Char) (first : Position) (skipUntil : Nat) (c : Cursor) :=
        scanText style limit start fuel (d :: acc) (size + d.utf8Size) false first skipUntil c
      if style.interpolates && ch == '$' && !escaped && c.peek? == some '\x7b' then
        finish true false c
      else if !withinLimit limit size then .error (.longString limit, start)
      else if ch == style.mark && !escaped && c.peek? != some ch then finish false false c
      else
        let doubled := ch == style.mark && !escaped
        let c := if doubled then c.skip 1 else c
        let first := first.orElse c.pos
        if ch == '\r' && c.peek? == some '\n' then
          scanText style limit start fuel acc size escaped first skipUntil c
        else if ch == '\\' && !style.verbatim && !escaped then
          scanText style limit start fuel acc size true first skipUntil c
        else if escaped then
          if ch == '\\' then push '\\' first skipUntil c
          else if ch == 't' then push '\t' first skipUntil c
          else if ch == 'n' then push '\n' first skipUntil c
          else if ch == 'r' then push '\r' first skipUntil c
          else if ch == 'x' || ch == 'u' || ch == 'U' then
            let count := if ch == 'x' then 2 else if ch == 'u' then 4 else 8
            match scanHex count ['\\', ch] 0 c with
            | .error e => .error e
            | .ok (value, seen, c) =>
              if value < 0x110000 && !(0xD800 ≤ value && value ≤ 0xDFFF) then
                push (Char.ofNat value) first skipUntil c
              else .error (.escape (String.ofList seen), c.pos)
          else if ch == style.mark then push ch first skipUntil c
          else if ch == '\n' && style.continues then
            scanText style limit start fuel acc size false first (start.column + 1) c.newLine
          else if ch == '\n' then .error (.openString, start)
          else .error (.escape (String.ofList ['\\', ch]), c.pos)
        else if ch == '\n' then
          if style.verbatim then push '\n' first skipUntil c.newLine
          else .error (.openString, start)
        else if Text.isBlank ch && c.pos.column < skipUntil then
          scanText style limit start fuel acc size false first skipUntil c
        else push ch first 0 c

/-- Texts in double quotes. -/
def doubleQuoted : QuoteStyle := ⟨'"', false, true, false⟩

/-- Characters in single quotes. -/
def singleQuoted : QuoteStyle := ⟨'\'', false, false, false⟩

/-- The back-quote. -/
def backQuote : Char := Char.ofNat 96

/-- Texts in back-quotes. -/
def backQuoted : QuoteStyle := ⟨backQuote, true, false, true⟩

/-- Scan a quoted text from its opening mark on. -/
def scanQuoted (style : QuoteStyle) (limit : Nat) (start : Position) (c : Cursor) :
    Except (ParseProblem × Position) TextScan :=
  scanText style limit start (c.rest.length + 1) [] 0 false .none 0 c

/-! ## Words and symbols -/

/-- The token of a word. -/
def wordToken (s : String) : Token :=
  if s == "_" || keywords.contains s then .mark s
  else if callableWords.contains s || reservedWords.contains s then .reserved s
  else if isIdentifier s then .name s
  else .fault (.identifier s)

/-- Symbols with a use, longest first. -/
def symbols : List String :=
  ["**=", "<<=", ">>=", "..=", "()", "#\x7b", "+=", "-=", "*=", "**", "/=", "..", "==", "=>", "::",
    "<=", "<<", ">=", ">>", "!=", "||", "|=", "&&", "&=", "^=", "%=", "?.", "??", "?[", "(", ")",
    "[", "]", "\x7b", "\x7d", "+", "-", "*", "/", ";", ",", ".", "=", ":", "<", ">", "!", "|", "&",
    "^", "%"]

/-- Symbols without a use, with the advice to give if there is one. -/
def reservedSymbols : List (String × Option String) :=
  [("===", some "'===' is not a valid operator. This is not JavaScript! Should it be '=='?"),
    ("!==", some "'!==' is not a valid operator. This is not JavaScript! Should it be '!='?"),
    ("...", none),
    ("::<", some "'::<>' is not a valid symbol. This is not Rust! Should it be '::'?"),
    ("# \x7b", some "'#' is not a valid symbol. Should it be '#\x7b'?"),
    ("++", none), ("--", none), ("|>", none), ("<|", none), ("#!", none), ("!.", none),
    ("->", some "'->' is not a valid symbol. This is not C or C++!"),
    ("<-", some "'<-' is not a valid symbol. This is not Go! Should it be '<='?"),
    (":=", some
      ("':=' is not a valid assignment operator. This is not Pascal or Go! " ++
        "Should it be simply '='?")),
    (":;", some "':;' is not a valid symbol. Should it be '::'?"),
    ("(*", some
      "'(* .. *)' is not a valid comment format. This is not Pascal! Should it be '/* .. */'?"),
    ("*)", some
      "'(* .. *)' is not a valid comment format. This is not Pascal! Should it be '/* .. */'?"),
    ("#", some "'#' is not a valid symbol. Should it be '#\x7b'?"), ("~", none), ("@", none),
    ("$", none), ("?", none)]

/-- The symbol that a text begins with, and its length: of a reserved one and one with a use, the
longer. -/
def symbolToken? (cs : List Char) : Option (Token × Nat) :=
  let starts (s : String) : Bool := s.toList.isPrefixOf cs
  let plain := symbols.find? starts
  match reservedSymbols.find? fun p => starts p.1 with
  | some (s, advice) =>
    match plain with
    | some p =>
      if s.length < p.length then some (.mark p, p.length) else some (reserve s advice, s.length)
    | none => some (reserve s advice, s.length)
  | none => plain.map fun p => (.mark p, p.length)
where
  /-- The token of a reserved symbol. -/
  reserve (s : String) : Option String → Token
    | some advice => .fault (.symbol advice)
    | none => .reserved s

/-! ## Tokens -/

/-- What the scanner remembers between tokens. -/
structure ScanState where
  /-- Whether a sign now belongs to a number. -/
  signed : Bool
  /-- For each open block of a text, innermost first, the braces open in it. -/
  blocks : List Nat
  /-- Whether a text goes on here. -/
  inText : Bool

/-- The state in front of a text. -/
def ScanState.start : ScanState := ⟨true, [], false⟩

/-- Count a brace that opens. -/
def ScanState.openBrace (s : ScanState) : ScanState :=
  match s.blocks with
  | [] => s
  | n :: rest => { s with blocks := (n + 1) :: rest }

/-- Count a brace that closes; the last one of a block leads back into its text. -/
def ScanState.closeBrace (s : ScanState) : ScanState :=
  match s.blocks with
  | [] => s
  | n :: rest =>
    if n ≤ 1 then { s with blocks := rest, inText := true }
    else { s with blocks := (n - 1) :: rest }

/-- A scanned token with what comes after it. -/
structure Scanned where
  /-- The token. -/
  placed : Placed
  /-- The state after it. -/
  state : ScanState
  /-- What is left. -/
  cursor : Cursor

/-- The token of a scanned text. -/
def textToken (state : ScanState) (pos : Position) :
    Except (ParseProblem × Position) TextScan → Scanned
  | .error (problem, at_) => ⟨⟨.fault problem, at_⟩, state, ⟨[], at_⟩⟩
  | .ok scan =>
    if scan.atBlock then
      ⟨⟨.interpolated scan.text, pos⟩, { state with blocks := 0 :: state.blocks }, scan.cursor⟩
    else if scan.open_ then ⟨⟨.fault .openString, pos⟩, state, scan.cursor⟩
    else ⟨⟨.string scan.text, pos⟩, state, scan.cursor⟩

/-- The position that a continued text is reported at. -/
def continuedPosition (fallback : Position) : Except (ParseProblem × Position) TextScan → Position
  | .ok scan => if scan.first.isNone then fallback else scan.first
  | .error _ => fallback

/-- Scan one token; `limit` bounds the bytes of a text literal. -/
def scanToken (limit : Nat) (state : ScanState) (cursor : Cursor) : Scanned :=
  if state.inText then
    let scan := scanQuoted backQuoted limit cursor.pos cursor
    textToken { state with inText := false } (continuedPosition .none scan) scan
  else
    let cursor := skipGap .blank cursor.pos cursor.rest
    match cursor.next? with
    | none => ⟨⟨.eof, cursor.pos.advance⟩, state, cursor⟩
    | some (c, after) =>
      let pos := after.pos
      let yield (t : Token) (n : Nat) : Scanned := ⟨⟨t, pos⟩, state, cursor.skip n⟩
      let number (negative : Bool) (first : Char) (rest : Cursor) : Scanned :=
        let (shape, scan) := scanNumber rest.rest.length {} ⟨[first], rest⟩
        ⟨⟨numberToken negative shape scan.taken, pos⟩, state, scan.cursor⟩
      if c.isDigit then number false c after
      else if isWordStart c then
        let word := cursor.rest.takeWhile isWordPart
        yield (wordToken (String.ofList word)) word.length
      else if c = '"' then textToken state pos (scanQuoted doubleQuoted limit pos after)
      else if c = backQuote then
        let after := match after.rest with
          | '\r' :: '\n' :: _ => (after.skip 2).newLine
          | '\r' :: _ => (after.skip 1).newLine
          | '\n' :: _ => (after.skip 1).newLine
          | _ => after
        textToken state pos (scanQuoted backQuoted limit after.pos after)
      else if c = '\'' then
        if after.peek? == some '\'' then yield (.fault (.character "")) 2
        else
          match scanQuoted singleQuoted limit pos after with
          | .error (problem, at_) => ⟨⟨.fault problem, at_⟩, state, after⟩
          | .ok scan =>
            match scan.text.toList with
            | [ch] => ⟨⟨.char ch, pos⟩, state, scan.cursor⟩
            | _ => ⟨⟨.fault (.character scan.text), pos⟩, state, scan.cursor⟩
      else
        match c, after.rest with
        | '-', d :: _ =>
          if d.isDigit && state.signed then number true d (after.skip 1) else symbol cursor pos c
        | '!', 'i' :: 'n' :: rest =>
          if (rest.head?.map isWordPart).getD false then yield (.mark "!") 1
          else yield (.mark "!in") 3
        | _, _ => symbol cursor pos c
where
  /-- Scan a symbol. -/
  symbol (cursor : Cursor) (pos : Position) (c : Char) : Scanned :=
    match symbolToken? cursor.rest with
    | some (t, n) =>
      let state :=
        if t.isMark "\x7b" || t.isMark "#\x7b" then state.openBrace
        else if t.isMark "\x7d" then state.closeBrace
        else state
      ⟨⟨t, pos⟩, state, cursor.skip n⟩
    | none => ⟨⟨.fault (.unexpected (String.singleton c)), pos⟩, state, cursor.skip 1⟩

/-- The tokens from a cursor on, up to the end or the first fault. -/
def tokensFrom (limit : Nat) : (fuel : Nat) → ScanState → Cursor → List Placed
  | 0, _, _ => []
  | fuel + 1, state, cursor =>
    let s := scanToken limit state cursor
    match s.placed.token with
    | .eof | .fault _ => [s.placed]
    | t => s.placed :: tokensFrom limit fuel { s.state with signed := t.allowsSign } s.cursor

/-- The tokens of a text; the last one is the end or a fault. -/
def tokens (limit : Nat) (text : String) : List Placed :=
  let cs := text.toList
  tokensFrom limit (2 * cs.length + 2) .start ⟨cs, .start⟩

end ScriptHost.Script
