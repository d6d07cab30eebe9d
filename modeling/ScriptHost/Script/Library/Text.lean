import ScriptHost.Script.Library.Number
import ScriptHost.Text.Case

/-!
# Functions on texts

Positions in a text count characters. Functions that change a text change it where it stands.
-/

namespace ScriptHost.Script.Library

/-- A text of characters. -/
def ofChars (cs : List Char) : Datum := .string (String.ofList cs)

/-- What is sought in a text: a text or a character. -/
def pattern? : Datum → Option (List Char)
  | .string s => some s.toList
  | .char c => some [c]
  | _ => none

/-- The position of the first occurrence at or after a number of characters. -/
def findIn (part : List Char) : (position : Nat) → List Char → Option Nat
  | position, [] => if part.isEmpty then some position else none
  | position, c :: rest =>
    if part.isPrefixOf (c :: rest) then some position else findIn part (position + 1) rest

/-- The text in parts between occurrences of a separator, at most `limit` of them. -/
def splitOn (separator : List Char) :
    (limit : Nat) → (acc : List Char) → List Char → List (List Char)
  | 0, _, _ => []
  | 1, acc, cs => [acc.reverse ++ cs]
  | _, acc, [] => [acc.reverse]
  | limit + 2, acc, c :: rest =>
    if separator.isPrefixOf (c :: rest) then
      acc.reverse :: splitAfter separator (limit + 1) (separator.length - 1) rest
    else splitOn separator (limit + 2) (c :: acc) rest
where
  /-- Go on after the rest of a separator. -/
  splitAfter (separator : List Char) : (limit skipped : Nat) → List Char → List (List Char)
    | limit, 0, cs => splitOn separator limit [] cs
    | limit, _ + 1, [] => splitOn separator limit [] []
    | limit, n + 1, _ :: rest => splitAfter separator limit n rest

/-- The parts of a text between occurrences of a separator; an empty separator stands around every
character. -/
def parts (limit : Nat) (separator : List Char) (cs : List Char) : List (List Char) :=
  if separator.isEmpty then
    if limit ≤ 1 then (if limit == 0 then [] else [cs])
    else
      [] :: (cs.take (limit - 2)).map ([·]) ++ [cs.drop (limit - 2)]
  else splitOn separator limit [] cs

/-- The words of a text. -/
def words (cs : List Char) : List (List Char) :=
  (cs.splitBy fun a b => Text.isBlank a == Text.isBlank b).filter fun w =>
    (w.head?.map fun c => !Text.isBlank c).getD false

/-- An array of texts. -/
def yieldsTexts (texts : List (List Char)) : Option Answer := yields (.array (texts.map ofChars))

/-- Split a text. -/
def split : Native
  | [.string s] => yieldsTexts (words s.toList)
  | [.string s, .int i] =>
    let cs := s.toList
    let n := if 0 ≤ i then min i.toNat cs.length else cs.length - i.natAbs
    yieldsTexts [cs.take n, cs.drop n]
  | [.string s, d] => (pattern? d).bind fun p => yieldsTexts (parts (s.length + 2) p s.toList)
  | [.string s, d, .int n] =>
    (pattern? d).bind fun p =>
      yieldsTexts (parts (min (max n 1).toNat (s.length + 2)) p s.toList)
  | _ => none

/-- Split a text from its end. -/
def splitRev : Native
  | [.string s, d] => (pattern? d).bind fun p => go p (s.length + 2) s
  | [.string s, d, .int n] =>
    (pattern? d).bind fun p => go p (min (max n 1).toNat (s.length + 2)) s
  | _ => none
where
  /-- Split the reversed text. -/
  go (p : List Char) (limit : Nat) (s : String) : Option Answer :=
    yieldsTexts ((parts limit p.reverse s.toList.reverse).map List.reverse)

/-- The position of a text or character in a text. -/
def indexInText : Native
  | [.string s, d] => (pattern? d).bind fun p => answer (findIn p 0 s.toList)
  | [.string s, d, .int start] =>
    (pattern? d).bind fun p =>
      let cs := s.toList
      if (cs.length : Int) ≤ start then yieldsInt (-1)
      else
        let n := if 0 ≤ start then start.toNat else cs.length - start.natAbs
        answer (findIn p n (cs.drop n))
  | _ => none
where
  /-- The position, or minus one. -/
  answer : Option Nat → Option Answer
    | some n => yieldsInt n
    | none => yieldsInt (-1)

/-- Replace all occurrences in a text. -/
def replaceAll : Native
  | [.string s, d, e] =>
    (pattern? d).bind fun p => (pattern? e).bind fun q =>
      becomes (ofChars (q.intercalate (parts (s.length + 2) p s.toList)))
  | _ => none

/-- A part of a text. -/
def part? : List Datum → Option (List Char)
  | [.string s, .int start] => some (slice s.toList (span s.length start s.utf8ByteSize))
  | [.string s, .int start, .int n] => some (slice s.toList (span s.length start n))
  | [.string s, .range a b] => some (slice s.toList (rangeSpan s.length a b))
  | [.string s, .rangeInclusive a b] => some (slice s.toList (rangeSpan s.length a (b + 1)))
  | _ => none

/-- The last characters of a text, taken off it. -/
def popText : Native
  | [.string s] =>
    match s.toList.reverse with
    | [] => changes (.string s) .unit
    | c :: rest => changes (ofChars rest.reverse) (.char c)
  | [.string s, .int n] =>
    let cs := s.toList
    let left := cs.length - n.toNat
    changes (ofChars (cs.take left)) (ofChars (cs.drop left))
  | _ => none

/-- A text made longer. -/
def padText : Native
  | [.string s, .int n, d] =>
    (pattern? d).bind fun p =>
      let missing := n.toNat - s.length
      if missing == 0 || p.isEmpty then becomes (.string s)
      else
        let count := (missing + p.length - 1) / p.length
        becomes (ofChars (s.toList ++ ((List.replicate count p).flatten.take missing)))
  | _ => none

/-- A function of a text. -/
def textFunction (f : String → Datum) : Native
  | [.string s] => yields (f s)
  | _ => none

/-- A change of a text. -/
def textChange (f : List Char → List Char) : Native
  | [.string s] => becomes (ofChars (f s.toList))
  | _ => none

/-- A question about a text and a part of it. -/
def textQuestion (f : List Char → List Char → Bool) : Native
  | [.string s, d] => (pattern? d).bind fun p => yieldsBool (f s.toList p)
  | _ => none

/-- A character in the other case. -/
def caseOf (f : Char → List Char) (c : Char) : Datum :=
  match f c with
  | [d] => .char d
  | _ => .char c

/-- Change the case of a text or of a character. -/
def inCase (onText : String → String) (onChar : Char → List Char) : Native
  | [.string s] => yieldsText (onText s)
  | [.char c] => yields (caseOf onChar c)
  | _ => none

/-- Change the case of a text or of a character where it stands. -/
def makeCase (onText : String → String) (onChar : Char → List Char) : Native
  | [.string s] => becomes (.string (onText s))
  | [.char c] => becomes (caseOf onChar c)
  | _ => none

/-- The functions on texts and characters. -/
def textFunctions : List (String × Native) :=
  [("len", textFunction fun s => .int s.length),
    ("bytes", textFunction fun s => .int s.utf8ByteSize),
    ("is_empty", textFunction fun s => .bool s.isEmpty),
    ("to_upper", inCase Text.toUpper Text.upperChars),
    ("to_lower", inCase Text.toLower Text.lowerChars),
    ("make_upper", makeCase Text.toUpper Text.upperChars),
    ("make_lower", makeCase Text.toLower Text.lowerChars),
    ("trim", textChange fun cs => trimmedChars (String.ofList cs)),
    ("clear", textChange fun _ => []),
    ("starts_with", textQuestion fun s p => p.isPrefixOf s),
    ("ends_with", textQuestion fun s p => p.reverse.isPrefixOf s.reverse),
    ("contains", fun
      | [a, b] =>
        match a with
        | .string _ | .range .. | .rangeInclusive .. => (Operator.contains? a b).bind ofResult
        | _ => none
      | _ => none),
    ("index_of", indexInText), ("split", split), ("split_rev", splitRev), ("replace", replaceAll),
    ("sub_string", fun args => (part? args).bind fun cs => yields (ofChars cs)),
    ("crop", fun args => (part? args).bind fun cs => becomes (ofChars cs)),
    ("remove", fun
      | [.string s, d] => (pattern? d).bind fun p =>
        becomes (.string (Operator.withoutText s (String.ofList p)))
      | _ => none),
    ("truncate", fun
      | [.string s, .int n] => becomes (ofChars (s.toList.take n.toNat))
      | _ => none),
    ("pop", popText), ("pad", padText),
    ("get", fun
      | [.string s, .int i] =>
        match (index? s.length i).bind fun n => s.toList[n]? with
        | some c => yields (.char c)
        | none => yields .unit
      | _ => none),
    ("set", fun
      | [.string s, .int i, .char c] =>
        match index? s.length i with
        | some n => becomes (ofChars (s.toList.set n c))
        | none => becomes (.string s)
      | _ => none),
    ("to_chars", textFunction fun s => .array (s.toList.map .char)),
    ("chars", textFunction fun s => .array (s.toList.map .char)),
    ("to_blob", textFunction fun s => .blob (s.toUTF8.toList.map (·.toNat))),
    ("to_int", fun
      | [.char c] => yieldsInt c.toNat
      | _ => none)]

end ScriptHost.Script.Library
