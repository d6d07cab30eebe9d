import ScriptHost.Number.FloatText
import ScriptHost.Script.ParseProblem
import ScriptHost.Script.Position

/-!
# Tokens

The units of a script text. Keywords, operators and punctuation are marks, known by their spelling;
a fault of the text is a token too, so that it is reported where it stands.
-/

namespace ScriptHost.Script

/-- A unit of a script text. -/
inductive Token where
  /-- An integer literal. -/
  | int (i : Int)
  /-- A floating-point literal, with its spelling. -/
  | float (x : Float) (spelling : String)
  /-- A text literal. -/
  | string (s : String)
  /-- A text literal up to an interpolated block. -/
  | interpolated (s : String)
  /-- A character literal. -/
  | char (c : Char)
  /-- An identifier. -/
  | name (s : String)
  /-- A keyword, operator or punctuation mark. -/
  | mark (s : String)
  /-- A word or symbol without a use of its own. -/
  | reserved (s : String)
  /-- A fault. -/
  | fault (problem : ParseProblem)
  /-- The end of the text. -/
  | eof
  deriving Inhabited

/-- A token and where it begins. -/
structure Placed where
  /-- The token. -/
  token : Token
  /-- Where it begins. -/
  pos : Position
  deriving Inhabited

namespace Token

/-- The spelling of a token in messages. -/
def text : Token → String
  | int i => toString i
  | float _ spelling => spelling
  | string s => "\"" ++ s ++ "\""
  | interpolated _ => "string"
  | char c => String.singleton c
  | name s => s
  | mark s => s
  | reserved s => s
  | fault problem => problem.message
  | eof => "\x7bEOF\x7d"

/-- Whether the token is this mark. -/
def isMark (t : Token) (s : String) : Bool :=
  match t with
  | mark m => m == s
  | _ => false

/-- Marks after which a sign belongs to the number that follows it. -/
def signMarks : List String :=
  [";", ":", ",", "..", "..=", "\x7b", "(", "[", "+", "+=", "-", "-=", "*", "*=", "/", "/=", "**",
    "**=", "<<", "<<=", ">>", ">>=", "%", "%=", "=", "==", "!=", "<", ">", "!", "<=", ">=", "|",
    "|=", "&", "&=", "^", "^=", "if", "while", "until", "in", "!in", "&&", "||", "return", "throw"]

/-- Whether a sign after the token belongs to the number that follows it. -/
def allowsSign : Token → Bool
  | mark s => signMarks.contains s
  | fault _ => true
  | _ => false

end Token

end ScriptHost.Script
