/-!
# Words of the script language

Identifiers, and the words that no identifier may be. Some reserved words name functions that the
language itself answers, and may be called.
-/

namespace ScriptHost.Script

/-- The first character of an identifier. -/
def isWordStart (c : Char) : Bool := c.isAlpha || c == '_'

/-- A later character of an identifier. -/
def isWordPart (c : Char) : Bool := c.isAlphanum || c == '_'

/-- An identifier: letters, digits and underscores, with a letter before the first digit. -/
def isIdentifier (s : String) : Bool :=
  match s.toList.dropWhile (· == '_') with
  | [] => false
  | c :: rest => c.isAlpha && rest.all isWordPart

/-- Words with a grammar of their own. -/
def keywords : List String :=
  ["true", "false", "let", "const", "if", "else", "switch", "do", "while", "until", "loop", "for",
    "in", "continue", "break", "return", "throw", "try", "catch", "import", "export", "as",
    "private", "fn"]

/-- Reserved words that may be called like functions. -/
def callableWords : List String :=
  ["print", "debug", "type_of", "eval", "Fn", "call", "curry", "is_shared", "is_def_fn",
    "is_def_var", "exit"]

/-- Reserved words that may also be called like methods. -/
def methodWords : List String := ["type_of", "call", "curry", "is_shared", "exit"]

/-- Reserved words without any use, and the word for the object of a method. -/
def reservedWords : List String :=
  ["this", "var", "static", "goto", "match", "case", "public", "protected", "new", "use", "with",
    "module", "package", "super", "spawn", "thread", "go", "sync", "async", "await", "yield",
    "default", "void", "null", "nil", "shared"]

/-- Whether a word is no name to give: a keyword, a reserved word, or the name of the outermost
namespace. -/
def isReserved (s : String) : Bool :=
  keywords.contains s || callableWords.contains s || reservedWords.contains s || s == "global"

/-- A name under which a function pointer may be made. -/
def isFunctionName (s : String) : Bool := isIdentifier s && !isReserved s

/-- What the names of closures begin with. -/
def closureMark : String := "anon$"

/-- Whether a function is a closure, by its name. -/
def isClosureName (s : String) : Bool := closureMark.isPrefixOf s

end ScriptHost.Script
