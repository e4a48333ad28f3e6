/-! Wildcard patterns, which are translated into regular expressions for a whole text. -/
namespace Tabulation.Pattern.Wildcard

/-- The characters that say something in an expression unless a backslash quotes them. -/
def metaCharacters : List Char :=
  ['\\', '.', '+', '*', '?', '(', ')', '|', '[', ']', '\x7b', '\x7d', '^', '$', '#', '&', '-', '~']

/-- What stands for a character itself in an expression. -/
def quoted (c : Char) : List Char := if c ∈ metaCharacters then ['\\', c] else [c]

/-- What a character of a pattern is translated into. -/
def translated : Char → List Char
  | '%' => ['.', '*']
  | '_' => ['.']
  | c => quoted c

/-- The expression that a pattern is translated into, anchored at both ends. -/
def expression (pattern : String) : String :=
  .ofList ('^' :: pattern.toList.flatMap translated ++ ['$'])

end Tabulation.Pattern.Wildcard
