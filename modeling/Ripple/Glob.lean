import Ripple.Regex.Reader

/-!
Glob patterns over repository paths. `Glob.expression` writes the expression of a pattern in one
scan; `Glob.selects` asks whether a path starts with a match. Characters other than the wildcards
keep the meaning they have in an expression, so a dot stands for any character.
-/
namespace Ripple.Glob

/-- The expression of a pattern: a pair of stars crosses directories, a single star does not. -/
def expression : List Char → List Char
  | [] => []
  | '*' :: '*' :: rest => '.' :: '*' :: expression rest
  | '*' :: rest => '[' :: '^' :: '/' :: ']' :: '*' :: expression rest
  | '?' :: rest => '.' :: expression rest
  | '\x00' :: rest => '.' :: '*' :: expression rest
  | c :: rest => c :: expression rest

variable [Regex.Names]

/-- Whether a path starts with a match of the pattern. A pattern without a proper expression
selects nothing; the one fault left is a repetition count out of range. -/
def selects (pattern path : String) : Except Regex.Fault Bool :=
  match Regex.parse (expression pattern.toList) with
  | .ok r => .ok (r.matchesStart path.toList)
  | .error .malformed => .ok false
  | .error fault => .error fault

/-- Whether one of the patterns selects the path, asked from left to right. -/
def anySelects (path : String) : List String → Except Regex.Fault Bool
  | [] => .ok false
  | p :: rest => do
    if ← selects p path then return true
    anySelects path rest

end Ripple.Glob
