import Ripple.Regex.Reader

/-!
The names of the printable characters of ASCII: the table with which the program reads the named
characters of an expression. A name may be written in capital or in small letters.
-/
namespace Ripple.Regex.Names

def marks : List (String × Char) :=
  [("space", ' '), ("exclamation mark", '!'), ("quotation mark", '"'), ("number sign", '#'),
    ("dollar sign", '$'), ("percent sign", '%'), ("ampersand", '&'), ("apostrophe", '\''),
    ("left parenthesis", '('), ("right parenthesis", ')'), ("asterisk", '*'), ("plus sign", '+'),
    ("comma", ','), ("hyphen-minus", '-'), ("full stop", '.'), ("solidus", '/'), ("colon", ':'),
    ("semicolon", ';'), ("less-than sign", '<'), ("equals sign", '='), ("greater-than sign", '>'),
    ("question mark", '?'), ("commercial at", '@'), ("left square bracket", '['),
    ("reverse solidus", '\\'), ("right square bracket", ']'), ("circumflex accent", '^'),
    ("low line", '_'), ("grave accent", '\x60'), ("left curly bracket", '\x7b'),
    ("vertical line", '|'), ("right curly bracket", '\x7d'), ("tilde", '~')]

def digits : List (String × Char) :=
  [("digit zero", '0'), ("digit one", '1'), ("digit two", '2'), ("digit three", '3'),
    ("digit four", '4'), ("digit five", '5'), ("digit six", '6'), ("digit seven", '7'),
    ("digit eight", '8'), ("digit nine", '9')]

def letters : List (String × Char) :=
  "abcdefghijklmnopqrstuvwxyz".toList.flatMap fun c =>
    [("latin small letter ".push c, c), ("latin capital letter ".push c, c.toUpper)]

instance ascii : Names where
  char? name := (marks ++ digits ++ letters).lookup (String.ofList (name.map Char.toLower))

end Ripple.Regex.Names
