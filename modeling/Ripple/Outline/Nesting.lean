import Ripple.Outline.Token

/-!
Tokens nested by their brackets. A closing bracket closes the bracket opened last, whatever its
form, and a bracket that is never closed reaches to the end of the text.
-/
namespace Ripple.Outline

/-- A token, or what stands between two brackets. -/
inductive Item where
  | token (t : Token)
  | group (opening : Token) (inside : List Item) (closing : Token)
  deriving Repr

namespace Item

def start : Item → Nat
  | token t => t.start
  | group o _ _ => o.start

def stop : Item → Nat
  | token t => t.stop
  | group _ _ c => c.stop

def line : Item → Nat
  | token t => t.line
  | group o _ _ => o.line

def word? : Item → Option String
  | token t => if t.shape = .word then some t.text else none
  | group .. => none

def isWord (i : Item) (text : String) : Bool := i.word? == some text

def isMark : Item → String → Bool
  | token t, text => t.isMark text
  | group .. , _ => false

def isEnding : Item → Bool
  | token t => t.shape == .ending
  | group .. => false

/-- What an item has between brackets of one form. -/
def inside? : Item → String → Option (List Item)
  | token _, _ => none
  | group o items _, opening => if o.text = opening then some items else none

end Item

/-- The items of a list of tokens. `pending` has the brackets that are open, the last one first,
each with the reversed items before it; `items` are the reversed items behind the last one. -/
def nestFrom : List (Token × List Item) → List Item → List Token → List Item
  | [], items, [] => items.reverse
  | (o, before) :: outer, items, [] => nestFrom outer (.group o items.reverse o :: before) []
  | pending, items, t :: rest =>
    match t.shape, pending with
    | .opening, _ => nestFrom ((t, items) :: pending) [] rest
    | .closing, (o, before) :: outer => nestFrom outer (.group o items.reverse t :: before) rest
    | _, _ => nestFrom pending (.token t :: items) rest
termination_by pending _ tokens => (tokens.length, pending.length)

def nest (tokens : List Token) : List Item := nestFrom [] [] tokens

/-- The part of a text that a list of items takes up. -/
def sourceOf (source : List Char) (items : List Item) : String :=
  match items.head?, items.getLast? with
  | some first, some last => slice source first.start last.stop
  | _, _ => ""

end Ripple.Outline
