import Ripple.Graphql.Document
import Ripple.Graphql.Token

/-!
Reading GraphQL documents. A reader works on the remaining tokens. Going on to a faulty token fails
there and then, so of a wrong token and a fault behind it the wrong token is reported.
-/
namespace Ripple.Graphql

abbrev Reader := StateT (List Token) (Except SyntaxFault)

namespace Reader

def failAt {α : Type} (t : Token) (description : String) : Reader α :=
  throw ⟨t.start, description⟩

def next : Reader Token := do
  match ← get with
  | t :: _ => return t
  | [] => throw ⟨0, "Unexpected <EOF>."⟩

/-- A token unless it is a fault. -/
def sound (t : Token) : Reader Unit :=
  match t.fault with
  | some f => throw f
  | none => return ()

def lookahead : Reader Token := do
  match ← get with
  | _ :: t :: _ => do
    sound t
    return t
  | _ => next

/-- Goes on to the token behind the next one. -/
def advance : Reader Unit := do
  match ← get with
  | _ :: t :: rest => do
    sound t
    set (t :: rest)
  | _ => return ()

def unexpected {α : Type} (t : Token) : Reader α := failAt t ("Unexpected " ++ t.text ++ ".")

def peek (kind : TokenKind) : Reader Bool := return (← next).kind = kind

def expect (kind : TokenKind) : Reader Token := do
  let t ← next
  if t.kind = kind then
    advance
    return t
  failAt t ("Expected " ++ Token.kindText kind ++ ", found " ++ t.text ++ ".")

def accept (kind : TokenKind) : Reader Bool := do
  if ← peek kind then
    advance
    return true
  return false

def mark (text : String) : Reader Unit := do
  let _ ← expect (.mark text)

def acceptMark (text : String) : Reader Bool := accept (.mark text)

def isKeyword (text : String) (t : Token) : Bool := t.kind = .name ∧ t.value = text

def keyword (text : String) : Reader Unit := do
  let t ← next
  if isKeyword text t then advance
  else failAt t ("Expected '" ++ text ++ "', found " ++ t.text ++ ".")

def acceptKeyword (text : String) : Reader Bool := do
  if isKeyword text (← next) then
    advance
    return true
  return false

def name : Reader String := return (← expect .name).value

def itemsUntil {α : Type} (close : TokenKind) (item : Reader α) : Nat → Reader (List α)
  | 0 => return []
  | fuel + 1 => do
    let a ← item
    if ← accept close then return [a]
    return a :: (← itemsUntil close item fuel)

def many {α : Type} (open_ : TokenKind) (item : Reader α) (close : TokenKind) :
    Reader (List α) := do
  let _ ← expect open_
  itemsUntil close item (← get).length

/-- At least one item between two marks, or nothing at all. -/
def optionalMany {α : Type} (open_ close : String) (item : Reader α) : Reader (List α) := do
  if ← acceptMark open_ then itemsUntil (.mark close) item (← get).length
  else return []

def anyUntil {α : Type} (close : String) (item : Reader α) : Nat → Reader (List α)
  | 0 => return []
  | fuel + 1 => do
    if ← acceptMark close then return []
    let a ← item
    return a :: (← anyUntil close item fuel)

def itemsBetween {α : Type} (separator : String) (item : Reader α) : Nat → Reader (List α)
  | 0 => return []
  | fuel + 1 => do
    let a ← item
    if ← acceptMark separator then return a :: (← itemsBetween separator item fuel)
    return [a]

/-- At least one item, with a mark between neighbours and perhaps in front of all. -/
def delimited {α : Type} (separator : String) (item : Reader α) : Reader (List α) := do
  let _ ← acceptMark separator
  itemsBetween separator item (← get).length

/-- A value; `isConst` refuses variables. -/
def valueWith (isConst : Bool) : Nat → Reader Literal
  | 0 => do unexpected (← next)
  | fuel + 1 => do
    let t ← next
    match t.kind with
    | .mark "[" => do
      advance
      return .list (← anyUntil "]" (valueWith isConst fuel) (← get).length)
    | .mark "\x7b" => do
      advance
      let field := do
        let key ← name
        mark ":"
        return (key, ← valueWith isConst fuel)
      return .object (← anyUntil "\x7d" field (← get).length)
    | .int => do
      advance
      return .int t.value
    | .float => do
      advance
      return .float t.value
    | .string => do
      advance
      return .string t.value false
    | .blockString => do
      advance
      return .string t.value true
    | .name => do
      advance
      return match t.value with
        | "true" => .boolean true
        | "false" => .boolean false
        | "null" => .null
        | other => .enum other
    | .mark "$" => do
      advance
      if isConst then
        let v ← next
        if v.kind = .name then
          failAt t ("Unexpected variable '$" ++ v.value ++ "' in constant value.")
        else unexpected t
      else return .reference (← name)
    | _ => unexpected t

def value (isConst : Bool) : Reader Literal := do valueWith isConst (← get).length

def argument (isConst : Bool) : Reader Argument := do
  let key ← name
  mark ":"
  let start := (← next).start
  return ⟨key, ← value isConst, start⟩

def arguments (isConst : Bool) : Reader (List Argument) := optionalMany "(" ")" (argument isConst)

def directivesWith (isConst : Bool) : Nat → Reader (List Directive)
  | 0 => return []
  | fuel + 1 => do
    let start := (← next).start
    if ← acceptMark "@" then
      let key ← name
      let args ← arguments isConst
      return ⟨key, args, start⟩ :: (← directivesWith isConst fuel)
    return []

def directives (isConst : Bool) : Reader (List Directive) := do
  directivesWith isConst (← get).length

def typeRefWith : Nat → Reader TypeRef
  | 0 => do unexpected (← next)
  | fuel + 1 => do
    let inner ←
      if ← acceptMark "[" then do
        let item ← typeRefWith fuel
        mark "]"
        pure (TypeRef.list item)
      else pure (TypeRef.named (← name))
    if ← acceptMark "!" then return .nonNull inner
    return inner

def typeRef : Reader TypeRef := do typeRefWith (← get).length

def isDescription (t : Token) : Bool := t.kind = .string ∨ t.kind = .blockString

def description : Reader Unit := do
  if isDescription (← next) then advance

def default? : Reader (Option Literal) := do
  if ← acceptMark "=" then return some (← value true)
  return none

def inputDef : Reader InputDef := do
  description
  let key ← name
  mark ":"
  let type ← typeRef
  let literal? ← default?
  return ⟨key, type, literal?, ← directives true⟩

def inputDefs : Reader (List InputDef) := optionalMany "(" ")" inputDef

def fieldDef : Reader FieldDef := do
  description
  let key ← name
  let args ← inputDefs
  mark ":"
  let type ← typeRef
  return ⟨key, args, type, ← directives true⟩

def enumValueDef : Reader EnumValueDef := do
  description
  let t ← next
  if ["true", "false", "null"].contains t.value then
    failAt t (t.text ++ " is reserved and cannot be used for an enum value.")
  let key ← name
  return ⟨key, ← directives true⟩

def interfaces : Reader (List String) := do
  if ← acceptKeyword "implements" then delimited "&" name else return []

def members : Reader (List String) := do
  if ← acceptMark "=" then delimited "|" name else return []

def typeKeyword : TypeKind → String
  | .object => "type"
  | .input => "input"
  | kind => kind.text

def typeKind? (word : String) : Option TypeKind :=
  [.scalar, .object, .interface, .union, .enum, .input].find? (typeKeyword · = word)

def typeBody (d : TypeDef) : Reader TypeDef :=
  match d.kind with
  | .scalar => return d
  | .object | .interface => return { d with fields := ← optionalMany "\x7b" "\x7d" fieldDef }
  | .union => return { d with members := ← members }
  | .enum => return { d with values := ← optionalMany "\x7b" "\x7d" enumValueDef }
  | .input => return { d with inputs := ← optionalMany "\x7b" "\x7d" inputDef }

/-- A type of the given kind, from its keyword on. -/
def typeDef (kind : TypeKind) : Reader TypeDef := do
  keyword (typeKeyword kind)
  let key ← name
  let ifs ← if kind = .object ∨ kind = .interface then interfaces else pure []
  let ds ← directives true
  typeBody ⟨key, kind, ds, ifs, [], [], [], []⟩

def operationKind : Reader OperationKind := do
  let t ← expect .name
  match OperationKind.ofText? t.value with
  | some kind => return kind
  | none => unexpected t

def root : Reader (OperationKind × String) := do
  let kind ← operationKind
  mark ":"
  return (kind, ← name)

def schema : Reader Definition := do
  keyword "schema"
  let ds ← directives true
  return .schema false ds (← many (.mark "\x7b") root (.mark "\x7d"))

def location : Reader Location := do
  let t ← next
  match Location.ofText? (← name) with
  | some l => return l
  | none => unexpected t

def directiveDef : Reader Definition := do
  keyword "directive"
  mark "@"
  let key ← name
  let args ← inputDefs
  let repeatable ← acceptKeyword "repeatable"
  keyword "on"
  return .directive ⟨key, args, repeatable, ← delimited "|" location⟩

def isEmptyExtension (d : TypeDef) : Bool :=
  d.directives.isEmpty && d.interfaces.isEmpty && d.fields.isEmpty && d.members.isEmpty &&
    d.values.isEmpty && d.inputs.isEmpty

def extension : Reader Definition := do
  let word ← lookahead
  if isKeyword "schema" word then
    keyword "extend"
    keyword "schema"
    let ds ← directives true
    let roots ← optionalMany "\x7b" "\x7d" root
    if ds.isEmpty && roots.isEmpty then unexpected (← next)
    return .schema true ds roots
  match if word.kind = .name then typeKind? word.value else none with
  | none => unexpected word
  | some kind => do
    keyword "extend"
    let d ← typeDef kind
    if isEmptyExtension d then unexpected (← next)
    return .extension d

def fragmentName : Reader String := do
  let t ← next
  if isKeyword "on" t then unexpected t
  name

def selectionWith : Nat → Reader Selection
  | 0 => do unexpected (← next)
  | fuel + 1 => do
    let inner := many (.mark "\x7b") (selectionWith fuel) (.mark "\x7d")
    if ← acceptMark "..." then
      let conditional ← acceptKeyword "on"
      if !conditional && (← peek .name) then
        let _ ← fragmentName
        return .spread (← directives false)
      let condition? ← if conditional then pure (some (← name)) else pure none
      let ds ← directives false
      return .inline condition? ds (← inner)
    let _ ← name
    if ← acceptMark ":" then
      let _ ← name
    let args ← arguments false
    let ds ← directives false
    if ← peek (.mark "\x7b") then return .field args ds (← inner)
    return .field args ds []

def selections : Reader (List Selection) := do
  many (.mark "\x7b") (selectionWith (← get).length) (.mark "\x7d")

def variableDef : Reader VariableDef := do
  description
  mark "$"
  let _ ← name
  mark ":"
  let type ← typeRef
  let literal? ← default?
  return ⟨type, literal?, ← directives true⟩

def operation : Reader Definition := do
  if ← peek (.mark "\x7b") then return .operation .query none [] [] (← selections)
  let kind ← operationKind
  let name? ← if ← peek .name then pure (some (← name)) else pure none
  let vars ← optionalMany "(" ")" variableDef
  let ds ← directives false
  return .operation kind name? vars ds (← selections)

def fragment : Reader Definition := do
  keyword "fragment"
  let _ ← fragmentName
  keyword "on"
  let condition ← name
  let ds ← directives false
  return .fragment condition ds (← selections)

def definitionBy (first word : Token) (described : Bool) : Reader Definition := do
  if let some kind := typeKind? word.value then
    description
    return .type (← typeDef kind)
  match word.value with
  | "schema" => do
    description
    schema
  | "directive" => do
    description
    directiveDef
  | "query" | "mutation" | "subscription" => do
    description
    operation
  | "fragment" => do
    description
    fragment
  | "extend" =>
    if described then
      failAt first "Unexpected description, only GraphQL definitions support descriptions."
    else extension
  | _ =>
    if described then
      failAt first "Unexpected description, only GraphQL definitions support descriptions."
    else unexpected word

def definition : Reader Definition := do
  let first ← next
  if first.kind = .mark "\x7b" then return ← operation
  let described := isDescription first
  let word ← if described then lookahead else pure first
  if described ∧ word.kind = .mark "\x7b" then
    failAt first "Unexpected description, descriptions are supported only on definitions."
  if word.kind ≠ .name then unexpected word
  definitionBy first word described

def document : Reader Document := do
  sound (← next)
  itemsUntil .ending definition (← get).length

end Reader

def Document.parse (s : List Char) : Except SyntaxFault Document :=
  (Reader.document.run (Lexer.tokens s)).map (·.1)

end Ripple.Graphql
