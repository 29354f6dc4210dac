import Ripple.Config.Document
import Ripple.Json.Reader
import Ripple.Text.Basic

/-!
Settings from environment variables. A variable `IMPACT_OUTPUT` holds a whole part of a
configuration as JSON; `IMPACT_OUTPUT__DIRECTORY` holds one entry of it. Names are compared without
regard to case, and what a configuration file says takes precedence entry by entry.
-/
namespace Ripple.Settings

inductive Reading where
  /-- As it is. -/
  | plain
  /-- As JSON. -/
  | json
  /-- As JSON if it is JSON, else as it is. -/
  | jsonOrPlain
  deriving DecidableEq, Repr

structure Entry where
  names : List String
  reading : Reading
  deriving DecidableEq, Repr

/-- A part of a configuration: a mapping of entries, or a list of such mappings. -/
structure Part where
  name : String
  isRecord : Bool
  entries : List Entry
  deriving DecidableEq, Repr

/-- The entry of a name, in any case. -/
def Part.find? (p : Part) (name : String) : Option Entry :=
  p.entries.find? fun e => e.names.contains (Text.lower name)

def parts : List Part :=
  [⟨"repos", false,
      [⟨["name"], .plain⟩, ⟨["path"], .plain⟩, ⟨["type"], .plain⟩, ⟨["analyzers"], .json⟩,
        ⟨["include_paths"], .jsonOrPlain⟩, ⟨["exclude_paths"], .jsonOrPlain⟩]⟩,
    ⟨"relations", false,
      [⟨["from_", "from"], .plain⟩, ⟨["to"], .plain⟩, ⟨["via"], .plain⟩,
        ⟨["patterns"], .jsonOrPlain⟩]⟩,
    ⟨"output", true, [⟨["directory"], .plain⟩, ⟨["formats"], .json⟩]⟩,
    ⟨"logging", true,
      [⟨["level"], .plain⟩, ⟨["format"], .plain⟩, ⟨["file"], .plain⟩, ⟨["rotation"], .plain⟩,
        ⟨["retention"], .plain⟩]⟩]

structure Fault where
  part : String
  deriving DecidableEq, Repr

def Fault.message (f : Fault) : String :=
  "error parsing value for field \"" ++ f.part ++ "\" from source \"EnvSettingsSource\""

def Reading.read? (reading : Reading) (text : String) : Option Value :=
  match reading with
  | .plain => some (.text text)
  | .json => (Json.parse text.toList).toOption
  | .jsonOrPlain => some ((Json.parse text.toList).toOption.getD (.text text))

mutual

/-- A value on top of an older one: two mappings are merged, else the new value counts. -/
def mergeValue (old : Option Value) : Value → Value
  | .map new =>
    match old with
    | some (.map base) => .map (mergeEntries base new)
    | _ => .map new
  | v => v

def mergeEntries (base : List (Value × Value)) : List (Value × Value) → List (Value × Value)
  | [] => base
  | (k, v) :: rest =>
    mergeEntries (Value.put k (mergeValue ((base.find? (·.1 == k)).map (·.2)) v) base) rest

end

/-- Sets a value below a sequence of keys, making the mappings on the way. A key that holds
something other than a mapping is left alone. -/
def setBelow (value : Value) : List String → List (Value × Value) → List (Value × Value)
  | [], es => es
  | [last], es => Value.put (.text last) value es
  | key :: rest, es =>
    match Value.find? key es with
    | none => Value.put (.text key) (.map (setBelow value rest [])) es
    | some (.map inner) => Value.put (.text key) (.map (setBelow value rest inner)) es
    | some _ => es

def splitPath : List Char → List (List Char)
  | [] => [[]]
  | '_' :: '_' :: rest => [] :: splitPath rest
  | c :: rest =>
    match splitPath rest with
    | [] => [[c]]
    | piece :: pieces => (c :: piece) :: pieces

/-- The value that one variable gives to what lies under keys below a part. -/
def nestedValue (p : Part) (keys : List String) (text : String) : Option Value :=
  match keys with
  | [key] =>
    match p.find? key with
    | some e => if text.isEmpty then some (.text text) else e.reading.read? text
    | none => some (.text text)
  | _ => some (.text text)

/-- All that variables say about what lies below a part. -/
def nested (p : Part) :
    List (String × String) → List (Value × Value) → Except Fault (List (Value × Value))
  | [], es => .ok es
  | (name, text) :: rest, es =>
    let head := "impact_" ++ p.name ++ "__"
    if Text.startsWith name head then
      let keys := (splitPath (name.toList.drop head.length)).map String.ofList
      match nestedValue p keys text with
      | some v => nested p rest (setBelow v keys es)
      | none => .error ⟨p.name⟩
    else nested p rest es

/-- The keys of a mapping that name entries in another case, in the entries' own case. -/
def unifyKeys (p : Part) (es : List (Value × Value)) : List (Value × Value) :=
  es.foldl
    (fun done (k, v) =>
      let key :=
        match k with
        | .text s => .text (((p.find? s).bind fun e => e.names.head?).getD s)
        | _ => k
      Value.put key v done)
    []

/-- What the variables say about one part, if anything. -/
def Part.read (environment : List (String × String)) (p : Part) : Except Fault (Option Value) := do
  let below ← nested p environment []
  let value? ←
    match environment.reverse.lookup ("impact_" ++ p.name) with
    | none => pure (if below.isEmpty then none else some (.map below))
    | some text =>
      match Json.parse text.toList with
      | .error _ => throw ⟨p.name⟩
      | .ok .null => pure none
      | .ok (.map es) => pure (some (.map (mergeEntries es below)))
      | .ok v => pure (some v)
  return value?.map fun v =>
    match v with
    | .map es => if p.isRecord then .map (unifyKeys p es) else v
    | _ => v

/-- What the variables say about all parts. -/
def read (environment : List (String × String)) : Except Fault (List (Value × Value)) := do
  let environment := environment.map fun (k, v) => (Text.lower k, v)
  let values ← parts.mapM fun p => do
    let v ← p.read environment
    return v.map fun v => (.text p.name, v)
  return values.filterMap id

/-- A document's entries on top of what the variables say. -/
def overlay (environment : List (String × String)) (document : List (Value × Value)) :
    Except Fault (List (Value × Value)) :=
  (read environment).map fun base => mergeEntries base document

end Ripple.Settings
