import Ripple.Gathering

/-!
Impacts: what a change affects in one repository, and why. Impacts of one component in one file are
merged: they become one, which keeps the other data of the first of them and collects the reasons of
all, each kind and source once.
-/
namespace Ripple

inductive ReasonKind where
  | direct
  | dependency
  | schema
  | style
  | config
  | template
  | module
  deriving DecidableEq, Repr

namespace ReasonKind

def text : ReasonKind → String
  | .direct => "direct"
  | .dependency => "dependency"
  | .schema => "schema"
  | .style => "style"
  | .config => "config"
  | .template => "template"
  | .module => "module"

def all : List ReasonKind :=
  [.direct, .dependency, .schema, .style, .config, .template, .module]

end ReasonKind

structure Reason where
  kind : ReasonKind
  /-- What caused the impact, as a rule a changed file. -/
  source : String
  description : String
  deriving DecidableEq, Repr

/-- What identifies a reason within one impact. -/
def Reason.key (r : Reason) : ReasonKind × String := (r.kind, r.source)

structure Impact where
  component : String
  repo : String
  /-- The file of the component, relative to the repository. -/
  file : String
  line : Option Int
  reasons : List Reason
  testHints : Option (List String)
  deriving DecidableEq, Repr

/-- What identifies an impact within one repository. -/
def Impact.key (i : Impact) : String × String := (i.component, i.file)

def Impact.hasReason (i : Impact) (kind : ReasonKind) : Bool := i.reasons.any (·.kind = kind)

def Impact.single (repo component file : String) (kind : ReasonKind) (source description : String)
    (line : Option Int) : Impact :=
  { component, repo, file, line, reasons := [⟨kind, source, description⟩], testHints := none }

structure RepoImpacts where
  name : String
  impacts : List Impact
  deriving DecidableEq, Repr

namespace Impact

/-- Impacts are told apart by component and file, their reasons by kind and source. -/
def gathering : Gathering Impact Reason (String × String) (ReasonKind × String) where
  key := key
  parts := reasons
  withParts i reasons := { i with reasons }
  partKey := Reason.key

/-- One impact for each component and file, in the order of their first occurrence. -/
def merge (items : List Impact) : List Impact := gathering.gather items

end Impact

end Ripple
