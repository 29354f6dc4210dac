import Ripple.Proofs.RegexFaults
import Ripple.Proofs.SchemaPropagation

/-! # What patterns can do to a run

A pattern is asked in vain only if a repetition count in it is out of range, which takes ten digits
in a row behind a brace. Such a pattern may end a run, and nothing else about patterns does. A
pattern that is not well formed selects nothing: wherever it is added to the patterns of a relation,
the run stays the same. Two failures of the machine below are left out, as nothing is documented of
when they occur: groups nested so deeply that its stack is used up, and the internal error that a
possessive repetition with groups inside may raise.
-/
namespace Ripple

namespace Glob

theorem notMem_insertedChars {w : List Char} (h : Regex.IsLongBound w) :
    ∀ c ∈ w, c ∉ insertedChars := by
  have hinserted : ∀ c ∈ insertedChars, c ≠ '\x7b' ∧ c ≠ ',' ∧ c.isDigit = false := by
    simp [insertedChars]
  obtain ⟨between, digits, rfl, hbetween, hdigits, _⟩ := h
  intro c hc hin
  obtain ⟨hbrace, hcomma, hdigit⟩ := hinserted c hin
  rcases List.mem_cons.mp hc with hc | hc
  · exact hbrace hc
  · rcases List.mem_append.mp hc with hc | hc
    · simpa [hcomma, hdigit] using hbetween c hc
    · simpa [hdigit] using hdigits c hc

end Glob

section

variable [Regex.Names]

namespace Glob

/-- The pattern has no well-formed expression. -/
def Malformed (pattern : String) : Prop :=
  Regex.parse (expression pattern.toList) = .error .malformed

theorem selects_of_malformed {pattern : String} (h : Malformed pattern) (path : String) :
    selects pattern path = .ok false := by
  rw [Malformed] at h
  rw [selects, h]

theorem exists_selects_iff (pattern path : String) :
    (∃ answer, selects pattern path = .ok answer) ↔ ¬ Oversized pattern := by
  rw [oversized_iff pattern path]
  cases selects pattern path <;> simp

theorem hasLongBound_of_oversized {pattern : String} (h : Oversized pattern) :
    Regex.HasLongBound pattern.toList := by
  obtain ⟨f, hf⟩ := h
  have hbound : Regex.HasLongBound (expression pattern.toList) := by
    rw [refusal?] at hf
    cases hparse : Regex.parse (expression pattern.toList) with
    | ok r => simp [hparse] at hf
    | error g =>
      refine Regex.hasLongBound_of_parse hparse ?_
      rintro rfl
      simp [hparse] at hf
  obtain ⟨w, hw, hin⟩ := hbound
  exact ⟨w, hw, infix_of_expression (notMem_insertedChars hw) hin⟩

theorem anySelects_append (path : String) (patterns others : List String) :
    anySelects path (patterns ++ others) =
      match anySelects path patterns with
      | .ok false => anySelects path others
      | answer => answer := by
  induction patterns with
  | nil => rfl
  | cons p rest ih =>
    rw [List.cons_append, anySelects_cons, anySelects_cons, ih]
    rcases selects p path with f | ⟨_ | _⟩ <;> rfl

theorem anySelects_insert {p : String} (h : Malformed p) (path : String)
    (first rest : List String) :
    anySelects path (first ++ p :: rest) = anySelects path (first ++ rest) := by
  rw [anySelects_append, anySelects_append, anySelects_cons, selects_of_malformed h]

end Glob

/-- The relations lead the same way, and asking their patterns comes to the same for every path. -/
structure Relation.Alike (r' r : Relation) : Prop where
  source : r'.source = r.source
  target : r'.target = r.target
  via : r'.via = r.via
  selects : ∀ path,
    Glob.anySelects path (r'.patterns.getD []) = Glob.anySelects path (r.patterns.getD [])

theorem Relation.Alike.refl (r : Relation) : r.Alike r := ⟨rfl, rfl, rfl, fun _ => rfl⟩

theorem consumers_of_alike {patterns' patterns : List String}
    (h : ∀ path, Glob.anySelects path patterns' = Glob.anySelects path patterns)
    (consumer : Signal) (impacts : List Impact) :
    consumers consumer patterns' impacts = consumers consumer patterns impacts := by
  have hconsumes : consumes consumer patterns' = consumes consumer patterns := by
    funext i
    rw [consumes, consumes, h]
  rw [consumers, consumers, hconsumes]

theorem Matcher.correlate_of_alike (m : Matcher) (source target : RepoImpacts) {r' r : Relation}
    (h : r'.Alike r) : m.correlate source target r' = m.correlate source target r := by
  have hconsumers : consumers m.consumer (m.globs r') target.impacts =
      consumers m.consumer (m.globs r) target.impacts := by
    rw [globs, globs]
    split_ifs
    · exact consumers_of_alike h.selects _ _
    · rfl
  rw [Matcher.correlate, Matcher.correlate, hconsumers, h.via]

namespace Correlation

variable (registry : MatcherRegistry) (repos : List RepoImpacts)

theorem relate_of_alike {r' r : Relation} (h : r'.Alike r) :
    relate registry repos r' = relate registry repos r := by
  simp only [relate, h.source, h.target, h.via, Matcher.correlate_of_alike _ _ _ h]

theorem correlate_of_alike {relations' relations : List Relation}
    (h : List.Forall₂ Relation.Alike relations' relations) :
    correlate registry repos relations' = correlate registry repos relations := by
  have hall : relateAll registry repos relations' = relateAll registry repos relations := by
    induction h with
    | nil => rfl
    | cons hr _ ih => rw [relateAll, relateAll, relate_of_alike registry repos hr, ih]
  rw [correlate, correlate, hall]

end Correlation

namespace Analysis.Run

variable (r : Run)

theorem resultUnder_of_alike (schedule : List Nat) (c : Config) {relations : List Relation}
    (h : List.Forall₂ Relation.Alike relations c.relations) :
    r.resultUnder schedule { c with relations := relations } = r.resultUnder schedule c := by
  simp only [resultUnder, Correlation.correlate_of_alike _ _ h]

/-- A pattern can be asked about every path unless a repetition count in it is out of range, which
takes a long bound. The correlation of a run fails if and only if such patterns stall a relation. A
pattern that is not well formed selects nothing, and to add it to a relation changes no run. -/
theorem resultUnder_patterns (c : Config) (schedule : List Nat) :
    (∀ pattern path,
      ((∃ answer, Glob.selects pattern path = .ok answer) ↔ ¬ Glob.Oversized pattern) ∧
      (Glob.Oversized pattern → Regex.HasLongBound pattern.toList) ∧
      (Glob.Malformed pattern → Glob.selects pattern path = .ok false)) ∧
    ((∃ f, Correlation.correlate r.matchers (r.found c.repos) c.relations = .error f) ↔
      ∃ relation ∈ c.relations, Correlation.Stalls r.matchers (r.found c.repos) relation) ∧
    ((∀ relation ∈ c.relations, ∀ p ∈ relation.patterns.getD [], ¬ Regex.HasLongBound p.toList) →
      ((∃ result, r.resultUnder schedule c = .ok result) ↔ ∀ repo ∈ c.repos, ¬ r.Stops repo)) ∧
    ∀ before relation after first p rest, c.relations = before ++ relation :: after →
      relation.patterns.getD [] = first ++ rest → Glob.Malformed p →
      r.resultUnder schedule { c with relations :=
          before ++ { relation with patterns := some (first ++ p :: rest) } :: after } =
        r.resultUnder schedule c := by
  refine ⟨fun pattern path => ⟨Glob.exists_selects_iff pattern path,
    Glob.hasLongBound_of_oversized, fun h => Glob.selects_of_malformed h path⟩, ?_, ?_, ?_⟩
  · have hok : (∃ records,
        Correlation.correlate r.matchers (r.found c.repos) c.relations = .ok records) ↔
          ∀ relation ∈ c.relations, ¬ Correlation.Stalls r.matchers (r.found c.repos) relation :=
      Correlation.correlate_ok_iff c.relations
    constructor
    · rintro ⟨f, hf⟩
      by_contra! hstalls
      obtain ⟨records, hrecords⟩ := hok.mpr hstalls
      rw [hf] at hrecords
      cases hrecords
    · exact Correlation.correlate_fails
  · intro hbounds
    have hstalls : ∀ relation ∈ c.relations,
        ¬ Correlation.Stalls r.matchers (r.found c.repos) relation := fun relation hrelation =>
      Correlation.not_stalls_of_sized _ _ fun p hp hsize =>
        hbounds relation hrelation p hp (Glob.hasLongBound_of_oversized hsize)
    exact ⟨fun ⟨_, hresult⟩ => r.not_stops_of_resultUnder hresult,
      fun hstops => r.resultUnder_eq_ok hstops hstalls schedule⟩
  · intro before relation after first p rest hrelations hpatterns hp
    refine r.resultUnder_of_alike schedule c ?_
    have hrefl : ∀ relations : List Relation, List.Forall₂ Relation.Alike relations relations :=
      fun relations => List.forall₂_same.mpr fun relation _ => Relation.Alike.refl relation
    rw [hrelations]
    refine List.rel_append (hrefl before) (.cons ⟨rfl, rfl, rfl, fun path => ?_⟩ (hrefl after))
    rw [hpatterns]
    exact Glob.anySelects_insert hp path first rest

end Analysis.Run

end

namespace Analysis.Run

open GraphqlApi

/-- A letter by its name, which is to occur more often than can be counted. -/
def countedName : String := "\\N\x7blatin small letter a\x7d\x7b99999999999\x7d"

def countRelation : Relation := ⟨"api", "web", .graphqlSchema, some [countedName]⟩

def countDocument : List (Value × Value) :=
  clientDocument.take 1 ++
    [(.text "relations", .list [
      .record [("from", .text "api"), ("to", .text "web"), ("via", .text "graphql-schema"),
        ("patterns", .list [.text countedName])]])]

def countConfig : Config := { clientConfig with relations := [countRelation] }

theorem stalls_countRelation :
    Correlation.Stalls (clientRun schemaLine).matchers
      ((clientRun schemaLine).found countConfig.repos) countRelation := by
  have hfinds := finds_client changedFiles_schemaLine isRelevant_schema
  obtain ⟨i, hi, _, hfile⟩ :=
    hfinds.exists_mem_account rfl (readable_schema _ _) (List.mem_singleton_self fieldAdded)
  obtain ⟨files, hfind⟩ := hfinds.compares.found
  have htarget : Correlation.findRepo? ((clientRun schemaLine).found countConfig.repos) "web" =
      some ⟨clientResult.name, clientResult.impacts⟩ := by
    rw [← account_client schemaLine]
    rfl
  have hoversized : Glob.Oversized countedName :=
    ⟨.countTooLarge, by decide +kernel⟩
  have hstalls : ∀ i ∈ clientResult.impacts,
      StallsOn .graphqlConsumer [countedName] i := by
    refine List.forall_mem_singleton.mpr ⟨by decide +kernel, ?_⟩
    exact ⟨[], _, [], rfl, hoversized, nofun⟩
  exact ⟨RelationKind.graphqlSchema.matcher, _, _, ⟨rfl, rfl, htarget⟩,
    ⟨_, i, hi, rfl, triggers_schemaPath hfind hfile⟩, rfl, _, List.mem_singleton_self _,
    hstalls _ (List.mem_singleton_self _)⟩

/-- The configuration is valid and its correlation fails. A lone bracket before the pattern of the
client does nothing. -/
theorem resultUnder_patterns_count :
    Config.check ⟨"/", []⟩ countDocument = .valid countConfig ∧
      (∃ f, Correlation.correlate (clientRun schemaLine).matchers
        ((clientRun schemaLine).found countConfig.repos) countConfig.relations = .error f) ∧
      Glob.Malformed ")" ∧
      (clientRun schemaLine).resultUnder []
          { clientConfig with relations :=
            [⟨"api", "web", .graphqlSchema, some [")", "go.mod"]⟩] } =
        (clientRun schemaLine).resultUnder [] clientConfig := by
  have hvalid : Config.check ⟨"/", []⟩ countDocument = .valid countConfig := by
    decide +kernel
  have hmalformed : Glob.Malformed ")" := rfl
  obtain ⟨_, hfails, _, _⟩ := resultUnder_patterns (clientRun schemaLine) countConfig []
  obtain ⟨_, _, _, hinsert⟩ := resultUnder_patterns (clientRun schemaLine) clientConfig []
  exact ⟨hvalid, hfails.mpr ⟨countRelation, List.mem_singleton_self _, stalls_countRelation⟩,
    hmalformed, hinsert [] clientRelation [] [] ")" ["go.mod"] rfl rfl hmalformed⟩

end Analysis.Run

end Ripple
