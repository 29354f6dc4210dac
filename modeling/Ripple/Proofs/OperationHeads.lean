import Ripple.Proofs.TokenPlaces

/-! # The heads of named operations

A named operation begins with its keyword and its name, which the reader meets as two tokens next to
each other. Between them stand separators: white space, commas, byte order marks and comments. In
the text the name ends where no other word character follows.
-/
namespace Ripple.Graphql

open Outcome

def Document.operationNames (doc : Document) : List String :=
  doc.filterMap (·.operationName?)

structure OperationHead where
  keyword : Token
  name : Token
  deriving DecidableEq

def OperationHead.stop (h : OperationHead) : Nat := h.name.stop

def OperationHead.gap (h : OperationHead) (s : List Char) : List Char :=
  (s.drop h.keyword.stop).take (h.name.start - h.keyword.stop)

namespace Reader

def undescribed : List Token → List Token
  | [] => []
  | t :: rest => if isDescription t then rest else t :: rest

theorem undescribed_suffix (ts : List Token) : undescribed ts <:+ ts := by
  cases ts with
  | nil => exact List.suffix_refl []
  | cons t rest =>
    rw [undescribed]
    split_ifs
    · exact List.suffix_cons t rest
    · exact List.suffix_refl _

def head? (d : Definition) (ts : List Token) : Option OperationHead :=
  match d.operationName?, undescribed ts with
  | some _, keyword :: name :: _ => some ⟨keyword, name⟩
  | _, _ => none

def headsFrom : Nat → List Token → List OperationHead
  | 0, _ => []
  | fuel + 1, ts =>
    match definition ts with
    | .ok (d, rest) => (head? d ts).toList ++ headsFrom fuel rest
    | .error _ => []

end Reader

/-- The heads of the named operations in a text. -/
def operationHeads (s : List Char) : List OperationHead :=
  Reader.headsFrom (Lexer.tokens s).length (Lexer.tokens s)

namespace Reader

variable {ts rest : List Token}

theorem bind_eq_ok_iff {α β : Type} {x : Reader α} {f : α → Reader β} {b : β} :
    (x >>= f) ts = .ok (b, rest) ↔
      ∃ a middle, x ts = .ok (a, middle) ∧ f a middle = .ok (b, rest) := by
  change (x ts >>= fun (a, middle) => f a middle) = .ok (b, rest) ↔ _
  rw [Outcome.bind_eq_ok_iff, Prod.exists]

theorem exists_of_next {t : Token} (h : next ts = .ok (t, rest)) :
    rest = ts ∧ ∃ more, ts = t :: more := by
  cases ts with
  | nil => cases h
  | cons t' more =>
    cases h
    exact ⟨rfl, more, rfl⟩

theorem eq_of_peek {kind : TokenKind} {found : Bool} (h : peek kind ts = .ok (found, rest)) :
    rest = ts := by
  obtain ⟨t, middle, hnext, h⟩ := bind_eq_ok_iff.mp h
  cases h
  exact (exists_of_next hnext).1

theorem eq_cons_of_expect {kind : TokenKind} {t : Token} (hts : Complete ts)
    (hkind : kind ≠ .ending) (h : expect kind ts = .ok (t, rest)) :
    ts = t :: rest ∧ t.kind = kind := by
  obtain ⟨t, _, hnext, hthen⟩ := bind_eq_ok_iff.mp h
  obtain ⟨rfl, more, rfl⟩ := exists_of_next hnext
  by_cases ht : t.kind = kind
  · rw [if_pos ht] at hthen
    obtain ⟨_, _, hadvance, hgive⟩ := bind_eq_ok_iff.mp hthen
    cases hgive
    cases more with
    | nil =>
      obtain ⟨_, ⟨⟩, hending⟩ := hts.ending
      exact absurd (ht.symm.trans hending) hkind
    | cons t' more =>
      obtain ⟨-, rfl⟩ := advance_cons_eq_ok_iff.mp hadvance
      exact ⟨rfl, ht⟩
  · rw [if_neg ht] at hthen
    cases hthen

theorem exists_of_name {name : String} (hts : Complete ts) (h : Reader.name ts = .ok (name, rest)) :
    ∃ t, ts = t :: rest ∧ t.kind = .name ∧ t.value = name := by
  obtain ⟨t, _, hexpect, hgive⟩ := bind_eq_ok_iff.mp h
  cases hgive
  obtain ⟨hcons, hkind⟩ := eq_cons_of_expect hts (by decide) hexpect
  exact ⟨t, hcons, hkind, rfl⟩

theorem exists_of_operationKind {kind : OperationKind} (hts : Complete ts)
    (h : operationKind ts = .ok (kind, rest)) :
    ∃ t, ts = t :: rest ∧ t.kind = .name ∧ OperationKind.ofText? t.value = some kind := by
  obtain ⟨t, _, hexpect, h⟩ := bind_eq_ok_iff.mp h
  obtain ⟨hcons, hkind⟩ := eq_cons_of_expect hts (by decide) hexpect
  cases hof : OperationKind.ofText? t.value with
  | none =>
    rw [hof] at h
    cases h
  | some kind' =>
    rw [hof] at h
    cases h
    exact ⟨t, hcons, hkind, hof⟩

end Reader

/-- The tokens begin with the head of an operation, which does not end them, and what is left of
them lies behind the head. -/
structure OperationHead.Begins (h : OperationHead) (ts rest : List Token) : Prop where
  keyword : h.keyword.kind = .name
  kind : (OperationKind.ofText? h.keyword.value).isSome = true
  name : h.name.kind = .name
  tokens : ∃ t more, ts = h.keyword :: h.name :: t :: more ∧ t.kind ≠ .ending ∧ rest <:+ t :: more

namespace Reader

variable {ts rest : List Token} {d : Definition} {name : String}

/-- An operation goes on behind its name. -/
theorem exists_of_operationBody {kind : OperationKind} {name? : Option String} (hts : Complete ts)
    (h : (do
      let vars ← optionalMany "(" ")" variableDef
      let ds ← directives false
      return .operation kind name? vars ds (← selections) : Reader Definition) ts = .ok (d, rest)) :
    ∃ t more, ts = t :: more ∧ t.kind ≠ .ending := by
  cases ts with
  | nil =>
    obtain ⟨_, ⟨⟩, -⟩ := hts.ending
  | cons t more =>
    refine ⟨t, more, rfl, fun hending => ?_⟩
    obtain ⟨_, start, value, fault⟩ := t
    subst hending
    cases h

theorem exists_of_operation (hts : Complete ts) (h : operation ts = .ok (d, rest))
    (hname : d.operationName? = some name) :
    ∃ head : OperationHead, head.name.value = name ∧ head.Begins ts rest := by
  obtain ⟨short, _, hshort, hlong⟩ := bind_eq_ok_iff.mp h
  obtain rfl := eq_of_peek hshort
  cases short with
  | true =>
    have hunnamed := (gives_shortOperation _ hts d rest hlong).1.operationName?
    rw [hunnamed] at hname
    cases hname
  | false =>
    obtain ⟨kind, middle, hkind, hbehind⟩ := bind_eq_ok_iff.mp hlong
    obtain ⟨keyword, rfl, hkeyword, hof⟩ := exists_of_operationKind hts hkind
    have hmiddle := (keeps_operationKind _ hts kind middle hkind).2.2
    obtain ⟨named, _, hpeek, hbody⟩ := bind_eq_ok_iff.mp hbehind
    obtain rfl := eq_of_peek hpeek
    cases named with
    | false =>
      have hunnamed := (gives_operationBody kind none _ hmiddle d rest hbody).1.2
      rw [hunnamed] at hname
      cases hname
    | true =>
      obtain ⟨key, behind, hread, hbody⟩ := bind_eq_ok_iff.mp hbody
      obtain ⟨t, rfl, ht, rfl⟩ := exists_of_name hmiddle hread
      have hcomplete := (gives_name _ hmiddle _ _ hread).2.2
      obtain ⟨⟨-, hnamed⟩, hsuffix, -⟩ := gives_operationBody kind _ _ hcomplete d rest hbody
      obtain ⟨t', more, rfl, hgoes⟩ := exists_of_operationBody hcomplete hbody
      exact ⟨⟨keyword, t⟩, Option.some.inj (hnamed.symm.trans hname), hkeyword,
        Option.isSome_of_mem hof, ht, t', more, rfl, hgoes, hsuffix⟩

theorem eq_undescribed (hts : Complete ts) {a : Unit} (h : description ts = .ok (a, rest)) :
    rest = undescribed ts := by
  obtain ⟨t, _, hnext, hskip⟩ := bind_eq_ok_iff.mp h
  obtain ⟨rfl, more, rfl⟩ := exists_of_next hnext
  by_cases ht : isDescription t = true
  · rw [if_pos ht] at hskip
    rw [undescribed, if_pos ht]
    cases more with
    | nil =>
      obtain ⟨_, ⟨⟩, hending⟩ := hts.ending
      have hlast : t.kind = .ending := hending
      simp [isDescription, hlast] at ht
    | cons t' more => exact (advance_cons_eq_ok_iff.mp hskip).2
  · rw [if_neg ht] at hskip
    rw [undescribed, if_neg ht]
    cases hskip
    rfl

theorem eq_of_sound {t : Token} {a : Unit} (h : sound t ts = .ok (a, rest)) : rest = ts := by
  rw [sound] at h
  cases hfault : t.fault with
  | none =>
    rw [hfault] at h
    cases h
    rfl
  | some f =>
    rw [hfault] at h
    cases h

theorem eq_of_lookahead {t : Token} (h : lookahead ts = .ok (t, rest)) : rest = ts := by
  match ts with
  | [] => cases h
  | [t'] =>
    have hnext : next [t'] = .ok (t, rest) := h
    exact (exists_of_next hnext).1
  | t' :: t'' :: more =>
    change (do sound t''; pure t'' : Reader Token) (t' :: t'' :: more) = _ at h
    obtain ⟨_, middle, hsound, hgive⟩ := bind_eq_ok_iff.mp h
    cases hgive
    exact eq_of_sound hsound

/-- Checks of the keyword and of the description come in front of the definition. -/
theorem definitionBy_of_checked {first word : Token} {described : Bool}
    (h : (do
      if described ∧ word.kind = .mark "\x7b" then
        failAt first "Unexpected description, descriptions are supported only on definitions."
      if word.kind ≠ .name then unexpected word
      definitionBy first word described : Reader Definition) ts = .ok (d, rest)) :
    definitionBy first word described ts = .ok (d, rest) := by
  dsimp only at h
  by_cases hmark : described = true ∧ word.kind = .mark "\x7b"
  · rw [if_pos hmark] at h
    cases h
  · rw [if_neg hmark] at h
    by_cases hword : word.kind ≠ .name
    · rw [if_pos hword] at h
      cases h
    · rwa [if_neg hword] at h

theorem exists_of_definitionBy {first word : Token} {described : Bool} (hts : Complete ts)
    (h : definitionBy first word described ts = .ok (d, rest))
    (hname : d.operationName? = some name) :
    ∃ head : OperationHead, head.name.value = name ∧ head.Begins (undescribed ts) rest := by
  rcases definitionBy_eq_or first word described with heq | hunnamed
  · rw [heq] at h
    obtain ⟨_, middle, hskip, hrun⟩ := bind_eq_ok_iff.mp h
    obtain rfl := eq_undescribed hts hskip
    exact exists_of_operation (keeps_description _ hts _ _ hskip).2.2 hrun hname
  · rw [(hunnamed _ hts d rest h).1.operationName?] at hname
    cases hname

/-- A named operation that is read begins with its head, behind its description. -/
theorem exists_of_definition (hts : Complete ts) (h : definition ts = .ok (d, rest))
    (hname : d.operationName? = some name) :
    ∃ head : OperationHead, head.name.value = name ∧ head.Begins (undescribed ts) rest := by
  obtain ⟨first, _, hnext, hrun⟩ := bind_eq_ok_iff.mp h
  obtain ⟨rfl, more, rfl⟩ := exists_of_next hnext
  by_cases hshort : first.kind = .mark "\x7b"
  · rw [if_pos hshort] at hrun
    rw [undescribed, if_neg (by simp [isDescription, hshort])]
    exact exists_of_operation hts hrun hname
  · rw [if_neg hshort] at hrun
    by_cases hdescribed : isDescription first = true
    · rw [if_pos hdescribed] at hrun
      obtain ⟨word, _, hlook, hchecked⟩ := bind_eq_ok_iff.mp hrun
      obtain rfl := eq_of_lookahead hlook
      exact exists_of_definitionBy hts (definitionBy_of_checked hchecked) hname
    · rw [if_neg hdescribed] at hrun
      exact exists_of_definitionBy hts (definitionBy_of_checked hrun) hname

theorem head?_of_definition (hts : Complete ts) (h : definition ts = .ok (d, rest)) :
    d.operationName? = none ∧ head? d ts = none ∨
      ∃ head : OperationHead, d.operationName? = some head.name.value ∧ head? d ts = some head ∧
        head.Begins (undescribed ts) rest := by
  cases hname : d.operationName? with
  | none => exact .inl ⟨rfl, by rw [head?, hname]⟩
  | some name =>
    obtain ⟨head, rfl, hbegins⟩ := exists_of_definition hts h hname
    obtain ⟨t, more, hcons, -⟩ := hbegins.tokens
    exact .inr ⟨head, rfl, by rw [head?, hname, hcons], hbegins⟩

theorem headsFrom_cons_of_ending (fuel : Nat) {t : Token} (ht : t.kind = .ending)
    (more : List Token) : headsFrom fuel (t :: more) = [] := by
  cases fuel with
  | zero => rfl
  | succ fuel =>
    obtain ⟨_, start, value, fault⟩ := t
    subst ht
    rfl

theorem eq_of_accept {kind : TokenKind} {found : Bool} (h : accept kind ts = .ok (found, rest)) :
    found = false ∧ rest = ts ∨ found = true ∧ ∃ t more, ts = t :: more ∧ t.kind = kind := by
  obtain ⟨there, _, hpeek, hthen⟩ := bind_eq_ok_iff.mp h
  obtain rfl := eq_of_peek hpeek
  obtain ⟨t, _, hnext, hgive⟩ := bind_eq_ok_iff.mp hpeek
  obtain ⟨rfl, more, rfl⟩ := exists_of_next hnext
  cases there with
  | false =>
    cases hthen
    exact .inl ⟨rfl, rfl⟩
  | true =>
    obtain ⟨_, _, -, hanswer⟩ := bind_eq_ok_iff.mp hthen
    cases hanswer
    exact .inr ⟨rfl, t, more, rfl, by simpa using (Prod.mk.inj (Except.ok.inj hgive)).1⟩

/-- The heads of the operations that are read have the names of the operations. -/
theorem map_name_headsFrom {fuel : Nat} {doc : Document} (hts : Complete ts)
    (h : itemsUntil .ending definition fuel ts = .ok (doc, rest)) :
    (headsFrom fuel ts).map (·.name.value) = doc.operationNames := by
  induction fuel generalizing ts doc with
  | zero =>
    cases h
    rfl
  | succ fuel ih =>
    obtain ⟨d, middle, hdefinition, hmore⟩ := bind_eq_ok_iff.mp h
    obtain ⟨closed, behind, haccept, hitems⟩ := bind_eq_ok_iff.mp hmore
    have hmiddle := (gives_definition _ hts d middle hdefinition).2.2
    have hhead : (head? d ts).toList.map (·.name.value) = d.operationName?.toList := by
      rcases head?_of_definition hts hdefinition with ⟨hname, hhead⟩ | ⟨head, hname, hhead, -⟩ <;>
        rw [hname, hhead] <;> rfl
    rw [headsFrom, hdefinition]
    dsimp only
    rw [List.map_append, hhead]
    rcases eq_of_accept haccept with ⟨rfl, rfl⟩ | ⟨rfl, t, more, rfl, hending⟩
    · obtain ⟨others, _, hothers, hgive⟩ := bind_eq_ok_iff.mp hitems
      cases hgive
      rw [ih hmiddle hothers, Document.operationNames, Document.operationNames,
        List.filterMap_cons]
      cases d.operationName? <;> rfl
    -- Behind the last definition no other one can be read, so there is no head left to find.
    · cases hitems
      rw [headsFrom_cons_of_ending fuel hending, Document.operationNames, List.filterMap_cons]
      cases d.operationName? <;> rfl

end Reader

/-- How a head stands in its text: a keyword, separators, the name, and no word character behind it.
-/
structure OperationHead.Stands (h : OperationHead) (s : List Char) : Prop where
  kind : (OperationKind.ofText? h.keyword.value).isSome = true
  text : s.drop h.keyword.start =
    h.keyword.value.toList ++ (h.gap s ++ (h.name.value.toList ++ s.drop h.stop))
  stop : h.stop =
    h.keyword.start + (h.keyword.value.length + (h.gap s).length + h.name.value.length)
  gap_ne_nil : h.gap s ≠ []
  name : IsName h.name.value
  behind : (s.drop h.stop).head?.any Text.isWord = false

/-- The heads stand in the text from a place on, one behind the other. -/
inductive StandFrom (s : List Char) : Nat → List OperationHead → Prop
  | nil (place : Nat) : StandFrom s place []
  | cons {place : Nat} {h : OperationHead} {heads : List OperationHead}
    (le : place ≤ h.keyword.start) (stands : h.Stands s) (rest : StandFrom s h.stop heads) :
    StandFrom s place (h :: heads)

section Places

open Lexer

variable {s : List Char} {place place' : Nat} {heads : List OperationHead} {h : OperationHead}
  {ts rest : List Token}

theorem StandFrom.mono (hheads : StandFrom s place' heads) (hle : place ≤ place') :
    StandFrom s place heads := by
  cases hheads with
  | nil => exact .nil place
  | cons le stands rest => exact .cons (hle.trans le) stands rest

theorem StandFrom.stands (hheads : StandFrom s place heads) (h) (hmem : h ∈ heads) :
    h.Stands s := by
  induction hheads with
  | nil => cases hmem
  | cons le stands rest ih =>
    rcases List.mem_cons.mp hmem with rfl | hmem
    · exact stands
    · exact ih hmem

theorem OperationHead.Stands.start_le (hstands : h.Stands s) : h.keyword.start ≤ h.stop := by
  rw [hstands.stop]
  exact Nat.le_add_right _ _

theorem StandFrom.le (hheads : StandFrom s place heads) (h) (hmem : h ∈ heads) :
    place ≤ h.keyword.start := by
  induction hheads with
  | nil => cases hmem
  | cons le stands rest ih =>
    rcases List.mem_cons.mp hmem with rfl | hmem
    · exact le
    · exact le.trans (stands.start_le.trans (ih hmem))

theorem OperationHead.Begins.ne_nil (hbegins : h.Begins ts rest) : ts ≠ [] := by
  obtain ⟨t, more, rfl, -⟩ := hbegins.tokens
  exact List.cons_ne_nil _ _

/-- A head that begins tokens stands where they do, and what is left of them lies behind it. -/
theorem OperationHead.Begins.stands (hbegins : h.Begins ts rest) (hts : From s place ts) :
    h.Stands s ∧ place ≤ h.keyword.start ∧ ∃ behind, rest <:+ behind ∧ From s h.stop behind := by
  obtain ⟨t, more, rfl, hgoes, hrest⟩ := hbegins.tokens
  obtain ⟨hkeyword, hkeywordStands, hname⟩ := hts.name hbegins.keyword
  obtain ⟨hstart, hnameStands, hbehind⟩ := hname.name hbegins.name
  have hgap : h.gap s =
      (s.drop h.keyword.stop).take (separators false (s.drop h.keyword.stop)) := by
    rw [OperationHead.gap, hstart, Nat.add_sub_cancel_left]
  have hgapText : h.gap s ++ s.drop h.name.start = s.drop h.keyword.stop := by
    rw [hgap, hstart, ← List.drop_drop, List.take_append_drop]
  have hlength : (h.gap s).length = separators false (s.drop h.keyword.stop) := by
    rw [hgap, List.length_take, Nat.min_eq_left (separators_le _ _)]
  -- Without a gap the name would go on the keyword.
  have hapart : h.gap s ≠ [] := by
    intro hnil
    rw [hnil, List.nil_append] at hgapText
    have hend := hkeywordStands.behind
    rw [← hgapText, hnameStands.head?_any] at hend
    cases hend
  refine ⟨⟨hbegins.kind, ?_, ?_, hapart, hnameStands.isName, ?_⟩, by omega, t :: more, hrest,
    hbehind⟩
  · rw [OperationHead.stop, hnameStands.text, hgapText, hkeywordStands.text]
  · rw [hlength, OperationHead.stop, Token.stop, hstart, Token.stop]
    omega
  · exact hbehind.head?_drop hgoes hnameStands.behind

end Places

namespace Reader

theorem standFrom_headsFrom {s : List Char} {place fuel : Nat} {ts : List Token}
    (hts : Complete ts) (hfrom : Lexer.From s place ts) :
    StandFrom s place (headsFrom fuel ts) := by
  induction fuel generalizing place ts with
  | zero => exact .nil place
  | succ fuel ih =>
    rw [headsFrom]
    split
    · rename_i d middle hdefinition
      obtain ⟨-, hsuffix, hmiddle⟩ := gives_definition _ hts d middle hdefinition
      have hne : middle ≠ [] := by
        obtain ⟨t, ht, -⟩ := hmiddle.ending
        rintro rfl
        cases ht
      rcases head?_of_definition hts hdefinition with ⟨-, hhead⟩ | ⟨head, -, hhead, hbegins⟩
      · obtain ⟨later, hlater, hrest⟩ := hfrom.suffix hsuffix hne
        rw [hhead]
        exact (ih hmiddle hrest).mono hlater
      -- A head stands behind the description, and the next tokens behind the head.
      · obtain ⟨first, hfirst, hundescribed⟩ :=
          hfrom.suffix (undescribed_suffix ts) hbegins.ne_nil
        obtain ⟨hstands, hle, behind, hbehind, hrest⟩ := hbegins.stands hundescribed
        obtain ⟨later, hlater, hrest⟩ := hrest.suffix hbehind hne
        rw [hhead]
        exact .cons (hfirst.trans hle) hstands ((ih hmiddle hrest).mono hlater)
    · exact .nil place

end Reader

/-- In the text stand the heads of its named operations, one behind the other. -/
theorem standFrom_operationHeads (s : List Char) : StandFrom s 0 (operationHeads s) :=
  Reader.standFrom_headsFrom (Lexer.complete_tokens s) (Lexer.from_tokens s)

/-- The heads of the named operations in a document have their names. -/
theorem map_name_operationHeads {s : List Char} {doc : Document} (h : Document.parse s = .ok doc) :
    (operationHeads s).map (·.name.value) = doc.operationNames := by
  obtain ⟨⟨found, rest⟩, hrun, rfl⟩ := map_eq_ok_iff.mp h
  obtain ⟨first, _, hnext, hthen⟩ := Reader.bind_eq_ok_iff.mp hrun
  obtain ⟨rfl, -⟩ := Reader.exists_of_next hnext
  obtain ⟨_, ts, hsound, hitems⟩ := Reader.bind_eq_ok_iff.mp hthen
  obtain rfl := Reader.eq_of_sound hsound
  exact Reader.map_name_headsFrom (Lexer.complete_tokens s) hitems

end Ripple.Graphql
