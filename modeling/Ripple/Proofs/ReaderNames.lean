import Mathlib.Data.List.TakeWhile
import Ripple.Graphql.Reader
import Ripple.Proofs.Outcome
import Ripple.Text.Word

/-! # The names in a document

The names that a document defines are names in the sense of its grammar: the reader takes them from
name tokens and from nothing else. Every reader leaves proper tokens to the next one.
-/
namespace Ripple.Graphql

open Outcome

def IsName (s : String) : Prop :=
  ∃ c rest, s.toList = c :: rest ∧ Lexer.isNameStart c = true ∧
    ∀ d ∈ rest, Lexer.isNameChar d = true

instance (s : String) : Decidable (IsName s) :=
  decidable_of_iff (s.toList.head?.any Lexer.isNameStart = true ∧
      s.toList.tail.all Lexer.isNameChar = true) <| by
    rw [IsName]
    cases s.toList <;> simp

structure TypeDef.Named (d : TypeDef) : Prop where
  name : IsName d.name
  fields : ∀ f ∈ d.fields, IsName f.name
  inputs : ∀ f ∈ d.inputs, IsName f.name
  values : ∀ v ∈ d.values, IsName v.name

structure DirectiveDef.Named (d : DirectiveDef) : Prop where
  name : IsName d.name
  arguments : ∀ a ∈ d.arguments, IsName a.name

def Definition.Named : Definition → Prop
  | .type d | .extension d => d.Named
  | .directive d => d.Named
  | _ => True

def Definition.operationName? : Definition → Option String
  | .operation _ name? .. => name?
  | _ => none

structure Definition.Unnamed (d : Definition) : Prop where
  named : d.Named
  operationName? : d.operationName? = none

def Token.Named (t : Token) : Prop := t.kind = .name → IsName t.value

namespace Lexer

theorem isNameChar_of_isNameStart {c : Char} (h : isNameStart c = true) : isNameChar c = true := by
  rw [isNameStart, Bool.or_eq_true] at h
  rw [isNameChar, Char.isAlphanum, Bool.or_eq_true, Bool.or_eq_true]
  exact h.imp_left .inl

theorem isWord_of_isNameChar {c : Char} (h : isNameChar c = true) : Text.isWord c = true := by
  have hlatin : c.toNat < 0x80 := by
    delta isNameChar Char.isAlphanum Char.isAlpha Char.isUpper Char.isLower Char.isDigit at h
    simp only [Bool.or_eq_true, Bool.and_eq_true, decide_eq_true_iff, beq_iff_eq, ge_iff_le,
      UInt32.le_iff_toNat_le] at h
    rcases h with ((h | h) | h) | rfl
    · exact Nat.lt_of_le_of_lt h.2 (by decide)
    · exact Nat.lt_of_le_of_lt h.2 (by decide)
    · exact Nat.lt_of_le_of_lt h.2 (by decide)
    · decide
  rwa [Text.isWord, if_pos hlatin]

/-- The text starts with the name, and goes on with something else. -/
structure Leads (name : String) (width : Nat) (s : List Char) : Prop where
  toList : name.toList = s.takeWhile isNameChar
  start : s.head?.any isNameStart = true
  width : width = name.length

theorem Leads.isName {name : String} {width : Nat} {s : List Char} (h : Leads name width s) :
    IsName name := by
  cases s with
  | nil => cases h.start
  | cons c rest =>
    have hc : isNameStart c = true := by simpa using h.start
    refine ⟨c, rest.takeWhile isNameChar, ?_, hc, fun d hd => List.mem_takeWhile_imp hd⟩
    rw [h.toList, List.takeWhile_cons, if_pos (isNameChar_of_isNameStart hc)]

/-- What is lexed from a text is the name in front of it if it is called a name. -/
def Proper (s : List Char) (p : Piece) : Prop := ∀ kind value length,
  p = .ok (kind, value, length) → kind = .name → Leads value length s

section Pieces

variable {text : List Char}

theorem proper_error (f : SyntaxFault) : Proper text (.error f) := nofun

theorem proper_ok {kind : TokenKind} (h : kind ≠ .name) (value : String) (length : Nat) :
    Proper text (.ok (kind, value, length)) := by
  rintro _ _ _ ⟨⟩ hname
  exact absurd hname h

theorem proper_bind {α : Type} {x : Except SyntaxFault α} {f : α → Piece}
    (h : ∀ a, Proper text (f a)) : Proper text (x >>= f) := by
  intro kind value length hok
  obtain ⟨a, -, ha⟩ := bind_eq_ok_iff.mp hok
  exact h a kind value length ha

theorem proper_string (start fuel : Nat) (value : List Char) (used : Nat) (s : List Char) :
    Proper text (string start fuel value used s) := by
  induction fuel generalizing value used s with
  | zero => exact proper_error _
  | succ fuel ih =>
    rw [string.eq_def]
    dsimp only
    split
    · exact proper_ok (by decide) _ _
    · exact proper_bind fun p => ih _ _ _
    · exact proper_error _
    · split_ifs
      · exact proper_error _
      · exact ih _ _ _

theorem proper_block (start fuel : Nat) (lines : List (List Char)) (line : List Char) (used : Nat)
    (s : List Char) : Proper text (block start fuel lines line used s) := by
  induction fuel generalizing lines line used s with
  | zero => exact proper_error _
  | succ fuel ih =>
    rw [block.eq_def]
    dsimp only
    split
    · exact proper_error _
    · exact proper_ok (by decide) _ _
    · exact ih _ _ _ _
    · exact ih _ _ _ _
    · split_ifs <;> exact ih _ _ _ _

theorem proper_number (start : Nat) (s : List Char) : Proper text (number start s) := by
  refine proper_bind fun whole => proper_bind fun fraction => proper_bind fun exponent =>
    proper_bind fun _ => proper_ok ?_ _ _
  split_ifs <;> decide

end Pieces

theorem proper_piece (start : Nat) (s : List Char) : Proper s (piece start s) := by
  rw [piece.eq_def]
  split
  · exact proper_ok (by decide) _ _
  · exact proper_block _ _ _ _ _ _
  · exact proper_string _ _ _ _ _
  · exact proper_ok (by decide) _ _
  · exact proper_error _
  · split_ifs
    · exact proper_number _ _
    · rintro _ _ _ ⟨⟩ -
      exact ⟨String.toList_ofList, ‹_›, String.length_ofList.symm⟩
    · exact proper_ok (by simp) _ _
    all_goals exact proper_error _

theorem named_of_mem_tokensFrom {fuel start : Nat} {s : List Char} {t : Token}
    (h : t ∈ tokensFrom fuel start s) : t.Named := by
  induction fuel generalizing start s with
  | zero =>
    rw [tokensFrom, List.mem_singleton] at h
    subst h
    nofun
  | succ fuel ih =>
    rw [tokensFrom] at h
    split at h
    · rw [List.mem_singleton] at h
      subst h
      nofun
    · rw [List.mem_singleton] at h
      subst h
      nofun
    · rename_i kind value length hpiece
      rcases List.mem_cons.mp h with rfl | h
      · exact fun hname => (proper_piece _ _ _ _ _ hpiece hname).isName
      · exact ih h

theorem getLast?_tokensFrom (fuel start : Nat) (s : List Char) :
    ∃ t, (tokensFrom fuel start s).getLast? = some t ∧ t.kind = .ending := by
  induction fuel generalizing start s with
  | zero => exact ⟨_, rfl, rfl⟩
  | succ fuel ih =>
    rw [tokensFrom]
    split
    · exact ⟨_, rfl, rfl⟩
    · exact ⟨_, rfl, rfl⟩
    · obtain ⟨t, ht, hkind⟩ := ih _ _
      exact ⟨t, by rw [List.getLast?_cons, ht]; rfl, hkind⟩

end Lexer

structure Complete (ts : List Token) : Prop where
  named : ∀ t ∈ ts, t.Named
  ending : ∃ t, ts.getLast? = some t ∧ t.kind = .ending

theorem Complete.tail {t t' : Token} {ts : List Token} (h : Complete (t :: t' :: ts)) :
    Complete (t' :: ts) where
  named := fun u hu => h.named u (List.mem_cons_of_mem t hu)
  ending := by simpa using h.ending

theorem Lexer.complete_tokens (s : List Char) : Complete (tokens s) :=
  ⟨fun _ => named_of_mem_tokensFrom, getLast?_tokensFrom _ _ _⟩

namespace Reader

variable {α β : Type} {P : α → Prop} {Q : β → Prop}

/-- From complete tokens, the reader gives what satisfies `P`, and it leaves complete tokens at
their end. -/
def Gives (P : α → Prop) (r : Reader α) : Prop :=
  ∀ ts, Complete ts → ∀ a rest, r ts = .ok (a, rest) → P a ∧ rest <:+ ts ∧ Complete rest

/-- The reader leaves complete tokens at the end of those it has. -/
def Keeps (r : Reader α) : Prop := Gives (fun _ => True) r

theorem gives_pure {a : α} (h : P a) : Gives P (pure a : Reader α) := by
  rintro ts hts _ _ ⟨⟩
  exact ⟨h, List.suffix_refl ts, hts⟩

theorem gives_throw (f : SyntaxFault) : Gives P (throw f : Reader α) := nofun

theorem gives_failAt (t : Token) (description : String) : Gives P (failAt t description) := nofun

theorem gives_unexpected (t : Token) : Gives P (unexpected t) := nofun

theorem keeps_failAt (t : Token) (description : String) :
    Keeps (failAt t description : Reader α) := nofun

theorem keeps_unexpected (t : Token) : Keeps (unexpected t : Reader α) := nofun

theorem Gives.bind {x : Reader α} {f : α → Reader β} (hx : Gives P x)
    (hf : ∀ a, P a → Gives Q (f a)) : Gives Q (x >>= f) := by
  intro ts hts b rest hrun
  obtain ⟨⟨a, middle⟩, ha, hb⟩ := bind_eq_ok_iff.mp hrun
  obtain ⟨hP, hsuffix, hmiddle⟩ := hx ts hts a middle ha
  obtain ⟨hQ, hsuffix', hrest⟩ := hf a hP middle hmiddle b rest hb
  exact ⟨hQ, hsuffix'.trans hsuffix, hrest⟩

theorem Gives.mono {x : Reader α} {P' : α → Prop} (hx : Gives P x) (h : ∀ a, P a → P' a) :
    Gives P' x :=
  fun ts hts a rest hrun => (hx ts hts a rest hrun).imp_left (h a)

theorem Gives.keeps {x : Reader α} (hx : Gives P x) : Keeps x := hx.mono fun _ _ => trivial

/-- After a reader whose answer does not matter. -/
theorem Keeps.then {x : Reader α} {f : α → Reader β} (hx : Keeps x) (hf : ∀ a, Gives Q (f a)) :
    Gives Q (x >>= f) := hx.bind fun a _ => hf a

theorem gives_get : Gives Complete (get : Reader (List Token)) := by
  rintro ts hts _ _ ⟨⟩
  exact ⟨hts, List.suffix_refl ts, hts⟩

theorem gives_next : Gives Token.Named next := by
  refine gives_get.bind fun ts hts => ?_
  split
  · exact gives_pure (hts.named _ List.mem_cons_self)
  · exact gives_throw _

theorem keeps_sound (t : Token) : Keeps (sound t) := by
  rw [sound]
  split
  · exact gives_throw _
  · exact gives_pure trivial

theorem gives_lookahead : Gives Token.Named lookahead := by
  refine gives_get.bind fun ts hts => ?_
  split
  · exact (keeps_sound _).then fun _ => gives_pure (hts.named _ (by simp))
  · exact gives_next

/-- Going on to the next token, which is no fault. -/
theorem advance_cons_eq_ok_iff {t t' : Token} {ts rest : List Token} {a : Unit} :
    advance (t :: t' :: ts) = .ok (a, rest) ↔ t'.fault = none ∧ rest = t' :: ts := by
  change (do sound t'; set (t' :: ts) : Reader Unit) (t :: t' :: ts) = _ ↔ _
  rw [sound]
  cases t'.fault with
  | none =>
    change Except.ok ((), t' :: ts) = .ok (a, rest) ↔ _
    simp [eq_comm]
  | some f => exact iff_of_false nofun nofun

theorem keeps_advance : Keeps advance := by
  intro ts hts a rest hrun
  match ts with
  | [] | [_] =>
    cases hrun
    exact ⟨trivial, List.suffix_refl _, hts⟩
  | t :: t' :: ts =>
    obtain ⟨-, rfl⟩ := advance_cons_eq_ok_iff.mp hrun
    exact ⟨trivial, List.suffix_cons t _, hts.tail⟩

theorem keeps_peek (kind : TokenKind) : Keeps (peek kind) :=
  gives_next.bind fun _ _ => gives_pure trivial

theorem gives_expect (kind : TokenKind) :
    Gives (fun t => t.kind = kind ∧ t.Named) (expect kind) := by
  refine gives_next.bind fun t ht => ?_
  split_ifs with hkind
  · exact keeps_advance.then fun _ => gives_pure ⟨hkind, ht⟩
  · exact gives_failAt _ _

theorem keeps_accept (kind : TokenKind) : Keeps (accept kind) := by
  refine (keeps_peek kind).then fun found => ?_
  split_ifs
  · exact keeps_advance.then fun _ => gives_pure trivial
  · exact gives_pure trivial

theorem keeps_mark (text : String) : Keeps (mark text) :=
  (gives_expect _).keeps.then fun _ => gives_pure trivial

theorem keeps_acceptMark (text : String) : Keeps (acceptMark text) := keeps_accept _

theorem keeps_keyword (text : String) : Keeps (keyword text) := by
  refine gives_next.bind fun t _ => ?_
  split_ifs
  · exact keeps_advance
  · exact gives_failAt _ _

theorem keeps_acceptKeyword (text : String) : Keeps (acceptKeyword text) := by
  refine gives_next.bind fun t _ => ?_
  split_ifs
  · exact keeps_advance.then fun _ => gives_pure trivial
  · exact gives_pure trivial

theorem gives_name : Gives IsName name :=
  (gives_expect .name).bind fun _ h => gives_pure (h.2 h.1)

section Items

variable {item : Reader α} (h : Gives P item)

include h

theorem gives_itemsUntil (close : TokenKind) (fuel : Nat) :
    Gives (fun l => ∀ a ∈ l, P a) (itemsUntil close item fuel) := by
  induction fuel with
  | zero => exact gives_pure nofun
  | succ fuel ih =>
    refine h.bind fun a ha => (keeps_accept close).then fun found => ?_
    split_ifs
    · exact gives_pure (List.forall_mem_singleton.mpr ha)
    · exact ih.bind fun l hl => gives_pure (List.forall_mem_cons.mpr ⟨ha, hl⟩)

theorem gives_many (first close : TokenKind) :
    Gives (fun l => ∀ a ∈ l, P a) (many first item close) :=
  (gives_expect first).keeps.then fun _ => gives_get.keeps.then fun _ => gives_itemsUntil h _ _

theorem gives_optionalMany (first close : String) :
    Gives (fun l => ∀ a ∈ l, P a) (optionalMany first close item) := by
  refine (keeps_acceptMark first).then fun found => ?_
  split_ifs
  · exact gives_get.keeps.then fun _ => gives_itemsUntil h _ _
  · exact gives_pure nofun

theorem gives_anyUntil (close : String) (fuel : Nat) :
    Gives (fun l => ∀ a ∈ l, P a) (anyUntil close item fuel) := by
  induction fuel with
  | zero => exact gives_pure nofun
  | succ fuel ih =>
    refine (keeps_acceptMark close).then fun found => ?_
    split_ifs
    · exact gives_pure nofun
    · exact h.bind fun a ha => ih.bind fun l hl => gives_pure (List.forall_mem_cons.mpr ⟨ha, hl⟩)

theorem gives_itemsBetween (separator : String) (fuel : Nat) :
    Gives (fun l => ∀ a ∈ l, P a) (itemsBetween separator item fuel) := by
  induction fuel with
  | zero => exact gives_pure nofun
  | succ fuel ih =>
    refine h.bind fun a ha => (keeps_acceptMark separator).then fun found => ?_
    split_ifs
    · exact ih.bind fun l hl => gives_pure (List.forall_mem_cons.mpr ⟨ha, hl⟩)
    · exact gives_pure (List.forall_mem_singleton.mpr ha)

theorem gives_delimited (separator : String) :
    Gives (fun l => ∀ a ∈ l, P a) (delimited separator item) :=
  (keeps_acceptMark separator).then fun _ => gives_get.keeps.then fun _ =>
    gives_itemsBetween h _ _

end Items

theorem keeps_valueWith (isConst : Bool) (fuel : Nat) : Keeps (valueWith isConst fuel) := by
  induction fuel with
  | zero => exact gives_next.bind fun t _ => gives_unexpected t
  | succ fuel ih =>
    have hfield : Keeps (do
        let key ← name
        mark ":"
        return (key, ← valueWith isConst fuel)) :=
      gives_name.keeps.then fun _ => (keeps_mark _).then fun _ => ih.then fun _ =>
        gives_pure trivial
    refine gives_next.bind fun t _ => ?_
    split
    · exact keeps_advance.then fun _ => gives_get.keeps.then fun _ =>
        (gives_anyUntil ih _ _).keeps.then fun _ => gives_pure trivial
    · exact keeps_advance.then fun _ => gives_get.keeps.then fun _ =>
        (gives_anyUntil hfield _ _).keeps.then fun _ => gives_pure trivial
    · exact keeps_advance.then fun _ => gives_pure trivial
    · exact keeps_advance.then fun _ => gives_pure trivial
    · exact keeps_advance.then fun _ => gives_pure trivial
    · exact keeps_advance.then fun _ => gives_pure trivial
    · exact keeps_advance.then fun _ => gives_pure trivial
    · refine keeps_advance.then fun _ => ?_
      split_ifs
      · refine gives_next.bind fun v _ => ?_
        split_ifs
        · exact gives_failAt _ _
        · exact gives_unexpected _
      · exact gives_name.keeps.then fun _ => gives_pure trivial
    · exact gives_unexpected _

theorem keeps_value (isConst : Bool) : Keeps (value isConst) :=
  gives_get.keeps.then fun _ => keeps_valueWith _ _

theorem keeps_arguments (isConst : Bool) : Keeps (arguments isConst) := by
  have hargument : Keeps (argument isConst) :=
    gives_name.keeps.then fun _ => (keeps_mark _).then fun _ => gives_next.keeps.then fun _ =>
      (keeps_value isConst).then fun _ => gives_pure trivial
  exact (gives_optionalMany hargument _ _).keeps

theorem keeps_directivesWith (isConst : Bool) (fuel : Nat) :
    Keeps (directivesWith isConst fuel) := by
  induction fuel with
  | zero => exact gives_pure trivial
  | succ fuel ih =>
    refine gives_next.keeps.then fun _ => (keeps_acceptMark "@").then fun found => ?_
    split_ifs
    · exact gives_name.keeps.then fun _ => (keeps_arguments isConst).then fun _ =>
        ih.then fun _ => gives_pure trivial
    · exact gives_pure trivial

theorem keeps_directives (isConst : Bool) : Keeps (directives isConst) :=
  gives_get.keeps.then fun _ => keeps_directivesWith _ _

theorem keeps_typeRefWith (fuel : Nat) : Keeps (typeRefWith fuel) := by
  induction fuel with
  | zero => exact gives_next.bind fun t _ => gives_unexpected t
  | succ fuel ih =>
    have hend : ∀ inner : TypeRef, Keeps (do
        if ← acceptMark "!" then return .nonNull inner
        return inner) := by
      intro inner
      refine (keeps_acceptMark "!").then fun found => ?_
      split_ifs <;> exact gives_pure trivial
    refine (keeps_acceptMark "[").then fun found => ?_
    split_ifs
    · exact ih.then fun _ => (keeps_mark "]").then fun _ => hend _
    · exact gives_name.keeps.then fun _ => hend _

theorem keeps_typeRef : Keeps typeRef := gives_get.keeps.then fun _ => keeps_typeRefWith _

theorem keeps_description : Keeps description := by
  refine gives_next.keeps.then fun t => ?_
  split_ifs
  · exact keeps_advance
  · exact gives_pure trivial

theorem keeps_default? : Keeps default? := by
  refine (keeps_acceptMark "=").then fun found => ?_
  split_ifs
  · exact (keeps_value true).then fun _ => gives_pure trivial
  · exact gives_pure trivial

theorem gives_inputDef : Gives (fun d => IsName d.name) inputDef :=
  keeps_description.then fun _ => gives_name.bind fun _ hkey => (keeps_mark ":").then fun _ =>
    keeps_typeRef.then fun _ => keeps_default?.then fun _ => (keeps_directives true).then fun _ =>
      gives_pure hkey

theorem gives_inputDefs : Gives (fun l => ∀ d ∈ l, IsName d.name) inputDefs :=
  gives_optionalMany gives_inputDef _ _

theorem gives_fieldDef : Gives (fun d => IsName d.name) fieldDef :=
  keeps_description.then fun _ => gives_name.bind fun _ hkey => gives_inputDefs.keeps.then fun _ =>
    (keeps_mark ":").then fun _ => keeps_typeRef.then fun _ => (keeps_directives true).then fun _ =>
      gives_pure hkey

theorem gives_enumValueDef : Gives (fun d => IsName d.name) enumValueDef := by
  refine keeps_description.then fun _ => gives_next.keeps.then fun t => ?_
  split_ifs
  · exact (keeps_failAt _ _).then fun _ => gives_name.bind fun _ hkey =>
      (keeps_directives true).then fun _ => gives_pure hkey
  · exact gives_name.bind fun _ hkey => (keeps_directives true).then fun _ => gives_pure hkey

theorem keeps_interfaces : Keeps interfaces := by
  refine (keeps_acceptKeyword _).then fun found => ?_
  split_ifs
  · exact (gives_delimited gives_name _).keeps
  · exact gives_pure trivial

theorem keeps_members : Keeps members := by
  refine (keeps_acceptMark _).then fun found => ?_
  split_ifs
  · exact (gives_delimited gives_name _).keeps
  · exact gives_pure trivial

theorem gives_typeBody {d : TypeDef} (hd : d.Named) : Gives TypeDef.Named (typeBody d) := by
  rw [typeBody]
  cases d.kind with
  | scalar => exact gives_pure hd
  | object | interface =>
    exact (gives_optionalMany gives_fieldDef _ _).bind fun _ hfields =>
      gives_pure ⟨hd.name, hfields, hd.inputs, hd.values⟩
  | union =>
    exact keeps_members.then fun _ => gives_pure ⟨hd.name, hd.fields, hd.inputs, hd.values⟩
  | enum =>
    exact (gives_optionalMany gives_enumValueDef _ _).bind fun _ hvalues =>
      gives_pure ⟨hd.name, hd.fields, hd.inputs, hvalues⟩
  | input =>
    exact (gives_optionalMany gives_inputDef _ _).bind fun _ hinputs =>
      gives_pure ⟨hd.name, hd.fields, hinputs, hd.values⟩

theorem gives_typeDef (kind : TypeKind) : Gives TypeDef.Named (typeDef kind) := by
  refine (keeps_keyword _).then fun _ => gives_name.bind fun key hkey => ?_
  split_ifs
  · refine keeps_interfaces.then fun ifs => (keeps_directives true).then fun ds => ?_
    exact gives_typeBody ⟨hkey, nofun, nofun, nofun⟩
  · exact (keeps_directives true).then fun ds =>
      gives_typeBody (d := ⟨key, kind, ds, [], [], [], [], []⟩) ⟨hkey, nofun, nofun, nofun⟩

theorem keeps_operationKind : Keeps operationKind := by
  refine (gives_expect _).keeps.then fun t => ?_
  split
  · exact gives_pure trivial
  · exact gives_unexpected _

theorem keeps_root : Keeps root :=
  keeps_operationKind.then fun _ => (keeps_mark _).then fun _ => gives_name.keeps.then fun _ =>
    gives_pure trivial

theorem gives_schema : Gives Definition.Unnamed schema :=
  (keeps_keyword _).then fun _ => (keeps_directives true).then fun _ =>
    (gives_many keeps_root _ _).keeps.then fun _ => gives_pure ⟨trivial, rfl⟩

theorem keeps_location : Keeps location := by
  refine gives_next.keeps.then fun t => gives_name.keeps.then fun key => ?_
  split
  · exact gives_pure trivial
  · exact gives_unexpected _

theorem gives_directiveDef : Gives Definition.Unnamed directiveDef :=
  (keeps_keyword _).then fun _ => (keeps_mark _).then fun _ => gives_name.bind fun _ hkey =>
    gives_inputDefs.bind fun _ hargs => (keeps_acceptKeyword _).then fun _ => (keeps_keyword _).then
      fun _ => (gives_delimited keeps_location _).keeps.then fun _ =>
        gives_pure ⟨⟨hkey, hargs⟩, rfl⟩

theorem gives_extension : Gives Definition.Unnamed extension := by
  refine gives_lookahead.keeps.then fun word => ?_
  split_ifs
  · refine (keeps_keyword _).then fun _ => (keeps_keyword _).then fun _ =>
      (keeps_directives true).then fun ds => (gives_optionalMany keeps_root _ _).keeps.then
        fun roots => ?_
    split_ifs
    · exact gives_next.keeps.then fun t => (keeps_unexpected t).then fun _ =>
        gives_pure ⟨trivial, rfl⟩
    · exact gives_pure ⟨trivial, rfl⟩
  · split
    · exact gives_unexpected _
    · refine (keeps_keyword _).then fun _ => (gives_typeDef _).bind fun d hd => ?_
      split_ifs
      · exact gives_next.keeps.then fun t => (keeps_unexpected t).then fun _ => gives_pure ⟨hd, rfl⟩
      · exact gives_pure ⟨hd, rfl⟩
  · exact gives_unexpected _

theorem keeps_fragmentName : Keeps fragmentName := by
  refine gives_next.keeps.then fun t => ?_
  split_ifs
  · exact (keeps_unexpected t).then fun _ => gives_name.keeps
  · exact gives_name.keeps

theorem keeps_selectionWith (fuel : Nat) : Keeps (selectionWith fuel) := by
  induction fuel with
  | zero => exact gives_next.bind fun t _ => gives_unexpected t
  | succ fuel ih =>
    have hinner : Keeps (many (.mark "\x7b") (selectionWith fuel) (.mark "\x7d")) :=
      (gives_many ih _ _).keeps
    refine (keeps_acceptMark _).then fun spread => ?_
    split_ifs
    · refine (keeps_acceptKeyword _).then fun conditional => (keeps_peek _).then fun named => ?_
      split_ifs
      · exact keeps_fragmentName.then fun _ => (keeps_directives _).then fun _ =>
          gives_pure trivial
      · exact gives_name.keeps.then fun _ => (keeps_directives _).then fun _ =>
          hinner.then fun _ => gives_pure trivial
      · exact (keeps_directives _).then fun _ => hinner.then fun _ => gives_pure trivial
    · have hfield : Keeps (do
          let args ← arguments false
          let ds ← directives false
          if ← peek (.mark "\x7b") then
            return Selection.field args ds
              (← many (.mark "\x7b") (selectionWith fuel) (.mark "\x7d"))
          return Selection.field args ds []) := by
        refine (keeps_arguments _).then fun _ => (keeps_directives _).then fun _ =>
          (keeps_peek _).then fun _ => ?_
        split_ifs
        · exact hinner.then fun _ => gives_pure trivial
        · exact gives_pure trivial
      refine gives_name.keeps.then fun _ => (keeps_acceptMark _).then fun renamed => ?_
      split_ifs
      · exact gives_name.keeps.then fun _ => hfield
      · exact hfield

theorem keeps_selections : Keeps selections :=
  gives_get.keeps.then fun _ => (gives_many (keeps_selectionWith _) _ _).keeps

theorem keeps_variableDef : Keeps variableDef :=
  keeps_description.then fun _ => (keeps_mark _).then fun _ => gives_name.keeps.then fun _ =>
    (keeps_mark _).then fun _ => keeps_typeRef.then fun _ => keeps_default?.then fun _ =>
      (keeps_directives _).then fun _ => gives_pure trivial

/-- The rest of an operation, behind its kind and its name. -/
theorem gives_operationBody (kind : OperationKind) (name? : Option String) :
    Gives (fun d : Definition => d.Named ∧ d.operationName? = name?) (do
      let vars ← optionalMany "(" ")" variableDef
      let ds ← directives false
      return .operation kind name? vars ds (← selections)) :=
  (gives_optionalMany keeps_variableDef _ _).keeps.then fun _ => (keeps_directives _).then
    fun _ => keeps_selections.then fun _ => gives_pure ⟨trivial, rfl⟩

theorem gives_shortOperation : Gives Definition.Unnamed (do
    return .operation .query none [] [] (← selections)) :=
  keeps_selections.then fun _ => gives_pure ⟨trivial, rfl⟩

theorem gives_operation : Gives Definition.Named operation := by
  refine (keeps_peek _).then fun short => ?_
  split_ifs
  · exact gives_shortOperation.mono fun _ h => h.named
  · refine keeps_operationKind.then fun kind => (keeps_peek _).then fun named => ?_
    split_ifs
    · exact gives_name.keeps.then fun key =>
        (gives_operationBody kind (some key)).mono fun _ h => h.1
    · exact (gives_operationBody kind none).mono fun _ h => h.1

theorem gives_fragment : Gives Definition.Unnamed fragment :=
  (keeps_keyword _).then fun _ => keeps_fragmentName.then fun _ => (keeps_keyword _).then fun _ =>
    gives_name.keeps.then fun _ => (keeps_directives _).then fun _ => keeps_selections.then fun _ =>
      gives_pure ⟨trivial, rfl⟩

/-- A definition by its keyword is an operation behind its description, or it is no named operation.
-/
theorem definitionBy_eq_or (first word : Token) (described : Bool) :
    definitionBy first word described = (do description; operation) ∨
      Gives Definition.Unnamed (definitionBy first word described) := by
  rw [definitionBy]
  split
  · exact .inr (keeps_description.then fun _ => (gives_typeDef _).bind fun _ hd =>
      gives_pure ⟨hd, rfl⟩)
  · split
    · exact .inr (keeps_description.then fun _ => gives_schema)
    · exact .inr (keeps_description.then fun _ => gives_directiveDef)
    · exact .inl rfl
    · exact .inl rfl
    · exact .inl rfl
    · exact .inr (keeps_description.then fun _ => gives_fragment)
    · split_ifs
      · exact .inr (gives_failAt _ _)
      · exact .inr gives_extension
    · split_ifs
      · exact .inr (gives_failAt _ _)
      · exact .inr (gives_unexpected _)

theorem gives_definitionBy (first word : Token) (described : Bool) :
    Gives Definition.Named (definitionBy first word described) := by
  rcases definitionBy_eq_or first word described with h | h
  · rw [h]
    exact keeps_description.then fun _ => gives_operation
  · exact h.mono fun _ hd => hd.named

theorem gives_definition : Gives Definition.Named definition := by
  refine gives_next.keeps.then fun first => ?_
  split_ifs
  · exact gives_operation
  · have hword : ∀ word, Gives Definition.Named (do
        if isDescription first ∧ word.kind = .mark "\x7b" then
          failAt first "Unexpected description, descriptions are supported only on definitions."
        if word.kind ≠ .name then unexpected word
        definitionBy first word (isDescription first)) := by
      intro word
      have hby := gives_definitionBy first word (isDescription first)
      dsimp only
      split_ifs
      · exact (keeps_failAt _ _).then fun _ => (keeps_unexpected _).then fun _ => hby
      · exact (keeps_failAt _ _).then fun _ => hby
      · exact (keeps_unexpected _).then fun _ => hby
      · exact hby
    dsimp only
    split_ifs
    · exact gives_lookahead.keeps.then hword
    · exact hword first

theorem gives_document : Gives (fun doc => ∀ d ∈ doc, d.Named) document :=
  gives_next.keeps.then fun t => (keeps_sound t).then fun _ => gives_get.keeps.then fun _ =>
    gives_itemsUntil gives_definition _ _

end Reader

/-- The types that a document defines and extends and its directives have names, and so have their
parts. -/
theorem Document.named_of_parse {s : List Char} {doc : Document} (h : Document.parse s = .ok doc) :
    ∀ d ∈ doc, d.Named := by
  obtain ⟨⟨found, rest⟩, hrun, rfl⟩ := map_eq_ok_iff.mp h
  exact (Reader.gives_document _ (Lexer.complete_tokens s) _ _ hrun).1

end Ripple.Graphql
