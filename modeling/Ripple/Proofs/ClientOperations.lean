import Ripple.Proofs.ChangedDocuments
import Ripple.Proofs.OperationSearch

/-! # Which operations of a document are reported

For a changed document the analyzer reports what its search finds in the text, or the file if that
is nothing. These are the named operations of the document, in order, if nothing but white space
stands between their keywords and their names, and if no keyword that white space and a word follow
stands elsewhere in the text: in a comment, in a string, or at the end of another word.
-/
namespace Ripple.Analysis.GraphqlApi

open Graphql Outcome

/-- What the search should find where an operation has its head. -/
def headMention (s : List Char) (h : OperationHead) : Mention :=
  ⟨h.keyword.start, h.keyword.value.toList, h.gap s, h.name.value.toList⟩

/-- The text shows its named operations to the search, and nothing else. -/
structure Plain (s : List Char) : Prop where
  /-- Only white space stands between a keyword and its name. -/
  spaced : ∀ h ∈ operationHeads s, ∀ c ∈ h.gap s, Text.isBlank c = true
  /-- The expression matches nowhere outside the heads. -/
  inside : ∀ i, namedOperation.matchesStart (s.drop i) = true →
    ∃ h ∈ operationHeads s, h.keyword.start ≤ i ∧ i < h.stop

section Heads

variable {s : List Char} {h : OperationHead} {place i : Nat} {heads : List OperationHead}

theorem matchesStart_iff (place : Nat) (s : List Char) :
    namedOperation.matchesStart s = true ↔ ∃ m, mentionAt? place s = some m := by
  rw [Regex.matchesStart, Regex.match?, Regex.Cursor.start, run_namedOperation place,
    Option.isSome_map, Option.isSome_iff_exists]

theorem stop_headMention (hstands : h.Stands s) : (headMention s h).stop = h.stop := by
  rw [hstands.stop]
  simp only [Mention.stop, Mention.text, headMention, List.length_append, String.length_toList,
    Nat.add_assoc]

theorem mem_keywords {keyword : String}
    (h : (OperationKind.ofText? keyword).isSome = true) : keyword.toList ∈ keywords := by
  obtain ⟨kind, -, hkind⟩ := List.find?_isSome.mp h
  rw [← of_decide_eq_true hkind]
  cases kind <;> decide

theorem findSome?_of_mem {α β : Type} {f : α → Option β} {l : List α} {a : α} (ha : a ∈ l)
    (h : ∀ b ∈ l, f b = none ∨ f b = f a) : l.findSome? f = f a := by
  cases hfound : l.findSome? f with
  | none => exact (List.findSome?_eq_none_iff.mp hfound a ha).symm
  | some c =>
    obtain ⟨b, hb, hfb⟩ := List.exists_of_findSome?_eq_some hfound
    rcases h b hb with hnone | heq
    · rw [hnone] at hfb
      cases hfb
    · rw [← heq, hfb]

/-- A text starts with one keyword at most, so what it mentions is behind that one. -/
theorem mentionAt?_of_keyword {keyword rest : List Char} (hkeyword : keyword ∈ keywords) :
    mentionAt? place (keyword ++ rest) = mentionBehind? place keyword rest := by
  have hne : ∀ k ∈ keywords, k ≠ [] := by decide
  have hheads : ∀ k ∈ keywords, ∀ k' ∈ keywords, k.head? = k'.head? → k = k' := by decide
  have hother : ∀ k ∈ keywords, k <+: keyword ++ rest → k = keyword := by
    rintro k hk ⟨t, ht⟩
    refine hheads k hk keyword hkeyword ?_
    rw [← List.head?_append_of_ne_nil k (hne k hk), ht,
      List.head?_append_of_ne_nil keyword (hne keyword hkeyword)]
  rw [mentionAt?, findSome?_of_mem hkeyword, if_pos (List.prefix_append keyword rest),
    List.drop_left]
  intro k hk
  by_cases hprefix : k <+: keyword ++ rest
  · exact .inr (hother k hk hprefix ▸ rfl)
  · exact .inl (if_neg hprefix)

/-- The search finds a head whose keyword and name are apart by white space. -/
theorem mentionAt?_head (hstands : h.Stands s)
    (hspaced : ∀ c ∈ h.gap s, Text.isBlank c = true) :
    mentionAt? h.keyword.start (s.drop h.keyword.start) = some (headMention s h) := by
  obtain ⟨c, rest, hname, hstart, hrest⟩ := hstands.name
  have hword : ∀ d ∈ h.name.value.toList, Text.isWord d = true := by
    rw [hname]
    refine List.forall_mem_cons.mpr ⟨?_, fun d hd => Lexer.isWord_of_isNameChar (hrest d hd)⟩
    exact Lexer.isWord_of_isNameChar (Lexer.isNameChar_of_isNameStart hstart)
  have hblank : (h.name.value.toList ++ s.drop h.stop).head?.any Text.isBlank = false := by
    have hc := hword c (by simp [hname])
    rw [hname, List.cons_append, List.head?_cons, Option.any_some]
    by_contra hblank
    rw [Text.isWord_eq_false_of_isBlank (Bool.eq_true_of_not_eq_false hblank)] at hc
    cases hc
  rw [hstands.text, mentionAt?_of_keyword (mem_keywords hstands.kind), mentionBehind?,
    Text.takeWhile_append hspaced hblank, Text.dropWhile_append hspaced hblank,
    Text.takeWhile_append hword hstands.behind, if_neg hstands.gap_ne_nil, if_neg (by simp [hname])]
  rfl

/-- If the expression matches nowhere outside the heads, the search finds the heads one by one. -/
theorem mentionsFrom_of_heads (hheads : StandFrom s place heads)
    (hspaced : ∀ h ∈ heads, ∀ c ∈ h.gap s, Text.isBlank c = true)
    (hinside : ∀ i m, place ≤ i → mentionAt? i (s.drop i) = some m →
      ∃ h ∈ heads, h.keyword.start ≤ i ∧ i < h.stop) :
    mentionsFrom place 0 (s.drop place) = heads.map (headMention s) := by
  induction hheads with
  | nil place =>
    rw [List.map_nil, List.eq_nil_iff_forall_not_mem]
    intro m hm
    obtain ⟨hle, hmention⟩ := of_mem_mentionsFrom hm
    obtain ⟨h, hmem, -⟩ := hinside m.place m hle hmention
    cases hmem
  | @cons place h heads hle hstands hrest ih =>
    -- What stood in front of the next head would lie in that head or in one behind it.
    have hnone : ∀ i, place ≤ i → i < h.keyword.start → mentionAt? i (s.drop i) = none := by
      intro i hi hlt
      cases hmention : mentionAt? i (s.drop i) with
      | none => rfl
      | some m =>
        obtain ⟨h', hmem, hstart, -⟩ := hinside i m hi hmention
        have hle' := (StandFrom.cons (Nat.le_refl h.keyword.start) hstands hrest).le h' hmem
        omega
    obtain ⟨hspacedHead, hspacedRest⟩ := List.forall_mem_cons.mp hspaced
    have hmention := mentionAt?_head hstands hspacedHead
    have hstop : h.keyword.start + (headMention s h).text.length = h.stop :=
      stop_headMention hstands
    rw [mentionsFrom_of_forall hle hnone, mentionsFrom_of_some hmention, List.map_cons,
      List.drop_drop, stop_headMention hstands, hstop]
    refine congrArg _ (ih hspacedRest fun i m hi hm => ?_)
    obtain ⟨h', hmem, hstart, hlt⟩ :=
      hinside i m (hle.trans (hstands.start_le.trans hi)) hm
    rcases List.mem_cons.mp hmem with rfl | hmem
    · omega
    · exact ⟨h', hmem, hstart, hlt⟩

/-- The search finds the heads of the named operations, and nothing else, if and only if the text is
plain. -/
theorem mentions_eq_iff (s : List Char) :
    mentions s = (operationHeads s).map (headMention s) ↔ Plain s := by
  have hheads := standFrom_operationHeads s
  constructor
  · intro heq
    refine ⟨fun h hmem => ?_, fun i hmatches => ?_⟩
    · have hmention : headMention s h ∈ mentions s := heq ▸ List.mem_map_of_mem hmem
      exact (of_mentionAt? (of_mem_mentionsFrom hmention).2).2.2
    · obtain ⟨m, hm⟩ := (matchesStart_iff i _).mp hmatches
      have hzero : 0 + 0 ≤ i := Nat.zero_le i
      obtain ⟨m', hmem, hle, hlt⟩ := exists_mem_mentionsFrom hm hzero
      change m' ∈ mentions s at hmem
      rw [heq] at hmem
      obtain ⟨h, hhead, rfl⟩ := List.mem_map.mp hmem
      exact ⟨h, hhead, hle, stop_headMention (hheads.stands h hhead) ▸ hlt⟩
  · intro hplain
    exact mentionsFrom_of_heads hheads hplain.spaced fun i m _ hm =>
      hplain.inside i ((matchesStart_iff i _).mpr ⟨m, hm⟩)

instance (s : List Char) : Decidable (Plain s) := decidable_of_iff _ (mentions_eq_iff s)

end Heads

/-- The components for a document with these operations: the operations, or the file if there are
none. -/
def componentsOf (file : String) (operations : List String) : List String :=
  if operations.isEmpty then [baseName file] else operations

section Reported

variable {s : Setting} {h : Host} {file text : String}

theorem operationsIn_append (s : Setting) (h : Host) (before after : List String) :
    operationsIn s h (before ++ after) = do
      let earlier ← operationsIn s h before
      let later ← operationsIn s h after
      return earlier ++ later := by
  induction before with
  | nil =>
    rw [List.nil_append]
    cases operationsIn s h after with
    | error f => rfl
    | ok later => rfl
  | cons file rest ih =>
    rw [List.cons_append, operationsIn, operationsIn, ih]
    split_ifs
    · rfl
    · cases s.fileText h file with
      | error f => rfl
      | ok content? =>
        cases operationsIn s h rest with
        | error f => rfl
        | ok earlier =>
          cases operationsIn s h after with
          | error f => rfl
          | ok later =>
            exact congrArg Except.ok (List.append_assoc _ _ _).symm

/-- The words that the search finds are those of what is mentioned. -/
theorem map_text_findAll (s : List Char) :
    ((namedOperation.findAll s).map fun groups => (groups.text? 1).getD "") =
      (mentions s).map fun m => String.ofList m.word := by
  have h := congrArg (List.map (·.getD "")) (map_findAll s)
  rw [List.map_map, List.map_map] at h
  exact h

theorem file_of_mem_operationImpacts {i : Impact} (hi : i ∈ operationImpacts s file text) :
    i.file = file := by
  obtain ⟨component, description, rfl⟩ := exists_of_mem_operationImpacts hi
  rfl

theorem map_component_operationImpacts (s : Setting) (file : String) (htext : text ≠ "") :
    (operationImpacts s file text).map (·.component) =
      componentsOf file ((mentions text.toList).map fun m => String.ofList m.word) := by
  rw [operationImpacts, map_text_findAll, if_neg htext, componentsOf]
  split_ifs
  · rfl
  · rw [List.map_map]
    exact List.map_id _

/-- A text that is read as a document is not empty. -/
theorem ne_empty_of_parse {doc : Document} (hdoc : Document.parse text.toList = .ok doc) :
    text ≠ "" := by
  rintro rfl
  cases hdoc

/-- For a document without the name of a schema the analyzer reports, in order, the words that its
search finds, or the file if it finds none. These are the named operations of the document if the
text is plain, and only then does the search find them where they are. -/
theorem operationsIn_components {doc : Document} (hname : Text.has file "schema" = false)
    (htext : s.fileText h file = .ok (some text)) (hdoc : Document.parse text.toList = .ok doc) :
    ∃ own, operationsIn s h [file] = .ok own ∧
      (∀ i ∈ own, i.file = file) ∧
      (∀ before after, operationsIn s h (before ++ file :: after) = do
        let earlier ← operationsIn s h before
        let later ← operationsIn s h after
        return earlier ++ (own ++ later)) ∧
      own.map (·.component) =
        componentsOf file ((mentions text.toList).map fun m => String.ofList m.word) ∧
      (Plain text.toList ↔
        mentions text.toList = (operationHeads text.toList).map (headMention text.toList)) ∧
      (Plain text.toList → own.map (·.component) = componentsOf file doc.operationNames) := by
  have hcomponents := map_component_operationImpacts s file (ne_empty_of_parse hdoc)
  have hsingle : operationsIn s h [file] = .ok (operationImpacts s file text) := by
    rw [operationsIn, hname, htext]
    exact congrArg Except.ok (List.append_nil _)
  refine ⟨_, hsingle, fun i => file_of_mem_operationImpacts, fun before after => ?_, hcomponents,
    (mentions_eq_iff _).symm, fun hplain => ?_⟩
  · rw [← List.singleton_append, operationsIn_append, operationsIn_append s h [file], hsingle]
    cases operationsIn s h after <;> rfl
  · have hnames : (fun m : Mention => String.ofList m.word) ∘ headMention text.toList =
        fun head => head.name.value := funext fun head => String.ofList_toList
    rw [hcomponents, (mentions_eq_iff _).mpr hplain, List.map_map, hnames,
      map_name_operationHeads hdoc]

end Reported

/-- A machine with a document of a client. -/
def documentHost (text : String) : Host :=
  fieldHostWith ["src/users.gql"] [(["api", "src"], .directory),
    (["api", "src", "users.gql"], .file (Text.Utf8.encode text))]

def usersOperation : String := "query Users \x7b id \x7d"

def commentedOperation : String := "# the query used by the list\n" ++ usersOperation

def usersDocument : Document := [.operation .query (some "Users") [] [] [.field [] [] []]]

/-- The search finds the operation, and without a comment nothing else. -/
theorem operationsIn_components_users :
    (∃ own, operationsIn soleSetting (documentHost usersOperation) ["src/users.gql"] = .ok own ∧
      own.map (·.component) = ["Users"]) ∧
    ∃ own, operationsIn soleSetting (documentHost commentedOperation) ["src/users.gql"] = .ok own ∧
      own.map (·.component) = ["used", "Users"] := by
  have hname : Text.has "src/users.gql" "schema" = false := by decide +kernel
  have hdoc : Document.parse usersOperation.toList = .ok usersDocument := by
    rw [eq_ok_iff_toOption]
    decide +kernel
  have hdoc' : Document.parse commentedOperation.toList = .ok usersDocument := by
    rw [eq_ok_iff_toOption]
    decide +kernel
  have htext : soleSetting.fileText (documentHost usersOperation) "src/users.gql" =
      .ok (some usersOperation) := by
    rw [eq_ok_iff_toOption]
    decide +kernel
  have htext' : soleSetting.fileText (documentHost commentedOperation) "src/users.gql" =
      .ok (some commentedOperation) := by
    rw [eq_ok_iff_toOption]
    decide +kernel
  obtain ⟨own, hown, -, -, -, -, hnames⟩ := operationsIn_components hname htext hdoc
  obtain ⟨own', hown', -, -, hwords, -⟩ := operationsIn_components hname htext' hdoc'
  have hplain : Plain usersOperation.toList := by decide +kernel
  have hmentions : ((mentions commentedOperation.toList).map fun m => String.ofList m.word) =
      ["used", "Users"] := by decide +kernel
  refine ⟨⟨own, hown, hnames hplain⟩, own', hown', ?_⟩
  rw [hwords, hmentions]
  rfl

end Ripple.Analysis.GraphqlApi
