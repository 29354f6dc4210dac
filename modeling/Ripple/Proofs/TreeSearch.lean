import Mathlib.Data.List.Basic
import Ripple.Outline.Tree

/-! # The search for the nodes of one sort

The search visits every node below the root once, and it finds nodes in the order in which the
source has them: each before its parts, and all parts before what comes behind the node. The trees
on its stack are those that this order has still to come to. Each round takes one node off them, so
there are as many rounds as nodes below the root.
-/
namespace Ripple.Outline.Tree

variable {α : Type}

theorem sizes_cons (t : Tree α) (rest : List (Tree α)) :
    sizes (t :: rest) = sizes t.parts + sizes rest + 1 := by
  cases t
  rw [sizes, parts]

theorem sizes_reverse (ts : List (Tree α)) : sizes ts.reverse = sizes ts := by
  induction ts with
  | nil => rfl
  | cons t rest ih =>
    rw [List.reverse_cons, sizes_append, ih, sizes_cons, sizes_cons, sizes]
    omega

theorem sizes_eq_zero_iff {ts : List (Tree α)} : sizes ts = 0 ↔ ts = [] := by
  cases ts with
  | nil => simp [sizes]
  | cons t rest => simp [sizes_cons]

/-- The nodes of a list of trees, each before its parts. -/
def preorder : List (Tree α) → List (Tree α)
  | [] => []
  | node a ts :: rest => node a ts :: (preorder ts ++ preorder rest)

@[simp] theorem preorder_append (s t : List (Tree α)) :
    preorder (s ++ t) = preorder s ++ preorder t := by
  induction s with
  | nil => simp [preorder]
  | cons n rest ih =>
    cases n
    rw [List.cons_append, preorder, preorder, ih, List.cons_append, List.append_assoc]

theorem preorder_cons (t : Tree α) (rest : List (Tree α)) :
    preorder (t :: rest) = t :: (preorder t.parts ++ preorder rest) := by
  cases t
  rw [preorder, parts]

theorem length_preorder (ts : List (Tree α)) : (preorder ts).length = sizes ts := by
  fun_induction preorder ts with
  | case1 => rw [sizes, List.length_nil]
  | case2 a ts rest ih ih' => rw [List.length_cons, List.length_append, ih, ih', sizes]

/-- The trees on the stack are the rest of the order. -/
theorem search_eq (p : α → Bool) (pending found : List (Tree α)) :
    search p pending found = found.reverse ++ (preorder pending).filter fun n => p n.label := by
  fun_induction search p pending found with
  | case1 found => simp [preorder]
  | case2 a ts pending found ih =>
    -- the parts of the first tree stand in its place, before the other pending trees
    simp only [dite_eq_ite] at ih
    rw [ih, preorder_append, preorder]
    cases ha : p a <;> simp [label, ha]

theorem descendants_eq (p : α → Bool) (t : Tree α) :
    descendants p t = (preorder t.parts).filter fun n => p n.label := by
  rw [descendants, search_eq]
  rfl

/-- Where the search stands: the trees that it has still to visit, the next one last, and the nodes
that it has found. -/
structure SearchState (α : Type) where
  pending : List (Tree α)
  found : List (Tree α)

namespace SearchState

variable {p : α → Bool} {s s' : SearchState α}

/-- Before the first round, the parts of a tree are pending, the first one last. -/
def start (t : Tree α) : SearchState α := ⟨t.parts.reverse, []⟩

/-- One round takes the last pending tree and puts its parts in its place, the first one last. -/
def round (p : α → Bool) (s : SearchState α) : Option (SearchState α) :=
  s.pending.getLast?.map fun t =>
    ⟨s.pending.dropLast ++ t.parts.reverse, if p t.label then s.found ++ [t] else s.found⟩

/-- The state behind a number of rounds, or behind the last one if there are fewer. -/
def after (p : α → Bool) : Nat → SearchState α → SearchState α
  | 0, s => s
  | n + 1, s =>
    match round p s with
    | some s' => after p n s'
    | none => s

/-- What has been found, and what the search will still find. -/
def answer (p : α → Bool) (s : SearchState α) : List (Tree α) :=
  s.found ++ (preorder s.pending.reverse).filter fun n => p n.label

theorem round_eq_none_iff : round p s = none ↔ s.pending = [] := by
  simp [round]

theorem round_eq_some_iff : round p s = some s' ↔
    ∃ before t, s.pending = before ++ [t] ∧
      s' = ⟨before ++ t.parts.reverse, if p t.label then s.found ++ [t] else s.found⟩ := by
  rw [round, Option.map_eq_some_iff]
  constructor
  · rintro ⟨t, ht, rfl⟩
    exact ⟨_, t, (List.dropLast_append_getLast? t ht).symm, rfl⟩
  · rintro ⟨before, t, hpending, rfl⟩
    exact ⟨t, by simp [hpending], by simp [hpending]⟩

/-- A round changes nothing of the answer. -/
theorem answer_round (h : round p s = some s') : answer p s' = answer p s := by
  obtain ⟨before, t, hpending, rfl⟩ := round_eq_some_iff.mp h
  rw [answer, answer, hpending]
  cases ht : p t.label <;> simp [preorder_cons, ht]

/-- A round takes one node off the pending trees. -/
theorem sizes_round (h : round p s = some s') : sizes s'.pending + 1 = sizes s.pending := by
  obtain ⟨before, t, hpending, rfl⟩ := round_eq_some_iff.mp h
  rw [hpending, sizes_append, sizes_append, sizes_reverse, sizes_cons, sizes]
  omega

theorem answer_after (n : Nat) (s : SearchState α) : answer p (after p n s) = answer p s := by
  induction n generalizing s with
  | zero => rfl
  | succ n ih =>
    rw [after]
    cases hround : round p s with
    | none => rfl
    | some s' => exact (ih s').trans (answer_round hround)

theorem sizes_after (n : Nat) (s : SearchState α) :
    sizes (after p n s).pending = sizes s.pending - n := by
  induction n generalizing s with
  | zero => rfl
  | succ n ih =>
    rw [after]
    cases hround : round p s with
    | none =>
      dsimp only
      rw [round_eq_none_iff.mp hround, sizes, Nat.zero_sub]
    | some s' =>
      have hsizes := sizes_round hround
      dsimp only
      rw [ih]
      omega

/-- The search ends behind as many rounds as there are pending nodes, and not before. -/
theorem pending_after_eq_nil_iff (n : Nat) (s : SearchState α) :
    (after p n s).pending = [] ↔ sizes s.pending ≤ n := by
  rw [← sizes_eq_zero_iff, sizes_after]
  omega

theorem found_after {n : Nat} (h : sizes s.pending ≤ n) : (after p n s).found = answer p s := by
  have hend := (pending_after_eq_nil_iff (p := p) n s).mpr h
  rw [← answer_after n s, answer, hend]
  simp [preorder]

theorem answer_start (t : Tree α) : answer p (start t) = descendants p t := by
  simp [answer, start, descendants_eq]

end SearchState

/-- The node at a place, which is the way down to it by the numbers of the parts. -/
def at? : Tree α → List Nat → Option (Tree α)
  | t, [] => some t
  | t, i :: place => t.parts[i]?.bind fun part => part.at? place

/-- The nodes of a list of trees with their places, where the first tree is part number `i`. -/
def placed : Nat → List (Tree α) → List (List Nat × Tree α)
  | _, [] => []
  | i, node a ts :: rest =>
    ([i], node a ts) :: ((placed 0 ts).map fun x => (i :: x.1, x.2)) ++ placed (i + 1) rest

theorem map_placed (i : Nat) (ts : List (Tree α)) : (placed i ts).map Prod.snd = preorder ts := by
  fun_induction placed i ts with
  | case1 => simp [preorder]
  | case2 i a ts rest ih ih' =>
    rw [preorder, ← ih, ← ih']
    simp

theorem mem_placed {i : Nat} {ts : List (Tree α)} {x : List Nat × Tree α} : x ∈ placed i ts ↔
    ∃ j part place, ts[j]? = some part ∧ part.at? place = some x.2 ∧ x.1 = (i + j) :: place := by
  fun_induction placed i ts generalizing x with
  | case1 => simp
  | case2 i a ts rest ih ih' =>
    rw [List.cons_append, List.mem_cons, List.mem_append, List.mem_map, ih']
    constructor
    · rintro (rfl | ⟨⟨place, n⟩, hx, rfl⟩ | ⟨j, part, place, hpart, hat, h⟩)
      · exact ⟨0, _, [], rfl, rfl, rfl⟩
      · obtain ⟨k, part, inner, hpart, hat, h⟩ := ih.mp hx
        dsimp only at hat h
        subst h
        exact ⟨0, _, _, rfl, by simpa [at?, parts, hpart] using hat, rfl⟩
      · exact ⟨j + 1, part, place, hpart, hat, by rw [h]; congr 1; omega⟩
    · obtain ⟨way, n⟩ := x
      rintro ⟨_ | j, part, place, hpart, hat, h⟩
      · cases hpart
        cases h
        cases place with
        | nil =>
          cases hat
          exact .inl rfl
        | cons k inner =>
          obtain ⟨part, hpart, hat⟩ := Option.bind_eq_some_iff.mp hat
          exact .inr (.inl ⟨(k :: inner, n), ih.mpr ⟨k, part, inner, hpart, hat, by simp⟩, rfl⟩)
      · exact .inr (.inr ⟨j, part, place, hpart, hat, by rw [h]; congr 1; omega⟩)

theorem mem_placed_parts {t n : Tree α} {place : List Nat} :
    (place, n) ∈ placed 0 t.parts ↔ place ≠ [] ∧ t.at? place = some n := by
  rw [mem_placed]
  cases place with
  | nil => simp
  | cons i place => simp [at?, Option.bind_eq_some_iff]

/-- A node stands before its parts, and all of it before what is behind it. -/
theorem pairwise_placed (i : Nat) (ts : List (Tree α)) :
    (placed i ts).Pairwise fun x y => x.1 < y.1 := by
  fun_induction placed i ts with
  | case1 => exact .nil
  | case2 i a ts rest ih ih' =>
    -- a part with a larger number decides, however far down the places go
    have hbehind : ∀ x ∈ placed (i + 1) rest, ∀ place, i :: place < x.1 := by
      intro x hx place
      obtain ⟨j, -, behind, -, -, h⟩ := mem_placed.mp hx
      rw [h, List.cons_lt_cons_iff]
      exact .inl (by omega)
    rw [List.cons_append, List.pairwise_cons, List.pairwise_append, List.pairwise_map]
    refine ⟨?_, ?_, ih', ?_⟩
    · intro x hx
      rcases List.mem_append.mp hx with hx | hx
      · obtain ⟨y, hy, rfl⟩ := List.mem_map.mp hx
        obtain ⟨j, -, inner, -, -, h⟩ := mem_placed.mp hy
        simp [h]
      · exact hbehind x hx []
    · exact ih.imp fun h => List.cons_lt_cons_self.mpr h
    · intro x hx y hy
      obtain ⟨z, -, rfl⟩ := List.mem_map.mp hx
      exact hbehind y hy z.1

/-- The trees lie between two places of the source one behind the other, and so do the parts of each
node between the places where the node starts and stops. -/
def LieIn (start stop : α → Nat) : Nat → Nat → List (Tree α) → Prop
  | lo, hi, [] => lo ≤ hi
  | lo, hi, node a ts :: rest =>
    lo ≤ start a ∧ LieIn start stop (start a) (stop a) ts ∧ LieIn start stop (stop a) hi rest

section Source

variable {start stop : α → Nat} {lo hi : Nat} {ts : List (Tree α)}

theorem LieIn.le (h : LieIn start stop lo hi ts) : lo ≤ hi := by
  fun_induction LieIn start stop lo hi ts with
  | case1 => exact h
  | case2 lo hi a ts rest ih ih' =>
    obtain ⟨hstart, hparts, hrest⟩ := h
    have hle := ih hparts
    have hle' := ih' hrest
    omega

theorem LieIn.bounds (h : LieIn start stop lo hi ts) :
    ∀ n ∈ preorder ts, lo ≤ start n.label ∧ start n.label ≤ hi := by
  fun_induction LieIn start stop lo hi ts with
  | case1 => simp [preorder]
  | case2 lo hi a ts rest ih ih' =>
    obtain ⟨hstart, hparts, hrest⟩ := h
    have hle := hparts.le
    have hle' := hrest.le
    intro n hn
    rw [preorder, List.mem_cons, List.mem_append] at hn
    rcases hn with rfl | hn | hn
    · rw [label]
      omega
    · have hbounds := ih hparts n hn
      omega
    · have hbounds := ih' hrest n hn
      omega

theorem LieIn.pairwise_start (h : LieIn start stop lo hi ts) :
    (preorder ts).Pairwise fun m n => start m.label ≤ start n.label := by
  fun_induction LieIn start stop lo hi ts with
  | case1 => simp [preorder]
  | case2 lo hi a ts rest ih ih' =>
    obtain ⟨-, hparts, hrest⟩ := h
    have hle := hparts.le
    rw [preorder, List.pairwise_cons, List.pairwise_append]
    refine ⟨?_, ih hparts, ih' hrest, ?_⟩
    · intro n hn
      rcases List.mem_append.mp hn with hn | hn
      · exact (hparts.bounds n hn).1
      · exact Nat.le_trans hle (hrest.bounds n hn).1
    · intro m hm n hn
      exact Nat.le_trans (hparts.bounds m hm).2 (hrest.bounds n hn).1

end Source

/-- The search finds the nodes below the root whose labels satisfy `p`, those inside of others as
well. It finds each of them once, in the order of the nodes, which is the order of their places in
the tree and of the places in the source where they start. It takes as many rounds as there are
nodes below the root. -/
theorem descendants_preorder (p : α → Bool) (t : Tree α) :
    (descendants p t = (preorder t.parts).filter fun n => p n.label) ∧
      (∃ places : List (List Nat), places.Pairwise (· < ·) ∧
        (∀ place, place ∈ places ↔
          place ≠ [] ∧ ∃ n, t.at? place = some n ∧ p n.label = true) ∧
        places.map t.at? = (descendants p t).map some) ∧
      (∀ n, (SearchState.after p n (.start t)).pending = [] ↔ (preorder t.parts).length ≤ n) ∧
      (∀ n, (preorder t.parts).length ≤ n →
        (SearchState.after p n (.start t)).found = descendants p t) ∧
      ∀ start stop : α → Nat, LieIn start stop (start t.label) (stop t.label) t.parts →
        (descendants p t).Pairwise fun m n => start m.label ≤ start n.label := by
  have hsizes : sizes (SearchState.start t).pending = (preorder t.parts).length :=
    (sizes_reverse t.parts).trans (length_preorder t.parts).symm
  refine ⟨descendants_eq p t, ?_, fun n => ?_, fun n hn => ?_, fun start stop h => ?_⟩
  · let found := (placed 0 t.parts).filter fun x => p x.2.label
    refine ⟨found.map Prod.fst, ?_, fun place => ?_, ?_⟩
    · exact List.pairwise_map.mpr ((pairwise_placed 0 t.parts).filter _)
    · simp [found, mem_placed_parts, and_assoc]
    · have hfound : found.map Prod.snd = descendants p t := by
        rw [descendants_eq, ← map_placed 0 t.parts, List.filter_map]
        rfl
      rw [← hfound, List.map_map, List.map_map]
      refine List.map_congr_left fun x hx => ?_
      exact (mem_placed_parts.mp (List.mem_of_mem_filter hx)).2
  · rw [SearchState.pending_after_eq_nil_iff, hsizes]
  · rw [SearchState.found_after (hsizes ▸ hn), SearchState.answer_start]
  · rw [descendants_eq]
    exact h.pairwise_start.filter _

/-- A class with another one inside, a function, and a third class. Each node says of what type it
is, and where it starts and stops. -/
def nestedClasses : Tree (String × Nat × Nat) :=
  .node ("program", 0, 40)
    [.node ("class", 0, 20) [.node ("body", 8, 20) [.node ("class", 10, 18) []]],
      .node ("function", 22, 30) [], .node ("class", 31, 40) []]

def isClass (l : String × Nat × Nat) : Bool := l.1 == "class"

/-- The class inside of the first one is found behind it, and the search takes five rounds. -/
theorem descendants_preorder_nestedClasses :
    (SearchState.after isClass 4 (.start nestedClasses)).pending ≠ [] ∧
      (SearchState.after isClass 5 (.start nestedClasses)).found.map label =
        [("class", 0, 20), ("class", 10, 18), ("class", 31, 40)] ∧
      LieIn (·.2.1) (·.2.2) 0 40 nestedClasses.parts ∧
      (descendants isClass nestedClasses).Pairwise fun m n => m.label.2.1 ≤ n.label.2.1 := by
  obtain ⟨hpreorder, -, hend, hfound, hsource⟩ := descendants_preorder isClass nestedClasses
  have hlength : (preorder nestedClasses.parts).length = 5 := by
    simp [nestedClasses, parts, preorder]
  have hlie : LieIn (·.2.1) (·.2.2) 0 40 nestedClasses.parts := by
    simp [nestedClasses, parts, LieIn]
  refine ⟨?_, ?_, hlie, hsource _ _ hlie⟩
  · rw [Ne, hend, hlength]
    decide
  · rw [hfound 5 (Nat.le_of_eq hlength), hpreorder]
    simp [nestedClasses, parts, preorder, isClass, label]

end Ripple.Outline.Tree
