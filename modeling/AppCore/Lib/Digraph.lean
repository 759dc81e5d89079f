/-
  AppCore.Lib.Digraph

  Graphs given by the list of successors of each node: the largest closed part of a set of
  nodes and how to reach it by taking nodes out one at a time, and the search along paths
  that finds out whether a node leads out of the known nodes or into a cycle.
-/

import Mathlib.Logic.Relation
import Mathlib.Data.Set.Basic
import Mathlib.Data.List.Perm.Subperm

namespace Digraph

variable {α : Type*} (next : α → List α)

/-- There is an edge from `a` to `b`. -/
def Edge (a b : α) : Prop := b ∈ next a

/-- `b` can be reached from `a` in any number of steps. -/
abbrev Reaches : α → α → Prop := Relation.ReflTransGen (Edge next)

/-- No edge leaves the set. -/
def Closed (S : Set α) : Prop := ∀ a ∈ S, ∀ b ∈ next a, b ∈ S

/-- The nodes of `S` from which one never leaves `S`. -/
def interior (S : Set α) : Set α := {a | ∀ b, Reaches next a b → b ∈ S}

/-- One node of `S`, with an edge that leaves `S`, is taken out. -/
inductive Shrink (S : Set α) : Set α → Prop
  | remove {a b : α} : a ∈ S → b ∈ next a → b ∉ S → Shrink S (S \ {a})

section Closed

variable {next} {S T : Set α} {a b : α}

theorem interior_subset : interior next S ⊆ S :=
  fun a ha => ha a Relation.ReflTransGen.refl

theorem closed_interior : Closed next (interior next S) :=
  fun _ ha _ hb c hc => ha c (hc.head hb)

/-- A closed set is not left on any path. -/
theorem Closed.reaches (h : Closed next T) (ha : a ∈ T) (hab : Reaches next a b) : b ∈ T := by
  induction hab with
  | refl => exact ha
  | tail _ hstep ih => exact h _ ih _ hstep

/-- The interior is the largest closed part. -/
theorem Closed.subset_interior (h : Closed next T) (hTS : T ⊆ S) : T ⊆ interior next S :=
  fun _ ha _ hab => hTS (h.reaches ha hab)

theorem Shrink.subset {S' : Set α} (h : Shrink next S S') : S' ⊆ S := by
  cases h with
  | remove => exact fun _ hc => hc.1

theorem subset_of_shrinks {S' : Set α} (h : Relation.ReflTransGen (Shrink next) S S') :
    S' ⊆ S := by
  induction h with
  | refl => exact subset_rfl
  | tail _ hstep ih => exact hstep.subset.trans ih

/-- A node that is taken out is in no closed part. -/
theorem Shrink.closed_subset {S' : Set α} (h : Shrink next S S') (hT : Closed next T)
    (hTS : T ⊆ S) : T ⊆ S' := by
  cases h with
  | @remove a b _ hb hnot =>
      intro c hc
      refine ⟨hTS hc, ?_⟩
      rintro rfl
      exact hnot (hTS (hT _ hc _ hb))

/-- Taking nodes out until the rest is closed ends with the interior, in whatever order it is
    done. -/
theorem eq_interior_of_shrinks {S' : Set α} (h : Relation.ReflTransGen (Shrink next) S S')
    (hclosed : Closed next S') : S' = interior next S := by
  have hlargest : ∀ T, Closed next T → T ⊆ S → T ⊆ S' := by
    clear hclosed
    induction h with
    | refl => exact fun _ _ hTS => hTS
    | tail _ hstep ih => exact fun T hT hTS => hstep.closed_subset hT (ih T hT hTS)
  apply subset_antisymm
  · exact hclosed.subset_interior (subset_of_shrinks h)
  · exact hlargest _ closed_interior interior_subset

end Closed

/-! ## The search along paths -/

/-- What a search stops at. -/
inductive Fault (α : Type*) where
  /-- The path has come back to a node it contains. -/
  | cycle (path : List α)
  /-- `a` has the successor `b`, which is not a node. -/
  | unknown (a b : α)
deriving DecidableEq, Repr

/-- The result of a search that has not run out of fuel: a fault, or the nodes visited. -/
abbrev Result (α : Type*) := Option (Except (Fault α) (List α))

/-- Go on when there was no fault. -/
def Result.andThen {α : Type*} (r : Result α) (f : List α → Result α) : Result α :=
  match r with
  | some (.ok visited) => f visited
  | some (.error fault) => some (.error fault)
  | none => none

/-- Search on for each node of a list, until a search stops. -/
def searchEach (search : α → List α → Result α) : List α → List α → Result α
  | [], visited => some (.ok visited)
  | a :: rest, visited => Result.andThen (search a visited) (searchEach search rest)

section Search

variable [DecidableEq α] (nodes : List α)

/-- Search from `a`, reached by `path`.  With `memo`, a visited node is not searched again. -/
def search (memo : Bool) : Nat → List α → α → List α → Result α
  | 0, _, _, _ => none
  | fuel + 1, path, a, visited =>
    if a ∈ path then some (.error (.cycle (path ++ [a])))
    else if memo = true ∧ a ∈ visited then some (.ok visited)
    else
      Result.andThen
        (searchEach (fun b visited =>
          if b ∈ nodes then search memo fuel (path ++ [a]) b visited
          else some (.error (.unknown a b))) (next a) visited)
        fun visited => some (.ok (visited ++ [a]))

/-- Search from every node. -/
def searchAll (memo : Bool) (fuel : Nat) : Result α :=
  searchEach (search next nodes memo fuel []) nodes []

end Search

/-! ## What a search finds -/

/-- From `a` only nodes are reached, and none of them is on a cycle. -/
def Sound (nodes : List α) (a : α) : Prop :=
  ∀ b, Reaches next a b → (∀ c ∈ next b, c ∈ nodes) ∧ ¬ Relation.TransGen (Edge next) b b

/-- What a result says: a search of something good visits sound nodes only, and there is a fault
    where it is not good. -/
def Verdict (nodes : List α) (good : Prop) : Result α → Prop
  | some (.ok visited) => good ∧ ∀ v ∈ visited, Sound next nodes v
  | some (.error _) => ¬ good
  | none => True

section Verdict

variable {next} {nodes : List α} {a b : α}

theorem Sound.edge (h : Sound next nodes a) (hb : b ∈ next a) : Sound next nodes b :=
  fun c hc => h c (hc.head hb)

/-- A node is sound when its successors are sound nodes. -/
theorem Sound.of_next (h : ∀ b ∈ next a, b ∈ nodes ∧ Sound next nodes b) :
    Sound next nodes a := by
  intro c hc
  rcases hc.cases_head with rfl | ⟨b, hb, hbc⟩
  · refine ⟨fun b hb => (h b hb).1, fun hcycle => ?_⟩
    -- a cycle through `a` goes on through one of its successors
    obtain ⟨b, hb, hba⟩ := Relation.TransGen.head'_iff.mp hcycle
    exact ((h b hb).2 b Relation.ReflTransGen.refl).2 (Relation.TransGen.tail' hba hb)
  · exact (h b hb).2 c hbc

/-- All nodes are sound exactly when every successor is a node and there is no cycle. -/
theorem forall_sound_iff :
    (∀ a ∈ nodes, Sound next nodes a) ↔
      (∀ a ∈ nodes, ∀ b ∈ next a, b ∈ nodes) ∧
        ∀ a ∈ nodes, ¬ Relation.TransGen (Edge next) a a := by
  constructor
  · intro h
    exact ⟨fun a ha => (h a ha a Relation.ReflTransGen.refl).1,
      fun a ha => (h a ha a Relation.ReflTransGen.refl).2⟩
  · rintro ⟨hknown, hacyclic⟩ a ha b hb
    have hclosed : Closed next {a | a ∈ nodes} := hknown
    have hmem : b ∈ nodes := hclosed.reaches ha hb
    exact ⟨hknown b hmem, hacyclic b hmem⟩

theorem Verdict.congr {good good' : Prop} {r : Result α} (h : Verdict next nodes good r)
    (hgood : good ↔ good') : Verdict next nodes good' r := by
  rwa [← propext hgood]

/-- One search after another. -/
theorem Verdict.andThen {good good' : Prop} {r : Result α} {f : List α → Result α}
    (h : Verdict next nodes good r)
    (hf : good → ∀ visited, (∀ v ∈ visited, Sound next nodes v) →
      Verdict next nodes good' (f visited)) :
    Verdict next nodes (good ∧ good') (r.andThen f) := by
  unfold Result.andThen
  split
  · -- the first search was good, so the second one decides
    obtain ⟨hgood, hvisited⟩ := h
    exact (hf hgood _ hvisited).congr ⟨fun h' => ⟨hgood, h'⟩, And.right⟩
  · exact fun hand => h hand.1
  · trivial

theorem searchEach_verdict {search : α → List α → Result α} {P : α → Prop} {l : List α}
    {visited : List α} (hvisited : ∀ v ∈ visited, Sound next nodes v)
    (h : ∀ b ∈ l, ∀ visited, (∀ v ∈ visited, Sound next nodes v) →
      Verdict next nodes (P b) (search b visited)) :
    Verdict next nodes (∀ b ∈ l, P b) (searchEach search l visited) := by
  induction l generalizing visited with
  | nil => exact ⟨fun b hb => (List.not_mem_nil hb).elim, hvisited⟩
  | cons b rest ih =>
      have hfirst := h b List.mem_cons_self visited hvisited
      have hboth := hfirst.andThen (f := searchEach search rest) fun _ visited' hvisited' =>
        ih hvisited' fun c hc => h c (List.mem_cons_of_mem _ hc)
      exact hboth.congr List.forall_mem_cons.symm

variable [DecidableEq α] {memo : Bool} {fuel : Nat} {path visited : List α}

/-- A search that ends finds a fault exactly when its node is not sound. -/
theorem search_verdict (hpath : ∀ p ∈ path, Relation.TransGen (Edge next) p a)
    (hvisited : ∀ v ∈ visited, Sound next nodes v) :
    Verdict next nodes (Sound next nodes a) (search next nodes memo fuel path a visited) := by
  induction fuel generalizing a path visited with
  | zero => trivial
  | succ fuel ih =>
      unfold search
      by_cases hmem : a ∈ path
      · rw [if_pos hmem]
        exact fun hsound => (hsound a Relation.ReflTransGen.refl).2 (hpath a hmem)
      rw [if_neg hmem]
      by_cases hseen : memo = true ∧ a ∈ visited
      · rw [if_pos hseen]
        exact ⟨hvisited a hseen.2, hvisited⟩
      rw [if_neg hseen]
      -- the path to a successor goes through `a`
      have hpath' : ∀ b ∈ next a, ∀ p ∈ path ++ [a], Relation.TransGen (Edge next) p b := by
        intro b hb p hp
        rcases List.mem_append.mp hp with hp | hp
        · exact (hpath p hp).tail hb
        · obtain rfl := List.mem_singleton.mp hp
          exact Relation.TransGen.single hb
      have heach : Verdict next nodes (∀ b ∈ next a, b ∈ nodes ∧ Sound next nodes b)
          (searchEach (fun b visited => if b ∈ nodes then
            search next nodes memo fuel (path ++ [a]) b visited
            else some (.error (.unknown a b))) (next a) visited) := by
        refine searchEach_verdict hvisited fun b hb visited hvis => ?_
        by_cases hknown : b ∈ nodes
        · rw [if_pos hknown]
          exact (ih (hpath' b hb) hvis).congr ⟨fun h => ⟨hknown, h⟩, And.right⟩
        · rw [if_neg hknown]
          exact fun h => hknown h.1
      have hsound : (∀ b ∈ next a, b ∈ nodes ∧ Sound next nodes b) ↔ Sound next nodes a := by
        refine ⟨Sound.of_next, fun h b hb => ⟨?_, h.edge hb⟩⟩
        exact (h a Relation.ReflTransGen.refl).1 b hb
      have hall := heach.congr hsound
      unfold Result.andThen
      cases hr : searchEach (fun b visited => if b ∈ nodes then
          search next nodes memo fuel (path ++ [a]) b visited
          else some (.error (.unknown a b))) (next a) visited with
      | none => trivial
      | some r =>
          rw [hr] at hall
          cases r with
          | error fault => exact hall
          | ok visited' =>
              refine ⟨hall.1, fun v hv => ?_⟩
              rcases List.mem_append.mp hv with hv | hv
              · exact hall.2 v hv
              · obtain rfl := List.mem_singleton.mp hv
                exact hall.1

/-! ## A search ends -/

omit [DecidableEq α] in
theorem Result.andThen_ne_none {r : Result α} {f : List α → Result α} (h : r ≠ none)
    (hf : ∀ visited, f visited ≠ none) : r.andThen f ≠ none := by
  unfold Result.andThen
  split
  · exact hf _
  · exact Option.some_ne_none _
  · exact absurd rfl h

omit [DecidableEq α] in
theorem searchEach_ne_none {search : α → List α → Result α} {l : List α}
    (h : ∀ b ∈ l, ∀ visited, search b visited ≠ none) (visited : List α) :
    searchEach search l visited ≠ none := by
  induction l generalizing visited with
  | nil => exact Option.some_ne_none _
  | cons b rest ih =>
      apply Result.andThen_ne_none
      · exact h b List.mem_cons_self visited
      · exact ih fun c hc => h c (List.mem_cons_of_mem _ hc)

/-- A path of different nodes cannot go on for ever: with a step of fuel for each node that is
    not on it yet, and one more, the search ends, on every graph. -/
theorem search_ne_none (hnd : path.Nodup) (hsub : path ⊆ nodes) (ha : a ∈ nodes)
    (hfuel : nodes.length < fuel + path.length) :
    search next nodes memo fuel path a visited ≠ none := by
  induction fuel generalizing a path visited with
  | zero =>
      have hle := (hnd.subperm hsub).length_le
      omega
  | succ fuel ih =>
      unfold search
      by_cases hmem : a ∈ path
      · rw [if_pos hmem]
        exact Option.some_ne_none _
      rw [if_neg hmem]
      split
      · exact Option.some_ne_none _
      have hnd' : (path ++ [a]).Nodup := by
        refine List.nodup_append.mpr ⟨hnd, List.pairwise_singleton _ a, fun p hp q hq => ?_⟩
        rintro rfl
        exact hmem (List.mem_singleton.mp hq ▸ hp)
      have hsub' : path ++ [a] ⊆ nodes := by
        intro p hp
        rcases List.mem_append.mp hp with hp | hp
        · exact hsub hp
        · exact List.mem_singleton.mp hp ▸ ha
      apply Result.andThen_ne_none
      · refine searchEach_ne_none (fun b _ visited => ?_) visited
        split
        · rename_i hb
          refine ih hnd' hsub' hb ?_
          rw [List.length_append, List.length_singleton]
          omega
        · exact Option.some_ne_none _
      · exact fun _ => Option.some_ne_none _

/-- Searching from every node ends, and finds a fault exactly when some node is not sound. -/
theorem searchAll_spec (next : α → List α) (memo : Bool) (hfuel : nodes.length < fuel) :
    ∃ r, searchAll next nodes memo fuel = some r ∧
      ((∃ visited, r = .ok visited) ↔ ∀ a ∈ nodes, Sound next nodes a) := by
  have hsome : searchAll next nodes memo fuel ≠ none := by
    refine searchEach_ne_none (fun a ha visited => ?_) []
    exact search_ne_none List.nodup_nil (List.nil_subset nodes) ha (by simpa using hfuel)
  have hverdict : Verdict next nodes (∀ a ∈ nodes, Sound next nodes a)
      (searchAll next nodes memo fuel) := by
    refine searchEach_verdict (fun v hv => (List.not_mem_nil hv).elim) fun a _ visited hvis => ?_
    exact search_verdict (fun p hp => (List.not_mem_nil hp).elim) hvis
  obtain ⟨r, hr⟩ := Option.ne_none_iff_exists'.mp hsome
  rw [hr] at hverdict
  refine ⟨r, hr, ?_⟩
  cases r with
  | ok visited => exact ⟨fun _ => hverdict.1, fun _ => ⟨visited, rfl⟩⟩
  | error fault =>
      refine ⟨?_, fun h => absurd h hverdict⟩
      rintro ⟨visited, h⟩
      cases h

end Verdict

end Digraph
