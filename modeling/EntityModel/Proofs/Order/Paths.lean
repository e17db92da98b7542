import Mathlib.Data.Fintype.Card
import Mathlib.Data.Set.Finite.List
import Mathlib.Logic.Relation
import Mathlib.Order.Lattice.Nat

/-!
# Paths along dependencies

What an ordering is about, said without rounds. `DependsOn` is an edge whose source is a node,
`Blocked` says of a node that a cycle or a name that is no node can be reached from it, and `level`
is the length of the longest path from a node. Every node of a list each of whose nodes has a target
in the list is blocked (`blocked_of_stalled`), since such a list holds a cycle.
-/

namespace EntityModel

open Relation

section
variable {targets : String → List String} {nodes : List String}

/-- An edge that an ordering follows: its source is one of the nodes. -/
def DependsOn (targets : String → List String) (nodes : List String) (source target : String) :
    Prop :=
  source ∈ nodes ∧ target ∈ targets source

/-- From the node a cycle can be reached, or a name that is no node. -/
def Blocked (targets : String → List String) (nodes : List String) (node : String) : Prop :=
  ∃ n, ReflTransGen (DependsOn targets nodes) node n ∧
    (TransGen (DependsOn targets nodes) n n ∨ n ∉ nodes)

/-- The lengths of the paths that start at a node. -/
def pathLengths (targets : String → List String) (nodes : List String) (node : String) : Set Nat :=
  {k | ∃ path : List String, path.length = k ∧
    List.IsChain (DependsOn targets nodes) (node :: path)}

/-- The length of the longest path that starts at a node, if there is one. -/
noncomputable def level (targets : String → List String) (nodes : List String) (node : String) :
    Nat :=
  sSup (pathLengths targets nodes node)

/-! ## Blocked nodes -/

/-- A name that is no node is blocked. -/
theorem Blocked.of_notMem {n : String} (h : n ∉ nodes) : Blocked targets nodes n :=
  ⟨n, .refl, .inr h⟩

/-- What depends on something blocked is blocked. -/
theorem DependsOn.blocked {n t : String} (h : DependsOn targets nodes n t)
    (ht : Blocked targets nodes t) : Blocked targets nodes n := by
  obtain ⟨m, hm, hend⟩ := ht
  exact ⟨m, .head h hm, hend⟩

/-- A blocked node has a blocked target: the way to a cycle, or around it, starts with an edge. -/
theorem Blocked.exists_target {n : String} (h : Blocked targets nodes n) (hn : n ∈ nodes) :
    ∃ t, DependsOn targets nodes n t ∧ Blocked targets nodes t := by
  obtain ⟨m, hm, hend⟩ := h
  rcases hm.cases_head with rfl | ⟨t, hnt, htm⟩
  · rcases hend with hcycle | hout
    · obtain ⟨t, hnt, htn⟩ := TransGen.head'_iff.1 hcycle
      exact ⟨t, hnt, n, htn, .inl hcycle⟩
    · exact absurd hn hout
  · exact ⟨t, hnt, m, htm, hend⟩

/-- Whether a node is blocked depends on the sets of nodes and of targets, and on no order. -/
theorem blocked_congr {targets' : String → List String} {nodes' : List String}
    (hnodes : ∀ n, n ∈ nodes ↔ n ∈ nodes')
    (htargets : ∀ n t, t ∈ targets n ↔ t ∈ targets' n) (n : String) :
    Blocked targets nodes n ↔ Blocked targets' nodes' n := by
  have hdepends : DependsOn targets nodes = DependsOn targets' nodes' :=
    funext fun s => funext fun t => propext (and_congr (hnodes s) (htargets s t))
  simp only [Blocked, hdepends, hnodes]

/-- A name of a list that is not blocked. -/
def FreeIn (targets : String → List String) (nodes left : List String) : Type :=
  {n : String // n ∈ left ∧ ¬ Blocked targets nodes n}

/-- Going along edges among the free names of a list comes to an end: they are finitely many, and
lie on no cycle. -/
theorem FreeIn.wellFounded (left : List String) :
    WellFounded fun a b : FreeIn targets nodes left =>
      TransGen (DependsOn targets nodes) b.1 a.1 := by
  have : Finite (FreeIn targets nodes left) :=
    (left.finite_toSet.subset fun n (hn : n ∈ left ∧ _) => hn.1).to_subtype
  have : IsTrans (FreeIn targets nodes left) fun a b =>
      TransGen (DependsOn targets nodes) b.1 a.1 := ⟨fun _ _ _ hab hbc => hbc.trans hab⟩
  have : Std.Irrefl fun a b : FreeIn targets nodes left =>
      TransGen (DependsOn targets nodes) b.1 a.1 := ⟨fun a ha => a.2.2 ⟨a.1, .refl, .inl ha⟩⟩
  exact Finite.wellFounded_of_trans_of_irrefl _

/-- A list of nodes each of which has a target in the list, or one that is blocked, holds blocked
nodes only. -/
theorem blocked_of_stalled {left : List String}
    (h : ∀ n ∈ left, ∃ t, DependsOn targets nodes n t ∧ (t ∈ left ∨ Blocked targets nodes t)) :
    ∀ n ∈ left, Blocked targets nodes n := by
  by_contra hfree
  push Not at hfree
  obtain ⟨n₀, hn₀, hb₀⟩ := hfree
  -- A free name at the end of a way has a target too, which is free, so that the way goes on.
  obtain ⟨⟨n, hn, hb⟩, -, hmin⟩ :=
    (FreeIn.wellFounded left).has_min Set.univ ⟨⟨n₀, hn₀, hb₀⟩, trivial⟩
  obtain ⟨t, hnt, ht⟩ := h n hn
  have htb : ¬ Blocked targets nodes t := fun htb => hb (hnt.blocked htb)
  exact hmin ⟨t, ht.resolve_right htb, htb⟩ trivial (.single hnt)

/-! ## Levels -/

/-- The empty path starts everywhere. -/
theorem zero_mem_pathLengths (n : String) : 0 ∈ pathLengths targets nodes n :=
  ⟨[], rfl, .singleton n⟩

/-- A path that is not empty is an edge and a path from its target. -/
theorem succ_mem_pathLengths {n : String} {k : Nat} :
    k + 1 ∈ pathLengths targets nodes n ↔
      ∃ t, DependsOn targets nodes n t ∧ k ∈ pathLengths targets nodes t := by
  constructor
  · rintro ⟨path, hlen, hchain⟩
    obtain ⟨t, path, rfl⟩ := List.exists_cons_of_length_eq_add_one hlen
    rw [List.isChain_cons_cons] at hchain
    exact ⟨t, hchain.1, path, Nat.succ.inj hlen, hchain.2⟩
  · rintro ⟨t, hnt, path, rfl, hchain⟩
    exact ⟨t :: path, rfl, hchain.cons_cons hnt⟩

/-- A longest path has the length that the level gives. -/
theorem level_eq {n : String} {k : Nat} (h : IsGreatest (pathLengths targets nodes n) k) :
    level targets nodes n = k :=
  h.csSup_eq

/-- A target of a node of which the longest path is known has a smaller level. -/
theorem DependsOn.level_lt {n t : String} (h : DependsOn targets nodes n t)
    (hn : IsGreatest (pathLengths targets nodes n) (level targets nodes n))
    (ht : IsGreatest (pathLengths targets nodes t) (level targets nodes t)) :
    level targets nodes t < level targets nodes n :=
  hn.2 (succ_mem_pathLengths.2 ⟨t, h, ht.1⟩)

/-- A path is longest if no target starts one that is as long. -/
theorem isGreatest_pathLengths {n : String} {k : Nat} (hk : k ∈ pathLengths targets nodes n)
    (h : ∀ t, DependsOn targets nodes n t → ∀ l ∈ pathLengths targets nodes t, l < k) :
    IsGreatest (pathLengths targets nodes n) k := by
  refine ⟨hk, fun l hl => ?_⟩
  cases l with
  | zero => exact Nat.zero_le k
  | succ l =>
    obtain ⟨t, hnt, ht⟩ := succ_mem_pathLengths.1 hl
    exact h t hnt l ht

end

end EntityModel
