import EntityModel.Order.Rounds
import EntityModel.Proofs.Order.Paths

/-!
# What the rounds of an ordering keep

`AfterRounds` holds before every round of `Placement.run`: what was placed is closed under targets
and stands in the stable order by level (`Before`), all of it on levels below the number of the
round, and what is left starts a path of that many edges unless it is blocked. A round keeps it
(`AfterRounds.step`), hence so does the whole ordering (`AfterRounds.run`), and where a round places
nothing, what is left is blocked (`AfterRounds.blocked_of_stuck`).
-/

namespace EntityModel

section
variable {targets : String → List String} {nodes placed left : List String} {r : Nat}

/-! ## First occurrences -/

/-- Without the repeated ones, the names of a list stand in the order of their first places. -/
theorem pairwise_idxOf_eraseDups (names : List String) :
    names.eraseDups.Pairwise fun a b => names.idxOf a < names.idxOf b := by
  induction names using List.reverseRecOn with
  | nil => exact .nil
  | append_singleton names n ih =>
    have hold : ∀ a ∈ names.eraseDups, (names ++ [n]).idxOf a = names.idxOf a := fun a ha =>
      List.idxOf_append_of_mem (List.mem_eraseDups.1 ha)
    have hih : names.eraseDups.Pairwise fun a b =>
        (names ++ [n]).idxOf a < (names ++ [n]).idxOf b :=
      ih.imp_of_mem fun ha hb hab => by rwa [hold _ ha, hold _ hb]
    rw [List.eraseDups_append]
    by_cases hn : n ∈ names
    · have hnone : [n].removeAll names = [] := by simp [List.removeAll, hn]
      rw [hnone, List.eraseDups_nil, List.append_nil]
      exact hih
    · have hone : [n].removeAll names = [n] := by simp [List.removeAll, hn]
      rw [hone, List.pairwise_append]
      refine ⟨hih, List.pairwise_singleton _ _, fun a ha b hb => ?_⟩
      obtain rfl : b = n := by simpa [List.eraseDups_cons] using hb
      have hlt : names.idxOf a < names.length :=
        List.idxOf_lt_length_of_mem (List.mem_eraseDups.1 ha)
      rw [hold a ha, List.idxOf_append_of_notMem hn]
      exact Nat.lt_of_lt_of_le hlt (Nat.le_add_right ..)

/-- Without the repeated ones, the names of a list are distinct. -/
theorem nodup_eraseDups (names : List String) : names.eraseDups.Nodup :=
  (pairwise_idxOf_eraseDups names).imp fun hlt heq => Nat.ne_of_lt hlt (congrArg names.idxOf heq)

/-! ## One round -/

namespace Placement

/-- A round places the nodes that are left and have all their targets placed. -/
theorem mem_ready {n : String} :
    n ∈ ready targets placed left ↔ n ∈ left ∧ ∀ t ∈ targets n, t ∈ placed := by
  simp [ready, isReady]

/-- A round leaves the nodes that have a target which is not placed. -/
theorem mem_waiting {n : String} :
    n ∈ waiting targets placed left ↔ n ∈ left ∧ ∃ t ∈ targets n, t ∉ placed := by
  simp [waiting, isReady]

end Placement

/-- The stable order by level: a smaller level, or the same level and an earlier first place among
the nodes. -/
def Before (targets : String → List String) (nodes : List String) (a b : String) : Prop :=
  level targets nodes a < level targets nodes b ∨
    level targets nodes a = level targets nodes b ∧ nodes.idxOf a < nodes.idxOf b

/-- A node does not stand before itself. -/
theorem Before.irrefl (n : String) : ¬ Before targets nodes n n := by
  rintro (h | ⟨-, h⟩) <;> exact Nat.lt_irrefl _ h

/-- What holds after a number of rounds of an ordering. -/
structure AfterRounds (targets : String → List String) (nodes : List String) (r : Nat)
    (placed left : List String) : Prop where
  left_eq : left = nodes.eraseDups.filter fun n => !placed.contains n
  mem_nodes : ∀ n ∈ placed, n ∈ nodes
  closed : ∀ n ∈ placed, ∀ t ∈ targets n, t ∈ placed
  free : ∀ n ∈ placed, ¬ Blocked targets nodes n
  longest : ∀ n ∈ placed, IsGreatest (pathLengths targets nodes n) (level targets nodes n)
  level_lt : ∀ n ∈ placed, level targets nodes n < r
  long : ∀ n ∈ left, Blocked targets nodes n ∨ r ∈ pathLengths targets nodes n
  sorted : placed.Pairwise (Before targets nodes)

namespace AfterRounds

/-- Before the first round nothing is placed. -/
theorem start : AfterRounds targets nodes 0 [] nodes.eraseDups where
  left_eq := by simp
  mem_nodes := by simp
  closed := by simp
  free := by simp
  longest := by simp
  level_lt := by simp
  long n _ := .inr (zero_mem_pathLengths n)
  sorted := .nil

/-- What is left are the nodes that are not placed. -/
theorem mem_left (h : AfterRounds targets nodes r placed left) {n : String} :
    n ∈ left ↔ n ∈ nodes ∧ n ∉ placed := by
  rw [h.left_eq]
  simp

/-- A node that a round places is not blocked, since its targets are not. -/
theorem free_of_ready (h : AfterRounds targets nodes r placed left) {n : String}
    (hn : n ∈ Placement.ready targets placed left) : ¬ Blocked targets nodes n := by
  obtain ⟨hleft, hready⟩ := Placement.mem_ready.1 hn
  intro hb
  obtain ⟨t, hnt, ht⟩ := hb.exists_target (h.mem_left.1 hleft).1
  exact h.free t (hready t hnt.2) ht

/-- The longest path from a node that a round places has as many edges as rounds came before: there
is one, and its targets are on levels below. -/
theorem longest_of_ready (h : AfterRounds targets nodes r placed left) {n : String}
    (hn : n ∈ Placement.ready targets placed left) :
    IsGreatest (pathLengths targets nodes n) r := by
  obtain ⟨hleft, hready⟩ := Placement.mem_ready.1 hn
  refine isGreatest_pathLengths ((h.long n hleft).resolve_left (h.free_of_ready hn)) ?_
  intro t hnt l hl
  have ht := hready t hnt.2
  exact Nat.lt_of_le_of_lt ((h.longest t ht).2 hl) (h.level_lt t ht)

/-- A node that a round does not place starts a path with an edge more, unless it is blocked. -/
theorem long_of_waiting (h : AfterRounds targets nodes r placed left) {n : String}
    (hn : n ∈ Placement.waiting targets placed left) :
    Blocked targets nodes n ∨ r + 1 ∈ pathLengths targets nodes n := by
  obtain ⟨hleft, t, htn, ht⟩ := Placement.mem_waiting.1 hn
  have hnt : DependsOn targets nodes n t := ⟨(h.mem_left.1 hleft).1, htn⟩
  by_cases hnode : t ∈ nodes
  · rcases h.long t (h.mem_left.2 ⟨hnode, ht⟩) with hb | hl
    · exact .inl (hnt.blocked hb)
    · exact .inr (succ_mem_pathLengths.2 ⟨t, hnt, hl⟩)
  · exact .inl (hnt.blocked (.of_notMem hnode))

/-- The nodes that a round places are on one level, in the order of the nodes. -/
theorem pairwise_ready (h : AfterRounds targets nodes r placed left) :
    (Placement.ready targets placed left).Pairwise (Before targets nodes) := by
  have hsub : (Placement.ready targets placed left).Sublist nodes.eraseDups := by
    refine List.filter_sublist.trans ?_
    rw [h.left_eq]
    exact List.filter_sublist
  refine ((pairwise_idxOf_eraseDups nodes).sublist hsub).imp_of_mem fun ha hb hab => .inr ⟨?_, hab⟩
  rw [level_eq (h.longest_of_ready ha), level_eq (h.longest_of_ready hb)]

/-- A round keeps what holds before it. -/
theorem step (h : AfterRounds targets nodes r placed left) :
    AfterRounds targets nodes (r + 1) (placed ++ Placement.ready targets placed left)
      (Placement.waiting targets placed left) where
  left_eq := by
    rw [Placement.waiting, h.left_eq, List.filter_filter]
    refine List.filter_congr fun n hn => ?_
    rw [Bool.eq_iff_iff]
    simp [Placement.mem_ready, Placement.isReady, List.mem_eraseDups.1 hn]
    tauto
  mem_nodes n hn := by
    rcases List.mem_append.1 hn with hn | hn
    · exact h.mem_nodes n hn
    · exact (h.mem_left.1 (Placement.mem_ready.1 hn).1).1
  closed n hn t ht := by
    rcases List.mem_append.1 hn with hn | hn
    · exact List.mem_append_left _ (h.closed n hn t ht)
    · exact List.mem_append_left _ ((Placement.mem_ready.1 hn).2 t ht)
  free n hn := by
    rcases List.mem_append.1 hn with hn | hn
    · exact h.free n hn
    · exact h.free_of_ready hn
  longest n hn := by
    rcases List.mem_append.1 hn with hn | hn
    · exact h.longest n hn
    · rw [level_eq (h.longest_of_ready hn)]
      exact h.longest_of_ready hn
  level_lt n hn := by
    rcases List.mem_append.1 hn with hn | hn
    · exact Nat.lt_succ_of_lt (h.level_lt n hn)
    · rw [level_eq (h.longest_of_ready hn)]
      exact Nat.lt_succ_self r
  long n hn := h.long_of_waiting hn
  sorted := by
    refine List.pairwise_append.2 ⟨h.sorted, h.pairwise_ready, fun a ha b hb => .inl ?_⟩
    rw [level_eq (h.longest_of_ready hb)]
    exact h.level_lt a ha

/-! ## All rounds -/

/-- What is left by a round that places nothing is blocked. -/
theorem blocked_of_stuck (h : AfterRounds targets nodes r placed left)
    (hstuck : Placement.ready targets placed left = []) :
    ∀ n ∈ left, Blocked targets nodes n := by
  refine blocked_of_stalled fun n hn => ?_
  have hnot : n ∉ Placement.ready targets placed left := by simp [hstuck]
  have hwait : ∃ t ∈ targets n, t ∉ placed := by
    simpa [Placement.mem_ready, hn] using hnot
  obtain ⟨t, htn, ht⟩ := hwait
  refine ⟨t, ⟨(h.mem_left.1 hn).1, htn⟩, ?_⟩
  by_cases hnode : t ∈ nodes
  · exact .inl (h.mem_left.2 ⟨hnode, ht⟩)
  · exact .inr (.of_notMem hnode)

/-- The ordering keeps what its rounds keep, and what it leaves is blocked. -/
theorem run (h : AfterRounds targets nodes r placed left) :
    ∃ r', AfterRounds targets nodes r' (Placement.run targets placed left).placed
        (Placement.run targets placed left).left ∧
      ∀ n ∈ (Placement.run targets placed left).left, Blocked targets nodes n := by
  fun_induction Placement.run targets placed left generalizing r with
  | case1 placed left hstuck => exact ⟨r, h, h.blocked_of_stuck hstuck⟩
  | case2 placed left _ ih => exact ih h.step

end AfterRounds

end

end EntityModel
