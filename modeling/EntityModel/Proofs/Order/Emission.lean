import EntityModel.Proofs.Order.Rounds

/-!
# The emission order

What `emissionOrder` answers, for every list of nodes and every map of edges. It places exactly the
nodes that are not blocked, and only the targets of nodes matter to it
(`emissionOrder_stops_at_blocked`); what it places stands in the stable order by level, so that a
target comes before its source (`emissionOrder_stable_by_level`).
-/

namespace EntityModel

section
variable {targets targets' : String → List String} {nodes placed left : List String}

/-! ## Orderings with the same targets -/

/-- A node is ready by the set of its targets. -/
theorem Placement.isReady_congr {n : String} (h : ∀ t, t ∈ targets n ↔ t ∈ targets' n) :
    isReady targets placed n = isReady targets' placed n := by
  rw [Bool.eq_iff_iff]
  simp [isReady, h]

/-- An ordering depends on the sets of targets of the nodes that are left, and on no other edge. -/
theorem Placement.run_congr (h : ∀ n ∈ left, ∀ t, t ∈ targets n ↔ t ∈ targets' n) :
    run targets placed left = run targets' placed left := by
  have hready : ∀ placed left, (∀ n ∈ left, ∀ t, t ∈ targets n ↔ t ∈ targets' n) →
      ready targets placed left = ready targets' placed left := fun placed _ h =>
    List.filter_congr fun n hn => isReady_congr (h n hn)
  have hwaiting : ∀ placed left, (∀ n ∈ left, ∀ t, t ∈ targets n ↔ t ∈ targets' n) →
      waiting targets placed left = waiting targets' placed left := fun placed _ h =>
    List.filter_congr fun n hn => by rw [isReady_congr (h n hn)]
  fun_induction run targets placed left with
  | case1 placed left hstuck =>
    rw [run, if_pos (hready placed left h ▸ hstuck)]
  | case2 placed left hmoves ih =>
    have hrest : ∀ n ∈ waiting targets placed left, ∀ t, t ∈ targets n ↔ t ∈ targets' n :=
      fun n hn => h n (mem_waiting.1 hn).1
    rw [ih hrest]
    conv => rhs; rw [run, ← hready placed left h, ← hwaiting placed left h, if_neg hmoves]

/-- An ordering places each node behind its targets: when a round places it, they are there. -/
theorem Placement.sublist_run (h : ∀ s ∈ placed, ∀ t ∈ targets s, [t, s].Sublist placed) :
    ∀ s ∈ (run targets placed left).placed, ∀ t ∈ targets s,
      [t, s].Sublist (run targets placed left).placed := by
  fun_induction run targets placed left with
  | case1 placed left _ => exact h
  | case2 placed left _ ih =>
    refine ih fun s hs t ht => ?_
    rcases List.mem_append.1 hs with hs | hs
    · exact (h s hs t ht).trans (List.sublist_append_left ..)
    · have hplaced : [t].Sublist placed := List.singleton_sublist.2 ((mem_ready.1 hs).2 t ht)
      have hready : [s].Sublist (ready targets placed left) := List.singleton_sublist.2 hs
      exact hplaced.append hready

/-! ## The answer of an ordering -/

/-- The names that an answer has placed: all of them, or those placed until it got stuck. -/
def placedNames : Except CycleDetected (List String) → List String
  | .ok order => order
  | .error c => c.resolved

/-- An answer has placed what the rounds have placed. -/
@[simp] theorem placedNames_order? (p : Placement) : placedNames p.order? = p.placed := by
  unfold Placement.order?
  split <;> rfl

/-- There is an order where nothing is left. -/
theorem Placement.order?_eq_ok_iff (p : Placement) :
    (∃ order, p.order? = .ok order) ↔ p.left = [] := by
  unfold Placement.order?
  split <;> simp_all

/-- A failed ordering tells what was placed and what is left. -/
theorem Placement.of_order?_eq_error {p : Placement} {c : CycleDetected}
    (h : p.order? = .error c) : c = ⟨p.placed, p.left⟩ := by
  unfold Placement.order? at h
  split at h
  · cases h
  · exact (Except.error.inj h).symm

end

section
variable (nodes : List String) (edges : OrderedMap String (List String))

/-- What holds after the last round of the ordering of a list of nodes. -/
theorem afterRounds_emissionOrder :
    let p := Placement.run (targetsIn edges) [] nodes.eraseDups
    (∃ r, AfterRounds (targetsIn edges) nodes r p.placed p.left) ∧
      ∀ n ∈ p.left, Blocked (targetsIn edges) nodes n := by
  have hstart : AfterRounds (targetsIn edges) nodes 0 [] nodes.eraseDups := .start
  obtain ⟨r, hr, hleft⟩ := hstart.run
  exact ⟨⟨r, hr⟩, hleft⟩

/-- An ordering places the nodes that are not blocked. -/
theorem mem_placedNames_emissionOrder (n : String) :
    n ∈ placedNames (emissionOrder nodes edges) ↔
      n ∈ nodes ∧ ¬ Blocked (targetsIn edges) nodes n := by
  obtain ⟨⟨r, hr⟩, hleft⟩ := afterRounds_emissionOrder nodes edges
  rw [emissionOrder, placedNames_order?]
  constructor
  · exact fun hn => ⟨hr.mem_nodes n hn, hr.free n hn⟩
  · rintro ⟨hn, hfree⟩
    by_contra hplaced
    exact hfree (hleft n (hr.mem_left.2 ⟨hn, hplaced⟩))

open Classical in
/-- What an ordering leaves are the blocked nodes, in the order of their first places. -/
theorem left_emissionOrder :
    (Placement.run (targetsIn edges) [] nodes.eraseDups).left =
      nodes.eraseDups.filter fun n => Blocked (targetsIn edges) nodes n := by
  obtain ⟨⟨r, hr⟩, -⟩ := afterRounds_emissionOrder nodes edges
  rw [hr.left_eq]
  refine List.filter_congr fun n hn => ?_
  have hmem := mem_placedNames_emissionOrder nodes edges n
  rw [emissionOrder, placedNames_order?] at hmem
  rw [Bool.eq_iff_iff]
  simp [hmem, List.mem_eraseDups.1 hn]

/-- The nodes placed are distinct: no node stands before itself in the order by level. -/
theorem nodup_placedNames_emissionOrder : (placedNames (emissionOrder nodes edges)).Nodup := by
  obtain ⟨⟨r, hr⟩, -⟩ := afterRounds_emissionOrder nodes edges
  rw [emissionOrder, placedNames_order?]
  exact hr.sorted.imp fun {a b} hab (h : a = b) => Before.irrefl b (h ▸ hab)

open Classical in
/-- There is an order where no node is blocked. -/
theorem exists_emissionOrder (h : ∀ n ∈ nodes, ¬ Blocked (targetsIn edges) nodes n) :
    ∃ order, emissionOrder nodes edges = .ok order := by
  refine (Placement.order?_eq_ok_iff _).2 ?_
  rw [left_emissionOrder, List.filter_eq_nil_iff]
  simpa using h

variable {nodes edges}

open Classical in
/-- An order has every node once. -/
theorem mem_of_emissionOrder {order : List String} (h : emissionOrder nodes edges = .ok order) :
    order.Nodup ∧ ∀ n, n ∈ order ↔ n ∈ nodes := by
  have hnodup := nodup_placedNames_emissionOrder nodes edges
  have hmem := mem_placedNames_emissionOrder nodes edges
  have hnone := (Placement.order?_eq_ok_iff _).1 ⟨order, h⟩
  rw [left_emissionOrder, List.filter_eq_nil_iff] at hnone
  simp only [h, placedNames] at hnodup hmem
  refine ⟨hnodup, fun n => ⟨fun hn => ((hmem n).1 hn).1, fun hn => (hmem n).2 ⟨hn, ?_⟩⟩⟩
  simpa using hnone n (List.mem_eraseDups.2 hn)

/-- An order has each node behind its targets. -/
theorem sublist_of_emissionOrder {order : List String} (h : emissionOrder nodes edges = .ok order) :
    ∀ s ∈ order, ∀ t ∈ targetsIn edges s, [t, s].Sublist order := by
  have hplaced : (Placement.run (targetsIn edges) [] nodes.eraseDups).placed = order := by
    rw [← placedNames_order?]
    exact congrArg placedNames h
  rw [← hplaced]
  exact Placement.sublist_run fun s hs => by cases hs

/-- Orderings of the same nodes with the same targets, listed in any orders, place the same nodes
and leave the same nodes. -/
theorem emissionOrder_perm {nodes' : List String} {edges' : OrderedMap String (List String)}
    (hnodes : ∀ n, n ∈ nodes ↔ n ∈ nodes')
    (htargets : ∀ n t, t ∈ targetsIn edges n ↔ t ∈ targetsIn edges' n) :
    let p := Placement.run (targetsIn edges) [] nodes.eraseDups
    let p' := Placement.run (targetsIn edges') [] nodes'.eraseDups
    p.placed.Perm p'.placed ∧ p.left.Perm p'.left := by
  -- What is placed and what is left has no name twice, so that the members tell both lists.
  have hblocked : ∀ n, Blocked (targetsIn edges) nodes n ↔ Blocked (targetsIn edges') nodes' n :=
    blocked_congr hnodes htargets
  constructor
  · have hmem := mem_placedNames_emissionOrder nodes edges
    have hmem' := mem_placedNames_emissionOrder nodes' edges'
    have hnodup := nodup_placedNames_emissionOrder nodes edges
    have hnodup' := nodup_placedNames_emissionOrder nodes' edges'
    rw [emissionOrder, placedNames_order?] at hmem hmem' hnodup hnodup'
    refine (List.perm_ext_iff_of_nodup hnodup hnodup').2 fun n => ?_
    rw [hmem, hmem', hnodes, hblocked]
  · rw [left_emissionOrder, left_emissionOrder]
    refine (List.perm_ext_iff_of_nodup ((nodup_eraseDups nodes).filter _)
      ((nodup_eraseDups nodes').filter _)).2 fun n => ?_
    simp only [List.mem_filter, List.mem_eraseDups, decide_eq_true_eq]
    exact and_congr (hnodes n) (hblocked n)

variable (nodes edges)

/-! ## Main statements -/

open Classical in
/-- Nodes are ordered unless one of them is blocked: a cycle, or a name that is no node, can be
reached from it. Otherwise the blocked nodes are unresolved, in the order given, and all others are
resolved. Edges that start at no node change nothing. -/
theorem emissionOrder_stops_at_blocked :
    ((∃ order, emissionOrder nodes edges = .ok order) ↔
      ∀ n ∈ nodes, ¬ Blocked (targetsIn edges) nodes n) ∧
    (∀ c, emissionOrder nodes edges = .error c →
      c.unresolved = (nodes.eraseDups.filter fun n => Blocked (targetsIn edges) nodes n) ∧
      c.resolved.Nodup ∧
      ∀ n, n ∈ c.resolved ↔ n ∈ nodes ∧ ¬ Blocked (targetsIn edges) nodes n) ∧
    ∀ edges', (∀ n ∈ nodes, ∀ t, t ∈ targetsIn edges' n ↔ t ∈ targetsIn edges n) →
      emissionOrder nodes edges' = emissionOrder nodes edges := by
  refine ⟨?_, fun c hc => ?_, fun edges' h => ?_⟩
  · rw [emissionOrder, Placement.order?_eq_ok_iff, left_emissionOrder, List.filter_eq_nil_iff]
    simp
  · have hmem := mem_placedNames_emissionOrder nodes edges
    have hnodup := nodup_placedNames_emissionOrder nodes edges
    rw [hc] at hmem hnodup
    refine ⟨?_, hnodup, hmem⟩
    rw [Placement.of_order?_eq_error hc]
    exact left_emissionOrder nodes edges
  · unfold emissionOrder
    rw [Placement.run_congr fun n hn => h n (List.mem_eraseDups.1 hn)]

open Classical in
/-- Two nodes that depend on each other block what depends on them, and not their other target. -/
theorem emissionOrder_stops_at_mutual_cycle :
    let nodes := ["leaf", "a", "b", "user", "a"]
    let edges := .ofList [("a", ["b", "leaf"]), ("b", ["a"]), ("user", ["a"]), ("ghost", ["user"])]
    emissionOrder nodes edges = .error ⟨["leaf"], ["a", "b", "user"]⟩ ∧
      ["a", "b", "user"] =
        (nodes.eraseDups.filter fun n => Blocked (targetsIn edges) nodes n) := by
  intro nodes edges
  have h : emissionOrder nodes edges = .error ⟨["leaf"], ["a", "b", "user"]⟩ := by decide +kernel
  exact ⟨h, ((emissionOrder_stops_at_blocked nodes edges).2.1 _ h).1⟩

/-- What is placed stands in the stable order by level: by the length of the longest path from a
node, and among nodes of one level by their first places. So every target of a node that is placed
is placed before it. -/
theorem emissionOrder_stable_by_level :
    ∃ placed, placedNames (emissionOrder nodes edges) = placed ∧
      (∀ n, n ∈ placed ↔ n ∈ nodes ∧ ¬ Blocked (targetsIn edges) nodes n) ∧
      (∀ n ∈ placed, IsGreatest (pathLengths (targetsIn edges) nodes n)
        (level (targetsIn edges) nodes n)) ∧
      placed.Nodup ∧
      placed.Pairwise (Before (targetsIn edges) nodes) ∧
      ∀ source ∈ placed, ∀ target ∈ targetsIn edges source,
        target ∈ placed ∧ placed.idxOf target < placed.idxOf source := by
  have hmem := mem_placedNames_emissionOrder nodes edges
  have hnodup := nodup_placedNames_emissionOrder nodes edges
  obtain ⟨⟨r, hr⟩, -⟩ := afterRounds_emissionOrder nodes edges
  rw [← placedNames_order? (Placement.run (targetsIn edges) [] nodes.eraseDups)] at hr
  change AfterRounds _ _ r (placedNames (emissionOrder nodes edges)) _ at hr
  refine ⟨_, rfl, ?_⟩
  generalize placedNames (emissionOrder nodes edges) = placed at hmem hnodup hr
  refine ⟨hmem, hr.longest, hnodup, hr.sorted, fun s hs t hst => ⟨hr.closed s hs t hst, ?_⟩⟩
  have ht := hr.closed s hs t hst
  have hdep : DependsOn (targetsIn edges) nodes s t := ⟨hr.mem_nodes s hs, hst⟩
  have hlt := hdep.level_lt (hr.longest s hs) (hr.longest t ht)
  by_contra hge
  have hidx : placed.idxOf s < placed.idxOf t := by
    refine Nat.lt_of_le_of_ne (Nat.le_of_not_lt hge) fun he => ?_
    rw [List.idxOf_inj hs] at he
    exact Nat.lt_irrefl _ (he ▸ hlt)
  have hbefore := List.pairwise_iff_getElem.1 hr.sorted _ _ (List.idxOf_lt_length_of_mem hs)
    (List.idxOf_lt_length_of_mem ht) hidx
  rw [List.getElem_idxOf, List.getElem_idxOf] at hbefore
  rcases hbefore with h | ⟨h, -⟩ <;> omega

end

/-- On one level nodes keep the order given, and a node on a longer path waits for a later round. -/
example : emissionOrder ["top", "right", "left", "base"]
    (.ofList [("top", ["left", "right", "base"]), ("left", ["base"]), ("right", ["base"])]) =
      .ok ["base", "right", "left", "top"] := by
  cbv

end EntityModel
