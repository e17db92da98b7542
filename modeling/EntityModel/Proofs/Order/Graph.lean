import EntityModel.Order.Graph
import EntityModel.Proofs.OrderedMap

/-!
# Names and edges of a dependency graph

Names are added to a list that does not hold them (`DependencyGraph.addName`): the nodes of a graph,
and the targets of each source. So an edge is there if it was recorded, however often
(`DependencyGraph.mem_targetsIn_foldl`), and in the list of all edges it stands once
(`DependencyGraph.nodup_edgeList`).
-/

namespace EntityModel

namespace DependencyGraph

/-! ## Adding names -/

section
variable {n n' : String} {ns added : List String}

/-- Adding a name that is there changes nothing. -/
theorem addName_of_mem (h : n ∈ ns) : addName n ns = ns := by
  simp [addName, h]

/-- A new name is added at the end. -/
theorem addName_of_notMem (h : n ∉ ns) : addName n ns = ns ++ [n] := by
  simp [addName, h]

/-- An added name is there besides the old ones. -/
theorem mem_addName : n' ∈ addName n ns ↔ n' ∈ ns ∨ n' = n := by
  by_cases h : n ∈ ns
  · rw [addName_of_mem h]
    exact ⟨.inl, fun h' => h'.elim id fun he => he ▸ h⟩
  · rw [addName_of_notMem h, List.mem_append, List.mem_singleton]

/-- Adding a name makes no name stand twice. -/
theorem nodup_addName (h : ns.Nodup) : (addName n ns).Nodup := by
  by_cases hn : n ∈ ns
  · rwa [addName_of_mem hn]
  · rw [addName_of_notMem hn]
    rw [← List.concat_eq_append]
    exact h.concat hn

/-- Adding names that are there changes nothing. -/
theorem foldl_addName_of_subset (h : ∀ n ∈ added, n ∈ ns) :
    added.foldl (fun ns n => addName n ns) ns = ns := by
  induction added with
  | nil => rfl
  | cons n added ih =>
    rw [List.foldl_cons, addName_of_mem (h n (List.mem_cons_self ..))]
    exact ih fun n' hn' => h n' (List.mem_cons_of_mem _ hn')

/-- Added names are there besides the old ones. -/
theorem mem_foldl_addName :
    n ∈ added.foldl (fun ns n => addName n ns) ns ↔ n ∈ ns ∨ n ∈ added := by
  induction added generalizing ns with
  | nil => simp
  | cons n' added ih => rw [List.foldl_cons, ih, mem_addName, List.mem_cons, or_assoc]

/-- Adding the same names again changes nothing. -/
theorem foldl_addName_foldl (added ns : List String) :
    added.foldl (fun ns n => addName n ns) (added.foldl (fun ns n => addName n ns) ns) =
      added.foldl (fun ns n => addName n ns) ns :=
  foldl_addName_of_subset fun _ hn => mem_foldl_addName.2 (.inr hn)

/-- New and distinct names are added at the end as they are. -/
theorem foldl_addName_of_nodup (h : (ns ++ added).Nodup) :
    added.foldl (fun ns n => addName n ns) ns = ns ++ added := by
  induction added generalizing ns with
  | nil => simp
  | cons n added ih =>
    have hn : n ∉ ns := fun hmem =>
      (List.nodup_append.1 h).2.2 n hmem n (List.mem_cons_self ..) rfl
    rw [List.foldl_cons, addName_of_notMem hn, ih, List.append_assoc, List.singleton_append]
    rwa [List.append_assoc, List.singleton_append]

end

end DependencyGraph

/-- A changed key is among the keys. -/
theorem OrderedMap.keys_upsert_eq_addName {α : Type} (m : OrderedMap String α) (k : String)
    (f : Option α → α) : (m.upsert k f).keys = DependencyGraph.addName k m.keys := by
  simp [DependencyGraph.addName]

/-- An insertion adds the key to the keys. -/
theorem OrderedMap.keys_insert_eq_addName {α : Type} (m : OrderedMap String α) (k : String)
    (v : α) : (m.insert k v).keys = DependencyGraph.addName k m.keys :=
  m.keys_upsert_eq_addName k _

namespace DependencyGraph

/-! ## Recording edges -/

/-- Records an edge, a pair of a source and a target, among others. -/
def recordEdge (edges : OrderedMap String (List String)) (p : String × String) :
    OrderedMap String (List String) :=
  edges.upsert p.1 fun targets => addName p.2 (targets.getD [])

section
variable {edges : OrderedMap String (List String)} {ps : List (String × String)} {s t : String}

/-- An edge adds its target to those of its source. -/
theorem targetsIn_recordEdge (edges : OrderedMap String (List String)) (p : String × String)
    (s : String) :
    targetsIn (recordEdge edges p) s =
      if p.1 = s then addName p.2 (targetsIn edges s) else targetsIn edges s := by
  unfold targetsIn recordEdge
  rw [OrderedMap.find?_upsert]
  by_cases h : p.1 = s <;> simp [h]

/-- The recorded edges are there besides the old ones. -/
theorem mem_targetsIn_foldl :
    t ∈ targetsIn (ps.foldl recordEdge edges) s ↔ t ∈ targetsIn edges s ∨ (s, t) ∈ ps := by
  induction ps generalizing edges with
  | nil => simp
  | cons p ps ih =>
    obtain ⟨s', t'⟩ := p
    rw [List.foldl_cons, ih, targetsIn_recordEdge, List.mem_cons, Prod.mk.injEq, ← or_assoc]
    by_cases h : s' = s
    · simp [h, mem_addName]
    · simp [h, Ne.symm h]

/-- Recording an edge that is there changes nothing. -/
theorem recordEdge_of_mem (h : t ∈ targetsIn edges s) : recordEdge edges (s, t) = edges := by
  unfold targetsIn at h
  cases hs : edges.find? s with
  | none => simp [hs] at h
  | some ts =>
    have ht : t ∈ ts := by simpa [hs] using h
    exact OrderedMap.upsert_eq_self hs (addName_of_mem ht)

/-- Recording edges that are there changes nothing. -/
theorem foldl_recordEdge_of_subset (h : ∀ p ∈ ps, p.2 ∈ targetsIn edges p.1) :
    ps.foldl recordEdge edges = edges := by
  induction ps with
  | nil => rfl
  | cons p ps ih =>
    rw [List.foldl_cons, recordEdge_of_mem (h p (List.mem_cons_self ..))]
    exact ih fun p' hp' => h p' (List.mem_cons_of_mem _ hp')

/-- Recording the same edges again changes nothing. -/
theorem foldl_recordEdge_foldl (edges : OrderedMap String (List String))
    (ps : List (String × String)) :
    ps.foldl recordEdge (ps.foldl recordEdge edges) = ps.foldl recordEdge edges :=
  foldl_recordEdge_of_subset fun _ hp => mem_targetsIn_foldl.2 (.inr hp)

/-- Recording edges makes no target of a source stand twice. -/
theorem nodup_targetsIn_foldl (h : ∀ s, (targetsIn edges s).Nodup) (s : String) :
    (targetsIn (ps.foldl recordEdge edges) s).Nodup := by
  induction ps generalizing edges with
  | nil => exact h s
  | cons p ps ih =>
    refine ih fun s => ?_
    rw [targetsIn_recordEdge]
    split
    · exact nodup_addName (h s)
    · exact h s

/-- The sources are those of the recorded edges besides the old ones. -/
theorem mem_keys_foldl_recordEdge :
    s ∈ (ps.foldl recordEdge edges).keys ↔ s ∈ edges.keys ∨ ∃ t, (s, t) ∈ ps := by
  induction ps generalizing edges with
  | nil => simp
  | cons p ps ih =>
    obtain ⟨s', t'⟩ := p
    have hkeys : (recordEdge edges (s', t')).keys = addName s' edges.keys :=
      OrderedMap.keys_upsert_eq_addName ..
    rw [List.foldl_cons, ih, hkeys, mem_addName, or_assoc]
    simp [exists_or]

end

/-! ## The list of all edges -/

/-- All edges as pairs of a source and a target. -/
def edgeList (g : DependencyGraph) : List (String × String) :=
  g.edges.entries.flatMap fun e => e.2.map fun t => (e.1, t)

variable {g : DependencyGraph} {s t : String}

/-- The edges are the pairs of a source and one of its targets. -/
theorem mem_edgeList : (s, t) ∈ g.edgeList ↔ t ∈ g.dependencies s := by
  simp only [edgeList, dependencies, targetsIn, List.mem_flatMap, List.mem_map, Prod.mk.injEq]
  constructor
  · rintro ⟨⟨s', ts⟩, he, t', ht, rfl, rfl⟩
    rwa [g.edges.mem_entries.1 he]
  · intro h
    cases hfind : g.edges.find? s with
    | none => simp [hfind] at h
    | some ts =>
      rw [hfind] at h
      exact ⟨(s, ts), g.edges.mem_entries.2 hfind, t, h, rfl, rfl⟩

/-- No edge is listed twice if no target of a source stands twice. -/
theorem nodup_edgeList (h : ∀ s, (g.dependencies s).Nodup) : g.edgeList.Nodup := by
  refine g.edges.nodup_flatMap_entries _ Prod.fst ?_ fun e p hp => ?_
  · rintro ⟨s, ts⟩ he
    have hts : g.dependencies s = ts := by
      rw [dependencies, targetsIn, g.edges.mem_entries.1 he, Option.getD_some]
    exact (hts ▸ h s).map fun a b hab => (Prod.mk.inj hab).2
  · obtain ⟨t, -, rfl⟩ := List.mem_map.1 hp
    rfl

end DependencyGraph

end EntityModel
