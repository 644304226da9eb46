import Patchbay.Proofs.Run.Walk

/-!
# What flow reaches

The search with a queue (`Graph.searchFlow`) is related to the flow links themselves: it finds a goal exactly
if a chain of flow links leads there (`Searching.searchFlow_iff`). Whether a graph can run is therefore a
matter of its entry node and of chains of flow links (`Graph.checkRunnable_eq_ok`).

The search misses nothing because flow can leave the nodes it has visited through its queue alone
(`Graph.Searching`).
-/

namespace Patchbay

open Relation

namespace Graph

variable {g : Graph} {n m e : NodeId}

/-! ## Flow -/

lemma mem_flowSuccessors : m ∈ g.flowSuccessors n ↔ g.FlowLink n m := by
  simp [flowSuccessors, FlowLink, and_assoc]

lemma mem_flowPredecessors : m ∈ g.flowPredecessors n ↔ g.FlowLink m n := by
  simp only [flowPredecessors, FlowLink, List.mem_map, List.mem_filter, Bool.and_eq_true, beq_iff_eq,
    and_assoc]
  exact exists_congr fun l => and_congr_right fun _ => and_congr_right fun _ => and_comm

/-! ## Searching with a queue -/

/-- What a search has done before its next turn: no node that it has visited is a goal, and what these
nodes feed has been visited or waits in the queue. -/
structure Searching (g : Graph) (goals visited queue : List NodeId) : Prop where
  missed : ∀ n ∈ visited, n ∉ goals
  fed : ∀ n ∈ visited, ∀ m, g.FlowLink n m → m ∈ visited ∨ m ∈ queue

/-- A search begins with nothing visited. -/
lemma searching_nothing (g : Graph) (goals queue : List NodeId) : g.Searching goals [] queue :=
  ⟨List.forall_mem_nil _, List.forall_mem_nil _⟩

namespace Searching

variable {goals visited queue rest : List NodeId} {x : NodeId}

/-- Flow gets from what has been visited to a goal through the queue alone. -/
lemma exists_queued (h : g.Searching goals visited queue) (hx : x ∈ goals)
    (hreach : ReflTransGen g.FlowLink n x) (hn : n ∈ visited) :
    ∃ k ∈ queue, ReflTransGen g.FlowLink k x := by
  induction hreach using ReflTransGen.head_induction_on with
  | refl => exact absurd hx (h.missed x hn)
  | @head a b hlink hrest ih =>
    rcases h.fed a hn b hlink with hb | hb
    · exact ih hb
    · exact ⟨b, hb, hrest⟩

/-- A node that has been visited before is passed over. -/
lemma skip (h : g.Searching goals visited (n :: rest)) (hn : n ∈ visited) :
    g.Searching goals visited rest where
  missed := h.missed
  fed a ha b hlink := by
    rcases h.fed a ha b hlink with hb | hb
    · exact .inl hb
    · rcases List.mem_cons.mp hb with rfl | hb
      · exact .inl hn
      · exact .inr hb

/-- Visiting a node lets those that it feeds join the queue. -/
lemma visit (h : g.Searching goals visited (n :: rest)) (hn : n ∉ goals) :
    g.Searching goals (n :: visited) (rest ++ g.flowSuccessors n) where
  missed := List.forall_mem_cons.mpr ⟨hn, h.missed⟩
  fed := by
    refine List.forall_mem_cons.mpr ⟨fun b hlink => ?_, fun a ha b hlink => ?_⟩
    · exact .inr (List.mem_append_right _ (mem_flowSuccessors.mpr hlink))
    · rcases h.fed a ha b hlink with hb | hb
      · exact .inl (List.mem_cons_of_mem _ hb)
      · rcases List.mem_cons.mp hb with rfl | hb
        · exact .inl List.mem_cons_self
        · exact .inr (List.mem_append_left _ hb)

/-- **A search finds exactly what flow leads to**: it says whether flow leads from the queue to a goal. -/
theorem searchFlow_iff (h : g.Searching goals visited queue) :
    g.searchFlow goals visited queue = true ↔
      ∃ k ∈ queue, ∃ x ∈ goals, ReflTransGen g.FlowLink k x := by
  fun_induction searchFlow g goals visited queue with
  | case1 => simp
  | case2 visited n rest hgoal =>
    exact iff_of_true rfl ⟨n, List.mem_cons_self, n, List.contains_iff_mem.mp hgoal, .refl⟩
  | case3 visited n rest _ hseen ih =>
    rw [ih (h.skip hseen)]
    constructor
    · rintro ⟨k, hk, hreach⟩
      exact ⟨k, List.mem_cons_of_mem _ hk, hreach⟩
    · rintro ⟨k, hk, x, hx, hreach⟩
      rcases List.mem_cons.mp hk with rfl | hk
      · obtain ⟨k, hk, hreach⟩ := (h.skip hseen).exists_queued hx hreach hseen
        exact ⟨k, hk, x, hx, hreach⟩
      · exact ⟨k, hk, x, hx, hreach⟩
  | case4 visited n rest hgoal hnew ih =>
    rw [List.contains_iff_mem] at hgoal
    rw [ih (h.visit hgoal)]
    constructor
    · rintro ⟨k, hk, x, hx, hreach⟩
      rcases List.mem_append.mp hk with hk | hk
      · exact ⟨k, List.mem_cons_of_mem _ hk, x, hx, hreach⟩
      · exact ⟨n, List.mem_cons_self, x, hx, .head (mem_flowSuccessors.mp hk) hreach⟩
    · rintro ⟨k, hk, x, hx, hreach⟩
      rcases List.mem_cons.mp hk with rfl | hk
      · -- the node is no goal, so flow leads on from it
        obtain ⟨k, hk, hreach⟩ := (h.visit hgoal).exists_queued hx hreach List.mem_cons_self
        exact ⟨k, hk, x, hx, hreach⟩
      · exact ⟨k, List.mem_append_left _ hk, x, hx, hreach⟩

end Searching

/-- The search depends on what feeds what alone. -/
lemma searchFlow_congr {g' : Graph} (h : g'.flowSuccessors = g.flowSuccessors)
    (goals visited queue : List NodeId) :
    g'.searchFlow goals visited queue = g.searchFlow goals visited queue := by
  fun_induction searchFlow g goals visited queue with
  | case1 => rw [searchFlow]
  | case2 visited n rest hgoal => rw [searchFlow, if_pos hgoal]
  | case3 visited n rest hgoal hseen ih => rw [searchFlow, if_neg hgoal, if_pos hseen, ih]
  | case4 visited n rest hgoal hnew ih => rw [searchFlow, if_neg hgoal, if_neg hnew, h, ih]

/-! ## Graphs that can run -/

/-- The entry node is a node of the graph. -/
theorem entryNode_mem (h : g.entryNode = .ok e) : e ∈ g.nodeIds := by
  rw [entryNode] at h
  split at h
  · cases h
  · next n hn =>
    obtain rfl := Except.ok.inj h
    have hmem : n ∈ g.nodes.filter Node.isEntry := hn ▸ List.mem_singleton_self n
    exact List.mem_map_of_mem (List.mem_filter.mp hmem).1
  · cases h

/-- **A graph can run from its entry node if an exit node is at the end of a chain of flow links.** -/
theorem checkRunnable_eq_ok : g.checkRunnable = .ok e ↔
    g.entryNode = .ok e ∧ ∃ x ∈ g.exitNodes, ReflTransGen g.FlowLink e x := by
  rw [checkRunnable]
  cases hentry : g.entryNode with
  | error err => simp [bind, Except.bind]
  | ok entry =>
    have hsearch : g.searchFlow g.exitNodes [] [entry] = true ↔
        ∃ x ∈ g.exitNodes, ReflTransGen g.FlowLink entry x :=
      (searching_nothing g _ _).searchFlow_iff.trans (by simp)
    show (if _ then Except.ok entry else Except.error GraphError.noReachableExit) = _ ↔ _
    by_cases hreach : ∃ x ∈ g.exitNodes, ReflTransGen g.FlowLink entry x
    · rw [if_pos (hsearch.mpr hreach)]
      constructor
      · rintro ⟨⟩
        exact ⟨rfl, hreach⟩
      · exact And.left
    · rw [if_neg (mt hsearch.mp hreach)]
      constructor
      · rintro ⟨⟩
      · rintro ⟨⟨⟩, h⟩
        exact absurd h hreach

end Graph

end Patchbay
