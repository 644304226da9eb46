import Patchbay.Proofs.Graph.Hops
import Patchbay.Proofs.Graph.Runnable

/-!
# Walking flow breadth first

Between the turns of a walk (`Graph.turn`), the queue holds nodes at some distance from where the walk began and,
behind them, nodes that are one link farther away. What has been visited are these and all nodes that are not
farther away than the first ones. `Graph.Frontier` is this invariant. It is kept when a neighbour is met
(`Frontier.meet`), when all nodes at a distance have had their turn (`Frontier.advance`) and thus by every turn
(`Abreast.turn`). When the queue is empty, everything that flow leads to has been visited.

**`Graph.flowNeighbours_breadthFirst`** says what the walk comes to. Flow may go in circles, and two nodes may be
joined by several links.
-/

namespace Patchbay

namespace Graph

variable {g : Graph} {heading : Heading} {n : NodeId} {d : Nat} {near far ahead : List NodeId} {w : Sweep}

/-! ## The frontier -/

/-- How a walk from node `n` stands. The nodes `near` of its queue are `d` links away, the nodes `far` behind them
are at distance `d + 1`, and the nodes `ahead` are still to be met in this turn. -/
structure Frontier (g : Graph) (heading : Heading) (n : NodeId) (d : Nat) (near far ahead : List NodeId)
    (w : Sweep) : Prop where
  queue : w.queue = near ++ far
  near_away : ∀ m ∈ near, g.Away heading d n m
  far_away : ∀ m ∈ far, IsLeast {k | g.Away heading k n m} (d + 1)
  ahead_away : ∀ m ∈ ahead, g.Away heading (d + 1) n m
  visited_iff : ∀ m, m ∈ w.visited ↔ m ∈ far ∨ ∃ k ≤ d, g.Away heading k n m
  /-- The nodes that are not in the queue have had their turn. -/
  met : ∀ a ∈ w.visited, a ∈ near ∨ a ∈ far ∨ ∀ b ∈ g.flowStep heading a, b ∈ w.visited ∨ b ∈ ahead
  found_iff : ∀ m, m ∈ w.visited ↔ m = n ∨ m ∈ w.order
  nodup : (n :: w.order).Nodup
  sorted : w.order.Pairwise fun a b => g.flowDistance heading n a ≤ g.flowDistance heading n b

namespace Frontier

/-- A walk begins with the node itself, which is no link away. -/
lemma outset (g : Graph) (heading : Heading) (n : NodeId) :
    g.Frontier heading n 0 [n] [] [] (.outset n) where
  queue := rfl
  near_away m hm := away_zero_iff.mpr (List.mem_singleton.mp hm)
  far_away _ hm := nomatch hm
  ahead_away _ hm := nomatch hm
  visited_iff m := by simp [Sweep.outset, away_zero_iff]
  met a ha := .inl ha
  found_iff m := by simp [Sweep.outset]
  nodup := List.nodup_singleton n
  sorted := .nil

/-- Nothing that has been visited is farther away than the end of the queue. -/
lemma distance_le (h : g.Frontier heading n d near far ahead w) {m : NodeId} (hm : m ∈ w.visited) :
    g.flowDistance heading n m ≤ d + 1 := by
  rcases (h.visited_iff m).mp hm with hfar | ⟨k, hk, haway⟩
  · exact Nat.sInf_le (h.far_away m hfar).1
  · exact (Nat.sInf_le haway).trans (Nat.le_succ_of_le hk)

/-- **Meeting a neighbour** keeps the frontier: a new one joins the end of the queue. -/
lemma meet {b : NodeId} (h : g.Frontier heading n d near far (b :: ahead) w) :
    ∃ far', g.Frontier heading n d near far' ahead (w.meet b) := by
  have hahead : ∀ m ∈ ahead, g.Away heading (d + 1) n m := fun m hm =>
    h.ahead_away m (List.mem_cons_of_mem b hm)
  rw [Sweep.meet]
  split_ifs with hb
  · refine ⟨far, { h with ahead_away := hahead, met := fun a ha => ?_ }⟩
    refine (h.met a ha).imp_right (Or.imp_right fun hmet c hc => ?_)
    rcases hmet c hc with hc | hc
    · exact .inl hc
    · exact (List.mem_cons.mp hc).imp_left fun heq : c = b => heq ▸ hb
  -- a node that has not been visited is more than `d` links away
  have hleast : IsLeast {k | g.Away heading k n b} (d + 1) := by
    refine ⟨h.ahead_away b List.mem_cons_self, fun k hk => ?_⟩
    by_contra hless
    exact hb ((h.visited_iff b).mpr (.inr ⟨k, Nat.le_of_lt_succ (not_le.mp hless), hk⟩))
  have hdistance : g.flowDistance heading n b = d + 1 := (isLeast_flowDistance ⟨d + 1, hleast.1⟩).unique hleast
  refine ⟨far ++ [b], ?_, h.near_away, fun m hm => ?_, hahead, fun m => ?_, fun a ha => ?_, fun m => ?_, ?_, ?_⟩
  · rw [h.queue, List.append_assoc]
  · rcases List.mem_append.mp hm with hm | hm
    · exact h.far_away m hm
    · exact List.mem_singleton.mp hm ▸ hleast
  · simp only [List.mem_cons, List.mem_append, List.not_mem_nil, or_false, h.visited_iff m]
    tauto
  · rcases List.mem_cons.mp ha with rfl | ha
    · exact .inr (.inl (List.mem_append_right _ (List.mem_singleton_self _)))
    · refine (h.met a ha).imp_right (Or.imp (List.mem_append_left _) fun hmet c hc => ?_)
      rcases hmet c hc with hc | hc
      · exact .inl (List.mem_cons_of_mem b hc)
      · exact (List.mem_cons.mp hc).imp_left fun heq : c = b => heq ▸ List.mem_cons_self
  · simp only [List.mem_cons, List.mem_append, List.not_mem_nil, or_false, h.found_iff m]
    tauto
  · rw [← List.cons_append, ← List.concat_eq_append]
    exact h.nodup.concat fun hmem => hb ((h.found_iff b).mpr (List.mem_cons.mp hmem))
  · refine List.pairwise_append.mpr ⟨h.sorted, List.pairwise_singleton _ b, fun a ha c hc => ?_⟩
    rw [List.mem_singleton.mp hc, hdistance]
    exact h.distance_le ((h.found_iff a).mpr (.inr ha))

/-- Meeting all neighbours keeps the frontier. -/
lemma foldl_meet (h : g.Frontier heading n d near far ahead w) :
    ∃ far', g.Frontier heading n d near far' [] (ahead.foldl Sweep.meet w) := by
  induction ahead generalizing far w with
  | nil => exact ⟨far, h⟩
  | cons b ahead ih =>
    obtain ⟨far', h'⟩ := h.meet
    exact ih h'

/-- The first node of the queue takes its turn. -/
lemma pop {a : NodeId} (h : g.Frontier heading n d (a :: near) far [] w) :
    g.Frontier heading n d near far (g.flowStep heading a) { w with queue := near ++ far } :=
  { h with
    queue := rfl
    near_away := fun m hm => h.near_away m (List.mem_cons_of_mem a hm)
    ahead_away := fun m hm => away_succ_iff.mpr ⟨a, h.near_away a List.mem_cons_self, hm⟩
    met := by
      intro b hb
      rcases h.met b hb with hnear | hfar | hmet
      · rcases List.mem_cons.mp hnear with rfl | hnear
        · exact .inr (.inr fun c hc => .inr hc)
        · exact .inl hnear
      · exact .inr (.inl hfar)
      · exact .inr (.inr fun c hc => (hmet c hc).imp_right fun hnone => nomatch hnone) }

/-- **When all nodes at a distance have had their turn**, those in the queue are all that there are one link
farther away. -/
lemma advance (h : g.Frontier heading n d [] far [] w) : g.Frontier heading n (d + 1) far [] [] w :=
  { h with
    queue := by rw [h.queue, List.nil_append, List.append_nil]
    near_away := fun m hm => (h.far_away m hm).1
    far_away := fun _ hm => nomatch hm
    ahead_away := fun _ hm => nomatch hm
    visited_iff := by
      intro m
      constructor
      · intro hm
        rcases (h.visited_iff m).mp hm with hfar | ⟨k, hk, haway⟩
        · exact .inr ⟨d + 1, le_rfl, (h.far_away m hfar).1⟩
        · exact .inr ⟨k, Nat.le_succ_of_le hk, haway⟩
      · rintro (hnone | ⟨k, hk, haway⟩)
        · cases hnone
        rcases Nat.le_succ_iff.mp hk with hk | rfl
        · exact (h.visited_iff m).mpr (.inr ⟨k, hk, haway⟩)
        -- the last node but one on the way is `d` links away, so it has had its turn
        obtain ⟨a, hbefore, hstep⟩ := away_succ_iff.mp haway
        rcases h.met a ((h.visited_iff a).mpr (.inr ⟨d, le_rfl, hbefore⟩)) with hnear | hfar | hmet
        · cases hnear
        · exact absurd ((h.far_away a hfar).2 hbefore) (Nat.not_succ_le_self d)
        · exact (hmet m hstep).resolve_right List.not_mem_nil
    met := fun a ha => (h.met a ha).elim (fun hnone => nomatch hnone) fun hrest =>
      hrest.imp_right .inr }

end Frontier

/-! ## Turns -/

/-- Between turns, a walk from node `n` has a frontier. -/
def Abreast (g : Graph) (heading : Heading) (n : NodeId) (w : Sweep) : Prop :=
  ∃ d near far, g.Frontier heading n d near far [] w

namespace Abreast

/-- The first node of the queue is among the nearer ones, at some distance. -/
lemma exists_frontier {a : NodeId} {rest : List NodeId} (h : g.Abreast heading n w) (hqueue : w.queue = a :: rest) :
    ∃ d near far, rest = near ++ far ∧ g.Frontier heading n d (a :: near) far [] w := by
  obtain ⟨d, near, far, hfrontier⟩ := h
  have heq : near ++ far = a :: rest := hfrontier.queue.symm.trans hqueue
  cases near with
  | nil =>
    obtain rfl : far = a :: rest := heq
    exact ⟨d + 1, rest, [], (List.append_nil rest).symm, hfrontier.advance⟩
  | cons b near =>
    obtain ⟨rfl, rfl⟩ := List.cons.inj heq
    exact ⟨d, near, far, rfl, hfrontier⟩

/-- **Turns keep the frontier.** -/
lemma turn (h : g.Abreast heading n w) : g.Abreast heading n (g.turn heading w) := by
  rw [Graph.turn]
  cases hqueue : w.queue with
  | nil => exact h
  | cons a rest =>
    obtain ⟨d, near, far, rfl, hfrontier⟩ := h.exists_frontier hqueue
    obtain ⟨far', hfrontier'⟩ := hfrontier.pop.foldl_meet
    exact ⟨d, near, far', hfrontier'⟩

/-- Any number of turns keeps the frontier. -/
lemma turns (h : g.Abreast heading n w) (k : Nat) : g.Abreast heading n ((g.turn heading)^[k] w) := by
  induction k with
  | zero => exact h
  | succ k ih =>
    rw [Function.iterate_succ_apply']
    exact ih.turn

/-- **When the queue is empty**, everything that flow leads to has been visited. -/
lemma visited_iff (h : g.Abreast heading n w) (hqueue : w.queue = []) (m : NodeId) :
    m ∈ w.visited ↔ ∃ k, g.Away heading k n m := by
  obtain ⟨d, near, far, hfrontier⟩ := h
  obtain ⟨rfl, rfl⟩ := List.append_eq_nil_iff.mp (hfrontier.queue.symm.trans hqueue)
  constructor
  · intro hm
    rcases (hfrontier.visited_iff m).mp hm with hnone | ⟨k, -, haway⟩
    · cases hnone
    · exact ⟨k, haway⟩
  · rintro ⟨k, haway⟩
    induction k generalizing m with
    | zero => exact (hfrontier.visited_iff m).mpr (.inr ⟨0, Nat.zero_le d, haway⟩)
    | succ k ih =>
      obtain ⟨a, hbefore, hstep⟩ := away_succ_iff.mp haway
      rcases hfrontier.met a (ih a hbefore) with hnone | hnone | hmet
      · cases hnone
      · cases hnone
      · exact (hmet m hstep).resolve_right List.not_mem_nil

end Abreast

/-- Every node that is found joins the queue. -/
lemma length_foldl_meet (ms : List NodeId) (w : Sweep) :
    (ms.foldl Sweep.meet w).order.length + w.queue.length =
      w.order.length + (ms.foldl Sweep.meet w).queue.length := by
  induction ms generalizing w with
  | nil => rfl
  | cons m ms ih =>
    have hmeet : (w.meet m).order.length + w.queue.length = w.order.length + (w.meet m).queue.length := by
      rw [Sweep.meet]
      split_ifs
      · rfl
      · simp only [List.length_append, List.length_singleton]
        omega
    have hrest := ih (w.meet m)
    rw [List.foldl_cons]
    omega

/-- A turn takes one node out of the queue. -/
lemma length_turn (g : Graph) (heading : Heading) (h : w.queue ≠ []) :
    (g.turn heading w).order.length + w.queue.length =
      w.order.length + (g.turn heading w).queue.length + 1 := by
  rw [turn]
  cases hqueue : w.queue with
  | nil => exact absurd hqueue h
  | cons a rest =>
    have hmet := length_foldl_meet (g.flowStep heading a) { w with queue := rest }
    dsimp only at hmet ⊢
    simp only [List.length_cons]
    omega

/-- **A walk comes to its end** after as many turns as there are nodes in its queue and nodes that it still
finds. -/
theorem sweep_turns (g : Graph) (heading : Heading) (w : Sweep) : ∃ k,
    ((g.turn heading)^[k] w).queue = [] ∧ ((g.turn heading)^[k] w).order = g.sweep heading w ∧
      k + w.order.length = (g.sweep heading w).length + w.queue.length := by
  fun_induction sweep g heading w with
  | case1 w hqueue => exact ⟨0, hqueue, rfl, by simp [hqueue]⟩
  | case2 w hqueue ih =>
    obtain ⟨k, hempty, horder, hcount⟩ := ih
    have hturn := g.length_turn heading hqueue
    exact ⟨k + 1, hempty, horder, by omega⟩

/-! ## What is found -/

/-- How the walk from a node ends. -/
lemma exists_swept (g : Graph) (heading : Heading) (n : NodeId) : ∃ w,
    (g.turn heading)^[(g.flowNeighbours n heading).length + 1] (.outset n) = w ∧ w.queue = [] ∧
      w.order = g.flowNeighbours n heading ∧ g.Abreast heading n w := by
  obtain ⟨k, hqueue, horder, hcount⟩ := g.sweep_turns heading (.outset n)
  obtain rfl : k = (g.flowNeighbours n heading).length + 1 := hcount
  exact ⟨_, rfl, hqueue, horder, Abreast.turns ⟨0, [n], [], .outset g heading n⟩ _⟩

variable {m : NodeId}

/-- **A walk finds the other nodes that flow links lead to, or from.** -/
theorem mem_flowNeighbours_iff :
    m ∈ g.flowNeighbours n heading ↔ m ≠ n ∧ ∃ k, g.Away heading k n m := by
  obtain ⟨w, -, hqueue, horder, habreast⟩ := g.exists_swept heading n
  rw [← habreast.visited_iff hqueue m, ← horder]
  obtain ⟨d, near, far, h⟩ := habreast
  rw [h.found_iff m]
  constructor
  · exact fun hm => ⟨fun heq => (List.nodup_cons.mp h.nodup).1 (heq ▸ hm), .inr hm⟩
  · exact fun ⟨hne, hm⟩ => hm.resolve_left hne

/-- A walk finds no node twice. -/
theorem flowNeighbours_nodup : (g.flowNeighbours n heading).Nodup := by
  obtain ⟨w, -, -, horder, d, near, far, h⟩ := g.exists_swept heading n
  exact horder ▸ (List.nodup_cons.mp h.nodup).2

/-- **A walk finds the nearer nodes first.** -/
theorem flowNeighbours_sorted : (g.flowNeighbours n heading).Pairwise
    fun a b => g.flowDistance heading n a ≤ g.flowDistance heading n b := by
  obtain ⟨w, -, -, horder, d, near, far, h⟩ := g.exists_swept heading n
  exact horder ▸ h.sorted

/-- What flow leads to from another node is a node of the graph. -/
lemma WellFormed.mem_nodeIds_of_away (hg : g.WellFormed) {k : Nat} (h : g.Away heading k n m) (hne : m ≠ n) :
    m ∈ g.nodeIds := by
  cases k with
  | zero => exact absurd (away_zero_iff.mp h) hne
  | succ k =>
    obtain ⟨a, -, hstep⟩ := away_succ_iff.mp h
    obtain ⟨l, hl, rfl⟩ := g.exists_link_of_flowStep hstep
    obtain ⟨b, c, p, q, hj⟩ := hg.joins l hl
    cases heading with
    | upstream => exact List.mem_map.mpr ⟨b, hj.source, hj.fromNode.symm⟩
    | downstream => exact List.mem_map.mpr ⟨c, hj.target, hj.toNode.symm⟩

/-- **Walking flow breadth first.** However flow goes in circles, the queue of a walk from node `n` is empty after
one turn for `n` and one for each node that is found. Upstream, these are the nodes of the graph other than `n`
from which flow leads to `n`, and downstream those that it leads to from `n`. Each is found once. They come in the
order of how many flow links there are on a shortest way. -/
theorem flowNeighbours_breadthFirst (hg : g.WellFormed) (n : NodeId) (heading : Heading) :
    (∃ w, (g.turn heading)^[(g.flowNeighbours n heading).length + 1] (.outset n) = w ∧ w.queue = [] ∧
      w.order = g.flowNeighbours n heading) ∧
    (∀ m, m ∈ g.flowNeighbours n heading ↔ m ∈ g.nodeIds ∧ m ≠ n ∧ ∃ k, g.Away heading k n m) ∧
    (g.flowNeighbours n heading).Nodup ∧
    (g.flowNeighbours n heading).Pairwise
      fun a b => g.flowDistance heading n a ≤ g.flowDistance heading n b := by
  refine ⟨?_, fun m => ?_, flowNeighbours_nodup, flowNeighbours_sorted⟩
  · obtain ⟨w, hturns, hqueue, horder, -⟩ := g.exists_swept heading n
    exact ⟨w, hturns, hqueue, horder⟩
  · rw [mem_flowNeighbours_iff]
    constructor
    · exact fun ⟨hne, k, haway⟩ => ⟨hg.mem_nodeIds_of_away haway hne, hne, k, haway⟩
    · exact fun h => h.2

/-- In the example, flow leads to the end node from the branch, from the junction that feeds the branch and that
it feeds, and from the start node. -/
theorem circling_upstream : circling.WellFormed ∧
    circling.flowNeighbours ⟨Uuid.ofNat 4⟩ .upstream =
      [⟨Uuid.ofNat 3⟩, ⟨Uuid.ofNat 2⟩, ⟨Uuid.ofNat 1⟩] ∧
    List.Pairwise (fun a b : NodeId => circling.flowDistance .upstream ⟨Uuid.ofNat 4⟩ a ≤
        circling.flowDistance .upstream ⟨Uuid.ofNat 4⟩ b)
      [⟨Uuid.ofNat 3⟩, ⟨Uuid.ofNat 2⟩, ⟨Uuid.ofNat 1⟩] := by
  have hwalk : circling.flowNeighbours ⟨Uuid.ofNat 4⟩ .upstream =
      [⟨Uuid.ofNat 3⟩, ⟨Uuid.ofNat 2⟩, ⟨Uuid.ofNat 1⟩] := by decide +kernel
  obtain ⟨-, -, -, hsorted⟩ := flowNeighbours_breadthFirst circling_wellFormed ⟨Uuid.ofNat 4⟩ .upstream
  exact ⟨circling_wellFormed, hwalk, hwalk ▸ hsorted⟩

end Graph

end Patchbay
