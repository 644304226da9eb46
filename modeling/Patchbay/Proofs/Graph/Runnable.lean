import Patchbay.Proofs.Graph.Reach
import Patchbay.Proofs.Run.Once

/-!
# Which graphs can run

`Graph.checkRunnable` counts the entry points first and then searches flow for an exit point. What is
there to be found is said by `Graph.Verdict` in terms of nodes and of chains of flow links: exactly one of
its cases holds of a well-formed graph, in whatever order its links come and whether or not flow goes in
circles. **`Graph.checkRunnable_verdict`** says that the answer names this case.
-/

namespace Patchbay

open Relation

namespace Graph

variable {g : Graph} {e e' : NodeId} {r r' : Except GraphError NodeId}

/-- Node `e` is an entry point and there is no other. -/
def SoleEntry (g : Graph) (e : NodeId) : Prop :=
  ∃ n ∈ g.nodes, n.id = e ∧ n.isEntry = true ∧ ∀ m ∈ g.nodes, m.isEntry = true → m = n

/-- A chain of flow links, which may have no links at all, leads from node `e` to an exit point. -/
def ReachesExit (g : Graph) (e : NodeId) : Prop :=
  ∃ x ∈ g.nodes, x.isExit = true ∧ ReflTransGen g.FlowLink e x.id

/-- What there is to say about running a graph. -/
inductive Verdict (g : Graph) : Except GraphError NodeId → Prop
  /-- Flow leads from the one entry point to an exit point. -/
  | runs {e : NodeId} (entry : g.SoleEntry e) (reaches : g.ReachesExit e) : Verdict g (.ok e)
  /-- Flow leads from the one entry point to no exit point. -/
  | noExit {e : NodeId} (entry : g.SoleEntry e) (misses : ¬ g.ReachesExit e) :
      Verdict g (.error .noReachableExit)
  | noEntry (none : ∀ n ∈ g.nodes, n.isEntry = false) : Verdict g (.error .noEntryPoint)
  | rivals {a b : Node} (left : a ∈ g.nodes) (right : b ∈ g.nodes) (apart : a ≠ b)
      (entryLeft : a.isEntry = true) (entryRight : b.isEntry = true) :
      Verdict g (.error .multipleEntryPoints)

/-! ## One case at most -/

lemma SoleEntry.eq (h : g.SoleEntry e) (h' : g.SoleEntry e') : e = e' := by
  obtain ⟨n, -, rfl, -, honly⟩ := h
  obtain ⟨m, hm, rfl, hentry, -⟩ := h'
  rw [honly m hm hentry]

lemma SoleEntry.not_forall (h : g.SoleEntry e) : ¬ ∀ n ∈ g.nodes, n.isEntry = false := by
  obtain ⟨n, hn, -, hentry, -⟩ := h
  exact fun hnone => Bool.false_ne_true ((hnone n hn).symm.trans hentry)

/-- With a sole entry point, all entry points are the same node. -/
lemma SoleEntry.all_eq (h : g.SoleEntry e) {a b : Node} (ha : a ∈ g.nodes) (hb : b ∈ g.nodes)
    (hentryA : a.isEntry = true) (hentryB : b.isEntry = true) : a = b := by
  obtain ⟨n, -, -, -, honly⟩ := h
  exact (honly a ha hentryA).trans (honly b hb hentryB).symm

/-- **No two cases hold of one graph.** -/
theorem Verdict.unique (h : g.Verdict r) (h' : g.Verdict r') : r = r' := by
  cases h with
  | runs hsole hreach =>
    cases h' with
    | runs hsole' => rw [hsole.eq hsole']
    | noExit hsole' hmiss => exact absurd (hsole.eq hsole' ▸ hreach) hmiss
    | noEntry hnone => exact absurd hnone hsole.not_forall
    | rivals ha hb hne ha' hb' => exact absurd (hsole.all_eq ha hb ha' hb') hne
  | noExit hsole hmiss =>
    cases h' with
    | runs hsole' hreach => exact absurd (hsole'.eq hsole ▸ hreach) hmiss
    | noExit => rfl
    | noEntry hnone => exact absurd hnone hsole.not_forall
    | rivals ha hb hne ha' hb' => exact absurd (hsole.all_eq ha hb ha' hb') hne
  | noEntry hnone =>
    cases h' with
    | runs hsole | noExit hsole => exact absurd hnone hsole.not_forall
    | noEntry => rfl
    | rivals ha _ _ ha' _ => exact absurd ((hnone _ ha).symm.trans ha') Bool.false_ne_true
  | rivals ha hb hne ha' hb' =>
    cases h' with
    | runs hsole | noExit hsole => exact absurd (hsole.all_eq ha hb ha' hb') hne
    | noEntry hnone => exact absurd ((hnone _ ha).symm.trans ha') Bool.false_ne_true
    | rivals => rfl

/-! ## The answer is a case -/

/-- **Looking for the entry node**: there is one, or there is none, or there are several. -/
theorem entryNode_cases (hg : g.WellFormed) :
    (∃ e, g.entryNode = .ok e ∧ g.SoleEntry e) ∨ ∃ err, g.entryNode = .error err ∧
      g.Verdict (.error err) := by
  have hmem : ∀ n, n ∈ g.nodes.filter Node.isEntry ↔ n ∈ g.nodes ∧ n.isEntry = true :=
    fun n => List.mem_filter
  have hnodup : (g.nodes.filter Node.isEntry).Nodup := (hg.nodes_nodup.of_map _).filter _
  rw [entryNode]
  generalize g.nodes.filter Node.isEntry = entries at hmem hnodup ⊢
  rcases entries with _ | ⟨a, _ | ⟨b, rest⟩⟩
  · refine .inr ⟨_, rfl, .noEntry fun n hn => ?_⟩
    by_contra hentry
    exact List.not_mem_nil ((hmem n).mpr ⟨hn, by simpa using hentry⟩)
  · obtain ⟨ha, hentry⟩ := (hmem a).mp (List.mem_singleton_self a)
    refine .inl ⟨a.id, rfl, a, ha, rfl, hentry, fun m hm hother => ?_⟩
    exact List.mem_singleton.mp ((hmem m).mpr ⟨hm, hother⟩)
  · obtain ⟨ha, hentryA⟩ := (hmem a).mp List.mem_cons_self
    obtain ⟨hb, hentryB⟩ := (hmem b).mp (List.mem_cons_of_mem _ List.mem_cons_self)
    have hne : a ≠ b := fun heq => (List.nodup_cons.mp hnodup).1 (heq ▸ List.mem_cons_self)
    exact .inr ⟨_, rfl, .rivals ha hb hne hentryA hentryB⟩

/-- From an entry node, the search finds out whether flow reaches an exit point. -/
lemma searchFlow_exitNodes :
    g.searchFlow g.exitNodes [] [e] = true ↔ g.ReachesExit e := by
  rw [(searching_nothing g _ _).searchFlow_iff]
  simp [exitNodes, ReachesExit, and_assoc]

lemma verdict_checkRunnable (hg : g.WellFormed) : g.Verdict g.checkRunnable := by
  rw [checkRunnable]
  rcases entryNode_cases hg with ⟨e, hentry, hsole⟩ | ⟨err, hentry, hverdict⟩
  · rw [hentry]
    show g.Verdict (if _ then Except.ok e else Except.error GraphError.noReachableExit)
    split_ifs with hsearch
    · exact .runs hsole (searchFlow_exitNodes.mp hsearch)
    · exact .noExit hsole (mt searchFlow_exitNodes.mpr hsearch)
  · rw [hentry]
    exact hverdict

/-- **Which graphs can run.** Checking a graph answers with node `e` exactly if `e` is its only entry point and
a chain of flow links leads from there to an exit point. If there is no entry point, or more than one, or no
exit point at the end of such a chain, then this is what the answer says, and it says so in no other case. -/
theorem checkRunnable_verdict (hg : g.WellFormed) (r : Except GraphError NodeId) :
    g.checkRunnable = r ↔ g.Verdict r :=
  ⟨fun h => h ▸ verdict_checkRunnable hg, (verdict_checkRunnable hg).unique⟩

/-! ## A graph in which flow goes in circles -/

/-- A node that two flow links may enter. -/
def junction : ScriptedType :=
  { info := ⟨"Junction", 1, .internal, "Host"⟩, display := "Junction", pins := []
    flowIn := none, flowOut := none, dataIn := [], dataOut := [], script := [], noteReset := false }

/-- Flow runs from a start node into a circle of a junction and a branch, and out of it through the branch
to an end node. -/
def circling : Graph :=
  let nodes := [exampleNode 1 (.start ⟨Uuid.ofNat 11⟩),
    exampleNode 2 (.scripted junction
      [.input ⟨Uuid.ofNat 21⟩ "First" .flow, .input ⟨Uuid.ofNat 22⟩ "Again" .flow]
      [.output ⟨Uuid.ofNat 23⟩ "Exit" .flow]),
    exampleNode 3 (.branch ⟨⟨Uuid.ofNat 31⟩, ⟨Uuid.ofNat 32⟩, ⟨Uuid.ofNat 33⟩, ⟨Uuid.ofNat 34⟩⟩),
    exampleNode 4 (.finish ⟨⟨Uuid.ofNat 41⟩, ⟨Uuid.ofNat 42⟩⟩)]
  { name := "circling", nodes, owners := indexOf nodes
    links := [exampleLink 61 1 11 2 21 true, exampleLink 62 2 23 3 31 true,
      exampleLink 63 3 33 2 22 true, exampleLink 64 3 34 4 41 true] }

theorem circling_wellFormed : circling.WellFormed := by
  refine wellFormed_of_indexOf rfl (by decide) (by decide) (fun l hl => ?_) (by decide)
  simp only [circling, List.mem_cons, List.not_mem_nil, or_false] at hl
  rcases hl with rfl | rfl | rfl | rfl
  · exact joins_of_getElem? (i := 0) (j := 1) (k := 0) (m := 0) rfl rfl rfl rfl rfl (by decide) rfl
  · exact joins_of_getElem? (i := 1) (j := 2) (k := 2) (m := 0) rfl rfl rfl rfl rfl (by decide) rfl
  · exact joins_of_getElem? (i := 2) (j := 1) (k := 2) (m := 1) rfl rfl rfl rfl rfl (by decide) rfl
  · exact joins_of_getElem? (i := 2) (j := 3) (k := 3) (m := 0) rfl rfl rfl rfl rfl (by decide) rfl

/-- The start node of the example is its only entry point. -/
lemma circling_soleEntry : circling.SoleEntry ⟨Uuid.ofNat 1⟩ :=
  ⟨exampleNode 1 (.start ⟨Uuid.ofNat 11⟩), by decide, rfl, rfl, by decide⟩

/-- The example can run. Without the link to the end node, the search goes round the circle and finds no exit
point. -/
theorem circling_runs : circling.checkRunnable = .ok ⟨Uuid.ofNat 1⟩ ∧
    (circling.unlink ⟨Uuid.ofNat 64⟩).checkRunnable = .error .noReachableExit := by
  have hlink : ∀ l ∈ circling.links, circling.FlowLink l.fromNode l.toNode := by
    intro l hl
    exact ⟨l, hl, by revert l; decide, rfl, rfl⟩
  have hmiss : ¬ (circling.unlink ⟨Uuid.ofNat 64⟩).ReachesExit ⟨Uuid.ofNat 1⟩ := by
    rw [← searchFlow_exitNodes]
    decide +kernel
  constructor
  · refine (checkRunnable_verdict circling_wellFormed _).mpr (.runs circling_soleEntry ?_)
    refine ⟨exampleNode 4 (.finish ⟨⟨Uuid.ofNat 41⟩, ⟨Uuid.ofNat 42⟩⟩), by decide, rfl, ?_⟩
    exact .head (hlink (exampleLink 61 1 11 2 21 true) (by decide))
      (.head (hlink (exampleLink 62 2 23 3 31 true) (by decide))
        (.single (hlink (exampleLink 64 3 34 4 41 true) (by decide))))
  · exact (checkRunnable_verdict (circling_wellFormed.unlink _) _).mpr (.noExit circling_soleEntry hmiss)

end Graph

end Patchbay
