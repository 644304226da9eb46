import Patchbay.Proofs.Document.Entries

/-!
# Which identities the nodes of a document get

A node that is restored gets the identity that its entry writes, unless the graph into which the
document is read has that identity, an earlier entry had it, or none is written; then it gets a fresh
one (`Loading.Tracks.choice_spec`). Links find the node of an identity in a table, which leads to the
first node that was restored under it, and the report says the same of identities that were replaced.

`Loading.Tracks` is what holds of all this while a document is being read, if the fresh identities
are new. It is kept when an entry is left out (`Tracks.leaveOut`), when a node comes in
(`Tracks.takeIn`) and when a link does (`Tracks.link`).
-/

namespace Patchbay

/-- Setting a key only if it is new. -/
theorem Table.get?_setNew {κ α : Type} [DecidableEq κ] (t : Table κ α) (k k' : κ) (v : α) :
    (if t.has k then t else t.set k v).get? k' =
      (t.get? k').or (if k = k' then some v else none) := by
  by_cases hkk : k = k'
  · subst hkk
    cases hget : t.get? k with
    | none => simp [has, hget]
    | some w => simp [has, hget]
  · split_ifs <;> simp [hkk]

/-- A report that says where identities lead goes on doing so when a new one leads somewhere. -/
theorem resolve_setNew {remap : Remap} {loaded : Table NodeId NodeId}
    (h : ∀ d, remap.resolve d = (loaded.get? d).getD d) (k i d : NodeId) :
    (if loaded.has k then remap else if i = k then remap else remap.set k i).resolve d =
      ((loaded.get? d).or (if k = d then some i else none)).getD d := by
  by_cases hkd : k = d
  · subst hkd
    cases hget : loaded.get? k with
    | some j => simp [Table.has, hget, h]
    | none =>
      by_cases hik : i = k
      · simp [Table.has, hget, h, hik]
      · simp [Table.has, hget, hik, Remap.resolve]
  · have hset : Remap.resolve (remap.set k i) d = remap.resolve d := by
      rw [Remap.resolve, Table.get?_set, if_neg hkd, Remap.resolve]
    split_ifs <;> simp [hset, h]

/-- All identities of nodes and pins of a graph. -/
def Graph.uuids (g : Graph) : List Uuid := g.nodeIds.map NodeId.uuid ++ g.pins.map fun p => p.id.uuid

namespace Loading

/-- The identity that is chosen for the node of an entry, and the supply after that. -/
def choice (st : Loading) (e : NodeEntry) : NodeId × Supply :=
  chosen { st with supply := (e.claim st.supply).2 } (e.claim st.supply).1

theorem claim_reaches_choice (st : Loading) (e : NodeEntry) :
    (e.claim st.supply).2.Reaches (st.choice e).2 :=
  chosen_reaches { st with supply := (e.claim st.supply).2 } _

theorem choice_reaches (st : Loading) (e : NodeEntry) : st.supply.Reaches (st.choice e).2 :=
  (claim_reaches e st.supply).trans (st.claim_reaches_choice e)

/-- For an entry that writes an identity, that or a fresh one is chosen. -/
theorem choice_of_written (st : Loading) {e : NodeEntry} {d : NodeId} (hw : e.written = some d) :
    st.choice e =
      if st.loaded.has d || st.graph.hasNode d then st.supply.takeNode else (d, st.supply) := by
  rw [choice, NodeEntry.claim, hw]
  rfl

/-- For an entry that writes no identity, the fresh one that it goes by is chosen if that is new. -/
theorem choice_of_unwritten {st : Loading} {e : NodeEntry} (hw : e.written = none)
    (hnew : st.loaded.get? st.supply.takeNode.1 = none)
    (hfree : st.supply.takeNode.1 ∉ st.graph.nodeIds) : st.choice e = st.supply.takeNode := by
  rw [← Graph.hasNode_iff, Bool.not_eq_true] at hfree
  simp only [choice, NodeEntry.claim, hw, chosen, identityFor, Table.has, hnew, hfree,
    Option.isSome_none, Bool.or_false, Bool.false_eq_true, if_false]

/-- The state after the node `m` of an entry has come in. The graph is `g` then, and the entry has
given rise to the warnings `ws`. -/
def takeIn (st : Loading) (e : NodeEntry) (m : Node) (g : Graph) (s : Supply)
    (ws : List LoadWarning) : Loading :=
  let key := (e.claim st.supply).1
  let isRepeat := st.loaded.has key
  ⟨g, s, if isRepeat then st.loaded else st.loaded.set key m.id,
    { warnings := st.report.warnings ++ ws
      remap := if isRepeat then st.report.remap
        else if m.id = key then st.report.remap else st.report.remap.set key m.id
      nodes := st.report.nodes ++ [m.id]
      links := st.report.links }⟩

theorem addNode_eq_takeIn {st : Loading} {m : Node} {g : Graph} (h : st.graph.addNode m = .ok g)
    (e : NodeEntry) (s : Supply) (ws : List LoadWarning) (index : Nat) :
    addNode ⟨st.graph, s, st.loaded, st.report.warn ws⟩ index e.typeName (e.claim st.supply).1
      (st.loaded.has (e.claim st.supply).1) m = st.takeIn e m g s ws := by
  simp only [addNode, h, takeIn, LoadReport.warn]
  cases st.loaded.has (e.claim st.supply).1 <;> rfl

/-- Where identities lead after a node has come in: the one that its entry goes by leads to it,
unless it led somewhere before. -/
theorem get?_takeIn (st : Loading) (e : NodeEntry) (m : Node) (g : Graph) (s : Supply)
    (ws : List LoadWarning) (d : NodeId) :
    (st.takeIn e m g s ws).loaded.get? d =
      (st.loaded.get? d).or (if (e.claim st.supply).1 = d then some m.id else none) :=
  Table.get?_setNew _ _ _ _

/-- What holds while a document that names the nodes `ids` is read into `host`, the identities being
taken from `s` and not beyond position `n`; `done` is what the entries restored so far have written
as their identities. -/
structure Tracks (n : Nat) (host : Graph) (ids : List NodeId) (s : Supply)
    (done : List (Option NodeId)) (st : Loading) : Prop where
  healthy : st.Healthy n
  reaches : s.Reaches st.supply
  within : st.supply.next ≤ n
  hosted : host.nodeIds ⊆ st.graph.nodeIds
  /-- Only identities of the document and fresh ones lead to nodes. -/
  keys : ∀ d i, st.loaded.get? d = some i → d ∈ ids ∨ s.Gave st.supply d.uuid
  /-- A node that was not there before has a fresh identity or leads to itself. -/
  origin : ∀ m ∈ st.graph.nodeIds,
    m ∈ host.nodeIds ∨ s.Gave st.supply m.uuid ∨ st.loaded.get? m = some m
  /-- The report says where identities lead. -/
  remap : ∀ d, st.report.remap.resolve d = (st.loaded.get? d).getD d
  count : done.length = st.report.nodes.length
  /-- An identity of the document leads to the first node that had it. -/
  first : ∀ d ∈ ids, st.loaded.get? d = (done.zip st.report.nodes).lookup (some d)

/-- Nothing has been read. -/
theorem tracks_start {n : Nat} {host : Graph} {ids : List NodeId} {s : Supply}
    (hhost : host.WellFormed) (hs : s.Fresh n (ids.map NodeId.uuid ++ host.uuids))
    (hn : s.next ≤ n) (ws : List LoadWarning) :
    Tracks n host ids s [] ⟨host, s, [], LoadReport.empty.warn ws⟩ where
  healthy := {
    wellFormed := fun _ => hhost
    distinct := hs.distinct
    unused := fun i hi hin => by
      cases howner : host.owner? ⟨s.draw i⟩ with
      | none => rfl
      | some m =>
        obtain ⟨a, ha, -, p, hp, hid⟩ := (hhost.owner?_iff _ _).mp howner
        refine absurd (List.mem_append_right _ (List.mem_append_right _ ?_)) (hs.unused i hi hin)
        exact List.mem_map.mpr ⟨p, List.mem_flatMap.mpr ⟨a, ha, hp⟩, by rw [hid]⟩ }
  reaches := .refl s
  within := hn
  hosted := List.Subset.refl _
  keys := fun _ _ h => nomatch h
  origin := fun _ hm => .inl hm
  remap := fun _ => rfl
  count := rfl
  first := fun _ _ => rfl

namespace Tracks

variable {n : Nat} {host : Graph} {ids : List NodeId} {s : Supply} {done : List (Option NodeId)}
  {st : Loading} (h : Tracks n host ids s done st)
  (hs : s.Fresh n (ids.map NodeId.uuid ++ host.uuids))
include h

/-- An entry is left out. -/
theorem leaveOut {s' : Supply} (hs' : st.supply.Reaches s') (hn : s'.next ≤ n)
    (ws : List LoadWarning) :
    Tracks n host ids s done ⟨st.graph, s', st.loaded, st.report.warn ws⟩ where
  healthy := by
    obtain ⟨k, rfl⟩ := hs'
    exact Graph.Healthy.skip h.healthy k
  reaches := h.reaches.trans hs'
  within := hn
  hosted := h.hosted
  keys := fun d i hd => (h.keys d i hd).imp_right fun hu => hu.mono hs'
  origin := fun m hm => (h.origin m hm).imp_right fun ho => ho.imp_left fun hu => hu.mono hs'
  remap := h.remap
  count := h.count
  first := h.first

include hs

/-- No identity of the document is fresh. -/
theorem not_gave {d : NodeId} (hd : d ∈ ids) : ¬s.Gave st.supply d.uuid :=
  hs.not_gave_used h.within (List.mem_append_left _ (List.mem_map_of_mem hd))

/-- An identity still to come leads nowhere. -/
theorem loaded_coming {i : Nat} (hi : st.supply.next ≤ i) (hin : i < n) :
    st.loaded.get? ⟨s.draw i⟩ = none := by
  cases hget : st.loaded.get? ⟨s.draw i⟩ with
  | none => rfl
  | some m =>
    rcases h.keys _ _ hget with hd | hu
    · exact absurd (List.mem_append_left _ (List.mem_map_of_mem hd))
        (hs.unused i (h.reaches.le.trans hi) hin)
    · exact absurd hu (hs.not_gave hi hin)

/-- An identity still to come is the one of no node. -/
theorem absent_coming {i : Nat} (hi : st.supply.next ≤ i) (hin : i < n) :
    (⟨s.draw i⟩ : NodeId) ∉ st.graph.nodeIds := by
  intro hmem
  rcases h.origin _ hmem with hhost | hu | hself
  · refine hs.unused i (h.reaches.le.trans hi) hin (List.mem_append_right _ ?_)
    exact List.mem_append_left _ (List.mem_map_of_mem (f := NodeId.uuid) hhost)
  · exact hs.not_gave hi hin hu
  · rw [h.loaded_coming hs hi hin] at hself
    cases hself

/-- An identity of the document that leads nowhere yet is taken exactly if the host has it. -/
theorem mem_nodeIds_iff {d : NodeId} (hd : d ∈ ids) (hnew : st.loaded.get? d = none) :
    d ∈ st.graph.nodeIds ↔ d ∈ host.nodeIds := by
  refine ⟨fun hmem => ?_, fun hmem => h.hosted hmem⟩
  rcases h.origin d hmem with hhost | hu | hself
  · exact hhost
  · exact absurd hu (h.not_gave hs hd)
  · rw [hnew] at hself
    cases hself

/-- The next identity is new in every respect. -/
theorem takeNode_spec (hn : st.supply.next < n) :
    st.supply.takeNode.1 ∉ st.graph.nodeIds ∧ st.loaded.get? st.supply.takeNode.1 = none ∧
      s.Gave st.supply.takeNode.2 st.supply.takeNode.1.uuid := by
  have hdraw : st.supply.takeNode.1 = ⟨s.draw st.supply.next⟩ := by
    rw [← h.reaches.draw_eq]
    rfl
  rw [hdraw]
  exact ⟨h.absent_coming hs (Nat.le_refl _) hn, h.loaded_coming hs (Nat.le_refl _) hn,
    _, h.reaches.le, Nat.lt_succ_self _, rfl⟩

/-- **Which identity is chosen** for the node of an entry: one that no node has. It is the one that
the entry writes, unless it writes none, an earlier entry had it, or the host has it; then it is a
fresh one. -/
theorem choice_spec {e : NodeEntry} (he : ∀ d, e.written = some d → d ∈ ids)
    (hn : (st.choice e).2.next ≤ n) :
    (st.choice e).1 ∉ st.graph.nodeIds ∧
      (e.written = none → st.loaded.get? (e.claim st.supply).1 = none) ∧
      ((∃ d, e.written = some d ∧ st.loaded.get? d = none ∧ d ∉ host.nodeIds ∧
          (st.choice e).1 = d) ∨
        s.Gave (st.choice e).2 (st.choice e).1.uuid ∧
          ∀ d, e.written = some d → st.loaded.get? d = none → d ∈ host.nodeIds) := by
  cases hw : e.written with
  | none =>
    have hclaim : e.claim st.supply = st.supply.takeNode := by rw [NodeEntry.claim, hw]
    have htaken : st.supply.takeNode.2.Reaches (st.choice e).2 := hclaim ▸ st.claim_reaches_choice e
    obtain ⟨habsent, hnew, hgave⟩ := h.takeNode_spec hs ((Nat.lt_succ_self _).trans_le
      (htaken.le.trans hn))
    rw [choice_of_unwritten hw hnew habsent, hclaim]
    exact ⟨habsent, fun _ => hnew, .inr ⟨hgave, fun d hd => absurd hd.symm (Option.some_ne_none d)⟩⟩
  | some d =>
    have hmem := fun hnew => h.mem_nodeIds_iff hs (he d hw) hnew
    rw [choice_of_written st hw] at hn ⊢
    split_ifs at hn ⊢ with htaken
    · obtain ⟨habsent, -, hgave⟩ := h.takeNode_spec hs hn
      refine ⟨habsent, False.elim, .inr ⟨hgave, ?_⟩⟩
      rintro _ ⟨⟩ hnew
      rw [Table.has, hnew, Option.isSome_none, Bool.false_or, Graph.hasNode_iff] at htaken
      exact (hmem hnew).mp htaken
    · obtain ⟨hnew, hfree⟩ := not_or.mp (mt (Bool.or_eq_true _ _).mpr htaken)
      rw [Graph.hasNode_iff] at hfree
      have hnew : st.loaded.get? d = none := by simpa [Table.has] using hnew
      exact ⟨hfree, False.elim, .inl ⟨d, rfl, hnew, mt (hmem hnew).mpr hfree, rfl⟩⟩

omit hs in
/-- An entry that writes no identity goes by a fresh one. -/
theorem gave_claim {e : NodeEntry} (hw : e.written = none) :
    s.Gave (e.claim st.supply).2 (e.claim st.supply).1.uuid := by
  rw [NodeEntry.claim, hw]
  refine ⟨st.supply.next, h.reaches.le, Nat.lt_succ_self _, ?_⟩
  rw [← h.reaches.draw_eq]
  rfl

/-- An entry goes by an identity of the document exactly if it writes it. -/
theorem claim_eq_iff {e : NodeEntry} (hn : (e.claim st.supply).2.next ≤ n) {d : NodeId}
    (hd : d ∈ ids) : (e.claim st.supply).1 = d ↔ e.written = some d := by
  refine ⟨fun heq => ?_, fun hw => by rw [NodeEntry.claim, hw]⟩
  cases hw : e.written with
  | some d' => rw [← heq, NodeEntry.claim, hw]
  | none =>
    exact absurd (heq ▸ h.gave_claim hw)
      (hs.not_gave_used hn (List.mem_append_left _ (List.mem_map_of_mem hd)))

/-! ### A node comes in -/

section TakeIn

variable {e : NodeEntry} (he : ∀ d, e.written = some d → d ∈ ids) {m : Node} {s' : Supply}
  (hid : m.id = (st.choice e).1) (hdrawn : m.DrawnBetween (st.choice e).2 s') (hn : s'.next ≤ n)
include he hid hdrawn hn

/-- Nothing keeps the node of an entry out. -/
theorem exists_addNode : ∃ g, st.graph.addNode m = .ok g :=
  Graph.addNode_isOk (hid ▸ (h.choice_spec hs he (hdrawn.reaches.le.trans hn)).1)

/-- A node that comes in has a fresh identity or leads to itself. -/
theorem origin_takeIn (g : Graph) (ws : List LoadWarning) : s.Gave s' m.id.uuid ∨
    (st.takeIn e m g s' ws).loaded.get? m.id = some m.id := by
  obtain ⟨-, -, ⟨d, hw, hnew, -, hd⟩ | ⟨hgave, -⟩⟩ :=
    h.choice_spec hs he (hdrawn.reaches.le.trans hn)
  · have hclaim : (e.claim st.supply).1 = m.id := by rw [NodeEntry.claim, hw, hid, hd]
    have hnew : st.loaded.get? m.id = none := by rw [hid, hd, hnew]
    exact .inr (by rw [get?_takeIn, hnew, if_pos hclaim, Option.none_or])
  · exact .inl ((hid ▸ hgave).mono hdrawn.reaches)

/-- The node of an entry comes in. -/
theorem takeIn {g : Graph} (hadd : st.graph.addNode m = .ok g) (ws : List LoadWarning) :
    Tracks n host ids s (done ++ [e.written]) (st.takeIn e m g s' ws) := by
  have hclaimed : (e.claim st.supply).2.Reaches s' := (st.claim_reaches_choice e).trans hdrawn.reaches
  have hreaches : st.supply.Reaches s' := (st.choice_reaches e).trans hdrawn.reaches
  have hnodeIds : g.nodeIds = st.graph.nodeIds ++ [m.id] := by
    rw [Graph.nodeIds, (Graph.addNode_parts hadd).2.1, List.map_append]
    rfl
  exact {
    healthy := by
      obtain ⟨k, hk⟩ := st.choice_reaches e
      exact (hk ▸ Graph.Healthy.skip h.healthy k).addDrawn hdrawn hadd
    reaches := h.reaches.trans hreaches
    within := hn
    hosted := fun d hd => hnodeIds ▸ List.mem_append_left _ (h.hosted hd)
    keys := fun d i hd => by
      rw [get?_takeIn, Option.or_eq_some_iff] at hd
      rcases hd with hd | ⟨-, hd⟩
      · exact (h.keys d i hd).imp_right fun hu => hu.mono hreaches
      · split_ifs at hd with hclaim
        cases hw : e.written with
        | some d' => exact .inl (he d (by rw [← hclaim, NodeEntry.claim, hw]))
        | none => exact .inr (hclaim ▸ (h.gave_claim hw).mono hclaimed)
    origin := fun a ha => by
      rcases List.mem_append.mp (hnodeIds ▸ ha) with ha | ha
      · refine (h.origin a ha).imp_right fun ho => ho.imp (fun hu => hu.mono hreaches) fun hself => ?_
        rw [get?_takeIn, hself, Option.some_or]
      · obtain rfl := List.mem_singleton.mp ha
        exact .inr (h.origin_takeIn hs he hid hdrawn hn g ws)
    remap := fun d => by
      rw [get?_takeIn]
      exact resolve_setNew h.remap _ m.id d
    count := by
      show (done ++ [e.written]).length = (st.report.nodes ++ [m.id]).length
      rw [List.length_append, List.length_append, h.count]
      rfl
    first := fun d hd => by
      have hclaim := h.claim_eq_iff hs (hclaimed.le.trans hn) hd
      show _ = List.lookup _ (List.zip _ (st.report.nodes ++ [m.id]))
      rw [get?_takeIn, h.first d hd, List.zip_append h.count, List.lookup_append]
      congr 1
      by_cases hw : e.written = some d
      · simp [hclaim.mpr hw, hw]
      · simp [mt hclaim.mp hw, List.lookup_cons, beq_false_of_ne (Ne.symm hw)] }

end TakeIn

omit hs in
/-- A link comes in. -/
theorem link {id : LinkId} {i j : PinId} {g : Graph} (hlink : st.graph.link id i j = .ok g)
    {s' : Supply} (hs' : st.supply.Reaches s') (hn : s'.next ≤ n) :
    Tracks n host ids s done
      ⟨g, s', st.loaded, { st.report with links := st.report.links + 1 }⟩ := by
  have hsame : g.nodeIds = st.graph.nodeIds := by
    obtain ⟨_, _, _, _, _, -, -, -, -, rfl, -⟩ := Graph.link_spec hlink
    rfl
  exact {
    healthy := by
      obtain ⟨k, rfl⟩ := hs'
      exact (Graph.Healthy.skip h.healthy k).link hlink
    reaches := h.reaches.trans hs'
    within := hn
    hosted := hsame ▸ h.hosted
    keys := fun d i hd => (h.keys d i hd).imp_right fun hu => hu.mono hs'
    origin := fun m hm =>
      (h.origin m (hsame ▸ hm)).imp_right fun ho => ho.imp_left fun hu => hu.mono hs'
    remap := h.remap
    count := h.count
    first := h.first }

end Tracks

end Loading

end Patchbay
