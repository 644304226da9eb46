import Patchbay.Proofs.Document.Identities
import Patchbay.Proofs.Document.RoundTrip
import Patchbay.Proofs.Graph.Beside

/-!
# Merging a document is loading it beside a graph

Loading a document and merging it into a graph are two runs of one reader, which start from an empty
graph and from the graph in question. Entry by entry they do the same: what one leaves out the other
leaves out for the same reason, and what comes in on one side is like what comes in on the other
(`Graph.merge_beside`). Only identities differ, and those only where the graph has the identity
already, or where both runs take a fresh one. This relies on the node types for one thing, that
identities play no part in how their nodes are made and read documents (`Registry.Regular`).

`Loading.Abreast` is the relation between the two runs. It has a lemma for the entry of a node
(`Abreast.node`) and one for the entry of a link (`Abreast.link`), and both are carried along the
lists of a document.
-/

namespace Patchbay

open Loading (LinkEntry)

theorem rel_or {α β : Type} {R : α → β → Prop} {o p : Option α} {o' p' : Option β}
    (h : Option.Rel R o o') (h' : Option.Rel R p p') : Option.Rel R (o.or p) (o'.or p') := by
  cases h with
  | none => exact h'
  | some hxy => exact .some hxy

/-! ## Warnings -/

/-- Two readings of a document warn of the same thing. The node named by a warning about a field is
the one that `pairs` puts in its place, and the pins named by a refused link may differ. -/
inductive LoadWarning.Matches (pairs : List (NodeId × NodeId)) : LoadWarning → LoadWarning → Prop
  | field {n n' : NodeId} (h : (n, n') ∈ pairs) (key : String) (fault : FieldFault) :
    Matches pairs (.malformedField n key fault) (.malformedField n' key fault)
  | refusal (index : Nat) {e e' : LinkError} (h : e.blank = e'.blank) :
    Matches pairs (.linkRejected index e) (.linkRejected index e')
  | same {w : LoadWarning} (h : w.IsGeneral) : Matches pairs w w

namespace LoadWarning

variable {pairs : List (NodeId × NodeId)}

theorem Matches.mono {pairs' : List (NodeId × NodeId)} (hsub : pairs ⊆ pairs') {w w' : LoadWarning}
    (h : Matches pairs w w') : Matches pairs' w w' := by
  cases h with
  | field h key fault => exact .field (hsub h) key fault
  | refusal index h => exact .refusal index h
  | same h => exact .same h

theorem matches_general {ws : List LoadWarning} (h : ∀ w ∈ ws, w.IsGeneral) :
    List.Forall₂ (Matches pairs) ws ws :=
  List.forall₂_same.mpr fun w hw => .same (h w hw)

/-- Nodes that correspond give corresponding warnings of their fields. -/
theorem matches_fields {n n' : NodeId} (h : (n, n') ∈ pairs) (faults : List (String × FieldFault)) :
    List.Forall₂ (Matches pairs) (faults.map (ofField n)) (faults.map (ofField n')) := by
  rw [List.forall₂_map_left_iff, List.forall₂_map_right_iff]
  exact List.forall₂_same.mpr fun fault _ => .field h fault.1 fault.2

end LoadWarning

/-- The version of a document gives rise to warnings about the document only. -/
theorem checkFormat_subject {root : Fields} {ws : List LoadWarning}
    (h : checkFormat root = .ok ws) : ∀ w ∈ ws, w.subject = .document := by
  rw [checkFormat] at h
  split at h
  · cases h
    exact List.forall_mem_singleton.mpr rfl
  · split at h
    · split at h
      · cases h
      · cases h
        exact List.forall_mem_nil _
    · cases h
      exact List.forall_mem_singleton.mpr rfl

/-- An empty graph uses no identities. -/
theorem Supply.Fresh.append_empty {s : Supply} {n : Nat} {used : List Uuid} (h : s.Fresh n used)
    (name : String) : s.Fresh n (used ++ (Graph.empty name).uuids) := by
  rwa [show (Graph.empty name).uuids = [] from rfl, List.append_nil]

namespace Loading

theorem repeated_general (st : Loading) (index : Nat) (d : NodeId) :
    ∀ w ∈ st.repeated index d, w.IsGeneral := by
  rw [repeated]
  split
  · exact List.forall_mem_singleton.mpr trivial
  · exact List.forall_mem_nil _

/-! ## Two runs -/

/-- A node that came in alone under the identity `i` has come in beside `host` under `i'`: that is
the same identity, or it is a fresh one, and `i` is fresh too or `host` has it. -/
def SameOrFresh (host : Graph) (s s' t t' : Supply) (i i' : NodeId) : Prop :=
  i' = i ∨ (i ∈ host.nodeIds ∨ s.Gave t i.uuid) ∧ s'.Gave t' i'.uuid

theorem SameOrFresh.mono {host : Graph} {s s' t t' u u' : Supply} {i i' : NodeId}
    (h : SameOrFresh host s s' t t' i i') (ht : t.Reaches u) (ht' : t'.Reaches u') :
    SameOrFresh host s s' u u' i i' :=
  h.imp_right fun hnew => ⟨hnew.1.imp_right fun hi => hi.mono ht, hnew.2.mono ht'⟩

/-- The identities of nodes that correspond. -/
def idPairs (ns : List (Node × Node)) : List (NodeId × NodeId) :=
  ns.map fun a => (a.1.id, a.2.id)

/-- A document that names the nodes `ids` has been read so far by two runs, on the left from an empty
graph on and on the right from `host` on. The nodes `ns` and the links `ls` that came in correspond,
and `done` is what the entries of the nodes have written as their identities. -/
structure Abreast (n n' : Nat) (name : String) (host : Graph) (ids : List NodeId) (s s' : Supply)
    (done : List (Option NodeId)) (ns : List (Node × Node)) (ls : List (Link × Link))
    (st st' : Loading) : Prop where
  left : Tracks n (Graph.empty name) ids s done st
  right : Tracks n' host ids s' done st'
  beside : Graph.Beside host st.graph st'.graph ns ls
  /-- Identities of the document lead to nodes that correspond. -/
  loaded : ∀ d ∈ ids, Option.Rel (fun i i' => (i, i') ∈ idPairs ns) (st.loaded.get? d)
    (st'.loaded.get? d)
  identities : ∀ x ∈ idPairs ns, SameOrFresh host s s' st.supply st'.supply x.1 x.2
  warnings : List.Forall₂ (LoadWarning.Matches (idPairs ns)) st.report.warnings
    st'.report.warnings
  nodes : st.report.nodes = (idPairs ns).map Prod.fst
  nodes' : st'.report.nodes = (idPairs ns).map Prod.snd
  links : st'.report.links = st.report.links

namespace Abreast

variable {n n' : Nat} {name : String} {host : Graph} {ids : List NodeId} {s s' : Supply}
  {done : List (Option NodeId)} {ns : List (Node × Node)} {ls : List (Link × Link)}
  {st st' : Loading} (h : Abreast n n' name host ids s s' done ns ls st st')
include h

/-- An entry is left out on both sides. -/
theorem leaveOut {r r' : Supply} (hr : st.supply.Reaches r) (hr' : st'.supply.Reaches r')
    (hn : r.next ≤ n) (hn' : r'.next ≤ n') {ws ws' : List LoadWarning}
    (hws : List.Forall₂ (LoadWarning.Matches (idPairs ns)) ws ws') :
    Abreast n n' name host ids s s' done ns ls ⟨st.graph, r, st.loaded, st.report.warn ws⟩
      ⟨st'.graph, r', st'.loaded, st'.report.warn ws'⟩ :=
  { h with
    left := h.left.leaveOut hr hn ws
    right := h.right.leaveOut hr' hn' ws'
    identities := fun x hx => (h.identities x hx).mono hr hr'
    warnings := List.rel_append h.warnings hws }

/-! ### Nodes -/

/-- An identity of the document leads somewhere on both sides or on neither. -/
theorem loaded_none_iff {d : NodeId} (hd : d ∈ ids) :
    st'.loaded.get? d = none ↔ st.loaded.get? d = none := by
  have hrel := h.loaded d hd
  generalize st.loaded.get? d = o, st'.loaded.get? d = o' at hrel ⊢
  cases hrel with
  | none => exact Iff.rfl
  | some => exact iff_of_false (Option.some_ne_none _) (Option.some_ne_none _)

section Nodes

variable (hs : s.Fresh n (ids.map NodeId.uuid ++ (Graph.empty name).uuids))
  (hs' : s'.Fresh n' (ids.map NodeId.uuid ++ host.uuids))
  {e : NodeEntry} (he : ∀ d, e.written = some d → d ∈ ids)
include hs hs' he

/-- Both sides find the same repetition. -/
theorem repeated_eq (hn : (st.choice e).2.next ≤ n) (hn' : (st'.choice e).2.next ≤ n')
    (index : Nat) :
    repeated { st' with supply := (e.claim st'.supply).2 } index (e.claim st'.supply).1 =
      repeated { st with supply := (e.claim st.supply).2 } index (e.claim st.supply).1 := by
  cases hw : e.written with
  | none =>
    have hnew := (h.left.choice_spec hs he hn).2.1 hw
    have hnew' := (h.right.choice_spec hs' he hn').2.1 hw
    simp only [repeated, Table.has, hnew, hnew', Option.isSome_none, Bool.false_eq_true, if_false]
  | some d =>
    have hhas : st'.loaded.has d = st.loaded.has d := by
      rw [Table.has, Table.has, Bool.eq_iff_iff, Option.isSome_iff_ne_none,
        Option.isSome_iff_ne_none, Ne, Ne, h.loaded_none_iff (he d hw)]
    simp only [repeated, NodeEntry.claim, hw, hhas]

/-- The two identities that are chosen for the node of an entry. -/
theorem choice_pair (hn : (st.choice e).2.next ≤ n) (hn' : (st'.choice e).2.next ≤ n') :
    SameOrFresh host s s' (st.choice e).2 (st'.choice e).2 (st.choice e).1 (st'.choice e).1 := by
  rcases (h.left.choice_spec hs he hn).2.2 with ⟨d, hw, hnew, -, heq⟩ | ⟨hgave, hnothing⟩
  · rcases (h.right.choice_spec hs' he hn').2.2 with ⟨d', hw', -, -, heq'⟩ | ⟨hgave', htaken⟩
    · obtain rfl := Option.some.inj (hw.symm.trans hw')
      exact .inl (heq'.trans heq.symm)
    · exact .inr ⟨.inl (heq ▸ htaken d hw ((h.loaded_none_iff (he d hw)).mpr hnew)), hgave'⟩
  · rcases (h.right.choice_spec hs' he hn').2.2 with ⟨d, hw, hnew, -, -⟩ | ⟨hgave', -⟩
    · -- the left side would have taken the identity that is written, since nothing has it there
      exact absurd (hnothing d hw ((h.loaded_none_iff (he d hw)).mp hnew)) List.not_mem_nil
    · exact .inr ⟨.inr hgave, hgave'⟩

/-- The node of an entry comes in on both sides. -/
theorem comeIn {m m' : Node} {r r' : Supply} (hid : m.id = (st.choice e).1)
    (hid' : m'.id = (st'.choice e).1) (hdrawn : m.DrawnBetween (st.choice e).2 r)
    (hdrawn' : m'.DrawnBetween (st'.choice e).2 r') (hn : r.next ≤ n) (hn' : r'.next ≤ n')
    (hblank : m.blank = m'.blank) {ws ws' : List LoadWarning}
    (hws : List.Forall₂ (LoadWarning.Matches (idPairs (ns ++ [(m, m')]))) ws ws') (index : Nat) :
    Abreast n n' name host ids s s' (done ++ [e.written]) (ns ++ [(m, m')]) ls
      (addNode ⟨st.graph, r, st.loaded, st.report.warn ws⟩ index e.typeName
        (e.claim st.supply).1 (st.loaded.has (e.claim st.supply).1) m)
      (addNode ⟨st'.graph, r', st'.loaded, st'.report.warn ws'⟩ index e.typeName
        (e.claim st'.supply).1 (st'.loaded.has (e.claim st'.supply).1) m') := by
  obtain ⟨g, hadd⟩ := h.left.exists_addNode hs he hid hdrawn hn
  obtain ⟨g', hadd'⟩ := h.right.exists_addNode hs' he hid' hdrawn' hn'
  have hleft := h.left.takeIn hs he hid hdrawn hn hadd ws
  have hright := h.right.takeIn hs' he hid' hdrawn' hn' hadd' ws'
  have hclaim := (st.claim_reaches_choice e).trans hdrawn.reaches
  have hclaim' := (st'.claim_reaches_choice e).trans hdrawn'.reaches
  have hpair := h.choice_pair hs hs' he (hdrawn.reaches.le.trans hn) (hdrawn'.reaches.le.trans hn')
  have hpairs : idPairs (ns ++ [(m, m')]) = idPairs ns ++ [(m.id, m'.id)] := List.map_append
  have hsub : idPairs ns ⊆ idPairs (ns ++ [(m, m')]) := hpairs ▸ List.subset_append_left _ _
  rw [addNode_eq_takeIn hadd, addNode_eq_takeIn hadd']
  exact {
    left := hleft
    right := hright
    beside := h.beside.addNode hblank hadd hadd' (hleft.healthy.wellFormed hleft.within)
      (hright.healthy.wellFormed hright.within)
    loaded := fun d hd => by
      rw [get?_takeIn, get?_takeIn]
      refine rel_or (rel_mono (fun _ _ hx => hsub hx) (h.loaded d hd)) ?_
      simp only [h.left.claim_eq_iff hs (hclaim.le.trans hn) hd,
        h.right.claim_eq_iff hs' (hclaim'.le.trans hn') hd]
      split
      · exact .some (by simp [hpairs])
      · exact .none
    identities := fun x hx => by
      rcases List.mem_append.mp (hpairs ▸ hx) with hx | hx
      · exact (h.identities x hx).mono ((st.choice_reaches e).trans hdrawn.reaches)
          ((st'.choice_reaches e).trans hdrawn'.reaches)
      · obtain rfl := List.mem_singleton.mp hx
        rw [hid, hid']
        exact hpair.mono hdrawn.reaches hdrawn'.reaches
    warnings := List.rel_append (h.warnings.imp fun _ _ hw => hw.mono hsub) hws
    nodes := by rw [takeIn, h.nodes, hpairs, List.map_append]; rfl
    nodes' := by rw [takeIn, h.nodes', hpairs, List.map_append]; rfl
    links := h.links }

end Nodes

/-- **The entry of a node** is restored on both sides or left out on both. -/
theorem node (hs : s.Fresh n (ids.map NodeId.uuid ++ (Graph.empty name).uuids))
    (hs' : s'.Fresh n' (ids.map NodeId.uuid ++ host.uuids)) {r : Registry} (hr : r.Regular) {j : Json}
    (hj : ∀ e, readEntry j = .ok e → ∀ d, e.written = some d → d ∈ ids) (index : Nat)
    (hn : (loadNodeBy r st (j, index)).supply.next ≤ n)
    (hn' : (loadNodeBy r st' (j, index)).supply.next ≤ n') :
    ∃ ns', Abreast n n' name host ids s s' (done ++ (restored? r j).toList) ns' ls
      (loadNodeBy r st (j, index)) (loadNodeBy r st' (j, index)) := by
  cases hentry : readEntry j with
  | error fault =>
    have hdone : (restored? r j).toList = [] := by simp only [restored?, hentry, Option.toList_none]
    rw [loadNodeBy_of_error hentry, loadNodeBy_of_error hentry, hdone, List.append_nil]
    refine ⟨ns, h.leaveOut (.refl _) (.refl _) h.left.within h.right.within ?_⟩
    exact LoadWarning.matches_general (List.forall_mem_singleton.mpr trivial)
  | ok e =>
    have he := hj e hentry
    rw [loadNodeBy_of_ok hentry] at hn hn' ⊢
    rw [loadNodeBy_of_ok hentry]
    cases hrestored : e.isRestored r with
    | false =>
      have hdone : (restored? r j).toList = [] := by simp [restored?, hentry, hrestored]
      obtain ⟨w, hw, hleft⟩ := restoreNodeBy_of_not_restored hr hrestored index
      obtain ⟨u, hu, heq⟩ := hleft { st with supply := (e.claim st.supply).2 } (e.claim st.supply).1
      obtain ⟨u', hu', heq'⟩ :=
        hleft { st' with supply := (e.claim st'.supply).2 } (e.claim st'.supply).1
      rw [heq] at hn ⊢
      rw [heq'] at hn' ⊢
      rw [hdone, List.append_nil, h.repeated_eq hs hs' he (hu.le.trans hn) (hu'.le.trans hn')]
      refine ⟨ns, h.leaveOut ((st.choice_reaches e).trans hu) ((st'.choice_reaches e).trans hu') hn
        hn' (LoadWarning.matches_general ?_)⟩
      exact List.forall_mem_append.mpr ⟨repeated_general _ _ _, List.forall_mem_singleton.mpr hw⟩
    | true =>
      have hdone : (restored? r j).toList = [e.written] := by simp [restored?, hentry, hrestored]
      obtain ⟨b, faults, hin⟩ := restoreNodeBy_of_restored hr hrestored index
      obtain ⟨m, u, hid, hblank, hdrawn, heq⟩ :=
        hin { st with supply := (e.claim st.supply).2 } (e.claim st.supply).1
      obtain ⟨m', u', hid', hblank', hdrawn', heq'⟩ :=
        hin { st' with supply := (e.claim st'.supply).2 } (e.claim st'.supply).1
      rw [heq, supply_addNode] at hn
      rw [heq', supply_addNode] at hn'
      rw [hdone, heq, heq', h.repeated_eq hs hs' he (hdrawn.reaches.le.trans hn)
        (hdrawn'.reaches.le.trans hn')]
      refine ⟨ns ++ [(m, m')], h.comeIn hs hs' he hid hid' hdrawn hdrawn' hn hn'
        (hblank.trans hblank'.symm) ?_ index⟩
      exact List.rel_append (LoadWarning.matches_general (repeated_general _ _ _))
        (LoadWarning.matches_fields (by simp [idPairs]) faults)

/-- The nodes of a document are read. -/
theorem nodes_run (hs : s.Fresh n (ids.map NodeId.uuid ++ (Graph.empty name).uuids))
    (hs' : s'.Fresh n' (ids.map NodeId.uuid ++ host.uuids)) {r : Registry} (hr : r.Regular) (js : List Json)
    (hjs : ∀ j ∈ js, ∀ e, readEntry j = .ok e → ∀ d, e.written = some d → d ∈ ids) (index : Nat)
    (hn : ((js.zipIdx index).foldl (loadNodeBy r) st).supply.next ≤ n)
    (hn' : ((js.zipIdx index).foldl (loadNodeBy r) st').supply.next ≤ n') :
    ∃ ns', Abreast n n' name host ids s s' (done ++ js.filterMap (restored? r)) ns' ls
      ((js.zipIdx index).foldl (loadNodeBy r) st) ((js.zipIdx index).foldl (loadNodeBy r) st') := by
  induction js generalizing done ns st st' index with
  | nil => exact ⟨ns, by rw [List.filterMap_nil, List.append_nil]; exact h⟩
  | cons j js ih =>
    have hrest := (foldl_reaches (loadNodeBy_reaches hr) (js.zipIdx (index + 1)) _).le.trans hn
    have hrest' := (foldl_reaches (loadNodeBy_reaches hr) (js.zipIdx (index + 1)) _).le.trans hn'
    obtain ⟨ns₁, h₁⟩ := h.node hs hs' hr (hjs j List.mem_cons_self) index hrest hrest'
    obtain ⟨ns₂, h₂⟩ := ih h₁ (fun j' hj' => hjs j' (List.mem_cons_of_mem _ hj')) (index + 1) hn hn'
    refine ⟨ns₂, ?_⟩
    have hdone : (j :: js).filterMap (restored? r) =
        (restored? r j).toList ++ js.filterMap (restored? r) := by
      rw [List.filterMap_cons]
      cases restored? r j <;> rfl
    rw [hdone, ← List.append_assoc]
    exact h₂

/-! ### Links -/

/-- The ends that an entry names are pins in the same places, or the same is missing. -/
theorem linkEnds_rel {e : LinkEntry} (hfrom : e.fromNode ∈ ids) (hto : e.toNode ∈ ids) :
    (∃ missing, st.linkEnds e = .error missing ∧ st'.linkEnds e = .error missing) ∨
      ∃ a ∈ ns, ∃ b ∈ ns, ∃ p ∈ a.1.pins.zip a.2.pins, ∃ q ∈ b.1.pins.zip b.2.pins,
        st.linkEnds e = .ok (p.1.id, q.1.id) ∧ st'.linkEnds e = .ok (p.2.id, q.2.id) := by
  have hsource := h.loaded _ hfrom
  have htarget := h.loaded _ hto
  rw [linkEnds, linkEnds]
  generalize st.loaded.get? e.fromNode = i, st'.loaded.get? e.fromNode = i' at hsource ⊢
  generalize st.loaded.get? e.toNode = k, st'.loaded.get? e.toNode = k' at htarget ⊢
  cases hsource with
  | none => exact .inl ⟨_, rfl, rfl⟩
  | some hsource =>
    cases htarget with
    | none => exact .inl ⟨_, rfl, rfl⟩
    | some htarget =>
      obtain ⟨a, ha, hia⟩ := List.mem_map.mp hsource
      obtain ⟨b, hb, hkb⟩ := List.mem_map.mp htarget
      obtain ⟨rfl, rfl⟩ := Prod.mk.inj hia
      obtain ⟨rfl, rfl⟩ := Prod.mk.inj hkb
      have hp := h.beside.findPin? ha .output e.fromPin
      have hq := h.beside.findPin? hb .input e.toPin
      dsimp only
      generalize st.graph.findPin? a.1.id .output e.fromPin = o,
        st'.graph.findPin? a.2.id .output e.fromPin = o' at hp ⊢
      generalize st.graph.findPin? b.1.id .input e.toPin = t,
        st'.graph.findPin? b.2.id .input e.toPin = t' at hq ⊢
      cases hp with
      | none => exact .inl ⟨_, rfl, rfl⟩
      | some hp =>
        cases hq with
        | none => exact .inl ⟨_, rfl, rfl⟩
        | some hq => exact .inr ⟨a, ha, b, hb, _, hp, _, hq, rfl, rfl⟩

/-- **The entry of a link** is restored on both sides or left out on both. -/
theorem link {j : Json} (hj : ∀ e, linkEntry? j = some e → e.fromNode ∈ ids ∧ e.toNode ∈ ids)
    (index : Nat) (hn : (loadLink st (j, index)).supply.next ≤ n)
    (hn' : (loadLink st' (j, index)).supply.next ≤ n') :
    ∃ ls', Abreast n n' name host ids s s' done ns ls' (loadLink st (j, index))
      (loadLink st' (j, index)) := by
  have hwarn : ∀ {w w' : LoadWarning}, LoadWarning.Matches (idPairs ns) w w' →
      ∃ ls', Abreast n n' name host ids s s' done ns ls' (st.warn w) (st'.warn w') := fun hw =>
    ⟨ls, h.leaveOut (.refl _) (.refl _) h.left.within h.right.within (.cons hw .nil)⟩
  cases hentry : linkEntry? j with
  | none =>
    simp only [loadLink, hentry]
    exact hwarn (.same trivial)
  | some e =>
    obtain ⟨hfrom, hto⟩ := hj e hentry
    rcases h.linkEnds_rel hfrom hto with
      ⟨missing, hends, hends'⟩ | ⟨a, ha, b, hb, p, hp, q, hq, hends, hends'⟩
    · simp only [loadLink, hentry, hends, hends']
      exact hwarn (.same trivial)
    · cases hlink : st.graph.link st.supply.takeLink.1 p.1.id q.1.id with
      | error reason =>
        obtain ⟨reason', hlink', hblank⟩ :=
          h.beside.link_error ha hb hp hq hlink st'.supply.takeLink.1
        simp only [loadLink, hentry, hends, hends', hlink, hlink']
        exact hwarn (.refusal index hblank)
      | ok g =>
        obtain ⟨g', k, hlink', hbeside⟩ := h.beside.link ha hb hp hq hlink st'.supply.takeLink.1
        simp only [loadLink, hentry, hends, hends', hlink, hlink'] at hn hn' ⊢
        exact ⟨ls ++ [k], { h with
          left := h.left.link hlink (.takeLink _) hn
          right := h.right.link hlink' (.takeLink _) hn'
          beside := hbeside
          identities := fun x hx => (h.identities x hx).mono (.takeLink _) (.takeLink _)
          links := congrArg (· + 1) h.links }⟩

/-- The links of a document are read. -/
theorem links_run (js : List Json)
    (hjs : ∀ j ∈ js, ∀ e, linkEntry? j = some e → e.fromNode ∈ ids ∧ e.toNode ∈ ids) (index : Nat)
    (hn : ((js.zipIdx index).foldl loadLink st).supply.next ≤ n)
    (hn' : ((js.zipIdx index).foldl loadLink st').supply.next ≤ n') :
    ∃ ls', Abreast n n' name host ids s s' done ns ls' ((js.zipIdx index).foldl loadLink st)
      ((js.zipIdx index).foldl loadLink st') := by
  induction js generalizing ls st st' index with
  | nil => exact ⟨ls, h⟩
  | cons j js ih =>
    have hrest := (foldl_reaches loadLink_reaches (js.zipIdx (index + 1)) _).le.trans hn
    have hrest' := (foldl_reaches loadLink_reaches (js.zipIdx (index + 1)) _).le.trans hn'
    obtain ⟨ls₁, h₁⟩ := h.link (hjs j List.mem_cons_self) index hrest hrest'
    exact ih h₁ (fun j' hj' => hjs j' (List.mem_cons_of_mem _ hj')) (index + 1) hn hn'

end Abreast

end Loading

/-! ## Documents -/

/-- The items of a list in a document; there are none if it is missing or something else. -/
def Json.listed (doc : Json) (key : String) : List Json := ((doc.field? key).bind items?).getD []

namespace Loading

/-- The identities that a document names, as those of its nodes or as ends of its links. -/
def namedIds (doc : Json) : List NodeId :=
  (doc.listed "nodes").filterMap (fun j => (readEntry j).toOption.bind NodeEntry.written) ++
    (doc.listed "links").flatMap fun j =>
      ( linkEntry? j).elim [] fun e => [e.fromNode, e.toNode]

theorem written_mem_namedIds {doc j : Json} (hj : j ∈ doc.listed "nodes") {e : NodeEntry}
    (hentry : readEntry j = .ok e) {d : NodeId} (hd : e.written = some d) : d ∈ namedIds doc :=
  List.mem_append_left _ (List.mem_filterMap.mpr ⟨j, hj, by rw [hentry]; exact hd⟩)

/-- An identity that a restored entry writes is one of the document. -/
theorem restored_mem_namedIds {doc : Json} {r : Registry} {d : NodeId}
    (h : some d ∈ (doc.listed "nodes").filterMap (restored? r)) : d ∈ namedIds doc := by
  obtain ⟨j, hj, hrestored⟩ := List.mem_filterMap.mp h
  cases hentry : readEntry j with
  | error => simp [restored?, hentry] at hrestored
  | ok e =>
    simp only [restored?, hentry, Option.ite_none_right_eq_some, Option.some.injEq] at hrestored
    exact written_mem_namedIds hj hentry hrestored.2

theorem ends_mem_namedIds {doc j : Json} (hj : j ∈ doc.listed "links") {e : LinkEntry}
    (hentry : linkEntry? j = some e) : e.fromNode ∈ namedIds doc ∧ e.toNode ∈ namedIds doc := by
  have hsub : [e.fromNode, e.toNode] ⊆ namedIds doc := fun d hd =>
    List.mem_append_right _ (List.mem_flatMap.mpr ⟨j, hj, by rw [hentry]; exact hd⟩)
  exact ⟨hsub (.head _), hsub (.tail _ (.head _))⟩

/-- The entries of a list in a document, and what is said if it is something else. -/
theorem entries_eq {doc : Json} {root : Fields} (hroot : doc.fields? = some root) (key : String) :
    ∃ ws, (∀ w ∈ ws, w.subject = .document) ∧
      entries root key = ((doc.listed key).zipIdx, ws) := by
  have hfield : doc.field? key = root.get? key := by rw [Json.field?, hroot, Option.bind_some]
  rw [entries, Json.listed, hfield]
  split
  · rename_i hget
    exact ⟨[], List.forall_mem_nil _, by rw [hget]; rfl⟩
  · rename_i items hget
    exact ⟨[], List.forall_mem_nil _, by rw [hget]; rfl⟩
  · rename_i j hlist hget
    refine ⟨[.malformedDocument key], List.forall_mem_singleton.mpr rfl, ?_⟩
    rw [hget]
    cases j with
    | array items => exact absurd rfl (hlist items)
    | _ => rfl

/-- The document has been merged into `g`, and `loaded` is what loading it comes to: a copy of that
has been put beside `g`. -/
structure MergedBeside (g : Graph) (r : Registry) (doc : Json) (s s' : Supply)
    (loaded merged : Loading) : Prop where
  name : merged.graph.name = g.name
  reported : loaded.report.nodes = loaded.graph.nodeIds
  /-- The nodes of `g` are as they were; the new ones are like those that are loaded. -/
  nodes : ∃ new, merged.graph.nodes = g.nodes ++ new ∧
    new.map Node.blank = loaded.graph.nodes.map Node.blank ∧
    merged.report.nodes = new.map Node.id
  /-- An identity that is not the one that is loaded is fresh, and what is loaded is fresh too or
  collides with `g`. -/
  identities : ∀ x ∈ loaded.report.nodes.zip merged.report.nodes, x.2 = x.1 ∨
    (x.1 ∈ g.nodeIds ∨ s.Gave loaded.supply x.1.uuid) ∧ s'.Gave merged.supply x.2.uuid
  /-- The links of `g` are as they were; the new ones join the same pins by name, and they stay away
  from the nodes of `g`. -/
  links : ∃ new, merged.graph.links = g.links ++ new ∧
    List.Forall₂ (fun l l' => ∃ e, loaded.graph.entryOf? l = some e ∧
      merged.graph.entryOf? l' =
        some (e.rename (Remap.resolve (loaded.report.nodes.zip merged.report.nodes))))
      loaded.graph.links new ∧
    ∀ l ∈ new, ∀ n ∈ g.nodeIds, l.involvesNode n = false
  linkCount : merged.report.links = loaded.report.links
  warnings : List.Forall₂ (LoadWarning.Matches (loaded.report.nodes.zip merged.report.nodes))
    loaded.report.warnings merged.report.warnings
  /-- The new nodes are those of the entries that are restored, one for each. -/
  restored : ((doc.listed "nodes").filterMap (restored? r)).length = merged.report.nodes.length
  /-- An identity that a restored entry writes leads to the node of the first entry that does. -/
  first : ∀ d, some d ∈ (doc.listed "nodes").filterMap (restored? r) →
    (((doc.listed "nodes").filterMap (restored? r)).zip merged.report.nodes).lookup (some d) =
      some (merged.report.remap.resolve d)

section Abreast

variable {n n' : Nat} {name : String} {host : Graph} {s s' : Supply} {r : Registry} {doc : Json}
  {ns : List (Node × Node)} {ls : List (Link × Link)} {st st' : Loading}

/-- Nothing has been read on either side. -/
theorem abreast_start {ids : List NodeId} (hhost : host.WellFormed) (name : String)
    (hs : s.Fresh n (ids.map NodeId.uuid ++ (Graph.empty name).uuids))
    (hs' : s'.Fresh n' (ids.map NodeId.uuid ++ host.uuids)) (hn : s.next ≤ n) (hn' : s'.next ≤ n')
    {ws : List LoadWarning} (hws : ∀ w ∈ ws, w.IsGeneral) :
    Abreast n n' name host ids s s' [] [] [] ⟨Graph.empty name, s, [], LoadReport.empty.warn ws⟩
      ⟨host, s', [], LoadReport.empty.warn ws⟩ where
  left := tracks_start (Graph.wellFormed_empty name) hs hn ws
  right := tracks_start hhost hs' hn' ws
  beside := Graph.beside_empty hhost name
  loaded := fun _ _ => .none
  identities := List.forall_mem_nil _
  warnings := LoadWarning.matches_general hws
  nodes := rfl
  nodes' := rfl
  links := rfl

/-- Everything has been read on both sides. -/
theorem Abreast.mergedBeside (h : Abreast n n' name host (namedIds doc) s s'
      ((doc.listed "nodes").filterMap (restored? r)) ns ls st st') :
    MergedBeside host r doc s s' st st' := by
  have hzip : st.report.nodes.zip st'.report.nodes = idPairs ns := by
    rw [h.nodes, h.nodes', ← List.unzip_fst, ← List.unzip_snd, List.zip_unzip]
  have hresolve : ∀ a ∈ ns, Remap.resolve (idPairs ns) a.1.id = a.2.id := by
    intro a ha
    have hkeys : (Table.keys (idPairs ns)).Nodup := by
      rw [Table.keys, idPairs, List.map_map]
      exact h.beside.nodup_left
    rw [Remap.resolve, (Table.get?_eq_some_iff hkeys).mpr (List.mem_map_of_mem ha), Option.getD_some]
  exact {
    name := h.beside.name
    reported := by
      rw [h.nodes, Graph.nodeIds, h.beside.nodes, idPairs, List.map_map, List.map_map]
      rfl
    nodes := ⟨_, h.beside.nodes', h.beside.nodes_blank, by
      rw [h.nodes', idPairs, List.map_map, List.map_map]
      rfl⟩
    identities := hzip ▸ h.identities
    links := by
      refine ⟨_, h.beside.links', ?_, ?_⟩
      · rw [hzip, h.beside.links, List.forall₂_map_left_iff, List.forall₂_map_right_iff]
        refine List.forall₂_same.mpr fun k hk => ?_
        obtain ⟨a, b, p, q, hk⟩ := h.beside.linked k hk
        obtain ⟨hleft, hright⟩ := h.beside.entryOf?_eq hk
        refine ⟨_, hleft, hright.trans ?_⟩
        rw [LinkEntry.rename, hresolve a hk.source, hresolve b hk.target]
      · intro l hl m hm
        obtain ⟨k, hk, rfl⟩ := List.mem_map.mp hl
        exact h.beside.involvesNode_eq hk hm
    linkCount := h.links
    warnings := hzip ▸ h.warnings
    restored := h.right.count
    first := fun d hmem => by
      rw [h.right.remap, h.right.first d (restored_mem_namedIds hmem)]
      rw [← List.map_fst_zip h.right.count.le] at hmem
      obtain ⟨x, hx, hxd⟩ := List.mem_map.mp hmem
      cases hlookup : (List.zip _ _).lookup (some d) with
      | none => exact absurd hxd.symm (by simpa using List.lookup_eq_none_iff.mp hlookup x hx)
      | some i => rfl }

end Abreast

end Loading

namespace Graph

/-- Merging reads the two lists of a document one after the other, if it accepts the document, and
whether it does has nothing to do with the graph. -/
theorem mergeBy_cases (doc : Json) :
    (∃ e, ∀ g r s, Graph.mergeBy g r s doc = .error e) ∨
      ∃ ws bad : List LoadWarning,
        (∀ w ∈ ws, w.subject = .document) ∧ (∀ w ∈ bad, w.subject = .document) ∧
        ∀ g r s, ∃ st, st = (doc.listed "nodes").zipIdx.foldl (Loading.loadNodeBy r)
            ⟨g, s, [], LoadReport.empty.warn ws⟩ ∧
          Graph.mergeBy g r s doc = .ok ((doc.listed "links").zipIdx.foldl Loading.loadLink
            ⟨st.graph, st.supply, st.loaded, st.report.warn bad⟩) := by
  cases hroot : doc.fields? with
  | none => exact .inl ⟨.notAnObject, fun g r s => by simp only [mergeBy, hroot]⟩
  | some root =>
    cases hformat : checkFormat root with
    | error e => exact .inl ⟨e, fun g r s => by simp only [mergeBy, hroot, hformat]⟩
    | ok ws =>
      obtain ⟨bad, hbad, hnodes⟩ := Loading.entries_eq hroot "nodes"
      obtain ⟨bad', hbad', hlinks⟩ := Loading.entries_eq hroot "links"
      refine .inr ⟨ws ++ bad, bad', List.forall_mem_append.mpr ⟨checkFormat_subject hformat, hbad⟩,
        hbad', fun g r s => ⟨_, rfl, ?_⟩⟩
      simp only [mergeBy, hroot, hformat, hnodes, hlinks, LoadReport.warn, List.append_assoc]

/-- **Merging a document is loading it beside the graph.** Merging accepts what loading accepts. If
no identity is drawn twice in one run, or is one of the document or of the graph, then a copy of what
is loaded is put beside the graph. This holds with any node types that are regular. -/
theorem merge_beside {g : Graph} (hg : g.WellFormed) {r : Registry} (hr : r.Regular) {s : Supply}
    {doc : Json} {loaded : Loading} (hload : Graph.loadBy r s doc = .ok loaded)
    (hs : s.Fresh loaded.supply.next ((Loading.namedIds doc).map NodeId.uuid)) (s' : Supply) :
    ∃ merged, g.mergeBy r s' doc = .ok merged ∧
      (s'.Fresh merged.supply.next ((Loading.namedIds doc).map NodeId.uuid ++ g.uuids) →
        Loading.MergedBeside g r doc s s' loaded merged) := by
  rcases mergeBy_cases doc with ⟨e, hrefused⟩ | ⟨ws, bad, hws, hbad, hread⟩
  · rw [Graph.loadBy, hrefused] at hload
    cases hload
  obtain ⟨st, hst, hmerge⟩ := hread (Graph.empty (documentName doc)) r s
  obtain ⟨st', hst', hmerge'⟩ := hread g r s'
  obtain rfl := Except.ok.inj (hmerge.symm.trans hload)
  refine ⟨_, hmerge', fun hs' => ?_⟩
  -- both runs take identities up to where they end, so that what is fresh there is fresh all along
  have hnodes : s.Reaches st.supply := hst ▸
    Loading.foldl_reaches (Loading.loadNodeBy_reaches hr) _ ⟨_, s, [], _⟩
  have hnodes' : s'.Reaches st'.supply := hst' ▸
    Loading.foldl_reaches (Loading.loadNodeBy_reaches hr) _ ⟨_, s', [], _⟩
  have hlinks := (Loading.foldl_reaches Loading.loadLink_reaches (doc.listed "links").zipIdx
    ⟨st.graph, st.supply, st.loaded, st.report.warn bad⟩).le
  have hlinks' := (Loading.foldl_reaches Loading.loadLink_reaches (doc.listed "links").zipIdx
    ⟨st'.graph, st'.supply, st'.loaded, st'.report.warn bad⟩).le
  have hs := hs.append_empty (documentName doc)
  have hstart := Loading.abreast_start hg (documentName doc) hs hs' (hnodes.le.trans hlinks)
    (hnodes'.le.trans hlinks') fun w hw => LoadWarning.isGeneral_of_document (hws w hw)
  obtain ⟨ns, hmiddle⟩ := hstart.nodes_run hs hs' hr (doc.listed "nodes")
    (fun j hj e hentry d hd => Loading.written_mem_namedIds hj hentry hd) 0 (hst ▸ hlinks)
    (hst' ▸ hlinks')
  rw [← hst, ← hst', List.nil_append] at hmiddle
  have hwarned := hmiddle.leaveOut (.refl _) (.refl _) hlinks hlinks'
    (LoadWarning.matches_general fun w hw => LoadWarning.isGeneral_of_document (hbad w hw))
  obtain ⟨ls, hend⟩ := hwarned.links_run (doc.listed "links")
    (fun j hj e hentry => Loading.ends_mem_namedIds hj hentry) 0 le_rfl le_rfl
  exact hend.mergedBeside

/-- The entry of a node in the example. -/
def exampleEntry (typeName : String) (id : Nat) (fields : List (String × Json)) : Json :=
  .ofFields ([("type", .string typeName), ("id", .string (Uuid.ofNat id).toText)] ++ fields)

/-- A host type whose nodes publish a truth value. -/
def switchType : ScriptedType where
  info := ⟨"Switch", 1, .internal, "Host"⟩
  display := "Switch"
  pins := [⟨"Out", .output, .bool, none⟩]
  flowIn := none
  flowOut := none
  dataIn := []
  dataOut := [⟨.output, "Out"⟩]
  script := [.set ⟨.output, "Out"⟩ (.bool false), .halt]
  noteReset := false

/-- The truth value has a field of its own in documents. -/
def readSwitch : OwnFields := fun fields t =>
  match fields.get? "on" with
  | none => .ok (t, [])
  | some (.bool b) => .ok ({ t with script := [.set ⟨.output, "Out"⟩ (.bool b), .halt] }, [])
  | some _ => .ok (t, [("on", .other "expected true or false")])

/-- The built-in types and the host type, which overrides how its nodes read documents. -/
def hosted : Registry :=
  Catalog.builtin.registry.register "Switch" (.overriding switchType readSwitch)

theorem hosted_regular : hosted.Regular :=
  Registry.All.register (Catalog.registry_regular .builtin) "Switch" (Factory.overriding_regular _ _)

/-- A document with a switch under an identity that `pullAhead` has, another one under the same identity,
an entry of no known type, and a branch that is to ask the switch twice. -/
def switches : Json :=
  let asked := Loading.LinkEntry.toJson ⟨⟨.ofNat 5⟩, "Out", ⟨.ofNat 6⟩, "Condition"⟩
  .ofFields
    [("name", .string "switches"),
      ("nodes", .array
        [exampleEntry "Switch" 5 [("on", .bool true)], exampleEntry "Switch" 5 [("on", .ofNat 1)],
          exampleEntry "Mystery" 7 [], exampleEntry "Branch" 6 []]),
      ("links", .array [asked, asked])]

/-- The first switch gives way to the node that the example has under its identity, the second one is new
in any case, and the branch keeps its identity. The first switch has been turned on. -/
theorem pullAhead_merge_switches : hosted.Regular ∧ ∃ loaded merged,
    Graph.loadBy hosted (.countingFrom 100) switches = .ok loaded ∧
      pullAhead.mergeBy hosted (.countingFrom 200) switches = .ok merged ∧
      Loading.MergedBeside pullAhead hosted switches (.countingFrom 100) (.countingFrom 200) loaded
        merged ∧
      loaded.report.nodes = [⟨.ofNat 5⟩, ⟨Supply.randomKind 101⟩, ⟨.ofNat 6⟩] ∧
      merged.report.nodes = [⟨Supply.randomKind 200⟩, ⟨Supply.randomKind 202⟩, ⟨.ofNat 6⟩] ∧
      merged.graph.nodes.filterMap (fun n => n.body.hostType?.map ScriptedType.script) =
        [[.set ⟨.output, "Out"⟩ (.bool true), .halt],
          [.set ⟨.output, "Out"⟩ (.bool false), .halt]] := by
  have hloads : (Graph.loadBy hosted (.countingFrom 100) switches).toOption.map
      (fun st => (st.supply.next, st.report.nodes)) =
        some (8, [⟨.ofNat 5⟩, ⟨Supply.randomKind 101⟩, ⟨.ofNat 6⟩]) := by decide +kernel
  have hmerges : (pullAhead.mergeBy hosted (.countingFrom 200) switches).toOption.map
      (fun st => (st.supply.next, st.report.nodes,
        st.graph.nodes.filterMap fun n => n.body.hostType?.map ScriptedType.script)) =
        some (9, [⟨Supply.randomKind 200⟩, ⟨Supply.randomKind 202⟩, ⟨.ofNat 6⟩],
          [[.set ⟨.output, "Out"⟩ (.bool true), .halt],
            [.set ⟨.output, "Out"⟩ (.bool false), .halt]]) := by
    decide +kernel
  have hunused : ∀ i < 8, (Supply.countingFrom 100).draw i ∉
      (Loading.namedIds switches).map NodeId.uuid := by decide +kernel
  have hunused' : ∀ i < 9, (Supply.countingFrom 200).draw i ∉
      (Loading.namedIds switches).map NodeId.uuid ++ pullAhead.uuids := by decide +kernel
  cases hload : Graph.loadBy hosted (.countingFrom 100) switches with
  | error e => simp [hload, Except.toOption] at hloads
  | ok loaded =>
    rw [hload] at hloads
    obtain ⟨hnext, hids⟩ := Prod.mk.inj (Option.some.inj hloads)
    obtain ⟨merged, hmerge, hbeside⟩ := merge_beside pullAhead_wellFormed hosted_regular hload
      (hnext ▸ Supply.countingFrom_fresh (by norm_num) hunused) (.countingFrom 200)
    rw [hmerge] at hmerges
    obtain ⟨hnext', hreported⟩ := Prod.mk.inj (Option.some.inj hmerges)
    obtain ⟨hids', hscripts⟩ := Prod.mk.inj hreported
    exact ⟨hosted_regular, loaded, merged, rfl, hmerge,
      hbeside (hnext' ▸ Supply.countingFrom_fresh (by norm_num) hunused'), hids, hids', hscripts⟩

end Graph

end Patchbay
